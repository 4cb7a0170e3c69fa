import VAuth.Process.Run
import VAuth.Hid.TaskProtocol

/-!
# The invariant of the event loop

The loop and its worker keep to the protocol of tasks: between two rounds the loop is idle, or
there is one task, whose thread or stored result is the only one (`Resting`). What else is to be
known of the handler and the log is a companion of the task, so that one proof about the loop
serves every such property.
-/

namespace VAuth.Ctap

open Proc Store

/-- Events that a companion need not follow. -/
def LoopEvent.isQuiet : LoopEvent → Bool
  | .published _ _ _ => true
  | .cancelRequested _ => true
  | .sent _ _ => true
  | .cleared _ => true
  | _ => false

/-- Events of which nothing is required. -/
def LoopEvent.isPlain : LoopEvent → Bool
  | .handler _ => false
  | .sent (.reply _) _ => false
  | _ => true

/-- What accompanies a task: a property of the log and the daemon while the loop is idle, while
the worker executes a request and once it has a packet, and a property of the log. The flag tells
whether the task was aborted. -/
structure Companion (L : Libraries) where
  idle : List LoopEvent → Daemon → Prop
  running : Nat → CborRequest → Bool → List LoopEvent → Daemon → HandlerProc CTAPPacket → Prop
  returned : Nat → CborRequest → Bool → List LoopEvent → Daemon → CTAPPacket → Prop
  sound : List LoopEvent → Prop
  launch : ∀ {log d} n q, idle log d → running n q false (log ++ [.started n q]) d (serve L q)
  act : ∀ {log d t q b update next} i, running t q b log d (.act update next) →
    running t q b log (update i d) (next i d)
  reply : ∀ {log d t q b packet}, running t q b log d (.done packet) →
    returned t q b (log ++ [.handler (.replied ⟨q, packet, d.ceremony, d.world⟩)]) d packet
  throw : ∀ {log d t q b e}, running t q b log d (.fail e) →
    returned t q b (log ++ [.handler (.threw q)]) d (makeCborError q.cid (taskError e).code)
  cid : ∀ {log d t q b packet}, returned t q b log d packet → packet.cid = q.cid
  quietIdle : ∀ {log d} event, event.isQuiet = true → idle log d → idle (log ++ [event]) d
  quietRunning : ∀ {log d t q b rest} event, event.isQuiet = true → running t q b log d rest →
    running t q b (log ++ [event]) d rest
  quietReturned : ∀ {log d t q b packet} event, event.isQuiet = true → returned t q b log d packet →
    returned t q b (log ++ [event]) d packet
  abortRunning : ∀ {log d t q b rest}, running t q b log d rest →
    running t q true (log ++ [.initAccepted q.cid (some t)]) d rest
  abortReturned : ∀ {log d t q b packet}, returned t q b log d packet →
    returned t q true (log ++ [.initAccepted q.cid (some t)]) d packet
  init : ∀ {log d} cid, idle log d →
    idle (log ++ [.initAccepted cid none] ++ [.reset 0]) { d with getAssertion := {} }
  settle : ∀ {log d t q packet}, returned t q false log d packet → idle log d
  drop : ∀ {log d t q packet}, returned t q true log d packet →
    idle (log ++ [.reset 0]) { d with getAssertion := {} }
  soundSnoc : ∀ {log event}, sound log → event.isPlain = true → sound (log ++ [event])
  soundReplied : ∀ {log d t q b packet}, sound log → running t q b log d (.done packet) →
    sound (log ++ [.handler (.replied ⟨q, packet, d.ceremony, d.world⟩)])
  soundThrew : ∀ {log d t q b e}, sound log → running t q b log d (.fail e) →
    sound (log ++ [.handler (.threw q)])
  soundReply : ∀ {log d t q packet}, sound log → returned t q false log d packet →
    sound (log ++ [.sent (.reply t) packet])

variable {L : Libraries}

/-! ## The states of the loop -/

/-- How far the worker is with the request. -/
def ThreadPhase.Meets (K : Companion L) (t : Nat) (q : CborRequest) (aborted : Bool)
    (log : List LoopEvent) (d : Daemon) : ThreadPhase → Prop
  | .executing rest => K.running t q aborted log d rest
  | .publishing packet => K.returned t q aborted log d packet
  | .exiting => False

/-- The worker of the task `t` and what it has stored. -/
def Progress (K : Companion L) (t : Nat) (q : CborRequest) (generation : UInt64) (aborted : Bool)
    (s : LoopState) : Option CTAPPacket → Prop
  | none => ∃ thread, s.threads = [thread] ∧ thread.task = t ∧ thread.request = q ∧
      thread.generation = generation ∧ thread.phase.Meets K t q aborted s.log s.daemon
  | some packet => K.returned t q aborted s.log s.daemon packet ∧
      (s.threads = [] ∨ ∃ thread, s.threads = [thread] ∧ thread.task = t ∧ thread.phase = .exiting)

/-- There is one task. -/
structure Working (K : Companion L) (t : Nat) (q : CborRequest) (generation : UInt64)
    (c d : Bool) (r : Option CTAPPacket) (s : LoopState) : Prop where
  follows : Follows s.log (.busy t q c d r)
  sound : K.sound s.log
  progress : Progress K t q generation d s r

/-- The active record of the task. -/
structure OnTask (t : Nat) (q : CborRequest) (generation : UInt64) (c d : Bool) (s : LoopState) :
    Prop where
  active : ∃ active, s.active = some active ∧ active.task = t ∧ active.generation = generation ∧
    active.cid = q.cid ∧ active.cancelRequested = c ∧ active.discardResult = d
  tasks : s.tasks = t + 1

/-- What a worker stores. -/
def stored (q : CborRequest) (generation : UInt64) (r : Option CTAPPacket) : Option TaskResult :=
  r.map fun packet => ⟨generation, q.cid, packet⟩

structure Idle (K : Companion L) (s : LoopState) : Prop where
  follows : Follows s.log (.idle s.tasks)
  sound : K.sound s.log
  companion : K.idle s.log s.daemon
  active : s.active = none
  completion : s.completion = none
  worker : s.worker = none
  threads : s.threads = []

/-- There is a task, whose result the loop has not taken, and the `jthread` owns this thread. -/
inductive Tasked (K : Companion L) (t : Nat) (worker : Option Nat) (s : LoopState) : Prop
  | mk {q : CborRequest} {generation : UInt64} {c d : Bool} {r : Option CTAPPacket}
      (hWorking : Working K t q generation c d r s) (hTask : OnTask t q generation c d s)
      (hWorker : s.worker = worker) (hStored : s.completion = stored q generation r)

/-- The loop between two of its actions. -/
inductive Resting (K : Companion L) (s : LoopState) : Prop
  | idle (h : Idle K s)
  | busy {t : Nat} (h : Tasked K t (some t) s)

/-- What holds at any time, also where the loop has thrown. -/
inductive Reached (K : Companion L) (s : LoopState) : Prop
  | alone {σ : Status} (hFollows : Follows s.log σ) (hSound : K.sound s.log)
      (hThreads : s.threads = [])
  | busy {t : Nat} {q : CborRequest} {generation : UInt64} {c d : Bool} {r : Option CTAPPacket}
      (hWorking : Working K t q generation c d r s) (hStored : r = none → s.completion = none)

section Threads

variable {K : Companion L} {s s' : LoopState} {t : Nat} {q : CborRequest} {generation : UInt64}
  {c d : Bool} {r : Option CTAPPacket}

/-! ## Steps of the worker -/

theorem ThreadStep.own (h : ThreadStep s s') :
    s'.active = s.active ∧ s'.worker = s.worker ∧ s'.tasks = s.tasks := by
  cases h <;> exact ⟨rfl, rfl, rfl⟩

theorem ThreadStep.exists (h : ThreadStep s s') : s.threads ≠ [] := by
  intro hNone
  cases h with
  | act hThreads _ _ => simp [hNone] at hThreads
  | returned hThreads _ => simp [hNone] at hThreads
  | threw hThreads _ => simp [hNone] at hThreads
  | published hThreads _ => simp [hNone] at hThreads
  | ended hThreads _ => simp [hNone] at hThreads

theorem eq_of_single {thread thread' : Thread} {before after : List Thread}
    (h : s.threads = [thread]) (hThreads : s.threads = before ++ thread' :: after) :
    before = [] ∧ thread' = thread ∧ after = [] := by
  rw [h] at hThreads
  cases before with
  | nil =>
    obtain ⟨rfl, rfl⟩ := List.cons.inj hThreads
    exact ⟨rfl, rfl, rfl⟩
  | cons b before => simp at hThreads

/-- A thread that has stored its packet can only end. -/
theorem ThreadStep.of_exiting {thread : Thread} (h : ThreadStep s s')
    (hThreads : s.threads = [thread]) (hExiting : thread.phase = .exiting) :
    s' = { s with threads := [] } := by
  cases h with
  | act hAt hPhase _ =>
    obtain ⟨-, rfl, -⟩ := eq_of_single hThreads hAt
    cases hExiting.symm.trans hPhase
  | returned hAt hPhase =>
    obtain ⟨-, rfl, -⟩ := eq_of_single hThreads hAt
    cases hExiting.symm.trans hPhase
  | threw hAt hPhase =>
    obtain ⟨-, rfl, -⟩ := eq_of_single hThreads hAt
    cases hExiting.symm.trans hPhase
  | published hAt hPhase =>
    obtain ⟨-, rfl, -⟩ := eq_of_single hThreads hAt
    cases hExiting.symm.trans hPhase
  | ended hAt _ =>
    obtain ⟨rfl, -, rfl⟩ := eq_of_single hThreads hAt
    rfl

theorem eq_none_of_stored (h : s.completion = stored q generation r) (hr : r = none) :
    s.completion = none := by
  rw [h, hr]
  rfl

theorem Working.threadStep (h : Working K t q generation c d r s)
    (hNone : r = none → s.completion = none) (hStep : ThreadStep s s') :
    Working K t q generation c d r s' ∧ s'.completion = s.completion ∨
      r = none ∧ ∃ packet, Working K t q generation c d (some packet) s' ∧
        s'.completion = some ⟨generation, q.cid, packet⟩ := by
  obtain ⟨hFollows, hSound, hProgress⟩ := h
  cases r with
  | some packet =>
    left
    obtain ⟨hReturned, hThreads | ⟨thread, hThreads, -, hExiting⟩⟩ := hProgress
    · exact absurd hThreads hStep.exists
    · rw [hStep.of_exiting hThreads hExiting]
      exact ⟨⟨hFollows, hSound, hReturned, .inl rfl⟩, rfl⟩
  | none =>
    obtain ⟨thread, hThreads, rfl, rfl, rfl, hMeets⟩ := hProgress
    cases hStep with
    | act hAt hPhase _ =>
      obtain ⟨rfl, rfl, rfl⟩ := eq_of_single hThreads hAt
      rw [hPhase] at hMeets
      exact .inl ⟨⟨hFollows, hSound, _, rfl, rfl, rfl, rfl, K.act _ hMeets⟩, rfl⟩
    | returned hAt hPhase =>
      obtain ⟨rfl, rfl, rfl⟩ := eq_of_single hThreads hAt
      rw [hPhase] at hMeets
      refine .inl ⟨⟨hFollows.snoc .handler, K.soundReplied hSound hMeets, ?_⟩, rfl⟩
      exact ⟨_, rfl, rfl, rfl, rfl, K.reply hMeets⟩
    | threw hAt hPhase =>
      obtain ⟨rfl, rfl, rfl⟩ := eq_of_single hThreads hAt
      rw [hPhase] at hMeets
      refine .inl ⟨⟨hFollows.snoc .handler, K.soundThrew hSound hMeets, ?_⟩, rfl⟩
      exact ⟨_, rfl, rfl, rfl, rfl, K.throw hMeets⟩
    | published hAt hPhase =>
      obtain ⟨rfl, rfl, rfl⟩ := eq_of_single hThreads hAt
      rw [hPhase] at hMeets
      refine .inr ⟨rfl, _, ⟨?_, K.soundSnoc hSound rfl, ?_, .inr ⟨_, rfl, rfl, rfl⟩⟩, rfl⟩
      · rw [hNone rfl]
        exact hFollows.snoc .published
      · exact K.quietReturned _ rfl hMeets
    | ended hAt hPhase =>
      obtain ⟨-, rfl, -⟩ := eq_of_single hThreads hAt
      rw [hPhase] at hMeets
      exact hMeets.elim

theorem OnTask.threadStep (h : OnTask t q generation c d s) (hStep : ThreadStep s s') :
    OnTask t q generation c d s' :=
  ⟨hStep.own.1 ▸ h.active, hStep.own.2.2.trans h.tasks⟩

theorem Tasked.threadStep {worker : Option Nat} (h : Tasked K t worker s)
    (hStep : ThreadStep s s') : Tasked K t worker s' := by
  obtain ⟨hWorking, hTask, hWorker, hStored⟩ := h
  have hNext := hTask.threadStep hStep
  have hOwned := hStep.own.2.1.trans hWorker
  rcases hWorking.threadStep (eq_none_of_stored hStored) hStep with
    ⟨hWorking, hSame⟩ | ⟨rfl, packet, hWorking, hNew⟩
  · exact ⟨hWorking, hNext, hOwned, hSame.trans hStored⟩
  · exact ⟨hWorking, hNext, hOwned, hNew⟩

theorem Resting.threadStep (h : Resting K s) (hStep : ThreadStep s s') : Resting K s' := by
  cases h with
  | idle h => exact absurd h.threads hStep.exists
  | busy h => exact .busy (h.threadStep hStep)

theorem Reached.threadStep (h : Reached K s) (hStep : ThreadStep s s') : Reached K s' := by
  cases h with
  | alone _ _ hThreads => exact absurd hThreads hStep.exists
  | busy hWorking hStored =>
    rcases hWorking.threadStep hStored hStep with ⟨hWorking, hSame⟩ | ⟨rfl, packet, hWorking, -⟩
    · exact .busy hWorking fun hr => hSame.trans (hStored hr)
    · exact .busy hWorking nofun

theorem Tasked.reached {worker : Option Nat} (h : Tasked K t worker s) : Reached K s := by
  obtain ⟨hWorking, -, -, hStored⟩ := h
  exact .busy hWorking (eq_none_of_stored hStored)

theorem Resting.reached (h : Resting K s) : Reached K s := by
  cases h with
  | idle h => exact .alone h.follows h.sound h.threads
  | busy h => exact h.reached

/-- One worker at a time, and a log that keeps to the protocol. -/
theorem Reached.summary (h : Reached K s) :
    s.threads.length ≤ 1 ∧ (∃ σ, Follows s.log σ) ∧ K.sound s.log := by
  cases h with
  | alone hFollows hSound hThreads => exact ⟨by simp [hThreads], ⟨_, hFollows⟩, hSound⟩
  | @busy t q generation c d r hWorking _ =>
    refine ⟨?_, ⟨_, hWorking.follows⟩, hWorking.sound⟩
    have hProgress := hWorking.progress
    cases r with
    | none =>
      obtain ⟨thread, hThreads, -⟩ := hProgress
      simp [hThreads]
    | some packet =>
      obtain ⟨-, hThreads | ⟨thread, hThreads, -⟩⟩ := hProgress
      · simp [hThreads]
      · simp [hThreads]

end Threads

end VAuth.Ctap
