import VAuth.Hid.LoopInvariant

/-!
# Rounds of the event loop

Every action of the loop keeps the invariant: what it does to the state first, then the weakest
preconditions of the functions of the loop, up to `run`.
-/

namespace VAuth.Ctap

open Proc Store

variable {L : Libraries} {K : Companion L} {s s' : LoopState} {t : Nat} {q : CborRequest}
  {generation : UInt64} {c c' d : Bool} {r : Option CTAPPacket} {event : LoopEvent}

/-! ## Actions -/

theorem ThreadPhase.Meets.quiet {log : List LoopEvent} {daemon : Daemon} {phase : ThreadPhase}
    (h : phase.Meets K t q d log daemon) (hQuiet : event.isQuiet = true) :
    phase.Meets K t q d (log ++ [event]) daemon := by
  cases phase with
  | executing rest => exact K.quietRunning event hQuiet h
  | publishing packet => exact K.quietReturned event hQuiet h
  | exiting => exact h

theorem ThreadPhase.Meets.abort {log : List LoopEvent} {daemon : Daemon} {phase : ThreadPhase}
    (h : phase.Meets K t q d log daemon) :
    phase.Meets K t q true (log ++ [.initAccepted q.cid (some t)]) daemon := by
  cases phase with
  | executing rest => exact K.abortRunning h
  | publishing packet => exact K.abortReturned h
  | exiting => exact h

theorem Working.note (h : Working K t q generation c d r s) (hQuiet : event.isQuiet = true)
    (hAllowed : Allowed (.busy t q c d r) event (.busy t q c' d r))
    (hPlain : event.isPlain = true) : Working K t q generation c' d r (s.note [event]) := by
  refine ⟨h.follows.snoc hAllowed, K.soundSnoc h.sound hPlain, ?_⟩
  have hProgress := h.progress
  cases r with
  | none =>
    obtain ⟨thread, hThreads, hTask, hRequest, hGeneration, hMeets⟩ := hProgress
    exact ⟨thread, hThreads, hTask, hRequest, hGeneration, hMeets.quiet hQuiet⟩
  | some packet => exact ⟨K.quietReturned event hQuiet hProgress.1, hProgress.2⟩

theorem Working.abort (h : Working K t q generation c d r s) :
    Working K t q generation true true r (s.note [.initAccepted q.cid (some t)]) := by
  refine ⟨h.follows.snoc .aborted, K.soundSnoc h.sound rfl, ?_⟩
  have hProgress := h.progress
  cases r with
  | none =>
    obtain ⟨thread, hThreads, hTask, hRequest, hGeneration, hMeets⟩ := hProgress
    exact ⟨thread, hThreads, hTask, hRequest, hGeneration, hMeets.abort⟩
  | some packet => exact ⟨K.abortReturned hProgress.1, hProgress.2⟩

theorem Working.requestStop (h : Working K t q generation c d r s) :
    Working K t q generation c d r s.requestStop := by
  refine ⟨h.follows, h.sound, ?_⟩
  have hProgress := h.progress
  cases r with
  | none =>
    obtain ⟨thread, hThreads, hTask, hRequest, hGeneration, hMeets⟩ := hProgress
    refine ⟨if s.worker = some thread.task then { thread with stopRequested := true } else thread,
      by simp [LoopState.requestStop, hThreads], ?_⟩
    split
    · exact ⟨hTask, hRequest, hGeneration, hMeets⟩
    · exact ⟨hTask, hRequest, hGeneration, hMeets⟩
  | some packet =>
    obtain ⟨hReturned, hThreads | ⟨thread, hThreads, hTask, hExiting⟩⟩ := hProgress
    · exact ⟨hReturned, .inl (by simp [LoopState.requestStop, hThreads])⟩
    · refine ⟨hReturned, .inr ⟨if s.worker = some thread.task then
        { thread with stopRequested := true } else thread,
        by simp [LoopState.requestStop, hThreads], ?_⟩⟩
      split
      · exact ⟨hTask, hExiting⟩
      · exact ⟨hTask, hExiting⟩

theorem Reached.requestStop (h : Reached K s) : Reached K s.requestStop := by
  cases h with
  | alone hFollows hSound hThreads =>
    exact .alone hFollows hSound (by simp [LoopState.requestStop, hThreads])
  | busy hWorking hStored => exact .busy hWorking.requestStop hStored

/-- The loop may set the variables that only concern the transport. -/
theorem Resting.setLocal (h : Resting K s) (incoming : Option IncomingTransaction)
    (allocatedCids : List UInt32) : Resting K { s with incoming, allocatedCids } := by
  cases h with
  | idle h =>
    exact .idle ⟨h.follows, h.sound, h.companion, h.active, h.completion, h.worker, h.threads⟩
  | busy h =>
    obtain ⟨hWorking, hTask, hWorker, hStored⟩ := h
    exact .busy ⟨⟨hWorking.follows, hWorking.sound, hWorking.progress⟩,
      ⟨hTask.active, hTask.tasks⟩, hWorker, hStored⟩

theorem Resting.sentOther (h : Resting K s) (packet : CTAPPacket) :
    Resting K (s.note [.sent .other packet]) := by
  cases h with
  | idle h =>
    exact .idle ⟨h.follows.snoc .other, K.soundSnoc h.sound rfl,
      K.quietIdle _ rfl h.companion, h.active, h.completion, h.worker, h.threads⟩
  | busy h =>
    obtain ⟨hWorking, hTask, hWorker, hStored⟩ := h
    exact .busy ⟨hWorking.note rfl .other rfl, ⟨hTask.active, hTask.tasks⟩, hWorker, hStored⟩

theorem Resting.cancel (h : Resting K s) (cid : UInt32) : Resting K (s.cancel cid) := by
  cases h with
  | idle h =>
    rw [LoopState.cancel, h.active]
    exact .idle h
  | busy h =>
    have hRest := h
    obtain ⟨hWorking, ⟨⟨active, hActive, hTask, hGeneration, hCid, -, hDiscard⟩, hTasks⟩, hWorker,
      hStored⟩ := h
    simp only [LoopState.cancel, hActive]
    by_cases hMine : active.cid = cid ∧ active.discardResult = false
    · rw [if_pos hMine]
      obtain rfl := hDiscard.symm.trans hMine.2
      obtain rfl := hTask
      have hStopped : Working K _ _ _ _ _ _
          { s with active := some { active with cancelRequested := true } }.requestStop :=
        Working.requestStop ⟨hWorking.follows, hWorking.sound, hWorking.progress⟩
      exact .busy ⟨hStopped.note rfl .cancelRequested rfl,
        ⟨⟨_, rfl, rfl, hGeneration, hCid, rfl, hDiscard⟩, hTasks⟩, hWorker, hStored⟩
    · rw [if_neg hMine]
      exact .busy hRest

/-- The handler is cleared while no thread runs. -/
theorem Idle.acceptInit (h : Idle K s) (cid : UInt32) : Idle K (s.acceptInit cid) := by
  rw [LoopState.acceptInit, h.active]
  have hLength : (s.note [.initAccepted cid none]).threads.length = 0 := by
    rw [LoopState.note, h.threads]
    rfl
  simp only [LoopState.resetHandler, hLength]
  refine ⟨(h.follows.snoc .initAccepted).snoc .reset, ?_, K.init cid h.companion, h.active,
    h.completion, h.worker, h.threads⟩
  exact K.soundSnoc (K.soundSnoc h.sound rfl) rfl

theorem Resting.acceptInit (h : Resting K s) (cid : UInt32)
    (hCid : ∀ active, s.active = some active → active.cid = cid) :
    Resting K (s.acceptInit cid) := by
  cases h with
  | idle h => exact .idle (h.acceptInit cid)
  | busy h =>
    obtain ⟨hWorking, ⟨⟨active, hActive, rfl, hGeneration, hSame, -, -⟩, hTasks⟩, hWorker,
      hStored⟩ := h
    obtain rfl := hCid active hActive
    simp only [LoopState.acceptInit, hActive, if_true]
    have hStopped : Working K _ _ _ _ _ _ { s with active := some { active with
        cancelRequested := true, discardResult := true } }.requestStop :=
      Working.requestStop ⟨hWorking.follows, hWorking.sound, hWorking.progress⟩
    have hAborted := hStopped.abort
    rw [← hSame] at hAborted
    exact .busy ⟨hAborted, ⟨⟨_, rfl, rfl, hGeneration, hSame, rfl, rfl⟩, hTasks⟩, hWorker, hStored⟩

theorem Resting.idle_of_none (h : Resting K s) (hActive : s.active = none) : Idle K s := by
  cases h with
  | idle h => exact h
  | busy h =>
    obtain ⟨-, hTask, -, -⟩ := h
    obtain ⟨active, hSome, -⟩ := hTask.active
    cases hActive.symm.trans hSome

/-! ## Steps of the loop -/

/-- The loop among its workers. -/
def loopSetting (K : Companion L) : Setting LoopState LoopInput :=
  .among ThreadStep (fun _ _ => True) fun _ s' => Reached K s'

/-- The process ends only as `Q` says, and keeps the state within reach all the time. -/
abbrev Goes {α : Type} (K : Companion L) (Q : α → LoopState → Prop) (p : LoopProc α)
    (s : LoopState) : Prop :=
  wp (loopSetting K) Q (fun _ => Reached K) p s

section Steps

variable {α β : Type} {Q : α → LoopState → Prop} {J : LoopState → Prop}

theorem Goes.bind {P : β → LoopState → Prop} {p : LoopProc β} {f : β → LoopProc α}
    (hp : Goes K P p s) (hf : ∀ b s', P b s' → Goes K Q (f b) s') : Goes K Q (p >>= f) s :=
  wp_seq hp hf (fun _ _ h => h)

/-- The workers keep it. -/
def Kept (J : LoopState → Prop) : Prop := ∀ s s', ThreadStep s s' → J s → J s'

theorem kept_resting : Kept (Resting K) := fun _ _ hStep h => h.threadStep hStep

theorem kept_reached : Kept (Reached K) := fun _ _ hStep h => h.threadStep hStep

theorem kept_tasked {worker : Option Nat} : Kept (Tasked K t worker) :=
  fun _ _ hStep h => h.threadStep hStep

theorem kept_idle : Kept (Idle K) := fun _ _ hStep h => absurd h.threads hStep.exists

/-- Nothing changes the active record while the loop goes on. -/
theorem Kept.active (h : Kept J) (a : Option ActiveTask) : Kept fun s => J s ∧ s.active = a :=
  fun s s' hStep hs => ⟨h s s' hStep hs.1, hStep.own.1.trans hs.2⟩

theorem goes_step {f : LoopInput → LoopState → Except Exn α × LoopState} (hJ : Kept J) (h : J s)
    (hf : ∀ i s', J s' → Reached K (f i s').2 ∧ ∀ a, (f i s').1 = .ok a → Q a (f i s').2) :
    Goes K Q (atomically f) s := by
  refine wp_tolerant_atomically (tolerates_among hJ) h fun s' i hs _ => ?_
  obtain ⟨hReached, hOk⟩ := hf i s' hs
  exact ⟨hReached, hOk, fun _ _ => hReached⟩

theorem goes_modify {f : LoopState → LoopState} {Q : Unit → LoopState → Prop} (hJ : Kept J)
    (h : J s) (hf : ∀ s', J s' → Reached K (f s') ∧ Q () (f s')) : Goes K Q (Proc.modify f) s :=
  goes_step hJ h fun _ s' hs => ⟨(hf s' hs).1, fun _ _ => (hf s' hs).2⟩

theorem goes_observe {f : LoopInput → LoopState → Except Exn α} (hJ : Kept J) (h : J s)
    (hReached : ∀ s', J s' → Reached K s') (hf : ∀ i s' a, J s' → f i s' = .ok a → Q a s') :
    Goes K Q (Proc.observe f) s :=
  goes_step hJ h fun i s' hs => ⟨hReached s' hs, fun a ha => hf i s' a hs ha⟩

theorem goes_read {f : LoopState → α} (hJ : Kept J) (h : J s)
    (hReached : ∀ s', J s' → Reached K s') (hf : ∀ s', J s' → Q (f s') s') :
    Goes K Q (Proc.read f) s := by
  refine goes_observe hJ h hReached fun _ s' a hs ha => ?_
  cases ha
  exact hf s' hs

theorem goes_sendPacket {purpose : Purpose} {packet : CTAPPacket} {Q : Unit → LoopState → Prop}
    (hJ : Kept J) (h : J s) (hReached : ∀ s', J s' → Reached K s')
    (hSent : ∀ s', J s' → Reached K (s'.note [.sent purpose packet]) ∧
      Q () (s'.note [.sent purpose packet])) : Goes K Q (sendPacket purpose packet) s := by
  refine goes_step hJ h fun i s' hs => ?_
  cases packet.stringify with
  | error e => exact ⟨hReached s' hs, nofun⟩
  | ok frames =>
    by_cases hi : i.sent = true
    · simp only [if_pos hi]
      exact ⟨(hSent s' hs).1, fun _ _ => (hSent s' hs).2⟩
    · simp only [if_neg hi]
      exact ⟨hReached s' hs, nofun⟩

theorem goes_sendOther (h : Resting K s) (packet : CTAPPacket) :
    Goes K (fun _ => Resting K) (sendPacket .other packet) s :=
  goes_sendPacket kept_resting h (fun _ => Resting.reached) fun _ hs =>
    ⟨(hs.sentOther packet).reached, hs.sentOther packet⟩

theorem goes_refuse (h : Resting K s) (cid : UInt32) (error : HIDError) :
    Goes K (fun _ => Resting K) (refuse cid error) s :=
  (goes_sendOther h _).bind fun _ _ hs => hs

/-! ## Waiting for the worker -/

theorem ThreadStep.workerRuns (h : ThreadStep s s') (hEnded : s.workerRuns = false) :
    s'.workerRuns = false := by
  unfold LoopState.workerRuns at hEnded ⊢
  cases h with
  | act hThreads _ _ => simpa [hThreads] using hEnded
  | returned hThreads _ => simpa [hThreads] using hEnded
  | threw hThreads _ => simpa [hThreads] using hEnded
  | published hThreads _ => simpa [hThreads] using hEnded
  | ended hThreads _ =>
    simp only [hThreads, List.any_append, List.any_cons, Bool.or_eq_false_iff] at hEnded ⊢
    exact ⟨hEnded.1, hEnded.2.2⟩

theorem goes_join {Q : Unit → LoopState → Prop} (hJ : Kept J) (h : J s)
    (hReached : ∀ s', J s' → Reached K s')
    (hEnd : ∀ s', J s' → s'.workerRuns = false →
      Reached K { s' with worker := none } ∧ Q () { s' with worker := none }) (rounds : Nat) :
    Goes K Q (join rounds) s := by
  refine Goes.bind (P := fun _ s' => J s' ∧ s'.workerRuns = false) ?_ ?_
  · refine wp_loop (fun _ => J) trivial (fun _ s' hs => ?_) rounds h
    refine goes_observe hJ hs hReached fun _ s' a hs ha => ?_
    cases ha
    by_cases hRuns : s'.workerRuns = true
    · rw [if_pos hRuns]
      exact hs
    · rw [if_neg hRuns]
      exact ⟨hs, Bool.eq_false_iff.mpr hRuns⟩
  · intro _ s' hs
    have hKept : Kept fun s => J s ∧ s.workerRuns = false :=
      fun _ _ hStep hs => ⟨hJ _ _ hStep hs.1, hStep.workerRuns hs.2⟩
    exact goes_modify hKept hs fun s' hs => hEnd s' hs.1 hs.2

theorem Reached.setWorker (h : Reached K s) (worker : Option Nat) :
    Reached K { s with worker } := by
  cases h with
  | alone hFollows hSound hThreads => exact .alone hFollows hSound hThreads
  | busy hWorking hStored =>
    exact .busy ⟨hWorking.follows, hWorking.sound, hWorking.progress⟩ hStored

theorem goes_stopAndJoin (h : Reached K s) (rounds : Nat) :
    Goes K (fun _ => Reached K) (stopAndJoin rounds) s := by
  refine Goes.bind (P := fun _ => Reached K)
    (goes_read kept_reached h (fun _ hs => hs) fun _ hs => hs) ?_
  intro joins s' hs
  cases joins with
  | false => exact hs
  | true =>
    refine Goes.bind (P := fun _ => Reached K)
      (goes_modify kept_reached hs fun _ hs => ⟨hs.requestStop, hs.requestStop⟩) ?_
    intro _ s' hs
    exact goes_join kept_reached hs (fun _ hs => hs)
      (fun _ hs _ => ⟨hs.setWorker none, hs.setWorker none⟩) rounds

/-! ## Requests -/

theorem goes_cancelTask (h : Resting K s) (request : UHIDReport) :
    Goes K (fun _ => Resting K) (cancelTask request) s :=
  (goes_modify (Q := fun _ => Resting K) kept_resting h fun _ hs =>
    ⟨(hs.cancel request.cid).reached, hs.cancel request.cid⟩).bind fun _ _ hs => hs

theorem goes_allocateCid (h : Resting K s) (rounds : Nat) :
    Goes K (fun _ => Resting K) (allocateCid rounds) s := by
  refine wp_loop (fun _ => Resting K) trivial (fun _ s' hs => ?_) rounds h
  refine goes_step kept_resting hs fun i s' hs => ?_
  by_cases hTaken : i.candidate = ctaphidBroadcastCid ∨ i.candidate = ctaphidInvalidCid ∨
      i.candidate ∈ s'.allocatedCids
  · simp only [if_pos hTaken]
    refine ⟨hs.reached, fun a ha => ?_⟩
    cases ha
    exact hs
  · simp only [if_neg hTaken]
    have hNext := hs.setLocal s'.incoming (i.candidate :: s'.allocatedCids)
    refine ⟨hNext.reached, fun a ha => ?_⟩
    cases ha
    exact hNext

theorem goes_openChannel (h : Resting K s) (rounds : Nat) (request : UHIDReport) :
    Goes K (fun _ => Resting K) (openChannel rounds request) s := by
  unfold openChannel
  by_cases hEmpty : request.payload = []
  · rw [if_pos hEmpty]
    exact goes_refuse h _ _
  rw [if_neg hEmpty]
  refine Goes.bind (P := fun a s' => Resting K s' ∧ s'.active = a)
    (goes_read kept_resting h (fun _ => Resting.reached) fun _ hs => ⟨hs, rfl⟩) ?_
  intro active s' hs
  by_cases hBusy : (active.any fun active => request.cid ≠ active.cid) = true
  · rw [if_pos hBusy]
    exact goes_refuse hs.1 _ _
  rw [if_neg hBusy]
  by_cases hBroadcast : request.cid = ctaphidBroadcastCid
  · rw [if_pos hBroadcast]
    refine (goes_allocateCid hs.1 rounds).bind fun assigned s' hs => ?_
    exact (goes_sendOther hs _).bind fun _ _ hs => hs
  rw [if_neg hBroadcast]
  refine Goes.bind (P := fun _ s' => Resting K s' ∧ s'.active = active)
    (goes_read (kept_resting.active active) hs (fun _ hs => hs.1.reached) fun _ hs => hs) ?_
  intro allocated s' hs
  by_cases hUnknown : request.cid ∉ allocated
  · rw [if_pos hUnknown]
    exact goes_refuse hs.1 _ _
  rw [if_neg hUnknown]
  -- the active task, if there is one, is of this channel
  have hAccept : ∀ s', Resting K s' ∧ s'.active = active →
      Resting K (s'.acceptInit request.cid) := by
    intro s' hs
    refine hs.1.acceptInit request.cid fun task hTask => ?_
    rw [hs.2] at hTask
    simp only [hTask, Option.any_some, decide_eq_true_eq, ne_eq, not_not] at hBusy
    exact hBusy.symm
  refine Goes.bind (P := fun _ => Resting K) (goes_modify (kept_resting.active active) hs
    fun s' hs => ⟨(hAccept s' hs).reached, hAccept s' hs⟩) fun _ s' hs => ?_
  exact (goes_sendOther hs _).bind fun _ _ hs => hs

/-- A new task: its thread is the only one. -/
theorem goes_launch (h : Idle K s) (request : CborRequest) :
    Goes K (fun task => Tasked K task none) (launch L request) s := by
  refine goes_step kept_idle h fun i s' hs => ?_
  by_cases hStarts : i.threadStarts = true
  · simp only [if_pos hStarts]
    have hTask : OnTask s'.tasks request s'.nextGeneration false false
        ((s'.activate request.cid i.now).addThread L s'.nextGeneration request) :=
      ⟨⟨_, rfl, rfl, rfl, rfl, rfl, rfl⟩, rfl⟩
    have hWorking : Working K s'.tasks request s'.nextGeneration false false none
        ((s'.activate request.cid i.now).addThread L s'.nextGeneration request) := by
      refine ⟨hs.follows.snoc .started, K.soundSnoc hs.sound rfl,
        { task := s'.tasks, generation := s'.nextGeneration, request,
          phase := .executing (serve L request) }, ?_, rfl, rfl, rfl, ?_⟩
      · simp [LoopState.addThread, LoopState.activate, hs.threads]
      · exact K.launch s'.tasks request hs.companion
    have hTasked : Tasked K s'.tasks none _ := ⟨hWorking, hTask, hs.worker, hs.completion⟩
    refine ⟨hTasked.reached, fun task hEq => ?_⟩
    cases hEq
    exact hTasked
  · simp only [if_neg hStarts]
    exact ⟨.alone hs.follows hs.sound hs.threads, nofun⟩

theorem Tasked.setWorker {worker : Option Nat} (h : Tasked K t worker s) (worker' : Option Nat) :
    Tasked K t worker' { s with worker := worker' } := by
  obtain ⟨hWorking, hTask, -, hStored⟩ := h
  exact ⟨⟨hWorking.follows, hWorking.sound, hWorking.progress⟩, ⟨hTask.active, hTask.tasks⟩, rfl,
    hStored⟩

/-- There is no old thread to wait for. -/
theorem goes_startWorker (h : Idle K s) (rounds : Nat) (request : CborRequest) :
    Goes K (fun _ => Resting K) (startWorker L rounds request) s := by
  refine (goes_launch h request).bind fun task s' hs => ?_
  refine Goes.bind (P := fun _ => Tasked K task none) ?_ fun _ s' hs => ?_
  · refine Goes.bind (P := fun joins s' => joins = false ∧ Tasked K task none s')
      (goes_read kept_tasked hs (fun _ => Tasked.reached) fun s' hs => ⟨?_, hs⟩) ?_
    · obtain ⟨-, -, hWorker, -⟩ := hs
      rw [hWorker]
      rfl
    · rintro _ s' ⟨rfl, hs⟩
      exact hs
  · exact goes_modify kept_tasked hs fun s' hs =>
      ⟨(hs.setWorker (some task)).reached, .busy (hs.setWorker (some task))⟩

theorem goes_startTask (h : Resting K s) (rounds : Nat) (cid : UInt32) (payload : Bytes) :
    Goes K (fun _ => Resting K) (startTask L rounds cid payload) s := by
  cases payload with
  | nil => exact goes_refuse h _ _
  | cons command parameters =>
    refine Goes.bind (P := fun a s' => Resting K s' ∧ s'.active = a)
      (goes_read kept_resting h (fun _ => Resting.reached) fun _ hs => ⟨hs, rfl⟩) ?_
    intro active s' hs
    cases active with
    | some task => exact goes_refuse hs.1 _ _
    | none =>
      refine Goes.bind (goes_startWorker (hs.1.idle_of_none hs.2) rounds _) ?_
      exact fun _ _ hs => hs

theorem goes_dispatchCommand (h : Resting K s) (rounds : Nat) (request : UHIDReport) :
    Goes K (fun _ => Resting K) (dispatchCommand L rounds request) s := by
  refine Goes.bind (P := fun _ => Resting K)
    (goes_read kept_resting h (fun _ => Resting.reached) fun _ hs => hs) fun allocated s' hs => ?_
  by_cases hUnknown : request.cid ∉ allocated
  · rw [if_pos hUnknown]
    exact goes_refuse hs _ _
  rw [if_neg hUnknown]
  refine Goes.bind (P := fun _ => Resting K)
    (goes_read kept_resting hs (fun _ => Resting.reached) fun _ hs => hs) fun active s' hs => ?_
  by_cases hBusy : active.isSome = true
  · rw [if_pos hBusy]
    exact goes_refuse hs _ _
  rw [if_neg hBusy]
  by_cases hPing : request.cmd = ctaphidPing
  · rw [if_pos hPing]
    exact (goes_sendOther hs _).bind fun _ _ hs => hs
  rw [if_neg hPing]
  by_cases hCbor : request.cmd = ctaphidCbor
  · rw [if_pos hCbor]
    exact goes_startTask hs rounds _ _
  · rw [if_neg hCbor]
    exact goes_refuse hs _ _

theorem goes_dispatch (h : Resting K s) (rounds : Nat) (request : UHIDReport) :
    Goes K (fun _ => Resting K) (dispatch L rounds request) s := by
  unfold dispatch
  by_cases hCancel : request.cmd = ctaphidCancel
  · rw [if_pos hCancel]
    exact goes_cancelTask h request
  rw [if_neg hCancel]
  by_cases hInit : request.cmd = ctaphidInit
  · rw [if_pos hInit]
    exact goes_openChannel h rounds request
  · rw [if_neg hInit]
    exact goes_dispatchCommand h rounds request

theorem goes_receiveFrame (h : Resting K s) (rounds : Nat) (data : Bytes) :
    Goes K (fun _ => Resting K) (receiveFrame L rounds data) s := by
  refine Goes.bind (P := fun _ => Resting K) ?_ ?_
  · exact goes_step kept_resting h fun _ s' hs =>
      ⟨(hs.setLocal _ s'.allocatedCids).reached, fun _ _ => hs.setLocal _ s'.allocatedCids⟩
  · intro result s' hs
    cases result with
    | monostate => exact hs
    | report request => exact goes_dispatch hs rounds request
    | error error => exact goes_refuse hs _ _

theorem goes_receive (h : Resting K s) (rounds : Nat) (readable : Bool) :
    Goes K (fun _ => Resting K) (receive L rounds readable) s := by
  cases readable with
  | false => exact h
  | true =>
    refine Goes.bind (P := fun _ => Resting K)
      (goes_observe kept_resting h (fun _ => Resting.reached) fun _ _ _ hs _ => hs) ?_
    intro event s' hs
    cases event with
    | none => exact hs
    | other => exact hs
    | output data => exact goes_receiveFrame hs rounds data

theorem goes_expireMessage (h : Resting K s) : Goes K (fun _ => Resting K) expireMessage s := by
  refine Goes.bind (P := fun _ => Resting K) ?_ ?_
  · exact goes_step kept_resting h fun _ s' hs =>
      ⟨(hs.setLocal _ s'.allocatedCids).reached, fun _ _ => hs.setLocal _ s'.allocatedCids⟩
  · intro error s' hs
    cases error with
    | none => exact hs
    | some error => exact goes_sendOther hs _

end Steps

/-! ## The result of a task -/

/-- The loop has taken the result of its task. -/
inductive Taken (K : Companion L) (worker : Option Nat) (active : ActiveTask) (result : TaskResult)
    (s : LoopState) : Prop
  | mk {q : CborRequest} {c : Bool}
      (hWorking : Working K active.task q active.generation c active.discardResult
        (some result.packet) s)
      (hActive : s.active = some active) (hTasks : s.tasks = active.task + 1)
      (hWorker : s.worker = worker) (hCompletion : s.completion = none)

/-- The reply was sent, or the handler was cleared instead. -/
structure Delivered (K : Companion L) (active : ActiveTask) (s : LoopState) : Prop where
  follows : ∃ σ, Follows s.log σ ∧ Allowed σ (.cleared active.task) (.idle (active.task + 1))
  sound : K.sound s.log
  companion : K.idle s.log s.daemon
  record : s.active = some active
  tasks : s.tasks = active.task + 1
  completion : s.completion = none
  worker : s.worker = none
  threads : s.threads = []

section Results

variable {worker : Option Nat} {active : ActiveTask} {result : TaskResult}

theorem Taken.reached (h : Taken K worker active result s) : Reached K s := by
  obtain ⟨hWorking, -, -, -, -⟩ := h
  exact .busy hWorking nofun

theorem kept_taken : Kept (Taken K worker active result) := by
  rintro s s' hStep ⟨hWorking, hActive, hTasks, hWorker, hCompletion⟩
  obtain ⟨hOwnActive, hOwnWorker, hOwnTasks⟩ := hStep.own
  rcases hWorking.threadStep nofun hStep with ⟨hWorking, hSame⟩ | ⟨hNone, -⟩
  · exact ⟨hWorking, hOwnActive.trans hActive, hOwnTasks.trans hTasks, hOwnWorker.trans hWorker,
      hSame.trans hCompletion⟩
  · cases hNone

/-- What the loop has when it has swapped the stored result out. -/
inductive Swapped (K : Companion L) : Option TaskResult → LoopState → Prop
  | none {s : LoopState} (h : Resting K s) : Swapped K none s
  | some {s : LoopState} {active : ActiveTask} {result : TaskResult}
      (hTaken : Taken K (some active.task) active result s)
      (hSame : result.generation = active.generation) : Swapped K (some result) s

theorem Resting.swap (h : Resting K s) : Swapped K s.completion { s with completion := none } := by
  cases h with
  | idle hIdle =>
    rw [hIdle.completion]
    exact .none (.idle ⟨hIdle.follows, hIdle.sound, hIdle.companion, hIdle.active, rfl,
      hIdle.worker, hIdle.threads⟩)
  | busy hTasked =>
    obtain @⟨q, generation, c, d, r, hWorking, hTask, hWorker, hStored⟩ := hTasked
    obtain ⟨⟨active, hActive, rfl, rfl, hCid, rfl, rfl⟩, hTasks⟩ := hTask
    rw [hStored]
    cases r with
    | none =>
      exact .none (.busy ⟨⟨hWorking.follows, hWorking.sound, hWorking.progress⟩,
        ⟨⟨active, hActive, rfl, rfl, hCid, rfl, rfl⟩, hTasks⟩, hWorker, rfl⟩)
    | some packet =>
      have hTaken : Taken K (some active.task) active ⟨active.generation, q.cid, packet⟩
          { s with completion := none } :=
        ⟨⟨hWorking.follows, hWorking.sound, hWorking.progress⟩, hActive, hTasks, hWorker, rfl⟩
      exact .some hTaken rfl

theorem Swapped.reached {ready : Option TaskResult} (h : Swapped K ready s) : Reached K s := by
  cases h with
  | none h => exact h.reached
  | some hTaken _ => exact hTaken.reached

theorem goes_takeCompletion (h : Resting K s) : Goes K (Swapped K) takeCompletion s := by
  refine goes_step kept_resting h fun _ s' hs => ⟨hs.swap.reached, ?_⟩
  rintro _ ⟨⟩
  exact hs.swap

section

variable (h : Taken K (some active.task) active result s)
include h

theorem Taken.threads (hEnded : s.workerRuns = false) : s.threads = [] := by
  obtain ⟨hWorking, -, -, hWorker, -⟩ := h
  obtain ⟨-, hNone | ⟨thread, hThreads, hTask, -⟩⟩ := hWorking.progress
  · exact hNone
  · simp [LoopState.workerRuns, hThreads, hWorker, hTask] at hEnded

theorem Taken.join : Taken K none active result { s with worker := none } := by
  obtain ⟨hWorking, hActive, hTasks, -, hCompletion⟩ := h
  exact ⟨⟨hWorking.follows, hWorking.sound, hWorking.progress⟩, hActive, hTasks, rfl, hCompletion⟩

theorem goes_joinWorker (rounds : Nat) :
    Goes K (fun _ s' => Taken K none active result s' ∧ s'.threads = []) (joinWorker rounds) s := by
  refine Goes.bind (P := fun joins s' => joins = true ∧ Taken K (some active.task) active result s')
    (goes_read kept_taken h (fun _ => Taken.reached) fun s' hs => ⟨?_, hs⟩) ?_
  · obtain ⟨-, -, -, hWorker, -⟩ := hs
    rw [hWorker]
    rfl
  · rintro _ s' ⟨rfl, hs⟩
    exact goes_join kept_taken hs (fun _ => Taken.reached)
      (fun s' hs hEnded => ⟨hs.join.reached, hs.join, hs.threads hEnded⟩) rounds

end

theorem Delivered.reached (h : Delivered K active s) : Reached K s := by
  obtain ⟨σ, hFollows, -⟩ := h.follows
  exact .alone hFollows h.sound h.threads

theorem kept_delivered : Kept (Delivered K active) :=
  fun _ _ hStep h => absurd h.threads hStep.exists

theorem Taken.reply (h : Taken K none active result s) (hThreads : s.threads = [])
    (hKept : active.discardResult = false) :
    Delivered K active (s.note [.sent (.reply active.task) result.packet]) := by
  obtain ⟨⟨hFollows, hSound, hReturned, -⟩, hActive, hTasks, hWorker, hCompletion⟩ := h
  rw [hKept] at hFollows hReturned
  exact {
    follows := ⟨_, hFollows.snoc (.answered (K.cid hReturned)), .concluded⟩
    sound := K.soundReply hSound hReturned
    companion := K.quietIdle _ rfl (K.settle hReturned)
    record := hActive
    tasks := hTasks
    completion := hCompletion
    worker := hWorker
    threads := hThreads }

theorem Taken.drop (h : Taken K none active result s) (hThreads : s.threads = [])
    (hAborted : active.discardResult = true) : Delivered K active s.resetHandler := by
  obtain ⟨⟨hFollows, hSound, hReturned, -⟩, hActive, hTasks, hWorker, hCompletion⟩ := h
  rw [hAborted] at hFollows hReturned
  have hNone : s.threads.length = 0 := by rw [hThreads, List.length_nil]
  simp only [LoopState.resetHandler, hNone]
  exact {
    follows := ⟨_, hFollows.snoc .discarded, .dropped⟩
    sound := K.soundSnoc hSound rfl
    companion := K.drop hReturned
    record := hActive
    tasks := hTasks
    completion := hCompletion
    worker := hWorker
    threads := hThreads }

theorem goes_deliver (h : Taken K none active result s ∧ s.threads = []) :
    Goes K (fun _ => Delivered K active) (deliver active result.packet) s := by
  have hKept : Kept fun s => Taken K none active result s ∧ s.threads = [] :=
    fun _ _ hStep hs => absurd hs.2 hStep.exists
  unfold deliver
  by_cases hAborted : active.discardResult = true
  · rw [if_pos hAborted]
    exact goes_modify hKept h fun s' hs =>
      ⟨(hs.1.drop hs.2 hAborted).reached, hs.1.drop hs.2 hAborted⟩
  · rw [if_neg hAborted]
    have hSend := Bool.eq_false_iff.mpr hAborted
    exact goes_sendPacket hKept h (fun _ hs => hs.1.reached) fun s' hs =>
      ⟨(hs.1.reply hs.2 hSend).reached, hs.1.reply hs.2 hSend⟩

theorem Delivered.clear (h : Delivered K active s) : Idle K s.clearActive := by
  obtain ⟨σ, hFollows, hCleared⟩ := h.follows
  simp only [LoopState.clearActive, h.record]
  refine ⟨?_, K.soundSnoc h.sound rfl, K.quietIdle _ rfl h.companion, rfl, h.completion,
    h.worker, h.threads⟩
  have hNext := hFollows.snoc hCleared
  rw [← h.tasks] at hNext
  exact hNext

theorem goes_concludeTask (h : Taken K (some active.task) active result s) (rounds : Nat) :
    Goes K (fun _ => Resting K) (concludeTask rounds active result) s := by
  refine (goes_joinWorker h rounds).bind fun _ s' hs => ?_
  refine (goes_deliver hs).bind fun _ s' hs => ?_
  exact goes_modify kept_delivered hs fun s' hs =>
    ⟨(Resting.idle hs.clear).reached, .idle hs.clear⟩

theorem goes_collectResult (h : Resting K s) (rounds : Nat) :
    Goes K (fun _ => Resting K) (collectResult rounds) s := by
  refine (goes_takeCompletion h).bind fun ready s' hs => ?_
  cases hs with
  | none h => exact h
  | @some _ active result hTaken hSame =>
    refine Goes.bind
      (P := fun a s' => a = some active ∧ Taken K (some active.task) active result s')
      (goes_read kept_taken hTaken (fun _ => Taken.reached) fun s' hs => ⟨?_, hs⟩) ?_
    · obtain ⟨-, hActive, -, -, -⟩ := hs
      exact hActive
    · rintro _ s' ⟨rfl, hs⟩
      simp only [if_pos hSame]
      exact goes_concludeTask hs rounds

end Results

/-! ## Keepalives -/

theorem Resting.keepalive (h : Resting K s) {active : ActiveTask} (hActive : s.active = some active)
    (hLive : active.cancelRequested = false) (packet : CTAPPacket) :
    Resting K (s.note [.sent (.keepalive active.task) packet]) := by
  cases h with
  | idle h => cases h.active.symm.trans hActive
  | busy h =>
    obtain ⟨hWorking, ⟨⟨task, hSome, rfl, rfl, hCid, rfl, rfl⟩, hTasks⟩, hWorker, hStored⟩ := h
    obtain rfl := Option.some.inj (hSome.symm.trans hActive)
    have hRecord : OnTask task.task _ task.generation task.cancelRequested task.discardResult
        (s.note [.sent (.keepalive task.task) packet]) :=
      ⟨⟨task, hSome, rfl, rfl, hCid, rfl, rfl⟩, hTasks⟩
    rw [hLive] at hWorking hRecord
    exact .busy ⟨hWorking.note rfl .keepalive rfl, hRecord, hWorker, hStored⟩

theorem Resting.postpone (h : Resting K s) (next : Int) : Resting K { s with
    active := s.active.map fun active => { active with nextKeepalive := next } } := by
  cases h with
  | idle h =>
    exact .idle ⟨h.follows, h.sound, h.companion, by rw [h.active]; rfl, h.completion, h.worker,
      h.threads⟩
  | busy h =>
    obtain ⟨hWorking, ⟨⟨active, hActive, hTask, hGeneration, hCid, hCancel, hDiscard⟩, hTasks⟩,
      hWorker, hStored⟩ := h
    refine .busy ⟨⟨hWorking.follows, hWorking.sound, hWorking.progress⟩, ⟨?_, hTasks⟩, hWorker,
      hStored⟩
    exact ⟨{ active with nextKeepalive := next }, by rw [hActive]; rfl, hTask, hGeneration, hCid,
      hCancel, hDiscard⟩

theorem goes_sendKeepalive (h : Resting K s) : Goes K (fun _ => Resting K) sendKeepalive s := by
  refine Goes.bind (P := fun due s' => Resting K s' ∧ ∀ active now status,
    due = some (active, now, status) → s'.active = some active ∧ active.cancelRequested = false)
    (goes_observe kept_resting h (fun _ => Resting.reached) ?_) ?_
  · intro i s' due hs hDue
    refine ⟨hs, fun active now status hSome => ?_⟩
    obtain ⟨task, hActive, hTask⟩ := Option.bind_eq_some_iff.mp ((Except.ok.inj hDue).trans hSome)
    split at hTask
    · rename_i hLive
      cases hTask
      exact ⟨hActive, hLive.2⟩
    · cases hTask
  · rintro due s' ⟨hs, hDue⟩
    cases due with
    | none => exact hs
    | some due =>
      obtain ⟨active, now, status⟩ := due
      obtain ⟨hActive, hLive⟩ := hDue active now status rfl
      have hKept := (kept_resting (K := K)).active (some active)
      refine Goes.bind (P := fun _ => Resting K) (goes_sendPacket hKept ⟨hs, hActive⟩
        (fun _ hs => hs.1.reached) fun s' hs =>
          ⟨(hs.1.keepalive hs.2 hLive _).reached, hs.1.keepalive hs.2 hLive _⟩) ?_
      intro _ s' hs
      exact goes_modify kept_resting hs fun s' hs =>
        ⟨(hs.postpone _).reached, hs.postpone _⟩

/-! ## Rounds -/

theorem goes_finishRound (h : Resting K s) (rounds : Nat) (goOn : Bool) :
    Goes K (fun _ => Resting K) (finishRound rounds goOn) s := by
  cases goOn with
  | false => exact h
  | true => exact (goes_collectResult h rounds).bind fun _ _ hs => goes_sendKeepalive hs

/-- What a round of the loop leaves behind. -/
def RoundEnds (K : Companion L) (result : Unit ⊕ Unit) (s : LoopState) : Prop :=
  result.elim (fun _ => Resting K s) (fun _ => Reached K s)

theorem goes_serveRound (h : Resting K s) (rounds : Nat) (readable : Bool) :
    Goes K (RoundEnds K) (serveRound L rounds readable) s := by
  refine (goes_expireMessage h).bind fun _ s' hs => ?_
  refine (goes_receive hs rounds readable).bind fun goOn s' hs => ?_
  exact (goes_finishRound hs rounds goOn).bind fun _ _ hs => hs

theorem goes_shutDown (h : Resting K s) (rounds : Nat) :
    Goes K (RoundEnds K) (shutDown rounds) s := by
  refine Goes.bind (P := fun _ => Resting K)
    (goes_observe kept_resting h (fun _ => Resting.reached) fun _ _ _ hs _ => hs) fun _ s' hs => ?_
  exact (goes_stopAndJoin hs.reached rounds).bind fun _ _ hs => hs

theorem goes_loopRound (h : Resting K s) (rounds : Nat) :
    Goes K (RoundEnds K) (loopRound L rounds) s := by
  refine Goes.bind (P := fun _ => Resting K)
    (goes_observe kept_resting h (fun _ => Resting.reached) fun _ _ _ hs _ => hs)
    fun events s' hs => ?_
  by_cases hFailed : events.shutdownFailed = true
  · rw [if_pos hFailed]
    exact hs.reached
  rw [if_neg hFailed]
  by_cases hShutdown : events.shutdown = true
  · rw [if_pos hShutdown]
    exact goes_shutDown hs rounds
  rw [if_neg hShutdown]
  by_cases hDevice : events.deviceFailed = true
  · rw [if_pos hDevice]
    exact hs.reached
  · rw [if_neg hDevice]
    exact goes_serveRound hs rounds _

/-- **The event loop.** Started at rest, it keeps its state within reach, whatever it gets from
the device and however its workers run. -/
theorem goes_run (h : Resting K s) (rounds : Nat) :
    Goes K (fun _ => Reached K) (run L rounds) s := by
  refine Goes.bind (P := fun _ => Reached K) (wp_attempt.mpr ?_) fun result s' hs => ?_
  · exact wp_loop (fun _ => Resting K) trivial (fun _ s' hs => goes_loopRound hs rounds) rounds h
  · refine (goes_stopAndJoin hs rounds).bind fun _ s' hs => ?_
    cases result with
    | ok _ => exact hs
    | error e => exact hs

end VAuth.Ctap
