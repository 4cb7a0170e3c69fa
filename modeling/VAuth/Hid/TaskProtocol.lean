import Mathlib.Data.List.Induction
import VAuth.Process.Trace
import VAuth.Hid.EventLoop

/-!
# The protocol of tasks

What may happen to a task, without the loop and its threads: it is started, its result is stored,
it is cancelled or aborted, and in the end it is answered once or dropped. `Follows` are the logs
that keep to this protocol; what a client sees of such a log is `OneReply`.
-/

namespace VAuth.Ctap

/-! ## The automaton -/

/-- Where the protocol stands. The next task has the number after the last one. -/
inductive Status where
  | idle (tasks : Nat)
  | busy (task : Nat) (request : CborRequest) (cancelled discarded : Bool)
      (result : Option CTAPPacket)
  | answered (task : Nat)

/-- How many tasks were started. -/
def Status.tasks : Status → Nat
  | idle tasks => tasks
  | busy task _ _ _ _ => task + 1
  | answered task => task + 1

/-- What may happen next. -/
inductive Allowed : Status → LoopEvent → Status → Prop
  | started {n : Nat} {q : CborRequest} :
      Allowed (.idle n) (.started n q) (.busy n q false false none)
  | handler {σ : Status} {event : Event} : Allowed σ (.handler event) σ
  | published {t : Nat} {q : CborRequest} {c d : Bool} {packet : CTAPPacket} :
      Allowed (.busy t q c d none) (.published t packet false) (.busy t q c d (some packet))
  | cancelRequested {t : Nat} {q : CborRequest} {c : Bool} {r : Option CTAPPacket} :
      Allowed (.busy t q c false r) (.cancelRequested t) (.busy t q true false r)
  | aborted {t : Nat} {q : CborRequest} {c d : Bool} {r : Option CTAPPacket} :
      Allowed (.busy t q c d r) (.initAccepted q.cid (some t)) (.busy t q true true r)
  | initAccepted {n : Nat} {cid : UInt32} : Allowed (.idle n) (.initAccepted cid none) (.idle n)
  | reset {n : Nat} : Allowed (.idle n) (.reset 0) (.idle n)
  | keepalive {t : Nat} {q : CborRequest} {d : Bool} {r : Option CTAPPacket} {packet : CTAPPacket} :
      Allowed (.busy t q false d r) (.sent (.keepalive t) packet) (.busy t q false d r)
  | other {σ : Status} {packet : CTAPPacket} : Allowed σ (.sent .other packet) σ
  | answered {t : Nat} {q : CborRequest} {c : Bool} {packet : CTAPPacket}
      (hCid : packet.cid = q.cid) :
      Allowed (.busy t q c false (some packet)) (.sent (.reply t) packet) (.answered t)
  | concluded {t : Nat} : Allowed (.answered t) (.cleared t) (.idle (t + 1))
  | discarded {t : Nat} {q : CborRequest} {c : Bool} {packet : CTAPPacket} :
      Allowed (.busy t q c true (some packet)) (.reset 0) (.busy t q c true (some packet))
  | dropped {t : Nat} {q : CborRequest} {c : Bool} {packet : CTAPPacket} :
      Allowed (.busy t q c true (some packet)) (.cleared t) (.idle (t + 1))

/-- The logs that keep to the protocol, and where they end. -/
inductive Follows : List LoopEvent → Status → Prop
  | nil : Follows [] (.idle 0)
  | snoc {log : List LoopEvent} {σ σ' : Status} {event : LoopEvent} (h : Follows log σ)
      (hEvent : Allowed σ event σ') : Follows (log ++ [event]) σ'

/-! ## What a client sees -/

def LoopEvent.isReply (task : Nat) : LoopEvent → Bool
  | .sent purpose _ => purpose = .reply task
  | _ => false

/-- What is required of an event after the earlier ones. -/
def Proper (past : List LoopEvent) : LoopEvent → Prop
  /- A reply is the first one to its task, with the channel of its request and its packet. -/
  | .sent (.reply task) packet => (∀ packet', .sent (.reply task) packet' ∉ past) ∧
      .cleared task ∉ past ∧ .published task packet false ∈ past ∧
      ∃ request, .started task request ∈ past ∧ packet.cid = request.cid
  /- No keepalive follows the reply, the request to cancel or an INIT. -/
  | .sent (.keepalive task) _ => (∀ packet', .sent (.reply task) packet' ∉ past) ∧
      .cancelRequested task ∉ past ∧ ∀ cid, .initAccepted cid (some task) ∉ past
  /- A task that is cleared was answered, or aborted by an INIT on its channel. -/
  | .cleared task => (∃ packet, .sent (.reply task) packet ∈ past) ∨
      (∀ packet, .sent (.reply task) packet ∉ past) ∧ ∃ request, .started task request ∈ past ∧
        .initAccepted request.cid (some task) ∈ past
  | .published _ _ overwrites => overwrites = false
  | .reset running => running = 0
  | _ => True

/-! ## Logs that keep to the protocol -/

/-- The task an event is about. -/
def LoopEvent.task? : LoopEvent → Option Nat
  | .started task _ => some task
  | .published task _ _ => some task
  | .cancelRequested task => some task
  | .initAccepted _ during => during
  | .sent (.reply task) _ => some task
  | .sent (.keepalive task) _ => some task
  | .cleared task => some task
  | _ => none

/-- What the log tells about the task in progress. -/
structure Pending (log : List LoopEvent) (t : Nat) (q : CborRequest) (c d : Bool)
    (r : Option CTAPPacket) : Prop where
  started : .started t q ∈ log
  unanswered : ∀ packet, .sent (.reply t) packet ∉ log
  uncleared : .cleared t ∉ log
  uncancelled : c = false → .cancelRequested t ∉ log ∧ ∀ cid, .initAccepted cid (some t) ∉ log
  aborted : d = true → .initAccepted q.cid (some t) ∈ log
  published : ∀ packet, r = some packet → .published t packet false ∈ log

/-- What the log tells at this point of the protocol. -/
def Current (log : List LoopEvent) : Status → Prop
  | .idle _ => True
  | .busy t q c d r => Pending log t q c d r
  | .answered t => ∃ packet, .sent (.reply t) packet ∈ log

/-- The events so far are about the tasks so far. -/
def Numbered (log : List LoopEvent) (n : Nat) : Prop := ∀ e ∈ log, ∀ t, e.task? = some t → t < n

section Follows

variable {log : List LoopEvent} {σ σ' : Status} {event : LoopEvent} {t n : Nat} {q : CborRequest}
  {c d : Bool} {r : Option CTAPPacket}

theorem Numbered.snoc (h : Numbered log n) {m : Nat} (hn : n ≤ m)
    (hEvent : ∀ t, event.task? = some t → t < m) : Numbered (log ++ [event]) m := by
  intro e he t ht
  rcases List.mem_append.mp he with he | he
  · exact Nat.lt_of_lt_of_le (h e he t ht) hn
  · rw [List.mem_singleton.mp he] at ht
    exact hEvent t ht

/-- Nothing was noted about a task that has not started. -/
theorem Numbered.not_mem (h : Numbered log n) (hTask : event.task? = some n) : event ∉ log :=
  fun he => Nat.lt_irrefl n (h event he n hTask)

theorem not_mem_snoc {e : LoopEvent} (h : e ∉ log) (hNe : event ≠ e) : e ∉ log ++ [event] := by
  intro hMem
  rcases List.mem_append.mp hMem with hMem | hMem
  · exact h hMem
  · exact hNe (List.mem_singleton.mp hMem).symm

theorem Numbered.pending (h : Numbered log n) :
    Pending (log ++ [.started n q]) n q false false none where
  started := List.mem_append_right _ List.mem_cons_self
  unanswered := fun _ => not_mem_snoc (h.not_mem rfl) nofun
  uncleared := not_mem_snoc (h.not_mem rfl) nofun
  uncancelled := fun _ =>
    ⟨not_mem_snoc (h.not_mem rfl) nofun, fun _ => not_mem_snoc (h.not_mem rfl) nofun⟩
  aborted := nofun
  published := nofun

/-- An event during a task, and the flags that it may set. -/
theorem Pending.snoc {c' d' : Bool} {r' : Option CTAPPacket} (h : Pending log t q c d r)
    (hReply : ∀ packet, event ≠ .sent (.reply t) packet) (hCleared : event ≠ .cleared t)
    (hCancel : c' = false →
      c = false ∧ event ≠ .cancelRequested t ∧ ∀ cid, event ≠ .initAccepted cid (some t))
    (hAborted : d' = true → d = true ∨ event = .initAccepted q.cid (some t))
    (hPublished : ∀ packet, r' = some packet →
      r = some packet ∨ event = .published t packet false) :
    Pending (log ++ [event]) t q c' d' r' where
  started := List.mem_append_left _ h.started
  unanswered := fun packet => not_mem_snoc (h.unanswered packet) (hReply packet)
  uncleared := not_mem_snoc h.uncleared hCleared
  uncancelled := by
    intro hc
    obtain ⟨hc, hEvent, hInit⟩ := hCancel hc
    obtain ⟨hCancelled, hAbort⟩ := h.uncancelled hc
    exact ⟨not_mem_snoc hCancelled hEvent, fun cid => not_mem_snoc (hAbort cid) (hInit cid)⟩
  aborted := by
    intro hd
    rcases hAborted hd with hd | rfl
    · exact List.mem_append_left _ (h.aborted hd)
    · exact List.mem_append_right _ List.mem_cons_self
  published := by
    intro packet hr
    rcases hPublished packet hr with hr | rfl
    · exact List.mem_append_left _ (h.published packet hr)
    · exact List.mem_append_right _ List.mem_cons_self

theorem Pending.silent (h : Pending log t q c d r) (hTask : event.task? = none) :
    Pending (log ++ [event]) t q c d r := by
  refine h.snoc ?_ ?_ (fun hc => ⟨hc, ?_, ?_⟩) .inl (fun _ => .inl)
  · rintro packet rfl
    cases hTask
  · rintro rfl
    cases hTask
  · rintro rfl
    cases hTask
  · rintro cid rfl
    cases hTask

theorem Current.silent (h : Current log σ) (hTask : event.task? = none) :
    Current (log ++ [event]) σ := by
  cases σ with
  | idle n => trivial
  | busy t q c d r => exact Pending.silent h hTask
  | answered t =>
    obtain ⟨packet, hSent⟩ := h
    exact ⟨packet, List.mem_append_left _ hSent⟩

theorem Allowed.tasks (h : Allowed σ event σ') :
    σ.tasks ≤ σ'.tasks ∧ ∀ t, event.task? = some t → t < σ'.tasks := by
  cases h <;> simp [Status.tasks, LoopEvent.task?]

/-- A step of the protocol. -/
theorem Current.allowed (h : Current log σ) (hNumbered : Numbered log σ.tasks)
    (hEvent : Allowed σ event σ') : Current (log ++ [event]) σ' := by
  cases hEvent with
  | started => exact hNumbered.pending
  | handler => exact h.silent rfl
  | published =>
    refine Pending.snoc h nofun nofun (fun hc => ⟨hc, nofun, nofun⟩) .inl fun p hp => ?_
    cases hp
    exact .inr rfl
  | cancelRequested => exact Pending.snoc h nofun nofun nofun .inl (fun _ => .inl)
  | aborted => exact Pending.snoc h nofun nofun nofun (fun _ => .inr rfl) (fun _ => .inl)
  | initAccepted => trivial
  | reset => trivial
  | keepalive =>
    exact Pending.snoc h nofun nofun (fun hc => ⟨hc, nofun, nofun⟩) .inl (fun _ => .inl)
  | other => exact h.silent rfl
  | answered hCid => exact ⟨_, List.mem_append_right _ List.mem_cons_self⟩
  | concluded => trivial
  | discarded => exact h.silent rfl
  | dropped => trivial

theorem Current.proper (h : Current log σ) (hEvent : Allowed σ event σ') : Proper log event := by
  cases hEvent with
  | published => rfl
  | reset => rfl
  | keepalive => exact ⟨h.unanswered, h.uncancelled rfl⟩
  | answered hCid => exact ⟨h.unanswered, h.uncleared, h.published _ rfl, _, h.started, hCid⟩
  | concluded => exact .inl h
  | discarded => rfl
  | dropped => exact .inr ⟨h.unanswered, _, h.started, h.aborted rfl⟩
  | _ => trivial

theorem Follows.current (h : Follows log σ) : Current log σ ∧ Numbered log σ.tasks := by
  induction h with
  | nil => exact ⟨trivial, fun e he => absurd he List.not_mem_nil⟩
  | snoc _ hEvent ih =>
    exact ⟨ih.1.allowed ih.2 hEvent, ih.2.snoc hEvent.tasks.1 hEvent.tasks.2⟩

/-- What is in progress without a result has not published one. -/
theorem Follows.unpublished (h : Follows log (.busy t q c d none)) (packet : CTAPPacket)
    (overwrites : Bool) : .published t packet overwrites ∉ log := by
  generalize hσ : Status.busy t q c d none = σ at h
  induction h generalizing c d with
  | nil => cases hσ
  | snoc h hEvent ih =>
    cases hEvent with
    | started =>
      cases hσ
      exact not_mem_snoc (h.current.2.not_mem rfl) nofun
    | handler | keepalive | other => exact not_mem_snoc (ih hσ) nofun
    | cancelRequested | aborted =>
      cases hσ
      exact not_mem_snoc (ih rfl) nofun
    | _ => cases hσ

theorem Follows.proper (h : Follows log σ) : Proc.AtEach Proper log := by
  induction h with
  | nil => exact Proc.atEach_nil
  | snoc h hEvent ih => exact ih.snoc (h.current.1.proper hEvent)

end Follows

/-! ## One task, one reply -/

/-- What a client sees of a log. -/
structure OneReply (log : List LoopEvent) : Prop where
  once : ∀ task, (log.filter (LoopEvent.isReply task)).length ≤ 1
  own : ∀ past task packet rest, log = past ++ .sent (.reply task) packet :: rest →
    .published task packet false ∈ past ∧
      ∃ request, .started task request ∈ past ∧ packet.cid = request.cid
  cleared : ∀ past task rest, log = past ++ .cleared task :: rest →
    (∃ packet, .sent (.reply task) packet ∈ past) ∨
      (∃ request, .started task request ∈ past ∧ .initAccepted request.cid (some task) ∈ past) ∧
        ∀ packet, .sent (.reply task) packet ∉ log
  kept : ∀ task packet overwrites, .published task packet overwrites ∈ log → overwrites = false
  keepalive : ∀ past task packet rest, log = past ++ .sent (.keepalive task) packet :: rest →
    (∀ packet', .sent (.reply task) packet' ∉ past) ∧ .cancelRequested task ∉ past ∧
      ∀ cid, .initAccepted cid (some task) ∉ past
  reset : ∀ running, .reset running ∈ log → running = 0

section OneReply

variable {log : List LoopEvent}

theorem eq_of_isReply {task : Nat} {e : LoopEvent} (h : e.isReply task = true) :
    ∃ packet, e = .sent (.reply task) packet := by
  cases e with
  | sent purpose packet => exact ⟨packet, by rw [of_decide_eq_true h]⟩
  | _ => cases h

theorem length_replies (h : Proc.AtEach Proper log) (task : Nat) :
    (log.filter (LoopEvent.isReply task)).length ≤ 1 := by
  induction log using List.reverseRecOn with
  | nil => exact Nat.zero_le 1
  | append_singleton log e ih =>
    obtain ⟨hInit, hProper⟩ := h.init
    rw [List.filter_append, List.length_append]
    by_cases hReply : e.isReply task = true
    · obtain ⟨packet, rfl⟩ := eq_of_isReply hReply
      have hNone : log.filter (LoopEvent.isReply task) = [] := by
        refine List.filter_eq_nil_iff.mpr fun e' he' hReply' => ?_
        obtain ⟨packet', rfl⟩ := eq_of_isReply hReply'
        exact hProper.1 packet' he'
      rw [hNone, List.length_nil, Nat.zero_add]
      exact List.length_filter_le _ _
    · rw [List.filter_cons_of_neg hReply]
      exact ih hInit

theorem no_late_reply (h : Proc.AtEach Proper log) {past rest : List LoopEvent} {task : Nat}
    (hLog : log = past ++ .cleared task :: rest) {packet : CTAPPacket}
    (hReply : .sent (.reply task) packet ∈ log) : .sent (.reply task) packet ∈ past := by
  rw [hLog] at hReply
  rcases List.mem_append.mp hReply with hBefore | hAfter
  · exact hBefore
  · rcases List.mem_cons.mp hAfter with hNow | hLate
    · cases hNow
    · obtain ⟨mid, later, rfl⟩ := List.append_of_mem hLate
      have hProper := h (past ++ .cleared task :: mid) (.sent (.reply task) packet) later (by
        rw [hLog, List.append_assoc, List.cons_append])
      exact absurd (List.mem_append_right _ List.mem_cons_self) hProper.2.1

theorem oneReply_of_proper (h : Proc.AtEach Proper log) : OneReply log where
  once := length_replies h
  own := fun past task packet rest hLog => (h past _ rest hLog).2.2
  cleared := by
    intro past task rest hLog
    rcases h past _ rest hLog with hAnswered | ⟨hNone, hAborted⟩
    · exact .inl hAnswered
    · exact .inr ⟨hAborted, fun packet hReply => hNone packet (no_late_reply h hLog hReply)⟩
  kept := by
    intro task packet overwrites hMem
    obtain ⟨past, hProper⟩ := h.of_mem hMem
    exact hProper
  keepalive := fun past task packet rest hLog => h past _ rest hLog
  reset := by
    intro running hMem
    obtain ⟨past, hProper⟩ := h.of_mem hMem
    exact hProper

end OneReply

end VAuth.Ctap
