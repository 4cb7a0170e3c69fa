import VAuth.Hid.LoopAssembly
import VAuth.Hid.OneTask

/-!
# Traffic on other channels

While a task is active, the loop answers its channel at the end of a round: it collects the result
of the worker, then sends a keepalive that is due. A frame that draws an error ends the round
before, and so does every frame on another channel that begins a message. Frames that are ignored
do not: with these the reply follows the result within two rounds, and a keepalive within the round
after it was due.
-/

namespace VAuth.Ctap

open CTAPHIDFrameProcessor Proc

/-! ## Traffic -/

/-- A frame that is malformed or bears another channel id. -/
def foreign (cid : UInt32) (data : Bytes) : Bool :=
  (withoutReportId data).length ≠ hidFrameSize || frameCid (withoutReportId data) ≠ cid

/-- A frame that the loop ignores while a task is active on this channel: it has the wrong size, it
is a continuation frame, or it cancels another channel. -/
def ignored (cid : UInt32) (data : Bytes) : Bool :=
  let frame := withoutReportId data
  frame.length ≠ hidFrameSize || frameByte frame 4 &&& mask = 0 ||
    (frameByte frame 4 &&& 0x7F = ctaphidCancel && frameByte frame 5 = 0 &&
      frameByte frame 6 = 0 && frameCid frame ≠ cid)

/-- Neither descriptor has failed, and no shutdown was asked for. -/
def goesWell : Except Exn PollEvents → Bool
  | .ok events => !events.shutdownFailed && !events.shutdown && !events.deviceFailed
  | .error _ => false

/-- What is read is a frame as `accepts` says, or no frame. -/
def DeviceEvent.carries (accepts : Bytes → Bool) : DeviceEvent → Bool
  | .none => false
  | .other => true
  | .output data => accepts data

/-- The result that is stored can be cut into frames. -/
def LoopState.sendable (s : LoopState) : Bool :=
  s.completion.all fun result => result.packet.stringify.toBool

/-- Nothing fails, all sends succeed, and the frames are as `accepts` says. -/
def traffic (accepts : Bytes → Bool) (s : LoopState) (i : LoopInput) : Bool :=
  goesWell i.poll && i.device.carries accepts && i.sent && s.sendable

variable {s s' : LoopState} {rounds n : Nat} {active : ActiveTask}
  {admits : LoopState → LoopInput → Prop}

theorem traffic_cases {accepts : Bytes → Bool} {i : LoopInput} (h : traffic accepts s i = true) :
    (∃ events, i.poll = .ok events ∧ events.shutdownFailed = false ∧ events.shutdown = false ∧
      events.deviceFailed = false) ∧ i.device.carries accepts = true ∧ i.sent = true ∧
      s.sendable = true := by
  simp only [traffic, Bool.and_eq_true] at h
  obtain ⟨⟨⟨hPoll, hCarries⟩, hSent⟩, hSendable⟩ := h
  refine ⟨?_, hCarries, hSent, hSendable⟩
  cases hEvents : i.poll with
  | error e =>
    rw [hEvents] at hPoll
    cases hPoll
  | ok events =>
    rw [hEvents] at hPoll
    simp only [goesWell, Bool.and_eq_true, Bool.not_eq_true'] at hPoll
    exact ⟨events, rfl, hPoll.1.1, hPoll.1.2, hPoll.2⟩

/-- The frame makes no difference to the loop. -/
theorem process_ignored {cid : UInt32} {data : Bytes} (h : ignored cid data = true)
    (allocatedCids : List UInt32) (now : Int) :
    process none data (some cid) allocatedCids now = (.monostate, none) := by
  unfold process
  dsimp only
  simp only [ignored, Bool.or_eq_true, Bool.and_eq_true, decide_eq_true_eq] at h
  split
  · rfl
  · rename_i hSize
    split
    · rfl
    · rename_i hInitial
      obtain ⟨⟨⟨hCommand, hHigh⟩, hLow⟩, hOther⟩ := h.resolve_left (not_or.mpr ⟨hSize, hInitial⟩)
      have hNotOwn : some cid ≠ some (frameCid (withoutReportId data)) :=
        fun hSame => hOther (Option.some.inj hSame).symm
      unfold processInitial
      simp only [hCommand, hHigh, hLow]
      rw [if_neg (by decide), if_neg (by decide), if_pos ⟨trivial, hNotOwn⟩]

/-! ## The setting of a round -/

variable {L : Libraries}

/-- A worker that has only its end left has ended. -/
def LoopState.prompt (s : LoopState) : Prop := ∀ thread ∈ s.threads, thread.phase ≠ .exiting

/-- A round with traffic that is ignored: `due` says that the keepalive is due all the time, and
`waits` that a worker may take its time to end. -/
def roundSetting (waits due : Prop) (active : ActiveTask) : Setting LoopState LoopInput where
  rely := Relation.ReflTransGen ThreadStep
  admits := fun s i => traffic (ignored active.cid) s i = true ∧
    (due → active.nextKeepalive ≤ i.now) ∧ (waits ∨ s.prompt)
  guar := fun _ _ => True
  mayCut := waits

theorem ThreadStep.log (h : ThreadStep s s') : s.log <+: s'.log := by
  cases h with
  | act | ended => exact List.prefix_rfl
  | returned | threw | published => exact List.prefix_append _ _

theorem ThreadStep.completion (h : ThreadStep s s') (hStored : s.completion ≠ none) :
    s'.completion ≠ none := by
  cases h with
  | published => exact nofun
  | _ => exact hStored

section Round

variable {K : Companion L} {waits due stored : Prop} {active : ActiveTask} {base : List LoopEvent}
  {s : LoopState} {α : Type} {Q : α → LoopState → Prop} {E : Exn → LoopState → Prop}
  {J : LoopState → Prop}

theorem wp_kept {f : LoopInput → LoopState → Except Exn α × LoopState} (hJ : Kept J) (h : J s)
    (hf : ∀ s' i, J s' → (roundSetting waits due active).admits s' i →
      (∀ a, (f i s').1 = .ok a → Q a (f i s').2) ∧ ∀ e, (f i s').1 = .error e → E e (f i s').2) :
    wp (roundSetting waits due active) Q E (Proc.atomically f) s :=
  wp_tolerant_atomically (fun _ _ hRely hs => kept_by_others hJ hRely hs) h
    fun s' i hs hi => ⟨trivial, hf s' i hs hi⟩

theorem wp_kept_read {f : LoopState → α} (hJ : Kept J) (h : J s) (hf : ∀ s', J s' → Q (f s') s') :
    wp (roundSetting waits due active) Q E (Proc.read f) s := by
  refine wp_kept hJ h fun s' i hs _ => ⟨?_, nofun⟩
  rintro _ ⟨⟩
  exact hf s' hs

theorem wp_kept_modify {f : LoopState → LoopState} {Q : Unit → LoopState → Prop} (hJ : Kept J)
    (h : J s) (hf : ∀ s', J s' → Q () (f s')) :
    wp (roundSetting waits due active) Q E (Proc.modify f) s := by
  refine wp_kept hJ h fun s' i hs _ => ⟨?_, nofun⟩
  rintro _ ⟨⟩
  exact hf s' hs

variable {result : TaskResult} {rounds : Nat} {purpose : Purpose}

theorem wp_kept_sendPacket {packet : CTAPPacket} {Q : Unit → LoopState → Prop} (hJ : Kept J)
    (h : J s) (hPacket : packet.stringify.toBool = true)
    (hf : ∀ s', J s' → Q () (s'.note [.sent purpose packet])) :
    wp (roundSetting waits due active) Q E (sendPacket purpose packet) s := by
  refine wp_kept hJ h fun s' i hs hi => ?_
  obtain ⟨-, -, hSent, -⟩ := traffic_cases hi.1
  cases hFrames : packet.stringify with
  | error e =>
    rw [hFrames] at hPacket
    cases hPacket
  | ok frames =>
    simp only [if_pos hSent]
    refine ⟨?_, nofun⟩
    rintro _ ⟨⟩
    exact hf s' hs

/-! ## The task during a round -/

/-- The task is active, and its result may be stored already. -/
structure Busy (K : Companion L) (active : ActiveTask) (base : List LoopEvent) (stored : Prop)
    (s : LoopState) : Prop where
  resting : Resting K s
  active : s.active = some active
  incoming : s.incoming = none
  log : base <+: s.log
  stored : stored → s.completion ≠ none

theorem kept_busy : Kept (Busy K active base stored) := by
  intro s s' hStep h
  exact {
    resting := h.resting.threadStep hStep
    active := hStep.own.1.trans h.active
    incoming := hStep.aside.incoming.trans h.incoming
    log := h.log.trans hStep.log
    stored := fun hStored => hStep.completion (h.stored hStored) }

theorem Resting.tasked (h : Resting K s) (hActive : s.active = some active) :
    Tasked K active.task (some active.task) s := by
  cases h with
  | idle h => cases h.active.symm.trans hActive
  | busy h =>
    obtain ⟨hWorking, ⟨⟨record, hSome, rfl, hRest⟩, hTasks⟩, hWorker, hStored⟩ := h
    obtain rfl := Option.some.inj (hSome.symm.trans hActive)
    exact ⟨hWorking, ⟨⟨record, hSome, rfl, hRest⟩, hTasks⟩, hWorker, hStored⟩

theorem wp_expireMessage (h : Busy K active base stored s) :
    wp (roundSetting waits due active) (fun _ => Busy K active base stored) E expireMessage s := by
  refine wp_bind.mpr (wp_kept kept_busy h fun s' i hs _ => ⟨?_, nofun⟩)
  rintro _ ⟨⟩
  simp only [hs.incoming, expire]
  exact ⟨hs.resting.setLocal none s'.allocatedCids, hs.active, rfl, hs.log, hs.stored⟩

/-- Frames that are ignored do not end the round. -/
theorem wp_receive (h : Busy K active base stored s) (rounds : Nat) (readable : Bool) :
    wp (roundSetting waits due active) (fun goOn s' => goOn = true ∧ Busy K active base stored s') E
      (receive L rounds readable) s := by
  unfold receive
  split
  · refine wp_bind.mpr (wp_kept kept_busy h fun s₁ i hs₁ hi => ⟨?_, nofun⟩)
    rintro _ ⟨⟩
    obtain ⟨-, hCarries, -, -⟩ := traffic_cases hi.1
    cases hDevice : i.device with
    | none =>
      rw [hDevice] at hCarries
      cases hCarries
    | other => exact ⟨rfl, hs₁⟩
    | output data =>
      rw [hDevice] at hCarries
      refine wp_bind.mpr (wp_kept kept_busy hs₁ fun s₂ j hs₂ _ => ?_)
      have hProcess : process s₂.incoming data (s₂.active.map ActiveTask.cid) s₂.allocatedCids
          j.now = (.monostate, none) := by
        rw [hs₂.incoming, hs₂.active]
        exact process_ignored hCarries _ _
      simp only [hProcess]
      refine ⟨?_, nofun⟩
      rintro _ ⟨⟩
      exact ⟨rfl, hs₂.resting.setLocal none s₂.allocatedCids, hs₂.active, rfl, hs₂.log, hs₂.stored⟩
  · exact ⟨rfl, h⟩

/-! ## The end of a round -/

/-- A packet was sent since the log was `base`. -/
def SentSince (base : List LoopEvent) (purpose : Purpose) (s : LoopState) : Prop :=
  ∃ new packet, s.log = base ++ new ∧ LoopEvent.sent purpose packet ∈ new

theorem sentSince_note {packet : CTAPPacket} (h : base <+: s.log) :
    SentSince base purpose (s.note [.sent purpose packet]) := by
  obtain ⟨new, hNew⟩ := h
  refine ⟨new ++ [.sent purpose packet], packet, ?_, by simp⟩
  simp [LoopState.note, ← hNew]

theorem SentSince.grow {s' : LoopState} (h : SentSince base purpose s) (hLog : s.log <+: s'.log) :
    SentSince base purpose s' := by
  obtain ⟨new, packet, hNew, hSent⟩ := h
  obtain ⟨more, hMore⟩ := hLog
  refine ⟨new ++ more, packet, ?_, List.mem_append_left _ hSent⟩
  rw [← hMore, hNew, List.append_assoc]

theorem Kept.log (hJ : Kept J) (base : List LoopEvent) : Kept fun s => J s ∧ base <+: s.log :=
  fun s s' hStep hs => ⟨hJ s s' hStep hs.1, hs.2.trans hStep.log⟩

theorem Taken.record {worker : Option Nat} (h : Taken K worker active result s) :
    s.active = some active := by
  obtain ⟨-, hActive, -, -, -⟩ := h
  exact hActive

theorem Taken.ended (h : Taken K (some active.task) active result s) (hPrompt : s.prompt) :
    s.workerRuns = false := by
  obtain ⟨hWorking, -, -, -, -⟩ := h
  obtain ⟨-, hThreads | ⟨thread, hThreads, -, hExiting⟩⟩ := hWorking.progress
  · simp [LoopState.workerRuns, hThreads]
  · exact absurd hExiting (hPrompt thread (by simp [hThreads]))

/-- The result has been taken, after `base`. -/
abbrev TakenSince (K : Companion L) (worker : Option Nat) (active : ActiveTask)
    (result : TaskResult) (base : List LoopEvent) (s : LoopState) : Prop :=
  Taken K worker active result s ∧ base <+: s.log

theorem wp_pollWorker (h : TakenSince K (some active.task) active result base s) :
    wp (roundSetting waits due active) (fun (again : Unit ⊕ Unit) s' =>
        TakenSince K (some active.task) active result base s' ∧
          again.elim (fun _ => waits) fun _ => s'.workerRuns = false) E
      (Proc.observe fun _ s => .ok (if s.workerRuns then .inl () else .inr ())) s := by
  refine wp_kept (kept_taken.log base) h fun s' i hs hi => ⟨?_, nofun⟩
  rintro _ ⟨⟩
  refine ⟨hs, ?_⟩
  cases hRuns : s'.workerRuns with
  | true =>
    refine hi.2.2.resolve_right fun hPrompt => ?_
    cases hRuns.symm.trans (hs.1.ended hPrompt)
  | false => rfl

theorem wp_join (hRounds : 1 ≤ rounds) (h : TakenSince K (some active.task) active result base s) :
    wp (roundSetting waits due active)
      (fun _ s' => TakenSince K none active result base s' ∧ s'.threads = []) E (join rounds)
      s := by
  obtain ⟨rounds, rfl⟩ := Nat.exists_eq_add_of_le' hRounds
  refine wp_seq (Q := fun _ s' =>
    TakenSince K (some active.task) active result base s' ∧ s'.workerRuns = false) ?_ ?_
    fun _ _ h => h
  · refine wp_seq (wp_pollWorker h) ?_ fun _ _ h => h
    rintro (_ | _) s' ⟨hs, hNext⟩
    · refine wp_loop (fun _ => TakenSince K (some active.task) active result base) hNext ?_
        rounds hs
      intro _ s hs
      refine wp_mono (wp_pollWorker hs) ?_ fun _ _ h => h
      rintro (_ | _) s' hs
      · exact hs.1
      · exact hs
    · exact ⟨hs, hNext⟩
  · intro _ s' hs
    have hKept : Kept fun s => TakenSince K (some active.task) active result base s ∧
        s.workerRuns = false :=
      fun _ _ hStep hs => ⟨kept_taken.log base _ _ hStep hs.1, hStep.workerRuns hs.2⟩
    exact wp_kept_modify hKept hs fun s' hs =>
      ⟨⟨hs.1.1.join, hs.1.2⟩, hs.1.1.threads hs.2⟩

/-- The task is over; it has its reply unless it was aborted. -/
structure Served (K : Companion L) (active : ActiveTask) (base : List LoopEvent)
    (s : LoopState) : Prop where
  idle : Idle K s
  reply : active.discardResult = false → SentSince base (.reply active.task) s

theorem kept_served : Kept (Served K active base) :=
  fun _ _ hStep h => absurd h.idle.threads hStep.exists

theorem LoopState.clearActive_log (s : LoopState) : s.log <+: s.clearActive.log := by
  unfold LoopState.clearActive
  split
  · exact List.prefix_append _ _
  · exact List.prefix_rfl

theorem wp_concludeTask (hRounds : 1 ≤ rounds) (hPacket : result.packet.stringify.toBool = true)
    (h : TakenSince K (some active.task) active result base s) :
    wp (roundSetting waits due active) (fun _ => Served K active base) E
      (concludeTask rounds active result) s := by
  refine wp_bind.mpr (wp_bind.mpr (wp_kept_read (kept_taken.log base) h fun s₁ hs₁ => ?_))
  have hJoinable : s₁.worker.isSome = true := by
    obtain ⟨⟨-, -, -, hWorker, -⟩, -⟩ := hs₁
    rw [hWorker]
    rfl
  rw [if_pos hJoinable]
  refine wp_mono (wp_join hRounds hs₁) (fun _ s₂ hs₂ => ?_) fun _ _ h => h
  have hNoThread : Kept fun s => TakenSince K none active result base s ∧ s.threads = [] :=
    fun _ _ hStep hs => absurd hs.2 hStep.exists
  refine wp_seq (Q := fun _ s => Delivered K active s ∧
    (active.discardResult = false → SentSince base (.reply active.task) s)) ?_ ?_ fun _ _ h => h
  · unfold deliver
    by_cases hAborted : active.discardResult = true
    · rw [if_pos hAborted]
      exact wp_kept_modify hNoThread hs₂ fun s₃ hs₃ =>
        ⟨hs₃.1.1.drop hs₃.2 hAborted, fun hKept => nomatch hAborted.symm.trans hKept⟩
    · rw [if_neg hAborted]
      exact wp_kept_sendPacket hNoThread hs₂ hPacket fun s₃ hs₃ =>
        ⟨hs₃.1.1.reply hs₃.2 (Bool.eq_false_iff.mpr hAborted), fun _ => sentSince_note hs₃.1.2⟩
  · intro _ s₃ hs₃
    have hDelivered : Kept fun s => Delivered K active s ∧
        (active.discardResult = false → SentSince base (.reply active.task) s) :=
      fun _ _ hStep hs => absurd hs.1.threads hStep.exists
    refine wp_kept_modify hDelivered hs₃ fun s₄ hs₄ => ?_
    exact ⟨hs₄.1.clear, fun hKept => (hs₄.2 hKept).grow s₄.clearActive_log⟩

theorem wp_collectResult (hRounds : 1 ≤ rounds) (h : Busy K active base stored s) :
    wp (roundSetting waits due active)
      (fun _ s' => Served K active base s' ∨ ¬stored ∧ Busy K active base False s') E
      (collectResult rounds) s := by
  refine wp_bind.mpr (wp_kept kept_busy h fun s₁ i hs₁ hi => ⟨?_, nofun⟩)
  rintro _ ⟨⟩
  have hSwapped := hs₁.resting.swap
  obtain ⟨-, -, -, hSendable⟩ := traffic_cases hi.1
  cases hCompletion : s₁.completion with
  | none =>
    rw [hCompletion] at hSwapped
    cases hSwapped with
    | none hResting =>
      exact .inr ⟨fun hStored => hs₁.stored hStored hCompletion,
        ⟨hResting, hs₁.active, hs₁.incoming, hs₁.log, False.elim⟩⟩
  | some result =>
    have hPacket : result.packet.stringify.toBool = true := by
      simpa [LoopState.sendable, hCompletion] using hSendable
    rw [hCompletion] at hSwapped
    cases hSwapped with
    | @some _ record _ hTaken hSame =>
      obtain rfl := Option.some.inj (hTaken.record.symm.trans hs₁.active)
      have hSince : TakenSince K (some record.task) record result base _ := ⟨hTaken, hs₁.log⟩
      refine wp_bind.mpr (wp_kept_read (kept_taken.log base) hSince fun s₂ hs₂ => ?_)
      rw [hs₂.1.record]
      simp only [if_pos hSame]
      exact wp_mono (wp_concludeTask hRounds hPacket hs₂) (fun _ _ h => .inl h) fun _ _ h => h

/-- What a round leaves: the task is over, or it goes on without a result and has its keepalive. -/
inductive Leaves (K : Companion L) (active : ActiveTask) (base : List LoopEvent)
    (stored due : Prop) (s : LoopState) : Prop
  | concluded (h : Served K active base s)
  | pending {next : Int} (hBusy : Busy K { active with nextKeepalive := next } base False s)
      (hNone : ¬stored)
      (hSent : due → active.cancelRequested = false → SentSince base (.keepalive active.task) s)

theorem kept_leaves : Kept (Leaves K active base stored due) := by
  intro s s' hStep h
  cases h with
  | concluded h => exact .concluded (kept_served _ _ hStep h)
  | pending hBusy hNone hSent =>
    exact .pending (kept_busy _ _ hStep hBusy) hNone fun hDue hLive =>
      (hSent hDue hLive).grow hStep.log

theorem wp_sendKeepalive_idle (h : Served K active base s) :
    wp (roundSetting waits due active) (fun _ => Leaves K active base stored due) E
      sendKeepalive s := by
  refine wp_bind.mpr (wp_kept kept_served h fun s' i hs _ => ⟨?_, nofun⟩)
  rintro _ ⟨⟩
  simp only [hs.idle.active, Option.bind_none]
  exact Leaves.concluded hs

theorem toBool_stringify_byte (cid : UInt32) (cmd byte : UInt8) :
    (CTAPPacket.stringify { cid, cmd, len := 1, payload := [byte] }).toBool = true := rfl

theorem Busy.postpone (h : Busy K active base stored s) (next : Int) :
    Busy K { active with nextKeepalive := next } base stored { s with
      active := s.active.map fun active => { active with nextKeepalive := next } } := by
  refine ⟨h.resting.postpone next, ?_, h.incoming, h.log, h.stored⟩
  simp only [h.active, Option.map_some]

theorem wp_sendKeepalive_busy (h : Busy K active base False s) (hNone : ¬stored) :
    wp (roundSetting waits due active) (fun _ => Leaves K active base stored due) E
      sendKeepalive s := by
  refine wp_bind.mpr (wp_kept kept_busy h fun s₁ i hs₁ hi => ⟨?_, nofun⟩)
  rintro _ ⟨⟩
  simp only [hs₁.active, Option.bind_some]
  by_cases hDue : active.nextKeepalive ≤ i.now ∧ active.cancelRequested = false
  · rw [if_pos hDue]
    refine wp_bind.mpr (wp_kept_sendPacket kept_busy hs₁ (toBool_stringify_byte _ _ _) ?_)
    intro s₂ hs₂
    have hKept : Kept fun s => Busy K active base False s ∧
        SentSince base (.keepalive active.task) s :=
      fun _ _ hStep hs => ⟨kept_busy _ _ hStep hs.1, hs.2.grow hStep.log⟩
    refine wp_kept_modify hKept ⟨?_, sentSince_note hs₂.log⟩ fun s₃ hs₃ => ?_
    · exact ⟨hs₂.resting.keepalive hs₂.active hDue.2 _, hs₂.active, hs₂.incoming,
        hs₂.log.trans (List.prefix_append _ _), False.elim⟩
    · exact Leaves.pending (hs₃.1.postpone _) hNone fun _ _ => hs₃.2
  · rw [if_neg hDue]
    exact Leaves.pending hs₁ hNone fun hAlways hLive => absurd ⟨hi.2.1 hAlways, hLive⟩ hDue

/-- A round among frames that are ignored. It ends if the worker is prompt. -/
theorem wp_loopRound (hRounds : 1 ≤ rounds) (h : Busy K active base stored s) :
    wp (roundSetting waits due active)
      (fun again s' => again = .inl () ∧ Leaves K active base stored due s') (fun _ _ => False)
      (loopRound L rounds) s := by
  refine wp_bind.mpr (wp_kept kept_busy h fun s₁ i hs₁ hi => ?_)
  obtain ⟨⟨events, hEvents, hSignal, hShutdown, hDevice⟩, -⟩ := traffic_cases hi.1
  simp only [hEvents]
  refine ⟨?_, nofun⟩
  rintro _ ⟨⟩
  simp only [hSignal, hShutdown, hDevice, Bool.false_eq_true, if_false]
  refine wp_seq (wp_expireMessage hs₁) (fun _ s₂ hs₂ => ?_) fun _ _ h => h
  refine wp_seq (wp_receive hs₂ rounds _) ?_ fun _ _ h => h
  rintro _ s₃ ⟨rfl, hs₃⟩
  refine wp_bind.mpr (wp_seq (wp_collectResult hRounds hs₃) ?_ fun _ _ h => h)
  rintro _ s₄ (hOver | ⟨hNone, hBusy⟩)
  · exact wp_mono (wp_sendKeepalive_idle hOver) (fun _ _ h => ⟨rfl, h⟩) fun _ _ h => h
  · exact wp_mono (wp_sendKeepalive_busy hBusy hNone) (fun _ _ h => ⟨rfl, h⟩) fun _ _ h => h

end Round

/-! ## Rounds of a run -/

/-- A round after which another one follows. -/
abbrev Round (L : Libraries) (rounds : Nat) (admits : LoopState → LoopInput → Prop)
    (s s' : LoopState) : Prop :=
  Steps ThreadStep admits (loopRound L rounds, s) (.done (.inl ()), s')

/-- So many rounds, one after the other. -/
inductive Rounds (L : Libraries) (rounds : Nat) (admits : LoopState → LoopInput → Prop) :
    Nat → LoopState → LoopState → Prop
  | refl {s : LoopState} : Rounds L rounds admits 0 s s
  | tail {n : Nat} {s s' s'' : LoopState} (h : Rounds L rounds admits n s s')
      (hRound : Round L rounds admits s' s'') : Rounds L rounds admits (n + 1) s s''

/-- What is left of the event loop when so many rounds are left. -/
def restOfRun (L : Libraries) (rounds left : Nat) : LoopProc Unit := do
  let result ← (Proc.loop (fun _ => loopRound L rounds) left ()).attempt
  stopAndJoin rounds
  Proc.ofExcept result

theorem steps_of_rounds {left : Nat} (h : Rounds L rounds admits n s s')
    (hRounds : rounds = n + left) :
    Steps ThreadStep admits (run L rounds, s) (restOfRun L rounds left, s') := by
  induction h generalizing left with
  | refl =>
    rw [Nat.zero_add] at hRounds
    subst hRounds
    exact .refl
  | tail _ hRound ih =>
    refine (@ih (left + 1) (by omega)).trans ?_
    exact steps_bind _ (steps_tryCatch _ (steps_bind _ (steps_bind _ hRound)))

theorem rounds_resting {d : Daemon} (h : Rounds L rounds (fun _ _ => True) n { daemon := d } s) :
    Resting (cidCompanion L) s ∧ Orderly s := by
  generalize hStart : ({ daemon := d } : LoopState) = s₀ at h
  induction h with
  | refl =>
    subst hStart
    exact ⟨.idle ⟨.nil, trivial, trivial, rfl, rfl, rfl, rfl⟩, orderly_of_none rfl⟩
  | tail _ hRound ih =>
    obtain ⟨hResting, hOrderly⟩ := ih hStart
    constructor
    · obtain ⟨s₀, hEnds, hOthers⟩ := wp_steps (goes_loopRound hResting rounds) hRound
      exact kept_by_others kept_resting hOthers hEnds
    · obtain ⟨s₀, hEnds, hOthers⟩ := wp_steps (maintains_loopRound L rounds _ hOrderly) hRound
      exact kept_by_others (fun _ _ hStep h => h.aside hStep.aside) hOthers hEnds

theorem Tasked.completion_ne_none {K : Companion L} {t : Nat} {worker : Option Nat}
    {packet : CTAPPacket} {overwrites : Bool} (h : Tasked K t worker s)
    (hPublished : .published t packet overwrites ∈ s.log) : s.completion ≠ none := by
  obtain @⟨q, generation, c, d, r, hWorking, -, -, hStored⟩ := h
  cases r with
  | none => exact absurd hPublished (hWorking.follows.unpublished packet overwrites)
  | some result =>
    rw [hStored]
    exact nofun

theorem busy_of_rounds {d : Daemon} (h : Rounds L rounds (fun _ _ => True) n { daemon := d } s)
    (hActive : s.active = some active) (packet : CTAPPacket) (overwrites : Bool) :
    Busy (cidCompanion L) active s.log (.published active.task packet overwrites ∈ s.log) s := by
  obtain ⟨hResting, hOrderly⟩ := rounds_resting h
  refine ⟨hResting, hActive, ?_, List.prefix_rfl, (hResting.tasked hActive).completion_ne_none⟩
  cases hIncoming : s.incoming with
  | none => rfl
  | some t => cases (hOrderly t hIncoming).2.2.symm.trans hActive

theorem leaves_of_round {K : Companion L} {waits due stored : Prop} {base : List LoopEvent}
    {p : LoopProc (Unit ⊕ Unit)} (hRounds : 1 ≤ rounds) (h : Busy K active base stored s)
    (hAdmits : ∀ s i, admits s i → (roundSetting waits due active).admits s i)
    (hRun : Steps ThreadStep admits (loopRound L rounds, s) (p, s')) :
    (∃ update next, p = .act update next) ∨ (p = .cut ∧ waits) ∨
      p = .done (.inl ()) ∧ Leaves K active base stored due s' := by
  obtain ⟨s₀, hwp, hOthers⟩ :=
    wp_steps_setting (fun _ _ h => h) hAdmits (wp_loopRound hRounds h) hRun
  cases p with
  | act update next => exact .inl ⟨update, next, rfl⟩
  | cut => exact .inr (.inl ⟨rfl, hwp⟩)
  | fail e => exact hwp.elim
  | done again =>
    obtain ⟨rfl, hLeaves⟩ := hwp
    exact .inr (.inr ⟨rfl, kept_by_others kept_leaves hOthers hLeaves⟩)

/-- The frames of the round are ignored, and all sends succeed. -/
abbrev quiet (cid : UInt32) (s : LoopState) (i : LoopInput) : Prop :=
  traffic (ignored cid) s i = true

/-- **An active request is served.** At the beginning of any round of a run in which a task is
active that was not aborted, if the frames of this round are ignored: a result that was stored is
sent in this round; a keepalive that is due is sent unless the reply is; and the round ends if the
worker does. -/
theorem active_request_served {d : Daemon} {rounds n : Nat} {s : LoopState} {active : ActiveTask}
    (hRounds : 1 ≤ rounds) (hRun : Rounds L rounds (fun _ _ => True) n { daemon := d } s)
    (hActive : s.active = some active) (hKept : active.discardResult = false) :
    (∀ packet overwrites s', .published active.task packet overwrites ∈ s.log →
      Round L rounds (quiet active.cid) s s' → SentSince s.log (.reply active.task) s') ∧
    (active.cancelRequested = false → ∀ s',
      Round L rounds (fun s i => quiet active.cid s i ∧ active.nextKeepalive ≤ i.now) s s' →
        SentSince s.log (.reply active.task) s' ∨ SentSince s.log (.keepalive active.task) s') ∧
    ∀ p s', Steps ThreadStep (fun s i => quiet active.cid s i ∧ s.prompt)
        (loopRound L rounds, s) (p, s') →
      p = .done (.inl ()) ∨ ∃ update next, p = .act update next := by
  refine ⟨fun packet overwrites s' hStored hRound => ?_, fun hLive s' hRound => ?_,
    fun p s' hSteps => ?_⟩
  · have hBusy := busy_of_rounds hRun hActive packet overwrites
    have hAdmits : ∀ s i, quiet active.cid s i → (roundSetting True False active).admits s i :=
      fun _ _ hQuiet => ⟨hQuiet, False.elim, .inl trivial⟩
    rcases leaves_of_round hRounds hBusy hAdmits hRound with ⟨_, _, hAct⟩ | ⟨hCut, -⟩ | ⟨-, hLeaves⟩
    · cases hAct
    · cases hCut
    · cases hLeaves with
      | concluded h => exact h.reply hKept
      | pending _ hNone _ => exact absurd hStored hNone
  · have hBusy := busy_of_rounds hRun hActive {} false
    have hAdmits : ∀ s i, quiet active.cid s i ∧ active.nextKeepalive ≤ i.now →
        (roundSetting True True active).admits s i :=
      fun _ _ hi => ⟨hi.1, fun _ => hi.2, .inl trivial⟩
    rcases leaves_of_round hRounds hBusy hAdmits hRound with ⟨_, _, hAct⟩ | ⟨hCut, -⟩ | ⟨-, hLeaves⟩
    · cases hAct
    · cases hCut
    · cases hLeaves with
      | concluded h => exact .inl (h.reply hKept)
      | pending _ _ hSent => exact .inr (hSent trivial hLive)
  · have hBusy := busy_of_rounds hRun hActive {} false
    have hAdmits : ∀ s i, quiet active.cid s i ∧ s.prompt →
        (roundSetting False False active).admits s i :=
      fun _ _ hi => ⟨hi.1, False.elim, .inr hi.2⟩
    rcases leaves_of_round hRounds hBusy hAdmits hSteps with hAct | ⟨-, hWaits⟩ | ⟨hDone, -⟩
    · exact .inr hAct
    · exact hWaits.elim
    · exact .inl hDone

/-- A round after a script, if the script is one. -/
def playRound (ok : LoopState → LoopInput → Bool) (script : List (LoopInput ⊕ Input))
    (s : LoopState) : Option LoopState :=
  match follow ok workerMove workerMoves script (loopRound sampleLibraries 9, s) with
  | some (.done (.inl ()), s') => some s'
  | _ => none

theorem round_of_play {ok : LoopState → LoopInput → Bool} {script : List (LoopInput ⊕ Input)}
    (hAdmits : ∀ s i, ok s i = true → admits s i) (h : playRound ok script s = some s') :
    Round sampleLibraries 9 admits s s' := by
  unfold playRound at h
  split at h
  · rename_i hFollow
    cases h
    refine steps_follow hAdmits ?_ script hFollow
    exact fun _ _ hMoves => threadStep_workerMove hMoves
  · cases h

/-- A client gets channel 1 and asks for the information of the device, and the worker stores its
result. -/
def infoStored : Option LoopState :=
  (playRound (fun _ _ => true) (List.replicate 7 (.inl (reading initFrame))) {}).bind <|
    playRound (fun _ _ => true)
      (List.replicate 12 (.inl (reading (channelId 1 ++ [0x90, 0x00, 0x01, 0x04]))) ++
        List.replicate 5 (.inr approving))

theorem rounds_of_infoStored (h : infoStored = some s) :
    Rounds sampleLibraries 9 (fun _ _ => True) 2 { daemon := {} } s := by
  obtain ⟨s₁, hFirst, hSecond⟩ := Option.bind_eq_some_iff.mp h
  exact .tail (.tail .refl (round_of_play (fun _ _ _ => trivial) hFirst))
    (round_of_play (fun _ _ _ => trivial) hSecond)

/-- Nothing to read at first, and no frame then. -/
def idling : LoopInput where
  now := 200000000
  device := .other

theorem active_request_served_info : ∃ s s' active packet,
    Rounds sampleLibraries 9 (fun _ _ => True) 2 { daemon := {} } s ∧ s.active = some active ∧
      .published active.task packet false ∈ s.log ∧
      Round sampleLibraries 9 (quiet active.cid) s s' ∧ SentSince s.log (.reply active.task) s' := by
  have hPlayed : infoStored.any (fun s =>
      (s.active.any fun active => active.task == 0 && active.cid == 1 && !active.discardResult) &&
      (s.log.any fun | .published 0 _ false => true | _ => false) &&
      (playRound (traffic (ignored 1))
        (.inr approving :: List.replicate 10 (.inl idling)) s).isSome) = true := by
    decide +kernel
  obtain ⟨s, hStored, hs⟩ := (Option.any_eq_true _ _).mp hPlayed
  simp only [Bool.and_eq_true, Option.any_eq_true, List.any_eq_true, Option.isSome_iff_exists,
    beq_iff_eq, Bool.not_eq_true'] at hs
  obtain ⟨⟨⟨active, hActive, ⟨hTask, hCid⟩, hKept⟩, event, hEvent, hPublished⟩, s', hPlay⟩ := hs
  have hRun := rounds_of_infoStored hStored
  have hRound : Round sampleLibraries 9 (quiet active.cid) s s' := by
    rw [hCid]
    exact round_of_play (fun _ _ h => h) hPlay
  split at hPublished
  · rename_i packet
    rw [← hTask] at hEvent
    exact ⟨s, s', active, packet, hRun, hActive, hEvent, hRound,
      (active_request_served (by decide) hRun hActive hKept).1 packet false s' hEvent hRound⟩
  · cases hPublished

/-! ## Traffic that is not ignored -/

/-- A PING on channel 2. -/
def strangePing : Bytes := channelId 2 ++ [0x81, 0x00, 0x00]

/-- The ping is ready at this time. -/
def pinged (now : Int) : LoopInput := { reading strangePing with now }

/-- The answer to a ping on channel 2 while another channel is active. -/
def strangeBusy : LoopEvent := .sent .other (makeHidError 2 .channelBusy)

theorem busy_round (hActive : s.active = some active) (hCid : active.cid = 1)
    (hIncoming : s.incoming = none) (hSendable : s.sendable = true) :
    Round L rounds (fun s i => traffic (foreign 1) s i = true ∧ active.nextKeepalive ≤ i.now) s
      (s.note [strangeBusy]) := by
  have hAdmits : ∀ s : LoopState, s.sendable = true →
      traffic (foreign 1) s (pinged active.nextKeepalive) = true ∧
        active.nextKeepalive ≤ (pinged active.nextKeepalive).now := by
    intro s hs
    refine ⟨?_, le_refl _⟩
    unfold traffic
    rw [hs, Bool.and_true]
    rfl
  have hProcess : process none (hidFrame strangePing) (some active.cid) s.allocatedCids
      active.nextKeepalive = (.error ⟨2, .channelBusy⟩, none) := by
    rw [hCid]
    rfl
  obtain ⟨daemon, allocatedCids, _, completion, _, nextGeneration, worker, threads, tasks, log⟩ := s
  subst hActive hIncoming
  -- poll, expire, read and process, then the error is sent
  refine .head (.own (i := pinged active.nextKeepalive) (hAdmits _ hSendable)) ?_
  refine .head (.own (i := pinged active.nextKeepalive) (hAdmits _ hSendable)) ?_
  refine .head (.own (i := pinged active.nextKeepalive) (hAdmits _ hSendable)) ?_
  refine .head (.own (i := pinged active.nextKeepalive) (hAdmits _ hSendable)) ?_
  simp only [expire, Option.map_some, pinged, reading, hProcess]
  refine .head (.own (i := pinged active.nextKeepalive) (hAdmits _ hSendable)) ?_
  exact .refl

theorem busy_rounds (hActive : s.active = some active) (hCid : active.cid = 1)
    (hIncoming : s.incoming = none) (hSendable : s.sendable = true) (n : Nat) :
    Rounds L rounds (fun s i => traffic (foreign 1) s i = true ∧ active.nextKeepalive ≤ i.now) n s
      (s.note (List.replicate n strangeBusy)) := by
  induction n with
  | zero =>
    have hSame : s.note (List.replicate 0 strangeBusy) = s := by simp [LoopState.note]
    rw [hSame]
    exact .refl
  | succ n ih =>
    have hNext : s.note (List.replicate (n + 1) strangeBusy) =
        (s.note (List.replicate n strangeBusy)).note [strangeBusy] := by
      simp [LoopState.note, List.replicate_succ', List.append_assoc]
    rw [hNext]
    exact ih.tail (busy_round hActive hCid hIncoming hSendable)

/-- A reply or a keepalive of a task goes out. -/
def answersTask : LoopEvent → Bool
  | .sent (.reply _) _ => true
  | .sent (.keepalive _) _ => true
  | _ => false

theorem not_mem_log_of_busy {event : LoopEvent} (hLog : ∀ e ∈ s.log, answersTask e = false)
    (hAnswers : answersTask event = true) :
    event ∉ (s.note (List.replicate n strangeBusy)).log := by
  intro hSent
  rcases List.mem_append.mp hSent with hOld | hNew
  · rw [hLog _ hOld] at hAnswers
    cases hAnswers
  · rw [List.eq_of_mem_replicate hNew] at hAnswers
    cases hAnswers

/-- A result is stored and a keepalive is due, and neither goes out however many rounds pass, with
a ping on another channel ready in each. -/
theorem foreign_traffic_starves : ∃ s active,
    Rounds sampleLibraries 9 (fun _ _ => True) 2 { daemon := {} } s ∧ s.active = some active ∧
      active.discardResult = false ∧ active.cancelRequested = false ∧ s.completion.isSome ∧
      ∀ n, ∃ s', Rounds sampleLibraries 9 (fun s i => traffic (foreign active.cid) s i = true ∧
          active.nextKeepalive ≤ i.now) n s s' ∧
        ∀ packet, .sent (.reply active.task) packet ∉ s'.log ∧
          .sent (.keepalive active.task) packet ∉ s'.log := by
  have hPlayed : infoStored.any (fun s =>
      (s.active.any fun active =>
        active.cid == 1 && !active.discardResult && !active.cancelRequested) &&
      s.incoming.isNone && s.sendable && s.completion.isSome &&
      s.log.all fun event => !answersTask event) = true := by
    decide +kernel
  obtain ⟨s, hStored, hs⟩ := (Option.any_eq_true _ _).mp hPlayed
  simp only [Bool.and_eq_true, Option.any_eq_true, List.all_eq_true, beq_iff_eq,
    Bool.not_eq_true', Option.isNone_iff_eq_none] at hs
  obtain ⟨⟨⟨⟨⟨active, hActive, ⟨hCid, hKept⟩, hLive⟩, hIncoming⟩, hSendable⟩, hResult⟩, hLog⟩ := hs
  refine ⟨s, active, rounds_of_infoStored hStored, hActive, hKept, hLive, hResult, fun n => ?_⟩
  rw [hCid]
  exact ⟨_, busy_rounds hActive hCid hIncoming hSendable n, fun packet =>
    ⟨not_mem_log_of_busy hLog rfl, not_mem_log_of_busy hLog rfl⟩⟩

end VAuth.Ctap
