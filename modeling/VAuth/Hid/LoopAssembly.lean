import VAuth.Process.Run
import VAuth.Hid.Assembly
import VAuth.Hid.EventLoop

/-!
# The partial message of the event loop

The loop hands every frame to the frame processor together with the channel of the active task, and
starts a task with the last frame of a message. So there is never a partial message and a task at
the same time.
-/

namespace VAuth.Ctap

open CTAPHIDFrameProcessor Proc

/-- The partial message of the loop has a channel, and there is no task. -/
def Orderly (s : LoopState) : Prop := ∀ t, s.incoming = some t →
  Assembling t.report ∧ t.report.cid ∈ s.allocatedCids ∧ s.active = none

/-- A step that leaves the partial message alone, and starts no task. -/
structure Aside (s s' : LoopState) : Prop where
  incoming : s'.incoming = s.incoming
  allocated : ∀ cid ∈ s.allocatedCids, cid ∈ s'.allocatedCids
  active : s.active = none → s'.active = none

variable {s : LoopState}

theorem Orderly.aside {s' : LoopState} (h : Orderly s) (hStep : Aside s s') : Orderly s' := by
  intro t ht
  obtain ⟨hAssembling, hCid, hActive⟩ := h t (hStep.incoming ▸ ht)
  exact ⟨hAssembling, hStep.allocated _ hCid, hStep.active hActive⟩

theorem orderly_of_none (h : s.incoming = none) : Orderly s := by
  intro t ht
  rw [h] at ht
  cases ht

theorem ThreadStep.aside {s' : LoopState} (h : ThreadStep s s') : Aside s s' := by
  cases h <;> exact ⟨rfl, fun _ h => h, id⟩

/-- The loop among its workers. -/
def assemblySetting : Setting LoopState LoopInput :=
  .among ThreadStep (fun _ _ => True) fun _ s' => Orderly s'

/-- An assertion about the partial message that steps aside keep. -/
structure Steady (I : LoopState → Prop) : Prop where
  aside : ∀ s s', Aside s s' → I s → I s'
  orderly : ∀ s, I s → Orderly s

theorem steady_orderly : Steady Orderly := ⟨fun _ _ hStep h => h.aside hStep, fun _ h => h⟩

theorem steady_none : Steady fun s => s.incoming = none :=
  ⟨fun _ _ hStep h => hStep.incoming.trans h, fun _ h => orderly_of_none h⟩

theorem Aside.refl (s : LoopState) : Aside s s := ⟨rfl, fun _ h => h, id⟩

theorem LoopState.acceptInit_aside (s : LoopState) (cid : UInt32) : Aside s (s.acceptInit cid) := by
  unfold LoopState.acceptInit
  split
  · rename_i active hActive
    split
    · exact ⟨rfl, fun _ h => h, fun hNone => by rw [hActive] at hNone; cases hNone⟩
    · exact ⟨rfl, fun _ h => h, id⟩
  · exact ⟨rfl, fun _ h => h, id⟩

section

variable {I : LoopState → Prop} {α β : Type} (hI : Steady I)
include hI

theorem Steady.tolerates : assemblySetting.Tolerates I :=
  tolerates_among fun _ _ hStep h => hI.aside _ _ hStep.aside h

theorem Steady.atomically {f : LoopInput → LoopState → Except Exn α × LoopState}
    (h : ∀ i s, Aside s (f i s).2) : Maintains assemblySetting I (Proc.atomically f) := by
  intro s hs
  refine wp_tolerant_atomically hI.tolerates hs fun s' i hs' _ => ?_
  have hNext := hI.aside _ _ (h i s') hs'
  exact ⟨hI.orderly _ hNext, fun _ _ => hNext, fun _ _ => hNext⟩

theorem Steady.observe (f : LoopInput → LoopState → Except Exn α) :
    Maintains assemblySetting I (Proc.observe f) :=
  hI.atomically fun _ s => .refl s

theorem Steady.read (f : LoopState → α) : Maintains assemblySetting I (Proc.read f : LoopProc α) :=
  hI.observe _

theorem Steady.modify {f : LoopState → LoopState} (h : ∀ s, Aside s (f s)) :
    Maintains assemblySetting I (Proc.modify f : LoopProc Unit) :=
  hI.atomically fun _ s => h s

theorem Steady.sendPacket (purpose : Purpose) (packet : CTAPPacket) :
    Maintains assemblySetting I (Ctap.sendPacket purpose packet) := by
  refine hI.atomically fun i s => ?_
  split
  · exact .refl s
  · split <;> exact ⟨rfl, fun _ h => h, id⟩

theorem Steady.refuse (cid : UInt32) (error : HIDError) :
    Maintains assemblySetting I (Ctap.refuse cid error) :=
  maintains_bind (hI.sendPacket _ _) fun _ => maintains_done false

theorem Steady.join (rounds : Nat) : Maintains assemblySetting I (Ctap.join rounds) :=
  maintains_bind (maintains_loop trivial (fun _ => hI.observe _) rounds ())
    fun _ => hI.modify fun _ => ⟨rfl, fun _ h => h, id⟩

theorem Steady.stopAndJoin (rounds : Nat) :
    Maintains assemblySetting I (Ctap.stopAndJoin rounds) := by
  refine maintains_bind (hI.read _) fun isJoinable => ?_
  cases isJoinable with
  | false => exact maintains_done ()
  | true =>
    exact maintains_bind (hI.modify fun _ => ⟨rfl, fun _ h => h, id⟩) fun _ => hI.join rounds

theorem Steady.concludeTask (rounds : Nat) (active : ActiveTask) (result : TaskResult) :
    Maintains assemblySetting I (Ctap.concludeTask rounds active result) := by
  have hJoin : Maintains assemblySetting I (joinWorker rounds) := by
    refine maintains_bind (hI.read _) fun isJoinable => ?_
    cases isJoinable with
    | false => exact maintains_done ()
    | true => exact hI.join rounds
  have hDeliver : Maintains assemblySetting I (deliver active result.packet) := by
    unfold deliver
    split
    · exact hI.modify fun _ => ⟨rfl, fun _ h => h, id⟩
    · exact hI.sendPacket _ _
  have hClear :
      Maintains assemblySetting I (Proc.modify LoopState.clearActive : LoopProc Unit) := by
    refine hI.modify fun s => ?_
    unfold LoopState.clearActive
    split
    · exact ⟨rfl, fun _ h => h, fun _ => rfl⟩
    · exact .refl s
  exact maintains_bind hJoin fun _ => maintains_bind hDeliver fun _ => hClear

theorem Steady.collectResult (rounds : Nat) :
    Maintains assemblySetting I (Ctap.collectResult rounds) := by
  have hTake : Maintains assemblySetting I takeCompletion :=
    hI.atomically fun _ _ => ⟨rfl, fun _ h => h, id⟩
  refine maintains_bind hTake fun completion => ?_
  cases completion with
  | none => exact maintains_done ()
  | some result =>
    refine maintains_bind (hI.read _) fun active => ?_
    cases active with
    | none => exact maintains_done ()
    | some active =>
      simp only
      split
      · exact hI.concludeTask rounds active result
      · exact maintains_done ()

theorem Steady.sendKeepalive : Maintains assemblySetting I Ctap.sendKeepalive := by
  refine maintains_bind (hI.observe _) fun due => ?_
  cases due with
  | none => exact maintains_done ()
  | some due =>
    refine maintains_bind (hI.sendPacket _ _) fun _ => hI.modify fun s => ?_
    refine ⟨rfl, fun _ h => h, fun hActive => ?_⟩
    simp only [hActive, Option.map_none]

theorem Steady.finishRound (rounds : Nat) (goOn : Bool) :
    Maintains assemblySetting I (Ctap.finishRound rounds goOn) := by
  cases goOn with
  | false => exact maintains_done ()
  | true => exact maintains_bind (hI.collectResult rounds) fun _ => hI.sendKeepalive

theorem Steady.cancelTask (request : UHIDReport) :
    Maintains assemblySetting I (Ctap.cancelTask request) := by
  refine maintains_bind (hI.modify fun s => ?_) fun _ => maintains_done false
  unfold LoopState.cancel
  split
  · rename_i active hActive
    split
    · exact ⟨rfl, fun _ h => h, fun hNone => by rw [hActive] at hNone; cases hNone⟩
    · exact .refl s
  · exact .refl s

theorem Steady.openChannel (rounds : Nat) (request : UHIDReport) :
    Maintains assemblySetting I (Ctap.openChannel rounds request) := by
  unfold Ctap.openChannel
  split
  · exact hI.refuse _ _
  refine maintains_bind (hI.read _) fun active => ?_
  split
  · exact hI.refuse _ _
  split
  · have hAllocate : Maintains assemblySetting I (allocateCid rounds) := by
      refine maintains_loop trivial (fun _ => hI.atomically fun i s => ?_) rounds ()
      split
      · exact .refl s
      · exact ⟨rfl, fun _ h => List.mem_cons_of_mem _ h, id⟩
    refine maintains_bind hAllocate fun assignedCid => ?_
    exact maintains_bind (hI.sendPacket _ _) fun _ => maintains_done false
  refine maintains_bind (hI.read _) fun allocatedCids => ?_
  split
  · exact hI.refuse _ _
  · refine maintains_bind (hI.modify fun s => s.acceptInit_aside request.cid) fun _ => ?_
    exact maintains_bind (hI.sendPacket _ _) fun _ => maintains_done false

end

theorem maintains_launch (L : Libraries) (request : CborRequest) :
    Maintains assemblySetting (fun s => s.incoming = none) (launch L request) := by
  intro s hs
  refine wp_tolerant_atomically steady_none.tolerates hs fun s' i hs' _ => ?_
  split
  · exact ⟨orderly_of_none hs', fun _ _ => hs', fun _ _ => hs'⟩
  · exact ⟨orderly_of_none hs', fun _ _ => hs', fun _ _ => hs'⟩

theorem maintains_startTask (L : Libraries) (rounds : Nat) (cid : UInt32) (payload : Bytes) :
    Maintains assemblySetting (fun s => s.incoming = none) (startTask L rounds cid payload) := by
  have hI := steady_none
  cases payload with
  | nil => exact hI.refuse _ _
  | cons command parameters =>
    refine maintains_bind (hI.read _) fun active => ?_
    split
    · exact hI.refuse _ _
    refine maintains_bind ?_ fun _ => maintains_done true
    refine maintains_bind (maintains_launch L _) fun task => ?_
    exact maintains_bind (hI.stopAndJoin rounds) fun _ => hI.modify fun _ =>
      ⟨rfl, fun _ h => h, id⟩

theorem maintains_dispatch (L : Libraries) (rounds : Nat) (request : UHIDReport) :
    Maintains assemblySetting (fun s => s.incoming = none) (dispatch L rounds request) := by
  have hI := steady_none
  unfold dispatch
  split
  · exact hI.cancelTask request
  split
  · exact hI.openChannel rounds request
  refine maintains_bind (hI.read _) fun allocatedCids => ?_
  split
  · exact hI.refuse _ _
  refine maintains_bind (hI.read _) fun active => ?_
  split
  · exact hI.refuse _ _
  split
  · exact maintains_bind (hI.sendPacket _ _) fun _ => maintains_done false
  split
  · exact maintains_startTask L rounds _ _
  · exact hI.refuse _ _

/-- The step of the frame processor in the loop. -/
theorem Orderly.leaves (h : Orderly s) {call : FrameCall}
    (hCall : ∀ t, Starts call t → t.report.cid ∈ s.allocatedCids ∧ s.active = none) :
    Orderly { s with incoming := call.leaves s.incoming } := by
  intro t ht
  rcases leaves_cases ht with ⟨t₀, hBefore, hSame⟩ | ⟨-, hStarts, hAssembling⟩
  · obtain ⟨hAssembling, hCid, hActive⟩ := h t₀ hBefore
    exact ⟨hSame.assembling hAssembling, hSame.cid ▸ hCid, hActive⟩
  · exact ⟨hAssembling, hCall t hStarts⟩

theorem wp_processFrame (h : Orderly s) (data : Bytes) : wp assemblySetting
      (fun result s' => Orderly s' ∧ ∀ request, result = .report request → s'.incoming = none)
      (fun _ => Orderly) (processFrame data) s := by
  refine wp_tolerant_atomically steady_orderly.tolerates h fun s' i hs' _ => ?_
  have hNext : Orderly { s' with
      incoming := FrameCall.leaves s'.incoming
        (.process data (s'.active.map ActiveTask.cid) s'.allocatedCids i.now) } := by
    refine hs'.leaves fun t hStarts => ?_
    generalize hActive : s'.active.map ActiveTask.cid = activeCid at hStarts
    cases hStarts with
    | intro _ _ _ _ _ hCid => exact ⟨hCid, Option.map_eq_none_iff.mp hActive⟩
  refine ⟨hNext, ?_, nofun⟩
  intro result hResult
  refine ⟨hNext, fun request hRequest => ?_⟩
  cases hResult
  exact (process_report hRequest).2

theorem maintains_receiveFrame (L : Libraries) (rounds : Nat) (data : Bytes) :
    Maintains assemblySetting Orderly (receiveFrame L rounds data) := by
  intro s hs
  refine wp_seq (wp_processFrame hs data) ?_ fun _ _ h => h
  intro result s' hResult
  cases result with
  | monostate => exact hResult.1
  | error error => exact steady_orderly.refuse _ _ s' hResult.1
  | report request =>
    exact wp_mono (maintains_dispatch L rounds request s' (hResult.2 request rfl))
      (fun _ _ h => orderly_of_none h) (fun _ _ h => orderly_of_none h)

theorem maintains_receive (L : Libraries) (rounds : Nat) (readable : Bool) :
    Maintains assemblySetting Orderly (receive L rounds readable) := by
  cases readable with
  | false => exact maintains_done true
  | true =>
    refine maintains_bind (steady_orderly.observe _) fun event => ?_
    cases event with
    | none => exact maintains_done false
    | other => exact maintains_done true
    | output data => exact maintains_receiveFrame L rounds data

theorem maintains_expireMessage : Maintains assemblySetting Orderly expireMessage := by
  refine maintains_bind ?_ fun error => ?_
  · intro s hs
    refine wp_tolerant_atomically steady_orderly.tolerates hs fun s' i hs' _ => ?_
    have hNext : Orderly { s' with incoming := FrameCall.leaves s'.incoming (.expire i.now) } :=
      hs'.leaves fun t hStarts => nomatch hStarts
    exact ⟨hNext, fun _ _ => hNext, fun _ _ => hNext⟩
  · cases error with
    | none => exact maintains_done ()
    | some error => exact steady_orderly.sendPacket _ _

theorem maintains_loopRound (L : Libraries) (rounds : Nat) :
    Maintains assemblySetting Orderly (loopRound L rounds) := by
  have hI := steady_orderly
  refine maintains_bind (hI.observe _) fun events => ?_
  split
  · exact fun _ h => h
  split
  · refine maintains_bind (hI.observe _) fun _ => ?_
    exact maintains_bind (hI.stopAndJoin rounds) fun _ => maintains_done _
  split
  · exact fun _ h => h
  · refine maintains_bind maintains_expireMessage fun _ => ?_
    refine maintains_bind (maintains_receive L rounds _) fun goOn => ?_
    exact maintains_bind (hI.finishRound rounds goOn) fun _ => maintains_done _

theorem maintains_run (L : Libraries) (rounds : Nat) :
    Maintains assemblySetting Orderly (run L rounds) := by
  have hLoop := maintains_loop trivial (fun _ => maintains_loopRound L rounds) rounds ()
  refine maintains_bind (fun s hs => ?_) fun result => ?_
  · exact wp_attempt.mpr (wp_mono (hLoop s hs) (fun _ _ h => h) fun _ _ h => h)
  · refine maintains_bind (steady_orderly.stopAndJoin rounds) fun _ s hs => ?_
    cases result with
    | ok _ => exact hs
    | error _ => exact hs

theorem orderly_of_steps {L : Libraries} {d : Daemon} {rounds : Nat} {p : LoopProc Unit}
    (hRun : Steps ThreadStep (fun _ _ => True) (run L rounds, { daemon := d }) (p, s)) :
    Orderly s := by
  have hStart : Orderly { daemon := d } := orderly_of_none rfl
  exact wp_invariant (maintains_run L rounds _ hStart) hStart
    (fun _ _ hStep h => h.aside hStep.aside) (fun _ _ h _ => h) hRun

/-- **The partial message.** After any calls of the frame processor, and at every point of a run
of the event loop. -/
theorem assembly_invariant :
    (∀ calls t, assembly calls = some t → Assembling t.report ∧ Begun calls t ∧
      t.report.seq.toNat ≤ 127 ∧ (t.report.seq + 1).toNat = t.report.seq.toNat + 1 ∧
      5 + t.report.missing ≤ hidFrameSize) ∧
    (∀ frame, 7 + min (frameLength frame).toNat maxInitPayloadSize ≤ hidFrameSize) ∧
    (∀ calls rawFrame activeCid allocatedCids now report,
      (process (assembly calls) rawFrame activeCid allocatedCids now).1 = .report report →
      report.payload.length = report.len.toNat ∧
        (process (assembly calls) rawFrame activeCid allocatedCids now).2 = none) ∧
    ∀ L d rounds p s, Steps ThreadStep (fun _ _ => True) (run L rounds, { daemon := d }) (p, s) →
      ∀ t, s.incoming = some t →
        Assembling t.report ∧ t.report.cid ∈ s.allocatedCids ∧ s.active = none := by
  refine ⟨fun calls t h => ?_, fun frame => ?_, fun _ _ _ _ _ _ h => process_report h,
    fun _ _ _ _ _ hRun => orderly_of_steps hRun⟩
  · obtain ⟨hBegun, hAssembling⟩ := assembly_begun h
    refine ⟨hAssembling, hBegun, hAssembling.seq, hAssembling.seq_succ, ?_⟩
    exact Nat.add_le_add_left (Nat.min_le_right _ _) 5
  · exact Nat.add_le_add_left (Nat.min_le_right _ _) 7

theorem assembly_invariant_ping : ∃ t, assembly [.process pingFrame none [1] 5] = some t ∧
    t.report.len = 100 ∧ Assembling t.report := by
  have hSome : (assembly [.process pingFrame none [1] 5]).any (·.report.len == 100) = true := by
    decide +kernel
  obtain ⟨t, ht, hLen⟩ := (Option.any_eq_true _ _).mp hSome
  exact ⟨t, ht, beq_iff_eq.mp hLen, (assembly_invariant.1 _ t ht).1⟩

end VAuth.Ctap
