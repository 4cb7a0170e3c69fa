import Mathlib.Data.List.Induction
import VAuth.Hid.Framing

/-!
# The partial message

What `CTAPHIDFrameProcessor` holds between two frames, in every sequence of calls of `process` and
`expire`: the declared length and the sequence number fit what was collected, and the deadline is
that of the initial frame. An error on the channel of the message ends it, except for an initial
frame with a wrong length, which is refused before the processor looks at the message.
-/

namespace VAuth.Ctap

open CTAPHIDFrameProcessor

/-! ## One call -/

def IsInitial (frame : Bytes) : Prop := frameByte frame 4 &&& mask ≠ 0

def frameCommand (frame : Bytes) : UInt8 := frameByte frame 4 &&& 0x7F

def frameLength (frame : Bytes) : UInt16 :=
  ((frameByte frame 5).toUInt16 <<< 8) ||| (frameByte frame 6).toUInt16

/-- The length that an initial frame declares is too large, or not that of its command. -/
def WrongLength (frame : Bytes) : Prop :=
  (frameLength frame).toNat > ctaphidMaxPayloadSize ∨
  (frameCommand frame = ctaphidInit ∧ frameLength frame ≠ 8) ∨
  (frameCommand frame = ctaphidCancel ∧ frameLength frame ≠ 0)

/-- How many bytes of a continuation frame belong to the message. -/
def UHIDReport.missing (report : UHIDReport) : Nat :=
  min (report.len.toNat - report.payload.length) maxContPayloadSize

/-- The message with the next continuation frame. -/
def UHIDReport.extended (report : UHIDReport) (frame : Bytes) : UHIDReport :=
  { report with
    seq := report.seq + 1
    payload := report.payload ++ (frame.drop 5).take report.missing }

/-- The message that an initial frame starts. -/
def startedReport (frame : Bytes) : UHIDReport where
  cid := frameCid frame
  cmd := frameCommand frame
  len := frameLength frame
  payload := (frame.drop 7).take (min (frameLength frame).toNat maxInitPayloadSize)

/-- A continuation frame of the message. -/
structure InSequence (report : UHIDReport) (frame : Bytes) : Prop where
  size : frame.length = hidFrameSize
  continuation : ¬ IsInitial frame
  cid : frameCid frame = report.cid
  seq : frameByte frame 4 = report.seq

/-- What `process` can do. -/
inductive Processed (incoming : Option IncomingTransaction) (frame : Bytes)
    (activeCid : Option UInt32) (allocatedCids : List UInt32) (now : Int) :
    FrameProcessingResult × Option IncomingTransaction → Prop
  | ignored : Processed incoming frame activeCid allocatedCids now (.monostate, incoming)
  | refused (error : HIDError) (hSize : frame.length = hidFrameSize) (hInitial : IsInitial frame)
      (hReason : WrongLength frame ∨ activeCid.isSome = true ∨
        (∃ t, incoming = some t ∧ frameCid frame ≠ t.report.cid) ∨
        frameCid frame ∉ allocatedCids) :
      Processed incoming frame activeCid allocatedCids now
        (.error { cid := frameCid frame, error }, incoming)
  | dropped (t : IncomingTransaction) (hIncoming : incoming = some t) :
      Processed incoming frame activeCid allocatedCids now
        (.error { cid := t.report.cid, error := .invalidSeq }, none)
  | extended (t : IncomingTransaction) (hIncoming : incoming = some t)
      (hFrame : InSequence t.report frame)
      (hPartial : (t.report.extended frame).payload.length ≠ t.report.len.toNat) :
      Processed incoming frame activeCid allocatedCids now
        (.monostate, some { t with report := t.report.extended frame })
  | completed (t : IncomingTransaction) (hIncoming : incoming = some t)
      (hFrame : InSequence t.report frame)
      (hWhole : (t.report.extended frame).payload.length = t.report.len.toNat) :
      Processed incoming frame activeCid allocatedCids now (.report (t.report.extended frame), none)
  | whole (hWhole : (startedReport frame).payload.length = (frameLength frame).toNat) :
      Processed incoming frame activeCid allocatedCids now (.report (startedReport frame), none)
  | started (hSize : frame.length = hidFrameSize) (hInitial : IsInitial frame)
      (hLength : ¬ WrongLength frame) (hActive : activeCid = none)
      (hIncoming : incoming = none) (hCid : frameCid frame ∈ allocatedCids)
      (hPartial : (startedReport frame).payload.length ≠ (frameLength frame).toNat) :
      Processed incoming frame activeCid allocatedCids now (.monostate, some {
          report := startedReport frame, deadline := now + messageAssemblyTimeout })

section

variable {incoming : Option IncomingTransaction} {frame : Bytes} {activeCid : Option UInt32}
  {allocatedCids : List UInt32} {now : Int}

theorem processContinuation_some (t : IncomingTransaction) (frame : Bytes) :
    processContinuation (some t) frame =
      if frameCid frame ≠ t.report.cid then (.monostate, some t)
      else if frameByte frame 4 ≠ t.report.seq then
        (.error { cid := t.report.cid, error := .invalidSeq }, none)
      else if (t.report.extended frame).payload.length ≠ t.report.len.toNat then
        (.monostate, some { t with report := t.report.extended frame })
      else (.report (t.report.extended frame), none) := rfl

theorem beginMessage_eq (frame : Bytes) (now : Int) : beginMessage frame now =
    if (startedReport frame).payload.length = (frameLength frame).toNat then
      (.report (startedReport frame), none)
    else (.monostate, some {
      report := startedReport frame, deadline := now + messageAssemblyTimeout }) := rfl

section

variable (hSize : frame.length = hidFrameSize)
include hSize

theorem processed_continuation (hContinuation : ¬ IsInitial frame) :
    Processed incoming frame activeCid allocatedCids now (processContinuation incoming frame) := by
  cases incoming with
  | none => exact .ignored
  | some t =>
    rw [processContinuation_some]
    by_cases hCid : frameCid frame = t.report.cid
    · rw [if_neg (not_not.mpr hCid)]
      by_cases hSeq : frameByte frame 4 = t.report.seq
      · have hFrame : InSequence t.report frame := ⟨hSize, hContinuation, hCid, hSeq⟩
        rw [if_neg (not_not.mpr hSeq)]
        by_cases hWhole : (t.report.extended frame).payload.length = t.report.len.toNat
        · rw [if_neg (not_not.mpr hWhole)]
          exact .completed t rfl hFrame hWhole
        · rw [if_pos hWhole]
          exact .extended t rfl hFrame hWhole
      · rw [if_pos hSeq]
        exact .dropped t rfl
    · rw [if_pos hCid]
      exact .ignored

theorem length_startedReport :
    (startedReport frame).payload.length = min (frameLength frame).toNat maxInitPayloadSize := by
  unfold startedReport hidFrameSize maxInitPayloadSize at *
  rw [List.length_take, List.length_drop, hSize]
  omega

theorem whole_of_control (hLength : ¬ WrongLength frame)
    (hControl : frameCommand frame = ctaphidCancel ∨ frameCommand frame = ctaphidInit) :
    (startedReport frame).payload.length = (frameLength frame).toNat := by
  rw [length_startedReport hSize]
  simp only [WrongLength, not_or, not_and, not_not] at hLength
  rcases hControl with hCancel | hInit
  · rw [hLength.2.2 hCancel]
    rfl
  · rw [hLength.2.1 hInit]
    rfl

theorem processed_initial (hInitial : IsInitial frame) :
    Processed incoming frame activeCid allocatedCids now
      (processInitial incoming frame activeCid allocatedCids now) := by
  unfold processInitial
  simp only
  split
  · exact .refused _ hSize hInitial (.inl (.inl ‹_›))
  rename_i hLarge
  split
  · exact .refused _ hSize hInitial (.inl (.inr ‹_›))
  rename_i hCommand
  have hLength : ¬ WrongLength frame := not_or.mpr ⟨hLarge, hCommand⟩
  split
  · exact .ignored
  split
  · exact .refused _ hSize hInitial (.inr (.inl (And.left ‹_›)))
  rename_i hBusy
  split
  · rename_i hOther
    refine .refused _ hSize hInitial (.inr (.inr (.inl ?_)))
    obtain ⟨t, hIncoming, hCid⟩ := (Option.any_eq_true _ _).mp hOther
    exact ⟨t, hIncoming, of_decide_eq_true hCid⟩
  split
  · exact .refused _ hSize hInitial (.inr (.inr (.inr (And.right ‹_›))))
  rename_i hAllocated
  cases incoming with
  | some t =>
    simp only
    split
    · rw [beginMessage_eq, if_pos (whole_of_control hSize hLength (.inr ‹_›))]
      exact .whole (whole_of_control hSize hLength (.inr ‹_›))
    · exact .dropped t rfl
  | none =>
    simp only
    rw [beginMessage_eq]
    by_cases hWhole : (startedReport frame).payload.length = (frameLength frame).toNat
    · rw [if_pos hWhole]
      exact .whole hWhole
    · -- only the control commands pass while a task is active or without a channel
      rw [if_neg hWhole]
      refine .started hSize hInitial hLength ?_ rfl ?_ hWhole
      · by_contra hActive
        refine hBusy ⟨Option.isSome_iff_ne_none.mpr hActive, fun hControl => ?_⟩
        exact hWhole (whole_of_control hSize hLength hControl.2)
      · by_contra hFree
        refine hAllocated ⟨fun hBroadcast => ?_, hFree⟩
        exact hWhole (whole_of_control hSize hLength (.inr hBroadcast.2))

end

theorem processed (incoming : Option IncomingTransaction) (rawFrame : Bytes)
    (activeCid : Option UInt32) (allocatedCids : List UInt32) (now : Int) :
    Processed incoming (withoutReportId rawFrame) activeCid allocatedCids now
      (process incoming rawFrame activeCid allocatedCids now) := by
  unfold process
  simp only
  split
  · exact .ignored
  rename_i hSize
  split
  · exact processed_continuation (not_not.mp hSize) (not_not.mpr ‹_›)
  · exact processed_initial (not_not.mp hSize) ‹_›

end

/-! ## Every sequence of calls -/

/-- What is known of a partial message. -/
structure Assembling (report : UHIDReport) : Prop where
  init : report.cmd ≠ ctaphidInit
  cancel : report.cmd ≠ ctaphidCancel
  len : report.len.toNat ≤ 7609
  payload : report.payload.length = 57 + 59 * report.seq.toNat
  short : report.payload.length < report.len.toNat

variable {report : UHIDReport} {t t' : IncomingTransaction} {frame : Bytes}
  {incoming : Option IncomingTransaction}

theorem Assembling.seq (h : Assembling report) : report.seq.toNat ≤ 127 := by
  have hLen := h.len
  have hPayload := h.payload
  have hShort := h.short
  omega

theorem Assembling.seq_succ (h : Assembling report) :
    (report.seq + 1).toNat = report.seq.toNat + 1 := by
  have hSeq := h.seq
  rw [UInt8.toNat_add]
  exact Nat.mod_eq_of_lt (by rw [UInt8.toNat_one]; omega)

theorem assembling_started (hSize : frame.length = hidFrameSize) (hLength : ¬ WrongLength frame)
    (hPartial : (startedReport frame).payload.length ≠ (frameLength frame).toNat) :
    Assembling (startedReport frame) := by
  have hLen := length_startedReport hSize
  have hMax : (frameLength frame).toNat ≤ 7609 := Nat.not_lt.mp (not_or.mp hLength).1
  have hSeq : (startedReport frame).seq.toNat = 0 := rfl
  have hDeclared : (startedReport frame).len.toNat = (frameLength frame).toNat := rfl
  refine ⟨fun hInit => hPartial (whole_of_control hSize hLength (.inr hInit)),
    fun hCancel => hPartial (whole_of_control hSize hLength (.inl hCancel)), hMax, ?_, ?_⟩
  · rw [hSeq, hLen]
    unfold maxInitPayloadSize at *
    omega
  · rw [hDeclared]
    omega

theorem length_extended (hSize : frame.length = hidFrameSize) :
    (report.extended frame).payload.length = report.payload.length + report.missing := by
  have hMissing : report.missing ≤ 59 := Nat.min_le_right _ _
  rw [UHIDReport.extended, List.length_append, List.length_take, List.length_drop, hSize]
  unfold hidFrameSize
  omega

theorem Assembling.extended (h : Assembling report) (hSize : frame.length = hidFrameSize)
    (hPartial : (report.extended frame).payload.length ≠ report.len.toNat) :
    Assembling (report.extended frame) := by
  have hPayload := h.payload
  have hShort := h.short
  have hDeclared : (report.extended frame).len = report.len := rfl
  have hSeq : (report.extended frame).seq.toNat = report.seq.toNat + 1 := h.seq_succ
  have hLength : (report.extended frame).payload.length =
      report.payload.length + report.missing := length_extended hSize
  have hMissing : report.missing = min (report.len.toNat - report.payload.length) 59 := rfl
  refine ⟨h.init, h.cancel, h.len, ?_, ?_⟩
  · rw [hSeq]
    omega
  · rw [hDeclared]
    omega

inductive FrameCall where
  | process (rawFrame : Bytes) (activeCid : Option UInt32) (allocatedCids : List UInt32) (now : Int)
  | expire (now : Int)

/-- The partial message after a call. -/
def FrameCall.leaves (incoming : Option IncomingTransaction) :
    FrameCall → Option IncomingTransaction
  | .process rawFrame activeCid allocatedCids now =>
    (CTAPHIDFrameProcessor.process incoming rawFrame activeCid allocatedCids now).2
  | .expire now => (CTAPHIDFrameProcessor.expire incoming now).2

/-- The partial message after some calls of a new processor. -/
def assembly (calls : List FrameCall) : Option IncomingTransaction :=
  calls.foldl FrameCall.leaves none

theorem assembly_snoc (calls : List FrameCall) (call : FrameCall) :
    assembly (calls ++ [call]) = call.leaves (assembly calls) := by
  rw [assembly, List.foldl_append]
  rfl

/-- The same message, perhaps with more of its payload. -/
structure SameMessage (t t' : IncomingTransaction) : Prop where
  cid : t'.report.cid = t.report.cid
  cmd : t'.report.cmd = t.report.cmd
  len : t'.report.len = t.report.len
  deadline : t'.deadline = t.deadline
  assembling : Assembling t.report → Assembling t'.report

/-- The call started this message. -/
inductive Starts : FrameCall → IncomingTransaction → Prop
  | intro (rawFrame : Bytes) (allocatedCids : List UInt32) (now : Int)
      (hSize : (withoutReportId rawFrame).length = hidFrameSize)
      (hInitial : IsInitial (withoutReportId rawFrame))
      (hCid : frameCid (withoutReportId rawFrame) ∈ allocatedCids) :
      Starts (.process rawFrame none allocatedCids now) {
        report := startedReport (withoutReportId rawFrame)
        deadline := now + messageAssemblyTimeout }

theorem expire_cases (t : IncomingTransaction) (now : Int) : expire (some t) now = (none, some t) ∨
    expire (some t) now = (some { cid := t.report.cid, error := .timeout }, none) := by
  unfold expire
  by_cases hEarly : now < t.deadline
  · exact .inl (if_pos hEarly)
  · exact .inr (if_neg hEarly)

theorem leaves_cases {call : FrameCall} (h : call.leaves incoming = some t) :
    (∃ t₀, incoming = some t₀ ∧ SameMessage t₀ t) ∨
    (incoming = none ∧ Starts call t ∧ Assembling t.report) := by
  cases call with
  | expire now =>
    unfold FrameCall.leaves at h
    cases incoming with
    | none => cases h
    | some t₀ =>
      simp only at h
      rcases expire_cases t₀ now with hKept | hExpired
      · rw [hKept] at h
        cases h
        exact .inl ⟨t, rfl, rfl, rfl, rfl, rfl, id⟩
      · rw [hExpired] at h
        cases h
  | process rawFrame activeCid allocatedCids now =>
    unfold FrameCall.leaves at h
    have hCall := processed incoming rawFrame activeCid allocatedCids now
    simp only at h
    generalize CTAPHIDFrameProcessor.process incoming rawFrame activeCid allocatedCids now =
      result at hCall h
    cases hCall with
    | ignored => exact .inl ⟨t, h, rfl, rfl, rfl, rfl, id⟩
    | refused => exact .inl ⟨t, h, rfl, rfl, rfl, rfl, id⟩
    | dropped t₀ hIncoming => cases h
    | extended t₀ hIncoming hFrame hPartial =>
      cases h
      exact .inl ⟨t₀, hIncoming, rfl, rfl, rfl, rfl, fun h => h.extended hFrame.size hPartial⟩
    | completed => cases h
    | whole => cases h
    | started hSize hInitial hLength hActive hIncoming hCid hPartial =>
      cases h
      cases hActive
      exact .inr ⟨hIncoming, .intro rawFrame allocatedCids now hSize hInitial hCid,
        assembling_started hSize hLength hPartial⟩

theorem SameMessage.refl (t : IncomingTransaction) : SameMessage t t := ⟨rfl, rfl, rfl, rfl, id⟩

theorem SameMessage.trans {t'' : IncomingTransaction} (h : SameMessage t t')
    (h' : SameMessage t' t'') : SameMessage t t'' where
  cid := h'.cid.trans h.cid
  cmd := h'.cmd.trans h.cmd
  len := h'.len.trans h.len
  deadline := h'.deadline.trans h.deadline
  assembling := fun hStart => h'.assembling (h.assembling hStart)

/-- One of the calls started the message, and the later ones only continued it. -/
def Begun (calls : List FrameCall) (t : IncomingTransaction) : Prop :=
  ∃ past call t₀ rest, calls = past ++ call :: rest ∧ Starts call t₀ ∧ SameMessage t₀ t ∧
    ∀ mid more, rest = mid ++ more → ∃ t', assembly (past ++ call :: mid) = some t' ∧
      SameMessage t₀ t'

variable {calls : List FrameCall}

theorem Begun.snoc {call : FrameCall} (h : Begun calls t)
    (hStep : assembly (calls ++ [call]) = some t') (hSame : SameMessage t t') :
    Begun (calls ++ [call]) t' := by
  obtain ⟨past, first, t₀, rest, rfl, hStarts, hSameMessage, hBetween⟩ := h
  have hSameMessage' := hSameMessage.trans hSame
  refine ⟨past, first, t₀, rest ++ [call], by simp, hStarts, hSameMessage', ?_⟩
  intro mid more hRest
  rcases List.append_eq_append_iff.mp hRest with ⟨extra, hMid, hMore⟩ | ⟨extra, hMid, hMore⟩
  · cases extra with
    | nil =>
      rw [List.append_nil] at hMid
      exact hBetween mid [] (by rw [hMid, List.append_nil])
    | cons e extra =>
      obtain ⟨rfl, hEnd⟩ := List.cons.inj hMore
      obtain ⟨rfl, -⟩ := List.append_eq_nil_iff.mp hEnd.symm
      refine ⟨t', ?_, hSameMessage'⟩
      rw [hMid, ← hStep]
      simp
  · exact hBetween mid extra hMid

/-- The message after any calls. -/
theorem assembly_begun (h : assembly calls = some t) : Begun calls t ∧ Assembling t.report := by
  induction calls using List.reverseRecOn generalizing t with
  | nil => cases h
  | append_singleton calls call ih =>
    have hStep := h
    rw [assembly_snoc] at h
    rcases leaves_cases h with ⟨t₀, hBefore, hSameMessage⟩ | ⟨-, hStarts, hAssembling⟩
    · obtain ⟨hBegun, hAssembling⟩ := ih hBefore
      exact ⟨hBegun.snoc hStep hSameMessage, hSameMessage.assembling hAssembling⟩
    · refine ⟨⟨calls, call, t, [], rfl, hStarts, .refl t, ?_⟩, hAssembling⟩
      intro mid more hRest
      obtain ⟨rfl, -⟩ := List.append_eq_nil_iff.mp hRest.symm
      exact ⟨t, hStep, .refl t⟩

theorem process_report {rawFrame : Bytes} {activeCid : Option UInt32} {allocatedCids : List UInt32}
    {now : Int} (h : (process incoming rawFrame activeCid allocatedCids now).1 = .report report) :
    report.payload.length = report.len.toNat ∧
      (process incoming rawFrame activeCid allocatedCids now).2 = none := by
  have hCall := processed incoming rawFrame activeCid allocatedCids now
  generalize process incoming rawFrame activeCid allocatedCids now = result at hCall h
  cases hCall with
  | completed t hIncoming hFrame hWhole =>
    cases h
    exact ⟨hWhole, rfl⟩
  | whole hWhole =>
    cases h
    exact ⟨hWhole, rfl⟩
  | ignored | refused | dropped | extended | started => cases h

/-! ## Errors -/

/-- What a call reports. -/
def FrameCall.reports (incoming : Option IncomingTransaction) : FrameCall → FrameProcessingResult
  | .process rawFrame activeCid allocatedCids now =>
    (CTAPHIDFrameProcessor.process incoming rawFrame activeCid allocatedCids now).1
  | .expire now => (CTAPHIDFrameProcessor.expire incoming now).1.elim .monostate .error

/-- An initial frame of the channel that declares a wrong length. -/
structure Misdeclares (channel : UInt32) (frame : Bytes) : Prop where
  size : frame.length = hidFrameSize
  initial : IsInitial frame
  cid : frameCid frame = channel
  length : WrongLength frame

/-- The declared length is checked before the processor looks at the message. -/
theorem process_misdeclared {rawFrame : Bytes} {channel : UInt32}
    (incoming : Option IncomingTransaction) (activeCid : Option UInt32)
    (allocatedCids : List UInt32) (now : Int) (h : Misdeclares channel (withoutReportId rawFrame)) :
    process incoming rawFrame activeCid allocatedCids now =
      (.error { cid := channel, error := .invalidLength }, incoming) := by
  obtain ⟨hSize, hInitial, rfl, hLength⟩ := h
  unfold process
  rw [if_neg (not_not.mpr hSize), if_neg hInitial]
  unfold processInitial
  by_cases hLarge : (frameLength (withoutReportId rawFrame)).toNat > ctaphidMaxPayloadSize
  · exact if_pos hLarge
  · exact (if_neg hLarge).trans (if_pos (hLength.resolve_left hLarge))

section

variable {t : IncomingTransaction} {rawFrame : Bytes} {allocatedCids : List UInt32} {now : Int}

theorem process_error (hCid : t.report.cid ∈ allocatedCids)
    (hFrame : ¬ Misdeclares t.report.cid (withoutReportId rawFrame)) {e : FrameProcessingError}
    (hError : (process (some t) rawFrame none allocatedCids now).1 = .error e)
    (hOwn : e.cid = t.report.cid) : (process (some t) rawFrame none allocatedCids now).2 = none := by
  have hCall := processed (some t) rawFrame none allocatedCids now
  generalize process (some t) rawFrame none allocatedCids now = result at hCall hError
  cases hCall with
  | refused error hSize hInitial hReason =>
    cases hError
    replace hOwn : frameCid (withoutReportId rawFrame) = t.report.cid := hOwn
    rw [hOwn] at hReason
    rcases hReason with hWrong | hActive | ⟨t', hIncoming, hOther⟩ | hFree
    · exact absurd ⟨hSize, hInitial, hOwn, hWrong⟩ hFrame
    · cases hActive
    · cases hIncoming
      exact absurd rfl hOther
    · exact absurd hCid hFree
  | dropped => rfl
  | ignored | extended | completed | whole | started => cases hError

theorem process_no_error {result : FrameProcessingResult} {left : Option IncomingTransaction}
    (hResult : process (some t) rawFrame none allocatedCids now = (result, left))
    (hOther : result = .monostate ∨ ∃ e, result = .error e ∧ e.cid ≠ t.report.cid) :
    left = some t ∨ InSequence t.report (withoutReportId rawFrame) ∧
      left = some { t with report := t.report.extended (withoutReportId rawFrame) } := by
  have hCall := processed (some t) rawFrame none allocatedCids now
  rw [hResult] at hCall
  cases hCall with
  | ignored => exact .inl rfl
  | refused => exact .inl rfl
  | dropped t' hIncoming =>
    cases hIncoming
    rcases hOther with ⟨⟨⟩⟩ | ⟨e, ⟨⟩, hOther⟩
    exact absurd rfl hOther
  | extended t' hIncoming hFrame =>
    cases hIncoming
    exact .inr ⟨hFrame, rfl⟩
  | completed | whole => obtain ⟨⟨⟩⟩ | ⟨e, ⟨⟩, -⟩ := hOther
  | started _ _ _ _ hIncoming => cases hIncoming

theorem assembly_after_none {past : List FrameCall} {call : FrameCall}
    (h : call.leaves (assembly past) = none) (later : List FrameCall) :
    assembly (past ++ call :: later) = assembly later := by
  rw [assembly, List.foldl_append, List.foldl_cons]
  exact congrArg (fun incoming => later.foldl FrameCall.leaves incoming) h

/-- **An error on the channel of the message ends it**, unless it is for the length that an
initial frame of the channel declares, and then never. Every other result leaves the message as it
is, up to the next of its continuation frames. After an error that ended the message, what is
reported is what the later frames alone give. -/
theorem error_ends_message (hCid : t.report.cid ∈ allocatedCids) :
    ((∀ e, (process (some t) rawFrame none allocatedCids now).1 = .error e →
        e.cid = t.report.cid → (process (some t) rawFrame none allocatedCids now).2 = none) ↔
      ¬ Misdeclares t.report.cid (withoutReportId rawFrame)) ∧
    (∀ result left, process (some t) rawFrame none allocatedCids now = (result, left) →
      result = .monostate ∨ (∃ e, result = .error e ∧ e.cid ≠ t.report.cid) →
        left = some t ∨ InSequence t.report (withoutReportId rawFrame) ∧
          left = some { t with report := t.report.extended (withoutReportId rawFrame) }) ∧
    (∀ error left, expire (some t) now = (error, left) →
      (∀ e, error = some e → e.cid = t.report.cid ∧ left = none) ∧
      (error = none → left = some t)) ∧
    ∀ past call, assembly past = some t →
      call = .expire now ∨ call = .process rawFrame none allocatedCids now ∧
        ¬ Misdeclares t.report.cid (withoutReportId rawFrame) →
      ∀ e, call.reports (assembly past) = .error e → e.cid = t.report.cid → ∀ later next,
        FrameCall.reports (assembly (past ++ call :: later)) next =
          FrameCall.reports (assembly later) next := by
  have hExpire : ∀ error left, expire (some t) now = (error, left) →
      (∀ e, error = some e → e.cid = t.report.cid ∧ left = none) ∧
      (error = none → left = some t) := by
    intro error left hResult
    rcases expire_cases t now with hKept | hExpired
    · cases hKept.symm.trans hResult
      exact ⟨fun _ h => (by cases h), fun _ => rfl⟩
    · cases hExpired.symm.trans hResult
      refine ⟨fun e he => ?_, fun h => (by cases h)⟩
      cases he
      exact ⟨rfl, rfl⟩
  refine ⟨⟨fun hEnds hFrame => ?_, fun hFrame e => process_error hCid hFrame⟩,
    fun result left => process_no_error, hExpire, ?_⟩
  · have hKept := process_misdeclared (some t) none allocatedCids now hFrame
    rw [hKept] at hEnds
    cases hEnds _ rfl rfl
  · intro past call hPast hCall e hError hOwn later next
    have hLeft : call.leaves (assembly past) = none := by
      rw [hPast] at hError ⊢
      rcases hCall with rfl | ⟨rfl, hFrame⟩
      · rcases expire_cases t now with hKept | hExpired
        · rw [FrameCall.reports, hKept] at hError
          cases hError
        · rw [FrameCall.leaves, hExpired]
      · exact process_error hCid hFrame hError hOwn
    rw [assembly_after_none hLeft]

end

/-- The first frame of a PING of 100 bytes on channel 1. -/
def pingFrame : Bytes := channelId 1 ++ [0x81, 0, 100] ++ List.replicate 57 0x2A

/-- An initial frame of channel 1 that declares one byte more than a message can have. -/
def oversizedFrame : Bytes := channelId 1 ++ [0x81, 0x1D, 0xBA] ++ List.replicate 57 0

/-- The second frame of the PING. -/
def pingRest : Bytes := channelId 1 ++ [0] ++ List.replicate 59 0x2A

/-- The PING starts anew in the middle of it, which ends it: the second frame of it then yields
nothing. -/
theorem error_ends_message_sequence : ∃ t, assembly [.process pingFrame none [1] 5] = some t ∧
    process (some t) pingFrame none [1] 6 = (.error ⟨1, .invalidSeq⟩, none) ∧
    FrameCall.reports (assembly [.process pingFrame none [1] 5, .process pingFrame none [1] 6])
      (.process pingRest none [1] 7) = .monostate := by
  have hSome : (assembly [.process pingFrame none [1] 5]).any (fun t => t.report.cid == 1 &&
      process (some t) pingFrame none [1] 6 == (.error ⟨1, .invalidSeq⟩, none)) = true := by
    decide +kernel
  obtain ⟨t, ht, hCall⟩ := (Option.any_eq_true _ _).mp hSome
  simp only [Bool.and_eq_true, beq_iff_eq] at hCall
  have hCid : t.report.cid ∈ [1] := List.mem_singleton.mpr hCall.1
  have hFrame : ¬ Misdeclares t.report.cid (withoutReportId pingFrame) := by
    intro h
    have hLength := h.length
    unfold WrongLength at hLength
    revert hLength
    decide +kernel
  have hError : FrameCall.reports (assembly [.process pingFrame none [1] 5])
      (.process pingFrame none [1] 6) = .error ⟨1, .invalidSeq⟩ := by
    rw [ht, FrameCall.reports, hCall.2]
  have hLater := (@error_ends_message t pingFrame [1] 6 hCid).2.2.2 _ _ ht (.inr ⟨rfl, hFrame⟩) _
    hError hCall.1.symm [] (.process pingRest none [1] 7)
  exact ⟨t, ht, hCall.2, hLater.trans (by decide +kernel)⟩

/-- The client of channel 1 is told that its PING failed, and gets the answer to it. -/
theorem error_keeps_message : ∃ t report, assembly [.process pingFrame none [1] 5] = some t ∧
    process (some t) oversizedFrame none [1] 6 = (.error ⟨1, .invalidLength⟩, some t) ∧
    process (some t) pingRest none [1] 7 = (.report report, none) ∧
    report.cid = 1 ∧ report.payload = List.replicate 100 0x2A := by
  refine ⟨{ report := startedReport pingFrame, deadline := 5 + messageAssemblyTimeout },
    (startedReport pingFrame).extended pingRest, ?_, ?_, ?_, ?_, ?_⟩ <;> decide +kernel

end VAuth.Ctap
