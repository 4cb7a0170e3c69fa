import VAuth.Hid.Framing

/-!
# A message survives its frames

The frames of a packet, fed to an idle processor with other frames in between, put the packet
together again. While a message is being assembled, a frame of the wrong size or of another
channel changes nothing and yields no report.
-/

namespace VAuth.Ctap

open CTAPHIDFrameProcessor

/-! ## Frames -/

theorem fillFrame_eq (count : Nat) (payload : Bytes) : fillFrame count payload =
    (payload.take count ++ List.replicate (count - payload.length) 0, payload.drop count) := by
  induction count generalizing payload with
  | zero => simp [fillFrame]
  | succ count ih =>
    cases payload with
    | nil => simp [fillFrame, ih, List.replicate_succ]
    | cons byte payload => simp [fillFrame, ih]

theorem length_fillFrame (count : Nat) (payload : Bytes) :
    (fillFrame count payload).1.length = count := by
  rw [fillFrame_eq]
  simp
  omega

theorem take_fillFrame {count amount : Nat} {payload : Bytes}
    (h : amount = min payload.length count) :
    (fillFrame count payload).1.take amount = payload.take count := by
  have hLength : (payload.take count).length = amount := by
    rw [List.length_take, h, Nat.min_comm]
  rw [fillFrame_eq, List.take_left' hLength]

theorem frameCid_channelId (cid : UInt32) (rest : Bytes) :
    frameCid (channelId cid ++ rest) = cid := by
  change ((cid >>> 24).toUInt8.toUInt32 <<< 24) ||| ((cid >>> 16).toUInt8.toUInt32 <<< 16) |||
    ((cid >>> 8).toUInt8.toUInt32 <<< 8) ||| cid.toUInt8.toUInt32 = cid
  apply UInt32.toBitVec_inj.mp
  apply BitVec.eq_of_getLsbD_eq
  intro i hi
  simp only [UInt32.toBitVec_or, UInt32.toBitVec_shiftLeft, UInt32.toBitVec_shiftRight,
    UInt8.toBitVec_toUInt32, UInt32.toBitVec_toUInt8]
  simp
  grind

theorem length_of_bytes (length : UInt16) :
    ((length >>> 8).toUInt8.toUInt16 <<< 8) ||| length.toUInt8.toUInt16 = length := by
  apply UInt16.toBitVec_inj.mp
  apply BitVec.eq_of_getLsbD_eq
  intro i hi
  simp only [UInt16.toBitVec_or, UInt16.toBitVec_shiftLeft, UInt16.toBitVec_shiftRight,
    UInt8.toBitVec_toUInt16, UInt16.toBitVec_toUInt8]
  simp
  grind

/-! ## Interference -/

/-- A frame as `uhid` hands it over, with or without a report id. -/
def Presents (rawFrame frame : Bytes) : Prop := rawFrame = frame ∨ rawFrame = 0x00 :: frame

/-- A frame that has nothing to do with the channel. -/
def Extra (cid : UInt32) (rawFrame : Bytes) : Prop :=
  (withoutReportId rawFrame).length ≠ hidFrameSize ∨ frameCid (withoutReportId rawFrame) ≠ cid

/-- The frames in their order, each at some time, with extra frames between them. -/
inductive Interspersed (cid : UInt32) : List Bytes → List (Bytes × Int) → Prop
  | last {rawFrame frame : Bytes} {now : Int} (h : Presents rawFrame frame) :
      Interspersed cid [frame] [(rawFrame, now)]
  | next {rawFrame frame : Bytes} {now : Int} {frames : List Bytes}
      {extras rawFrames : List (Bytes × Int)} (h : Presents rawFrame frame)
      (hExtras : ∀ e ∈ extras, Extra cid e.1) (hRest : Interspersed cid frames rawFrames) :
      Interspersed cid (frame :: frames) ((rawFrame, now) :: (extras ++ rawFrames))

variable {rawFrames : List (Bytes × Int)}

theorem Interspersed.single {cid : UInt32} {frame : Bytes}
    (h : Interspersed cid [frame] rawFrames) :
    ∃ rawFrame now, rawFrames = [(rawFrame, now)] ∧ Presents rawFrame frame := by
  cases h with
  | last hRaw => exact ⟨_, _, rfl, hRaw⟩
  | next _ _ hNone => nomatch hNone

theorem Interspersed.split {cid : UInt32} {frame : Bytes} {frames : List Bytes}
    (h : Interspersed cid (frame :: frames) rawFrames) (hMore : frames ≠ []) :
    ∃ rawFrame now extras later,
      rawFrames = (rawFrame, now) :: (extras ++ later) ∧ Presents rawFrame frame ∧
        (∀ e ∈ extras, Extra cid e.1) ∧ Interspersed cid frames later := by
  cases h with
  | last _ => exact absurd rfl hMore
  | next hRaw hExtras hRest => exact ⟨_, _, _, _, rfl, hRaw, hExtras, hRest⟩

/-- What an idle event loop gets from the processor for the frames. -/
def feed (allocatedCids : List UInt32) (incoming : Option IncomingTransaction) :
    List (Bytes × Int) → List FrameProcessingResult × Option IncomingTransaction
  | [] => ([], incoming)
  | (rawFrame, now) :: rest =>
    let step := process incoming rawFrame none allocatedCids now
    let more := feed allocatedCids step.2 rest
    (step.1 :: more.1, more.2)

section Interference

variable {allocatedCids : List UInt32} {cid : UInt32} {incoming : Option IncomingTransaction}
  {transaction : IncomingTransaction} {rawFrame frame : Bytes} {now : Int}

theorem feed_append (xs ys : List (Bytes × Int)) : feed allocatedCids incoming (xs ++ ys) =
    ((feed allocatedCids incoming xs).1 ++
        (feed allocatedCids (feed allocatedCids incoming xs).2 ys).1,
      (feed allocatedCids (feed allocatedCids incoming xs).2 ys).2) := by
  induction xs generalizing incoming with
  | nil => rfl
  | cons x xs ih => simp only [List.cons_append, feed, ih]

theorem Presents.eq (h : Presents rawFrame frame) (hSize : frame.length = hidFrameSize) :
    withoutReportId rawFrame = frame := by
  unfold withoutReportId
  rcases h with rfl | rfl
  · refine if_neg fun hId => ?_
    have hLength := hId.1
    rw [hSize] at hLength
    cases hLength
  · rw [if_pos ⟨by rw [List.length_cons, hSize]; rfl, rfl⟩, List.drop_one, List.tail_cons]

theorem process_extra (allocatedCids : List UInt32) (now : Int)
    (hCid : transaction.report.cid = cid) (h : Extra cid rawFrame) :
    (process (some transaction) rawFrame none allocatedCids now).2 = some transaction ∧ ∀ report,
        (process (some transaction) rawFrame none allocatedCids now).1 ≠ .report report := by
  unfold process
  unfold Extra at h
  generalize withoutReportId rawFrame = frame at h ⊢
  by_cases hSize : frame.length ≠ hidFrameSize
  · rw [if_pos hSize]
    exact ⟨rfl, nofun⟩
  rw [if_neg hSize]
  have hOther : frameCid frame ≠ transaction.report.cid := by
    rw [hCid]
    exact h.resolve_left hSize
  by_cases hInitial : frameByte frame 4 &&& mask = 0
  · rw [if_pos hInitial, processContinuation, if_pos hOther]
    exact ⟨rfl, nofun⟩
  · rw [if_neg hInitial]
    have hBusy :
        (some transaction).any (fun t => decide (frameCid frame ≠ t.report.cid)) = true := by
      simpa using hOther
    unfold processInitial
    simp only [hBusy, if_true]
    -- whichever check stops the frame
    repeat' split
    all_goals exact ⟨rfl, nofun⟩

variable {extras : List (Bytes × Int)}

theorem feed_extras (allocatedCids : List UInt32) (hCid : transaction.report.cid = cid)
    (h : ∀ e ∈ extras, Extra cid e.1) :
    (feed allocatedCids (some transaction) extras).2 = some transaction ∧
      ∀ r ∈ (feed allocatedCids (some transaction) extras).1, ∀ report, r ≠ .report report := by
  induction extras with
  | nil => exact ⟨rfl, nofun⟩
  | cons e extras ih =>
    obtain ⟨rawFrame, now⟩ := e
    obtain ⟨hSame, hNone⟩ := process_extra allocatedCids now hCid (h _ List.mem_cons_self)
    obtain ⟨hAfter, hMore⟩ := ih fun e he => h e (List.mem_cons_of_mem _ he)
    simp only [feed, hSame]
    refine ⟨hAfter, fun r hr => ?_⟩
    rcases List.mem_cons.mp hr with rfl | hr
    · exact hNone
    · exact hMore r hr

/-- The frames yield one report, with the last one of them; nothing is left over, and no extra
frame changes the message. -/
structure Assembles (allocatedCids : List UInt32) (cid : UInt32)
    (incoming : Option IncomingTransaction) (rawFrames : List (Bytes × Int)) (report : UHIDReport) :
    Prop where
  reports : ∃ results, feed allocatedCids incoming rawFrames = (results ++ [.report report], none) ∧
    ∀ r ∈ results, ∀ report', r ≠ .report report'
  undisturbed : ∀ before rawFrame now after, rawFrames = before ++ (rawFrame, now) :: after →
    Extra cid rawFrame → (feed allocatedCids incoming (before ++ [(rawFrame, now)])).2 =
      (feed allocatedCids incoming before).2

theorem Assembles.last {report : UHIDReport}
    (h : process incoming rawFrame none allocatedCids now = (.report report, none))
    (hOwn : ¬ Extra cid rawFrame) :
    Assembles allocatedCids cid incoming [(rawFrame, now)] report where
  reports := ⟨[], by simp only [feed, h, List.nil_append], nofun⟩
  undisturbed := by
    intro before rawFrame' now' after hSplit hExtra
    cases before with
    | nil =>
      cases hSplit
      exact absurd hExtra hOwn
    | cons b before =>
      have hNone := (List.cons.inj hSplit).2
      simp at hNone

theorem Assembles.next {report : UHIDReport} {rawFrames : List (Bytes × Int)}
    (h : process incoming rawFrame none allocatedCids now = (.monostate, some transaction))
    (hOwn : ¬ Extra cid rawFrame) (hCid : transaction.report.cid = cid)
    (hExtras : ∀ e ∈ extras, Extra cid e.1)
    (hRest : Assembles allocatedCids cid (some transaction) rawFrames report) :
    Assembles allocatedCids cid incoming ((rawFrame, now) :: (extras ++ rawFrames)) report where
  reports := by
    obtain ⟨results, hFeed, hNone⟩ := hRest.reports
    obtain ⟨hSame, hQuiet⟩ := feed_extras allocatedCids hCid hExtras
    refine ⟨.monostate :: ((feed allocatedCids (some transaction) extras).1 ++ results), ?_, ?_⟩
    · simp only [feed, h, feed_append, hSame, hFeed, List.cons_append, List.append_assoc]
    · intro r hr
      rcases List.mem_cons.mp hr with rfl | hr
      · exact nofun
      · rcases List.mem_append.mp hr with hr | hr
        · exact hQuiet r hr
        · exact hNone r hr
  undisturbed := by
    intro before rawFrame' now' after hSplit hExtra
    cases before with
    | nil =>
      cases hSplit
      exact absurd hExtra hOwn
    | cons b before =>
      obtain ⟨rfl, hTail⟩ := List.cons.inj hSplit
      simp only [List.cons_append, feed, h]
      rcases List.append_eq_append_iff.mp hTail with ⟨more, rfl, hMore⟩ | ⟨more, rfl, hMore⟩
      · -- the extra frame is among the later ones
        have hSame := (feed_extras allocatedCids hCid hExtras).1
        rw [List.append_assoc, feed_append extras, feed_append extras]
        simp only [hSame]
        exact hRest.undisturbed more rawFrame' now' after hMore hExtra
      · -- it is among the extra frames right after this one, or the first of the later ones
        have hBefore : ∀ e ∈ before, Extra cid e.1 :=
          fun e he => hExtras e (List.mem_append_left _ he)
        have hSame := (feed_extras allocatedCids hCid hBefore).1
        rw [feed_append]
        simp only [hSame, feed]
        exact (process_extra allocatedCids now' hCid hExtra).1

end Interference

/-! ## Assembling a message -/

section Assembling

variable {allocatedCids : List UInt32} {cid : UInt32} {rawFrame : Bytes} {now : Int}

theorem and_mask_of_lt {n : Nat} (h : n < 128) : UInt8.ofNat n &&& mask = 0 := by
  have hAll : ∀ m : Fin 128, UInt8.ofNat m &&& mask = 0 := by decide
  exact hAll ⟨n, h⟩

theorem not_extra {frame : Bytes} (h : Presents rawFrame frame)
    (hSize : frame.length = hidFrameSize) (hCid : frameCid frame = cid) : ¬ Extra cid rawFrame := by
  unfold Extra
  rw [h.eq hSize]
  rintro (hLength | hOther)
  · exact hLength hSize
  · exact hOther hCid

/-- A message of which `done` was received, in `index` continuation frames so far. -/
def partialMessage (cid : UInt32) (cmd : UInt8) (len : UInt16) (deadline : Int) (done : Bytes)
    (index : Nat) : IncomingTransaction where
  report := { cid, cmd, len, payload := done, seq := UInt8.ofNat index }
  deadline := deadline

/-- The continuation frame for what is left. -/
def continuationFrame (cid : UInt32) (index : Nat) (rest : Bytes) : Bytes :=
  channelId cid ++ UInt8.ofNat index :: (fillFrame maxContPayloadSize rest).1

theorem length_continuationFrame (cid : UInt32) (index : Nat) (rest : Bytes) :
    (continuationFrame cid index rest).length = hidFrameSize := by
  simp [continuationFrame, channelId, length_fillFrame, maxContPayloadSize, hidFrameSize]

variable {rest : Bytes} {rounds index : Nat}

theorem process_continuationFrame {cmd : UInt8} {len : UInt16} {deadline : Int} {done : Bytes}
    (hRaw : Presents rawFrame (continuationFrame cid index rest)) (hIndex : index < 128)
    (hLen : len.toNat = done.length + rest.length) :
    process (some (partialMessage cid cmd len deadline done index)) rawFrame none allocatedCids
        now =
      if rest.length ≤ maxContPayloadSize then
        (.report { cid, cmd, len, payload := done ++ rest, seq := UInt8.ofNat index + 1 }, none)
      else (.monostate, some (partialMessage cid cmd len deadline
        (done ++ rest.take maxContPayloadSize) (index + 1))) := by
  have hSize := length_continuationFrame cid index rest
  have hByte : frameByte (continuationFrame cid index rest) 4 = UInt8.ofNat index := rfl
  have hCid : frameCid (continuationFrame cid index rest) = cid := frameCid_channelId cid _
  have hDrop : (continuationFrame cid index rest).drop 5 =
      (fillFrame maxContPayloadSize rest).1 := rfl
  have hRemaining : len.toNat - done.length = rest.length := by omega
  unfold process
  rw [hRaw.eq hSize, if_neg (not_not.mpr hSize), hByte, if_pos (and_mask_of_lt hIndex)]
  simp only [processContinuation, partialMessage, hCid, hByte, hDrop, hRemaining, ne_eq,
    not_true_eq_false, if_false, take_fillFrame rfl, List.length_append, List.length_take]
  by_cases hLast : rest.length ≤ maxContPayloadSize
  · rw [if_pos hLast, if_neg (by omega), List.take_of_length_le hLast]
  · rw [if_neg hLast, if_pos (by omega), UInt8.ofNat_add]
    rfl

theorem continuationFrames_succ (rounds index : Nat) (hRest : rest ≠ []) :
    continuationFrames cid (rounds + 1) (UInt8.ofNat index) rest =
      continuationFrame cid index rest :: continuationFrames cid rounds (UInt8.ofNat (index + 1))
        (rest.drop maxContPayloadSize) := by
  rw [continuationFrames, if_neg hRest, UInt8.ofNat_add]
  simp only [continuationFrame, fillFrame_eq]
  rfl

theorem continuationFrames_nil (rounds : Nat) (sequence : UInt8) :
    continuationFrames cid rounds sequence [] = [] := by
  cases rounds with
  | zero => rfl
  | succ rounds => rw [continuationFrames, if_pos rfl]

theorem length_continuationFrames (index : Nat) (hRounds : rest.length ≤ rounds) :
    (continuationFrames cid rounds (UInt8.ofNat index) rest).length = (rest.length + 58) / 59 := by
  induction rounds generalizing index rest with
  | zero => rw [Nat.le_zero.mp hRounds]; rfl
  | succ rounds ih =>
    by_cases hRest : rest = []
    · rw [hRest, continuationFrames_nil]
      rfl
    have hSome : 0 < rest.length := List.length_pos_of_ne_nil hRest
    have hLength : (rest.drop maxContPayloadSize).length = rest.length - 59 := List.length_drop
    rw [continuationFrames_succ rounds index hRest, List.length_cons, ih _ (by omega), hLength]
    omega

theorem length_of_mem_continuationFrames {frame : Bytes}
    (h : frame ∈ continuationFrames cid rounds (UInt8.ofNat index) rest) :
    frame.length = hidFrameSize := by
  induction rounds generalizing index rest with
  | zero => cases h
  | succ rounds ih =>
    by_cases hRest : rest = []
    · rw [hRest, continuationFrames_nil] at h
      cases h
    rw [continuationFrames_succ rounds index hRest] at h
    rcases List.mem_cons.mp h with rfl | hLater
    · exact length_continuationFrame cid index rest
    · exact ih hLater

theorem continuationFrames_ne_nil (index : Nat) (hRest : rest ≠ [])
    (hRounds : rest.length ≤ rounds) :
    continuationFrames cid rounds (UInt8.ofNat index) rest ≠ [] := by
  have hSome : 0 < rest.length := List.length_pos_of_ne_nil hRest
  have hCount : (continuationFrames cid rounds (UInt8.ofNat index) rest).length = _ :=
    length_continuationFrames index hRounds
  exact List.ne_nil_of_length_pos (by omega)

theorem assembles_continuationFrames {cmd : UInt8} {len : UInt16} {deadline : Int} {done : Bytes}
    {rawFrames : List (Bytes × Int)} (hRest : rest ≠ []) (hRounds : rest.length ≤ rounds)
    (hDone : done.length = maxInitPayloadSize + maxContPayloadSize * index)
    (hLen : len.toNat = done.length + rest.length) (hMax : len.toNat ≤ ctaphidMaxPayloadSize)
    (h : Interspersed cid (continuationFrames cid rounds (UInt8.ofNat index) rest) rawFrames) :
    ∃ seq, Assembles allocatedCids cid (some (partialMessage cid cmd len deadline done index))
      rawFrames { cid, cmd, len, payload := done ++ rest, seq } := by
  -- on the rounds of the sender's loop: every frame carries at least one byte
  induction rounds generalizing done rest index rawFrames with
  | zero => exact absurd (List.eq_nil_of_length_eq_zero (Nat.le_zero.mp hRounds)) hRest
  | succ rounds ih =>
    have hSome : 0 < rest.length := List.length_pos_of_ne_nil hRest
    have hIndex : index < 128 := by
      simp only [maxInitPayloadSize, maxContPayloadSize, ctaphidMaxPayloadSize] at hDone hMax
      omega
    rw [continuationFrames_succ rounds index hRest] at h
    have hOwn : ∀ {rawFrame}, Presents rawFrame (continuationFrame cid index rest) →
        ¬ Extra cid rawFrame := fun hRaw =>
      not_extra hRaw (length_continuationFrame cid index rest) (frameCid_channelId cid _)
    by_cases hLast : rest.length ≤ maxContPayloadSize
    · -- this frame is the last one
      rw [List.drop_of_length_le hLast, continuationFrames_nil] at h
      obtain ⟨rawFrame, now, rfl, hRaw⟩ := h.single
      refine ⟨UInt8.ofNat index + 1, Assembles.last ?_ (hOwn hRaw)⟩
      rw [process_continuationFrame hRaw hIndex hLen, if_pos hLast]
    · have hMore : rest.drop maxContPayloadSize ≠ [] := by
        intro hNil
        exact hLast (List.drop_eq_nil_iff.mp hNil)
      have hLength : (rest.drop maxContPayloadSize).length = rest.length - maxContPayloadSize :=
        List.length_drop
      have hTaken : (rest.take maxContPayloadSize).length = maxContPayloadSize :=
        List.length_take_of_le (Nat.le_of_not_le hLast)
      have hLeft : (rest.drop maxContPayloadSize).length ≤ rounds := by
        rw [hLength]
        simp only [maxContPayloadSize]
        omega
      have hNext : ∀ {rawFrames}, Interspersed cid (continuationFrames cid rounds
          (UInt8.ofNat (index + 1)) (rest.drop maxContPayloadSize)) rawFrames →
          ∃ seq, Assembles allocatedCids cid (some (partialMessage cid cmd len deadline
            (done ++ rest.take maxContPayloadSize) (index + 1))) rawFrames
            { cid, cmd, len, payload := done ++ rest, seq } := by
        intro rawFrames hLater
        have hDone' : (done ++ rest.take maxContPayloadSize).length =
            maxInitPayloadSize + maxContPayloadSize * (index + 1) := by
          rw [List.length_append, hTaken, hDone, Nat.mul_succ, Nat.add_assoc]
        have hLen' : len.toNat = (done ++ rest.take maxContPayloadSize).length +
            (rest.drop maxContPayloadSize).length := by
          rw [List.length_append, hTaken, hLength]
          omega
        have hRec := ih hMore hLeft hDone' hLen' hLater
        rwa [List.append_assoc, List.take_append_drop] at hRec
      obtain ⟨rawFrame, now, extras, later, rfl, hRaw, hExtras, hLater⟩ :=
        h.split (continuationFrames_ne_nil (index + 1) hMore hLeft)
      obtain ⟨seq, hAssembles⟩ := hNext hLater
      refine ⟨seq, Assembles.next ?_ (hOwn hRaw) rfl hExtras hAssembles⟩
      rw [process_continuationFrame hRaw hIndex hLen, if_neg hLast]

/-- The first frame of a packet. -/
def initialFrame (p : CTAPPacket) : Bytes :=
  channelId p.cid ++ p.cmd :: (p.len >>> 8).toUInt8 :: p.len.toUInt8 ::
    (fillFrame maxInitPayloadSize p.payload).1

theorem length_initialFrame (p : CTAPPacket) : (initialFrame p).length = hidFrameSize := by
  simp [initialFrame, channelId, length_fillFrame, maxInitPayloadSize, hidFrameSize]

theorem stringify_eq {p : CTAPPacket} (hLen : p.payload.length = p.len.toNat)
    (hMax : p.payload.length ≤ ctaphidMaxPayloadSize) :
    p.stringify = .ok (initialFrame p :: continuationFrames p.cid
      (p.payload.drop maxInitPayloadSize).length 0 (p.payload.drop maxInitPayloadSize)) := by
  unfold CTAPPacket.stringify
  rw [if_neg (not_not.mpr hLen), if_neg (Nat.not_lt.mpr hMax)]
  simp only [initialFrame, fillFrame_eq]

/-- A packet that an idle event loop lets in. -/
structure Sendable (allocatedCids : List UInt32) (p : CTAPPacket) : Prop where
  len : p.payload.length = p.len.toNat
  max : p.payload.length ≤ ctaphidMaxPayloadSize
  allocated : p.cid ∈ allocatedCids
  initial : p.cmd &&& mask ≠ 0
  not_cancel : p.cmd &&& 0x7F ≠ ctaphidCancel
  init : p.cmd &&& 0x7F = ctaphidInit → p.len = 8

theorem process_initialFrame (now : Int) {p : CTAPPacket} (h : Sendable allocatedCids p)
    (hRaw : Presents rawFrame (initialFrame p)) :
    process none rawFrame none allocatedCids now =
      if p.payload.length ≤ maxInitPayloadSize then
        (.report { cid := p.cid, cmd := p.cmd &&& 0x7F, len := p.len, payload := p.payload }, none)
      else (.monostate, some (partialMessage p.cid (p.cmd &&& 0x7F) p.len
        (now + messageAssemblyTimeout) (p.payload.take maxInitPayloadSize) 0)) := by
  have hSize := length_initialFrame p
  have hCid : frameCid (initialFrame p) = p.cid := frameCid_channelId p.cid _
  have hCmd : frameByte (initialFrame p) 4 = p.cmd := rfl
  have hLen : ((frameByte (initialFrame p) 5).toUInt16 <<< 8) |||
      (frameByte (initialFrame p) 6).toUInt16 = p.len := length_of_bytes p.len
  have hDrop : (initialFrame p).drop 7 = (fillFrame maxInitPayloadSize p.payload).1 := rfl
  have hLength : ¬ ((p.cmd &&& 0x7F = ctaphidInit ∧ p.len ≠ 8) ∨
      (p.cmd &&& 0x7F = ctaphidCancel ∧ p.len ≠ 0)) := by
    rintro (⟨hIs, hNot⟩ | ⟨hIs, -⟩)
    · exact hNot (h.init hIs)
    · exact h.not_cancel hIs
  unfold process
  rw [hRaw.eq hSize, if_neg (not_not.mpr hSize), hCmd, if_neg h.initial]
  unfold processInitial
  simp only [hCmd, hLen, hCid]
  rw [if_neg (by rw [← h.len]; exact Nat.not_lt.mpr h.max), if_neg hLength,
    if_neg (fun hIs => h.not_cancel hIs.1), if_neg (by simp), if_neg (by simp),
    if_neg (fun hIs => hIs.2 h.allocated)]
  simp only [beginMessage, hCmd, hLen, hCid, hDrop, ← h.len, take_fillFrame rfl, List.length_take]
  by_cases hLast : p.payload.length ≤ maxInitPayloadSize
  · rw [if_pos hLast, if_pos (Nat.min_eq_right hLast), List.take_of_length_le hLast]
  · rw [if_neg hLast, if_neg (by omega)]
    rfl

/-- **A packet survives its frames**, one with the first 57 bytes and one for each 59 of the
others. Whatever frames of other channels or of a wrong size come between them, the processor
reports the packet with its last frame and not before, keeps no partial message, and no such frame
changes the message under assembly. -/
theorem framing_round_trip {p : CTAPPacket} (h : Sendable allocatedCids p) :
    ∃ frames, p.stringify = .ok frames ∧ frames.length = 1 + (p.payload.length - 57 + 58) / 59 ∧
      (∀ frame ∈ frames, frame.length = 64) ∧
      ∀ rawFrames, Interspersed p.cid frames rawFrames →
        ∃ report, report.cid = p.cid ∧ report.cmd = p.cmd &&& 0x7F ∧ report.payload = p.payload ∧
          Assembles allocatedCids p.cid none rawFrames report := by
  refine ⟨_, stringify_eq h.len h.max, ?_, ?_, ?_⟩
  · rw [List.length_cons, Nat.add_comm, ← List.length_drop]
    exact congrArg (1 + ·) (length_continuationFrames 0 (Nat.le_refl _))
  · intro frame hFrame
    rcases List.mem_cons.mp hFrame with rfl | hLater
    · exact length_initialFrame p
    · exact length_of_mem_continuationFrames hLater
  intro rawFrames hFrames
  have hOwn : ∀ {rawFrame}, Presents rawFrame (initialFrame p) → ¬ Extra p.cid rawFrame :=
    fun hRaw => not_extra hRaw (length_initialFrame p) (frameCid_channelId p.cid _)
  by_cases hLast : p.payload.length ≤ maxInitPayloadSize
  · rw [List.drop_of_length_le hLast, continuationFrames_nil] at hFrames
    obtain ⟨rawFrame, now, rfl, hRaw⟩ := hFrames.single
    have hReport := process_initialFrame now h hRaw
    rw [if_pos hLast] at hReport
    exact ⟨_, rfl, rfl, rfl, Assembles.last hReport (hOwn hRaw)⟩
  · have hMore : p.payload.drop maxInitPayloadSize ≠ [] :=
      fun hNil => hLast (List.drop_eq_nil_iff.mp hNil)
    have hTaken : (p.payload.take maxInitPayloadSize).length = maxInitPayloadSize :=
      List.length_take_of_le (Nat.le_of_not_le hLast)
    have hLen : p.len.toNat = (p.payload.take maxInitPayloadSize).length +
        (p.payload.drop maxInitPayloadSize).length := by
      rw [← h.len, ← List.length_append, List.take_append_drop]
    have hMax : p.len.toNat ≤ ctaphidMaxPayloadSize := h.len ▸ h.max
    obtain ⟨rawFrame, now, extras, later, rfl, hRaw, hExtras, hLater⟩ :=
      hFrames.split (continuationFrames_ne_nil 0 hMore (Nat.le_refl _))
    have hBegun := process_initialFrame now h hRaw
    rw [if_neg hLast] at hBegun
    obtain ⟨seq, hAssembles⟩ :=
      assembles_continuationFrames hMore (Nat.le_refl _) hTaken hLen hMax hLater
    rw [List.take_append_drop] at hAssembles
    exact ⟨_, rfl, rfl, rfl, Assembles.next hBegun (hOwn hRaw) rfl hExtras hAssembles⟩

/-- A PING of 60 bytes, which takes two frames. -/
def longPing : CTAPPacket := { cid := 1, cmd := 0x81, len := 60, payload := List.replicate 60 0x2A }

/-- Its frames, the first one with a report id, with a frame of another channel and a short frame
between them. -/
def longPingFrames : List (Bytes × Int) :=
  [(0x00 :: initialFrame longPing, 0), (channelId 2 ++ List.replicate 60 0xFF, 5), ([0x01], 6),
    (continuationFrame 1 0 (List.replicate 3 0x2A), 9)]

theorem framing_round_trip_longPing : Sendable [1] longPing ∧ ∃ frames report,
    longPing.stringify = .ok frames ∧ frames.length = 2 ∧
      Interspersed 1 frames longPingFrames ∧ report.payload = List.replicate 60 0x2A ∧
        Assembles [1] 1 none longPingFrames report := by
  have hSendable : Sendable [1] longPing := by constructor <;> decide
  obtain ⟨frames, hFrames, hCount, -, hAssembled⟩ := framing_round_trip hSendable
  have hEq : frames = [initialFrame longPing, continuationFrame 1 0 (List.replicate 3 0x2A)] :=
    Except.ok.inj (hFrames.symm.trans (by decide))
  have hInterspersed : Interspersed 1 frames longPingFrames := by
    rw [hEq]
    refine @Interspersed.next 1 _ _ _ _ [_, _] _ (.inr rfl) ?_ (.last (.inl rfl))
    intro e he
    rcases List.mem_cons.mp he with rfl | he
    · exact .inr (by decide)
    · rw [List.mem_singleton.mp he]
      exact .inl (by decide)
  obtain ⟨report, -, -, hPayload, hAssembles⟩ := hAssembled _ hInterspersed
  exact ⟨hSendable, frames, report, hFrames, hCount, hInterspersed, hPayload, hAssembles⟩

end Assembling

end VAuth.Ctap
