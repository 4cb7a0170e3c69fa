import VAuth.Ctap.Response

/-!
# CTAPHID frames

`CTAPPacket::stringify`, which cuts a packet into frames of 64 bytes, and
`CTAPHIDFrameProcessor`, which puts the frames of a message together again and decides which
frames may interrupt it. The processor is its partial message, `incoming_`.
-/

namespace VAuth.Ctap

open Store

/-! ## Sending -/

def hidFrameSize : Nat := 64
def maxInitPayloadSize : Nat := 57
def maxContPayloadSize : Nat := 59

/-- The four bytes of a channel id. -/
def channelId (cid : UInt32) : Bytes :=
  [(cid >>> 24).toUInt8, (cid >>> 16).toUInt8, (cid >>> 8).toUInt8, cid.toUInt8]

/-- Push `count` bytes: the payload as far as it goes, then zeros. What is left of the payload. -/
def fillFrame : Nat → Bytes → Bytes × Bytes
  | 0, rest => ([], rest)
  | count + 1, [] =>
    let (pushed, rest) := fillFrame count []
    (0x00 :: pushed, rest)
  | count + 1, byte :: payload =>
    let (pushed, rest) := fillFrame count payload
    (byte :: pushed, rest)

/-- The loop over the continuation frames; every frame takes something of the payload, so it
ends in at most as many rounds as there are bytes. -/
def continuationFrames (cid : UInt32) : Nat → UInt8 → Bytes → List Bytes
  | 0, _, _ => []
  | rounds + 1, sequence, payload =>
    if payload = [] then []
    else
      let (pushed, rest) := fillFrame maxContPayloadSize payload
      (channelId cid ++ sequence :: pushed) :: continuationFrames cid rounds (sequence + 1) rest

def CTAPPacket.stringify (packet : CTAPPacket) : Except Exn (List Bytes) :=
  if packet.payload.length ≠ packet.len.toNat then
    .error (.invalidArgument "CTAPHID payload length mismatch")
  else if packet.payload.length > ctaphidMaxPayloadSize then
    .error (.lengthError "CTAPHID payload exceeds transport limit")
  else
    let (pushed, rest) := fillFrame maxInitPayloadSize packet.payload
    .ok ((channelId packet.cid ++ packet.cmd :: (packet.len >>> 8).toUInt8 :: packet.len.toUInt8 ::
      pushed) :: continuationFrames packet.cid rest.length 0 rest)

/-! ## Receiving -/

/-- The members of `enum class HIDError` that are sent. -/
inductive HIDError where
  | invalidCommand
  | invalidLength
  | invalidSeq
  | timeout
  | channelBusy
  | invalidChannel
deriving DecidableEq

def HIDError.code : HIDError → UInt8
  | invalidCommand => 0x01
  | invalidLength => 0x03
  | invalidSeq => 0x04
  | timeout => 0x05
  | channelBusy => 0x06
  | invalidChannel => 0x0B

structure UHIDReport where
  cid : UInt32
  cmd : UInt8
  len : UInt16
  payload : Bytes
  seq : UInt8 := 0
deriving DecidableEq

structure FrameProcessingError where
  cid : UInt32
  error : HIDError
deriving DecidableEq

/-- `FrameProcessingResult`; `monostate` is that there is nothing to do yet. -/
inductive FrameProcessingResult where
  | monostate
  | report (report : UHIDReport)
  | error (error : FrameProcessingError)
deriving DecidableEq

structure IncomingTransaction where
  report : UHIDReport
  deadline : Int
deriving DecidableEq

def ctaphidInvalidCid : UInt32 := 0x00000000
def ctaphidBroadcastCid : UInt32 := 0xFFFFFFFF

def ctaphidPing : UInt8 := 0x01
def ctaphidInit : UInt8 := 0x06
def ctaphidCbor : UInt8 := 0x10
def ctaphidCancel : UInt8 := 0x11
def ctaphidKeepalive : UInt8 := 0x3B
def ctaphidError : UInt8 := 0x3F

def mask : UInt8 := 0x80

/-- 3 seconds, in nanoseconds. -/
def messageAssemblyTimeout : Int := 3000000000

/-- A byte of a frame, whose size was checked before. -/
def frameByte (frame : Bytes) (index : Nat) : UInt8 := frame.getD index 0

def frameCid (frame : Bytes) : UInt32 :=
  ((frameByte frame 0).toUInt32 <<< 24) ||| ((frameByte frame 1).toUInt32 <<< 16) |||
    ((frameByte frame 2).toUInt32 <<< 8) ||| (frameByte frame 3).toUInt32

/-- The frame without the report id that `uhid` may put before it. -/
def withoutReportId (rawFrame : Bytes) : Bytes :=
  if rawFrame.length = 65 ∧ frameByte rawFrame 0 = 0 then rawFrame.drop 1 else rawFrame

namespace CTAPHIDFrameProcessor

/-- A continuation frame. -/
def processContinuation (incoming : Option IncomingTransaction) (frame : Bytes) :
    FrameProcessingResult × Option IncomingTransaction :=
  match incoming with
  | none => (.monostate, none)
  | some transaction =>
    let current := transaction.report
    if frameCid frame ≠ current.cid then (.monostate, some transaction)
    else if frameByte frame 4 ≠ current.seq then
      (.error { cid := current.cid, error := .invalidSeq }, none)
    else
      let remaining := current.len.toNat - current.payload.length
      let amount := min remaining maxContPayloadSize
      let current := { current with
        seq := current.seq + 1, payload := current.payload ++ (frame.drop 5).take amount }
      if current.payload.length ≠ current.len.toNat then
        (.monostate, some { transaction with report := current })
      else (.report current, none)

/-- The new message of an initial frame that was let through. -/
def beginMessage (frame : Bytes) (now : Int) : FrameProcessingResult × Option IncomingTransaction :=
  let length : UInt16 := ((frameByte frame 5).toUInt16 <<< 8) ||| (frameByte frame 6).toUInt16
  let next : UHIDReport := {
    cid := frameCid frame
    cmd := frameByte frame 4 &&& 0x7F
    len := length
    payload := (frame.drop 7).take (min length.toNat maxInitPayloadSize) }
  if next.payload.length = next.len.toNat then (.report next, none)
  else (.monostate, some { report := next, deadline := now + messageAssemblyTimeout })

/-- An initial frame: the checks in the order of the source. -/
def processInitial (incoming : Option IncomingTransaction) (frame : Bytes)
    (activeCid : Option UInt32) (allocatedCids : List UInt32) (now : Int) :
    FrameProcessingResult × Option IncomingTransaction :=
  let cid := frameCid frame
  let command := frameByte frame 4 &&& 0x7F
  let length : UInt16 := ((frameByte frame 5).toUInt16 <<< 8) ||| (frameByte frame 6).toUInt16
  if length.toNat > ctaphidMaxPayloadSize then (.error { cid, error := .invalidLength }, incoming)
  else if (command = ctaphidInit ∧ length ≠ 8) ∨ (command = ctaphidCancel ∧ length ≠ 0) then
    (.error { cid, error := .invalidLength }, incoming)
  else if command = ctaphidCancel ∧ activeCid ≠ some cid then (.monostate, incoming)
  else if activeCid.isSome ∧
      ¬ (activeCid = some cid ∧ (command = ctaphidCancel ∨ command = ctaphidInit)) then
    (.error { cid, error := .channelBusy }, incoming)
  else if incoming.any fun transaction => cid ≠ transaction.report.cid then
    (.error { cid, error := .channelBusy }, incoming)
  else if ¬ (cid = ctaphidBroadcastCid ∧ command = ctaphidInit) ∧ cid ∉ allocatedCids then
    (.error { cid, error := .invalidChannel }, incoming)
  else
    match incoming with
    | some transaction =>
      if command = ctaphidInit then beginMessage frame now
      else (.error { cid := transaction.report.cid, error := .invalidSeq }, none)
    | none => beginMessage frame now

def process (incoming : Option IncomingTransaction) (rawFrame : Bytes) (activeCid : Option UInt32)
    (allocatedCids : List UInt32) (now : Int) :
    FrameProcessingResult × Option IncomingTransaction :=
  let frame := withoutReportId rawFrame
  if frame.length ≠ hidFrameSize then (.monostate, incoming)
  else if frameByte frame 4 &&& mask = 0 then processContinuation incoming frame
  else processInitial incoming frame activeCid allocatedCids now

def expire (incoming : Option IncomingTransaction) (now : Int) :
    Option FrameProcessingError × Option IncomingTransaction :=
  match incoming with
  | none => (none, none)
  | some transaction =>
    if now < transaction.deadline then (none, some transaction)
    else (some { cid := transaction.report.cid, error := .timeout }, none)

end CTAPHIDFrameProcessor

end VAuth.Ctap
