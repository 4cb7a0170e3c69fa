import VAuth.Exception

/-!
# Packets of the verifier protocol

The messages between the daemon, the verifier service and its worker
(`verifier_protocol.hpp`), one to a `SOCK_SEQPACKET` packet, and their wire form:
`encode_verifier_message` and `decode_verifier_message`. An enumerator outside its
enumeration has no value here, so the checks that `encode_verifier_message` makes for one
have nothing to refuse; a byte that names none is refused while decoding.
-/

namespace VAuth.Verifier

def verifierProtocolVersion : UInt8 := 1

def verifierProtocolHeaderSize : Nat := 2

def maxSessionIdSize : Nat := 255

def maxVerificationTextSize : Nat := 512

def maxVerificationSecretSize : Nat := 1024

def maxVerifierPacketSize : Nat :=
  verifierProtocolHeaderSize + max (max (4 + maxSessionIdSize) maxVerificationSecretSize)
    (max (1 + maxVerificationTextSize) maxVerificationTextSize)

structure StartVerification where
  targetUid : UInt32
  sessionId : Bytes
deriving DecidableEq

inductive VerificationStatusKind where
  | information
  | error
deriving DecidableEq

structure VerificationStatus where
  kind : VerificationStatusKind
  message : Bytes
deriving DecidableEq

structure SecretRequired where
  prompt : Bytes
deriving DecidableEq

inductive VerificationResult where
  | success
  | denied
  | error
deriving DecidableEq

inductive VerifierMessage where
  | start (start : StartVerification)
  | secretResponse (secret : Bytes)
  | cancel
  | status (status : VerificationStatus)
  | secretRequired (required : SecretRequired)
  | complete (result : VerificationResult)
deriving DecidableEq

inductive MessageType where
  | start
  | secretResponse
  | cancel
  | status
  | secretRequired
  | complete
deriving DecidableEq

def MessageType.value : MessageType → UInt8
  | .start => 1
  | .secretResponse => 2
  | .cancel => 3
  | .status => 4
  | .secretRequired => 5
  | .complete => 6

def MessageType.ofValue? (value : UInt8) : Option MessageType :=
  [.start, .secretResponse, .cancel, .status, .secretRequired, .complete].find? (·.value == value)

def VerificationStatusKind.value : VerificationStatusKind → UInt8
  | .information => 1
  | .error => 2

def VerificationStatusKind.ofValue? (value : UInt8) : Option VerificationStatusKind :=
  [.information, .error].find? (·.value == value)

def VerificationResult.value : VerificationResult → UInt8
  | .success => 1
  | .denied => 2
  | .error => 3

def VerificationResult.ofValue? (value : UInt8) : Option VerificationResult :=
  [.success, .denied, .error].find? (·.value == value)

/-! ## Checks on the members -/

def validateSessionId (session : Bytes) : Except Exn Unit :=
  if session.isEmpty then .error (.verifierProtocolError "session ID must not be empty")
  else if session.length > maxSessionIdSize then
    .error (.verifierProtocolError "session ID exceeds the verifier protocol limit")
  else if session.contains 0 then
    .error (.verifierProtocolError "session ID contains an embedded NUL")
  else .ok ()

def validateSecret (secret : Bytes) : Except Exn Unit :=
  if secret.length > maxVerificationSecretSize then
    .error (.verifierProtocolError "secret exceeds the verifier protocol limit")
  else if secret.contains 0 then
    .error (.verifierProtocolError "secret contains an embedded NUL")
  else .ok ()

def isContinuationByte (value : UInt8) : Bool := 0x80 ≤ value && value ≤ 0xbf

/-- The byte at an index; reading past the end is an error of its own. -/
def byteAt (text : Bytes) (index : Nat) : Except Exn UInt8 :=
  match text[index]? with
  | some byte => .ok byte
  | none => .error (.outOfRange "display text")

def notUtf8 (field : String) : Exn := .verifierProtocolError (field ++ " is not valid UTF-8")

def controlCharacter (field : String) : Exn :=
  .verifierProtocolError (field ++ " contains a control character")

/-- One round of the loop of `validate_display_text`: the index of the next character. -/
def nextCharacter (text : Bytes) (field : String) (index : Nat) : Except Exn Nat := do
  let first ← byteAt text index
  if first ≤ 0x7f then
    if first < 0x20 ∨ first = 0x7f then throw (controlCharacter field)
    return index + 1
  if 0xc2 ≤ first ∧ first ≤ 0xdf then
    if index + 1 ≥ text.length then throw (notUtf8 field)
    let second ← byteAt text (index + 1)
    if ¬ isContinuationByte second then throw (notUtf8 field)
    if first = 0xc2 ∧ second ≤ 0x9f then throw (controlCharacter field)
    return index + 2
  if 0xe0 ≤ first ∧ first ≤ 0xef then
    if index + 2 ≥ text.length then throw (notUtf8 field)
    let second ← byteAt text (index + 1)
    let third ← byteAt text (index + 2)
    let validSecond := (first == 0xe0 && 0xa0 ≤ second && second ≤ 0xbf) ||
      (0xe1 ≤ first && first ≤ 0xec && isContinuationByte second) ||
      (first == 0xed && 0x80 ≤ second && second ≤ 0x9f) ||
      (0xee ≤ first && first ≤ 0xef && isContinuationByte second)
    if ¬ validSecond ∨ ¬ isContinuationByte third then throw (notUtf8 field)
    return index + 3
  if 0xf0 ≤ first ∧ first ≤ 0xf4 then
    if index + 3 ≥ text.length then throw (notUtf8 field)
    let second ← byteAt text (index + 1)
    let third ← byteAt text (index + 2)
    let fourth ← byteAt text (index + 3)
    let validSecond := (first == 0xf0 && 0x90 ≤ second && second ≤ 0xbf) ||
      (0xf1 ≤ first && first ≤ 0xf3 && isContinuationByte second) ||
      (first == 0xf4 && 0x80 ≤ second && second ≤ 0x8f)
    if ¬ validSecond ∨ ¬ isContinuationByte third ∨ ¬ isContinuationByte fourth then
      throw (notUtf8 field)
    return index + 4
  throw (notUtf8 field)

/-- The loop of `validate_display_text`. Every round takes at least one byte, so as many
rounds as there are bytes reach the end. -/
def scanDisplayText (text : Bytes) (field : String) : Nat → Nat → Except Exn Unit
  | 0, _ => .ok ()
  | rounds + 1, index =>
    if index < text.length then do
      let next ← nextCharacter text field index
      scanDisplayText text field rounds next
    else .ok ()

def validateDisplayText (text : Bytes) (field : String) : Except Exn Unit :=
  if text.length > maxVerificationTextSize then
    .error (.verifierProtocolError (field ++ " exceeds the verifier protocol limit"))
  else scanDisplayText text field text.length 0

/-! ## The wire form -/

def writeUint32Be (value : UInt32) : Bytes :=
  [(value >>> 24).toUInt8, (value >>> 16).toUInt8, (value >>> 8).toUInt8, value.toUInt8]

def readUint32Be (source : Bytes) : UInt32 :=
  source.foldl (fun value byte => (value <<< 8) ||| byte.toUInt32) 0

def setHeader (type : MessageType) (payload : Bytes) : Bytes :=
  verifierProtocolVersion :: type.value :: payload

def encodeVerifierMessage : VerifierMessage → Except Exn Bytes
  | .start start => do
      validateSessionId start.sessionId
      return setHeader .start (writeUint32Be start.targetUid ++ start.sessionId)
  | .secretResponse secret => do
      validateSecret secret
      return setHeader .secretResponse secret
  | .cancel => return setHeader .cancel []
  | .status status => do
      validateDisplayText status.message "verification status message"
      return setHeader .status (status.kind.value :: status.message)
  | .secretRequired required => do
      validateDisplayText required.prompt "verification prompt"
      return setHeader .secretRequired required.prompt
  | .complete result => return setHeader .complete [result.value]

def decodeDisplayText (payload : Bytes) (field : String) : Except Exn Bytes := do
  if payload.length > maxVerificationTextSize then
    throw (.verifierProtocolError (field ++ " exceeds the verifier protocol limit"))
  validateDisplayText payload field
  return payload

/-- The `switch` of `decode_verifier_message` on the type. -/
def decodePayload (payload : Bytes) : MessageType → Except Exn VerifierMessage
  | .start => do
      if payload.length ≤ 4 ∨ payload.length > 4 + maxSessionIdSize then
        throw (.verifierProtocolError "invalid start-verification packet length")
      let session := payload.drop 4
      validateSessionId session
      return .start { targetUid := readUint32Be (payload.take 4), sessionId := session }
  | .secretResponse => do
      validateSecret payload
      return .secretResponse payload
  | .cancel => do
      if ¬ payload.isEmpty then throw (.verifierProtocolError "cancel packet contains a payload")
      return .cancel
  | .status => do
      if payload.isEmpty ∨ payload.length > 1 + maxVerificationTextSize then
        throw (.verifierProtocolError "invalid verification-status packet length")
      match payload.head?.bind VerificationStatusKind.ofValue? with
      | none => throw (.verifierProtocolError "invalid verification status kind")
      | some kind =>
        let message ← decodeDisplayText payload.tail "verification status message"
        return .status { kind, message }
  | .secretRequired => do
      let prompt ← decodeDisplayText payload "verification prompt"
      return .secretRequired { prompt }
  | .complete => do
      if payload.length ≠ 1 then
        throw (.verifierProtocolError "invalid verification-result packet length")
      match payload.head?.bind VerificationResult.ofValue? with
      | none => throw (.verifierProtocolError "invalid verification result")
      | some result => return .complete result

def decodeVerifierMessage (packet : Bytes) : Except Exn VerifierMessage := do
  if packet.length < verifierProtocolHeaderSize then
    throw (.verifierProtocolError "verifier packet header is truncated")
  if packet.length > maxVerifierPacketSize then
    throw (.verifierProtocolError "verifier packet exceeds the protocol limit")
  if packet[0]? ≠ some verifierProtocolVersion then
    throw (.verifierProtocolError "unsupported verifier protocol version")
  match packet[1]?.bind MessageType.ofValue? with
  | some type => decodePayload (packet.drop verifierProtocolHeaderSize) type
  | none => throw (.verifierProtocolError "unknown verifier message type")

/-! ## The socket -/

/-- `VerifierSocket::send`, of which `sent` says whether the kernel took the packet. -/
def sendVerifierMessage (sent : Bool) (message : VerifierMessage) : Except Exn Bytes := do
  let packet ← encodeVerifierMessage message
  if ¬ sent then throw (.systemError "send verifier packet")
  return packet

/-- `VerifierSocket::receive` on what `recvmsg` gave: nothing when it failed, no bytes when
the peer is gone. -/
def receiveVerifierMessage (arrived : Option Bytes) : Except Exn VerifierMessage :=
  match arrived with
  | none => .error (.systemError "receive verifier packet")
  | some packet =>
    if packet.isEmpty then
      .error (.verifierSocketError "verifier peer closed or sent an empty packet")
    else if packet.length > maxVerifierPacketSize then
      .error (.verifierSocketError "verifier packet was truncated")
    else decodeVerifierMessage packet

/-! ## What a received message holds -/

/-- The text of a message that is shown to the user. -/
def VerifierMessage.displayText : VerifierMessage → Bytes
  | .status s => s.message
  | .secretRequired required => required.prompt
  | _ => []

/-- The text has passed `validate_display_text`. -/
def Displayable (text : Bytes) : Prop := ∃ field, validateDisplayText text field = .ok ()

theorem Displayable.length {text : Bytes} (h : Displayable text) :
    text.length ≤ maxVerificationTextSize := by
  obtain ⟨field, h⟩ := h
  by_contra hLong
  unfold validateDisplayText at h
  rw [if_pos (Nat.not_le.mp hLong)] at h
  cases h

theorem decodeDisplayText_displayable {payload text : Bytes} {field : String}
    (h : decodeDisplayText payload field = .ok text) : Displayable text := by
  unfold decodeDisplayText at h
  obtain ⟨_, h⟩ := guard_eq_ok.mp h
  obtain ⟨_, hValid, h⟩ := bind_eq_ok.mp h
  cases h
  exact ⟨field, hValid⟩

variable {message : VerifierMessage} {arrived : Option Bytes}

theorem decodePayload_displayText {payload : Bytes} {type : MessageType}
    (h : decodePayload payload type = .ok message) : Displayable message.displayText := by
  have hNone : Displayable [] := ⟨"", rfl⟩
  cases type with
  | start =>
    obtain ⟨_, h⟩ := guard_eq_ok.mp h
    obtain ⟨_, _, h⟩ := bind_eq_ok.mp h
    cases h
    exact hNone
  | secretResponse =>
    obtain ⟨_, _, h⟩ := bind_eq_ok.mp h
    cases h
    exact hNone
  | cancel =>
    obtain ⟨_, h⟩ := guard_eq_ok.mp h
    cases h
    exact hNone
  | status =>
    obtain ⟨_, h⟩ := guard_eq_ok.mp h
    split at h
    · cases h
    · obtain ⟨text, hText, h⟩ := bind_eq_ok.mp h
      cases h
      exact decodeDisplayText_displayable hText
  | secretRequired =>
    obtain ⟨text, hText, h⟩ := bind_eq_ok.mp h
    cases h
    exact decodeDisplayText_displayable hText
  | complete =>
    obtain ⟨_, h⟩ := guard_eq_ok.mp h
    split at h
    · cases h
    · cases h
      exact hNone

theorem decodeVerifierMessage_displayText {packet : Bytes}
    (h : decodeVerifierMessage packet = .ok message) : Displayable message.displayText := by
  unfold decodeVerifierMessage at h
  obtain ⟨_, h⟩ := guard_eq_ok.mp h
  obtain ⟨_, h⟩ := guard_eq_ok.mp h
  obtain ⟨_, h⟩ := guard_eq_ok.mp h
  split at h
  · exact decodePayload_displayText h
  · cases h

theorem receiveVerifierMessage_displayText (h : receiveVerifierMessage arrived = .ok message) :
    Displayable message.displayText := by
  unfold receiveVerifierMessage at h
  split at h
  · cases h
  · split at h
    · cases h
    · split at h
      · cases h
      · exact decodeVerifierMessage_displayText h

/-- What is shown to the user fits the limit of the interaction registry. -/
theorem displayText_length (h : receiveVerifierMessage arrived = .ok message) :
    message.displayText.length ≤ maxVerificationTextSize :=
  (receiveVerifierMessage_displayText h).length

/-! ## What a bad packet throws -/

/-- The exceptions of the conversation with the verifier service. -/
def ofVerifier : Exn → Bool
  | .verifierConversationError _ | .verifierProtocolError _ | .verifierSocketError _
  | .systemError _ | .outOfRange _ => true
  | _ => false

abbrev ThrowsOfVerifier {α : Type} (x : Except Exn α) : Prop :=
  Throws (fun e => ofVerifier e = true) x

theorem throws_byteAt (text : Bytes) (index : Nat) : ThrowsOfVerifier (byteAt text index) := by
  unfold byteAt
  split
  · exact throws_ok _
  · exact throws_error rfl

theorem throws_nextCharacter (text : Bytes) (field : String) (index : Nat) :
    ThrowsOfVerifier (nextCharacter text field index) := by
  refine throws_bind (throws_byteAt _ _) fun first => ?_
  split
  · exact throws_guard rfl (throws_ok _)
  split
  · refine throws_guard rfl (throws_bind (throws_byteAt _ _) fun second => ?_)
    exact throws_guard rfl (throws_guard rfl (throws_ok _))
  split
  · refine throws_guard rfl (throws_bind (throws_byteAt _ _) fun second => ?_)
    exact throws_bind (throws_byteAt _ _) fun third => throws_guard rfl (throws_ok _)
  split
  · refine throws_guard rfl (throws_bind (throws_byteAt _ _) fun second => ?_)
    exact throws_bind (throws_byteAt _ _) fun third =>
      throws_bind (throws_byteAt _ _) fun fourth => throws_guard rfl (throws_ok _)
  · exact throws_error rfl

theorem throws_scanDisplayText (text : Bytes) (field : String) (rounds index : Nat) :
    ThrowsOfVerifier (scanDisplayText text field rounds index) := by
  induction rounds generalizing index with
  | zero => exact throws_ok _
  | succ rounds ih =>
    unfold scanDisplayText
    split
    · exact throws_bind (throws_nextCharacter _ _ _) fun next => ih next
    · exact throws_ok _

theorem throws_decodeDisplayText (payload : Bytes) (field : String) :
    ThrowsOfVerifier (decodeDisplayText payload field) := by
  refine throws_guard rfl (throws_bind ?_ fun _ => throws_ok _)
  unfold validateDisplayText
  split
  · exact throws_error rfl
  · exact throws_scanDisplayText _ _ _ _

theorem throws_decodePayload (payload : Bytes) (type : MessageType) :
    ThrowsOfVerifier (decodePayload payload type) := by
  cases type with
  | start =>
    refine throws_guard rfl (throws_bind ?_ fun _ => throws_ok _)
    unfold validateSessionId
    repeat' split
    all_goals first | exact throws_error rfl | exact throws_ok _
  | secretResponse =>
    refine throws_bind ?_ fun _ => throws_ok _
    unfold validateSecret
    repeat' split
    all_goals first | exact throws_error rfl | exact throws_ok _
  | cancel => exact throws_guard rfl (throws_ok _)
  | status =>
    refine throws_guard rfl ?_
    split
    · exact throws_error rfl
    · exact throws_bind (throws_decodeDisplayText _ _) fun _ => throws_ok _
  | secretRequired => exact throws_bind (throws_decodeDisplayText _ _) fun _ => throws_ok _
  | complete =>
    refine throws_guard rfl ?_
    split
    · exact throws_error rfl
    · exact throws_ok _

theorem throws_receiveVerifierMessage (arrived : Option Bytes) :
    ThrowsOfVerifier (receiveVerifierMessage arrived) := by
  unfold receiveVerifierMessage
  split
  · exact throws_error rfl
  split
  · exact throws_error rfl
  split
  · exact throws_error rfl
  refine throws_guard rfl (throws_guard rfl (throws_guard rfl ?_))
  split
  · exact throws_decodePayload _ _
  · exact throws_error rfl

end VAuth.Verifier
