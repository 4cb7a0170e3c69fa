import VAuth.Verifier.Protocol

/-!
# The wire form is one to one

`encode_verifier_message` and `decode_verifier_message` are inverse to each other: a message
can be encoded exactly when some packet decodes to it, and that packet is its encoding. Both
sides take a packet apart into its header, the type and a payload; the law is shown for the
payload of each type and then for the packets.
-/

namespace VAuth.Verifier

/-! ## Enumerators and words -/

@[simp] theorem MessageType.ofValue?_value (type : MessageType) :
    MessageType.ofValue? type.value = some type := by
  cases type <;> rfl

@[simp] theorem VerificationStatusKind.ofValue?_value (kind : VerificationStatusKind) :
    VerificationStatusKind.ofValue? kind.value = some kind := by
  cases kind <;> rfl

@[simp] theorem VerificationResult.ofValue?_value (result : VerificationResult) :
    VerificationResult.ofValue? result.value = some result := by
  cases result <;> rfl

variable {message : VerifierMessage} {packet : Bytes} {value : UInt8}

theorem value_of_find? {α : Type} {number : α → UInt8} {enumerators : List α} {a : α}
    (h : enumerators.find? (number · == value) = some a) : number a = value := by
  have hFound := List.find?_some h
  exact beq_iff_eq.mp hFound

theorem MessageType.value_of_ofValue? {type : MessageType}
    (h : MessageType.ofValue? value = some type) : type.value = value :=
  value_of_find? h

theorem VerificationStatusKind.value_of_ofValue? {kind : VerificationStatusKind}
    (h : VerificationStatusKind.ofValue? value = some kind) : kind.value = value :=
  value_of_find? h

theorem VerificationResult.value_of_ofValue? {result : VerificationResult}
    (h : VerificationResult.ofValue? value = some result) : result.value = value :=
  value_of_find? h

theorem toNat_pushByte32 {v : UInt32} (b : UInt8) (h : v.toNat < 2 ^ 24) :
    ((v <<< 8) ||| b.toUInt32).toNat = v.toNat * 256 + b.toNat := by
  have hb : b.toNat < 2 ^ 8 := b.toNat_lt
  have hv : v.toNat <<< 8 < 2 ^ 32 := by
    rw [Nat.shiftLeft_eq]
    omega
  rw [UInt32.toNat_or, UInt32.toNat_shiftLeft, UInt8.toNat_toUInt32,
    show (8 : UInt32).toNat % 32 = 8 from rfl, Nat.mod_eq_of_lt hv,
    ← Nat.shiftLeft_add_eq_or_of_lt hb, Nat.shiftLeft_eq]

theorem toNat_readUint32Be (a b c d : UInt8) : (readUint32Be [a, b, c, d]).toNat =
    ((a.toNat * 256 + b.toNat) * 256 + c.toNat) * 256 + d.toNat := by
  have ha := a.toNat_lt
  have hb := b.toNat_lt
  have hc := c.toNat_lt
  have hOne : (((0 : UInt32) <<< 8) ||| a.toUInt32).toNat = a.toNat := by
    rw [toNat_pushByte32 a (by decide)]
    exact Nat.zero_add _
  have hTwo : (((((0 : UInt32) <<< 8) ||| a.toUInt32) <<< 8) ||| b.toUInt32).toNat =
      a.toNat * 256 + b.toNat := by
    rw [toNat_pushByte32 b (by omega), hOne]
  simp only [readUint32Be, List.foldl]
  rw [toNat_pushByte32 d, toNat_pushByte32 c, hTwo]
  · omega
  · rw [toNat_pushByte32 c (by omega), hTwo]
    omega

theorem toNat_toUInt8_shiftRight (v : UInt32) {s : UInt32} (hs : s.toNat < 32) :
    (v >>> s).toUInt8.toNat = v.toNat / 2 ^ s.toNat % 256 := by
  rw [UInt32.toNat_toUInt8, UInt32.toNat_shiftRight, Nat.mod_eq_of_lt hs, Nat.shiftRight_eq_div_pow]

theorem readUint32Be_writeUint32Be (value : UInt32) :
    readUint32Be (writeUint32Be value) = value := by
  have hValue := value.toNat_lt
  apply UInt32.toNat_inj.mp
  rw [writeUint32Be, toNat_readUint32Be, toNat_toUInt8_shiftRight value (by decide),
    toNat_toUInt8_shiftRight value (by decide), toNat_toUInt8_shiftRight value (by decide),
    UInt32.toNat_toUInt8]
  change ((value.toNat / 2 ^ 24 % 256 * 256 + value.toNat / 2 ^ 16 % 256) * 256 +
    value.toNat / 2 ^ 8 % 256) * 256 + value.toNat % 2 ^ 8 = value.toNat
  omega

theorem writeUint32Be_readUint32Be (a b c d : UInt8) :
    writeUint32Be (readUint32Be [a, b, c, d]) = [a, b, c, d] := by
  have ha := a.toNat_lt
  have hb := b.toNat_lt
  have hc := c.toNat_lt
  have hd := d.toNat_lt
  have hWord := toNat_readUint32Be a b c d
  have hByte : ∀ (s : UInt32) (byte : UInt8), s.toNat < 32 →
      (readUint32Be [a, b, c, d]).toNat / 2 ^ s.toNat % 256 = byte.toNat →
      (readUint32Be [a, b, c, d] >>> s).toUInt8 = byte := by
    intro s byte hs h
    apply UInt8.toNat_inj.mp
    rw [toNat_toUInt8_shiftRight _ hs, h]
  have hLast : (readUint32Be [a, b, c, d]).toUInt8 = d := by
    apply UInt8.toNat_inj.mp
    rw [UInt32.toNat_toUInt8, hWord]
    omega
  rw [writeUint32Be, hByte 24 a (by decide), hByte 16 b (by decide), hByte 8 c (by decide), hLast]
  · change _ / 2 ^ 8 % 256 = _
    omega
  · change _ / 2 ^ 16 % 256 = _
    omega
  · change _ / 2 ^ 24 % 256 = _
    omega

/-! ## Payloads -/

theorem validateSessionId_length {session : Bytes} (h : validateSessionId session = .ok ()) :
    0 < session.length ∧ session.length ≤ maxSessionIdSize := by
  unfold validateSessionId at h
  split at h
  · cases h
  · rename_i hEmpty
    split at h
    · cases h
    · rename_i hSize
      rw [List.isEmpty_iff] at hEmpty
      exact ⟨List.length_pos_iff.mpr hEmpty, by omega⟩

theorem validateSecret_length {secret : Bytes} (h : validateSecret secret = .ok ()) :
    secret.length ≤ maxVerificationSecretSize := by
  unfold validateSecret at h
  split at h
  · cases h
  · omega

theorem validateDisplayText_length {text : Bytes} {field : String}
    (h : validateDisplayText text field = .ok ()) : text.length ≤ maxVerificationTextSize := by
  unfold validateDisplayText at h
  split at h
  · cases h
  · omega

/-- `decode_display_text` repeats the length check of `validate_display_text`. -/
theorem decodeDisplayText_eq_ok {payload text : Bytes} {field : String} :
    decodeDisplayText payload field = .ok text ↔
      validateDisplayText payload field = .ok () ∧ text = payload := by
  unfold decodeDisplayText
  rw [guard_eq_ok, bind_eq_ok]
  constructor
  · rintro ⟨-, ⟨⟩, hValid, hText⟩
    exact ⟨hValid, (Except.ok.inj hText).symm⟩
  · rintro ⟨hValid, rfl⟩
    have hLength := validateDisplayText_length hValid
    exact ⟨by omega, (), hValid, rfl⟩

/-- What `encode_verifier_message` puts after the header, the payload side reads back. -/
theorem decodePayload_of_encode (h : encodeVerifierMessage message = .ok packet) : ∃ type payload,
      packet = setHeader type payload ∧ packet.length ≤ maxVerifierPacketSize ∧
        decodePayload payload type = .ok message := by
  cases message with
  | start start =>
    obtain ⟨⟨⟩, hValid, hPacket⟩ := bind_eq_ok.mp h
    cases hPacket
    obtain ⟨hPos, hSize⟩ := validateSessionId_length hValid
    have hWord : (writeUint32Be start.targetUid).length = 4 := rfl
    have hLength : (writeUint32Be start.targetUid ++ start.sessionId).length =
        4 + start.sessionId.length := by
      rw [List.length_append, hWord]
    refine ⟨.start, _, rfl, ?_, ?_⟩
    · simp only [setHeader, List.length_cons, hLength]
      simp only [maxSessionIdSize] at hSize
      change _ ≤ 1026
      omega
    · rw [decodePayload, guard_eq_ok, List.drop_left' hWord, List.take_left' hWord,
        readUint32Be_writeUint32Be]
      refine ⟨by omega, ?_⟩
      rw [bind_eq_ok]
      exact ⟨(), hValid, rfl⟩
  | secretResponse secret =>
    obtain ⟨⟨⟩, hValid, hPacket⟩ := bind_eq_ok.mp h
    cases hPacket
    have hSize := validateSecret_length hValid
    refine ⟨.secretResponse, _, rfl, ?_, bind_eq_ok.mpr ⟨(), hValid, rfl⟩⟩
    simp only [maxVerificationSecretSize] at hSize
    simp only [setHeader, List.length_cons]
    change _ ≤ 1026
    omega
  | cancel =>
    cases h
    exact ⟨.cancel, _, rfl, by decide, rfl⟩
  | status status =>
    obtain ⟨⟨⟩, hValid, hPacket⟩ := bind_eq_ok.mp h
    cases hPacket
    have hSize := validateDisplayText_length hValid
    refine ⟨.status, _, rfl, ?_, ?_⟩
    · simp only [maxVerificationTextSize] at hSize
      simp only [setHeader, List.length_cons]
      change _ ≤ 1026
      omega
    · have hText : decodeDisplayText status.message "verification status message" =
          .ok status.message := decodeDisplayText_eq_ok.mpr ⟨hValid, rfl⟩
      rw [decodePayload, guard_eq_ok]
      refine ⟨by simp only [List.isEmpty_cons, List.length_cons]; simp; omega, ?_⟩
      simp only [List.head?_cons, Option.bind_some, VerificationStatusKind.ofValue?_value,
        List.tail_cons, hText]
      rfl
  | secretRequired required =>
    obtain ⟨⟨⟩, hValid, hPacket⟩ := bind_eq_ok.mp h
    cases hPacket
    have hSize := validateDisplayText_length hValid
    refine ⟨.secretRequired, _, rfl, ?_,
      bind_eq_ok.mpr ⟨_, decodeDisplayText_eq_ok.mpr ⟨hValid, rfl⟩, rfl⟩⟩
    simp only [maxVerificationTextSize] at hSize
    simp only [setHeader, List.length_cons]
    change _ ≤ 1026
    omega
  | complete result =>
    cases h
    refine ⟨.complete, _, rfl, by simp only [setHeader, List.length_cons]; decide, ?_⟩
    rw [decodePayload, guard_eq_ok]
    refine ⟨by simp, ?_⟩
    simp only [List.head?_cons, Option.bind_some, VerificationResult.ofValue?_value]
    rfl

theorem encode_of_decodePayload {payload : Bytes} {type : MessageType}
    (h : decodePayload payload type = .ok message) :
    encodeVerifierMessage message = .ok (setHeader type payload) := by
  cases type with
  | start =>
    obtain ⟨hLength, h⟩ := guard_eq_ok.mp h
    obtain ⟨⟨⟩, hValid, h⟩ := bind_eq_ok.mp h
    cases h
    refine bind_eq_ok.mpr ⟨(), hValid, ?_⟩
    match payload, hLength with
    | a :: b :: c :: d :: session, _ =>
      rw [show (a :: b :: c :: d :: session).take 4 = [a, b, c, d] from rfl,
        writeUint32Be_readUint32Be]
      rfl
    | [], hLength | [_], hLength | [_, _], hLength | [_, _, _], hLength =>
      exact absurd (.inl (by simp)) hLength
  | secretResponse =>
    obtain ⟨⟨⟩, hValid, h⟩ := bind_eq_ok.mp h
    cases h
    exact bind_eq_ok.mpr ⟨(), hValid, rfl⟩
  | cancel =>
    obtain ⟨hEmpty, h⟩ := guard_eq_ok.mp h
    cases h
    rw [not_not, List.isEmpty_iff] at hEmpty
    rw [hEmpty]
    rfl
  | status =>
    obtain ⟨hLength, h⟩ := guard_eq_ok.mp h
    split at h
    · cases h
    · rename_i kind hKind
      obtain ⟨text, hText, h⟩ := bind_eq_ok.mp h
      cases h
      obtain ⟨hValid, rfl⟩ := decodeDisplayText_eq_ok.mp hText
      refine bind_eq_ok.mpr ⟨(), hValid, ?_⟩
      cases payload with
      | nil => cases hKind
      | cons byte text =>
        have hByte := VerificationStatusKind.value_of_ofValue? hKind
        rw [hByte]
        rfl
  | secretRequired =>
    obtain ⟨text, hText, h⟩ := bind_eq_ok.mp h
    cases h
    obtain ⟨hValid, rfl⟩ := decodeDisplayText_eq_ok.mp hText
    exact bind_eq_ok.mpr ⟨(), hValid, rfl⟩
  | complete =>
    obtain ⟨hLength, h⟩ := guard_eq_ok.mp h
    rw [not_not] at hLength
    obtain ⟨byte, rfl⟩ := List.length_eq_one_iff.mp hLength
    split at h
    · cases h
    · rename_i result hResult
      cases h
      have hByte := VerificationResult.value_of_ofValue? hResult
      rw [← hByte]
      rfl

/-! ## Packets -/

theorem decodeVerifierMessage_eq_ok : decodeVerifierMessage packet = .ok message ↔ ∃ type payload,
      packet = setHeader type payload ∧ packet.length ≤ maxVerifierPacketSize ∧
        decodePayload payload type = .ok message := by
  constructor
  · intro h
    unfold decodeVerifierMessage at h
    obtain ⟨hShort, h⟩ := guard_eq_ok.mp h
    obtain ⟨hLong, h⟩ := guard_eq_ok.mp h
    obtain ⟨hVersion, h⟩ := guard_eq_ok.mp h
    split at h
    · rename_i type hType
      match packet, hShort, hVersion, hType with
      | version :: byte :: payload, _, hVersion, hType =>
        rw [not_not] at hVersion
        cases hVersion
        have hByte := MessageType.value_of_ofValue? hType
        rw [← hByte] at hLong ⊢
        exact ⟨type, payload, rfl, by omega, h⟩
      | [], hShort, _, _ => exact absurd (by decide) hShort
      | [_], hShort, _, _ => exact absurd (by simp [verifierProtocolHeaderSize]) hShort
    · cases h
  · rintro ⟨type, payload, rfl, hLength, h⟩
    unfold decodeVerifierMessage
    rw [guard_eq_ok, guard_eq_ok, guard_eq_ok]
    refine ⟨by simp [setHeader, verifierProtocolHeaderSize], by omega, by simp [setHeader], ?_⟩
    simp only [setHeader, List.getElem?_cons_succ, List.getElem?_cons_zero, Option.bind_some,
      MessageType.ofValue?_value]
    exact h

theorem encode_iff_decode :
    encodeVerifierMessage message = .ok packet ↔ decodeVerifierMessage packet = .ok message := by
  rw [decodeVerifierMessage_eq_ok]
  constructor
  · exact decodePayload_of_encode
  · rintro ⟨type, payload, rfl, -, h⟩
    exact encode_of_decodePayload h

/-- What was encoded is received as it was sent. -/
theorem receive_of_encode (h : encodeVerifierMessage message = .ok packet) :
    receiveVerifierMessage (some packet) = .ok message := by
  obtain ⟨type, payload, rfl, hLength, -⟩ := decodePayload_of_encode h
  rw [receiveVerifierMessage, if_neg (by simp [setHeader]), if_neg (by omega)]
  exact encode_iff_decode.mp h

theorem encode_of_receive (h : receiveVerifierMessage (some packet) = .ok message) :
    encodeVerifierMessage message = .ok packet := by
  unfold receiveVerifierMessage at h
  split at h
  · cases h
  · rename_i hPacket
    cases hPacket
    split at h
    · cases h
    · split at h
      · cases h
      · exact encode_iff_decode.mpr h

theorem sendVerifierMessage_eq_ok {sent : Bool} : sendVerifierMessage sent message = .ok packet ↔
      encodeVerifierMessage message = .ok packet ∧ sent = true := by
  unfold sendVerifierMessage
  rw [bind_eq_ok]
  constructor
  · rintro ⟨packet', hEncodes, h⟩
    obtain ⟨hSent, h⟩ := guard_eq_ok.mp h
    cases h
    exact ⟨hEncodes, not_not.mp hSent⟩
  · rintro ⟨hEncodes, hSent⟩
    exact ⟨packet, hEncodes, guard_eq_ok.mpr ⟨not_not.mpr hSent, rfl⟩⟩

/-- **The codec is a bijection on its image.** Encoding a message gives a packet within the
limit that decodes to it, decoding a packet gives a message that is encoded as this very
packet, and so the messages that can be sent are the ones that can be received. -/
theorem verifier_codec_bijective : (∀ message packet, encodeVerifierMessage message = .ok packet →
      packet.length ≤ maxVerifierPacketSize ∧ decodeVerifierMessage packet = .ok message) ∧
    (∀ packet message, decodeVerifierMessage packet = .ok message →
      encodeVerifierMessage message = .ok packet) ∧
    (∀ message, (∃ packet, encodeVerifierMessage message = .ok packet) ↔
      ∃ packet, decodeVerifierMessage packet = .ok message) := by
  refine ⟨?_, ?_, ?_⟩
  · intro message packet h
    obtain ⟨_, _, _, hLength, _⟩ := decodePayload_of_encode h
    exact ⟨hLength, encode_iff_decode.mp h⟩
  · intro packet message h
    exact encode_iff_decode.mpr h
  · intro message
    exact exists_congr fun _ => encode_iff_decode

/-- The longest session identifier that a request can name goes over the wire and back. -/
theorem verifier_codec_bijective_longest :
    decodeVerifierMessage (setHeader .start ([0, 0, 3, 232] ++ List.replicate 255 99)) =
      .ok (.start { targetUid := 1000, sessionId := List.replicate 255 99 }) :=
  (verifier_codec_bijective.1 (.start { targetUid := 1000, sessionId := List.replicate 255 99 })
    _ (by decide +kernel)).2

end VAuth.Verifier
