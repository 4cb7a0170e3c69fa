import VAuth.Format.Canonical
import VAuth.Ctap.Response

/-!
# The response encoders, call by call

The builders of `cbor.cpp` as they call TinyCBOR: containers are opened with a declared number of
members and closed again, and the bytes go through `append_cbor`, which refuses to grow past the
CTAPHID payload limit. Of TinyCBOR it is assumed, as documented, that a call appends the shortest
head and then the bytes it was given, and that closing a container fails if the members are not as
many as declared. The builders give exactly the items of `Ctap.Response`, in canonical form.
-/

namespace VAuth.Ctap

open Store

/-! ## The encoder -/

/-- The output, and for the open containers, from the inside out, how many elements may follow
plus one. -/
structure CborEncoder where
  output : Bytes
  remaining : List Nat

abbrev Encode := StateT CborEncoder (Except Exn)

/-- `append_cbor`. -/
def appendCbor (bytes : Bytes) : Encode Unit := fun encoder =>
  if encoder.output.length > ctaphidMaxPayloadSize ∨
      bytes.length > ctaphidMaxPayloadSize - encoder.output.length then
    .error (.cborEncodingError .resourceLimit)
  else .ok ((), { encoder with output := encoder.output ++ bytes })

/-- An element of the innermost container begins. -/
def countElement : Encode Unit := fun encoder =>
  match encoder.remaining with
  | r :: rest => .ok ((), { encoder with remaining := (r - 1) :: rest })
  | [] => .ok ((), encoder)

def openContainer (elements : Nat) : Encode Unit := fun encoder =>
  .ok ((), { encoder with remaining := (elements + 1) :: encoder.remaining })

def encodeNumber (major n : Nat) : Encode Unit := do
  countElement
  appendCbor (Cbor.encodeHead major n)

def encodeUint (n : UInt64) : Encode Unit := encodeNumber 0 n.toNat

def encodeInt (n : Int) : Encode Unit :=
  if n < 0 then encodeNumber 1 (-1 - n).toNat else encodeNumber 0 n.toNat

def encodeByteString (bytes : Bytes) : Encode Unit := do
  encodeNumber 2 bytes.length
  appendCbor bytes

def encodeTextString (bytes : Bytes) : Encode Unit := do
  encodeNumber 3 bytes.length
  appendCbor bytes

def encodeBoolean (value : Bool) : Encode Unit := do
  countElement
  appendCbor (Cbor.bool value).encode

def createArray (members : Nat) : Encode Unit := do
  encodeNumber 4 members
  openContainer members

def createMap (members : Nat) : Encode Unit := do
  encodeNumber 5 members
  openContainer (2 * members)

/-- `cbor_encoder_close_container_checked`, and the exception for its failure. -/
def closeContainer : Encode Unit := fun encoder =>
  match encoder.remaining with
  | 1 :: rest => .ok ((), { encoder with remaining := rest })
  | _ => .error (.cborEncodingError .invalidStructure)

/-- `encode_cbor` with the calls that a builder makes. -/
def encodeCborWith (includeSuccessStatus : Bool) (encode : Encode Unit) : Except Exn Bytes := do
  let (_, encoder) ← encode.run
    { output := if includeSuccessStatus then [0x00] else [], remaining := [2] }
  return encoder.output

/-! ## The builders -/

namespace CborEncoder

def buildGetinfoResponse : Except Exn Bytes := encodeCborWith true do
  createMap 6
  encodeUint 1
  createArray 1
  encodeTextString (text "FIDO_2_0")
  closeContainer
  encodeUint 3
  encodeByteString aaguid
  encodeUint 4
  createMap 3
  encodeTextString (text "rk")
  encodeBoolean true
  encodeTextString (text "up")
  encodeBoolean true
  encodeTextString (text "uv")
  encodeBoolean true
  closeContainer
  encodeUint 9
  createArray 1
  encodeTextString (text "usb")
  closeContainer
  encodeUint 10
  createArray 1
  createMap 2
  encodeTextString (text "alg")
  encodeInt (-7)
  encodeTextString (text "type")
  encodeTextString (text "public-key")
  closeContainer
  closeContainer
  encodeUint 14
  encodeUint firmwareVersion
  closeContainer

def buildCoseKey (x y : Bytes) : Except Exn Bytes := do
  let xPadded ← pad32 x
  let yPadded ← pad32 y
  encodeCborWith false do
    createMap 5
    encodeInt 1
    encodeInt 2
    encodeInt 3
    encodeInt (-7)
    encodeInt (-1)
    encodeInt 1
    encodeInt (-2)
    encodeByteString xPadded
    encodeInt (-3)
    encodeByteString yPadded
    closeContainer

def buildAuthenticatorMakeCredentialResponse (authData signData : Bytes) : Except Exn Bytes :=
  encodeCborWith true do
    createMap 3
    encodeUint 1
    encodeTextString (text "packed")
    encodeUint 2
    encodeByteString authData
    encodeUint 3
    createMap 2
    encodeTextString (text "alg")
    encodeInt (-7)
    encodeTextString (text "sig")
    encodeByteString signData
    closeContainer
    closeContainer

def buildAuthenticatorGetAssertionResponse (authData signature : Bytes) (uv : Bool)
    (credential : StoredCredential) (includeUser : Bool) (numberOfCredentials : Option UInt32) :
    Except Exn Bytes :=
  let mapSize := 3 + (if includeUser then 1 else 0) + (if numberOfCredentials.isSome then 1 else 0)
  encodeCborWith true do
    createMap mapSize
    encodeUint 0x01
    createMap 2
    encodeTextString (text "id")
    encodeByteString credential.id
    encodeTextString (text "type")
    encodeTextString (text "public-key")
    closeContainer
    encodeUint 0x02
    encodeByteString authData
    encodeUint 0x03
    encodeByteString signature
    if includeUser then
      encodeUint 0x04
      createMap (if uv then 3 else 1)
      encodeTextString (text "id")
      encodeByteString credential.userId
      if uv then
        encodeTextString (text "name")
        encodeTextString credential.userName
        encodeTextString (text "displayName")
        encodeTextString credential.userDisplayName
      closeContainer
    if let some n := numberOfCredentials then
      encodeUint 0x05
      encodeUint n.toUInt64
    closeContainer

end CborEncoder

/-! ## Items -/

mutual

/-- The calls for an item, with the number of members that it has. -/
def encodeItem : Cbor → Encode Unit
  | .uint n => encodeNumber 0 n.toNat
  | .negative n => encodeNumber 1 n.toNat
  | .bytes contents => encodeByteString contents
  | .text contents => encodeTextString contents
  | .array elements => do
      createArray elements.length
      encodeItems elements
      closeContainer
  | .map elements => do
      createMap (elements.length / 2)
      encodeItems elements
      closeContainer
  | item => do
      countElement
      appendCbor item.encode

def encodeItems : List Cbor → Encode Unit
  | [] => pure ()
  | element :: rest => do
      encodeItem element
      encodeItems rest

end

/-- From this encoder on the calls append the bytes, if there is room for them, and leave these
numbers of elements. -/
def Writes (calls : Encode Unit) (encoder : CborEncoder) (bytes : Bytes) (remaining : List Nat) :
    Prop :=
  calls encoder = if (encoder.output ++ bytes).length ≤ ctaphidMaxPayloadSize then
      .ok ((), ⟨encoder.output ++ bytes, remaining⟩)
    else .error (.cborEncodingError .resourceLimit)

section Writes

variable {out bytes bytes' : Bytes} {remaining remaining' : List Nat} {calls calls' : Encode Unit}
  {encoder : CborEncoder}

theorem Writes.bind (h : Writes calls encoder bytes remaining)
    (h' : (encoder.output ++ bytes).length ≤ ctaphidMaxPayloadSize →
      Writes calls' ⟨encoder.output ++ bytes, remaining⟩ bytes' remaining') :
    Writes (do calls; calls') encoder (bytes ++ bytes') remaining' := by
  unfold Writes at *
  have hBind : (do calls; calls' : Encode Unit) encoder =
      (calls encoder >>= fun result => calls' result.2) := rfl
  rw [hBind, h]
  by_cases hFits : (encoder.output ++ bytes).length ≤ ctaphidMaxPayloadSize
  · rw [if_pos hFits, ← List.append_assoc]
    exact h' hFits
  · rw [if_neg hFits, if_neg (by simp only [List.length_append] at hFits ⊢; omega)]
    rfl

theorem writes_nothing (hOut : out.length ≤ ctaphidMaxPayloadSize)
    (h : calls ⟨out, remaining⟩ = .ok ((), ⟨out, remaining'⟩)) :
    Writes calls ⟨out, remaining⟩ [] remaining' := by
  unfold Writes
  rw [List.append_nil, if_pos hOut, h]

theorem writes_appendCbor (hOut : out.length ≤ ctaphidMaxPayloadSize) (bytes : Bytes) :
    Writes (appendCbor bytes) ⟨out, remaining⟩ bytes remaining := by
  unfold Writes appendCbor
  by_cases hFits : (out ++ bytes).length ≤ ctaphidMaxPayloadSize
  · rw [if_pos hFits, if_neg (by simp only [List.length_append] at hFits ⊢; omega)]
  · rw [if_neg hFits, if_pos (by simp only [List.length_append] at hFits ⊢; omega)]

variable {r : Nat}

theorem writes_element (hOut : out.length ≤ ctaphidMaxPayloadSize) (bytes : Bytes) :
    Writes (do countElement; appendCbor bytes) ⟨out, r :: remaining⟩ bytes ((r - 1) :: remaining) :=
  Writes.bind (writes_nothing hOut rfl) fun hFits => writes_appendCbor hFits bytes

theorem writes_string (hOut : out.length ≤ ctaphidMaxPayloadSize) (major : Nat) (bytes : Bytes) :
    Writes (do encodeNumber major bytes.length; appendCbor bytes) ⟨out, r :: remaining⟩
      (Cbor.encodeHead major bytes.length ++ bytes) ((r - 1) :: remaining) :=
  Writes.bind (writes_element hOut _) fun hFits => writes_appendCbor hFits bytes

theorem Writes.silent (h : Writes calls encoder bytes remaining)
    (h' : ∀ out, calls' ⟨out, remaining⟩ = .ok ((), ⟨out, remaining'⟩)) :
    Writes (do calls; calls') encoder bytes remaining' := by
  have hBoth := h.bind fun hFits => writes_nothing hFits (h' _)
  rwa [List.append_nil] at hBoth

theorem Writes.container {elements major members : Nat} (hOut : out.length ≤ ctaphidMaxPayloadSize)
    (h : ∀ out' : Bytes, out'.length ≤ ctaphidMaxPayloadSize →
      Writes calls ⟨out', (elements + 1) :: (r - 1) :: remaining⟩ bytes
        (1 :: (r - 1) :: remaining)) :
    Writes (do (do encodeNumber major members; openContainer elements); calls; closeContainer)
      ⟨out, r :: remaining⟩ (Cbor.encodeHead major members ++ bytes) ((r - 1) :: remaining) := by
  have hHead : Writes (encodeNumber major members) ⟨out, r :: remaining⟩
      (Cbor.encodeHead major members) ((r - 1) :: remaining) := writes_element hOut _
  have hOpen : Writes (do encodeNumber major members; openContainer elements) ⟨out, r :: remaining⟩
      (Cbor.encodeHead major members) ((elements + 1) :: (r - 1) :: remaining) :=
    hHead.silent fun _ => rfl
  exact hOpen.bind fun hFits => (h _ hFits).silent fun _ => rfl

end Writes

mutual

theorem writes_encodeItem : ∀ (e : Cbor), e.ordered = true → ∀ (out : Bytes) (r : Nat)
    (remaining : List Nat), out.length ≤ ctaphidMaxPayloadSize →
    Writes (encodeItem e) ⟨out, r :: remaining⟩ e.encode ((r - 1) :: remaining)
  | .uint n, _, out, r, remaining, hOut => by
      rw [encodeItem, Cbor.encode]
      exact writes_element hOut _
  | .negative n, _, out, r, remaining, hOut => by
      rw [encodeItem, Cbor.encode]
      exact writes_element hOut _
  | .bytes contents, _, out, r, remaining, hOut => by
      rw [encodeItem, Cbor.encode]
      exact writes_string hOut 2 contents
  | .text contents, _, out, r, remaining, hOut => by
      rw [encodeItem, Cbor.encode]
      exact writes_string hOut 3 contents
  | .array elements, h, out, r, remaining, hOut => by
      rw [encodeItem, Cbor.encode, Cbor.counted_of_ordered h]
      refine Writes.container hOut fun out' hOut' => ?_
      have hElements := writes_encodeItems elements h out' (elements.length + 1)
        ((r - 1) :: remaining) hOut'
      rwa [Nat.add_sub_cancel_left] at hElements
  | .map elements, h, out, r, remaining, hOut => by
      obtain ⟨hKeys, hAll⟩ := Bool.and_eq_true_iff.mp h
      obtain ⟨hEven, -⟩ := Bool.and_eq_true_iff.mp hKeys
      have hDouble : 2 * (elements.length / 2) = elements.length := by
        have hLength := Cbor.even_of_paired hEven
        omega
      rw [encodeItem, Cbor.encode, Cbor.counted_of_ordered hAll]
      refine Writes.container hOut fun out' hOut' => ?_
      have hElements := writes_encodeItems elements hAll out' (elements.length + 1)
        ((r - 1) :: remaining) hOut'
      rw [Nat.add_sub_cancel_left] at hElements
      rwa [hDouble]
  | .tag n, h, _, _, _, _ => nomatch h
  | .special info argument, _, out, r, remaining, hOut => writes_element hOut _

theorem writes_encodeItems : ∀ (es : List Cbor), Cbor.allOrdered es = true → ∀ (out : Bytes)
    (r : Nat) (remaining : List Nat), out.length ≤ ctaphidMaxPayloadSize →
    Writes (encodeItems es) ⟨out, r :: remaining⟩ (Cbor.encodeAll es) ((r - es.length) :: remaining)
  | [], _, out, r, remaining, hOut => writes_nothing hOut rfl
  | e :: es, h, out, r, remaining, hOut => by
      obtain ⟨hElement, hRest⟩ := Bool.and_eq_true_iff.mp h
      rw [encodeItems, Cbor.encodeAll, List.length_cons, Nat.add_comm, Nat.sub_add_eq]
      exact (writes_encodeItem e hElement out r remaining hOut).bind fun hFits =>
        writes_encodeItems es hRest _ (r - 1) remaining hFits

end

variable {item : Cbor}

/-- The whole output, or the limit. -/
theorem encodeCborWith_encodeItem (includeSuccessStatus : Bool) (h : item.ordered = true) :
    encodeCborWith includeSuccessStatus (encodeItem item) =
      encodeCbor includeSuccessStatus item := by
  have hStatus : (if includeSuccessStatus then [0x00] else [] : Bytes).length ≤
      ctaphidMaxPayloadSize := by
    cases includeSuccessStatus <;> decide
  unfold encodeCborWith encodeCbor
  generalize (if includeSuccessStatus then [0x00] else [] : Bytes) = status at hStatus
  have hWrites := writes_encodeItem item h status 2 [] hStatus
  unfold Writes at hWrites
  simp only [StateT.run]
  rw [hWrites]
  by_cases hFits : (status ++ item.encode).length ≤ ctaphidMaxPayloadSize
  · rw [if_pos hFits, if_neg (Nat.not_lt.mpr hFits)]
    rfl
  · rw [if_neg hFits, if_pos (Nat.not_le.mp hFits)]
    rfl

/-! ## The builders encode their items -/

def coseKeyItem (x y : Bytes) : Cbor := .map [.uint 1, .uint 2, .uint 3, es256, .negative 0,
  .uint 1, .negative 1, .bytes x, .negative 2, .bytes y]

theorem ordered_coseKeyItem (x y : Bytes) : (coseKeyItem x y).ordered = true := rfl

theorem ordered_makeCredentialItem (authData signData : Bytes) :
    (makeCredentialItem authData signData).ordered = true := rfl

theorem ordered_assertionItem (authData signature : Bytes) (uv : Bool)
    (credential : StoredCredential) (includeUser : Bool) (number : Option UInt32) :
    (assertionItem authData signature uv credential includeUser number).ordered = true := by
  cases uv <;> cases includeUser <;> cases number <;> rfl

namespace CborEncoder

theorem buildCoseKey_eq (x y : Bytes) : buildCoseKey x y = Ctap.buildCoseKey x y := by
  have hCalls : buildCoseKey x y = (do
      let xPadded ← pad32 x
      let yPadded ← pad32 y
      encodeCborWith false (encodeItem (coseKeyItem xPadded yPadded))) := by
    simp [buildCoseKey, coseKeyItem, encodeItem, encodeItems, es256, encodeInt]
  rw [hCalls]
  simp only [encodeCborWith_encodeItem false (ordered_coseKeyItem _ _)]
  rfl

theorem buildAuthenticatorMakeCredentialResponse_eq (authData signData : Bytes) :
    buildAuthenticatorMakeCredentialResponse authData signData =
      Ctap.buildAuthenticatorMakeCredentialResponse authData signData := by
  have hCalls : buildAuthenticatorMakeCredentialResponse authData signData =
      encodeCborWith true (encodeItem (makeCredentialItem authData signData)) := by
    simp [buildAuthenticatorMakeCredentialResponse, makeCredentialItem, encodeItem, encodeItems,
      es256, encodeInt, encodeUint]
  rw [hCalls]
  exact encodeCborWith_encodeItem true (ordered_makeCredentialItem authData signData)

/-- The three conditions decide the declared sizes and the members in the same way. -/
theorem buildAuthenticatorGetAssertionResponse_eq (authData signature : Bytes) (uv : Bool)
    (credential : StoredCredential) (includeUser : Bool) (number : Option UInt32) :
    buildAuthenticatorGetAssertionResponse authData signature uv credential includeUser number =
      Ctap.buildAuthenticatorGetAssertionResponse authData signature uv credential includeUser
        number := by
  have hCalls : buildAuthenticatorGetAssertionResponse authData signature uv credential includeUser
      number = encodeCborWith true (encodeItem
        (assertionItem authData signature uv credential includeUser number)) := by
    cases uv <;> cases includeUser <;> cases number <;>
      simp [buildAuthenticatorGetAssertionResponse, assertionItem, userItem, encodeItem,
        encodeItems, encodeUint]
  rw [hCalls]
  exact encodeCborWith_encodeItem true (ordered_assertionItem _ _ _ _ _ _)

theorem buildGetinfoResponse_eq : buildGetinfoResponse = Ctap.buildGetinfoResponse := by
  unfold Ctap.buildGetinfoResponse
  rw [← encodeCborWith_encodeItem true]
  · simp [buildGetinfoResponse, encodeItem, encodeItems, es256, encodeInt, encodeUint,
      encodeBoolean, Cbor.bool]
  · rfl

end CborEncoder

/-! ## Decoding a response -/

/-- The value of a text key in the elements of a map. -/
def member (key : Bytes) : List Cbor → Option Cbor
  | .text k :: value :: rest => if k = key then some value else member key rest
  | _ => none

structure AssertionContents where
  credentialId : Bytes
  authData : Bytes
  signature : Bytes
  /-- The id, and the name and the display name. -/
  user : Option (Bytes × Option (Bytes × Bytes))
  numberOfCredentials : Option UInt64

def readUser : Cbor → Option (Bytes × Option (Bytes × Bytes))
  | .map elements =>
    match member (text "id") elements, member (text "name") elements,
      member (text "displayName") elements with
    | some (.bytes id), some (.text name), some (.text displayName) =>
      some (id, some (name, displayName))
    | some (.bytes id), none, none => some (id, none)
    | _, _, _ => none
  | _ => none

def readCredentialId : Cbor → Option Bytes
  | .map elements =>
    match member (text "id") elements with
    | some (.bytes id) => some id
    | _ => none
  | _ => none

def readAssertion (payload : Bytes) : Option AssertionContents := do
  let elements ← responseParameters payload
  let credentialId ← (parameter 1 elements).bind readCredentialId
  match parameter 2 elements, parameter 3 elements with
  | some (.bytes authData), some (.bytes signature) =>
    some {
      credentialId, authData, signature
      user := (parameter 4 elements).bind readUser
      numberOfCredentials := match parameter 5 elements with
        | some (.uint n) => some n
        | _ => none }
  | _, _ => none

/-- The authenticator data and the signature of an attestation. -/
def readAttestation (payload : Bytes) : Option (Bytes × Bytes) := do
  let elements ← responseParameters payload
  match parameter 2 elements, parameter 3 elements with
  | some (.bytes authData), some (.map statement) =>
    match member (text "sig") statement with
    | some (.bytes signature) => some (authData, signature)
    | _ => none
  | _, _ => none

/-- The coordinate with this label, `-1 - label`. -/
def coordinate (label : UInt64) : List Cbor → Option Bytes
  | .negative n :: .bytes value :: rest => if n = label then some value else coordinate label rest
  | _ :: _ :: rest => coordinate label rest
  | _ => none

def readCoseKey (key : Bytes) : Option (Bytes × Bytes) :=
  match Cbor.decode key with
  | some (.map elements) =>
    match coordinate 1 elements, coordinate 2 elements with
    | some x, some y => some (x, y)
    | _, _ => none
  | _ => none

/-! ## Canonical responses -/

/-- The bytes are those of the item, which is canonical, and nothing else. -/
structure Holds (bytes : Bytes) (item : Cbor) : Prop where
  encoded : bytes = item.encode
  canonical : item.Canonical
  decoded : Cbor.decode bytes = some item

theorem holds_of_canonical (h : item.Canonical) : Holds item.encode item :=
  ⟨rfl, h, h.decode_encode⟩

/-- A response is refused if it is too long for the transport, and holds its item otherwise. -/
theorem encodeCbor_cases (hOrdered : item.ordered = true)
    (hWellFormed : item.encode.length < ctaphidMaxPayloadSize → item.WellFormed) :
    (ctaphidMaxPayloadSize < (0x00 :: item.encode).length ∧
      encodeCbor true item = .error (.cborEncodingError .resourceLimit)) ∨
    ∃ bytes, encodeCbor true item = .ok (0x00 :: bytes) ∧
      (0x00 :: bytes).length ≤ ctaphidMaxPayloadSize ∧ Holds bytes item := by
  have hOutput : encodeCbor true item =
      if (0x00 :: item.encode).length > ctaphidMaxPayloadSize then
        .error (.cborEncodingError .resourceLimit)
      else .ok (0x00 :: item.encode) := rfl
  rw [hOutput]
  by_cases hSize : (0x00 :: item.encode).length > ctaphidMaxPayloadSize
  · rw [if_pos hSize]
    exact .inl ⟨hSize, rfl⟩
  · rw [if_neg hSize]
    rw [List.length_cons] at hSize
    refine .inr ⟨_, rfl, Nat.not_lt.mp hSize, ?_⟩
    exact holds_of_canonical ⟨hWellFormed (by omega), hOrdered⟩

theorem responseParameters_of_holds {bytes : Bytes} {elements : List Cbor}
    (h : Holds bytes (.map elements)) : responseParameters (0x00 :: bytes) = some elements := by
  rw [responseParameters, h.decoded]

theorem pad32_ok {value : Bytes} (h : value.length ≤ 32) :
    pad32 value = .ok (List.replicate (32 - value.length) 0 ++ value) :=
  if_neg (Nat.not_lt.mpr h)

theorem length_padded {value : Bytes} (h : value.length ≤ 32) :
    (List.replicate (32 - value.length) 0 ++ value : Bytes).length = 32 := by
  rw [List.length_append, List.length_replicate]
  omega

theorem length_coseKeyItem {x y : Bytes} (hx : x.length = 32) (hy : y.length = 32) :
    (coseKeyItem x y).encode.length = 77 := by
  simp [coseKeyItem, Cbor.encode, Cbor.encodeAll, es256, hx, hy, Cbor.counted, Cbor.isTag,
    Cbor.encodeHead, Cbor.head, Cbor.shortestInfo, Cbor.argumentWidth, Cbor.bigEndian]

theorem canonical_coseKeyItem {x y : Bytes} (hx : x.length = 32) (hy : y.length = 32) :
    (coseKeyItem x y).Canonical := by
  refine ⟨?_, ordered_coseKeyItem x y⟩
  simp [coseKeyItem, Cbor.WellFormed, Cbor.AllWellFormed, Cbor.counted, Cbor.isTag, es256, hx, hy]

/-- What an assertion holds for the user. -/
def heldUser (uv : Bool) (credential : StoredCredential) : Bytes × Option (Bytes × Bytes) :=
  (credential.userId,
    if uv then some (credential.userName, credential.userDisplayName) else none)

theorem readAssertion_of_holds {bytes authData signature : Bytes} {uv includeUser : Bool}
    {credential : StoredCredential} {number : Option UInt32}
    (h : Holds bytes (assertionItem authData signature uv credential includeUser number)) :
    readAssertion (0x00 :: bytes) = some {
      credentialId := credential.id, authData, signature
      user := if includeUser then some (heldUser uv credential) else none
      numberOfCredentials := number.map UInt32.toUInt64 } := by
  unfold readAssertion
  rw [responseParameters_of_holds h]
  cases uv <;> cases includeUser <;> cases number <;> rfl

/-- **Responses are canonical and decode to what was put in.** -/
theorem responses_canonical : (∀ authData signature uv credential includeUser number,
      let item := assertionItem authData signature uv credential includeUser number
      let response := CborEncoder.buildAuthenticatorGetAssertionResponse authData signature uv
        credential includeUser number
      (7609 < (0x00 :: item.encode).length ∧
        response = .error (.cborEncodingError .resourceLimit)) ∨
      ∃ bytes, response = .ok (0x00 :: bytes) ∧ (0x00 :: bytes).length ≤ 7609 ∧ Holds bytes item ∧
        readAssertion (0x00 :: bytes) = some {
          credentialId := credential.id, authData, signature
          user := if includeUser then some (heldUser uv credential) else none
          numberOfCredentials := number.map UInt32.toUInt64 }) ∧
    (∀ authData signature,
      let item := makeCredentialItem authData signature
      let response := CborEncoder.buildAuthenticatorMakeCredentialResponse authData signature
      (7609 < (0x00 :: item.encode).length ∧
        response = .error (.cborEncodingError .resourceLimit)) ∨
      ∃ bytes, response = .ok (0x00 :: bytes) ∧ (0x00 :: bytes).length ≤ 7609 ∧ Holds bytes item ∧
        readAttestation (0x00 :: bytes) = some (authData, signature)) ∧
    ∀ x y : Bytes, x.length ≤ 32 → y.length ≤ 32 →
      let x₀ := List.replicate (32 - x.length) 0 ++ x
      let y₀ := List.replicate (32 - y.length) 0 ++ y
      ∃ bytes, CborEncoder.buildCoseKey x y = .ok bytes ∧ Holds bytes (coseKeyItem x₀ y₀) ∧
        readCoseKey bytes = some (x₀, y₀) := by
  refine ⟨fun authData signature uv credential includeUser number => ?_,
    fun authData signature => ?_, fun x y hx hy => ?_⟩
  · intro item response
    have hResponse : response = encodeCbor true item :=
      CborEncoder.buildAuthenticatorGetAssertionResponse_eq _ _ _ _ _ _
    rw [hResponse]
    rcases encodeCbor_cases (ordered_assertionItem _ _ _ _ _ _) wellFormed_assertionItem with
      hLimit | ⟨bytes, hOk, hSize, hHolds⟩
    · exact .inl hLimit
    · exact .inr ⟨bytes, hOk, hSize, hHolds, readAssertion_of_holds hHolds⟩
  · intro item response
    have hResponse : response = encodeCbor true item :=
      CborEncoder.buildAuthenticatorMakeCredentialResponse_eq _ _
    rw [hResponse]
    rcases encodeCbor_cases (ordered_makeCredentialItem _ _) wellFormed_makeCredentialItem with
      hLimit | ⟨bytes, hOk, hSize, hHolds⟩
    · exact .inl hLimit
    · refine .inr ⟨bytes, hOk, hSize, hHolds, ?_⟩
      unfold readAttestation
      rw [responseParameters_of_holds hHolds]
      rfl
  · intro x₀ y₀
    have hHolds := holds_of_canonical (canonical_coseKeyItem (length_padded hx) (length_padded hy))
    refine ⟨(coseKeyItem x₀ y₀).encode, ?_, hHolds, ?_⟩
    · have hShort : ¬ ([] ++ (coseKeyItem x₀ y₀).encode).length > ctaphidMaxPayloadSize := by
        rw [List.nil_append, length_coseKeyItem (length_padded hx) (length_padded hy)]
        decide
      rw [CborEncoder.buildCoseKey_eq, buildCoseKey, pad32_ok hx, pad32_ok hy]
      exact if_neg hShort
    · unfold readCoseKey
      rw [hHolds.decoded]
      rfl

end VAuth.Ctap
