import VAuth.Ctap.Request

/-!
# CTAP responses

The packets of a reply and the CBOR encoders of the response payloads. TinyCBOR's encoder
writes shortest heads (`Cbor.encode`); the writer it is given refuses to grow past the
CTAPHID payload limit.
-/

namespace VAuth.Ctap

open Store

/-! ## Packets -/

/-- The members of `enum class CTAPError` that are sent. -/
inductive CTAPError where
  | invalidCommand
  | invalidCbor
  | credentialExcluded
  | unsupportedAlgorithm
  | operationDenied
  | invalidOption
  | keepaliveCancel
  | noCredentials
  | notAllowed
  | pinAuthInvalid
  | requestTooLarge
  | other
deriving DecidableEq

def CTAPError.code : CTAPError → UInt8
  | invalidCommand => 0x01
  | invalidCbor => 0x12
  | credentialExcluded => 0x19
  | unsupportedAlgorithm => 0x26
  | operationDenied => 0x27
  | invalidOption => 0x2C
  | keepaliveCancel => 0x2D
  | noCredentials => 0x2E
  | notAllowed => 0x30
  | pinAuthInvalid => 0x33
  | requestTooLarge => 0x39
  | other => 0x7F

structure CTAPPacket where
  cid : UInt32 := 0
  cmd : UInt8 := 0
  len : UInt16 := 0
  payload : Bytes := []
deriving DecidableEq

def ctaphidMaxPayloadSize : Nat := 7609

/-- `CTAPHID_CBOR | MASK`. -/
def cborCommand : UInt8 := 0x90

/-- `make_cbor_error`, by the value of the error. -/
def makeCborError (cid : UInt32) (error : UInt8) : CTAPPacket :=
  { cid, cmd := cborCommand, len := 1, payload := [error] }

/-! ## Encoders -/

def encodeCbor (includeSuccessStatus : Bool) (item : Cbor) : Except Exn Bytes :=
  let output := (if includeSuccessStatus then [0x00] else []) ++ item.encode
  if output.length > ctaphidMaxPayloadSize then .error (.cborEncodingError .resourceLimit)
  else .ok output

def aaguid : Bytes :=
  [0x87, 0x91, 0xf7, 0xdc, 0x41, 0x8b, 0x45, 0x10, 0xbb, 0xf5, 0x3b, 0xaf, 0x30, 0x71, 0x53, 0x24]

def firmwareVersion : UInt64 := 1

/-- The COSE identifier of ES256, -7. -/
def es256 : Cbor := .negative 6

def buildGetinfoResponse : Except Exn Bytes :=
  encodeCbor true <| .map [ .uint 1, .array [.text (text "FIDO_2_0")], .uint 3, .bytes aaguid,
    .uint 4, .map [.text (text "rk"), .bool true, .text (text "up"), .bool true,
      .text (text "uv"), .bool true],
    .uint 9, .array [.text (text "usb")],
    .uint 10, .array [.map [.text (text "alg"), es256, .text (text "type"),
      .text (text "public-key")]],
    .uint 14, .uint firmwareVersion]

def pad32 (value : Bytes) : Except Exn Bytes :=
  if value.length > 32 then .error (.cborEncodingError .invalidStructure)
  else .ok (List.replicate (32 - value.length) 0 ++ value)

def buildCoseKey (x y : Bytes) : Except Exn Bytes := do
  let xPadded ← pad32 x
  let yPadded ← pad32 y
  encodeCbor false <| .map [.uint 1, .uint 2, .uint 3, es256, .negative 0, .uint 1,
    .negative 1, .bytes xPadded, .negative 2, .bytes yPadded]

def makeCredentialItem (authData signData : Bytes) : Cbor := .map [
  .uint 1, .text (text "packed"),
  .uint 2, .bytes authData,
  .uint 3, .map [.text (text "alg"), es256, .text (text "sig"), .bytes signData]]

def buildAuthenticatorMakeCredentialResponse (authData signData : Bytes) : Except Exn Bytes :=
  encodeCbor true (makeCredentialItem authData signData)

def userItem (uv : Bool) (credential : StoredCredential) : Cbor := .map <|
  [.text (text "id"), .bytes credential.userId] ++
    if uv then [.text (text "name"), .text credential.userName,
      .text (text "displayName"), .text credential.userDisplayName] else []

def assertionItem (authData signature : Bytes) (uv : Bool) (credential : StoredCredential)
    (includeUser : Bool) (numberOfCredentials : Option UInt32) : Cbor := .map <|
  [.uint 1, .map [.text (text "id"), .bytes credential.id, .text (text "type"),
    .text (text "public-key")], .uint 2, .bytes authData, .uint 3, .bytes signature] ++
  (if includeUser then [.uint 4, userItem uv credential] else []) ++
  match numberOfCredentials with
  | some n => [.uint 5, .uint n.toUInt64]
  | none => []

def buildAuthenticatorGetAssertionResponse (authData signature : Bytes) (uv : Bool)
    (credential : StoredCredential) (includeUser : Bool) (numberOfCredentials : Option UInt32) :
    Except Exn Bytes :=
  encodeCbor true (assertionItem authData signature uv credential includeUser numberOfCredentials)

/-! ## Reading a response -/

/-- The value of an integer key in the elements of a map. -/
def parameter (key : UInt64) : List Cbor → Option Cbor
  | .uint n :: value :: rest => if n = key then some value else parameter key rest
  | _ => none

/-- The parameters of a successful response. -/
def responseParameters : Bytes → Option (List Cbor)
  | 0x00 :: rest =>
    match Cbor.decode rest with
    | some (.map elements) => some elements
    | _ => none
  | _ => none

/-- The authenticator data in a successful response. -/
def authDataOf (payload : Bytes) : Option Bytes :=
  match (responseParameters payload).bind (parameter 2) with
  | some (.bytes authData) => some authData
  | _ => none

/-- The credential id in a successful assertion. -/
def credentialIdOf (payload : Bytes) : Option Bytes :=
  match (responseParameters payload).bind (parameter 1) with
  | some (.map (.text _ :: .bytes id :: _)) => some id
  | _ => none

variable {payload authData : Bytes} {credential : StoredCredential} {number : Option UInt32}

theorem encodeCbor_ok {item : Cbor} (h : encodeCbor true item = .ok payload) :
    payload = 0x00 :: item.encode ∧ item.encode.length < ctaphidMaxPayloadSize := by
  simp only [encodeCbor, if_true, List.singleton_append, List.length_cons] at h
  by_cases hSize : item.encode.length + 1 > ctaphidMaxPayloadSize
  · rw [if_pos hSize] at h
    cases h
  · rw [if_neg hSize] at h
    cases h
    exact ⟨rfl, by omega⟩

theorem responseParameters_encodeCbor {elements : List Cbor}
    (h : encodeCbor true (.map elements) = .ok payload)
    (hWellFormed : (Cbor.map elements).WellFormed) :
    responseParameters payload = some elements := by
  obtain ⟨rfl, _⟩ := encodeCbor_ok h
  rw [responseParameters, Cbor.decode_encode hWellFormed rfl]

theorem wellFormed_makeCredentialItem {signData : Bytes}
    (hSize : (makeCredentialItem authData signData).encode.length < ctaphidMaxPayloadSize) :
    (makeCredentialItem authData signData).WellFormed := by
  simp only [makeCredentialItem, Cbor.encode, Cbor.encodeAll, List.length_append,
    ctaphidMaxPayloadSize] at hSize
  simp only [makeCredentialItem, Cbor.WellFormed, Cbor.AllWellFormed, Cbor.counted, Cbor.isTag,
    es256, Bool.false_eq_true, if_false, false_implies, true_and, and_true]
  omega

theorem attestation_readable {signData : Bytes}
    (h : buildAuthenticatorMakeCredentialResponse authData signData = .ok payload) :
    authDataOf payload = some authData ∧ credentialIdOf payload = none := by
  have hWellFormed := wellFormed_makeCredentialItem (encodeCbor_ok h).2
  have hParameters := responseParameters_encodeCbor h hWellFormed
  exact ⟨by rw [authDataOf, hParameters]; rfl, by rw [credentialIdOf, hParameters]; rfl⟩

theorem wellFormed_assertionItem {signature : Bytes} {uv includeUser : Bool}
    (hSize : (assertionItem authData signature uv credential includeUser number).encode.length <
      ctaphidMaxPayloadSize) :
    (assertionItem authData signature uv credential includeUser number).WellFormed := by
  -- Each of the optional members is there or not.
  cases uv <;> cases includeUser <;> cases number <;>
    simp only [assertionItem, userItem, Cbor.encode, Cbor.encodeAll, List.length_append,
      List.cons_append, List.nil_append, List.append_nil, Bool.false_eq_true, if_false, if_true,
      ctaphidMaxPayloadSize] at hSize <;>
    simp only [assertionItem, userItem, Cbor.WellFormed, Cbor.AllWellFormed, Cbor.counted,
      Cbor.isTag, List.cons_append, List.nil_append, List.append_nil, Bool.false_eq_true,
      if_false, if_true, false_implies, true_and, and_true] <;>
    omega

theorem assertion_readable {signature : Bytes} {uv includeUser : Bool}
    (h : buildAuthenticatorGetAssertionResponse authData signature uv credential includeUser number =
      .ok payload) :
    authDataOf payload = some authData ∧ credentialIdOf payload = some credential.id := by
  have hWellFormed := wellFormed_assertionItem (encodeCbor_ok h).2
  have hParameters := responseParameters_encodeCbor h hWellFormed
  exact ⟨by rw [authDataOf, hParameters]; rfl, by rw [credentialIdOf, hParameters]; rfl⟩

theorem encodeCbor_length {item : Cbor} (h : encodeCbor true item = .ok payload) :
    1 < payload.length ∧ payload.length ≤ ctaphidMaxPayloadSize := by
  obtain ⟨rfl, hSize⟩ := encodeCbor_ok h
  have hPos := Cbor.length_encode_pos item
  rw [List.length_cons]
  omega

end VAuth.Ctap
