import VAuth.Format.Cbor
import VAuth.Interaction.User
import VAuth.Store.Query

/-!
# CTAP requests

`parseRequest` of `CTAPMakeCredentialRequest` and `CTAPGetAssertionRequest`, over the
elements that TinyCBOR's cursor visits. A reader takes the next elements off the cursor;
where the source throws `cbor::Error`, which both parsers catch and turn into `false`, it
fails.
-/

namespace VAuth.Ctap

open Store

/-! ## The cursor -/

/-- A function that moves a `CborValue` cursor, given by the elements still ahead. -/
abbrev Reader := StateT (List Cbor) Option

def readText (maxLength : Nat) : Reader Bytes := do
  match ← get with
  | .text contents :: rest =>
    if contents.length > maxLength then failure
    set rest
    return contents
  | _ => failure

def readBytes (maxLength : Nat) : Reader Bytes := do
  match ← get with
  | .bytes contents :: rest =>
    if contents.length > maxLength then failure
    set rest
    return contents
  | _ => failure

def readUint : Reader UInt64 := do
  match ← get with
  | .uint n :: rest =>
    set rest
    return n
  | _ => failure

/-- `cbor_value_get_int64` does not check the range. -/
def readInt : Reader Int64 := do
  match ← get with
  | .uint n :: rest =>
    set rest
    return n.toInt64
  | .negative n :: rest =>
    set rest
    return (~~~n).toInt64
  | _ => failure

def readBool : Reader Bool := do
  match ← get with
  | .special 20 _ :: rest =>
    set rest
    return false
  | .special 21 _ :: rest =>
    set rest
    return true
  | _ => failure

/-- `cbor_value_advance`, which takes a tag for an element of its own. -/
def skip : Reader Unit := do
  match ← get with
  | _ :: rest => set rest
  | [] => failure

/-- `while(!cbor_value_at_end(&contents)) function(contents)`: every call takes at least one
element. -/
def untilEnd {σ : Type} (function : σ → Reader σ) : Nat → σ → List Cbor → Option σ
  | _, s, [] => some s
  | 0, _, _ :: _ => none
  | fuel + 1, s, elements => do
      let (s', rest) ← function s elements
      untilEnd function fuel s' rest

def readMap {σ : Type} (init : σ) (function : σ → Reader σ) : Reader σ := do
  match ← get with
  | .map elements :: rest =>
    let s ← (untilEnd function elements.length init elements : Option σ)
    set rest
    return s
  | _ => failure

def readArray {σ : Type} (init : σ) (function : σ → Reader σ) : Reader σ := do
  match ← get with
  | .array elements :: rest =>
    let s ← (untilEnd function elements.length init elements : Option σ)
    set rest
    return s
  | _ => failure

/-- `require_unique`: the set with the new key. -/
def requireUnique {α : Type} [BEq α] (seen : List α) (key : α) : Reader (List α) :=
  if seen.contains key then failure else return key :: seen

/-! ## Members shared by both requests -/

def clientDataHashLength : Nat := 32
def maxRpIdLength : Nat := 253
def maxEntityTextLength : Nat := 64
def maxUserIdLength : Nat := 64
def maxCredentialIdLength : Nat := 7609
def maxExtensionNameLength : Nat := 64
def maxTransportNameLength : Nat := 32
def maxPinAuthLength : Nat := 64

/-- A map with text keys: each key is read, checked to be new and handed to `member`. -/
def readMembers {σ : Type} (maxLength : Nat) (init : σ) (member : Bytes → σ → Reader σ) :
    Reader (σ × List Bytes) :=
  readMap (init, []) fun (s, seen) => do
    let key ← readText maxLength
    let seen ← requireUnique seen key
    return (← member key s, seen)

def readCredentialDescriptor : Reader PublicKeyCredentialDescriptor := do
  let (descriptor, seen) ← readMembers maxEntityTextLength ({} : PublicKeyCredentialDescriptor)
    fun key descriptor => do
      if key = text "type" then return { descriptor with type := ← readText maxEntityTextLength }
      else if key = text "id" then return { descriptor with id := ← readBytes maxCredentialIdLength }
      else if key = text "transports" then
        let transports ← readArray descriptor.transports fun transports => do
          return transports ++ [← readText maxTransportNameLength]
        return { descriptor with transports }
      else
        skip
        return descriptor
  if ¬ seen.contains (text "type") ∨ ¬ seen.contains (text "id") ∨ descriptor.type = [] ∨
      descriptor.id = [] then failure
  return descriptor

def readClientDataHash : Reader Bytes := do
  let hash ← readBytes clientDataHashLength
  if hash.length ≠ clientDataHashLength then failure
  return hash

def readDescriptors (init : List PublicKeyCredentialDescriptor) :
    Reader (List PublicKeyCredentialDescriptor) :=
  readArray init fun list => do return list ++ [← readCredentialDescriptor]

/-- `parse_extensions`: unsupported extensions are ignored. -/
def readExtensions : Reader Unit := do
  let _ ← readMembers maxExtensionNameLength () fun _ _ => skip

/-! ## MakeCredential -/

structure RelyingParty where
  id : Bytes := []
  name : Bytes := []

structure UserEntity where
  id : Bytes := []
  name : Bytes := []
  displayName : Bytes := []

structure PubKeyCredParam where
  type : Bytes := []
  alg : Int32 := 0

/-- The object after `clear`. Its map of options always has the keys `rk` and `uv` and no
other. -/
structure CTAPMakeCredentialRequest where
  rp : RelyingParty := {}
  user : UserEntity := {}
  clientDataHash : Bytes := []
  publicKeyCredParams : List PubKeyCredParam := []
  excludeList : List PublicKeyCredentialDescriptor := []
  rk : Bool := false
  uv : Bool := false
  upOptionPresent : Bool := false
  pinAuthPresent : Bool := false
  pinProtocolPresent : Bool := false

namespace CTAPMakeCredentialRequest

def parseRp : Reader RelyingParty := do
  let (rp, seen) ← readMembers maxEntityTextLength ({} : RelyingParty) fun key rp => do
    if key = text "id" then return { rp with id := ← readText maxRpIdLength }
    else if key = text "name" then return { rp with name := ← readText maxEntityTextLength }
    else
      skip
      return rp
  if ¬ seen.contains (text "id") ∨ rp.id = [] then failure
  return rp

def parseUser : Reader UserEntity := do
  let (user, seen) ← readMembers maxEntityTextLength ({} : UserEntity) fun key user => do
    if key = text "id" then return { user with id := ← readBytes maxUserIdLength }
    else if key = text "name" then return { user with name := ← readText maxEntityTextLength }
    else if key = text "displayName" then
      return { user with displayName := ← readText maxEntityTextLength }
    else
      skip
      return user
  if ¬ seen.contains (text "id") then failure
  return user

def parsePubkeyParam : Reader PubKeyCredParam := do
  let (parameter, seen) ← readMembers maxEntityTextLength ({} : PubKeyCredParam)
    fun key parameter => do
      if key = text "type" then return { parameter with type := ← readText maxEntityTextLength }
      else if key = text "alg" then
        let algorithm ← readInt
        if algorithm.toInt < -2147483648 ∨ algorithm.toInt > 2147483647 then failure
        return { parameter with alg := algorithm.toInt32 }
      else
        skip
        return parameter
  if ¬ seen.contains (text "type") ∨ ¬ seen.contains (text "alg") then failure
  return parameter

def parseOptions (request : CTAPMakeCredentialRequest) : Reader CTAPMakeCredentialRequest := do
  let (request, _) ← readMembers maxEntityTextLength request fun name request => do
    if name = text "rk" then return { request with rk := ← readBool }
    else if name = text "uv" then return { request with uv := ← readBool }
    else if name = text "up" then
      let _ ← readBool
      return { request with upOptionPresent := true }
    else
      skip
      return request
  return request

/-- The entry of `dispatch_table` for a key, or `cbor::skip`. -/
def parseParameter (key : UInt64) (request : CTAPMakeCredentialRequest) :
    Reader CTAPMakeCredentialRequest := do
  match key.toNat with
  | 1 => return { request with clientDataHash := ← readClientDataHash }
  | 2 => return { request with rp := ← parseRp }
  | 3 => return { request with user := ← parseUser }
  | 4 =>
    let parameters ← readArray request.publicKeyCredParams fun parameters => do
      return parameters ++ [← parsePubkeyParam]
    return { request with publicKeyCredParams := parameters }
  | 5 => return { request with excludeList := ← readDescriptors request.excludeList }
  | 6 =>
    readExtensions
    return request
  | 7 => parseOptions request
  | 8 =>
    let _ ← readBytes maxPinAuthLength
    return { request with pinAuthPresent := true }
  | 9 =>
    let _ ← readUint
    return { request with pinProtocolPresent := true }
  | _ =>
    skip
    return request

end CTAPMakeCredentialRequest

/-- The loop of both `parseRequest` functions over the map at the root, with the keys that
are required. -/
def parseRoot {σ : Type} (parameter : UInt64 → σ → Reader σ) (required : List UInt64) (init : σ)
    (root : Cbor) : Option σ := do
  let ((request, seen), _) ← readMap (init, ([] : List UInt64)) (fun (request, seen) => do
    let key ← readUint
    let seen ← requireUnique seen key
    return (← parameter key request, seen)) [root]
  if required.all seen.contains then return request else none

/-- How TinyCBOR's cursor sees a payload: the data item at its start, which has no tag, and the
bytes behind this item. -/
abbrev Walk := Bytes → Option (Cbor × Bytes)

/-- The cursor has to be at the end of the payload. -/
def requireComplete (rest : Bytes) : Option Unit := if rest = [] then return else none

/-- Both `parseRequest` functions: the map at the root, and nothing after it. -/
def parsePayload {σ : Type} (walk : Walk) (parse : Cbor → Option σ) (payload : Bytes) :
    Option σ := do
  let (root, rest) ← walk payload
  let request ← parse root
  requireComplete rest
  return request

theorem parsePayload_eq_some {σ : Type} {walk : Walk} {parse : Cbor → Option σ} {payload : Bytes}
    {request : σ} : parsePayload walk parse payload = some request ↔
      ∃ root, walk payload = some (root, []) ∧ parse root = some request := by
  simp only [parsePayload, requireComplete, Option.bind_eq_bind, Option.bind_eq_some_iff]
  constructor
  · rintro ⟨⟨root, rest⟩, hWalk, parsed, hParse, _, hRest, hSame⟩
    cases hSame
    split at hRest
    · rename_i hEnd
      exact ⟨root, hEnd ▸ hWalk, hParse⟩
    · cases hRest
  · rintro ⟨root, hWalk, hParse⟩
    exact ⟨(root, []), hWalk, request, hParse, (), rfl, rfl⟩

def CTAPMakeCredentialRequest.parseRequest (walk : Walk) (payload : Bytes) :
    Option CTAPMakeCredentialRequest :=
  parsePayload walk (parseRoot parseParameter [1, 2, 3, 4] {}) payload

def RelyingParty.clear (rp : RelyingParty) : RelyingParty := { rp with id := [], name := [] }

def UserEntity.clear (user : UserEntity) : UserEntity :=
  { user with id := [], name := [], displayName := [] }

def CTAPMakeCredentialRequest.clear (request : CTAPMakeCredentialRequest) :
    CTAPMakeCredentialRequest :=
  { request with
    rp := request.rp.clear
    user := request.user.clear
    clientDataHash := []
    publicKeyCredParams := []
    rk := false
    uv := false
    excludeList := []
    upOptionPresent := false
    pinAuthPresent := false
    pinProtocolPresent := false }

/-- `parseRequest` on an object that may have been used before: what it returns, and the
object. -/
def CTAPMakeCredentialRequest.parseInto (walk : Walk) (payload : Bytes)
    (request : CTAPMakeCredentialRequest) : Bool × CTAPMakeCredentialRequest :=
  match parsePayload walk (parseRoot parseParameter [1, 2, 3, 4] request.clear) payload with
  | some request => (true, request)
  | none => (false, request.clear)

/-! ## GetAssertion -/

/-- The continuation of a GetAssertion with several matches. -/
structure AssertionSequence where
  credentials : List StoredCredential := []
  index : Nat := 0
  originCid : UInt32 := 0
  ownerContext : Option UserContextBinding := none
  lastUse : Int := 0

/-- The members that `parseRequest` sets, as `clear` leaves them. The map of options always
has the keys `uv` and `up` and no other. -/
structure AssertionParameters where
  rpId : Bytes := []
  clientDataHash : Bytes := []
  allowList : List PublicKeyCredentialDescriptor := []
  uv : Bool := false
  up : Bool := true
  rkOptionPresent : Bool := false
  pinAuthPresent : Bool := false
  pinProtocolPresent : Bool := false

/-- The object after `clear`. -/
structure CTAPGetAssertionRequest extends AssertionParameters where
  userPresent : Bool := false
  userVerified : Bool := false
  sequence : AssertionSequence := {}

namespace CTAPGetAssertionRequest

def parseOptions (request : AssertionParameters) : Reader AssertionParameters := do
  let (request, _) ← readMembers maxEntityTextLength request fun name request => do
    if name = text "up" then return { request with up := ← readBool }
    else if name = text "uv" then return { request with uv := ← readBool }
    else if name = text "rk" then
      let _ ← readBool
      return { request with rkOptionPresent := true }
    else
      skip
      return request
  return request

def parseRpId : Reader Bytes := do
  let rpId ← readText maxRpIdLength
  if rpId = [] then failure
  return rpId

/-- The entry of `dispatch_table` for a key, or `cbor::skip`. -/
def parseParameter (key : UInt64) (request : AssertionParameters) :
    Reader AssertionParameters := do
  match key.toNat with
  | 1 => return { request with rpId := ← parseRpId }
  | 2 => return { request with clientDataHash := ← readClientDataHash }
  | 3 => return { request with allowList := ← readDescriptors request.allowList }
  | 4 =>
    readExtensions
    return request
  | 5 => parseOptions request
  | 6 =>
    let _ ← readBytes maxPinAuthLength
    return { request with pinAuthPresent := true }
  | 7 =>
    let _ ← readUint
    return { request with pinProtocolPresent := true }
  | _ =>
    skip
    return request

/-- `parseRequest` clears the object first, so its earlier state plays no part. -/
def parseRequest (walk : Walk) (payload : Bytes) : Option CTAPGetAssertionRequest :=
  (parsePayload walk (parseRoot parseParameter [1, 2] {}) payload).map
    fun parameters => { parameters with }

def clear (request : CTAPGetAssertionRequest) : CTAPGetAssertionRequest :=
  { request with
    rpId := []
    clientDataHash := []
    allowList := []
    uv := false
    up := true
    rkOptionPresent := false
    pinAuthPresent := false
    pinProtocolPresent := false
    userPresent := false
    userVerified := false
    sequence := {} }

/-- `parseRequest` on an object that may have been used before. -/
def parseInto (walk : Walk) (payload : Bytes) (request : CTAPGetAssertionRequest) :
    Bool × CTAPGetAssertionRequest :=
  match parsePayload walk (parseRoot parseParameter [1, 2] request.clear.toAssertionParameters)
      payload with
  | some parameters => (true, { request.clear with toAssertionParameters := parameters })
  | none => (false, request.clear)

end CTAPGetAssertionRequest

end VAuth.Ctap
