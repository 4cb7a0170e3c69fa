import VAuth.Store.Hex
import VAuth.Store.Json
import Mathlib.Data.List.Basic

/-!
# Credentials and the document of the store

`validate_credential`, the JSON document `save_storage` builds, and `parse_storage`, which
reads it back. A map the store keeps is `Storage.Valid`: every credential passes
`validate_credential`, is filed under its own id, and there are at most `MAX_CREDENTIALS`
of them. `parseStorage_document` is the round trip for such a map, in whatever order the
hash table lists it.
-/

namespace VAuth.Store

def maxStoreSize : Nat := 16 * 1024 * 1024

def maxCredentials : Nat := 4096

def maxCredentialBlobSize : Nat := 4096

structure StoredCredential where
  id : Bytes
  ownerUid : UInt32 := 0
  rpId : Bytes
  userId : Bytes
  userName : Bytes
  userDisplayName : Bytes
  alg : Int32
  signCount : UInt32
  privateBlob : Bytes
  publicBlob : Bytes
  discoverable : Bool := false
  creationOrder : UInt64 := 0
deriving DecidableEq

/-- `CredentialStore::Storage`: credentials under the hexadecimal form of their id. -/
abbrev Storage := Std.ExtTreeMap Bytes StoredCredential compare

def validateCredential (credential : StoredCredential) : Except Exn Unit := do
  if credential.id.length < 16 ∨ credential.id.length > 1024 then
    throw (.invalidArgument "Credential ID must contain between 16 and 1024 bytes")
  if credential.rpId = [] ∨ credential.rpId.length > 253 then
    throw (.invalidArgument "Relying Party ID must contain between 1 and 253 bytes")
  if credential.userId = [] ∨ credential.userId.length > 64 then
    throw (.invalidArgument "User ID must contain between 1 and 64 bytes")
  if credential.alg ≠ -7 then
    throw (.invalidArgument "Unsupported credential algorithm")
  if credential.privateBlob = [] ∨ credential.privateBlob.length > maxCredentialBlobSize then
    throw (.invalidArgument "Invalid private credential blob size")
  if credential.publicBlob = [] ∨ credential.publicBlob.length > maxCredentialBlobSize then
    throw (.invalidArgument "Invalid public credential blob size")
  if credential.creationOrder = 0 then
    throw (.invalidArgument "Credential creation order must be non-zero")

/-! ## Writing -/

def byteArray (bytes : Bytes) : Json := .arr (bytes.map fun b => .num b.toNat)

/-- One element of the array `save_storage` builds, its members in the order of the
`std::map` that holds them. -/
def credentialDocument (cred : StoredCredential) : Json := .obj [
  ("alg", .num cred.alg.toInt),
  ("creationOrder", .num cred.creationOrder.toNat),
  ("discoverable", .bool cred.discoverable),
  ("id", .str (hexEncode cred.id)),
  ("ownerUid", .num cred.ownerUid.toNat),
  ("private_blob", byteArray cred.privateBlob),
  ("public_blob", byteArray cred.publicBlob),
  ("rpId", .str cred.rpId),
  ("signCount", .num cred.signCount.toNat),
  ("userDisplayName", .str cred.userDisplayName),
  ("userId", .str (hexEncode cred.userId)),
  ("userName", .str cred.userName)]

/-- The document of the items of a map, in the order the hash table lists them. -/
def storageDocument (items : List (Bytes × StoredCredential)) : Json :=
  .arr (items.map fun item => credentialDocument item.2)

/-! ## Reading -/

/-- The loop of `read_byte_array`. -/
def readBytes (fieldName : String) : List Json → Except Exn Bytes
  | [] => .ok []
  | element :: rest => do
      if ¬ element.isNumberUnsigned then
        throw (.runtimeError (fieldName ++ " contains a value that is not an unsigned integer"))
      if element.unsigned > 255 then
        throw (.runtimeError (fieldName ++ " contains a value above 255"))
      let bytes ← readBytes fieldName rest
      return UInt8.ofNat element.unsigned :: bytes

def readByteArray (entry : Json) (fieldName : String) : Except Exn Bytes := do
  match ← entry.field fieldName with
  | .arr elements =>
    if elements.length > maxCredentialBlobSize then
      throw (.runtimeError (fieldName ++ " exceeds the size limit"))
    readBytes fieldName elements
  | _ => throw (.runtimeError (fieldName ++ " is not a byte array"))

/-- The checks and reads of one element of the array in `parse_storage`. -/
def parseEntry (entry : Json) : Except Exn StoredCredential := do
  match entry with
  | .obj _ => pure ()
  | _ => throw (.runtimeError "Storage entry is not an object")
  let id ← hexDecode (← (← entry.field "id").getString)
  if id.length < 16 then throw (.runtimeError "Invalid Credential ID")
  let ownerUid ← entry.field "ownerUid"
  if ¬ ownerUid.isNumberUnsigned then
    throw (.runtimeError "Invalid credential owner UID type")
  if ownerUid.unsigned > 4294967295 then
    throw (.runtimeError "Credential owner UID is out of range")
  let discoverable ← match ← entry.field "discoverable" with
    | .bool b => pure b
    | _ => throw (.runtimeError "Invalid discoverable credential type")
  let creationOrder ← entry.field "creationOrder"
  if ¬ creationOrder.isNumberUnsigned then
    throw (.runtimeError "Invalid credential creation order type")
  if UInt64.ofNat creationOrder.unsigned = 0 then
    throw (.runtimeError "Invalid credential creation order")
  let rpId ← (← entry.field "rpId").getString
  if rpId = [] then throw (.runtimeError "Empty Relying Party ID")
  let userId ← hexDecode (← (← entry.field "userId").getString)
  if userId = [] ∨ userId.length > 64 then throw (.runtimeError "Invalid User ID")
  let userName ← (← entry.field "userName").getString
  let userDisplayName ← (← entry.field "userDisplayName").getString
  let alg ← (← entry.field "alg").getInt
  if alg ≠ -7 then throw (.runtimeError "Invalid encryption alrogithm")
  let signCount ← entry.field "signCount"
  if ¬ signCount.isNumberUnsigned then throw (.runtimeError "Invalid Sign Count type")
  if signCount.unsigned > 4294967295 then throw (.runtimeError "Sign Count out of range")
  let publicBlob ← readByteArray entry "public_blob"
  let privateBlob ← readByteArray entry "private_blob"
  let cred : StoredCredential :=
    { id, ownerUid := UInt32.ofNat ownerUid.unsigned, rpId, userId, userName, userDisplayName, alg,
      signCount := UInt32.ofNat signCount.unsigned, privateBlob, publicBlob, discoverable,
      creationOrder := UInt64.ofNat creationOrder.unsigned }
  validateCredential cred
  return cred

/-- The loop of `parse_storage`, from the entries read so far. -/
def parseEntries : Storage → List Json → Except Exn Storage
  | loaded, [] => .ok loaded
  | loaded, entry :: rest => do
      let cred ← parseEntry entry
      if (hexEncode cred.id) ∈ loaded then throw (.runtimeError "Duplicate Credential ID")
      parseEntries (loaded.insert (hexEncode cred.id) cred) rest

def parseStorage : Json → Except Exn Storage
  | .arr entries =>
    if entries.length > maxCredentials then
      .error (.runtimeError "Credential store contains too many credentials")
    else parseEntries {} entries
  | _ => .error (.runtimeError "Storage is not an array")

/-! ## The round trip -/

theorem validateCredential_ok_iff {c : StoredCredential} :
    validateCredential c = .ok () ↔ (16 ≤ c.id.length ∧ c.id.length ≤ 1024) ∧
      (c.rpId ≠ [] ∧ c.rpId.length ≤ 253) ∧ (c.userId ≠ [] ∧ c.userId.length ≤ 64) ∧
      c.alg = -7 ∧ (c.privateBlob ≠ [] ∧ c.privateBlob.length ≤ maxCredentialBlobSize) ∧
      (c.publicBlob ≠ [] ∧ c.publicBlob.length ≤ maxCredentialBlobSize) ∧ c.creationOrder ≠ 0 := by
  unfold validateCredential
  simp only [bind, Except.bind, pure, Except.pure, throw, throwThe, MonadExceptOf.throw]
  constructor
  · intro h
    repeat' split at h <;> try contradiction
    simp_all
  · rintro ⟨⟨h1, h2⟩, ⟨h3, h4⟩, ⟨h5, h6⟩, h7, ⟨h8, h9⟩, ⟨h10, h11⟩, h12⟩
    simp [*, Nat.not_lt.mpr]

theorem readBytes_byteArray (fieldName : String) (bytes : Bytes) :
    readBytes fieldName (bytes.map fun b => .num b.toNat) = .ok bytes := by
  induction bytes with
  | nil => rfl
  | cons b bytes ih =>
    have hb : b.toNat ≤ 255 := by have := b.toNat_lt; omega
    rw [List.map_cons, readBytes, ih]
    simp [Json.isNumberUnsigned, Json.unsigned, bind, Except.bind, pure, Except.pure,
      Nat.not_lt.mpr hb]

theorem readByteArray_of_field {entry : Json} {fieldName : String} {bytes : Bytes}
    (hField : entry.field fieldName = .ok (byteArray bytes))
    (hSize : bytes.length ≤ maxCredentialBlobSize) : readByteArray entry fieldName = .ok bytes := by
  simp only [readByteArray, hField, byteArray, bind, Except.bind, List.length_map,
    readBytes_byteArray, if_neg (Nat.not_lt.mpr hSize)]

theorem parseEntry_credentialDocument {c : StoredCredential} (h : validateCredential c = .ok ()) :
    parseEntry (credentialDocument c) = .ok c := by
  obtain ⟨⟨hId, _⟩, ⟨hRp, _⟩, ⟨hUser, hUserSize⟩, hAlg, ⟨_, hPrivate⟩, ⟨_, hPublic⟩, hOrder⟩ :=
    validateCredential_ok_iff.mp h
  have hPublicField : readByteArray (credentialDocument c) "public_blob" = .ok c.publicBlob :=
    readByteArray_of_field rfl hPublic
  have hPrivateField : readByteArray (credentialDocument c) "private_blob" = .ok c.privateBlob :=
    readByteArray_of_field rfl hPrivate
  have hOwner : ¬ c.ownerUid.toNat > 4294967295 := by have := c.ownerUid.toNat_lt; omega
  have hCount : ¬ c.signCount.toNat > 4294967295 := by have := c.signCount.toNat_lt; omega
  have hUserOk : ¬ (c.userId = [] ∨ c.userId.length > 64) := by
    simpa [hUser] using hUserSize
  obtain ⟨id, ownerUid, rpId, userId, userName, userDisplayName, alg, signCount, privateBlob,
    publicBlob, discoverable, creationOrder⟩ := c
  subst hAlg
  unfold parseEntry
  rw [hPublicField, hPrivateField]
  simp [credentialDocument, Json.field, List.lookup_cons, Json.getString, Json.getInt, Json.unsigned,
    Json.isNumberUnsigned, hexDecode_hexEncode, bind, Except.bind, pure, Except.pure,
    Nat.not_lt.mpr hId, hOwner, hCount, hRp, hUserOk, hOrder, h]

/-! ## Maps the store keeps -/

/-- What every map the store keeps satisfies. -/
structure Storage.Valid (m : Storage) : Prop where
  key : ∀ (k : Bytes) (c : StoredCredential), m[k]? = some c → k = hexEncode c.id
  credential : ∀ (k : Bytes) (c : StoredCredential), m[k]? = some c → validateCredential c = .ok ()
  size : m.size ≤ maxCredentials

theorem Storage.valid_empty : Storage.Valid {} where
  key := by simp
  credential := by simp
  size := by simp

/-- The loop of `parse_storage` over documents of valid credentials with different keys
files each of them. -/
theorem parseEntries_documents (items : List (Bytes × StoredCredential)) (loaded : Storage)
    (hKey : ∀ item ∈ items, item.1 = hexEncode item.2.id)
    (hValid : ∀ item ∈ items, validateCredential item.2 = .ok ())
    (hDistinct : items.Pairwise fun a b => a.1 ≠ b.1) (hFresh : ∀ item ∈ items, item.1 ∉ loaded) :
    parseEntries loaded (items.map fun item => credentialDocument item.2) =
      .ok (loaded.insertMany items) := by
  induction items generalizing loaded with
  | nil => simp [parseEntries]
  | cons item items ih =>
    obtain ⟨key, cred⟩ := item
    obtain ⟨hHead, hTail⟩ := List.pairwise_cons.mp hDistinct
    have hItem : key = hexEncode cred.id := hKey _ List.mem_cons_self
    have hNew : key ∉ loaded := hFresh _ List.mem_cons_self
    have hRest := ih (loaded.insert key cred) (fun x hx => hKey x (List.mem_cons_of_mem _ hx))
      (fun x hx => hValid x (List.mem_cons_of_mem _ hx)) hTail (by
        intro x hx hMem
        rcases Std.ExtTreeMap.mem_insert.mp hMem with hEq | hOld
        · exact hHead x hx (Std.LawfulEqCmp.eq_of_compare hEq)
        · exact hFresh x (List.mem_cons_of_mem _ hx) hOld)
    rw [List.map_cons, parseEntries, parseEntry_credentialDocument (hValid _ List.mem_cons_self)]
    simp only [bind, Except.bind, ← hItem, if_neg hNew, hRest, Std.ExtTreeMap.insertMany_cons]

/-- **The document of a valid map reads back as that map**, in whatever order its items
are listed. -/
theorem parseStorage_document {m : Storage} (hm : m.Valid) {items : List (Bytes × StoredCredential)}
    (hItems : items.Perm m.toList) : parseStorage (storageDocument items) = .ok m := by
  have hMem : ∀ item ∈ items, m[item.1]? = some item.2 := by
    intro item hItem
    exact Std.ExtTreeMap.mem_toList_iff_getElem?_eq_some.mp (hItems.mem_iff.mp hItem)
  have hKeys : items.Pairwise fun a b => ¬ compare a.1 b.1 = .eq :=
    (hItems.pairwise_iff fun {a b} h hEq => h (Std.OrientedCmp.eq_symm hEq)).mpr
      Std.ExtTreeMap.distinct_keys_toList
  have hDistinct : items.Pairwise fun a b => a.1 ≠ b.1 :=
    hKeys.imp fun h hEq => h (by rw [hEq]; exact Std.ReflCmp.compare_self)
  have hSize : ¬ (items.map fun item => credentialDocument item.2).length > maxCredentials := by
    rw [List.length_map, hItems.length_eq, Std.ExtTreeMap.length_toList]
    exact Nat.not_lt.mpr hm.size
  have hLoaded : ({} : Storage).insertMany items = m := by
    refine Std.ExtTreeMap.ext_getElem? fun k => ?_
    cases hk : m[k]? with
    | some c =>
      have hIn : (k, c) ∈ items :=
        hItems.mem_iff.mpr (Std.ExtTreeMap.mem_toList_iff_getElem?_eq_some.mpr hk)
      exact Std.ExtTreeMap.getElem?_insertMany_list_of_mem Std.ReflCmp.compare_self hKeys hIn
    | none =>
      rw [Std.ExtTreeMap.getElem?_insertMany_list_of_contains_eq_false, Std.ExtTreeMap.getElem?_empty]
      simp only [List.contains_eq_mem, decide_eq_false_iff_not, List.mem_map, not_exists, not_and]
      intro item hItem hEq
      have hSome := hMem item hItem
      rw [hEq, hk] at hSome
      cases hSome
  rw [storageDocument, parseStorage, if_neg hSize, parseEntries_documents items {}
    (fun item h => hm.key _ _ (hMem item h)) (fun item h => hm.credential _ _ (hMem item h))
    hDistinct (by simp), hLoaded]

end VAuth.Store
