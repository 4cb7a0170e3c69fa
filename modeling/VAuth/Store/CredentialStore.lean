import VAuth.Store.File

/-!
# The credential store

`CredentialStore`: `save_storage`, `load` and the operations that change the map. An operation
computes the changed map from the map in memory, saves it and then swaps it in (`commit`); the
operations differ in the map they compute.
-/

namespace VAuth.Store

def maxUInt64 : UInt64 := 18446744073709551615

/-! ## Saving and loading -/

/-- The `try` block of `save_storage`. -/
def advanceCounter (next : UInt64) : StoreProc Unit := do
  incrementCounter
  if (← readCounter) ≠ next then
    throw (.runtimeError "Credential store counter did not advance exactly once")

/-- Its `catch` block: the counter may have advanced all the same. -/
def recheckCounter (next : UInt64) (e : Exn) : StoreProc Unit := do
  Proc.modify fun w => { w with store.requiresReload := true }
  if (← readCounter) ≠ next then throw e
  Proc.modify fun w => { w with store.requiresReload := false }

/-- `encrypt` with the random nonce it draws. -/
def encryptDocument (P : Platform) (plaintext : Bytes) (generation : UInt64) : StoreProc Bytes :=
  Proc.observe fun a _ =>
    if a.fails .randomBytes then .error (throwOpensslError P "RAND_bytes")
    else if a.fails .cipher then .error (throwOpensslError P "EVP_EncryptInit_ex")
    else encrypt P a.nonce plaintext generation

def saveStorage (P : Platform) (storage : Storage) : StoreProc Unit := do
  let store ← Proc.read World.store
  if store.requiresReload then
    throw (.runtimeError "Credential store must be reloaded after an interrupted commit")
  let currentGeneration ← readCounter
  if currentGeneration ≠ store.generation then
    throw (.runtimeError "Credential store generation changed unexpectedly")
  if currentGeneration = maxUInt64 then
    throw (.overflowError "Credential store generation overflow")
  let nextGeneration := currentGeneration + 1
  match P.dump (storageDocument (P.iterate storage)) with
  | none => throw (.jsonError "invalid UTF-8 byte")
  | some plaintext =>
    let encrypted ← encryptDocument P plaintext nextGeneration
    atomicWriteFile encrypted
    tryCatch (advanceCounter nextGeneration) (recheckCounter nextGeneration)
    Proc.modify fun w => { w with store.generation := nextGeneration }

/-- The checks of `load` on the generation of the file and the counter. -/
def checkGeneration (generation counter : UInt64) : Except Exn Unit :=
  if generation < counter then .error (.runtimeError "Credential store rollback detected")
  else if generation > counter ∧ (counter = maxUInt64 ∨ generation ≠ counter + 1) then
    .error (.runtimeError "Credential store generation is inconsistent")
  else .ok ()

/-- The map in the plaintext of an envelope. -/
def parsePlaintext (P : Platform) (plaintext : Bytes) : Except Exn Storage :=
  match P.parse plaintext with
  | none => .error (.jsonError "parse error")
  | some json => parseStorage json

def decryptStore (P : Platform) (encrypted : Bytes) : StoreProc DecryptedStore :=
  Proc.observe fun a _ =>
    if a.fails .cipher then .error (throwOpensslError P "EVP_DecryptInit_ex")
    else decrypt P encrypted

/-- The crash recovery of `load`: the counter catches up with a file that is ahead. -/
def recoverCounter (generation counterGeneration : UInt64) : StoreProc Unit := do
  if generation = counterGeneration + 1 then
    incrementCounter
    if (← readCounter) ≠ generation then
      throw (.runtimeError "Credential store crash recovery counter verification failed")

def load (P : Platform) : StoreProc Unit := do
  match ← readStoreFile with
  | none =>
    if (← readCounter) ≠ 0 then
      throw (.runtimeError "Credential store is missing but its rollback counter is not zero")
    Proc.modify fun w => { w with store := {} }
  | some encrypted =>
    let decrypted ← decryptStore P encrypted
    let counterGeneration ← readCounter
    Proc.ofExcept (checkGeneration decrypted.generation counterGeneration)
    let loaded ← Proc.ofExcept (parsePlaintext P decrypted.plaintext)
    recoverCounter decrypted.generation counterGeneration
    Proc.modify fun w => { w with
      store := { stored := loaded, generation := decrypted.generation, requiresReload := false } }

/-! ## Operations that change the map -/

namespace CredentialStore

def requireReady (store : CredentialStore) : Except Exn Unit :=
  if store.requiresReload then
    .error (.runtimeError "Credential store must be reloaded after an interrupted commit")
  else .ok ()

/-- The entries a discoverable credential replaces. -/
def supersedes (cred existing : StoredCredential) : Bool :=
  existing.discoverable && existing.ownerUid == cred.ownerUid && existing.rpId == cred.rpId &&
    existing.userId == cred.userId

/-- The map `put` saves. -/
def afterPut (store : CredentialStore) (cred : StoredCredential) (ownerUid : UInt32) :
    Except Exn Storage := do
  store.requireReady
  if store.generation = maxUInt64 then
    throw (.overflowError "Credential store generation overflow")
  let storedCredential := { cred with ownerUid, creationOrder := store.generation + 1 }
  validateCredential storedCredential
  let credentialId := hexEncode storedCredential.id
  if credentialId ∈ store.stored then throw (.invalidArgument "Credential ID already exists")
  let updated := if storedCredential.discoverable then
    store.stored.filter fun _ existing => !supersedes storedCredential existing
    else store.stored
  if updated.size ≥ maxCredentials then
    throw (.runtimeError "Credential store contains too many credentials")
  return updated.insert credentialId storedCredential

/-- `get_by_credId`, which also is the lookup of `erase` and `incrementSigCount`. -/
def getByCredId (store : CredentialStore) (credId : Bytes) (ownerUid : UInt32) :
    Except Exn StoredCredential := do
  store.requireReady
  match store.stored[hexEncode credId]? with
  | some credential =>
    if credential.ownerUid ≠ ownerUid then
      throw (.outOfRange "Credential ID was not found for local user")
    return credential
  | none => throw (.outOfRange "Credential ID was not found for local user")

/-- The map `erase` saves. -/
def afterErase (store : CredentialStore) (credentialId : Bytes) (ownerUid : UInt32) :
    Except Exn Storage := do
  let _ ← store.getByCredId credentialId ownerUid
  return store.stored.erase (hexEncode credentialId)

/-- The map `incrementSigCount` saves. -/
def afterIncrement (store : CredentialStore) (credId : Bytes) (ownerUid : UInt32) :
    Except Exn Storage := do
  let current ← store.getByCredId credId ownerUid
  if current.signCount = 4294967295 then
    throw (.overflowError "Signature counter cannot be incremented")
  return store.stored.insert (hexEncode credId) { current with signCount := current.signCount + 1 }

end CredentialStore

variable {store : CredentialStore}

theorem requireReady_ok {u : Unit} (h : store.requireReady = .ok u) :
    store.requiresReload = false := by
  unfold CredentialStore.requireReady at h
  split at h
  · cases h
  · rename_i hReady
    exact Bool.eq_false_iff.mpr hReady

theorem requireReady_eq (h : store.requiresReload = false) : store.requireReady = .ok () :=
  if_neg (Bool.eq_false_iff.mp h)

/-- Save the map `change` computes from the store in memory, then swap it in. -/
def commit (P : Platform) (change : CredentialStore → Except Exn Storage) : StoreProc Unit := do
  let store ← Proc.read World.store
  let updated ← Proc.ofExcept (change store)
  saveStorage P updated
  Proc.modify fun w => { w with store.stored := updated }

def put (P : Platform) (cred : StoredCredential) (ownerUid : UInt32) : StoreProc Unit :=
  commit P fun store => store.afterPut cred ownerUid

def erase (P : Platform) (credentialId : Bytes) (ownerUid : UInt32) : StoreProc Unit :=
  commit P fun store => store.afterErase credentialId ownerUid

def incrementSigCount (P : Platform) (credId : Bytes) (ownerUid : UInt32) : StoreProc Unit :=
  commit P fun store => store.afterIncrement credId ownerUid

/-- `clear` asks for no ready store; `save_storage` does. -/
def clear (P : Platform) : StoreProc Unit := commit P fun _ => .ok {}

end VAuth.Store
