import VAuth.Store.File

/-!
# The TPM objects of the store

`FapiStoreSecurity`: a sealed object holds the database key and the origin of the rollback
counter, an NV counter holds the counter itself, and `provision` creates both. Each command of the
TPM is one step. A command that changes the TPM may fail before or after its effect, and the TPM
refuses a command on an object that is missing, exists already or has another authorization.
-/

namespace VAuth.Store

open Proc

def keySize : Nat := 32

def counterSize : Nat := 8

def sealedMaterialSize : Nat := keySize + counterSize

def decodeUint64 (data : Bytes) : Except Exn UInt64 :=
  if data.length ≠ counterSize then
    .error (.runtimeError "TPM rollback counter has an invalid size")
  else .ok (readUint64Be data)

def encodeUint64 (value : UInt64) : Bytes := appendUint64Be [] value

/-! ## The TPM -/

inductive TpmCommand where
  | fapiInitialize
  | setAuthCallback
  | getTcti
  | esysInitialize
  | readStartupClear
  | readPermanent
  | createNv
  | nvIncrement
  | nvRead
  | getRandom
  | createSeal
  | fapiUnseal
  | deleteCounter
  | deleteKey
deriving DecidableEq

inductive Outcome where
  | succeeds
  | failsWithoutEffect
  | failsAfterEffect
deriving DecidableEq

/-- The answer of the TPM to the next command. -/
structure TpmAnswer where
  outcome : TpmCommand → Outcome
  /-- What `Tss2_RC_Decode` says of a failure. -/
  description : String
  startupClear : UInt32
  permanent : UInt32
  /-- The value a new counter gets from its first increment. -/
  initial : UInt64
  random : Vector UInt8 keySize

/-- The counter at `COUNTER_PATH`, without a value until its first increment. -/
structure NvCounter where
  authorization : Bytes
  value : Option UInt64 := none
deriving DecidableEq

/-- The object at `KEY_PATH`. -/
structure SealedObject where
  authorization : Bytes
  data : Bytes
deriving DecidableEq

structure Tpm where
  counter : Option NvCounter := none
  sealed : Option SealedObject := none
deriving DecidableEq

def tssError (a : TpmAnswer) (operation : String) : Exn :=
  .runtimeError (operation ++ " failed: " ++ a.description)

/-- A command that changes the TPM, unless the TPM refuses it. -/
def changeTpm (command : TpmCommand) (operation : String) (effect : TpmAnswer → Tpm → Option Tpm)
    (a : TpmAnswer) (tpm : Tpm) : Except Exn Unit × Tpm :=
  match effect a tpm with
  | none => (.error (tssError a operation), tpm)
  | some tpm' =>
    match a.outcome command with
    | .succeeds => (.ok (), tpm')
    | .failsWithoutEffect => (.error (tssError a operation), tpm)
    | .failsAfterEffect => (.error (tssError a operation), tpm')

def createNv (authorization : Bytes) : TpmAnswer → Tpm → Except Exn Unit × Tpm :=
  changeTpm .createNv "Fapi_CreateNv" fun _ tpm =>
    if tpm.counter.isNone then some { tpm with counter := some { authorization } } else none

/-- An increment of the counter, the first of which gives it its value. -/
def incremented (authorization : Bytes) (a : TpmAnswer) (tpm : Tpm) : Option Tpm :=
  match tpm.counter with
  | none => none
  | some counter =>
    if counter.authorization = authorization then
      some { tpm with counter := some { counter with
        value := some (counter.value.elim a.initial fun value => value + 1) } }
    else none

def nvIncrement (authorization : Bytes) (operation : String) :
    TpmAnswer → Tpm → Except Exn Unit × Tpm :=
  changeTpm .nvIncrement operation (incremented authorization)

def createSeal (authorization data : Bytes) : TpmAnswer → Tpm → Except Exn Unit × Tpm :=
  changeTpm .createSeal "Fapi_CreateSeal" fun _ tpm =>
    if tpm.sealed.isNone then some { tpm with sealed := some { authorization, data } } else none

def deleteCounter : TpmAnswer → Tpm → Except Exn Unit × Tpm :=
  changeTpm .deleteCounter "Fapi_Delete" fun _ tpm =>
    if tpm.counter.isSome then some { tpm with counter := none } else none

def deleteKey : TpmAnswer → Tpm → Except Exn Unit × Tpm :=
  changeTpm .deleteKey "Fapi_Delete" fun _ tpm =>
    if tpm.sealed.isSome then some { tpm with sealed := none } else none

/-! ## Reading -/

def readRawCounter (authorization : Bytes) (a : TpmAnswer) (tpm : Tpm) : Except Exn UInt64 :=
  match tpm.counter with
  | some ⟨objectAuthorization, some value⟩ =>
    if objectAuthorization = authorization ∧ a.outcome .nvRead = .succeeds then do
      let value ← decodeUint64 (encodeUint64 value)
      if value = 0 then
        throw (.runtimeError "TPM rollback counter is not initialized")
      return value
    else .error (tssError a "Fapi_NvRead rollback counter")
  | _ => .error (tssError a "Fapi_NvRead rollback counter")

/-- The key and the origin in the sealed material. -/
def openMaterial (data : Bytes) : Except Exn (Bytes × UInt64) := do
  if data.length ≠ sealedMaterialSize then
    throw (.runtimeError "Sealed database material has an invalid size")
  let counterOrigin ← decodeUint64 (data.drop keySize)
  if counterOrigin = 0 then
    throw (.runtimeError "Sealed rollback counter origin is invalid")
  return (data.take keySize, counterOrigin)

def unsealObject (authorization : Bytes) (a : TpmAnswer) (tpm : Tpm) :
    Except Exn (Bytes × UInt64) :=
  match tpm.sealed with
  | some object =>
    if object.authorization = authorization ∧ a.outcome .fapiUnseal = .succeeds then
      openMaterial object.data
    else .error (tssError a "Fapi_Unseal database key")
  | none => .error (tssError a "Fapi_Unseal database key")

/-- The value of the counter above its origin. -/
def readGeneration (authorization : Bytes) (counterOrigin : UInt64) (a : TpmAnswer) (tpm : Tpm) :
    Except Exn UInt64 := do
  let value ← readRawCounter authorization a tpm
  if value < counterOrigin then
    throw (.runtimeError "TPM rollback counter precedes its sealed origin")
  return value - counterOrigin

/-! ## FapiStoreSecurity -/

/-- The TPM and the member of `FapiStoreSecurity` that changes. -/
structure Security where
  tpm : Tpm := {}
  counterOrigin : Option UInt64 := none

abbrev SecurityProc := Proc Security TpmAnswer Exn

namespace FapiStoreSecurity

/-- A command without effect. -/
def tssCheck (command : TpmCommand) (operation : String) : SecurityProc Unit :=
  Proc.observe fun a _ =>
    if a.outcome command = .succeeds then .ok () else .error (tssError a operation)

/-- A command on the objects. -/
def tssChange (f : TpmAnswer → Tpm → Except Exn Unit × Tpm) : SecurityProc Unit :=
  Proc.atomically fun a s => ((f a s.tpm).1, { s with tpm := (f a s.tpm).2 })

/-- The constructor. -/
def checkAuthorization (authorization : Bytes) : Except Exn Unit :=
  if authorization.isEmpty ∨ authorization.length > 32 then
    .error (.invalidArgument "Store authorization must contain between 1 and 32 bytes")
  else if 0 ∈ authorization then
    .error (.invalidArgument "Store authorization must not contain NUL")
  else .ok ()

def construct (authorization : Bytes) : SecurityProc Unit := do
  Proc.ofExcept (checkAuthorization authorization)
  tssCheck .fapiInitialize "Fapi_Initialize"
  tssCheck .setAuthCallback "Fapi_SetAuthCB"

def tcti : SecurityProc Unit := tssCheck .getTcti "Fapi_GetTcti"

def startupClearShEnable : UInt32 := 0x00000002

def permanentOwnerAuthSet : UInt32 := 0x00000001

/-- `read_tpm_property`. -/
def readTpmProperty (command : TpmCommand) (property : TpmAnswer → UInt32) : SecurityProc UInt32 :=
  Proc.observe fun a _ =>
    if a.outcome command = .succeeds then .ok (property a)
    else .error (tssError a "Esys_GetCapability TPM properties")

def requireUnprotectedOwnerHierarchy : SecurityProc Unit := do
  tcti
  tssCheck .esysInitialize "Esys_Initialize provisioning preflight"
  let startupClear ← readTpmProperty .readStartupClear TpmAnswer.startupClear
  if startupClear &&& startupClearShEnable = 0 then
    throw (.runtimeError ("TPM Owner hierarchy is disabled; vAuth provisioning cannot " ++
      "create the rollback counter"))
  let permanent ← readTpmProperty .readPermanent TpmAnswer.permanent
  if permanent &&& permanentOwnerAuthSet ≠ 0 then
    throw (.runtimeError ("TPM Owner hierarchy has a non-empty authorization; vAuth " ++
      "provisioning requires an unprotected Owner hierarchy to create the rollback counter"))

def unsealKey (authorization : Bytes) : SecurityProc Bytes :=
  Proc.atomically fun a s =>
    match unsealObject authorization a s.tpm with
    | .ok (key, counterOrigin) => (.ok key, { s with counterOrigin := some counterOrigin })
    | .error e => (.error e, { s with counterOrigin := none })

def read (authorization : Bytes) : SecurityProc UInt64 := do
  if (← Proc.read Security.counterOrigin).isNone then
    let _ ← unsealKey authorization
    pure ()
  -- `unseal_key` has set the origin if it was not there.
  Proc.observe fun a s => readGeneration authorization (s.counterOrigin.getD 0) a s.tpm

def increment (authorization : Bytes) : SecurityProc Unit :=
  tssChange (nvIncrement authorization "Fapi_NvIncrement rollback counter")

/-! ### Provisioning -/

/-- `Fapi_GetRandom`. -/
def drawKey : SecurityProc (Vector UInt8 keySize) :=
  Proc.observe fun a _ =>
    if a.outcome .getRandom = .succeeds then .ok a.random
    else .error (tssError a "Fapi_GetRandom database key")

/-- The `try` block of `provision` up to the sealed object. -/
def createObjects (authorization : Bytes) : SecurityProc Unit := do
  tssChange (nvIncrement authorization "initialize rollback counter")
  let counterOrigin ← Proc.observe fun a s => readRawCounter authorization a s.tpm
  if counterOrigin = 0 then
    throw (.runtimeError "TPM rollback counter is not initialized")
  let key ← drawKey
  tssChange (createSeal authorization (key.toList ++ encodeUint64 counterOrigin))

/-- The rest of it. -/
def verifyObjects (authorization : Bytes) : SecurityProc Unit := do
  let _ ← unsealKey authorization
  if (← read authorization) ≠ 0 then
    throw (.runtimeError "Provisioned store security objects are invalid")

/-- Everything that the block throws is a `runtime_error`. -/
def cleanupFailed : Exn → Exn
  | .runtimeError what => .runtimeError (what ++ "; cleanup of provisioned objects failed")
  | e => e

/-- The end of the `catch` block. -/
def rethrow (cleaned : Bool) (e : Exn) : SecurityProc Unit := do
  Proc.modify fun s => { s with counterOrigin := none }
  throw (if cleaned then e else cleanupFailed e)

/-- The `catch` block. -/
def cleanup (keyCreated : Bool) (e : Exn) : SecurityProc Unit := do
  let counterCleanup ← (tssChange deleteCounter).attempt
  if keyCreated then
    let keyCleanup ← (tssChange deleteKey).attempt
    rethrow (counterCleanup.isOk && keyCleanup.isOk) e
  else rethrow counterCleanup.isOk e

def provision (authorization : Bytes) : SecurityProc Unit := do
  requireUnprotectedOwnerHierarchy
  Proc.modify fun s => { s with counterOrigin := none }
  tssChange (createNv authorization)
  tryCatch (createObjects authorization) (cleanup false)
  -- From here on `key_created` is set.
  tryCatch (verifyObjects authorization) (cleanup true)

end FapiStoreSecurity

end VAuth.Store
