import VAuth.Process.Run
import VAuth.Store.Envelope

/-!
# The store file and the rollback counter

`read_store_file`, `atomic_write_file` and the generation counter as processes. Each
system call is one atomic step whose outcome is an input; the calls that are repeated
after `EINTR` or a short transfer are one step, since nobody else sees the temporary file
they work on. A counter increment may succeed, fail without effect, or throw after the
counter has advanced.
-/

namespace VAuth.Store

inductive Syscall where
  | makeDirectory
  | openDirectory
  | statDirectory
  | createTemporary
  | uniqueName
  | write
  | writeProgress
  | fsyncTemporary
  | closeTemporary
  | rename
  | fsyncDirectory
  | closeDirectory
  | openStore
  | statStore
  | readStore
  | readCounter
  | randomBytes
  | cipher
deriving DecidableEq

inductive FileKind where
  | directory
  | regular
  | other
deriving DecidableEq

/-- What `fstat` reports besides the size. -/
structure FileStatus where
  kind : FileKind
  links : Nat
  owned : Bool
  mode : Nat
deriving DecidableEq

inductive Increment where
  | succeeds
  | failsWithoutEffect
  | failsAfterAdvance
deriving DecidableEq

/-- The outcomes of the next step. -/
structure Answer where
  fails : Syscall → Bool
  directoryStatus : FileStatus
  storeStatus : FileStatus
  increment : Increment
  nonce : Nonce

/-- All input and output of the step succeeds. -/
structure Answer.Succeeds (a : Answer) : Prop where
  fails : ∀ call, a.fails call = false
  directoryStatus : a.directoryStatus.kind = .directory ∧ a.directoryStatus.owned = true ∧
    a.directoryStatus.mode = 0o700
  storeStatus : a.storeStatus.kind = .regular ∧ a.storeStatus.links = 1 ∧
    a.storeStatus.owned = true ∧ a.storeStatus.mode = 0o600
  increment : a.increment = .succeeds

/-- Every call succeeds. -/
def Answer.success : Answer where
  fails := fun _ => false
  directoryStatus := { kind := .directory, links := 2, owned := true, mode := 0o700 }
  storeStatus := { kind := .regular, links := 1, owned := true, mode := 0o600 }
  increment := .succeeds
  nonce := Vector.replicate nonceSize 0

/-- Every call but one succeeds. -/
def Answer.without (call : Syscall) : Answer :=
  { Answer.success with fails := fun other => other == call }

theorem Answer.success_succeeds : Answer.success.Succeeds where
  fails := fun _ => rfl
  directoryStatus := ⟨rfl, rfl, rfl⟩
  storeStatus := ⟨rfl, rfl, rfl, rfl⟩
  increment := rfl

/-- The directory of the store, the file in it, the temporary file of the running write
and the counter. `written` lists every envelope whose write completed, oldest first, and
`lastRead` is the file the last load opened, if it found one; the program reads neither. -/
structure Disk where
  directory : Bool := false
  file : Option Bytes := none
  temporary : Option Bytes := none
  counter : UInt64 := 0
  written : List Bytes := []
  lastRead : Option Bytes := none

/-- The members of `CredentialStore` that change. -/
structure CredentialStore where
  stored : Storage := {}
  generation : UInt64 := 0
  requiresReload : Bool := false

structure World where
  disk : Disk := {}
  store : CredentialStore := {}

abbrev StoreProc := Proc World Answer Exn

/-- A system call that either throws `e` or has its effect. -/
def syscall (call : Syscall) (e : Exn) (effect : World → World) : StoreProc Unit :=
  Proc.atomically fun a w => if a.fails call then (.error e, w) else (.ok (), effect w)

/-- A system call that changes nothing the store looks at. -/
def touch (call : Syscall) (e : Exn) : StoreProc Unit := syscall call e id

/-! ## Directory and file -/

def checkDirectoryStatus (status : FileStatus) : Except Exn Unit :=
  if status.kind ≠ .directory then
    .error (.runtimeError "Credential store parent is not a directory")
  else if ¬ status.owned then
    .error (.runtimeError "Credential store directory must be owned by the service user")
  else if status.mode ≠ 0o700 then
    .error (.runtimeError "Credential store directory permissions must be 0700")
  else .ok ()

def checkStoreStatus (status : FileStatus) (size : Nat) : Except Exn Unit :=
  if status.kind ≠ .regular ∨ status.links ≠ 1 then
    .error (.runtimeError "Credential store must be a regular file with one link")
  else if ¬ status.owned then
    .error (.runtimeError "Credential store must be owned by the service user")
  else if status.mode ≠ 0o600 then
    .error (.runtimeError "Credential store permissions must be 0600")
  else if size > maxStoreSize then
    .error (.runtimeError "Credential store exceeds the size limit")
  else .ok ()

def statDirectory : StoreProc Unit :=
  Proc.observe fun a _ =>
    if a.fails .statDirectory then .error (.systemError "inspect credential store directory")
    else checkDirectoryStatus a.directoryStatus

def prepareStoreDirectory : StoreProc Unit :=
  syscall .makeDirectory (.systemError "create credential store directory")
    fun w => { w with disk.directory := true }

def openStoreDirectory : StoreProc Unit := do
  touch .openDirectory (.systemError "open credential store directory")
  statDirectory

/-- The file is fixed when it is opened: a later rename replaces the name, not the file. -/
def openStore : StoreProc (Option Bytes) :=
  Proc.atomically fun a w =>
    if a.fails .openStore then (.error (.systemError "open credential store"), w)
    else (.ok w.disk.file, { w with disk.lastRead := w.disk.file })

/-- Whether there is a directory to read from. -/
def findDirectory : StoreProc Bool :=
  Proc.atomically fun a w =>
    if a.fails .openDirectory then (.error (.systemError "open credential store directory"), w)
    else (.ok w.disk.directory, { w with disk.lastRead := none })

def readStoreFile : StoreProc (Option Bytes) := do
  if ¬ (← findDirectory) then return none
  statDirectory
  match ← openStore with
  | none => return none
  | some contents =>
    Proc.observe fun a _ =>
      if a.fails .statStore then .error (.systemError "inspect credential store")
      else checkStoreStatus a.storeStatus contents.length
    touch .readStore (.systemError "read credential store")
    return some contents

def createTemporaryFile : StoreProc Unit := do
  touch .uniqueName (.runtimeError "Could not create a unique temporary credential store")
  syscall .createTemporary (.systemError "create temporary credential store")
    fun w => { w with disk.temporary := some [] }

def writeAll (bytes : Bytes) : StoreProc Unit := do
  touch .writeProgress (.runtimeError "write temporary credential store made no progress")
  syscall .write (.systemError "write temporary credential store")
    fun w => { w with disk.temporary := some bytes, disk.written := w.disk.written ++ [bytes] }

def renameTemporary : StoreProc Unit :=
  syscall .rename (.systemError "replace credential store")
    fun w => { w with disk.file := w.disk.temporary, disk.temporary := none }

/-- From the creation of `TemporaryFile` to `dismiss`. -/
def replaceStore (contents : Bytes) : StoreProc Unit := do
  writeAll contents
  touch .fsyncTemporary (.systemError "fsync temporary credential store")
  touch .closeTemporary (.systemError "close temporary credential store")
  renameTemporary

def atomicWriteFile (contents : Bytes) : StoreProc Unit := do
  prepareStoreDirectory
  openStoreDirectory
  createTemporaryFile
  -- The destructor of `TemporaryFile` unlinks the file unless it was renamed.
  tryCatch (replaceStore contents) fun e => do
    Proc.modify fun w => { w with disk.temporary := none }
    throw e
  touch .fsyncDirectory (.systemError "fsync credential store directory")
  touch .closeDirectory (.systemError "close credential store directory")

/-! ## The counter -/

def readCounter : StoreProc UInt64 :=
  Proc.observe fun a w =>
    if a.fails .readCounter then .error (.runtimeError "TPM rollback counter read")
    else .ok w.disk.counter

def incrementCounter : StoreProc Unit :=
  Proc.atomically fun a w =>
    let advanced := { w with disk.counter := w.disk.counter + 1 }
    match a.increment with
    | .succeeds => (.ok (), advanced)
    | .failsWithoutEffect => (.error (.runtimeError "TPM rollback counter increment"), w)
    | .failsAfterAdvance => (.error (.runtimeError "TPM rollback counter increment"), advanced)

end VAuth.Store
