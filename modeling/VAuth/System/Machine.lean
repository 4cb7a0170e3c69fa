import VAuth.Process.Embed
import VAuth.Store.Authorization
import VAuth.Store.CrashConsistency
import VAuth.Store.Provisioning
import VAuth.Vauthctl.Commands

/-!
# The processes of one machine

The daemon and the commands of `vauthctl` run as processes that share the store directory and the
TPM. Each takes `CredentialStoreLock` before it touches either, reads the database key from the
TPM and opens the store with the rollback counter in the TPM; `vauthctl provision` creates the
objects in the TPM under the same lock. A process may be killed before any of its steps: the kernel
then closes its lock.

A store that uses the counter sees the counter's value above the sealed origin (`Image.world`), and
its system calls and counter reads end as the files and the TPM decide (`Image.answer`). The log
notes what processes did while they held the lock.
-/

namespace VAuth.System

open Proc Store

/-! ## State -/

inductive Event where
  | provisioned (pid : Nat)
  | unsealed (pid : Nat) (key : Bytes)
  | began (pid : Nat) (call : Call)
  | returned (pid : Nat) (call : Call) (store : CredentialStore)

def Event.pid : Event → Nat
  | provisioned pid => pid
  | unsealed pid _ => pid
  | began pid _ => pid
  | returned pid _ _ => pid

/-- What all processes share: the directory of the store, the TPM and the log. The counter is in
the TPM, so that the one of `Disk` is not used. -/
structure Shared where
  disk : Disk := {}
  tpm : Tpm := {}
  log : List Event := []

/-- The `CredentialStore` and the `FapiStoreSecurity` of one process. -/
structure Memory where
  store : CredentialStore := {}
  counterOrigin : Option UInt64 := none

/-- What one process sees. -/
structure Image extends Shared, Memory

structure Machine extends Shared where
  /-- The process that has locked the store directory. -/
  lock : Option Nat := none
  memory : Nat → Memory := fun _ => {}

def Machine.image (pid : Nat) (m : Machine) : Image := { m.toShared, m.memory pid with }

def Machine.setImage (pid : Nat) (s : Image) (m : Machine) : Machine :=
  { m with toShared := s.toShared, memory := Function.update m.memory pid s.toMemory }

/-- What the next step of a process meets. -/
structure Turn where
  answer : Answer
  tpm : TpmAnswer
  /-- The file that `StoreAuthorization` opens, or why it could not be opened or read. -/
  authorization : Except Exn AuthorizationFile
  /-- How the constructors that `main` calls for other parts of the daemon end. -/
  startup : Except Exn Unit
  flockFails : Bool
  /-- The next operation that a command of the daemon runs, or none at its shutdown. -/
  request : Option Operation
  killed : Bool

abbrev ImageProc := Proc Image Turn Exn

abbrev MachineProc := Proc Machine Turn Exn

/-! ## The store with its counter in the TPM -/

/-- The value of the counter above the origin that the process unsealed. -/
def Image.generation (s : Image) : UInt64 :=
  match s.tpm.counter, s.counterOrigin with
  | some ⟨_, some value⟩, some counterOrigin => value - counterOrigin
  | _, _ => 0

def Image.world (s : Image) : World where
  disk := { s.disk with counter := s.generation }
  store := s.store

/-- The TPM with this value of the counter above the origin. -/
def setGeneration (counterOrigin : Option UInt64) (generation : UInt64) (tpm : Tpm) : Tpm :=
  match tpm.counter, counterOrigin with
  | some ⟨authorization, some _⟩, some counterOrigin =>
    { tpm with counter := some ⟨authorization, some (counterOrigin + generation)⟩ }
  | _, _ => tpm

def Image.setWorld (w : World) (s : Image) : Image :=
  { s with
    disk := { w.disk with counter := s.disk.counter }
    tpm := setGeneration s.counterOrigin w.disk.counter s.tpm
    store := w.store }

/-- How `FapiStoreSecurity::increment` ends. -/
def incrementOutcome (authorization : Bytes) (a : TpmAnswer) (tpm : Tpm) : Increment :=
  if (incremented authorization a tpm).isNone then .failsWithoutEffect
  else match a.outcome .nvIncrement with
    | .succeeds => .succeeds
    | .failsWithoutEffect => .failsWithoutEffect
    | .failsAfterEffect => .failsAfterAdvance

/-- How the calls of the store end: `FapiStoreSecurity` decides about the counter. -/
def Image.answer (authorization : Bytes) (i : Turn) (s : Image) : Answer :=
  { i.answer with
    fails := fun call =>
      if call = .readCounter then
        !(readGeneration authorization (s.counterOrigin.getD 0) i.tpm s.tpm).isOk
      else i.answer.fails call
    increment := incrementOutcome authorization i.tpm s.tpm }

def withStore {α : Type} (authorization : Bytes) (p : StoreProc α) : ImageProc α :=
  embed Image.world Image.setWorld (Image.answer authorization) p

def Image.setDirectory (w : World) (s : Image) : Image :=
  { s with disk := w.disk, store := w.store }

/-- A part of the store that has nothing to do with the counter. -/
def withDirectory {α : Type} (p : StoreProc α) : ImageProc α :=
  embed (fun s => ⟨s.disk, s.store⟩) Image.setDirectory (fun i _ => i.answer) p

def Image.setSecurity (x : Security) (s : Image) : Image :=
  { s with tpm := x.tpm, counterOrigin := x.counterOrigin }

def withSecurity {α : Type} (p : SecurityProc α) : ImageProc α :=
  embed (fun s => ⟨s.tpm, s.counterOrigin⟩) Image.setSecurity (fun i _ => i.tpm) p

def inside {α : Type} (pid : Nat) (p : ImageProc α) : MachineProc α :=
  embed (Machine.image pid) (Machine.setImage pid) (fun i _ => i) p

def record (event : Image → Event) : ImageProc Unit :=
  Proc.modify fun s => { s with log := s.log ++ [event s] }

/-! ## The lock -/

/-- `flock` with `LOCK_EX | LOCK_NB`. -/
def flock (pid : Nat) : MachineProc Unit :=
  Proc.atomically fun i m =>
    if i.flockFails then (.error (.systemError "lock credential store directory"), m)
    else match m.lock with
      | some _ => (.error (.runtimeError "Credential store is already in use"), m)
      | none => (.ok (), { m with lock := some pid })

/-- The destructor of `CredentialStoreLock`. -/
def unlock : MachineProc Unit := Proc.modify fun m => { m with lock := none }

/-- A `CredentialStoreLock` and the block it is held for. -/
def locked {α : Type} (pid : Nat) (body : ImageProc α) : MachineProc α := do
  inside pid (withDirectory prepareStoreDirectory)
  inside pid (withDirectory openStoreDirectory)
  flock pid
  let result ← tryCatch (inside pid body) fun e => do
    unlock
    throw e
  unlock
  return result

/-- What the kernel does for a process that was killed. -/
def death (pid : Nat) (m : Machine) : Machine :=
  { m with lock := if m.lock = some pid then none else m.lock }

/-! ## Programs -/

section Programs

variable (P : Bytes → Platform) (pid : Nat)

/-- A call of the store that was opened with this key. -/
def storeCall (authorization key : Bytes) (call : Call) : ImageProc Unit := do
  record fun _ => .began pid call
  withStore authorization (call.run (P key))
  record fun s => .returned pid call s.store

def storeAuthorization (origin : StoreAuthorizationOrigin) : MachineProc Bytes :=
  Proc.observe fun i _ => do
    let file ← i.authorization
    readAuthorization origin file

def unsealKey (authorization : Bytes) : ImageProc Bytes := do
  let key ← withSecurity (FapiStoreSecurity.unsealKey authorization)
  record fun _ => .unsealed pid key
  return key

/-- The constructor of `CredentialStore`. -/
def checkStoreKey (key : Bytes) : Except Exn Unit :=
  if key.length ≠ 32 then .error (.invalidArgument "Credential store key must be 32 bytes")
  else .ok ()

/-- What the daemon and most commands do under the lock: they open the store and use it. -/
def useStore {α : Type} (authorization : Bytes) (beforeStore : ImageProc Unit)
    (rest : Bytes → ImageProc α) : ImageProc α := do
  let key ← unsealKey pid authorization
  beforeStore
  Proc.ofExcept (checkStoreKey key)
  storeCall P pid authorization key .load
  rest key

/-- From the authorization to a loaded store, which the rest then uses. -/
def session {α : Type} (origin : StoreAuthorizationOrigin) (beforeStore : ImageProc Unit)
    (rest : Bytes → Bytes → ImageProc α) : MachineProc α := do
  let authorization ← storeAuthorization origin
  inside pid (withSecurity (FapiStoreSecurity.construct authorization))
  locked pid (useStore P pid authorization beforeStore (rest authorization))

def startup : ImageProc Unit := Proc.observe fun i _ => i.startup

/-- One turn of the daemon's loop: a command that changes the store. One that throws is answered
with an error. -/
def serveRequest (authorization key : Bytes) : ImageProc (Unit ⊕ Unit) := do
  match ← Proc.observe fun i _ => .ok i.request with
  | none => return .inr ()
  | some op =>
    let _ ← (storeCall P pid authorization key (.update op)).attempt
    return .inl ()

def serveRequests (authorization key : Bytes) (rounds : Nat) : ImageProc Unit :=
  Proc.loop (fun _ => serveRequest P pid authorization key) rounds ()

/-- `main` of the daemon. -/
def daemon (rounds : Nat) : MachineProc Bytes :=
  session P pid .systemdCredential
    (do withSecurity FapiStoreSecurity.tcti; startup) fun authorization key => do
      startup
      serveRequests P pid authorization key rounds
      return []

def storeClear (origin : StoreAuthorizationOrigin) : MachineProc Bytes :=
  session P pid origin (pure ()) fun authorization key => do
    storeCall P pid authorization key (.update .clear)
    return text "Credential store cleared; TPM security objects preserved\n"

def credentialList (origin : StoreAuthorizationOrigin) (ownerUid : Option UInt32)
    (rp : Option Bytes) : MachineProc Bytes :=
  session P pid origin (pure ()) fun _ key =>
    Proc.observe fun _ s => do
      let credentials ← s.store.listCredentials (P key)
      return Vauthctl.printCredentials credentials ownerUid rp

def eraseCredential (origin : StoreAuthorizationOrigin) (ownerUid : UInt32)
    (credentialId : Bytes) : MachineProc Bytes := do
  let credId ← Proc.ofExcept (Vauthctl.decodeCredentialId credentialId)
  session P pid origin (pure ()) fun authorization key => do
    storeCall P pid authorization key (.update (.erase credId ownerUid))
    return text "Credential " ++ credentialId ++ text " for user id " ++
      Vauthctl.decimal ownerUid ++ text " erased\n"

/-- What `provision` does under the lock. -/
def provisionObjects (authorization : Bytes) : ImageProc Bytes := do
  withSecurity (FapiStoreSecurity.construct authorization)
  withSecurity (FapiStoreSecurity.provision authorization)
  record fun _ => .provisioned pid
  return text "Database key and rollback counter provisioned\n"

def provision (origin : StoreAuthorizationOrigin) : MachineProc Bytes := do
  let authorization ← storeAuthorization origin
  locked pid (provisionObjects pid authorization)

end Programs

inductive Program where
  | daemon (rounds : Nat)
  | storeClear (origin : StoreAuthorizationOrigin)
  | credentialList (origin : StoreAuthorizationOrigin) (ownerUid : Option UInt32)
      (rp : Option Bytes)
  | eraseCredential (origin : StoreAuthorizationOrigin) (ownerUid : UInt32) (credentialId : Bytes)
  | provision (origin : StoreAuthorizationOrigin)

def Program.run (P : Bytes → Platform) (pid : Nat) : Program → MachineProc Bytes
  | daemon rounds => System.daemon P pid rounds
  | storeClear origin => System.storeClear P pid origin
  | credentialList origin ownerUid rp => System.credentialList P pid origin ownerUid rp
  | eraseCredential origin ownerUid credentialId =>
    System.eraseCredential P pid origin ownerUid credentialId
  | provision origin => System.provision pid origin

/-- A program as a process of the machine. -/
def Program.process (P : Bytes → Platform) (pid : Nat) (program : Program) : MachineProc Bytes :=
  mortal Turn.killed (death pid) (program.run P pid)

end VAuth.System
