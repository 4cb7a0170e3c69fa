import VAuth.Store.Security

/-!
# The store authorization

`StoreAuthorization` reads the authorization value of the TPM objects from a read-only file of root
or of the service user, without the line end that the file may have.
-/

namespace VAuth.Store

inductive StoreAuthorizationOrigin where
  | explicitFile
  | systemdCredential
deriving DecidableEq

/-- The opened file, as `fstat` and `read` show it. -/
structure AuthorizationFile where
  kind : FileKind
  links : Nat
  /-- Owned by root or by the service user. -/
  owned : Bool
  mode : Nat
  contents : Bytes

/-- Without this byte at the end. -/
def stripLast (byte : UInt8) (bytes : Bytes) : Bytes :=
  if bytes.getLast? = some byte then bytes.dropLast else bytes

def readAuthorization (origin : StoreAuthorizationOrigin) (file : AuthorizationFile) :
    Except Exn Bytes := do
  if file.kind ≠ .regular ∨ file.links ≠ 1 then
    throw (.runtimeError "Database authorization credential must be a regular file with one link")
  if ¬ file.owned then
    throw (.runtimeError
      "Database authorization credential must be owned by root or the service user")
  if ¬ (file.mode = 0o400 ∨ origin = .systemdCredential ∧ file.mode = 0o440) then
    throw (.runtimeError (if origin = .systemdCredential then
      "Systemd database authorization credential must have mode 0400 or 0440"
      else "Database authorization credential must have mode 0400"))
  if file.contents.length < 1 ∨ file.contents.length > 34 then
    throw (.runtimeError "Database authorization credential has an invalid size")
  let bytes := stripLast 13 (stripLast 10 file.contents)
  if bytes.isEmpty ∨ bytes.length > 32 ∨ 0 ∈ bytes then
    throw (.runtimeError "Database authorization must contain 1 to 32 non-NUL bytes")
  return bytes

end VAuth.Store
