import VAuth.Ctap.Response

/-!
# The command handler

`CTAPCommandHandler::handle`, the ceremonies of MakeCredential, GetAssertion and
GetNextAssertion, and `execute_ctap_request` around them, as processes over the store and
the handler's own request object. What the daemon cannot choose is an input of the step
that needs it: whether a stop was requested, what the user interaction, the key provider
and the storage answer, the clock.
-/

namespace VAuth.Ctap

open Store

/-- The libraries the handler rests on. -/
structure Libraries extends Store.Platform where
  walk : Walk
  sha256 : Bytes → Bytes
  /-- The coordinates of the public key in a TPM blob. -/
  extractPublic : Bytes → Except Exn (Bytes × Bytes)

structure Libraries.Lawful (L : Libraries) : Prop where
  platform : L.toPlatform.Lawful
  sha256_length : ∀ bytes, (L.sha256 bytes).length = 32

structure CredentialKey where
  publicBlob : Bytes
  privateBlob : Bytes

/-- The outcomes of the next step. -/
structure Input where
  stop : Bool
  storage : Answer
  context : Except Exn UserContext
  interaction : Except Exn UserInteractionResult
  random : Except Exn (Vector UInt8 32)
  key : Except Exn CredentialKey
  signature : Except Exn Bytes
  now : Int

inductive InteractionKind where
  | presence
  | verification
deriving DecidableEq

/-- One call of the user interaction. -/
structure Interaction where
  kind : InteractionKind
  user : UserContext
  request : UserInteractionRequest
  result : Except Exn UserInteractionResult

/-- One signature of the key provider. -/
structure SignCall where
  credentialId : Bytes
  digest : Bytes
  key : CredentialKey
  signature : Bytes

/-- The report of a `CTAPHID_CBOR` message, whose payload is not empty: a command byte and
its parameters. -/
structure CborRequest where
  cid : UInt32
  command : UInt8
  parameters : Bytes

/-- What a command has done: the user it asked for, the matches it found, its interactions
and signatures, and the clock reading at which it began or continued a sequence. The
program does not read it. -/
structure Ceremony where
  user : Option UserContext := none
  found : List StoredCredential := []
  interactions : List Interaction := []
  signed : List SignCall := []
  used : Option Int := none

/-- The store and the handler of a daemon. `ceremony` is the record of the last command
and `drawn` lists the random credential ids so far; the program reads neither. -/
structure Daemon where
  world : World := {}
  getAssertion : CTAPGetAssertionRequest := {}
  ceremony : Ceremony := {}
  drawn : List Bytes := []

abbrev HandlerProc := Proc Daemon Input Exn

/-! ## Steps -/

def cancellationPoint : HandlerProc Unit :=
  Proc.observe fun i _ => if i.stop then .error .operationCancelled else .ok ()

def currentContext : HandlerProc UserContext :=
  Proc.atomically fun i d => match i.context with
    | .ok user => (.ok user, { d with ceremony.user := some user })
    | .error e => (.error e, d)

/-- The daemon once an interaction has ended. -/
def Daemon.asked (d : Daemon) (interaction : Interaction) : Daemon :=
  { d with ceremony.interactions := d.ceremony.interactions ++ [interaction] }

/-- `request_presence` and `request_verification`. -/
def requestInteraction (kind : InteractionKind) (user : UserContext)
    (request : UserInteractionRequest) : HandlerProc UserInteractionResult :=
  Proc.atomically fun i d => (i.interaction, d.asked ⟨kind, user, request, i.interaction⟩)

def requestPresence (user : UserContext) (request : UserInteractionRequest) :
    HandlerProc UserInteractionResult := requestInteraction .presence user request

def requestVerification (user : UserContext) (request : UserInteractionRequest) :
    HandlerProc UserInteractionResult := requestInteraction .verification user request

/-- `openssl_random_bytes` for a new credential id. -/
def drawCredentialId : HandlerProc Bytes :=
  Proc.atomically fun i d => match i.random with
    | .ok id => (.ok id.toList, { d with drawn := d.drawn ++ [id.toList] })
    | .error e => (.error e, d)

/-- `CredentialKeyProvider::create`. -/
def createKey (_credentialId : Bytes) : HandlerProc CredentialKey := Proc.observe fun i _ => i.key

/-- `CredentialKeyProvider::sign`. -/
def sign (credentialId digest : Bytes) (key : CredentialKey) : HandlerProc Bytes :=
  Proc.atomically fun i d => match i.signature with
    | .ok signature => (.ok signature, { d with
        ceremony.signed := d.ceremony.signed ++ [⟨credentialId, digest, key, signature⟩] })
    | .error e => (.error e, d)

/-- A process of the store. -/
def withStore {α : Type} (p : StoreProc α) : HandlerProc α :=
  p.zoom Daemon.world (fun w d => { d with world := w }) Input.storage

def queryStore {α : Type} (query : CredentialStore → Except Exn α) : HandlerProc α :=
  Proc.observe fun _ d => query d.world.store

def findForAssertion (L : Libraries) (request : AssertionParameters) (ownerUid : UInt32) :
    HandlerProc (List StoredCredential) :=
  Proc.atomically fun _ d =>
    match d.world.store.findForAssertion L.toPlatform request.rpId request.allowList ownerUid with
    | .ok found => (.ok found, { d with ceremony.found := found })
    | .error e => (.error e, d)

def reset : HandlerProc Unit := Proc.modify fun d => { d with getAssertion := {} }

/-- An error is returned as a payload of one byte. -/
def failure (error : CTAPError) : Bytes := [error.code]

/-! ## Assertion sequences -/

namespace AssertionSequence

/-- 30 seconds, in nanoseconds. -/
def timeout : Int := 30000000000

def begin (originCid : UInt32) (user : UserContext) (remaining : List StoredCredential) (now : Int) :
    Except Exn AssertionSequence :=
  if originCid = 0 ∨ remaining = [] then .ok {}
  else if remaining.any fun c => c.ownerUid ≠ user.uid then
    .error (.invalidArgument "Assertion sequence contains a credential owned by another user")
  else .ok { credentials := remaining, originCid, ownerContext := some user.binding, lastUse := now }

def next (sequence : AssertionSequence) (cid : UInt32) (user : UserContext) (now : Int) :
    Option StoredCredential × AssertionSequence :=
  if sequence.originCid ≠ 0 ∧ sequence.ownerContext ≠ some user.binding then (none, {})
  else if sequence.originCid = 0 ∨ cid ≠ sequence.originCid then (none, sequence)
  else if now - sequence.lastUse > timeout then (none, {})
  else match sequence.credentials[sequence.index]? with
    | none => (none, {})
    | some credential =>
      (some credential,
        if sequence.index + 1 = sequence.credentials.length then {}
        else { sequence with index := sequence.index + 1, lastUse := now })

end AssertionSequence

/-- `sequence.begin`, which leaves the sequence cleared when it throws. -/
def beginSequence (originCid : UInt32) (user : UserContext) (remaining : List StoredCredential) :
    HandlerProc Unit :=
  Proc.atomically fun i d => match AssertionSequence.begin originCid user remaining i.now with
    | .ok sequence => (.ok (), { d with
        getAssertion.sequence := sequence, ceremony.used := some i.now })
    | .error e => (.error e, { d with getAssertion.sequence := {} })

def nextInSequence (cid : UInt32) (user : UserContext) : HandlerProc (Option StoredCredential) :=
  Proc.atomically fun i d =>
    let (credential, sequence) := d.getAssertion.sequence.next cid user i.now
    (.ok credential, { d with getAssertion.sequence := sequence, ceremony.used := some i.now })

/-- A signature counter in the authenticator data. -/
def signCountBytes (count : UInt32) : Bytes :=
  [(count >>> 24).toUInt8, (count >>> 16).toUInt8, (count >>> 8).toUInt8, count.toUInt8]

/-! ## MakeCredential -/

namespace CTAPMakeCredentialRequest

def validationError (request : CTAPMakeCredentialRequest) : Option CTAPError :=
  if request.upOptionPresent then some .invalidOption
  else if request.pinAuthPresent ∨ request.pinProtocolPresent then some .pinAuthInvalid
  else none

/-- Whether the exclude list names a credential of the user and the relying party. -/
def findExcluded (rpId : Bytes) (ownerUid : UInt32) :
    List PublicKeyCredentialDescriptor → HandlerProc Bool
  | [] => return false
  | descriptor :: rest => do
      if descriptor.type = text "public-key" then
        if ← queryStore fun store => store.hasForRp descriptor.id rpId ownerUid then return true
      findExcluded rpId ownerUid rest

/-- The ceremony of an excluded credential, which never succeeds. -/
def refuseExcluded (request : CTAPMakeCredentialRequest) (user : UserContext) : HandlerProc Bytes := do
  cancellationPoint
  let presence ← requestPresence user
    { operation := .checkExcludedCredential, relyingPartyId := request.rp.id }
  cancellationPoint
  if presence = .cancelled then return failure .operationDenied
  if presence ≠ .approved then return failure .operationDenied
  return failure .credentialExcluded

/-- The loop that selects an algorithm: ES256 or none. -/
def offersEs256 (request : CTAPMakeCredentialRequest) : Bool :=
  request.publicKeyCredParams.any fun param => param.alg == -7 && param.type == text "public-key"

/-- User verification, or user presence without it. `none` is approval. -/
def requestConsent (request : CTAPMakeCredentialRequest) (user : UserContext) :
    HandlerProc (Option CTAPError) := do
  if request.uv then
    let verification ← requestVerification user
      { operation := .makeCredential, relyingPartyId := request.rp.id }
    cancellationPoint
    if verification = .cancelled then return some .operationDenied
    if verification ≠ .approved then return some .operationDenied
    return none
  else
    cancellationPoint
    let presence ← requestPresence user
      { operation := .makeCredential, relyingPartyId := request.rp.id }
    cancellationPoint
    if presence = .cancelled then return some .operationDenied
    if presence ≠ .approved then return some .operationDenied
    return none

/-- Presence, verification and attested credential data. -/
def flags (request : CTAPMakeCredentialRequest) : UInt8 :=
  0x01 ||| (if request.uv then 0x04 else 0x00) ||| 0x40

/-- The authenticator data up to the public key. -/
def authDataPrefix (L : Libraries) (request : CTAPMakeCredentialRequest) (credId : Bytes) : Bytes :=
  L.sha256 request.rp.id ++ request.flags :: signCountBytes 0 ++ aaguid ++
    [(UInt16.ofNat credId.length >>> 8).toUInt8, (UInt16.ofNat credId.length).toUInt8] ++ credId

def credential (request : CTAPMakeCredentialRequest) (credId : Bytes) (key : CredentialKey) :
    StoredCredential where
  id := credId
  rpId := request.rp.id
  signCount := 0
  userId := request.user.id
  userName := request.user.name
  userDisplayName := request.user.displayName
  alg := -7
  privateBlob := key.privateBlob
  publicBlob := key.publicBlob
  discoverable := request.rk

/-- Credentials of these relying parties are not kept. -/
def isDummy (request : CTAPMakeCredentialRequest) : Bool :=
  request.rp.id == text "make.me.blink" || request.rp.id == text ".dummy"

/-- From the consent on: the key, the attestation and the new entry of the store. -/
def register (L : Libraries) (request : CTAPMakeCredentialRequest) (user : UserContext) :
    HandlerProc Bytes := do
  let credId ← drawCredentialId
  cancellationPoint
  let key ← createKey credId
  cancellationPoint
  let (x, y) ← Proc.ofExcept (L.extractPublic key.publicBlob)
  let coseMap ← Proc.ofExcept (buildCoseKey x y)
  let authData := request.authDataPrefix L credId ++ coseMap
  let signData ← sign credId (L.sha256 (authData ++ request.clientDataHash)) key
  let payload ← Proc.ofExcept (buildAuthenticatorMakeCredentialResponse authData signData)
  cancellationPoint
  if ¬ request.isDummy then
    cancellationPoint
    withStore (put L.toPlatform (request.credential credId key) user.uid)
  return payload

def buildResponse (L : Libraries) (request : CTAPMakeCredentialRequest) : HandlerProc Bytes := do
  cancellationPoint
  let user ← currentContext
  if ← findExcluded request.rp.id user.uid request.excludeList then
    refuseExcluded request user
  else if ¬ request.offersEs256 then
    return failure .unsupportedAlgorithm
  else match request.validationError with
    | some error => return failure error
    | none =>
      match ← requestConsent request user with
      | some error => return failure error
      | none => register L request user

end CTAPMakeCredentialRequest

/-! ## GetAssertion and GetNextAssertion -/

inductive AssertionInteraction where
  | none
  | presence
  | verification
deriving DecidableEq

def assertionInteraction (userPresenceRequested userVerificationRequested : Bool) :
    AssertionInteraction :=
  if userVerificationRequested then .verification
  else if userPresenceRequested then .presence
  else .none

def assertionAuthenticatorFlags (userPresent userVerified : Bool) : UInt8 :=
  (if userPresent then 0x01 else 0x00) ||| (if userVerified then 0x04 else 0x00)

def hasAssertionContinuations (allowListEmpty : Bool) (credentialCount : Nat) : Bool :=
  allowListEmpty && credentialCount > 1

namespace CTAPGetAssertionRequest

def validationError (request : AssertionParameters) : Option CTAPError :=
  if request.pinAuthPresent ∨ request.pinProtocolPresent then some .pinAuthInvalid
  else if request.rkOptionPresent then some .invalidOption
  else none

/-- The authenticator data of an assertion with this counter. -/
def authData (L : Libraries) (request : CTAPGetAssertionRequest) (count : UInt32) : Bytes :=
  L.sha256 request.rpId ++
    assertionAuthenticatorFlags request.userPresent request.userVerified :: signCountBytes count

def generateSingleCredentialPayload (L : Libraries) (credential : StoredCredential)
    (ownerUid : UInt32) (numberOfCredentials : Option UInt32) : HandlerProc Bytes := do
  let request ← Proc.read Daemon.getAssertion
  let authData := request.authData L (credential.signCount + 1)
  let signature ← sign credential.id (L.sha256 (authData ++ request.clientDataHash))
    ⟨credential.publicBlob, credential.privateBlob⟩
  let payload ← Proc.ofExcept (buildAuthenticatorGetAssertionResponse authData signature
    request.userVerified credential (request.allowList.length ≠ 1) numberOfCredentials)
  cancellationPoint
  withStore (incrementSigCount L.toPlatform credential.id ownerUid)
  return payload

/-- The flags of the ceremony. -/
def setConsent (userPresent userVerified : Bool) : HandlerProc Unit :=
  Proc.modify fun d => { d with
    getAssertion.userPresent := userPresent, getAssertion.userVerified := userVerified }

/-- The interaction the options ask for. `none` is approval, or that none was asked for. -/
def requestConsent (request : AssertionParameters) (user : UserContext) :
    HandlerProc (Option CTAPError) := do
  match assertionInteraction request.up request.uv with
  | .verification =>
    let verification ← requestVerification user
      { operation := .getAssertion, relyingPartyId := request.rpId }
    cancellationPoint
    if verification = .cancelled then return some .operationDenied
    if verification ≠ .approved then return some .operationDenied
    setConsent request.up true
    return none
  | .presence =>
    cancellationPoint
    let presence ← requestPresence user
      { operation := .getAssertion, relyingPartyId := request.rpId }
    cancellationPoint
    if presence = .cancelled then return some .operationDenied
    if presence ≠ .approved then return some .operationDenied
    setConsent true false
    return none
  | .none => return none

/-- From the consent on: the assertion of the first match, and the sequence of the others. -/
def assertFirst (L : Libraries) (request : AssertionParameters) (cid : UInt32) (user : UserContext) :
    List StoredCredential → HandlerProc Bytes
  | [] => return failure .noCredentials
  | credential :: remaining => do
      let hasContinuations := hasAssertionContinuations request.allowList.isEmpty
        (remaining.length + 1)
      cancellationPoint
      let payload ← generateSingleCredentialPayload L credential user.uid
        (if hasContinuations then some (UInt32.ofNat (remaining.length + 1)) else none)
      if hasContinuations then beginSequence cid user remaining
      return payload

def buildResponse (L : Libraries) (cid : UInt32) : HandlerProc Bytes := do
  cancellationPoint
  let user ← currentContext
  let request ← Proc.read fun d => d.getAssertion.toAssertionParameters
  let availableCredentials ← findForAssertion L request user.uid
  match validationError request with
  | some error => return failure error
  | none =>
    setConsent false false
    match ← requestConsent request user with
    | some error => return failure error
    | none => assertFirst L request cid user availableCredentials

def buildResponseNext (L : Libraries) (cid : UInt32) : HandlerProc Bytes := do
  let user ← currentContext
  match ← nextInSequence cid user with
  | none => return failure .notAllowed
  | some credential =>
    cancellationPoint
    generateSingleCredentialPayload L credential user.uid none

end CTAPGetAssertionRequest

/-! ## Commands -/

def encodingErrorToCtap : CborEncodingFailure → CTAPError
  | .resourceLimit => .requestTooLarge
  | .invalidStructure => .other

/-- The reply of the `catch` clauses around a ceremony; cancellation and expiry go on to
the caller. -/
def errorReply : Exn → Option CTAPError
  | .operationCancelled => none
  | .userActionTimedOut => none
  | .cborEncodingError e => some (encodingErrorToCtap e)
  | _ => some .other

/-- A ceremony with the `catch` clauses around it, which run `cleanup` first. -/
def guarded (cleanup : HandlerProc Unit) (build : HandlerProc Bytes) : HandlerProc Bytes :=
  tryCatch build fun e => do
    cleanup
    match errorReply e with
    | some error => return failure error
    | none => throw e

/-- A payload of one byte is an error; any other is the reply, if it fits. -/
def replyWith (cleanup : HandlerProc Unit) (cid : UInt32) : Bytes → HandlerProc CTAPPacket
  | [error] => do
      cleanup
      return makeCborError cid error
  | payload => do
      if payload.length > ctaphidMaxPayloadSize then
        reset
        return makeCborError cid CTAPError.requestTooLarge.code
      return { cid, cmd := cborCommand, len := UInt16.ofNat payload.length, payload }

def handleGetInfo (request : CborRequest) : HandlerProc CTAPPacket := do
  if request.parameters ≠ [] then
    return makeCborError request.cid CTAPError.invalidCommand.code
  let payload ← tryCatch (Proc.ofExcept buildGetinfoResponse) fun
    | .cborEncodingError e => return failure (encodingErrorToCtap e)
    | e => throw e
  replyWith (pure ()) request.cid payload

def handleMakeCredential (L : Libraries) (request : CborRequest) : HandlerProc CTAPPacket := do
  match CTAPMakeCredentialRequest.parseRequest L.walk request.parameters with
  | none => return makeCborError request.cid CTAPError.invalidCbor.code
  | some makeCredential =>
    let payload ← guarded (pure ()) (makeCredential.buildResponse L)
    replyWith (pure ()) request.cid payload

def handleGetAssertion (L : Libraries) (request : CborRequest) : HandlerProc CTAPPacket := do
  reset
  match CTAPGetAssertionRequest.parseRequest L.walk request.parameters with
  | none =>
    reset
    return makeCborError request.cid CTAPError.invalidCbor.code
  | some getAssertion =>
    Proc.modify fun d => { d with getAssertion }
    let payload ← guarded reset (CTAPGetAssertionRequest.buildResponse L request.cid)
    replyWith reset request.cid payload

def handleGetNextAssertion (L : Libraries) (request : CborRequest) : HandlerProc CTAPPacket := do
  let originCid ← Proc.read fun d => d.getAssertion.sequence.originCid
  if originCid = 0 ∨ originCid ≠ request.cid then
    return makeCborError request.cid CTAPError.notAllowed.code
  if request.parameters ≠ [] then
    reset
    return makeCborError request.cid CTAPError.invalidCommand.code
  let payload ← guarded reset (CTAPGetAssertionRequest.buildResponseNext L request.cid)
  replyWith reset request.cid payload

def handle (L : Libraries) (request : CborRequest) : HandlerProc CTAPPacket := do
  if request.command ≠ 0x02 ∧ request.command ≠ 0x08 then reset
  if request.command = 0x04 then handleGetInfo request
  else if request.command = 0x01 then handleMakeCredential L request
  else if request.command = 0x02 then handleGetAssertion L request
  else if request.command = 0x08 then handleGetNextAssertion L request
  else return makeCborError request.cid CTAPError.invalidCommand.code

def executeCtapRequest (L : Libraries) (request : CborRequest) : HandlerProc CTAPPacket :=
  tryCatch (do
    cancellationPoint
    handle L request) fun e => do
    reset
    throw e

end VAuth.Ctap
