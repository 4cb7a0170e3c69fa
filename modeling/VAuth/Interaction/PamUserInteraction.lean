import VAuth.Dbus.AgentService

/-!
# Asking the user

`PamUserInteraction`: `request_presence` and `request_verification` over the channel to the
agent and the verifier service. The number of rounds bounds how long a run is followed in
each of the waits and in the loop of `run_verifier_service`.
-/

namespace VAuth

open Verifier Dbus Dbus.AgentService

/-! ## The verifier service as the worker sees it

A step after which the loop of `run_verifier_service` ends otherwise than at one of its
cancellation checks leaves its mark in `settled`. -/

def Dbus.AgentService.settle (s : AgentService) : AgentService := { s with settled := true }

/-- A message that the loop goes on after. -/
def goesOn : Except Exn VerifierMessage → Bool
  | .ok (.status _) => true
  | .ok (.secretRequired _) => true
  | _ => false

def clockExpired : AgentProc Bool :=
  Proc.atomically fun i s => (.ok i.expired, if i.expired then s.settle else s)

def connectToVerifier : AgentProc Unit :=
  Proc.atomically fun i s =>
    if i.connected then (.ok (), s)
    else (.error (.systemError "connect to PAM verifier"), s.settle)

def sendToVerifier (message : VerifierMessage) : AgentProc Unit :=
  Proc.atomically fun i s =>
    match sendVerifierMessage i.sent message with
    | .ok _ => (.ok (), s)
    -- `send_cancel` swallows the failure and the cancellation goes its way.
    | .error e => (.error e, if message = .cancel then s else s.settle)

def pollVerifier : AgentProc Readiness :=
  Proc.atomically fun i s =>
    match i.poll with
    | some .hungUp => (.ok .hungUp, s.settle)
    | some readiness => (.ok readiness, s)
    | none => (.error (.systemError "poll PAM verifier socket"), s.settle)

def receiveFromVerifier (conversation : VerifierConversationState) :
    AgentProc (VerifierMessage × VerifierConversationState) :=
  Proc.atomically fun i s => (receiveAndAdvance i.packet conversation .pamVerifier,
    if goesOn (receiveVerifierMessage i.packet) then s else s.settle)

def statusState : VerificationStatusKind → UserInteractionState
  | .information => .verificationInformation
  | .error => .verificationError

def statusCallback (user : UserContext) (request : UserInteractionRequest)
    (status : VerificationStatus) : AgentProc Unit := do
  let _ ← publishState user request (statusState status.kind) status.message

def secretCallback (rounds : Nat) (user : UserContext) (request : UserInteractionRequest)
    (required : SecretRequired) : AgentProc Bytes := do
  if ← clockExpired then throw .userActionTimedOut
  let promptId ← publishState user request .secretRequired required.prompt
  if promptId = 0 then
    if ← cancellationRequested user request then throw .userInteractionCancelled
    throw .userInteractionUnavailable
  waitForSecret rounds user request promptId

def verifierClient (rounds : Nat) (user : UserContext) (request : UserInteractionRequest) :
    VerifierClient AgentService Dbus.Input where
  stopRequested := Proc.observe fun i _ => .ok i.stop
  cancellationRequested := cancellationRequested user request
  expired := clockExpired
  connect := connectToVerifier
  send := sendToVerifier
  poll := pollVerifier
  receive := receiveFromVerifier
  statusCallback := statusCallback user request
  secretCallback := secretCallback rounds user request

def authenticateUser (rounds : Nat) (user : UserContext) (request : UserInteractionRequest) :
    AgentProc VerificationResult :=
  match user.session with
  | none => throw .userInteractionUnavailable
  | some session => (verifierClient rounds user request).runVerifierService rounds
      { targetUid := user.uid, sessionId := session.sessionId }

/-! ## The ceremonies -/

def contextIsStillCurrent (user : UserContext) : AgentProc Bool := do
  return (← currentContext).any fun current => current.binding == user.binding

/-- The life of an `InteractionScope`: its destructor ends the interaction however the body
was left. -/
def interactionScope {α : Type} (user : UserContext) (request : UserInteractionRequest)
    (body : UserInteractionRequest → AgentProc α) : AgentProc α := do
  let requestId ← beginInteraction user request
  if requestId = 0 then throw .userInteractionUnavailable
  let active := { request with requestId }
  let outcome ← (body active).attempt
  endInteraction user active
  Proc.ofExcept outcome

/-- The answer to a presence request. -/
def concludePresence (user : UserContext) (active : UserInteractionRequest)
    (response : UserInteractionResult) : AgentProc UserInteractionResult := do
  if response = .cancelled then
    let _ ← publishState user active .cancelled []
    return .cancelled
  let approved ← if response = .approved then contextIsStillCurrent user else pure false
  let _ ← publishState user active (if approved then .presenceApproved else .presenceDenied) []
  return if approved then .approved else .denied

/-- The `catch` clauses of `request_presence`. -/
def presenceCaught (user : UserContext) (active : UserInteractionRequest) :
    Exn → AgentProc UserInteractionResult
  | .userInteractionCancelled => do
      let _ ← publishState user active .cancelled []
      return .cancelled
  | .operationCancelled => do
      let _ ← publishState user active .cancelled []
      throw .operationCancelled
  | .userActionTimedOut => do
      let _ ← publishState user active .timedOut []
      throw .userActionTimedOut
  | e => throw e

def presenceBody (rounds : Nat) (user : UserContext) (active : UserInteractionRequest) :
    AgentProc UserInteractionResult := do
  let _ ← publishState user active .presenceRequired []
  tryCatch ((waitForPresence rounds user active).bind (concludePresence user active))
    (presenceCaught user active)

/-- The `switch` on the result of the verification. -/
def concludeVerification (user : UserContext) (active : UserInteractionRequest) :
    VerificationResult → AgentProc UserInteractionResult
  | .success => do
      if ¬ (← contextIsStillCurrent user) then
        let _ ← publishState user active .verificationFailed []
        throw .verificationInfrastructureError
      let _ ← publishState user active .verificationSucceeded []
      return .approved
  | .denied => do
      let _ ← publishState user active .verificationFailed []
      return .denied
  | .error => do
      let _ ← publishState user active .verificationFailed []
      throw .verificationInfrastructureError

/-- The `catch` clauses of `request_verification`. -/
def verificationCaught (user : UserContext) (active : UserInteractionRequest) :
    Exn → AgentProc UserInteractionResult
  | .userInteractionCancelled => do
      let _ ← publishState user active .cancelled []
      return .cancelled
  | .operationCancelled => do
      let _ ← publishState user active .cancelled []
      throw .operationCancelled
  | .userActionTimedOut => do
      let _ ← publishState user active .timedOut []
      throw .userActionTimedOut
  | .verificationInfrastructureError => throw .verificationInfrastructureError
  | _ => do
      let _ ← publishState user active .verificationFailed []
      throw .verificationInfrastructureError

def verificationBody (rounds : Nat) (user : UserContext) (active : UserInteractionRequest) :
    AgentProc UserInteractionResult := do
  let _ ← publishState user active .verificationStarted []
  tryCatch ((authenticateUser rounds user active).bind (concludeVerification user active))
    (verificationCaught user active)

def requestPresence (rounds : Nat) (user : UserContext) (request : UserInteractionRequest) :
    AgentProc UserInteractionResult :=
  interactionScope user request (presenceBody rounds user)

def requestVerification (rounds : Nat) (user : UserContext) (request : UserInteractionRequest) :
    AgentProc UserInteractionResult :=
  interactionScope user request (verificationBody rounds user)

end VAuth
