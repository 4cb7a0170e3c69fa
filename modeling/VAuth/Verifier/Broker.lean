import VAuth.Verifier.Network

/-!
# The verifier service

`run_pam_verifier_connection` with its `DaemonConversation`, and the loop of
`run_cancellable_verifier_program` that starts the worker, relays its messages and waits for
its exit. `uid_t` has 32 bits, so the checks that a requested uid fits it have nothing to
refuse; the arguments that both functions refuse (an empty path, a timeout that is not
positive, a missing callback) do not occur.
-/

namespace VAuth.Verifier

def validateActiveLocalSession (session : LoginSessionProperties) (expectedUid : UInt32) :
    Except Exn Unit :=
  if session.uid ≠ expectedUid then .error (.runtimeError "Login session belongs to another user")
  else if ¬ session.active then .error (.runtimeError "Login session is not active")
  else if session.remote then .error (.runtimeError "Remote login sessions are not allowed")
  else .ok ()

def authorizeVerifierPeer (peer : VerifierPeerCredentials) (expectedDaemonUid : UInt32) :
    Except Exn Unit :=
  if peer.pid ≤ 0 then .error (.runtimeError "PAM verifier peer has no process ID")
  else if peer.uid ≠ expectedDaemonUid then
    .error (.runtimeError "PAM verifier peer is not the vAuth daemon user")
  else .ok ()

def authorizeVerificationSession (request : StartVerification) (session : LoginSessionProperties) :
    Except Exn Unit :=
  if request.sessionId.isEmpty then
    .error (.invalidArgument "verification session ID is empty")
  else validateActiveLocalSession session request.targetUid

/-! ## The conversation with the daemon -/

namespace DaemonConversation

def sendFromVerifier (message : VerifierMessage) : PartyProc Unit := sendAsVerifier .outer message

def receiveFromDaemon (rounds : Nat) : PartyProc VerifierMessage := receiveAsVerifier rounds .outer

def receiveStart (rounds : Nat) : PartyProc StartVerification := do
  match ← receiveFromDaemon rounds with
  | .start start => return start
  | _ => reject "daemon did not start verification"

def sendStatus (status : VerificationStatus) : PartyProc Unit := sendFromVerifier (.status status)

def requestSecret (rounds : Nat) (required : SecretRequired) : PartyProc Bytes := do
  sendFromVerifier (.secretRequired required)
  match ← receiveFromDaemon rounds with
  | .cancel => throw .userInteractionCancelled
  | .secretResponse secret => return secret
  | _ => reject "daemon did not answer the verification prompt"

def cancellationRequested (rounds : Nat) : PartyProc Bool := do
  let state ← Proc.read fun s => s.verifierState .outer
  if verifierConversationIsTerminal state then return decide (state = .cancelled)
  match ← poll .outer .daemon "poll verifier daemon connection" with
  | .nothing => return false
  | .hungUp => throw (.verifierSocketError "verifier daemon connection closed")
  | .readable =>
    match ← receiveFromDaemon rounds with
    | .cancel => return true
    | _ => reject "daemon sent a response when no secret was requested"

def complete (result : VerificationResult) : PartyProc Unit := sendFromVerifier (.complete result)

end DaemonConversation

/-! ## The worker's process -/

/-- `ChildProcess::poll`. -/
def childPoll : PartyProc (Option UInt8) :=
  Proc.atomically fun i s =>
    if i.fails then (.error (.systemError "waitpid"), s)
    else if i.interrupted then (.ok none, s)
    else
      match s.history.exitStatus with
      | none => (.ok none, s)
      | some (.exited code) => (.ok (some code), s.log (.reaped (.exited code)))
      | some .signaled =>
        (.error (.runtimeError "child process terminated by signal"), s.log (.reaped .signaled))
      | some .other =>
        (.error (.runtimeError "child process returned an invalid status"), s.log (.reaped .other))

def terminateAndReap : PartyProc Unit := Proc.modify (System.log .terminated)

def makeVerifierSocketPair : PartyProc Unit :=
  Proc.observe fun i _ =>
    if i.fails then .error (.systemError "create verifier socket pair") else .ok ()

def spawnProgram (username : Bytes) : PartyProc Unit :=
  Proc.atomically fun i s =>
    if i.fails then (.error (.systemError "posix_spawn"), s) else (.ok (), s.log (.spawned username))

/-! ## Running the worker -/

/-- What `run_cancellable_verifier_program` is given to call. -/
structure ProgramCallbacks where
  stopRequested : PartyProc Bool
  status : VerificationStatus → PartyProc Unit
  secret : SecretRequired → PartyProc Bytes
  cancellationRequested : PartyProc Bool

/-- The lambda `send_cancel`, which swallows every failure. -/
def sendCancel (conversation : VerifierConversationState) : PartyProc Unit :=
  if verifierConversationIsTerminal conversation then return ()
  else tryCatch (send .inner .daemon .cancel) fun _ => return ()

namespace ProgramCallbacks

variable (C : ProgramCallbacks) (rounds : Nat)

/-- The lambda `receive_message`: the conversation and what `completion` becomes. -/
def receiveMessage (conversation : VerifierConversationState) :
    PartyProc (VerifierConversationState × Option VerificationResult) := do
  let (message, conversation) ← receive rounds .inner .pamVerifier conversation
  match message with
  | .status status =>
    C.status status
    return (conversation, none)
  | .secretRequired required =>
    let secret ← C.secret required
    send .inner .daemon (.secretResponse secret)
    let conversation ← Proc.ofExcept
      (advanceVerifierConversation conversation .daemon (.secretResponse secret))
    return (conversation, none)
  | .complete result => return (conversation, some result)
  | _ => reject "verifier sent a daemon-only message"

/-- One round of the inner loop, which takes what the worker has sent. -/
def drainRound (conversation : VerifierConversationState) :
    PartyProc (VerifierConversationState ⊕
      (VerifierConversationState × Option VerificationResult)) := do
  match ← poll .inner .pamVerifier "poll verifier socket" with
  | .readable =>
    let (conversation, completion) ← C.receiveMessage rounds conversation
    if completion.isSome then return .inr (conversation, completion)
    return .inl conversation
  | _ => return .inr (conversation, none)

/-- The inner loop, unless there is a completion already. -/
def drain (conversation : VerifierConversationState) :
    Option VerificationResult → PartyProc (VerifierConversationState × Option VerificationResult)
  | some result => return (conversation, some result)
  | none => Proc.loop (C.drainRound rounds) rounds conversation

/-- The checks for a stop and for a cancellation. -/
def checkCancelled (conversation : VerifierConversationState) : PartyProc Unit := do
  if ← C.stopRequested then
    sendCancel conversation
    terminateAndReap
    throw .operationCancelled
  if ← C.cancellationRequested then
    sendCancel conversation
    terminateAndReap
    throw .userInteractionCancelled

/-- The worker has exited. -/
def conclude (code : UInt8) : Option VerificationResult → Except Exn VerificationResult
  | none => .error (.runtimeError "verifier exited without a completion message")
  | some result =>
    if (code == 0) != (result == .success) then
      .error (.runtimeError "verifier exit status contradicts its result")
    else .ok result

/-- One round of the outer loop, on the conversation and the completion so far. -/
def programRound (talk : VerifierConversationState × Option VerificationResult) :
    PartyProc ((VerifierConversationState × Option VerificationResult) ⊕ VerificationResult) := do
  let (conversation, completion) ← C.drain rounds talk.1 talk.2
  C.checkCancelled conversation
  match ← childPoll with
  | some code =>
    let result ← Proc.ofExcept (conclude code completion)
    return .inr result
  | none =>
    if ← Proc.observe fun i _ => .ok i.expired then
      sendCancel conversation
      terminateAndReap
      throw .userActionTimedOut
    return .inl (conversation, completion)

def runCancellableVerifierProgram (username : Bytes) (start : StartVerification) :
    PartyProc VerificationResult := do
  if ← C.stopRequested then throw .operationCancelled
  if ← C.cancellationRequested then throw .userInteractionCancelled
  makeVerifierSocketPair
  spawnProgram username
  send .inner .daemon (.start start)
  let conversation ← Proc.ofExcept
    (advanceVerifierConversation .awaitingStart .daemon (.start start))
  Proc.loop (C.programRound rounds) rounds (conversation, none)

end ProgramCallbacks

/-! ## Serving a connection -/

def peerCredentials : PartyProc VerifierPeerCredentials :=
  Proc.atomically fun i s =>
    if i.fails then (.error (.systemError "inspect verifier peer credentials"), s)
    else if i.credentials.pid ≤ 0 then
      (.error (.verifierSocketError "verifier peer returned invalid credentials"), s)
    else (.ok i.credentials, s.log (.peer i.credentials))

def querySession (sessionId : Bytes) : PartyProc LoginSessionProperties :=
  Proc.atomically fun i s => (i.session, s.log (.queried sessionId i.session.toOption))

def usernameForUid (_requestedUid : UInt32) : PartyProc Bytes := Proc.observe fun i _ => i.username

/-- The callbacks relay to the daemon; the stop token is one that is never stopped. -/
def relay (rounds : Nat) : ProgramCallbacks where
  stopRequested := return false
  status := DaemonConversation.sendStatus
  secret := DaemonConversation.requestSecret rounds
  cancellationRequested := DaemonConversation.cancellationRequested rounds

/-- Query the session and authorize the request for it. -/
def authorizeSession (start : StartVerification) : PartyProc Unit := do
  let session ← querySession start.sessionId
  Proc.ofExcept (authorizeVerificationSession start session)

/-- `catch(...) { daemon.complete(VerificationResult::error); throw; }` -/
def completeWithError {α : Type} (e : Exn) : PartyProc α := do
  DaemonConversation.complete .error
  throw e

def runPamVerifierConnection (rounds : Nat) (expectedDaemonUid : UInt32) : PartyProc Unit := do
  let peer ← peerCredentials
  Proc.ofExcept (authorizeVerifierPeer peer expectedDaemonUid)
  let start ← DaemonConversation.receiveStart rounds
  let username ← tryCatch (do authorizeSession start; usernameForUid start.targetUid)
    completeWithError
  tryCatch (do
      let result ← (relay rounds).runCancellableVerifierProgram rounds username start
      if result = .success then tryCatch (authorizeSession start) completeWithError
      DaemonConversation.complete result)
    fun
    | .userInteractionCancelled => return ()
    | e => throw e

end VAuth.Verifier
