import VAuth.Process.Run
import VAuth.Verifier.Conversation

/-!
# The daemon's end of the verifier protocol

`run_verifier_service`, for any way to look at the stop token, the clock and the
cancellation, to talk to the socket and to call back. The deadline is always 30 seconds
ahead and both callbacks are given, so the arguments that the function refuses do not occur.
-/

namespace VAuth.Verifier

/-- The outcome of one `poll` for input. -/
inductive Readiness where
  | nothing
  | readable
  | hungUp
deriving DecidableEq

/-- What `run_verifier_service` is given and what it calls. -/
structure VerifierClient (σ ι : Type) where
  stopRequested : Proc σ ι Exn Bool
  cancellationRequested : Proc σ ι Exn Bool
  /-- Whether the clock has reached the deadline. -/
  expired : Proc σ ι Exn Bool
  connect : Proc σ ι Exn Unit
  send : VerifierMessage → Proc σ ι Exn Unit
  poll : Proc σ ι Exn Readiness
  /-- Receive a packet and move the conversation on. -/
  receive : VerifierConversationState → Proc σ ι Exn (VerifierMessage × VerifierConversationState)
  statusCallback : VerificationStatus → Proc σ ι Exn Unit
  secretCallback : SecretRequired → Proc σ ι Exn Bytes
  /-- The exception for a message that the conversation followed and that is of no use here. -/
  reject : String → Proc σ ι Exn (VerifierConversationState ⊕ VerificationResult) :=
    fun message => throw (.verifierConversationError message)

variable {σ ι : Type}

namespace VerifierClient

variable (C : VerifierClient σ ι)

/-- The lambda `send_cancel`, which swallows every failure. -/
def sendCancel (conversation : VerifierConversationState) : Proc σ ι Exn Unit :=
  if verifierConversationIsTerminal conversation then return ()
  else tryCatch (C.send .cancel) fun _ => return ()

/-- The checks for a stop and for a cancellation. -/
def checkCancelled (conversation : VerifierConversationState) : Proc σ ι Exn Unit := do
  if ← C.stopRequested then
    C.sendCancel conversation
    throw .operationCancelled
  if ← C.cancellationRequested then
    C.sendCancel conversation
    throw .userInteractionCancelled

/-- A message has arrived: the next state of the conversation, or the result. -/
def handleMessage (message : VerifierMessage) (conversation : VerifierConversationState) :
    Proc σ ι Exn (VerifierConversationState ⊕ VerificationResult) := do
  match message with
  | .status status =>
    C.statusCallback status
    return .inl conversation
  | .secretRequired required =>
    let secret ← C.secretCallback required
    C.checkCancelled conversation
    C.send (.secretResponse secret)
    let conversation ← Proc.ofExcept
      (advanceVerifierConversation conversation .daemon (.secretResponse secret))
    return .inl conversation
  | .complete result => return .inr result
  | _ => C.reject "PAM verifier sent a daemon-only message"

/-- One round of the loop. -/
def serviceRound (conversation : VerifierConversationState) :
    Proc σ ι Exn (VerifierConversationState ⊕ VerificationResult) := do
  C.checkCancelled conversation
  if ← C.expired then
    C.sendCancel conversation
    throw .userActionTimedOut
  match ← C.poll with
  | .nothing => return .inl conversation
  | .hungUp =>
    throw (.verifierSocketError "PAM verifier connection closed without a response")
  | .readable =>
    let (message, conversation) ← C.receive conversation
    C.handleMessage message conversation

def runVerifierService (rounds : Nat) (start : StartVerification) :
    Proc σ ι Exn VerificationResult := do
  if ← C.stopRequested then throw .operationCancelled
  if ← C.cancellationRequested then throw .userInteractionCancelled
  C.connect
  C.send (.start start)
  let conversation ← Proc.ofExcept
    (advanceVerifierConversation .awaitingStart .daemon (.start start))
  Proc.loop C.serviceRound rounds conversation

end VerifierClient

end VAuth.Verifier
