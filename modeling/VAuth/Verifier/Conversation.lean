import VAuth.Verifier.Protocol

/-!
# The conversation of the verifier protocol

`advance_verifier_conversation`, the automaton that both ends of a connection run on the
packets they send and receive.
-/

namespace VAuth.Verifier

inductive VerifierMessageSender where
  | daemon
  | pamVerifier
deriving DecidableEq

inductive VerifierConversationState where
  | awaitingStart
  | verifying
  | awaitingSecret
  | completed (result : VerificationResult)
  | cancelled
deriving DecidableEq

def invalidTransition : Exn :=
  .verifierConversationError "invalid verifier conversation transition"

def advanceVerifierConversation : VerifierConversationState → VerifierMessageSender →
    VerifierMessage → Except Exn VerifierConversationState
  | .awaitingStart, .daemon, .start _ => .ok .verifying
  | .verifying, .daemon, .cancel => .ok .cancelled
  | .verifying, .pamVerifier, .status _ => .ok .verifying
  | .verifying, .pamVerifier, .secretRequired _ => .ok .awaitingSecret
  | .verifying, .pamVerifier, .complete result => .ok (.completed result)
  | .awaitingSecret, .daemon, .secretResponse _ => .ok .verifying
  | .awaitingSecret, .daemon, .cancel => .ok .cancelled
  | .awaitingSecret, .pamVerifier, .complete .error => .ok (.completed .error)
  | _, _, _ => .error invalidTransition

/-- The moves of the conversation. -/
inductive Advances : VerifierConversationState → VerifierMessageSender → VerifierMessage →
    VerifierConversationState → Prop
  | start (start : StartVerification) : Advances .awaitingStart .daemon (.start start) .verifying
  | cancel : Advances .verifying .daemon .cancel .cancelled
  | status (status : VerificationStatus) :
      Advances .verifying .pamVerifier (.status status) .verifying
  | prompt (required : SecretRequired) :
      Advances .verifying .pamVerifier (.secretRequired required) .awaitingSecret
  | complete (result : VerificationResult) :
      Advances .verifying .pamVerifier (.complete result) (.completed result)
  | answer (secret : Bytes) : Advances .awaitingSecret .daemon (.secretResponse secret) .verifying
  | cancelPrompt : Advances .awaitingSecret .daemon .cancel .cancelled
  | giveUp : Advances .awaitingSecret .pamVerifier (.complete .error) (.completed .error)

variable {next : VerifierConversationState} {sender : VerifierMessageSender}
  {message : VerifierMessage}

theorem advances_of_ok {c : VerifierConversationState}
    (h : advanceVerifierConversation c sender message = .ok next) :
    Advances c sender message next := by
  unfold advanceVerifierConversation at h
  split at h <;> cases h <;> constructor

/-- A packet is received and moves the conversation on. -/
def receiveAndAdvance (arrived : Option Bytes) (conversation : VerifierConversationState)
    (sender : VerifierMessageSender) : Except Exn (VerifierMessage × VerifierConversationState) := do
  let message ← receiveVerifierMessage arrived
  let next ← advanceVerifierConversation conversation sender message
  return (message, next)

theorem receiveAndAdvance_eq_ok {arrived : Option Bytes}
    {conversation : VerifierConversationState} :
    receiveAndAdvance arrived conversation sender = .ok (message, next) ↔
      receiveVerifierMessage arrived = .ok message ∧
        advanceVerifierConversation conversation sender message = .ok next := by
  unfold receiveAndAdvance
  rw [bind_eq_ok]
  constructor
  · rintro ⟨message', hMessage, hNext⟩
    obtain ⟨next', hAdvance, hPair⟩ := bind_eq_ok.mp hNext
    cases hPair
    exact ⟨hMessage, hAdvance⟩
  · rintro ⟨hMessage, hAdvance⟩
    exact ⟨message, hMessage, bind_eq_ok.mpr ⟨next, hAdvance, rfl⟩⟩

theorem throws_receiveAndAdvance (arrived : Option Bytes) (conversation : VerifierConversationState)
    (sender : VerifierMessageSender) :
    ThrowsOfVerifier (receiveAndAdvance arrived conversation sender) := by
  refine throws_bind (throws_receiveVerifierMessage _) fun message =>
    throws_bind ?_ fun _ => throws_ok _
  unfold advanceVerifierConversation
  split <;> first | exact throws_ok _ | exact throws_error rfl

def verifierConversationIsTerminal : VerifierConversationState → Bool
  | .completed _ => true
  | .cancelled => true
  | _ => false

end VAuth.Verifier
