import VAuth.Exception

/-!
# Users and what they are asked

The identity and session snapshot of a ceremony (`user_context.hpp`), and the requests,
results and states of a user interaction (`user_interaction.hpp`).
-/

namespace VAuth

/-- One registration of a UI agent in a local login session. -/
structure UserSessionContext where
  sessionId : Bytes
  interactionAgentId : Bytes
  generation : UInt64
deriving DecidableEq

structure UserContextBinding where
  uid : UInt32
  session : Option UserSessionContext
deriving DecidableEq

structure UserContext where
  uid : UInt32
  name : Bytes
  session : Option UserSessionContext
deriving DecidableEq

def UserContext.binding (user : UserContext) : UserContextBinding :=
  { uid := user.uid, session := user.session }

inductive UserInteractionOperation where
  | makeCredential
  | getAssertion
  | checkExcludedCredential
deriving DecidableEq

structure UserInteractionRequest where
  operation : UserInteractionOperation
  relyingPartyId : Bytes
  requestId : UInt64 := 0
deriving DecidableEq

inductive UserInteractionResult where
  | approved
  | denied
  | cancelled
deriving DecidableEq

inductive UserInteractionState where
  | presenceRequired
  | presenceApproved
  | presenceDenied
  | verificationStarted
  | verificationInformation
  | verificationError
  | secretRequired
  | verificationSucceeded
  | verificationFailed
  | cancelled
  | timedOut
deriving DecidableEq

def userInteractionStateName : UserInteractionState → String
  | .presenceRequired => "presence_required"
  | .presenceApproved => "presence_approved"
  | .presenceDenied => "presence_denied"
  | .verificationStarted => "verification_started"
  | .verificationInformation => "verification_information"
  | .verificationError => "verification_error"
  | .secretRequired => "secret_required"
  | .verificationSucceeded => "verification_succeeded"
  | .verificationFailed => "verification_failed"
  | .cancelled => "cancelled"
  | .timedOut => "timed_out"

end VAuth
