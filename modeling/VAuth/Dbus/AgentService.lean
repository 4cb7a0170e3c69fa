import VAuth.Verifier.Client
import VAuth.Dbus.InteractionRegistry

/-!
# The D-Bus service of the UI agent

`AgentRegistry` and `AgentService`: the worker of a ceremony calls the functions of
`UserInteractionChannel`, the D-Bus thread serves the methods of the agent meanwhile. A
function of the channel is a process whose steps are the critical sections it passes
through. A served method is one step: while a registration stays current, nobody changes
what `registered_caller` looked at before the registry is called.

The queue of state events only leads to the D-Bus thread, which sends the events in order;
here the journal keeps every event that was ever queued.
-/

namespace VAuth.Dbus

structure AgentRegistry where
  current : Option UserContext := none
  nextGeneration : UInt64 := 1
deriving DecidableEq

def AgentRegistry.isCurrent (r : AgentRegistry) (context : UserContext) : Bool :=
  r.current.any fun current => current.binding == context.binding

def AgentRegistry.unregisterAgent (r : AgentRegistry) (busName : Bytes) : AgentRegistry :=
  match r.current.filter fun current =>
      current.session.any (·.interactionAgentId == busName) with
  | some _ => { r with current := none }
  | none => r

structure StateEvent where
  user : UserContext
  requestId : UInt64
  promptId : UInt64
  operation : UserInteractionOperation
  state : UserInteractionState
  relyingPartyId : Bytes
  message : Bytes
deriving DecidableEq

/-- What happened to the interactions, as an observer notes it down. -/
inductive Note where
  | begun (requestId : UInt64)
  | queued (event : StateEvent)
  | cancelAccepted (requestId : UInt64)
  | ended (requestId : UInt64)
deriving DecidableEq

/-- The members of `AgentService`, and two that the program does not have: the journal,
oldest note first, and `settled`, which is set when the worker has got from the verifier
service, or from the clock, what ends its loop there. -/
structure AgentService where
  registry : AgentRegistry := {}
  interactions : InteractionRegistry := {}
  failure : Option String := none
  journal : List Note := []
  settled : Bool := false
deriving DecidableEq

/-- The outcomes of the worker's next step: whether a stop was requested, whether the clock
has passed the deadline at hand, whether the login session is active, and what the calls on
the socket of the verifier service return. -/
structure Input where
  stop : Bool := false
  expired : Bool := false
  sessionActive : Bool := true
  connected : Bool := true
  sent : Bool := true
  poll : Option Verifier.Readiness := some .nothing
  packet : Option Bytes := none

abbrev AgentProc := Proc AgentService Input Exn

namespace AgentService

def note (s : AgentService) (n : Note) : AgentService := { s with journal := s.journal ++ [n] }

/-! ## The functions of the channel -/

def throwIfFailed : AgentProc Unit :=
  Proc.observe fun _ s =>
    match s.failure with
    | some what => .error (.runtimeError ("D-Bus service failed: " ++ what))
    | none => .ok ()

def currentContext : AgentProc (Option UserContext) := do
  throwIfFailed
  let context ← Proc.read fun s => s.registry.current
  throwIfFailed
  match context with
  | none => return none
  | some context =>
    if ← Proc.observe fun i _ => .ok (context.session.isSome && i.sessionActive) then
      return some context
    let busName := (context.session.map (·.interactionAgentId)).getD []
    Proc.modify fun s => { s with interactions := s.interactions.clearFor context }
    Proc.modify fun s => { s with registry := s.registry.unregisterAgent busName }
    return none

def beginInteraction (user : UserContext) (request : UserInteractionRequest) :
    AgentProc UInt64 := do
  throwIfFailed
  if request.requestId ≠ 0 then
    throw (.invalidArgument "Interaction already has a request ID")
  if user.session.isNone then return 0
  if ¬ (← Proc.read fun s => s.registry.isCurrent user) then return 0
  Proc.atomically fun _ s =>
    match s.interactions.begin user request.operation request.relyingPartyId with
    | .error e => (.error e, s)
    | .ok (requestId, interactions) =>
      (.ok requestId, ({ s with interactions, settled := false }.note (.begun requestId)))

def transition (user : UserContext) (request : UserInteractionRequest)
    (state : UserInteractionState) (message : Bytes) : AgentProc InteractionTransition :=
  Proc.atomically fun _ s =>
    match s.interactions.transition user request.requestId state message with
    | .error e => (.error e, s)
    | .ok (transition, interactions) => (.ok transition, { s with interactions })

/-- The second half of `publish_state`: the transition and, unless that was suppressed, the
event in the queue. -/
def queueTransition (user : UserContext) (request : UserInteractionRequest)
    (state : UserInteractionState) (message : Bytes) : AgentProc UInt64 := do
  let transition ← transition user request state message
  if ¬ transition.shouldPublish then return 0
  Proc.modify fun s => s.note (.queued
    { user, requestId := request.requestId, promptId := transition.promptId,
      operation := request.operation, state, relyingPartyId := request.relyingPartyId, message })
  return transition.promptId

def publishState (user : UserContext) (request : UserInteractionRequest)
    (state : UserInteractionState) (message : Bytes) : AgentProc UInt64 := do
  throwIfFailed
  if request.requestId = 0 ∨ user.session.isNone then return 0
  if ¬ (← Proc.read fun s => s.registry.isCurrent user) then return 0
  queueTransition user request state message

def endInteraction (user : UserContext) (request : UserInteractionRequest) : AgentProc Unit :=
  Proc.modify fun s =>
    { s with interactions := s.interactions.endInteraction user request.requestId }.note
      (.ended request.requestId)

/-- `InteractionRegistry::wait_for_presence`. -/
def awaitPresence (rounds : Nat) (user : UserContext) (requestId : UInt64) :
    AgentProc PresenceWaitResult :=
  Proc.loop (fun () => Proc.atomically fun i s =>
    let (result, interactions) := s.interactions.presenceRound user requestId i.stop i.expired
    (.ok (result.elim (.inl ()) .inr), { s with interactions })) rounds ()

/-- `InteractionRegistry::wait_for_secret`. -/
def awaitSecret (rounds : Nat) (user : UserContext) (requestId promptId : UInt64) :
    AgentProc SecretWaitResult :=
  Proc.loop (fun () => Proc.atomically fun i s =>
    let (result, interactions) :=
      s.interactions.secretRound user requestId promptId i.stop i.expired
    (.ok (result.elim (.inl ()) .inr), { s with interactions })) rounds ()

def waitForPresence (rounds : Nat) (user : UserContext) (request : UserInteractionRequest) :
    AgentProc UserInteractionResult := do
  throwIfFailed
  match ← awaitPresence rounds user request.requestId with
  | .approved => return .approved
  | .denied => return .denied
  | .timedOut => throw .userActionTimedOut
  | .clientCancelled => return .cancelled
  | .platformCancelled => throw .operationCancelled
  | .invalidated => throw .userInteractionUnavailable

def waitForSecret (rounds : Nat) (user : UserContext) (request : UserInteractionRequest)
    (promptId : UInt64) : AgentProc Bytes := do
  throwIfFailed
  match ← awaitSecret rounds user request.requestId promptId with
  | .provided secret => return secret
  | .timedOut => throw .userActionTimedOut
  | .clientCancelled => throw .userInteractionCancelled
  | .platformCancelled => throw .operationCancelled
  | .invalidated => throw .userInteractionUnavailable

/-- One that fails reads as a cancellation. -/
def cancellationRequested (user : UserContext) (request : UserInteractionRequest) :
    AgentProc Bool := do
  if ← Proc.read fun s => s.failure.isSome then return true
  if ¬ (← Proc.read fun s => s.registry.isCurrent user) then return true
  Proc.read fun s => s.interactions.cancellationRequested user request.requestId

/-! ## The methods of the agent -/

/-- The contents of the pipe, or why they could not be read. -/
def readSecretPipe (pipe : Except Exn Bytes) : Except Exn Bytes := do
  let secret ← pipe
  if secret.length > Verifier.maxVerificationSecretSize then
    throw (.invalidArgument "Secret is too long")
  if secret.contains 0 then throw (.invalidArgument "Secret contains a NUL byte")
  return secret

inductive AgentMethod where
  | respondToPresence (requestId : UInt64) (approved : Bool)
  | submitSecret (requestId promptId : UInt64) (secretPipe : Except Exn Bytes)
  | cancelInteraction (requestId : UInt64)

/-- A method call, with the unique bus name of its sender and the registration it is for. -/
structure AgentCall where
  sender : Bytes
  generation : UInt64
  method : AgentMethod

/-- The first byte of a unique bus name, a colon. -/
def uniqueNameMark : UInt8 := 58

def registeredCaller (s : AgentService) (sessionActive : Bool) (call : AgentCall) :
    Except Exn UserContext × AgentService :=
  match s.registry.current.filter fun current => call.sender.head? == some uniqueNameMark &&
      current.session.any fun session =>
        session.interactionAgentId == call.sender && session.generation == call.generation with
  | none => (.error (.runtimeError "Calling agent registration is stale"), s)
  | some current =>
    if sessionActive then (.ok current, s)
    else (.error (.runtimeError "Calling agent session is not active"),
      { s with interactions := s.interactions.clearFor current,
               registry := s.registry.unregisterAgent call.sender })

/-- The call of the registry behind a method, for the user that was found to be calling. -/
def perform (s : AgentService) (user : UserContext) : AgentMethod → Except Exn AgentService
  | .respondToPresence requestId approved => do
      return { s with interactions := ← s.interactions.respondToPresence user requestId approved }
  | .submitSecret requestId promptId secretPipe => do
      let secret ← readSecretPipe secretPipe
      return { s with
        interactions := ← s.interactions.submitSecret user requestId promptId secret }
  | .cancelInteraction requestId => do
      let interactions ← s.interactions.requestCancel user requestId
      return { s with interactions }.note (.cancelAccepted requestId)

/-- A method call, served by the D-Bus thread: the reply and the state after it. -/
def serve (s : AgentService) (sessionActive : Bool) (call : AgentCall) :
    Except Exn Unit × AgentService :=
  match s.registeredCaller sessionActive call with
  | (.error e, s') => (.error e, s')
  | (.ok user, _) =>
    match s.perform user call.method with
    | .error e => (.error e, s)
    | .ok s' => (.ok (), s')

/-! ## What an accepted method call changes -/

inductive Answered : AgentService → AgentService → Prop
  | presence {s : AgentService} {p : PendingInteraction} (approved : Bool)
      (hCurrent : s.interactions.current = some p) (hState : p.state = some .presenceRequired)
      (hOpen : p.responseClosed = false) :
      Answered s { s with interactions.current := some { p with
        presenceResponse := some approved, responseClosed := true } }
  | secret {s : AgentService} {p : PendingInteraction} {secret : Bytes}
      (hCurrent : s.interactions.current = some p)
      (hSecret : Verifier.validateSecret secret = .ok ()) :
      Answered s { s with
        interactions.current := some { p with secretSubmitted := true }
        interactions.secretResponse := some secret }
  | cancelled {s : AgentService} {p : PendingInteraction}
      (hCurrent : s.interactions.current = some p) (hState : p.state.isSome = true)
      (hOpen : p.responseClosed = false) :
      Answered s ({ s with interactions.current := some { p with
        cancelRequested := true, responseClosed := true } }.note (.cancelAccepted p.requestId))

theorem Answered.pending {s s' : AgentService} (h : Answered s s') :
    s.interactions.current ≠ none := by
  cases h with
  | presence approved hCurrent _ _ => simp [hCurrent]
  | secret hCurrent _ => simp [hCurrent]
  | cancelled hCurrent _ _ => simp [hCurrent]

theorem validateSecret_of_pipe {pipe : Except Exn Bytes} {secret : Bytes}
    (h : readSecretPipe pipe = .ok secret) : Verifier.validateSecret secret = .ok () := by
  obtain ⟨read, _, h⟩ := bind_eq_ok.mp h
  obtain ⟨hLength, h⟩ := guard_eq_ok.mp h
  obtain ⟨hNul, h⟩ := guard_eq_ok.mp h
  cases h
  unfold Verifier.validateSecret
  rw [if_neg hLength, if_neg hNul]

theorem answered_of_perform {s s' : AgentService} {user : UserContext} {method : AgentMethod}
    (h : s.perform user method = .ok s') : Answered s s' := by
  cases method with
  | respondToPresence requestId approved =>
    obtain ⟨interactions, hCall, h⟩ := bind_eq_ok.mp h
    cases h
    obtain ⟨p, hFind, hState, hOpen, rfl⟩ := InteractionRegistry.respondToPresence_ok hCall
    exact .presence approved (InteractionRegistry.find_eq_some.mp hFind).1 hState hOpen
  | submitSecret requestId promptId pipe =>
    obtain ⟨secret, hPipe, h⟩ := bind_eq_ok.mp h
    obtain ⟨interactions, hCall, h⟩ := bind_eq_ok.mp h
    cases h
    obtain ⟨p, hFind, -, -, -, -, -, rfl⟩ := InteractionRegistry.submitSecret_ok hCall
    exact .secret (InteractionRegistry.find_eq_some.mp hFind).1 (validateSecret_of_pipe hPipe)
  | cancelInteraction requestId =>
    obtain ⟨interactions, hCall, h⟩ := bind_eq_ok.mp h
    cases h
    obtain ⟨p, hFind, hState, hOpen, rfl⟩ := InteractionRegistry.requestCancel_ok hCall
    obtain ⟨hCurrent, _, rfl, _⟩ := InteractionRegistry.find_eq_some.mp hFind
    exact .cancelled hCurrent hState hOpen

theorem serve_cases {s : AgentService} {active : Bool} {call : AgentCall} {user : UserContext}
    (h : (s.serve active call).2.registry.isCurrent user = true) :
    (s.serve active call).2 = s ∨ Answered s (s.serve active call).2 := by
  unfold serve registeredCaller at h ⊢
  split
  · rename_i e s' hCaller
    rw [hCaller] at h
    split at hCaller
    · cases hCaller
      exact .inl rfl
    · rename_i current hCurrent
      split at hCaller
      · cases hCaller
      · cases hCaller
        -- The session is gone, and so is the registration.
        obtain ⟨hSome, hSender⟩ := Option.filter_eq_some_iff.mp hCurrent
        obtain ⟨session, hSession, hName⟩ := (Option.any_eq_true _ _).mp
          (Bool.and_eq_true_iff.mp hSender).2
        have hNamed : (current.session.any (·.interactionAgentId == call.sender)) = true :=
          (Option.any_eq_true _ _).mpr ⟨session, hSession, (Bool.and_eq_true_iff.mp hName).1⟩
        have hGone : (s.registry.unregisterAgent call.sender).current = none := by
          unfold AgentRegistry.unregisterAgent
          rw [Option.filter_eq_some_iff.mpr ⟨hSome, hNamed⟩]
        simp [AgentRegistry.isCurrent, hGone] at h
  · split
    · exact .inl rfl
    · rename_i s' hPerform
      exact .inr (answered_of_perform hPerform)

end AgentService

end VAuth.Dbus
