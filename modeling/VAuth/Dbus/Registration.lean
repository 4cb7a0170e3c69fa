import VAuth.Dbus.AgentService
import VAuth.Process.Team

/-!
# Registrations of the UI agent, lock by lock

`AgentRegistry::register_agent` and the handlers of the D-Bus thread, each as the sequence of
critical sections it passes through: the identity check, the session check, the registry of agents
and the registry of interactions are separate steps. The worker of a ceremony calls the functions
of the channel meanwhile, so that the two threads are a team on one state.

What happened to the registrations is noted beside the service; the program has no such list.
-/

namespace VAuth.Dbus

open Proc

/-- What the bus and the login manager say of the sender of a call. -/
structure AgentPeer where
  uid : UInt32
  userName : Bytes
  sessionId : Bytes
  busName : Bytes
deriving DecidableEq

def samePeer (context : UserContext) (peer : AgentPeer) : Bool :=
  context.uid == peer.uid && context.name == peer.userName && context.session.any fun session =>
      session.sessionId == peer.sessionId && session.interactionAgentId == peer.busName

def validatePeer (peer : AgentPeer) : Except Exn Unit :=
  if peer.userName = [] ∨ peer.sessionId = [] ∨ peer.busName = [] ∨
      peer.busName.head? ≠ some AgentService.uniqueNameMark then
    .error (.invalidArgument "Invalid user-interaction agent identity")
  else .ok ()

/-- The context of a new registration. -/
def AgentPeer.context (peer : AgentPeer) (generation : UInt64) : UserContext where
  uid := peer.uid
  name := peer.userName
  session := some {
    sessionId := peer.sessionId
    interactionAgentId := peer.busName
    generation }

def AgentRegistry.registerAgent (r : AgentRegistry) (peer : AgentPeer) :
    Except Exn (UserContext × AgentRegistry) := do
  validatePeer peer
  match r.current with
  | some current =>
    if samePeer current peer then return (current, r)
    throw (.runtimeError "Another user-interaction agent is already registered")
  | none =>
    if exhausted r.nextGeneration then
      throw (.overflowError "User-interaction agent generation is exhausted")
    return (peer.context r.nextGeneration,
      { current := some (peer.context r.nextGeneration)
        nextGeneration := r.nextGeneration + 1 })

/-- What `unregister_agent` returns: whether the current agent has this name. -/
def AgentRegistry.isRegistered (r : AgentRegistry) (busName : Bytes) : Bool :=
  r.current.any fun current => current.session.any (·.interactionAgentId == busName)

namespace AgentService

/-! ## The handlers of the D-Bus thread -/

/-- `session_is_still_active`. -/
def sessionIsStillActive (context : UserContext) : AgentProc Bool :=
  Proc.observe fun i _ => .ok (context.session.isSome && i.sessionActive)

/-- The interaction of the agent is cleared, then its registration. -/
def discard (context : UserContext) (busName : Bytes) : AgentProc Unit := do
  Proc.modify fun s => { s with interactions := s.interactions.clearFor context }
  Proc.modify fun s => { s with registry := s.registry.unregisterAgent busName }

def contextName (context : UserContext) : Bytes :=
  (context.session.map (·.interactionAgentId)).getD []

def enroll (peer : AgentPeer) : AgentProc UserContext :=
  Proc.atomically fun _ s => match s.registry.registerAgent peer with
    | .error e => (.error e, s)
    | .ok (context, registry) => (.ok context, { s with registry })

/-- A registration whose session is no longer active makes room for a new one. -/
def discardInactive : AgentProc Unit := do
  match ← Proc.read fun s => s.registry.current with
  | none => return ()
  | some current =>
    if ¬ (← sessionIsStillActive current) then discard current (contextName current)

/-- `RegisterAgent`; `peer` is what `resolve_peer` gives. The reply is the generation. -/
def registerAgent (peer : Except Exn AgentPeer) : AgentProc UInt64 := do
  let peer ← Proc.ofExcept peer
  discardInactive
  let context ← enroll peer
  return (context.session.map (·.generation)).getD 0

/-- `UnregisterAgent`. -/
def unregisterAgent (sender : Bytes) : AgentProc Unit := do
  if sender.head? ≠ some uniqueNameMark then
    throw (.runtimeError "Agent has no unique bus name")
  match (← Proc.read fun s => s.registry.current).filter fun current =>
      current.session.any (·.interactionAgentId == sender) with
  | none => throw (.runtimeError "Calling agent is not registered")
  | some current =>
    Proc.modify fun s => { s with interactions := s.interactions.clearFor current }
    Proc.atomically fun _ s =>
      (if s.registry.isRegistered sender then .ok ()
        else .error (.runtimeError "Calling agent is not registered"),
        { s with registry := s.registry.unregisterAgent sender })

/-- The interaction of the current agent is cleared, if it has this name. -/
def clearNamed (busName : Bytes) : AgentProc Unit := do
  match (← Proc.read fun s => s.registry.current).filter fun current =>
      current.session.any (·.interactionAgentId == busName) with
  | none => return ()
  | some current =>
    Proc.modify fun s => { s with interactions := s.interactions.clearFor current }

/-- A name has lost its owner. -/
def unregisterDisconnectedAgent (busName : Bytes) : AgentProc Unit := do
  clearNamed busName
  Proc.modify fun s => { s with registry := s.registry.unregisterAgent busName }

def recordFailure (message : String) : AgentProc Unit := do
  Proc.modify fun s => { s with failure := some message }
  match ← Proc.read fun s => s.registry.current with
  | none => return ()
  | some context => discard context (contextName context)

/-- `registered_caller`, step by step. -/
def findCaller (call : AgentCall) : AgentProc UserContext := do
  match (← Proc.read fun s => s.registry.current).filter fun current =>
      call.sender.head? == some uniqueNameMark &&
      current.session.any fun session =>
        session.interactionAgentId == call.sender && session.generation == call.generation with
  | none => throw (.runtimeError "Calling agent registration is stale")
  | some current =>
    if ← sessionIsStillActive current then return current
    discard current call.sender
    throw (.runtimeError "Calling agent session is not active")

end AgentService

/-! ## The two threads -/

inductive Party where
  | worker
  | bus
deriving DecidableEq

/-- What happened to the registrations, what `RegisterAgent` replied, and which answers counted. -/
inductive AgentEvent where
  | registered (context : UserContext)
  | replied (peer : Except Exn AgentPeer) (generation : UInt64)
  | unregistered (party : Party) (context : UserContext)
  | begun (user : UserContextBinding) (requestId : UInt64)
  | accepted (call : AgentService.AgentCall) (user : UserContextBinding) (requestId : UInt64)

/-- The service, and what happened so far. -/
structure Observed where
  service : AgentService := {}
  history : List AgentEvent := []

/-- What a step of this thread did to the current agent, and whether it began an interaction. -/
def changes (party : Party) (s s' : AgentService) : List AgentEvent :=
  (if s.registry.current = s'.registry.current then []
    else (s.registry.current.map (AgentEvent.unregistered party)).toList ++
      (s'.registry.current.map AgentEvent.registered).toList) ++
  match s.interactions.current, s'.interactions.current with
  | none, some p => [.begun p.user p.requestId]
  | _, _ => []

def Observed.advance (party : Party) (o : Observed) (s : AgentService) : Observed where
  service := s
  history := o.history ++ changes party o.service s

abbrev ObservedProc := Proc Observed Input Exn

/-- A function of the service, called by this thread. -/
def watch {α : Type} (party : Party) (p : AgentProc α) : ObservedProc α :=
  p.zoom Observed.service (fun s o => o.advance party s) id

/-- The last step of a method call of the agent. -/
def answer (call : AgentService.AgentCall) (user : UserContext) : ObservedProc Unit :=
  Proc.atomically fun _ o => match o.service.perform user call.method with
    | .error e => (.error e, o)
    | .ok s =>
      (.ok (), { service := s, history := o.history ++ (o.service.interactions.current.map fun p =>
          AgentEvent.accepted call p.user p.requestId).toList })

/-- A method call of the agent, served by the D-Bus thread step by step. -/
def serveCall (call : AgentService.AgentCall) : ObservedProc Unit := do
  let user ← watch .bus (AgentService.findCaller call)
  answer call user

/-- What the D-Bus thread is asked to do. -/
inductive BusCall where
  | registerAgent (peer : Except Exn AgentPeer)
  | unregisterAgent (sender : Bytes)
  | nameLost (busName : Bytes)
  | method (call : AgentService.AgentCall)
  | failure (message : String)

/-- The reply of `RegisterAgent` is sent. -/
def reply (peer : Except Exn AgentPeer) (generation : UInt64) : ObservedProc Unit :=
  Proc.modify fun o => { o with history := o.history ++ [.replied peer generation] }

def BusCall.proc : BusCall → ObservedProc Unit
  | .registerAgent peer => do
      let generation ← watch .bus (AgentService.registerAgent peer)
      reply peer generation
  | .unregisterAgent sender => watch .bus (AgentService.unregisterAgent sender)
  | .nameLost busName => watch .bus (AgentService.unregisterDisconnectedAgent busName)
  | .method call => serveCall call
  | .failure message => watch .bus (AgentService.recordFailure message)

/-- What the worker asks the channel for. -/
inductive ChannelCall where
  | currentContext
  | beginInteraction (user : UserContext) (request : UserInteractionRequest)
  | publishState (user : UserContext) (request : UserInteractionRequest)
      (state : UserInteractionState) (message : Bytes)
  | waitForPresence (rounds : Nat) (user : UserContext) (request : UserInteractionRequest)
  | waitForSecret (rounds : Nat) (user : UserContext) (request : UserInteractionRequest)
      (promptId : UInt64)
  | cancellationRequested (user : UserContext) (request : UserInteractionRequest)
  | endInteraction (user : UserContext) (request : UserInteractionRequest)

/-- The call; what it returns does not matter here. -/
def ChannelCall.proc : ChannelCall → ObservedProc Unit
  | .currentContext => do
      let _ ← watch .worker AgentService.currentContext
  | .beginInteraction user request => do
      let _ ← watch .worker (AgentService.beginInteraction user request)
  | .publishState user request state message => do
      let _ ← watch .worker (AgentService.publishState user request state message)
  | .waitForPresence rounds user request => do
      let _ ← watch .worker (AgentService.waitForPresence rounds user request)
  | .waitForSecret rounds user request promptId => do
      let _ ← watch .worker (AgentService.waitForSecret rounds user request promptId)
  | .cancellationRequested user request => do
      let _ ← watch .worker (AgentService.cancellationRequested user request)
  | .endInteraction user request => watch .worker (AgentService.endInteraction user request)

/-- One call after the other, however each ends. -/
def inTurn : List (ObservedProc Unit) → ObservedProc Unit
  | [] => done ()
  | call :: calls => do
      let _ ← call.attempt
      inTurn calls

/-- The two threads with their calls. -/
def agentTeam (channelCalls : List ChannelCall) (busCalls : List BusCall) :
    Team Observed Input Exn fun _ : Party => Unit
  | .worker => inTurn (channelCalls.map ChannelCall.proc)
  | .bus => inTurn (busCalls.map BusCall.proc)

end VAuth.Dbus
