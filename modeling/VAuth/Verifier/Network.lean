import VAuth.Process.Team
import VAuth.Verifier.Client
import VAuth.Verifier.Codec

/-!
# The parties of a verification and what joins them

The daemon, the verifier service that brokers the verification, and the worker that it starts
are joined by two `SOCK_SEQPACKET` connections: the outer one between the daemon and the
broker, the inner one between the broker and the worker. The verifier side of each is the one
that calls itself `pam_verifier` in the protocol.

A run is recorded as a history of what the parties did. The kernel's part is read off it: the
packets in flight on a wire are the ones sent and not yet taken, in their order, a socket is
closed once its owner has closed it, and the worker's exit status is the one it exited with.
-/

namespace VAuth.Verifier

inductive Party where
  | daemon
  | broker
  | worker
deriving DecidableEq

inductive Link where
  | outer
  | inner
deriving DecidableEq

/-- Who sends the packets of one direction of a link. -/
def Link.source : Link → VerifierMessageSender → Party
  | .outer, .daemon => .daemon
  | .outer, .pamVerifier => .broker
  | .inner, .daemon => .broker
  | .inner, .pamVerifier => .worker

def Link.target : Link → VerifierMessageSender → Party
  | .outer, .daemon => .broker
  | .outer, .pamVerifier => .daemon
  | .inner, .daemon => .worker
  | .inner, .pamVerifier => .broker

structure VerifierPeerCredentials where
  pid : Int
  uid : UInt32
  gid : UInt32
deriving DecidableEq

structure LoginSessionProperties where
  uid : UInt32
  active : Bool
  remote : Bool
deriving DecidableEq

/-- The status that `waitpid` reports. -/
inductive ExitStatus where
  | exited (code : UInt8)
  | signaled
  | other
deriving DecidableEq

inductive Happening where
  | sent (link : Link) (sender : VerifierMessageSender) (packet : Bytes)
  | received (link : Link) (sender : VerifierMessageSender) (packet : Bytes)
  /-- The packet was taken, and decoding it or following it failed. -/
  | refused (link : Link) (sender : VerifierMessageSender) (packet : Bytes)
  /-- `peer_credentials`. -/
  | peer (credentials : VerifierPeerCredentials)
  /-- `query_session` was asked about a session, and answered if it did not throw. -/
  | queried (sessionId : Bytes) (answer : Option LoginSessionProperties)
  | spawned (username : Bytes)
  | terminated
  | reaped (status : ExitStatus)
  /-- The party's sockets are closed. -/
  | closed (party : Party)
  /-- The worker has exited. -/
  | exited (status : ExitStatus)
deriving DecidableEq

/-- Whose doing it is; a death is nobody's. -/
def Happening.owner : Happening → Option Party
  | .sent link sender _ => some (link.source sender)
  | .received link sender _ => some (link.target sender)
  | .refused link sender _ => some (link.target sender)
  | .peer _ => some .broker
  | .queried _ _ => some .broker
  | .spawned _ => some .broker
  | .terminated => some .broker
  | .reaped _ => some .broker
  | .closed _ => none
  | .exited _ => none

def Happening.sentOn? (link : Link) (sender : VerifierMessageSender) : Happening → Option Bytes
  | .sent l s packet => if l = link ∧ s = sender then some packet else none
  | _ => none

def Happening.takenOn? (link : Link) (sender : VerifierMessageSender) : Happening → Option Bytes
  | .received l s packet => if l = link ∧ s = sender then some packet else none
  | .refused l s packet => if l = link ∧ s = sender then some packet else none
  | _ => none

def Happening.exit? : Happening → Option ExitStatus
  | .exited status => some status
  | _ => none

/-- An exit closes the worker's socket. -/
def Happening.closes (party : Party) : Happening → Bool
  | .closed p => p == party
  | .exited _ => party == .worker
  | _ => false

abbrev History := List Happening

namespace History

variable (h : History)

def sentOn (link : Link) (sender : VerifierMessageSender) : List Bytes :=
  h.filterMap (Happening.sentOn? link sender)

def takenOn (link : Link) (sender : VerifierMessageSender) : List Bytes :=
  h.filterMap (Happening.takenOn? link sender)

/-- The packet that the next `recvmsg` takes. -/
def next (link : Link) (sender : VerifierMessageSender) : Option Bytes :=
  (sentOn h link sender)[(takenOn h link sender).length]?

def gone (party : Party) : Bool := h.any (Happening.closes party)

def exitStatus : Option ExitStatus := h.findSome? Happening.exit?

/-- What one party did. -/
def transcript (party : Party) : History := h.filter fun e => e.owner = some party

/-- Packets are taken in the order in which they were sent. -/
def Fifo : Prop := ∀ link sender, takenOn h link sender <+: sentOn h link sender

end History

structure System where
  history : History := []
  /-- The state that the verifier side of a link keeps in an object: `state_` of the broker's
  `DaemonConversation` and `state` of the worker's `ConversationContext`. -/
  verifierState : Link → VerifierConversationState := fun _ => .awaitingStart
  /-- What was thrown for packets that the conversation had followed. -/
  rejections : List String := []

inductive PamStatus where
  | success
  | systemErr
  | bufErr
  | permDenied
  | authErr
  | credInsufficient
  | userUnknown
  | maxtries
  | newAuthtokReqd
  | acctExpired
  | convErr
  | other (code : Int)
deriving DecidableEq

inductive PamMessageStyle where
  | promptEchoOff
  | promptEchoOn
  | textInfo
  | errorMsg
  | other
deriving DecidableEq

/-- A `pam_message`; its text may be missing. -/
structure PamMessage where
  style : PamMessageStyle
  msg : Option Bytes
deriving DecidableEq

/-- What a function of PAM does next: it calls the conversation, with messages of which some
may be missing, or returns. -/
inductive PamStep where
  | converse (messages : List (Option PamMessage))
  | returned (status : PamStatus)
deriving DecidableEq

/-- What the environment decides at one step of a party. -/
structure Input where
  /-- The system call of the step fails. -/
  fails : Bool := false
  /-- `poll` sets `POLLIN` for a connection that was closed. -/
  pollIn : Bool := true
  interrupted : Bool := false
  stop : Bool := false
  cancel : Except Exn Bool := .ok false
  expired : Bool := false
  status : Except Exn Unit := .ok ()
  secret : Except Exn Bytes := .ok []
  credentials : VerifierPeerCredentials := { pid := 1, uid := 0, gid := 0 }
  session : Except Exn LoginSessionProperties := .error (.runtimeError "no session")
  username : Except Exn Bytes := .ok []
  pam : PamStep := .returned .success

abbrev PartyProc := Proc System Input Exn

namespace System

def log (e : Happening) (s : System) : System := { s with history := s.history ++ [e] }

def setVerifierState (link : Link) (state : VerifierConversationState) (s : System) : System :=
  { s with verifierState := Function.update s.verifierState link state }

/-- `VerifierSocket::send`: the kernel takes the packet unless the call fails or the peer is
gone. -/
def send (link : Link) (sender : VerifierMessageSender) (message : VerifierMessage) (i : Input)
    (s : System) : Except Exn Unit × System :=
  match sendVerifierMessage (!i.fails && !s.history.gone (link.target sender)) message with
  | .ok packet => (.ok (), s.log (.sent link sender packet))
  | .error e => (.error e, s)

/-- `VerifierSocket::receive` and the advance of the conversation. `none` says that `recvmsg`
still waits for a packet. -/
def receive (link : Link) (sender : VerifierMessageSender)
    (conversation : VerifierConversationState) (i : Input) (s : System) :
    Except Exn (Option (VerifierMessage × VerifierConversationState)) × System :=
  if i.fails then (.error (.systemError "receive verifier packet"), s)
  else
    match s.history.next link sender with
    | some packet =>
      match receiveAndAdvance (some packet) conversation sender with
      | .ok heard => (.ok (some heard), s.log (.received link sender packet))
      | .error e => (.error e, s.log (.refused link sender packet))
    | none =>
      if s.history.gone (link.source sender) then
        (.error (.verifierSocketError "verifier peer closed or sent an empty packet"), s)
      else (.ok none, s)

/-- `poll` for input; `operation` is what the error says. -/
def poll (link : Link) (sender : VerifierMessageSender) (operation : String) (i : Input)
    (s : System) : Except Exn Readiness :=
  if i.fails then .error (.systemError operation)
  else
    match s.history.next link sender with
    | some _ => .ok .readable
    | none =>
      if s.history.gone (link.source sender) then .ok (if i.pollIn then .readable else .hungUp)
      else .ok .nothing

end System

def send (link : Link) (sender : VerifierMessageSender) (message : VerifierMessage) :
    PartyProc Unit :=
  Proc.atomically (System.send link sender message)

def poll (link : Link) (sender : VerifierMessageSender) (operation : String) :
    PartyProc Readiness :=
  Proc.observe (System.poll link sender operation)

/-- The exception for a packet that the conversation followed and the reader cannot use. -/
def reject {α : Type} (message : String) : PartyProc α :=
  Proc.atomically fun _ s => (.error (.verifierConversationError message),
    { s with rejections := s.rejections ++ [message] })

/-- A round of a wait that goes on until there is something. -/
def untilSome {α : Type} : Option α → Unit ⊕ α
  | none => .inl ()
  | some a => .inr a

def receive (rounds : Nat) (link : Link) (sender : VerifierMessageSender)
    (conversation : VerifierConversationState) :
    PartyProc (VerifierMessage × VerifierConversationState) :=
  Proc.loop (fun _ => Proc.atomically fun i s =>
    let r := System.receive link sender conversation i s
    (r.1.map untilSome, r.2)) rounds ()

/-! ## The verifier side of a link

A packet is sent, or received, and the state of the conversation follows, in one step: nobody
else looks at it. -/

def sendAsVerifier (link : Link) (message : VerifierMessage) : PartyProc Unit :=
  Proc.atomically fun i s =>
    let r := System.send link .pamVerifier message i s
    match r.1 with
    | .error e => (.error e, r.2)
    | .ok () =>
      match advanceVerifierConversation (s.verifierState link) .pamVerifier message with
      | .ok next => (.ok (), r.2.setVerifierState link next)
      | .error e => (.error e, r.2)

def receiveAsVerifier (rounds : Nat) (link : Link) : PartyProc VerifierMessage :=
  Proc.loop (fun _ => Proc.atomically fun i s =>
    let r := System.receive link .daemon (s.verifierState link) i s
    match r.1 with
    | .error e => (.error e, r.2)
    | .ok none => (.ok (.inl ()), r.2)
    | .ok (some (message, next)) => (.ok (.inr message), r.2.setVerifierState link next))
    rounds ()

/-! ## The daemon -/

/-- The daemon's end: `run_verifier_service` with callbacks that return or throw anything. -/
def daemonClient (rounds : Nat) : VerifierClient System Input where
  stopRequested := Proc.observe fun i _ => .ok i.stop
  cancellationRequested := Proc.observe fun i _ => i.cancel
  expired := Proc.observe fun i _ => .ok i.expired
  connect := Proc.observe fun i _ =>
    if i.fails then .error (.systemError "connect to PAM verifier") else .ok ()
  send := send .outer .daemon
  poll := poll .outer .pamVerifier "poll PAM verifier socket"
  receive := receive rounds .outer .pamVerifier
  statusCallback := fun _ => Proc.observe fun i _ => i.status
  secretCallback := fun _ => Proc.observe fun i _ => i.secret
  reject := reject

def runVerifierService (rounds : Nat) (start : StartVerification) :
    PartyProc VerificationResult :=
  (daemonClient rounds).runVerifierService rounds start

end VAuth.Verifier
