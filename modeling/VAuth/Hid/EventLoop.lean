import VAuth.Ctap.Authenticator
import VAuth.Hid.Framing

/-!
# The event loop

`run` of `event.cpp`: the loop that polls the device, assembles messages, answers the CTAPHID
commands and hands CBOR requests to a worker thread, one at a time. The loop is a process; the
worker threads are other parties, which run `execute_ctap_request` step by step and store their
result (`ThreadStep`). A task is known by its number. The log is not part of the program: it
notes what the loop and the workers did, in order.
-/

namespace VAuth.Ctap

open Proc Store

/-! ## State -/

structure ActiveTask where
  task : Nat
  generation : UInt64
  cid : UInt32
  nextKeepalive : Int
  cancelRequested : Bool := false
  discardResult : Bool := false

structure TaskResult where
  generation : UInt64
  cid : UInt32
  packet : CTAPPacket

/-- How far the thread of a task is. -/
inductive ThreadPhase where
  | executing (rest : HandlerProc CTAPPacket)
  | publishing (packet : CTAPPacket)
  | exiting

structure Thread where
  task : Nat
  generation : UInt64
  request : CborRequest
  stopRequested : Bool := false
  phase : ThreadPhase

/-- What a packet was sent for. -/
inductive Purpose where
  | reply (task : Nat)
  | keepalive (task : Nat)
  | other
deriving DecidableEq

inductive LoopEvent where
  | started (task : Nat) (request : CborRequest)
  /-- A command of a worker returned or threw. -/
  | handler (event : Event)
  /-- A worker stored its result, over another one or not. -/
  | published (task : Nat) (packet : CTAPPacket) (overwrites : Bool)
  | cancelRequested (task : Nat)
  /-- An INIT on an allocated channel, and the task it aborts. -/
  | initAccepted (cid : UInt32) (during : Option Nat)
  | sent (purpose : Purpose) (packet : CTAPPacket)
  /-- The loop cleared the handler while so many workers were running. -/
  | reset (running : Nat)
  /-- The active record was cleared. -/
  | cleared (task : Nat)

/-- The variables of `run`, the threads it has started and the daemon they work on. `worker` is
the task of the thread that the `jthread` owns; it is joinable if there is one. -/
structure LoopState where
  daemon : Daemon := {}
  allocatedCids : List UInt32 := []
  incoming : Option IncomingTransaction := none
  completion : Option TaskResult := none
  active : Option ActiveTask := none
  nextGeneration : UInt64 := 1
  worker : Option Nat := none
  threads : List Thread := []
  tasks : Nat := 0
  log : List LoopEvent := []

def LoopState.note (s : LoopState) (events : List LoopEvent) : LoopState :=
  { s with log := s.log ++ events }

/-- The conditions that `poll` reports. -/
structure PollEvents where
  shutdownFailed : Bool := false
  shutdown : Bool := false
  deviceFailed : Bool := false
  device : Bool := false

/-- What `device.get()` reads. -/
inductive DeviceEvent where
  | none
  | other
  | output (data : Bytes)

inductive KeepaliveStatus where
  | processing
  | upNeeded

def KeepaliveStatus.code : KeepaliveStatus → UInt8
  | processing => 0x01
  | upNeeded => 0x02

/-- The outcomes of the next step. -/
structure LoopInput where
  poll : Except Exn PollEvents := .ok {}
  signalRead : Bool := true
  now : Int := 0
  device : DeviceEvent := .none
  sent : Bool := true
  candidate : UInt32 := 0
  threadStarts : Bool := true
  status : KeepaliveStatus := .processing
  storage : Answer := .success

abbrev LoopProc := Proc LoopState LoopInput Exn

/-! ## Packets -/

def makeHidError (cid : UInt32) (error : HIDError) : CTAPPacket :=
  { cid, cmd := ctaphidError ||| mask, len := 1, payload := [error.code] }

/-- `CAPABILITY_CBOR | CAPABILITY_NMSG`. -/
def capabilities : UInt8 := 0x04 ||| 0x08

def handleInit (request : UHIDReport) (assignedCid : UInt32) : CTAPPacket :=
  if request.payload.length ≠ 8 then makeHidError request.cid .invalidLength
  else
    let payload := request.payload ++ channelId assignedCid ++
      [0x02, 0x01, 0x00, 0x00, capabilities]
    { cid := request.cid, cmd := ctaphidInit ||| mask, len := UInt16.ofNat payload.length, payload }

def handlePing (request : UHIDReport) : CTAPPacket where
  cid := request.cid
  cmd := ctaphidPing ||| mask
  len := UInt16.ofNat request.payload.length
  payload := request.payload

def keepalivePacket (cid : UInt32) (status : KeepaliveStatus) : CTAPPacket :=
  { cid, cmd := ctaphidKeepalive ||| mask, len := 1, payload := [status.code] }

/-- `send_packet`. The frames of a packet go out in one step. -/
def sendPacket (purpose : Purpose) (packet : CTAPPacket) : LoopProc Unit :=
  Proc.atomically fun i s => match packet.stringify with
    | .error e => (.error e, s)
    | .ok _ =>
      if i.sent then (.ok (), s.note [.sent purpose packet])
      else (.error (.runtimeError "Failed to send UHID response"), s)

/-- An error reply of the transport, after which the loop polls again. -/
def refuse (cid : UInt32) (error : HIDError) : LoopProc Bool := do
  sendPacket .other (makeHidError cid error)
  return false

/-! ## The worker thread -/

/-- `worker.request_stop()`. -/
def LoopState.requestStop (s : LoopState) : LoopState :=
  { s with threads := s.threads.map fun thread =>
      if s.worker = some thread.task then { thread with stopRequested := true } else thread }

/-- The thread of the `jthread` has not ended. -/
def LoopState.workerRuns (s : LoopState) : Bool :=
  s.threads.any fun thread => s.worker = some thread.task

/-- `worker.join()`, which waits for the end of the thread. -/
def join (rounds : Nat) : LoopProc Unit := do
  Proc.loop (fun _ => Proc.observe fun _ s =>
    .ok (if s.workerRuns then .inl () else .inr ())) rounds ()
  Proc.modify fun s => { s with worker := none }

def joinable : LoopProc Bool := Proc.read fun s => s.worker.isSome

/-- What the destructor of a `jthread` and an assignment to it do with its thread. -/
def stopAndJoin (rounds : Nat) : LoopProc Unit := do
  if ← joinable then
    Proc.modify LoopState.requestStop
    join rounds

/-- 100 milliseconds, in nanoseconds. -/
def keepaliveInterval : Int := 100000000

/-- The active record of a new task. -/
def LoopState.activate (s : LoopState) (cid : UInt32) (now : Int) : LoopState :=
  { s with
    active := some {
      task := s.tasks
      generation := s.nextGeneration
      cid
      nextKeepalive := now + keepaliveInterval }
    nextGeneration := s.nextGeneration + 1 }

/-- The thread of a new task with this generation. -/
def LoopState.addThread (s : LoopState) (L : Libraries) (generation : UInt64)
    (request : CborRequest) : LoopState :=
  { s with
    threads := s.threads ++
      [{ task := s.tasks, generation, request, phase := .executing (serve L request) }]
    tasks := s.tasks + 1
    log := s.log ++ [.started s.tasks request] }

/-- The active record is set, then the thread is started, which may fail. -/
def launch (L : Libraries) (request : CborRequest) : LoopProc Nat :=
  Proc.atomically fun i s =>
    let activated := s.activate request.cid i.now
    if i.threadStarts then (.ok s.tasks, activated.addThread L s.nextGeneration request)
    else (.error (.systemError "thread"), activated)

/-- `worker = std::jthread(…)`. -/
def startWorker (L : Libraries) (rounds : Nat) (request : CborRequest) : LoopProc Unit := do
  let task ← launch L request
  stopAndJoin rounds
  Proc.modify fun s => { s with worker := some task }

/-- The reply to an exception of `execute_ctap_request`. -/
def taskError : Exn → CTAPError
  | .operationCancelled => .keepaliveCancel
  | .userActionTimedOut => .operationDenied
  | _ => .other

/-- One step of a worker thread: it executes its request, stores the result and ends. It is told
to stop exactly when a stop was requested. -/
inductive ThreadStep : LoopState → LoopState → Prop
  | act {s : LoopState} {before after : List Thread} {thread : Thread}
      {update : Input → Daemon → Daemon} {next : Input → Daemon → HandlerProc CTAPPacket}
      {i : Input}
      (hThreads : s.threads = before ++ thread :: after)
      (hPhase : thread.phase = .executing (.act update next))
      (hStop : i.stop = thread.stopRequested) :
      ThreadStep s { s with
        daemon := update i s.daemon
        threads := before ++ { thread with phase := .executing (next i s.daemon) } :: after }
  | returned {s : LoopState} {before after : List Thread} {thread : Thread} {packet : CTAPPacket}
      (hThreads : s.threads = before ++ thread :: after)
      (hPhase : thread.phase = .executing (.done packet)) :
      ThreadStep s { s with
        threads := before ++ { thread with phase := .publishing packet } :: after
        log := s.log ++ [.handler (.replied
          ⟨thread.request, packet, s.daemon.ceremony, s.daemon.world⟩)] }
  | threw {s : LoopState} {before after : List Thread} {thread : Thread} {e : Exn}
      (hThreads : s.threads = before ++ thread :: after)
      (hPhase : thread.phase = .executing (.fail e)) :
      ThreadStep s { s with
        threads := before ++ { thread with
          phase := .publishing (makeCborError thread.request.cid (taskError e).code) } :: after
        log := s.log ++ [.handler (.threw thread.request)] }
  | published {s : LoopState} {before after : List Thread} {thread : Thread} {packet : CTAPPacket}
      (hThreads : s.threads = before ++ thread :: after)
      (hPhase : thread.phase = .publishing packet) :
      ThreadStep s { s with
        completion := some ⟨thread.generation, thread.request.cid, packet⟩
        threads := before ++ { thread with phase := .exiting } :: after
        log := s.log ++ [.published thread.task packet s.completion.isSome] }
  | ended {s : LoopState} {before after : List Thread} {thread : Thread}
      (hThreads : s.threads = before ++ thread :: after) (hPhase : thread.phase = .exiting) :
      ThreadStep s { s with threads := before ++ after }

/-! ## Requests -/

/-- The task of the channel is cancelled, unless it was aborted before. -/
def LoopState.cancel (s : LoopState) (cid : UInt32) : LoopState :=
  match s.active with
  | some active =>
    if active.cid = cid ∧ active.discardResult = false then
      { s with active := some { active with cancelRequested := true } }.requestStop.note
        [.cancelRequested active.task]
    else s
  | none => s

/-- `CTAPHID_CANCEL`. -/
def cancelTask (request : UHIDReport) : LoopProc Bool := do
  Proc.modify fun s => s.cancel request.cid
  return false

/-- `allocate_cid`: random candidates until one is free. -/
def allocateCid (rounds : Nat) : LoopProc UInt32 :=
  Proc.loop (fun _ => Proc.atomically fun i s =>
    if i.candidate = ctaphidBroadcastCid ∨ i.candidate = ctaphidInvalidCid ∨
        i.candidate ∈ s.allocatedCids then (.ok (.inl ()), s)
    else (.ok (.inr i.candidate), { s with allocatedCids := i.candidate :: s.allocatedCids }))
    rounds ()

/-- `command_handler.reset()` of the loop. -/
def LoopState.resetHandler (s : LoopState) : LoopState :=
  { s with daemon.getAssertion := {} }.note [.reset s.threads.length]

/-- An INIT on an allocated channel aborts the task of this channel, or clears the handler. -/
def LoopState.acceptInit (s : LoopState) (cid : UInt32) : LoopState :=
  match s.active with
  | some active =>
    if active.cid = cid then
      { s with active := some { active with
          cancelRequested := true, discardResult := true } }.requestStop.note
        [.initAccepted cid (some active.task)]
    else (s.note [.initAccepted cid none]).resetHandler
  | none => (s.note [.initAccepted cid none]).resetHandler

/-- `CTAPHID_INIT`. -/
def openChannel (rounds : Nat) (request : UHIDReport) : LoopProc Bool := do
  if request.payload = [] then refuse request.cid .invalidLength
  else if (← Proc.read LoopState.active).any fun active => request.cid ≠ active.cid then
    refuse request.cid .channelBusy
  else if request.cid = ctaphidBroadcastCid then
    let assignedCid ← allocateCid rounds
    sendPacket .other (handleInit request assignedCid)
    return false
  else if request.cid ∉ (← Proc.read LoopState.allocatedCids) then
    refuse request.cid .invalidChannel
  else
    Proc.modify fun s => s.acceptInit request.cid
    sendPacket .other (handleInit request request.cid)
    return false

/-- `CTAPHID_CBOR`. -/
def startTask (L : Libraries) (rounds : Nat) (cid : UInt32) : Bytes → LoopProc Bool
  | [] => refuse cid .invalidLength
  | command :: parameters => do
      if (← Proc.read LoopState.active).isSome then refuse cid .channelBusy
      else
        startWorker L rounds { cid, command, parameters }
        return true

/-- The commands that need an allocated channel and no active task. -/
def dispatchCommand (L : Libraries) (rounds : Nat) (request : UHIDReport) : LoopProc Bool := do
  if request.cid ∉ (← Proc.read LoopState.allocatedCids) then refuse request.cid .invalidChannel
  else if (← Proc.read LoopState.active).isSome then refuse request.cid .channelBusy
  else if request.cmd = ctaphidPing then
    sendPacket .other (handlePing request)
    return false
  else if request.cmd = ctaphidCbor then startTask L rounds request.cid request.payload
  else refuse request.cid .invalidCommand

/-- A complete message. Whether the loop goes on to the results of the worker in this round. -/
def dispatch (L : Libraries) (rounds : Nat) (request : UHIDReport) : LoopProc Bool :=
  if request.cmd = ctaphidCancel then cancelTask request
  else if request.cmd = ctaphidInit then openChannel rounds request
  else dispatchCommand L rounds request

def processFrame (data : Bytes) : LoopProc FrameProcessingResult :=
  Proc.atomically fun i s =>
    let (result, incoming) := CTAPHIDFrameProcessor.process s.incoming data
      (s.active.map ActiveTask.cid) s.allocatedCids i.now
    (.ok result, { s with incoming })

def receiveFrame (L : Libraries) (rounds : Nat) (data : Bytes) : LoopProc Bool := do
  match ← processFrame data with
  | .error error => refuse error.cid error.error
  | .report request => dispatch L rounds request
  | .monostate => return true

def readDevice (L : Libraries) (rounds : Nat) : LoopProc Bool := do
  match ← Proc.observe fun i _ => .ok i.device with
  | .none => return false
  | .other => return true
  | .output data => receiveFrame L rounds data

/-! ## The loop -/

/-- `frame_processor.expire`, and the error it asks for. -/
def expireMessage : LoopProc Unit := do
  match ← Proc.atomically fun i s =>
      let (error, incoming) := CTAPHIDFrameProcessor.expire s.incoming i.now
      (.ok error, { s with incoming }) with
  | some error => sendPacket .other (makeHidError error.cid error.error)
  | none => return ()

/-- `ready.swap(completion)`. -/
def takeCompletion : LoopProc (Option TaskResult) :=
  Proc.atomically fun _ s => (.ok s.completion, { s with completion := none })

/-- `active.reset()`. -/
def LoopState.clearActive (s : LoopState) : LoopState :=
  match s.active with
  | some active => { s with active := none }.note [.cleared active.task]
  | none => s

def joinWorker (rounds : Nat) : LoopProc Unit := do
  if ← joinable then join rounds

/-- The reply to the active task, or none after an INIT. -/
def deliver (active : ActiveTask) (packet : CTAPPacket) : LoopProc Unit :=
  if active.discardResult then Proc.modify LoopState.resetHandler
  else sendPacket (.reply active.task) packet

def concludeTask (rounds : Nat) (active : ActiveTask) (result : TaskResult) : LoopProc Unit := do
  joinWorker rounds
  deliver active result.packet
  Proc.modify LoopState.clearActive

def collectResult (rounds : Nat) : LoopProc Unit := do
  match ← takeCompletion with
  | none => return ()
  | some result =>
    match ← Proc.read LoopState.active with
    | none => return ()
    | some active =>
      if result.generation = active.generation then concludeTask rounds active result

/-- The task that is due for a keepalive, the time and its status. -/
def dueKeepalive : LoopProc (Option (ActiveTask × Int × KeepaliveStatus)) :=
  Proc.observe fun i s => .ok <| s.active.bind fun active =>
    if active.nextKeepalive ≤ i.now ∧ active.cancelRequested = false then
      some (active, i.now, i.status)
    else none

def postponeKeepalive (now : Int) : LoopProc Unit :=
  Proc.modify fun s => { s with
    active := s.active.map fun active =>
      { active with nextKeepalive := now + keepaliveInterval } }

def sendKeepalive : LoopProc Unit := do
  match ← dueKeepalive with
  | none => return ()
  | some (active, now, status) =>
    sendPacket (.keepalive active.task) (keepalivePacket active.cid status)
    postponeKeepalive now

/-- What is left of a round unless it polls again at once. -/
def finishRound (rounds : Nat) (goOn : Bool) : LoopProc Unit := do
  if goOn then
    collectResult rounds
    sendKeepalive

def receive (L : Libraries) (rounds : Nat) (readable : Bool) : LoopProc Bool :=
  if readable then readDevice L rounds else pure true

/-- A round in which neither descriptor has failed and no shutdown was asked for. -/
def serveRound (L : Libraries) (rounds : Nat) (readable : Bool) : LoopProc (Unit ⊕ Unit) := do
  expireMessage
  let goOn ← receive L rounds readable
  finishRound rounds goOn
  return .inl ()

def shutDown (rounds : Nat) : LoopProc (Unit ⊕ Unit) := do
  Proc.observe fun i _ =>
    if i.signalRead then .ok () else .error (.runtimeError "Failed to read shutdown signal")
  stopAndJoin rounds
  return .inr ()

def loopRound (L : Libraries) (rounds : Nat) : LoopProc (Unit ⊕ Unit) := do
  let events ← Proc.observe fun i _ => i.poll
  if events.shutdownFailed then throw (.runtimeError "Shutdown signal polling failed")
  else if events.shutdown then shutDown rounds
  else if events.deviceFailed then throw (.runtimeError "UHID polling failed")
  else serveRound L rounds events.device

/-- The event loop; the worker is stopped and joined however it ends. -/
def run (L : Libraries) (rounds : Nat) : LoopProc Unit := do
  let result ← (Proc.loop (fun _ => loopRound L rounds) rounds ()).attempt
  stopAndJoin rounds
  Proc.ofExcept result

/-- The part of `main` that concerns the handler: the store is loaded, then the loop runs. -/
def daemonMain (L : Libraries) (rounds : Nat) : LoopProc Unit := do
  (Store.load L.toPlatform).zoom (fun s => s.daemon.world)
    (fun w s => { s with daemon.world := w }) LoopInput.storage
  run L rounds

end VAuth.Ctap
