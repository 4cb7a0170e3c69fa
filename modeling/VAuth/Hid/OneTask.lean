import VAuth.Ctap.Command
import VAuth.Hid.LoopRounds

/-!
# One task, one reply

The event loop never has more than one worker, and answers each task once, with the packet of its
own worker, unless an INIT on its channel has aborted it.
-/

namespace VAuth.Ctap

open Proc Store

/-- A command answers on the channel of its request. -/
theorem Handled.cid {L : Libraries} {C : Setting Daemon Input}
    {Ran Failed : Operation → World → World → Prop} {request : CborRequest} {d d' : Daemon}
    {packet : CTAPPacket} (h : Handled L C Ran Failed request d packet d') :
    packet.cid = request.cid := by
  cases h <;> rfl

/-- A worker on its own, on any inputs. -/
def workerSetting : Setting Daemon Input :=
  .among Service.nobody (fun _ _ => True) fun _ _ => True

theorem wp_serve_cid (L : Libraries) (request : CborRequest) (d : Daemon) :
    wp workerSetting (fun packet _ => packet.cid = request.cid) (fun _ _ => True)
      (serve L request) d := by
  have hKeeps : workerSetting.Keeps fun _ => True := Service.keeps_nobody
  have hRuns : StoreRuns L workerSetting (fun _ _ _ => True) (fun _ _ _ => True) d.newRecord := by
    intro op d' _ _
    exact wp_withStore_alone (I := fun _ => True) (fun _ _ => trivial)
      (wp_trivial (fun _ _ => trivial) trivial)
  refine wp_mono (wp_serve (hKeeps.mono fun _ _ => trivial) hRuns) ?_ (fun _ _ _ => trivial)
  exact fun _ _ hHandled => hHandled.cid

/-- The packet of a worker has the channel of its request. -/
def cidCompanion (L : Libraries) : Companion L where
  idle := fun _ _ => True
  running := fun _ q _ _ d rest =>
    wp workerSetting (fun (packet : CTAPPacket) _ => packet.cid = q.cid) (fun _ _ => True) rest d
  returned := fun _ q _ _ _ packet => packet.cid = q.cid
  sound := fun _ => True
  launch := fun _ q _ => wp_serve_cid L q _
  act := fun i h => (h _ .refl i trivial).2
  reply := id
  throw := fun _ => rfl
  cid := id
  quietIdle := fun _ _ _ => trivial
  quietRunning := fun _ _ h => h
  quietReturned := fun _ _ h => h
  abortRunning := id
  abortReturned := id
  init := fun _ _ => trivial
  settle := fun _ => trivial
  drop := fun _ => trivial
  soundSnoc := fun _ _ => trivial
  soundReplied := fun _ _ => trivial
  soundThrew := fun _ _ => trivial
  soundReply := fun _ _ => trivial

theorem reached_of_steps {L : Libraries} {K : Companion L} {s s' : LoopState}
    {p p' : LoopProc Unit} (hGoes : Goes K (fun _ => Reached K) p s) (hStart : Reached K s)
    (hRun : Steps ThreadStep (fun _ _ => True) (p, s) (p', s')) : Reached K s' :=
  wp_invariant hGoes hStart (fun _ _ hStep h => h.threadStep hStep) (fun _ _ h _ => h) hRun

/-- **One task, one reply.** In every run of the event loop, however frames, workers and rounds
interleave. -/
theorem one_task_one_reply (L : Libraries) (d : Daemon) (rounds : Nat) {p : LoopProc Unit}
    {s : LoopState}
    (hRun : Steps ThreadStep (fun _ _ => True) (run L rounds, { daemon := d }) (p, s)) :
    s.threads.length ≤ 1 ∧ OneReply s.log := by
  have hRest : Resting (cidCompanion L) { daemon := d } :=
    .idle ⟨.nil, trivial, trivial, rfl, rfl, rfl, rfl⟩
  have hReached := reached_of_steps (goes_run hRest rounds) hRest.reached hRun
  obtain ⟨hThreads, ⟨σ, hFollows⟩, -⟩ := hReached.summary
  exact ⟨hThreads, oneReply_of_proper hFollows.proper⟩

/-! ## A concrete run -/

/-- The next step of the only worker. -/
def workerMove (i : Input) (s : LoopState) : LoopState :=
  match s.threads with
  | [thread] => match thread.phase with
    | .executing (.act update next) => { s with
        daemon := update i s.daemon
        threads := [{ thread with phase := .executing (next i s.daemon) }] }
    | .executing (.done packet) => { s with
        threads := [{ thread with phase := .publishing packet }]
        log := s.log ++ [.handler (.replied
          ⟨thread.request, packet, s.daemon.ceremony, s.daemon.world⟩)] }
    | .publishing packet => { s with
        completion := some ⟨thread.generation, thread.request.cid, packet⟩
        threads := [{ thread with phase := .exiting }]
        log := s.log ++ [.published thread.task packet s.completion.isSome] }
    | .exiting => { s with threads := [] }
    | _ => s
  | _ => s

/-- There is one worker, which can do a step and is told to stop if it was asked to. -/
def workerMoves (s : LoopState) (i : Input) : Bool :=
  match s.threads with
  | [thread] => match thread.phase with
    | .executing (.act _ _) => i.stop == thread.stopRequested
    | .executing (.done _) => true
    | .publishing _ => true
    | .exiting => true
    | _ => false
  | _ => false

theorem threadStep_workerMove {s : LoopState} {i : Input} (h : workerMoves s i = true) :
    ThreadStep s (workerMove i s) := by
  unfold workerMoves at h
  unfold workerMove
  split at h
  · rename_i thread hThreads
    cases hPhase : thread.phase with
    | executing rest =>
      cases rest with
      | act update next =>
        simp only [hPhase] at h
        exact @ThreadStep.act s [] [] thread _ _ i hThreads hPhase (beq_iff_eq.mp h)
      | done packet => exact @ThreadStep.returned s [] [] thread _ hThreads hPhase
      | fail e => simp [hPhase] at h
      | cut => simp [hPhase] at h
    | publishing packet => exact @ThreadStep.published s [] [] thread _ hThreads hPhase
    | exiting => exact @ThreadStep.ended s [] [] thread hThreads hPhase
  · cases h

theorem steps_of_follow {script : List (LoopInput ⊕ Input)} {c c' : LoopProc Unit × LoopState}
    (h : follow (fun _ _ => true) workerMove workerMoves script c = some c') :
    Steps ThreadStep (fun _ _ => True) c c' := by
  refine steps_follow (fun _ _ _ => trivial) ?_ script h
  exact fun _ _ hMoves => threadStep_workerMove hMoves

/-- A frame of 64 bytes. -/
def hidFrame (bytes : Bytes) : Bytes := bytes ++ List.replicate (hidFrameSize - bytes.length) 0

/-- A frame for the loop to read; a free channel is 1. -/
def reading (bytes : Bytes) : LoopInput where
  poll := .ok { device := true }
  device := .output (hidFrame bytes)
  candidate := 1

/-- Nothing to read, at a time when a keepalive is due. -/
def later : LoopInput where
  now := 200000000

/-- The broadcast INIT of a client. -/
def initFrame : Bytes :=
  channelId ctaphidBroadcastCid ++ [0x86, 0x00, 0x08] ++ List.replicate 8 0x01

/-- A client gets a channel and asks for the information of the device; the loop sends a
keepalive, then the worker runs and the loop answers. -/
def infoSession : List (LoopInput ⊕ Input) :=
  List.replicate 7 (.inl (reading initFrame)) ++
    List.replicate 12 (.inl (reading (channelId 1 ++ [0x90, 0x00, 0x01, 0x04]))) ++
    List.replicate 6 (.inl later) ++ List.replicate 6 (.inr approving) ++
    List.replicate 10 (.inl later)

theorem one_task_one_reply_infoSession : ∃ p s,
    Steps ThreadStep (fun _ _ => True) (run sampleLibraries 9, { daemon := {} }) (p, s) ∧
      (s.log.filter (LoopEvent.isReply 0)).length = 1 ∧ s.threads.length ≤ 1 ∧ OneReply s.log := by
  have hEnds : (follow (fun _ _ => true) workerMove workerMoves infoSession
      (run sampleLibraries 9, { daemon := {} })).any
      (fun c => (c.2.log.filter (LoopEvent.isReply 0)).length == 1) = true := by
    decide +kernel
  obtain ⟨⟨p, s⟩, hFollow, hReply⟩ := (Option.any_eq_true _ _).mp hEnds
  have hRun : Steps ThreadStep (fun _ _ => True) (run sampleLibraries 9, { daemon := {} }) (p, s) :=
    steps_of_follow hFollow
  exact ⟨p, s, hRun, beq_iff_eq.mp hReply, one_task_one_reply sampleLibraries {} 9 hRun⟩

end VAuth.Ctap
