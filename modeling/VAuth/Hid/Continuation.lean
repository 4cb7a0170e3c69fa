import VAuth.Ctap.Consent
import VAuth.Hid.OneTask
import VAuth.Store.Memory

/-!
# Continuations

What a GetNextAssertion may continue. The request object of the handler is shared by all channels
and outlives its command; `Underway` ties it to the log of the event loop: while a sequence lives,
its GetAssertion is in the log, and after it there is nothing but continuations and refused
commands of other channels, and no INIT. `authorized` is the companion of a task that keeps this.
-/

namespace VAuth.Ctap

open Proc Store

/-! ## Commands in the log of the loop -/

/-- What an event of the loop means for the handler. -/
def LoopEvent.command? : LoopEvent → Option Event
  | .handler event => some event
  | .reset _ => some .cleared
  | _ => none

/-- The commands that the handler processed, and the times it was cleared. -/
def commands (log : List LoopEvent) : List Event := log.filterMap LoopEvent.command?

/-- No INIT on an allocated channel was accepted. -/
def Undisturbed (log : List LoopEvent) : Prop := ∀ cid during, .initAccepted cid during ∉ log

/-- The GetAssertion `o` in the log and the commands since, without an INIT. -/
def OpenedBy (o : Opening) (since : List Event) (log : List LoopEvent) : Prop :=
  ∃ before t after, log = before ++ .started t o.reply.request :: after ∧
    commands after = .replied o.reply :: since ∧ Undisturbed after

section Logs

variable {log log' : List LoopEvent} {o : Opening} {since : List Event} {event : LoopEvent}

theorem commands_append : commands (log ++ log') = commands log ++ commands log' :=
  List.filterMap_append

theorem Undisturbed.append (h : Undisturbed log) (h' : Undisturbed log') :
    Undisturbed (log ++ log') := by
  intro cid during hMem
  rcases List.mem_append.mp hMem with hMem | hMem
  · exact h cid during hMem
  · exact h' cid during hMem

theorem OpenedBy.append (h : OpenedBy o since log) (h' : Undisturbed log') :
    OpenedBy o (since ++ commands log') (log ++ log') := by
  obtain ⟨before, t, after, rfl, hCommands, hCalm⟩ := h
  refine ⟨before, t, after ++ log', by simp, ?_, hCalm.append h'⟩
  rw [commands_append, hCommands, List.cons_append]

theorem undisturbed_quiet (h : event.isQuiet = true) : Undisturbed [event] := by
  intro cid during hMem
  rw [← List.mem_singleton.mp hMem] at h
  cases h

theorem commands_quiet (h : event.isQuiet = true) : commands [event] = [] := by
  cases event with
  | handler e => cases h
  | reset running => cases h
  | _ => rfl

end Logs

/-! ## The credentials of a sequence -/

/-- The match list names every credential once. -/
def Opening.Distinct (o : Opening) : Prop :=
  ((o.credential :: o.remaining).map StoredCredential.id).Nodup

section Sequences

variable {L : Libraries} {o : Opening} {since : List Event} {pending : List StoredCredential}
  {lastUse : Int}

theorem Chain.returned (h : Chain L o since pending lastUse) (hValid : o.Valid L) :
    ∃ earlier, o.credential :: o.remaining = earlier ++ pending ∧
      ∀ r, r = o.reply ∨ .replied r ∈ since → r.succeeded = true →
        ∃ c ∈ earlier, credentialIdOf r.packet.payload = some c.id := by
  induction h with
  | begun hUsed =>
    refine ⟨[o.credential], rfl, ?_⟩
    rintro r (rfl | hMem) -
    · exact ⟨o.credential, List.mem_cons_self, hValid.asserts.credentialId⟩
    · cases hMem
  | @continued since credential pending lastUse now r _ hr ih =>
    obtain ⟨earlier, hList, hEarlier⟩ := ih
    refine ⟨earlier ++ [credential], by rw [hList, List.append_assoc]; rfl, ?_⟩
    intro r' hr' hSucceeded
    have hCases : (r' = o.reply ∨ .replied r' ∈ since) ∨ r' = r := by
      simpa [or_assoc] using hr'
    rcases hCases with hOld | rfl
    · obtain ⟨c, hc, hId⟩ := hEarlier r' hOld hSucceeded
      exact ⟨c, List.mem_append_left _ hc, hId⟩
    · exact ⟨credential, List.mem_append_right _ List.mem_cons_self, hr.asserts.credentialId⟩
  | @elsewhere since pending lastUse r _ hr ih =>
    obtain ⟨earlier, hList, hEarlier⟩ := ih
    refine ⟨earlier, hList, fun r' hr' hSucceeded => ?_⟩
    have hCases : (r' = o.reply ∨ .replied r' ∈ since) ∨ r' = r := by
      simpa [or_assoc] using hr'
    rcases hCases with hOld | rfl
    · exact hEarlier r' hOld hSucceeded
    · rw [not_succeeded_of_error hr.packet] at hSucceeded
      cases hSucceeded

/-- The next credential of a sequence has not been returned before. -/
theorem Chain.fresh {credential : StoredCredential}
    (h : Chain L o since (credential :: pending) lastUse) (hValid : o.Valid L)
    (hDistinct : o.Distinct) :
    credential ∈ o.credential :: o.remaining ∧
      ∀ r, r = o.reply ∨ .replied r ∈ since → r.succeeded = true →
        credentialIdOf r.packet.payload ≠ some credential.id := by
  obtain ⟨earlier, hList, hEarlier⟩ := h.returned hValid
  refine ⟨?_, fun r hr hSucceeded hSame => ?_⟩
  · rw [hList]
    exact List.mem_append_right _ List.mem_cons_self
  · obtain ⟨c, hc, hId⟩ := hEarlier r hr hSucceeded
    have hIds : c.id = credential.id := Option.some.inj (hId.symm.trans hSame)
    unfold Opening.Distinct at hDistinct
    rw [hList, List.map_append, List.nodup_append] at hDistinct
    exact hDistinct.2.2 c.id (List.mem_map_of_mem hc) credential.id
      (List.mem_map_of_mem List.mem_cons_self) hIds

end Sequences

/-! ## The store of the daemon -/

/-- The entries of the map have the keys of their ids. -/
def Daemon.Valid (d : Daemon) : Prop := d.world.store.stored.Valid

/-- An operation keeps the map valid. -/
def KeepsValid (_ : Operation) (w w' : World) : Prop :=
  w.store.stored.Valid → w'.store.stored.Valid

section Commands

variable {L : Libraries} {C : Setting Daemon Input} {q : CborRequest} {d d' : Daemon}
  {packet : CTAPPacket}

theorem storeRuns_keepsValid (d : Daemon) : StoreRuns L workerSetting KeepsValid KeepsValid d := by
  intro op d' _ _
  refine wp_mono (wp_withStore_alone (I := fun _ => True) (fun _ _ => trivial)
    (Q := fun _ w => KeepsValid op d'.world w) (E := fun _ w => KeepsValid op d'.world w) ?_) ?_ ?_
  · rw [Operation.run_eq]
    refine wp_mono (wp_memory_commit (I := fun _ => True) Service.keeps_nobody trivial
      (fun _ => trivial) (fun _ _ _ => trivial)) ?_ ?_
    · rintro _ w ⟨m, hChange, -, hMemory⟩ hValid
      rw [show w.store.stored = m from congrArg Prod.fst hMemory]
      exact Operation.change_valid hValid hChange
    · intro e w hMemory hValid
      rw [show w.store.stored = d'.world.store.stored from congrArg Prod.fst hMemory]
      exact hValid
  · exact fun _ _ h => h
  · exact fun _ _ h => h

theorem Spoiled.valid (h : Spoiled C KeepsValid d d') (hValid : d.Valid) : d'.Valid := by
  obtain ⟨-, hSame | ⟨op, -, hKeeps⟩⟩ := h
  · rw [Daemon.Valid, hSame]
    exact hValid
  · exact hKeeps hValid

theorem Handled.valid (h : Handled L C KeepsValid KeepsValid q d packet d') (hValid : d.Valid) :
    d'.Valid := by
  cases h with
  | refused hDropped => exact hDropped.1.valid hValid
  | foreign _ _ => exact hValid
  | info _ _ => exact hValid
  | @registered makeCredential _ _ _ _ _ _ _ h =>
    have hRan := h.ran
    by_cases hDummy : makeCredential.isDummy = true
    · rw [if_pos hDummy] at hRan
      rw [Daemon.Valid, hRan]
      exact hValid
    · rw [if_neg hDummy] at hRan
      exact hRan hValid
  | asserted _ _ h => exact h.ran hValid
  | continued _ _ h => exact h.ran hValid

theorem Handled.distinct {o : Opening} (hL : L.Lawful)
    (h : Handled L C KeepsValid KeepsValid q d packet d') (hValid : d.Valid)
    (hReply : o.reply = d'.reply q packet) (hOpening : o.Valid L)
    (hLive : d'.getAssertion.Live) : o.Distinct := by
  have hCommand : q.command = 0x02 := by
    have hCommand := hOpening.command
    rwa [hReply] at hCommand
  cases h with
  | refused hDropped => exact absurd hLive (not_live_of_cleared hDropped.2)
  | foreign hNext _ => cases hCommand.symm.trans hNext
  | info hInfo _ => cases hCommand.symm.trans hInfo
  | registered hMake _ _ => cases hCommand.symm.trans hMake
  | asserted _ _ h =>
    have hFound := hOpening.found
    rw [hReply] at hFound
    rw [Opening.Distinct, ← hFound, Daemon.reply, h.recorded]
    exact (findForAssertion_spec hL.platform hValid h.found).distinct
  | continued hNext _ _ => cases hCommand.symm.trans hNext

end Commands

/-! ## The companion of a task -/

/-- While a sequence lives, the GetAssertion that opened it is in the log. -/
def Underway (L : Libraries) (log : List LoopEvent) (g : CTAPGetAssertionRequest) : Prop :=
  g.Live → ∃ o since, OpenedBy o since log ∧ o.Distinct ∧ Tracks L o since g

/-- Why the handler returned the continuation `r` after these events: it was started after the
GetAssertion `o` and the commands since, and asserts a credential of their match list. -/
structure Continuation (L : Libraries) (past : List LoopEvent) (r : Reply) (o : Opening)
    (since : List Event) (credential : StoredCredential) : Prop where
  started : ∃ before t during, past = before ++ .started t r.request :: during ∧
    commands during = [] ∧ OpenedBy o since before
  opening : o.Valid L
  allowList : o.parameters.allowList = []
  chain : ∃ pending lastUse now, Chain L o since (credential :: pending) lastUse ∧
    o.Continues L credential lastUse now r
  listed : credential ∈ o.reply.ceremony.found
  fresh : ∀ r', r' = o.reply ∨ .replied r' ∈ since → r'.succeeded = true →
    credentialIdOf r'.packet.payload ≠ some credential.id

/-- The events since the start of the task, without an INIT. -/
def Unbroken (t : Nat) (q : CborRequest) (log : List LoopEvent) : Prop :=
  ∃ before during, log = before ++ .started t q :: during ∧ Undisturbed during

/-- What is required of an event: a continuation was authorized, and no task is answered that an
INIT has interrupted. -/
def Warranted (L : Libraries) (past : List LoopEvent) : LoopEvent → Prop
  | .handler (.replied r) => r.request.command = 0x08 → r.succeeded = true →
      ∃ o since credential, Continuation L past r o since credential
  | .sent (.reply t) _ => ∃ q, Unbroken t q past
  | _ => True

/-- The worker executes the request of a task that was started in the state `d₀`. -/
structure Executing (L : Libraries) (t : Nat) (q : CborRequest) (aborted : Bool)
    (log : List LoopEvent) (d : Daemon) (rest : HandlerProc CTAPPacket) : Prop where
  started : ∃ (before during : List LoopEvent) (d₀ : Daemon),
    log = before ++ .started t q :: during ∧ commands during = [] ∧
    (aborted = false → Undisturbed during) ∧ Underway L before d₀.getAssertion ∧ d₀.Valid ∧
    wp workerSetting (Handled L workerSetting KeepsValid KeepsValid q d₀.newRecord)
      (fun _ => Dropped workerSetting KeepsValid d₀.newRecord) rest d

/-- The worker has a packet. -/
structure Concluded (L : Libraries) (t : Nat) (q : CborRequest) (aborted : Bool)
    (log : List LoopEvent) (d : Daemon) (packet : CTAPPacket) : Prop where
  cid : packet.cid = q.cid
  valid : d.Valid
  kept : aborted = false → Underway L log d.getAssertion ∧ Unbroken t q log

section Companion

variable {L : Libraries} {t : Nat} {q : CborRequest} {b : Bool} {log : List LoopEvent} {d : Daemon}
  {rest : HandlerProc CTAPPacket} {packet : CTAPPacket} {event : LoopEvent}
  {g : CTAPGetAssertionRequest}

theorem Underway.quiet (h : Underway L log g) (hQuiet : event.isQuiet = true) :
    Underway L (log ++ [event]) g := by
  intro hLive
  obtain ⟨o, since, hOpened, hDistinct, hTracks⟩ := h hLive
  have hNext := hOpened.append (undisturbed_quiet hQuiet)
  rw [commands_quiet hQuiet, List.append_nil] at hNext
  exact ⟨o, since, hNext, hDistinct, hTracks⟩

theorem underway_cleared : Underway L log {} := fun hLive => (hLive rfl).elim

theorem Unbroken.quiet (h : Unbroken t q log) (hQuiet : event.isQuiet = true) :
    Unbroken t q (log ++ [event]) := by
  obtain ⟨before, during, rfl, hCalm⟩ := h
  exact ⟨before, during ++ [event], by simp, hCalm.append (undisturbed_quiet hQuiet)⟩

theorem Executing.snoc {b' : Bool} (h : Executing L t q b log d rest)
    (hCommands : commands [event] = [])
    (hCalm : b' = false → b = false ∧ Undisturbed [event]) :
    Executing L t q b' (log ++ [event]) d rest := by
  obtain ⟨before, during, d₀, rfl, hNone, hUndisturbed, hRest⟩ := h
  refine ⟨before, during ++ [event], d₀, by simp, ?_, fun hb => ?_, hRest⟩
  · rw [commands_append, hNone, hCommands]
    rfl
  · exact (hUndisturbed (hCalm hb).1).append (hCalm hb).2

theorem executing_launch (n : Nat) (h : Underway L log d.getAssertion) (hValid : d.Valid) :
    Executing L n q false (log ++ [.started n q]) d (serve L q) := by
  have hNone : Undisturbed [] := fun _ _ => List.not_mem_nil
  refine ⟨log, [], d, rfl, rfl, fun _ => hNone, h, hValid, ?_⟩
  exact wp_serve (Service.keeps_nobody.mono fun _ _ => trivial) (storeRuns_keepsValid _)

theorem Underway.handled {before during : List LoopEvent} {d₀ : Daemon} (hL : L.Lawful)
    (h : Underway L before d₀.getAssertion) (hValid : d₀.Valid) (hNone : commands during = [])
    (hCalm : Undisturbed during)
    (hHandled : Handled L workerSetting KeepsValid KeepsValid q d₀.newRecord packet d) :
    Underway L (before ++ .started t q :: during ++ [.handler (.replied (d.reply q packet))])
      d.getAssertion := by
  intro hLive
  have hReply : Undisturbed [.handler (.replied (d.reply q packet))] := by
    intro cid during hMem
    cases List.mem_singleton.mp hMem
  rcases hHandled.tracks hLive with ⟨o, hSame, hTracks⟩ | ⟨hBefore, hTracks⟩
  · refine ⟨o, [], ?_, hHandled.distinct hL hValid hSame hTracks.valid hLive, hTracks⟩
    refine ⟨before, t, during ++ [.handler (.replied (d.reply q packet))], ?_, ?_,
      hCalm.append hReply⟩
    · rw [hSame, List.append_assoc, List.cons_append]
      rfl
    · rw [commands_append, hNone, hSame]
      rfl
  · obtain ⟨o, since, hOpened, hDistinct, hOld⟩ := h hBefore
    have hTask : Undisturbed (.started t q :: during ++ [.handler (.replied (d.reply q packet))]) := by
      intro cid x hMem
      rcases List.mem_append.mp hMem with hMem | hMem
      · rcases List.mem_cons.mp hMem with hMem | hMem
        · cases hMem
        · exact hCalm cid x hMem
      · exact hReply cid x hMem
    have hNext := hOpened.append hTask
    have hCommand : commands (.started t q :: during ++ [.handler (.replied (d.reply q packet))]) =
        [.replied (d.reply q packet)] := by
      rw [commands_append, commands, List.filterMap_cons_none rfl]
      exact congrArg (· ++ _) hNone
    rw [hCommand, ← List.append_assoc] at hNext
    exact ⟨o, _, hNext, hDistinct, hTracks o since hOld⟩

theorem Executing.reply (hL : L.Lawful) (h : Executing L t q b log d (.done packet)) :
    Concluded L t q b (log ++ [.handler (.replied (d.reply q packet))]) d packet := by
  obtain ⟨before, during, d₀, rfl, hNone, hCalm, hBefore, hValid, hHandled⟩ := h
  have hHandled : Handled L workerSetting KeepsValid KeepsValid q d₀.newRecord packet d := hHandled
  refine ⟨hHandled.cid, hHandled.valid hValid, fun hb => ⟨?_, ?_⟩⟩
  · exact hBefore.handled hL hValid hNone (hCalm hb) hHandled
  · refine ⟨before, during ++ [.handler (.replied (d.reply q packet))], by simp, ?_⟩
    refine (hCalm hb).append fun cid x hMem => ?_
    cases List.mem_singleton.mp hMem

theorem Executing.throw {e : Exn} (h : Executing L t q b log d (.fail e)) :
    Concluded L t q b (log ++ [.handler (.threw q)]) d
      (makeCborError q.cid (taskError e).code) := by
  obtain ⟨before, during, d₀, rfl, hNone, hCalm, hBefore, hValid, hDropped⟩ := h
  have hDropped : Dropped workerSetting KeepsValid d₀.newRecord d := hDropped
  refine ⟨rfl, hDropped.1.valid hValid, fun hb => ⟨?_, ?_⟩⟩
  · rw [hDropped.2]
    exact underway_cleared
  · refine ⟨before, during ++ [.handler (.threw q)], by simp, ?_⟩
    refine (hCalm hb).append fun cid x hMem => ?_
    cases List.mem_singleton.mp hMem

/-- A continuation that the handler returns was authorized, also where the task is aborted. -/
theorem Executing.warranted (h : Executing L t q b log d (.done packet)) :
    Warranted L log (.handler (.replied (d.reply q packet))) := by
  obtain ⟨before, during, d₀, rfl, hNone, -, hBefore, -, hHandled⟩ := h
  have hHandled : Handled L workerSetting KeepsValid KeepsValid q d₀.newRecord packet d := hHandled
  intro hCommand hSucceeded
  have hCommand : q.command = 0x08 := hCommand
  have hError {error : CTAPError} (hPacket : packet = makeCborError q.cid error.code) : False := by
    rw [not_succeeded_of_error (r := d.reply q packet) hPacket] at hSucceeded
    cases hSucceeded
  cases hHandled with
  | refused _ => exact (hError rfl).elim
  | foreign _ _ => exact (hError rfl).elim
  | info hInfo _ => cases hCommand.symm.trans hInfo
  | registered hMake _ _ => cases hCommand.symm.trans hMake
  | asserted hGet _ _ => cases hCommand.symm.trans hGet
  | @continued _ credential _ _ _ hOrigin h =>
    obtain ⟨o, since, hOpened, hDistinct, hTracks⟩ := hBefore fun hNone => hOrigin (.inl hNone)
    obtain ⟨now, hAdvances, hContinues⟩ := h.continues hCommand hTracks
    have hPending : d₀.getAssertion.sequence.pending = _ := hAdvances.pending
    have hChain := hTracks.chain
    rw [hPending] at hChain
    obtain ⟨hListed, hFresh⟩ := hChain.fresh hTracks.valid hDistinct
    exact ⟨o, since, credential, {
      started := ⟨before, t, during, rfl, hNone, hOpened⟩
      opening := hTracks.valid
      allowList := hTracks.allowList
      chain := ⟨_, _, now, hChain, hContinues⟩
      listed := hTracks.valid.found ▸ hListed
      fresh := hFresh }⟩

end Companion

/-- What accompanies a task so that continuations stay authorized. -/
def authorized (L : Libraries) (hL : L.Lawful) : Companion L where
  idle := fun log d => Underway L log d.getAssertion ∧ d.Valid
  running := Executing L
  returned := Concluded L
  sound := AtEach (Warranted L)
  launch := fun n _ h => executing_launch n h.1 h.2
  act := by
    rintro log d t q b update next i ⟨before, during, d₀, hLog, hNone, hCalm, hBefore, hValid, h⟩
    exact ⟨before, during, d₀, hLog, hNone, hCalm, hBefore, hValid, (h _ .refl i trivial).2⟩
  reply := fun h => h.reply hL
  throw := fun h => h.throw
  cid := fun h => h.cid
  quietIdle := fun _ hQuiet h => ⟨h.1.quiet hQuiet, h.2⟩
  quietRunning := fun _ hQuiet h =>
    h.snoc (commands_quiet hQuiet) fun hb => ⟨hb, undisturbed_quiet hQuiet⟩
  quietReturned := fun _ hQuiet h =>
    ⟨h.cid, h.valid, fun hb => ⟨(h.kept hb).1.quiet hQuiet, (h.kept hb).2.quiet hQuiet⟩⟩
  abortRunning := fun h => h.snoc rfl nofun
  abortReturned := fun h => ⟨h.cid, h.valid, nofun⟩
  init := fun _ h => ⟨underway_cleared, h.2⟩
  settle := fun h => ⟨(h.kept rfl).1, h.valid⟩
  drop := fun h => ⟨underway_cleared, h.valid⟩
  soundSnoc := by
    intro log event h hPlain
    refine h.snoc ?_
    cases event with
    | handler e => cases hPlain
    | sent purpose packet =>
      cases purpose with
      | reply t => cases hPlain
      | _ => trivial
    | _ => trivial
  soundReplied := fun h hRunning => h.snoc hRunning.warranted
  soundThrew := fun h _ => h.snoc trivial
  soundReply := fun h hReturned => h.snoc ⟨_, (hReturned.kept rfl).2⟩

/-! ## Every run -/

theorem eq_of_no_threads {s s' : LoopState} (hThreads : s.threads = [])
    (hSteps : Relation.ReflTransGen ThreadStep s s') : s' = s := by
  induction hSteps with
  | refl => rfl
  | tail _ hStep ih => exact absurd (ih ▸ hThreads) hStep.exists

/-- The process as `main` starts it, with what it finds on the disk. -/
def booted (w : World) : LoopState := { daemon := { world := w } }

theorem booted_reached {L : Libraries} (hL : L.Lawful) (w : World) :
    Reached (authorized L hL) (booted w) := .alone .nil atEach_nil rfl

/-- A loaded store is valid, whatever was on the disk. -/
theorem goes_daemonMain {L : Libraries} (hL : L.Lawful) (w : World) (rounds : Nat) :
    Goes (authorized L hL) (fun _ => Reached (authorized L hL)) (daemonMain L rounds)
      (booted w) := by
  have hShows : (Setting.among Service.nobody (fun _ _ => True) fun _ _ => True :
      Setting World Answer).Shows World.memory fun _ => True :=
    ⟨fun _ _ h => congrArg World.memory (Service.eq_of_nobody h), fun _ _ h => h⟩
  have hLoad := wp_memory_load (P := L.toPlatform) (w := w) hShows trivial fun _ _ _ => trivial
  refine wp_seq (wp_zoom (t := booted w) (fun _ => rfl) (fun _ _ => rfl)
    (fun _ _ hRely => eq_of_no_threads rfl hRely) (fun _ => Relation.ReflTransGen.refl)
    (fun _ _ _ => trivial) (fun _ w' _ => booted_reached hL w') id hLoad) ?_ ?_
  · rintro _ _ ⟨w', hValid, rfl⟩
    refine goes_run (.idle ?_) rounds
    exact ⟨.nil, atEach_nil, ⟨underway_cleared, hValid⟩, rfl, rfl, rfl, rfl⟩
  · rintro e _ ⟨w', -, rfl⟩
    exact booted_reached hL w'

/-- **GetNextAssertion only continues what was authorized.** In every run of the daemon, with any
disk, frames, channels, users, clocks and schedules: a continuation that the handler returns
belongs to a GetAssertion of the same channel and user context without an allow list, with nothing
in between but earlier uses of this sequence in time and refused commands of other channels, and
asserts a credential of its match list for the first time. A task is only answered if no INIT came
since its start. -/
theorem continuations_authorized {L : Libraries} (hL : L.Lawful) (w : World) (rounds : Nat)
    {p : LoopProc Unit} {s : LoopState}
    (hRun : Steps ThreadStep (fun _ _ => True) (daemonMain L rounds, booted w) (p, s)) :
    (∀ past r rest, s.log = past ++ .handler (.replied r) :: rest → r.request.command = 0x08 →
      r.succeeded = true → ∃ o since credential, Continuation L past r o since credential) ∧
    ∀ past t packet rest, s.log = past ++ .sent (.reply t) packet :: rest →
      ∃ q, Unbroken t q past := by
  have hReached := reached_of_steps (goes_daemonMain hL w rounds) (booted_reached hL w) hRun
  obtain ⟨-, -, hSound⟩ := hReached.summary
  exact ⟨fun past r rest hLog => hSound past _ rest hLog,
    fun past t packet rest hLog => hSound past _ rest hLog⟩

/-! ## A concrete run -/

/-- A disk with the two sample credentials. -/
def storedPair : World where
  disk := {
    directory := true
    file := (encrypt sampleLibraries.toPlatform (Vector.replicate nonceSize 0)
      (storageDocument [sampleEntry 1 0, sampleEntry 2 0]).render 2).toOption
    counter := 2 }

/-- A GetAssertion without an allow list, in one frame. -/
def getAssertionFrame : Bytes :=
  channelId 1 ++ [0x90, 0x00, 0x32, 0x02] ++ Cbor.encode (.map [.uint 1, .text (text "example.org"),
    .uint 2, .bytes (List.replicate 32 0)])

/-- The store is loaded, a client gets a channel, its GetAssertion is answered, and the worker of
its GetNextAssertion returns. -/
def continuedSession : List (LoopInput ⊕ Input) :=
  List.replicate 15 (.inl (reading initFrame)) ++
    List.replicate 8 (.inl (reading getAssertionFrame)) ++ List.replicate 2 (.inl later) ++
    List.replicate 41 (.inr approving) ++ List.replicate 7 (.inl later) ++
    List.replicate 9 (.inl (reading (channelId 1 ++ [0x90, 0x00, 0x01, 0x08]))) ++
    List.replicate 2 (.inl later) ++ List.replicate 30 (.inr approving)

def LoopEvent.isContinuation : LoopEvent → Bool
  | .handler e => e.isContinuation
  | _ => false

theorem continuations_authorized_continuedSession : ∃ p s past r o since credential,
    Steps ThreadStep (fun _ _ => True) (daemonMain sampleLibraries 30, booted storedPair) (p, s) ∧
    s.log = past ++ .handler (.replied r) :: [] ∧ r.request.command = 0x08 ∧
    r.succeeded = true ∧ Continuation sampleLibraries past r o since credential := by
  have hEnds : (follow (fun _ _ => true) workerMove workerMoves continuedSession
      (daemonMain sampleLibraries 30, booted storedPair)).any
      (fun c => c.2.log.getLast?.any LoopEvent.isContinuation) = true := by
    decide +kernel
  obtain ⟨⟨p, s⟩, hFollow, hEnd⟩ := (Option.any_eq_true _ _).mp hEnds
  obtain ⟨e, hLast, hContinuation⟩ := (Option.any_eq_true _ _).mp hEnd
  obtain ⟨past, hLog⟩ := List.getLast?_eq_some_iff.mp hLast
  have hRun : Steps ThreadStep (fun _ _ => True)
      (daemonMain sampleLibraries 30, booted storedPair) (p, s) := steps_of_follow hFollow
  cases e with
  | handler e =>
    cases e with
    | replied r =>
      simp only [LoopEvent.isContinuation, Event.isContinuation, Bool.and_eq_true,
        beq_iff_eq] at hContinuation
      obtain ⟨hCommand, hSucceeded⟩ := hContinuation
      obtain ⟨o, since, credential, hAuthorized⟩ :=
        (continuations_authorized sampleLibraries_lawful storedPair 30 hRun).1 past r [] hLog
          hCommand hSucceeded
      exact ⟨p, s, past, r, o, since, credential, hRun, hLog, hCommand, hSucceeded, hAuthorized⟩
    | _ => cases hContinuation
  | _ => cases hContinuation

end VAuth.Ctap
