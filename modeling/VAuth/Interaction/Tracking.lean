import VAuth.Client.InteractionModel
import VAuth.Interaction.Cancellation
import VAuth.Interaction.Upkeep
import VAuth.Process.Trace

/-!
# The agent follows the ceremonies

The daemon moves an interaction through the states of its registry, and the agent keeps up with
an `InteractionTracker` that only hears the queued events. The two agree as long as every
ceremony publishes its last state, which a cancellation that comes too late prevents.
-/

namespace VAuth

open Proc Verifier Dbus Dbus.AgentService

/-! ## From the queue to the tracker -/

/-- The state of the agent with the same name. -/
def clientState : UserInteractionState → Client.InteractionState
  | .presenceRequired => .presenceRequired
  | .presenceApproved => .presenceApproved
  | .presenceDenied => .presenceDenied
  | .verificationStarted => .verificationStarted
  | .verificationInformation => .verificationInformation
  | .verificationError => .verificationError
  | .secretRequired => .secretRequired
  | .verificationSucceeded => .verificationSucceeded
  | .verificationFailed => .verificationFailed
  | .cancelled => .cancelled
  | .timedOut => .timedOut

/-- The signal that `send_queued_events` makes of an event, as the agent takes it in. -/
def heard (event : StateEvent) : Option Client.InteractionEvent := do
  let session ← event.user.session
  let state ← Client.parseInteractionState (userInteractionStateName event.state)
  return { generation := session.generation, requestId := event.requestId,
           promptId := event.promptId, state }

theorem parse_name (state : UserInteractionState) :
    Client.parseInteractionState (userInteractionStateName state) = some (clientState state) := by
  cases state <;> simp [userInteractionStateName, Client.parseInteractionState, clientState]

theorem clientState_terminal (state : UserInteractionState) :
    Client.isTerminal (clientState state) = Dbus.isTerminal state := by
  cases state <;> rfl

variable {state : UserInteractionState}

theorem clientState_secret : clientState state = .secretRequired ↔ state = .secretRequired := by
  cases state <;> simp [clientState]

theorem clientState_starts (h : validTransition none state = true) :
    Client.startsInteraction (clientState state) = true := by
  cases state <;> first | rfl | cases h

theorem heard_eq {event : StateEvent} {session : UserSessionContext}
    (h : event.user.session = some session) :
    heard event = some
      { generation := session.generation, requestId := event.requestId,
        promptId := event.promptId, state := clientState event.state } := by
  simp [heard, h, parse_name]

/-! ## What the two keep in common -/

open Client (InteractionTracker)

/-- What was queued since, as the agent takes it in. -/
def Heard (past : List StateEvent) (v : Seen) (signals : List Client.InteractionEvent) : Prop :=
  ∃ events, v.events = past ++ events ∧ signals = events.filterMap heard

/-- The tracker of the registration accepts every event that was queued since. -/
def Follows (generation : UInt64) (past : List StateEvent) (v : Seen) : Prop :=
  ∃ signals, Heard past v signals ∧ AtEach (InteractionTracker.new generation).Accepts signals

/-- The tracker is where the registry is. -/
def Agrees (tracker : InteractionTracker) (v : Seen) : Prop :=
  match v.current with
  | none => tracker.activeRequestId = none
  | some p => (p.promptId = 0 ∨ p.promptId ≠ v.nextPromptId) ∧ match p.state with
      | none => tracker.activeRequestId = none
      | some _ => tracker.activeRequestId = some p.requestId ∧ tracker.activePromptId = p.promptId

structure InStep (user : UserContext) (generation : UInt64) (past : List StateEvent) (v : Seen) :
    Prop where
  isCurrent : v.registry.isCurrent user = true
  noFailure : v.failure = none
  told : ∃ signals, Heard past v signals ∧
    AtEach (InteractionTracker.new generation).Accepts signals ∧
    Agrees ((InteractionTracker.new generation).given signals) v

def Seen.queue (v : Seen) (event : StateEvent) : Seen := { v with events := v.events ++ [event] }

theorem seen_queued (s : AgentService) (event : StateEvent) :
    seen (s.note (.queued event)) = (seen s).queue event := by
  simp only [seen, note, queuedEvents_note]
  rfl

section

variable {user : UserContext} {session : UserSessionContext} {past : List StateEvent}
  {generation : UInt64} {v : Seen}

theorem InStep.follows (h : InStep user generation past v) : Follows generation past v := by
  obtain ⟨signals, hHeard, hAccepted, -⟩ := h.told
  exact ⟨signals, hHeard, hAccepted⟩

theorem Heard.queue {signals : List Client.InteractionEvent} {event : StateEvent}
    {signal : Client.InteractionEvent} (h : Heard past v signals)
    (hSignal : heard event = some signal) : Heard past (v.queue event) (signals ++ [signal]) := by
  obtain ⟨events, hEvents, rfl⟩ := h
  refine ⟨events ++ [event], ?_, ?_⟩
  · simp [Seen.queue, hEvents]
  · simp [hSignal]

theorem Agrees.accepts {tracker : InteractionTracker} {p : Shown} {state : UserInteractionState}
    (h : Agrees tracker v) (hCurrent : v.current = some p) (signal : Client.InteractionEvent)
    (hGeneration : signal.generation = tracker.generation) (hId : signal.requestId ≠ 0)
    (hRequest : signal.requestId = p.requestId) (hState : signal.state = clientState state)
    (hPrompt : signal.promptId = if state = .secretRequired then v.nextPromptId else 0)
    (hValid : validTransition p.state state = true)
    (hFresh : state = .secretRequired → exhausted v.nextPromptId = false) :
    tracker.accept signal = (true, { tracker with
      activeRequestId := if Dbus.isTerminal state then none else some p.requestId
      activePromptId := signal.promptId }) := by
  unfold Agrees at h
  rw [hCurrent] at h
  obtain ⟨hOther, hAt⟩ := h
  have hSecret : signal.state = .secretRequired ↔ state = .secretRequired := by
    rw [hState]
    exact clientState_secret
  have hNext : state = .secretRequired → v.nextPromptId ≠ 0 := by
    intro hAsks hZero
    have hLeft := hFresh hAsks
    rw [hZero] at hLeft
    cases hLeft
  have hForm : Client.WellFormed tracker signal := by
    refine ⟨hGeneration, hId, hSecret.trans ⟨fun hAsks => ?_, fun hSet => ?_⟩⟩
    · rw [hPrompt, if_pos hAsks]
      exact hNext hAsks
    · by_contra hPlain
      exact hSet (by rw [hPrompt, if_neg hPlain])
  have hAccept := Client.accept_expected hForm ?_ ?_
  · rw [hAccept, hState, clientState_terminal, hRequest]
  · cases hWas : p.state with
    | none =>
      rw [hWas] at hAt hValid
      exact .inl ⟨hState ▸ clientState_starts hValid, hAt⟩
    | some was =>
      rw [hWas] at hAt
      exact .inr (hRequest ▸ hAt.1)
  · intro hAsksToo
    have hAsks := hSecret.mp hAsksToo
    cases hWas : p.state with
    | none =>
      rw [hWas, hAsks] at hValid
      cases hValid
    | some was =>
      rw [hWas] at hAt
      rw [hPrompt, if_pos hAsks, hAt.2]
      rcases hOther with hZero | hNe
      · rw [hZero]
        exact hNext hAsks
      · exact hNe.symm

variable {s : AgentService} {request : UserInteractionRequest}

/-- The registry has entered a state, and the event is still to be queued: with it the tracker
gets where the registry is. -/
theorem InStep.entered {r : InteractionRegistry} {p : PendingInteraction} {message : Bytes}
    {transition : InteractionTransition} {event : StateEvent}
    (h : InStep user session.generation past (seen s)) (hUser : event.user.session = some session)
    (hFind : s.interactions.find user event.requestId = some p)
    (hValid : validTransition p.state event.state = true)
    (hFresh : event.state = .secretRequired → exhausted s.interactions.nextPromptId = false)
    (hEnter : s.interactions.enter p event.state message = (transition, r))
    (hPrompt : event.promptId = transition.promptId) :
    InStep user session.generation past ((seen { s with interactions := r }).queue event) := by
  obtain ⟨hPending, hId, hRequest, -⟩ := InteractionRegistry.find_eq_some.mp hFind
  have hCurrent : (seen s).current = some (shown p) := by simp [seen, hPending]
  obtain ⟨signals, hHeard, hAccepted, hAgrees⟩ := h.told
  have hSignal := heard_eq hUser
  have hNumber : event.promptId = if event.state = .secretRequired then
      s.interactions.nextPromptId else 0 := by
    rw [hPrompt, ← congrArg (fun e => e.1.promptId) hEnter]
    unfold InteractionRegistry.enter
    split
    · rfl
    · split <;> rfl
  have hGeneration := InteractionTracker.given_generation
    (InteractionTracker.new session.generation) signals
  have hAccept := hAgrees.accepts hCurrent
    ⟨session.generation, event.requestId, event.promptId, clientState event.state⟩
    hGeneration.symm hId hRequest.symm rfl hNumber hValid hFresh
  refine ⟨h.isCurrent, h.noFailure, _, hHeard.queue hSignal, hAccepted.snoc ?_, ?_⟩
  · exact congrArg Prod.fst hAccept
  · rw [InteractionTracker.given_snoc, hAccept]
    by_cases hAsks : event.state = .secretRequired
    · have hNew := lt_of_not_exhausted (hFresh hAsks)
      rw [hAsks, InteractionRegistry.enter_prompt] at hEnter
      cases hEnter
      rw [hAsks]
      exact ⟨.inr (UInt64.ne_of_lt hNew), rfl, hPrompt⟩
    by_cases hLast : Dbus.isTerminal event.state = true
    · rw [InteractionRegistry.enter_terminal hLast] at hEnter
      cases hEnter
      rw [hLast]
      rfl
    · have hOpen := eq_false_of_ne_true hLast
      rw [InteractionRegistry.enter_progress hAsks hOpen] at hEnter
      cases hEnter
      rw [hOpen]
      exact ⟨.inl rfl, rfl, hPrompt⟩

/-! ## The parts of a ceremony -/

abbrev trackSetting (kind : Ceremony) (user : UserContext) (generation : UInt64)
    (past : List StateEvent) : Setting AgentService Dbus.Input :=
  .among (InTime kind user) (Undisturbed kind user) fun _ s' => Follows generation past (seen s')

variable {kind : Ceremony} {active : UserInteractionRequest}

theorem seen_served {s' : AgentService} (h : Served user s s') : seen s' = seen s := by
  obtain ⟨sessionActive, call, rfl, hRegistered⟩ := h
  rcases serve_cases hRegistered.1 with hSame | hAnswered
  · rw [hSame]
  · exact seen_answered hAnswered

theorem trackSetting_shows :
    (trackSetting kind user generation past).Shows seen (Follows generation past) where
  rely := fun s _ hRely => kept_by_others (J := fun s' => seen s' = seen s)
    (fun _ _ hStep hSame => (seen_served hStep.1).trans hSame) hRely rfl
  guar := fun _ _ hFollows => hFollows

/-- The daemon and the agent are in step. -/
abbrev Synced (user : UserContext) (generation : UInt64) (past : List StateEvent)
    (s : AgentService) : Prop :=
  InStep user generation past (seen s)

theorem trackSetting_synced :
    (trackSetting kind user generation past).Shows seen (InStep user generation past) :=
  trackSetting_shows.mono fun _ => InStep.follows

theorem Synced.of_seen {s' : AgentService} (h : Synced user generation past s)
    (hSame : seen s' = seen s) : Synced user generation past s' := by
  unfold Synced
  rw [hSame]
  exact h

theorem synced_calm {α : Type} {f : Dbus.Input → AgentService → Except Exn α × AgentService}
    (h : ∀ i s, seen (f i s).2 = seen s) :
    Maintains (trackSetting kind user generation past) (Synced user generation past)
      (Proc.atomically f) := by
  have hStill : Still seen (Proc.atomically f) := still_atomically h
  exact maintains_of_still (I := InStep user generation past) trackSetting_synced hStill

theorem synced_context (hSession : user.session.isSome = true) :
    Maintains (trackSetting kind user generation past) (Synced user generation past)
      (contextIsStillCurrent user) := by
  have hFailed : Maintains (trackSetting kind user generation past)
      (Synced user generation past) throwIfFailed := synced_calm fun _ _ => rfl
  refine maintains_bind ?_ fun _ => maintains_done _
  refine maintains_bind hFailed fun _ s hs => ?_
  refine wp_bind.mpr (wp_shows_observe trackSetting_synced hs fun s₁ _ hs₁ _ => ⟨?_, nofun⟩)
  rintro _ ⟨⟩
  have hSynced : Synced user generation past s₁ := hs.of_seen hs₁
  obtain ⟨context, hContext, hBinding⟩ := (Option.any_eq_true _ _).mp hSynced.isCurrent
  have hSame : context.session = user.session :=
    congrArg UserContextBinding.session (eq_of_beq hBinding)
  refine wp_seq (hFailed s₁ hSynced) (fun _ s₂ hs₂ => ?_) fun _ _ h => h
  have hCurrent : s₁.registry.current = some context := hContext
  simp only [hCurrent]
  -- the session is active, so nothing is cleared
  refine wp_bind.mpr (wp_shows_observe trackSetting_synced hs₂ fun s₃ i hs₃ hi => ⟨?_, nofun⟩)
  rintro _ ⟨⟩
  rw [hSame, hSession, hi.1]
  exact hs₂.of_seen hs₃

theorem synced_queueTransition (hUser : user.session = some session)
    (state : UserInteractionState) (message : Bytes) :
    Maintains (trackSetting kind user session.generation past)
      (Synced user session.generation past) (queueTransition user active state message) := by
  let event (promptId : UInt64) : StateEvent :=
    { user, requestId := active.requestId, promptId, operation := active.operation, state,
      relyingPartyId := active.relyingPartyId, message }
  have hTransition (s : AgentService) (hs : Synced user session.generation past s) :
      wp (trackSetting kind user session.generation past) (fun t s' => if t.shouldPublish then
            InStep user session.generation past ((seen s').queue (event t.promptId))
          else Synced user session.generation past s')
        (fun _ => Synced user session.generation past)
        (transition user active state message) s := by
    refine wp_shows_atomically trackSetting_shows fun s' i hSame _ => ?_
    have hs' : Synced user session.generation past s' := hs.of_seen hSame
    split
    · exact ⟨hs'.follows, nofun, fun _ _ => hs'⟩
    · rename_i t interactions hMoved
      refine ⟨hs'.follows, ?_, nofun⟩
      rintro _ ⟨⟩
      obtain ⟨p, hFind, ⟨-, rfl, rfl⟩ | ⟨hValid, hFresh, -, hPublish, hEnter⟩⟩ :=
        InteractionRegistry.transition_cases hMoved
      · exact hs'
      · rw [if_pos hPublish]
        exact hs'.entered hUser hFind hValid hFresh hEnter rfl
  intro s hs
  refine wp_seq (hTransition s hs) (fun t s₁ hs₁ => ?_) fun _ _ h => h
  by_cases hPublish : t.shouldPublish = true
  · rw [if_pos hPublish] at hs₁
    rw [if_neg (not_not.mpr hPublish)]
    refine wp_bind.mpr (wp_shows_atomically trackSetting_shows fun s₂ i hSame _ => ?_)
    have hQueued : Synced user session.generation past (s₂.note (.queued (event t.promptId))) := by
      unfold Synced
      rw [seen_queued, hSame]
      exact hs₁
    exact ⟨hQueued.follows, fun _ _ => hQueued, nofun⟩
  · rw [if_neg hPublish] at hs₁
    rw [if_pos hPublish]
    exact hs₁

theorem synced_upholds (hUser : user.session = some session) :
    Upholds (trackSetting kind user session.generation past) (Synced user session.generation past)
      user active where
  mayCut := trivial
  calm := synced_calm
  context := synced_context (by rw [hUser]; rfl)
  publish := by
    intro state message _
    have hObserve {α : Type} (f : Dbus.Input → AgentService → Except Exn α) :
        Maintains (trackSetting kind user session.generation past)
          (Synced user session.generation past) (Proc.observe f) := synced_calm fun _ _ => rfl
    refine maintains_bind (hObserve _) fun _ => ?_
    split
    · exact maintains_done _
    refine maintains_bind (hObserve _) fun isCurrent => ?_
    split
    · exact maintains_done _
    · exact synced_queueTransition hUser state message

/-! ## Whole ceremonies -/

/-- In step, with nothing pending. -/
def AtRest (user : UserContext) (generation : UInt64) (past : List StateEvent) (v : Seen) : Prop :=
  InStep user generation past v ∧ v.current = none

theorem trackSetting_atRest :
    (trackSetting kind user generation past).Shows seen (AtRest user generation past) :=
  trackSetting_shows.mono fun _ h => h.1.follows

theorem AtRest.quiet (h : AtRest user generation past v) : ∃ signals, Heard past v signals ∧
      AtEach (InteractionTracker.new generation).Accepts signals ∧
      ((InteractionTracker.new generation).given signals).activeRequestId = none := by
  obtain ⟨signals, hHeard, hAccepted, hAgrees⟩ := h.1.told
  unfold Agrees at hAgrees
  rw [h.2] at hAgrees
  exact ⟨signals, hHeard, hAccepted, hAgrees⟩

theorem AtRest.notBegun (h : AtRest user generation past (seen s)) : NotBegun user s.journal s := by
  have hCurrent : s.interactions.current = none := Option.map_eq_none_iff.mp h.2
  exact ⟨⟨h.1.isCurrent, h.1.noFailure⟩, .inl ⟨hCurrent, rfl⟩⟩

theorem synced_begin (h : AtRest user generation past (seen s)) :
    wp (trackSetting kind user generation past)
      (fun id s' => if id = 0 then AtRest user generation past (seen s')
        else Synced user generation past s')
      (fun _ s' => AtRest user generation past (seen s')) (beginInteraction user request) s := by
  have hRest (s₁ s₂ : AgentService) (hs₁ : AtRest user generation past (seen s₁))
      (hSame : seen s₂ = seen s₁) : AtRest user generation past (seen s₂) := by
    rw [hSame]
    exact hs₁
  refine wp_bind.mpr (wp_shows_observe trackSetting_atRest h fun s₁ _ hs₁ _ => ?_)
  refine ⟨fun _ _ => ?_, fun _ _ => hRest s s₁ h hs₁⟩
  have h₁ := hRest s s₁ h hs₁
  by_cases hRequest : request.requestId ≠ 0
  · rw [if_pos hRequest]
    exact h₁
  rw [if_neg hRequest]
  by_cases hSession : user.session.isNone = true
  · rw [if_pos hSession]
    exact h₁
  rw [if_neg hSession]
  refine wp_bind.mpr (wp_shows_observe trackSetting_atRest h₁ fun s₂ _ hs₂ _ => ⟨?_, nofun⟩)
  have h₂ := hRest s₁ s₂ h₁ hs₂
  rintro _ ⟨⟩
  have hRegistered : s₂.registry.isCurrent user = true := h₂.1.isCurrent
  rw [if_neg (not_not.mpr hRegistered)]
  refine wp_shows_atomically trackSetting_shows fun s₃ i hs₃ _ => ?_
  have h₃ := hRest s₂ s₃ h₂ hs₃
  split
  · exact ⟨h₃.1.follows, nofun, fun _ _ => h₃⟩
  · rename_i id interactions hBegin
    obtain ⟨-, hId, rfl⟩ := InteractionRegistry.begin_ok hBegin
    have hEvents : queuedEvents (s₃.journal ++ [.begun id]) = queuedEvents s₃.journal := by
      rw [queuedEvents_note]
      exact List.append_nil _
    obtain ⟨signals, hHeard, hAccepted, hQuiet⟩ := h₃.quiet
    have hBegun : Synced user generation past ({ s₃ with
        interactions := { s₃.interactions with
          current := some { requestId := id, user := user.binding, operation := request.operation,
                            relyingPartyId := request.relyingPartyId }
          secretResponse := none
          nextRequestId := id + 1 }
        settled := false }.note (.begun id)) := by
      refine ⟨h₃.1.isCurrent, h₃.1.noFailure, signals, ?_, hAccepted, .inl rfl, hQuiet⟩
      obtain ⟨events, hSplit, hSignals⟩ := hHeard
      exact ⟨events, hEvents.trans hSplit, hSignals⟩
    refine ⟨hBegun.follows, ?_, nofun⟩
    rintro _ ⟨⟩
    rw [if_neg hId]
    exact hBegun

theorem atRest_end (h : AtRest user generation past (seen s)) :
    wp (trackSetting kind user generation past)
      (fun _ s' => AtRest user generation past (seen s')) (fun _ _ => False)
      (endInteraction user active) s := by
  refine wp_shows_atomically trackSetting_shows fun s₁ _ hs₁ _ => ?_
  have hSeen : (seen s₁).current = none := by
    rw [hs₁]
    exact h.2
  have hCurrent : s₁.interactions.current = none := Option.map_eq_none_iff.mp hSeen
  have hNone : s₁.interactions.find user active.requestId = none := by
    simp [InteractionRegistry.find, hCurrent]
  have hSame : seen ({ s₁ with
      interactions := s₁.interactions.endInteraction user active.requestId }.note
        (.ended active.requestId)) = seen s := by
    rw [← hs₁]
    simp only [seen, note, queuedEvents_note, InteractionRegistry.endInteraction, hNone]
    simp [queuedEvents]
  have hEnd := hSame ▸ h
  exact ⟨hEnd.1.follows, fun _ _ => hEnd, fun _ hError => by cases hError⟩

theorem atRest_interactionScope {body : UserInteractionRequest → AgentProc UserInteractionResult}
    (hBody : ∀ active base s, active.requestId ≠ 0 → user.session.isSome = true →
      Stage user active base Begun s → wp (agentSetting kind user)
        (fun a => Over active base (a ≠ .approved)) (fun _ => Over active base True)
        (body active) s) (hKeeps : ∀ active, Maintains (trackSetting kind user generation past)
      (Synced user generation past) (body active)) :
    Maintains (trackSetting kind user generation past)
      (fun s => AtRest user generation past (seen s)) (interactionScope user request body) := by
  intro s hs
  have hBegin : wp (trackSetting kind user generation past)
      (fun id s' => (if id = 0 then NotBegun user s.journal s' else user.session.isSome = true ∧
          Stage user { request with requestId := id } s.journal Begun s') ∧
        if id = 0 then AtRest user generation past (seen s') else Synced user generation past s')
      (fun _ s' => NotBegun user s.journal s' ∧ AtRest user generation past (seen s'))
      (beginInteraction user request) s :=
    wp_and (wp_beginInteraction hs.notBegun) (synced_begin hs) (fun _ _ h => ⟨h, h⟩)
      (fun _ _ h => ⟨h, h⟩) (fun _ _ _ h => h) id
  refine wp_seq hBegin (fun id s₁ hs₁ => ?_) fun _ _ h => h.2
  by_cases hId : id = 0
  · rw [if_pos hId] at hs₁ ⊢
    rw [if_pos hId] at hs₁
    exact hs₁.2
  rw [if_neg hId] at hs₁ ⊢
  rw [if_neg hId] at hs₁
  obtain ⟨⟨hSession, hBegun⟩, hSynced⟩ := hs₁
  -- what is published last leaves nothing pending, and the tracker agrees
  have hLeft (s₂ : AgentService) (cancelled : Prop)
      (hOver : Over { request with requestId := id } s.journal cancelled s₂)
      (hs₂ : Synced user generation past s₂) : AtRest user generation past (seen s₂) :=
    ⟨hs₂, Option.map_eq_none_iff.mpr hOver.1⟩
  have hOutcome : wp (trackSetting kind user generation past)
      (fun _ s' => AtRest user generation past (seen s')) (fun _ _ => False)
      (body { request with requestId := id }).attempt s₁ := by
    have hBoth : wp (trackSetting kind user generation past)
        (fun a s' => Over { request with requestId := id } s.journal (a ≠ .approved) s' ∧
          Synced user generation past s')
        (fun _ s' => Over { request with requestId := id } s.journal True s' ∧
          Synced user generation past s') (body { request with requestId := id }) s₁ :=
      wp_and (hBody _ _ _ hId hSession hBegun) (hKeeps _ s₁ hSynced) (fun _ _ h => ⟨h, h⟩)
        (fun _ _ h => ⟨h, h⟩) (fun _ _ _ h => h) (fun h => h)
    refine wp_attempt.mpr (wp_mono hBoth ?_ ?_)
    · exact fun a s₂ hs₂ => hLeft s₂ _ hs₂.1 hs₂.2
    · exact fun e s₂ hs₂ => hLeft s₂ _ hs₂.1 hs₂.2
  refine wp_seq hOutcome (fun outcome s₂ hs₂ => ?_) fun _ _ => False.elim
  refine wp_seq (atRest_end hs₂) (fun _ s₃ hs₃ => ?_) fun _ _ => False.elim
  exact wp_ofExcept.mpr ⟨fun _ _ => hs₃, fun _ _ => hs₃⟩

theorem atRest_ceremony (hUser : user.session = some session) (rounds : Nat)
    (request : UserInteractionRequest) :
    Maintains (trackSetting kind user session.generation past)
      (fun s => AtRest user session.generation past (seen s))
      (ceremony kind rounds user request) := by
  cases kind with
  | presence =>
    exact atRest_interactionScope
      (fun active base s hId hSession hs => wp_presenceBody hId hSession rounds hs)
      fun active => (synced_upholds hUser).presenceBody rounds
  | verification =>
    exact atRest_interactionScope
      (fun active base s hId hSession hs => wp_verificationBody hId hSession rounds hs)
      fun active => (synced_upholds hUser).verificationBody rounds

end

/-! ## Runs of ceremonies -/

/-- Ceremonies for one registration, one after the other; in between the D-Bus thread serves the
agent. -/
inductive Ceremonies (env : Ceremony → AgentService → AgentService → Prop)
    (admits : Ceremony → AgentService → Dbus.Input → Prop) (user : UserContext)
    (s : AgentService) : AgentService → Prop
  | start : Ceremonies env admits user s s
  | served {s₁ s₂ : AgentService} (past : Ceremonies env admits user s s₁)
      (hStep : Served user s₁ s₂) : Ceremonies env admits user s s₂
  | ceremony {s₁ s₂ : AgentService} {kind : Ceremony} {rounds : Nat}
      {request : UserInteractionRequest} {p : AgentProc UserInteractionResult}
      {outcome : Except Exn UserInteractionResult} (past : Ceremonies env admits user s s₁)
      (hRun : Steps (env kind) (admits kind) (ceremony kind rounds user request, s₁) (p, s₂))
      (hEnd : p.outcome? = some outcome) : Ceremonies env admits user s s₂

section

variable {user : UserContext} {session : UserSessionContext} {s s' : AgentService}

theorem atRest_start (hRegistered : Registered user s) (hIdle : s.interactions.current = none)
    (generation : UInt64) : AtRest user generation (queuedEvents s.journal) (seen s) := by
  have hCurrent : (seen s).current = none := Option.map_eq_none_iff.mpr hIdle
  refine ⟨⟨hRegistered.1, hRegistered.2, [], ⟨[], (List.append_nil _).symm, rfl⟩, atEach_nil, ?_⟩,
    hCurrent⟩
  unfold Agrees
  rw [hCurrent]
  rfl

theorem Ceremonies.atRest {past : List StateEvent} (hUser : user.session = some session)
    (hStart : AtRest user session.generation past (seen s))
    (h : Ceremonies (fun kind => InTime kind user) (Undisturbed · user) user s s') :
    AtRest user session.generation past (seen s') := by
  induction h with
  | start => exact hStart
  | served _ hStep ih =>
    rw [seen_served hStep]
    exact ih
  | @ceremony s₁ s₂ kind rounds request p outcome _ hRun hEnd ih =>
    have hKept (a b : AgentService) (hStep : InTime kind user a b)
        (ha : AtRest user session.generation past (seen a)) :
        AtRest user session.generation past (seen b) := by
      rw [seen_served hStep.1]
      exact ha
    have hOutcome := wp_outcome (atRest_ceremony hUser rounds request s₁ ih)
      (fun _ => hKept) (fun _ => hKept) hRun
    cases p with
    | done a => exact hOutcome.1 a rfl
    | fail e => exact hOutcome.2 e rfl
    | cut => cases hEnd
    | act update next => cases hEnd

/-- **The agent keeps up.** In every run of ceremonies for one registration in which no
cancellation comes too late: the tracker of the registration accepts every event in the order in
which they were queued, also of a ceremony that is still running, and has no active request after
any of them. -/
theorem tracker_follows_ceremonies (hUser : user.session = some session)
    (hRegistered : Registered user s) (hIdle : s.interactions.current = none)
    (hPast : Ceremonies (fun kind => InTime kind user) (Undisturbed · user) user s s') :
    (∃ signals, Heard (queuedEvents s.journal) (seen s') signals ∧
      AtEach (InteractionTracker.new session.generation).Accepts signals ∧
      ((InteractionTracker.new session.generation).given signals).activeRequestId = none) ∧
    ∀ kind rounds request p s'', Steps (InTime kind user) (Undisturbed kind user)
        (ceremony kind rounds user request, s') (p, s'') →
      ∃ signals, Heard (queuedEvents s.journal) (seen s'') signals ∧
        AtEach (InteractionTracker.new session.generation).Accepts signals := by
  have hRest := hPast.atRest hUser (atRest_start hRegistered hIdle _)
  refine ⟨hRest.quiet, fun kind rounds request p s'' hRun => ?_⟩
  refine wp_invariant (J := fun a => Follows session.generation (queuedEvents s.journal) (seen a))
    (atRest_ceremony hUser rounds request s' hRest) hRest.1.follows
    (fun a b hStep ha => ?_) (fun _ _ hFollows _ => hFollows) hRun
  rw [seen_served hStep.1]
  exact ha

end

/-! ## Two runs -/

/-- All that was ever queued, as the agent takes it in. -/
def signalsOf (s : AgentService) : List Client.InteractionEvent :=
  (queuedEvents s.journal).filterMap heard

theorem heard_nil {s : AgentService} {signals : List Client.InteractionEvent} :
    Heard [] (seen s) signals ↔ signals = signalsOf s := by
  constructor
  · rintro ⟨events, rfl, rfl⟩
    rfl
  · rintro rfl
    exact ⟨_, rfl, rfl⟩

/-- A verification that the agent cancels in time. -/
theorem tracker_follows_ceremonies_cancelled : ∃ s' signals,
    Ceremonies (fun kind => InTime kind agentUser) (Undisturbed · agentUser) agentUser agentReady
      s' ∧
    Heard [] (seen s') signals ∧ signals.map (·.state) = [.verificationStarted, .cancelled] ∧
    AtEach (InteractionTracker.new 1).Accepts signals ∧
    ((InteractionTracker.new 1).given signals).activeRequestId = none := by
  have hEnds : (followVerification (fun s i => decide (Undisturbed .verification agentUser s i))
      callsInTime cancelledInTime).any (fun c => c.1.outcome? == some (.ok .cancelled) &&
        (signalsOf c.2).map (·.state) == [.verificationStarted, .cancelled]) = true := by
    decide +kernel
  obtain ⟨⟨p, s'⟩, hFollow, hLast⟩ := (Option.any_eq_true _ _).mp hEnds
  simp only [Bool.and_eq_true, beq_iff_eq] at hLast
  obtain ⟨hOutcome, hStates⟩ := hLast
  have hPast : Ceremonies (fun kind => InTime kind agentUser) (Undisturbed · agentUser) agentUser
      agentReady s' :=
    .ceremony .start (steps_inTime hFollow) hOutcome
  obtain ⟨⟨signals, hHeard, hAccepted, hQuiet⟩, -⟩ :=
    tracker_follows_ceremonies rfl (by decide) rfl hPast
  obtain rfl := heard_nil.mp hHeard
  exact ⟨s', signalsOf s', hPast, hHeard, hStates, hAccepted, hQuiet⟩

/-- **The agent is left behind.** The verification of a cancellation that came too late ends
without a last event, and the first event of the next ceremony is refused. -/
theorem tracker_left_behind : ∃ s' first p s'' signals,
    Ceremonies (fun _ => Served agentUser) (fun _ _ i => i.sessionActive = true) agentUser
      agentReady s' ∧
    Heard [] (seen s') first ∧ ((InteractionTracker.new 1).given first).activeRequestId = some 1 ∧
    Steps (Served agentUser) (fun _ i => i.sessionActive = true)
      (ceremony .presence 1 agentUser agentRequest, s') (p, s'') ∧
    Heard [] (seen s'') signals ∧ ¬ AtEach (InteractionTracker.new 1).Accepts signals := by
  let next : Client.InteractionEvent := ⟨1, 2, 0, .presenceRequired⟩
  have hEnds : (followVerification (fun _ i => i.sessionActive)
      (fun s call => decide (Registered agentUser (s.serve true call).2)) cancelledTooLate).any
      (fun c => c.1.outcome? == some (.ok .approved) &&
        (((InteractionTracker.new 1).given (signalsOf c.2)).activeRequestId == some 1 &&
        (!(((InteractionTracker.new 1).given (signalsOf c.2)).accept next).1 &&
        (Proc.follow (fun _ i => i.sessionActive) (fun call s => (s.serve true call).2)
          (fun _ _ => false) (List.replicate 7 (.inl {}))
          (ceremony .presence 1 agentUser agentRequest, c.2)).any fun c' =>
            signalsOf c'.2 == signalsOf c.2 ++ [next]))) = true := by decide +kernel
  obtain ⟨⟨p, s'⟩, hFollow, hLast⟩ := (Option.any_eq_true _ _).mp hEnds
  simp only [Bool.and_eq_true, beq_iff_eq] at hLast
  obtain ⟨hOutcome, hActive, hRefused, hNext⟩ := hLast
  obtain ⟨⟨p', s''⟩, hFollow', hSignals⟩ := (Option.any_eq_true _ _).mp hNext
  refine ⟨s', signalsOf s', p', s'', signalsOf s'',
    .ceremony .start (steps_served hFollow) hOutcome, heard_nil.mpr rfl, hActive, ?_,
    heard_nil.mpr rfl, fun hAccepts => ?_⟩
  · exact Proc.steps_follow (fun _ _ hi => hi) (fun _ _ hCall => nomatch hCall) _ hFollow'
  · have hAccepted : (InteractionTracker.new 1).Accepts (signalsOf s') next :=
      hAccepts _ next [] (eq_of_beq hSignals)
    rw [InteractionTracker.Accepts] at hAccepted
    rw [hAccepted] at hRefused
    cases hRefused

end VAuth
