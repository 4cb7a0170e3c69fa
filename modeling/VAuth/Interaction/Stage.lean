import VAuth.Interaction.PamUserInteraction

/-!
# Stages of a ceremony

A ceremony runs on the worker while the D-Bus thread serves the agent, whose registration
stays current. A stage says what holds of the pending interaction in some part of the
ceremony, whatever the agent does meanwhile; here are the stages and what publishing a state
does to them.
-/

namespace VAuth

open Verifier Dbus Dbus.AgentService Proc

inductive Ceremony where
  | presence
  | verification
deriving DecidableEq

def ceremony : Ceremony → Nat → UserContext → UserInteractionRequest →
    AgentProc UserInteractionResult
  | .presence => requestPresence
  | .verification => requestVerification

/-! ## The agent meanwhile -/

/-- The registration of the user is current. -/
def Registered (user : UserContext) (s : AgentService) : Prop :=
  s.registry.isCurrent user = true ∧ s.failure = none

/-- The D-Bus thread serves a method call; the registration stays current. -/
def Served (user : UserContext) (s s' : AgentService) : Prop :=
  ∃ active call, s' = (s.serve active call).2 ∧ Registered user s'

def cancelPending (s : AgentService) : Bool := s.interactions.current.any (·.cancelRequested)

/-- Nothing that would end the loop of `run_verifier_service`. -/
def Quiet (i : Dbus.Input) : Prop :=
  i.expired = false ∧ i.connected = true ∧ i.sent = true ∧
    (i.poll = some .nothing ∨ i.poll = some .readable) ∧
    goesOn (receiveVerifierMessage i.packet) = true

/-- The packet asks for a secret. -/
def prompts (i : Dbus.Input) : Bool :=
  match receiveVerifierMessage i.packet with
  | .ok (.secretRequired _) => true
  | _ => false

/-- In a verification the session can be named to the verifier service, a prompt can be numbered,
and nothing ends the loop while an accepted cancellation has not been noticed. -/
def Undisturbed (kind : Ceremony) (user : UserContext) (s : AgentService) (i : Dbus.Input) :
    Prop :=
  i.sessionActive = true ∧ (kind = .verification →
    (∀ session ∈ user.session, validateSessionId session.sessionId = .ok ()) ∧
    (prompts i = true → exhausted s.interactions.nextPromptId = false) ∧
    (cancelPending s = true → Quiet i))

/-- In a verification no cancellation is accepted once the worker has what ends the loop. -/
def InTime (kind : Ceremony) (user : UserContext) (s s' : AgentService) : Prop :=
  Served user s s' ∧ (kind = .verification → s.settled = true → cancelPending s' = true →
    cancelPending s = true)

/-! ## Stages of a ceremony

The pending interaction is the ceremony's own, and the journal has grown by its beginning and
what followed. -/

/-- How a method call changes the pending interaction. -/
inductive Reacts : PendingInteraction → PendingInteraction → Prop
  | presence {p : PendingInteraction} (approved : Bool)
      (hState : p.state = some .presenceRequired) (hOpen : p.responseClosed = false) :
      Reacts p { p with presenceResponse := some approved, responseClosed := true }
  | secret {p : PendingInteraction} : Reacts p { p with secretSubmitted := true }
  | cancel {p : PendingInteraction} (hState : p.state.isSome = true)
      (hOpen : p.responseClosed = false) :
      Reacts p { p with cancelRequested := true, responseClosed := true }

/-- What else the stages depend on. -/
structure Progress where
  settled : Bool
  nextPromptId : UInt64

def Dbus.AgentService.progress (s : AgentService) : Progress where
  settled := s.settled
  nextPromptId := s.interactions.nextPromptId

structure Pending (user : UserContext) (active : UserInteractionRequest) (base : List Note)
    (p : PendingInteraction) (tail : List Note) (s : AgentService) : Prop where
  registered : Registered user s
  current : s.interactions.current = some p
  requestId : p.requestId = active.requestId
  binding : p.user = user.binding
  secret : ∀ secret, s.interactions.secretResponse = some secret → validateSecret secret = .ok ()
  journal : s.journal = base ++ .begun active.requestId :: tail
  first : ∀ id, .begun id ∉ tail
  cancel : .cancelAccepted active.requestId ∈ tail → p.cancelRequested = true

section

variable {kind : Ceremony} {user : UserContext} {active : UserInteractionRequest}
  {base tail : List Note} {p : PendingInteraction} {s s' : AgentService}
  {P P' : PendingInteraction → Progress → Prop}

theorem Pending.answered (h : Pending user active base p tail s) (hStep : Answered s s')
    (hRegistered : Registered user s') :
    ∃ p' tail', Pending user active base p' tail' s' ∧ s'.progress = s.progress ∧ Reacts p p' := by
  cases hStep with
  | @presence q approved hCurrent hState hOpen =>
    obtain rfl : p = q := Option.some.inj (h.current.symm.trans hCurrent)
    exact ⟨_, tail, { h with
      registered := hRegistered, current := rfl, requestId := h.requestId,
      binding := h.binding, cancel := h.cancel }, rfl,
      .presence approved hState hOpen⟩
  | @secret q secret hCurrent hSecret =>
    obtain rfl : p = q := Option.some.inj (h.current.symm.trans hCurrent)
    refine ⟨_, tail, { h with
      registered := hRegistered, current := rfl, requestId := h.requestId,
      binding := h.binding, cancel := h.cancel, secret := ?_ }, rfl, .secret⟩
    rintro _ ⟨⟩
    exact hSecret
  | @cancelled q hCurrent hState hOpen =>
    obtain rfl : p = q := Option.some.inj (h.current.symm.trans hCurrent)
    refine ⟨_, tail ++ [.cancelAccepted p.requestId], { h with
      registered := hRegistered, current := rfl, requestId := h.requestId,
      binding := h.binding, journal := ?_, first := ?_,
      cancel := fun _ => rfl }, rfl, .cancel hState hOpen⟩
    · simp [note, h.journal]
    · intro id hid
      simp [h.first id] at hid

theorem Pending.cancelPending (h : Pending user active base p tail s) :
    cancelPending s = p.cancelRequested := by
  simp [VAuth.cancelPending, h.current]

/-- What holds of the pending interaction in some part of the ceremony. -/
def Stage (user : UserContext) (active : UserInteractionRequest) (base : List Note)
    (P : PendingInteraction → Progress → Prop) (s : AgentService) : Prop :=
  ∃ p tail, Pending user active base p tail s ∧ P p s.progress

theorem Stage.mono (h : Stage user active base P s) (hP : ∀ p b, P p b → P' p b) :
    Stage user active base P' s := by
  obtain ⟨p, tail, hp, hs⟩ := h
  exact ⟨p, tail, hp, hP _ _ hs⟩

/-- The agent does not end this part of the ceremony. -/
def Steady (kind : Ceremony) (P : PendingInteraction → Progress → Prop) : Prop :=
  ∀ p p' progress, Reacts p p' → (kind = .verification → progress.settled = true →
    p'.cancelRequested = true → p.cancelRequested = true) → P p progress → P p' progress

/-- The setting of the ceremonies. -/
abbrev agentSetting (kind : Ceremony) (user : UserContext) :
    Setting AgentService Dbus.Input :=
  .among (InTime kind user) (Undisturbed kind user) fun _ _ => True

theorem tolerates_stage (hP : Steady kind P) :
    (agentSetting kind user).Tolerates (Stage user active base P) := by
  refine tolerates_among fun s s' hStep hStage => ?_
  obtain ⟨⟨sessionActive, call, hServe, hRegistered⟩, hInTime⟩ := hStep
  obtain ⟨p, tail, hp, hs⟩ := hStage
  rcases serve_cases (hServe ▸ hRegistered.1) with hSame | hAnswered
  · rw [hServe, hSame]
    exact ⟨p, tail, hp, hs⟩
  · rw [← hServe] at hAnswered
    obtain ⟨p', tail', hp', hSettled, hReacts⟩ := hp.answered hAnswered hRegistered
    refine ⟨p', tail', hp', hSettled ▸ hP p p' s.progress hReacts ?_ hs⟩
    intro hKind hs' hCancel
    rw [← hp.cancelPending]
    exact hInTime hKind hs' (hp'.cancelPending.trans hCancel)

/-! ## The parts of the ceremonies -/

/-- The states of a ceremony that has published its first one and not its last. -/
def Ceremony.isOpen : Ceremony → UserInteractionState → Bool
  | .presence => (· == .presenceRequired)
  | .verification => isVerificationProgress

/-- The last states of a ceremony. -/
def Ceremony.isLast : Ceremony → UserInteractionState → Bool
  | .presence => fun state => state == .presenceApproved || state == .presenceDenied ||
      state == .cancelled || state == .timedOut
  | .verification => fun state => state == .verificationSucceeded ||
      state == .verificationFailed || state == .cancelled || state == .timedOut

variable {last state next : UserInteractionState} {T T' : List Note → Prop}

theorem validTransition_last (hOpen : kind.isOpen state = true) (hLast : kind.isLast last = true) :
    validTransition (some state) last = true := by
  cases kind <;> cases state <;> cases hOpen <;> cases last <;> first | rfl | cases hLast

theorem isTerminal_last (hLast : kind.isLast last = true) : isTerminal last = true := by
  cases kind <;> cases last <;> first | rfl | cases hLast

/-- Begun, with nothing published. -/
def Begun (p : PendingInteraction) (_ : Progress) : Prop :=
  p.state = none ∧ p.cancelRequested = false ∧ p.presenceResponse = none

/-- In one of its open states. -/
def Open (kind : Ceremony) (p : PendingInteraction) (_ : Progress) : Prop :=
  ∃ state, p.state = some state ∧ kind.isOpen state = true

/-- Waiting for the answer to a presence request. -/
def Waiting (p : PendingInteraction) (_ : Progress) : Prop :=
  p.state = some .presenceRequired ∧ (p.cancelRequested = true → p.responseClosed = true) ∧
    (p.presenceResponse.isSome = true → p.responseClosed = true ∧ p.cancelRequested = false)

/-- Waiting for the answer to a prompt. -/
def Prompted (promptId : UInt64) (p : PendingInteraction) (_ : Progress) : Prop :=
  p.state = some .secretRequired ∧ p.promptId = promptId

/-- Not cancelled, and no longer to be cancelled. -/
def Deaf (kind : Ceremony) (p : PendingInteraction) (progress : Progress) : Prop :=
  Open kind p progress ∧ p.cancelRequested = false ∧
    (p.responseClosed = true ∨ (kind = .verification ∧ progress.settled = true))

/-- Open, with a number for another prompt. -/
def Numbered (p : PendingInteraction) (progress : Progress) : Prop :=
  Open .verification p progress ∧ exhausted progress.nextPromptId = false

/-- Cancelled, which is not taken back. -/
def Cancelled (P : PendingInteraction → Progress → Prop) (p : PendingInteraction)
    (progress : Progress) : Prop :=
  P p progress ∧ p.cancelRequested = true

theorem steady_begun : Steady kind Begun := by
  intro p p' progress hReacts _ hP
  obtain ⟨hState, hCancel, hResponse⟩ := hP
  cases hReacts with
  | presence approved h _ => rw [hState] at h; cases h
  | secret => exact ⟨hState, hCancel, hResponse⟩
  | cancel h _ => rw [hState] at h; cases h

theorem steady_open : Steady kind (Open kind) := by
  intro p p' progress hReacts _ hP
  cases hReacts with
  | presence approved h _ => exact hP
  | secret => exact hP
  | cancel h _ => exact hP

theorem steady_waiting : Steady kind Waiting := by
  intro p p' progress hReacts _ hP
  obtain ⟨hState, hCloses, hResponse⟩ := hP
  cases hReacts with
  | presence approved _ hOpen =>
    have hNotCancelled : p.cancelRequested = false := by
      by_contra h
      have hClosed := hCloses (eq_true_of_ne_false h)
      rw [hOpen] at hClosed
      cases hClosed
    exact ⟨hState, fun _ => rfl, fun _ => ⟨rfl, hNotCancelled⟩⟩
  | secret => exact ⟨hState, hCloses, hResponse⟩
  | cancel _ hOpen =>
    refine ⟨hState, fun _ => rfl, fun h => ?_⟩
    exact absurd (hResponse h).1 (by simp [hOpen])

theorem steady_prompted {promptId : UInt64} : Steady kind (Prompted promptId) := by
  intro p p' progress hReacts _ hP
  cases hReacts with
  | presence approved h _ => exact hP
  | secret => exact hP
  | cancel h _ => exact hP

theorem steady_deaf : Steady kind (Deaf kind) := by
  intro p p' progress hReacts hInTime hP
  obtain ⟨hOpen, hCancel, hDeaf⟩ := hP
  cases hReacts with
  | presence approved _ _ => exact ⟨hOpen, hCancel, .inl rfl⟩
  | secret => exact ⟨hOpen, hCancel, hDeaf⟩
  | cancel _ hNotClosed =>
    rcases hDeaf with hClosed | ⟨hKind, hSettled⟩
    · rw [hNotClosed] at hClosed
      cases hClosed
    · have := hInTime hKind hSettled rfl
      rw [hCancel] at this
      cases this

theorem steady_numbered : Steady .verification Numbered :=
  fun p p' progress hReacts hInTime hP =>
    ⟨steady_open p p' progress hReacts hInTime hP.1, hP.2⟩

theorem steady_cancelled (hP : Steady kind P) : Steady kind (Cancelled P) := by
  intro p p' progress hReacts hInTime hC
  refine ⟨hP p p' progress hReacts hInTime hC.1, ?_⟩
  cases hReacts with
  | presence approved _ _ => exact hC.2
  | secret => exact hC.2
  | cancel _ _ => rfl

/-! ## Single steps -/

variable {α : Type} {Q : α → AgentService → Prop} {E : Exn → AgentService → Prop}

theorem wp_stage {f : Dbus.Input → AgentService → Except Exn α × AgentService}
    (hP : Steady kind P) (h : Stage user active base P s)
    (hStep : ∀ s' i, Stage user active base P s' → Undisturbed kind user s' i →
      (∀ a, (f i s').1 = .ok a → Q a (f i s').2) ∧ (∀ e, (f i s').1 = .error e → E e (f i s').2)) :
    wp (agentSetting kind user) Q E (Proc.atomically f) s :=
  wp_tolerant_atomically (tolerates_stage hP) h fun s' i hs hi =>
    ⟨trivial, hStep s' i hs hi⟩

theorem wp_stage_read {f : AgentService → α} (hP : Steady kind P)
    (h : Stage user active base P s) (hStep : ∀ s', Stage user active base P s' → Q (f s') s') :
    wp (agentSetting kind user) Q E (Proc.read f) s := by
  refine wp_stage hP h fun s' i hs hi => ⟨?_, ?_⟩
  · rintro a ⟨⟩
    exact hStep s' hs
  · rintro e ⟨⟩

theorem Stage.registered (h : Stage user active base P s) : Registered user s := by
  obtain ⟨p, tail, hp, _⟩ := h
  exact hp.registered

theorem wp_throwIfFailed (hP : Steady kind P) (h : Stage user active base P s) :
    wp (agentSetting kind user) (fun _ => Stage user active base P) (fun _ _ => False)
      throwIfFailed s := by
  refine wp_stage hP h fun s' i hs hi => ?_
  have hFailure := hs.registered.2
  simp only [hFailure]
  exact ⟨fun _ _ => hs, nofun⟩

/-- Past the checks of `publish_state`. -/
theorem wp_publishState {Q : UInt64 → AgentService → Prop} {message : Bytes}
    (hId : active.requestId ≠ 0) (hSession : user.session.isSome = true) (hP : Steady kind P)
    (h : Stage user active base P s)
    (hRest : ∀ s', Stage user active base P s' → wp (agentSetting kind user) Q E
      (queueTransition user active state message) s') :
    wp (agentSetting kind user) Q E (publishState user active state message) s := by
  refine wp_seq (wp_throwIfFailed hP h) ?_ (fun _ _ => False.elim)
  intro _ s₁ hs₁
  have hNone : ¬ user.session.isNone = true := by
    simpa [Option.isSome_iff_ne_none] using hSession
  rw [if_neg (not_or.mpr ⟨hId, hNone⟩)]
  refine wp_bind.mpr (wp_stage_read hP hs₁ fun s₂ hs₂ => ?_)
  rw [if_neg (not_not.mpr hs₂.registered.1)]
  exact hRest s₂ hs₂

theorem Pending.find (hId : active.requestId ≠ 0) (h : Pending user active base p tail s) :
    s.interactions.find user active.requestId = some p :=
  InteractionRegistry.find_eq_some.mpr ⟨h.current, hId, h.requestId, h.binding⟩

theorem Pending.queued (h : Pending user active base p tail s) (event : StateEvent) :
    Pending user active base p (tail ++ [.queued event]) (s.note (.queued event)) where
  registered := h.registered
  current := h.current
  requestId := h.requestId
  binding := h.binding
  secret := h.secret
  journal := by simp [note, h.journal]
  first := by
    intro id hid
    simp [h.first id] at hid
  cancel := by
    intro hid
    exact h.cancel (by simpa using hid)

/-! ## Publishing the last state -/

/-- The interaction is no longer pending, and of what was noted since it began `T` holds. -/
def Gone (active : UserInteractionRequest) (base : List Note) (T : List Note → Prop)
    (s : AgentService) : Prop :=
  s.interactions.current = none ∧ ∃ tail, s.journal = base ++ .begun active.requestId :: tail ∧
    (∀ id, .begun id ∉ tail) ∧ T tail

/-- The agent was told that the request is cancelled. -/
def ToldCancelled (requestId : UInt64) (tail : List Note) : Prop :=
  ∃ event, .queued event ∈ tail ∧ event.requestId = requestId ∧ event.state = .cancelled

/-- An accepted cancellation has been published, which happens only if `cancelled` holds. -/
abbrev Over (active : UserInteractionRequest) (base : List Note) (cancelled : Prop) :
    AgentService → Prop :=
  Gone active base fun tail => .cancelAccepted active.requestId ∈ tail →
    cancelled ∧ ToldCancelled active.requestId tail

theorem Gone.mono (h : Gone active base T s) (hT : ∀ tail, T tail → T' tail) :
    Gone active base T' s := by
  obtain ⟨hCurrent, tail, hJournal, hFirst, hTail⟩ := h
  exact ⟨hCurrent, tail, hJournal, hFirst, hT tail hTail⟩

theorem Gone.queued (h : Gone active base T s) (event : StateEvent)
    (hT : ∀ tail, T tail → T' (tail ++ [.queued event])) :
    Gone active base T' (s.note (.queued event)) := by
  obtain ⟨hCurrent, tail, hJournal, hFirst, hTail⟩ := h
  refine ⟨hCurrent, tail ++ [.queued event], ?_, ?_, hT tail hTail⟩
  · simp [note, hJournal]
  · intro id hid
    simp [hFirst id] at hid

/-- Without a pending interaction there is nothing the agent could answer. -/
theorem eq_of_inTime (hCurrent : s.interactions.current = none) (h : InTime kind user s s') :
    s' = s := by
  obtain ⟨⟨sessionActive, call, hServe, hRegistered⟩, _⟩ := h
  rcases serve_cases (hServe ▸ hRegistered.1) with hSame | hAnswered
  · exact hServe.trans hSame
  · exact absurd hCurrent hAnswered.pending

theorem tolerates_gone : (agentSetting kind user).Tolerates (Gone active base T) := by
  refine tolerates_among fun s s' hStep hGone => ?_
  rw [eq_of_inTime hGone.1 hStep]
  exact hGone

theorem wp_queueLast (hId : active.requestId ≠ 0) (hLast : kind.isLast last = true)
    (hP : Steady kind P) (hOpen : ∀ p progress, P p progress → Open kind p progress ∧
      (p.cancelRequested = true → last = .cancelled)) (h : Stage user active base P s) :
    wp (agentSetting kind user) (fun _ => Over active base (last = .cancelled))
      (fun _ _ => False) (queueTransition user active last []) s := by
  have hTransition : wp (agentSetting kind user)
      (fun t s' => t = { shouldPublish := true, promptId := 0 } ∧ Gone active base
        (fun tail => .cancelAccepted active.requestId ∈ tail → last = .cancelled) s')
      (fun _ _ => False) (transition user active last []) s := by
    refine wp_stage hP h fun s' i hs hi => ?_
    obtain ⟨p, tail, hp, hPs⟩ := hs
    obtain ⟨⟨state, hState, hIsOpen⟩, hCancel⟩ := hOpen p _ hPs
    have hCheck : s'.interactions.checkTransition p last [] = .ok () := by
      refine InteractionRegistry.checkTransition_ok ?_ (.inr rfl) (Nat.zero_le _) ?_
      · rw [hState]
        exact validTransition_last hIsOpen hLast
      · rintro rfl
        cases isTerminal_last hLast
    have hNotSuppressed : ¬ (p.cancelRequested = true ∧ last ≠ .cancelled) :=
      fun hSuppressed => hSuppressed.2 (hCancel hSuppressed.1)
    simp only [InteractionRegistry.transition_of_find (hp.find hId) hCheck, if_neg hNotSuppressed,
      InteractionRegistry.enter_terminal (isTerminal_last hLast)]
    refine ⟨?_, nofun⟩
    rintro a ⟨⟩
    exact ⟨rfl, rfl, tail, hp.journal, hp.first, fun hAccepted => hCancel (hp.cancel hAccepted)⟩
  refine wp_seq hTransition ?_ fun _ _ h => h
  rintro _ s₁ ⟨rfl, hGone⟩
  rw [if_neg (by simp)]
  refine wp_bind.mpr (wp_tolerant_atomically tolerates_gone hGone fun s₂ i hs₂ _ => ?_)
  refine ⟨trivial, ?_, nofun⟩
  rintro _ ⟨⟩
  refine hs₂.queued _ fun tail hTail hAccepted => ?_
  have hCancelled := hTail (by simpa using hAccepted)
  exact ⟨hCancelled, _, List.mem_append_right _ (List.mem_singleton.mpr rfl), rfl, hCancelled⟩

/-! ## Publishing the other states -/

theorem Pending.entered {p' : PendingInteraction} {promptId : UInt64}
    {interactions : InteractionRegistry} (h : Pending user active base p tail s)
    (hCurrent : interactions.current = some p')
    (hEntered : InteractionRegistry.Entered p p' next promptId)
    (hSecret : interactions.secretResponse = none ∨
      interactions.secretResponse = s.interactions.secretResponse) :
    Pending user active base p' tail { s with interactions } where
  registered := h.registered
  current := hCurrent
  requestId := hEntered.requestId.trans h.requestId
  binding := hEntered.user.trans h.binding
  secret := by
    intro secret hs
    rcases hSecret with hNone | hSame
    · rw [hNone] at hs
      cases hs
    · exact h.secret secret (hSame ▸ hs)
  journal := h.journal
  first := h.first
  cancel := fun hAccepted => hEntered.cancelRequested.trans (h.cancel hAccepted)

theorem wp_queueNext {message : Bytes} (P' : UInt64 → PendingInteraction → Progress → Prop)
    (hId : active.requestId ≠ 0) (hNext : isTerminal next = false) (hP : Steady kind P)
    (hP' : ∀ id, Steady kind (P' id)) (hCheck : ∀ (s' : AgentService) p, P p s'.progress →
      s'.interactions.checkTransition p next message = .ok () ∧
        (next = .secretRequired → s'.interactions.nextPromptId ≠ 0))
    (hEnters : ∀ p p' progress progress' id, P p progress → p.cancelRequested = false →
      InteractionRegistry.Entered p p' next id → (next = .secretRequired → id ≠ 0) →
      P' id p' progress') (h : Stage user active base P s) :
    wp (agentSetting kind user) (fun id s' => Stage user active base (P' id) s' ∨
        (id = 0 ∧ Stage user active base (Cancelled P) s'))
      (fun _ _ => False) (queueTransition user active next message) s := by
  have hTransition : wp (agentSetting kind user)
      (fun t s' => (t.shouldPublish = true ∧ Stage user active base (P' t.promptId) s') ∨
        (t.shouldPublish = false ∧ Stage user active base (Cancelled P) s'))
      (fun _ _ => False) (transition user active next message) s := by
    refine wp_stage hP h fun s' i hs hi => ?_
    obtain ⟨p, tail, hp, hPs⟩ := hs
    obtain ⟨hChecked, hPrompt⟩ := hCheck s' p hPs
    have hLast : next ≠ .cancelled := by
      rintro rfl
      cases hNext
    simp only [InteractionRegistry.transition_of_find (hp.find hId) hChecked]
    refine ⟨?_, nofun⟩
    by_cases hCancel : p.cancelRequested = true
    · simp only [if_pos (And.intro hCancel hLast)]
      rintro t ⟨⟩
      exact .inr ⟨rfl, p, tail, hp, hPs, hCancel⟩
    · obtain ⟨promptId, p', interactions, hEnter, hCurrent, hEntered, hSecret, hPromptId⟩ :=
        InteractionRegistry.enter_open s'.interactions p message hNext
      simp only [if_neg (fun hBoth : _ ∧ _ => hCancel hBoth.1), hEnter]
      rintro t ⟨⟩
      refine .inl ⟨rfl, p', tail, hp.entered hCurrent hEntered hSecret, ?_⟩
      refine hEnters p p' _ _ promptId hPs (eq_false_of_ne_true hCancel) hEntered ?_
      intro hState
      rw [hPromptId hState]
      exact hPrompt hState
  refine wp_seq hTransition ?_ fun _ _ h => h
  rintro t s₁ (⟨hPublish, hs₁⟩ | ⟨hPublish, hs₁⟩)
  · rw [if_neg (not_not.mpr hPublish)]
    refine wp_bind.mpr (wp_stage (hP' _) hs₁ fun s₂ i hs₂ _ => ⟨?_, nofun⟩)
    rintro _ ⟨⟩
    obtain ⟨p, tail, hp, hPs⟩ := hs₂
    exact .inl ⟨p, _, hp.queued _, hPs⟩
  · rw [if_pos (by simp [hPublish])]
    exact .inr ⟨rfl, hs₁⟩

/-! ## Ends of a ceremony -/

theorem Stage.current (h : Stage user active base P s) : ∃ context,
    s.registry.current = some context ∧ context.binding = user.binding := by
  obtain ⟨context, hContext, hBinding⟩ := (Option.any_eq_true _ _).mp h.registered.1
  exact ⟨context, hContext, eq_of_beq hBinding⟩

theorem wp_contextIsStillCurrent (hSession : user.session.isSome = true) (hP : Steady kind P)
    (h : Stage user active base P s) :
    wp (agentSetting kind user) (fun a s' => a = true ∧ Stage user active base P s')
      (fun _ _ => False) (contextIsStillCurrent user) s := by
  refine wp_bind.mpr (wp_seq (wp_throwIfFailed hP h) ?_ fun _ _ h => h)
  intro _ s₁ hs₁
  refine wp_bind.mpr (wp_stage_read hP hs₁ fun s₂ hs₂ => ?_)
  obtain ⟨context, hContext, hBinding⟩ := hs₂.current
  rw [hContext]
  refine wp_seq (wp_throwIfFailed hP hs₂) ?_ fun _ _ h => h
  intro _ s₃ hs₃
  refine wp_bind.mpr (wp_stage hP hs₃ fun s₄ i hs₄ hi => ⟨?_, nofun⟩)
  have hActive : (context.session.isSome && i.sessionActive) = true := by
    have hSame : context.session = user.session := congrArg UserContextBinding.session hBinding
    rw [hSame, hSession, hi.1]
    rfl
  rintro a ⟨⟩
  rw [hActive, if_pos rfl]
  exact ⟨by simp [hBinding], hs₄⟩

theorem Stage.deaf_open (h : Stage user active base (Deaf kind) s) :
    Stage user active base (Open kind) s :=
  h.mono fun _ _ hDeaf => hDeaf.1

theorem Pending.closed (h : Pending user active base p tail s) :
    Pending user active base { p with responseClosed := true } tail
      { s with interactions.current := some { p with responseClosed := true } } :=
  { h with current := rfl, requestId := h.requestId, binding := h.binding, cancel := h.cancel }

/-- A cancellation has been noticed. -/
def Cancels (e : Exn) : Prop := e = .userInteractionCancelled ∨ e = .operationCancelled

/-- What an exception leaves behind: a noticed cancellation still to be published, or an
interaction that nobody has cancelled. -/
def Stopped (kind : Ceremony) (user : UserContext) (active : UserInteractionRequest)
    (base : List Note) (e : Exn) (s : AgentService) : Prop :=
  (Cancels e ∧ Stage user active base (Open kind) s) ∨ Stage user active base (Deaf kind) s

/-- The exceptions that a ceremony answers with its last state. -/
def Foreseen : Ceremony → Exn → Prop
  | .presence, e => Cancels e ∨ e = .userActionTimedOut
  | .verification, e => e ≠ .verificationInfrastructureError

/-- What the parts of a ceremony that throw leave behind. -/
def Halted (kind : Ceremony) (user : UserContext) (active : UserInteractionRequest)
    (base : List Note) (e : Exn) (s : AgentService) : Prop :=
  Foreseen kind e ∧ Stopped kind user active base e s

theorem Halted.of_cancels {e : Exn} (he : Cancels e) (h : Stage user active base (Open kind) s) :
    Halted kind user active base e s := by
  refine ⟨?_, .inl ⟨he, h⟩⟩
  cases kind with
  | presence => exact .inl he
  | verification => rcases he with rfl | rfl <;> exact nofun

theorem Halted.of_deaf {e : Exn} (he : Foreseen kind e) (h : Stage user active base (Deaf kind) s) :
    Halted kind user active base e s := ⟨he, .inr h⟩

/-- What the body of an interaction scope leaves behind: the last state is published, or
nobody has cancelled the interaction. -/
def Left (kind : Ceremony) (user : UserContext) (active : UserInteractionRequest)
    (base : List Note) (cancelled : Prop) (s : AgentService) : Prop :=
  Over active base cancelled s ∨ Stage user active base (Deaf kind) s

theorem Over.mono {cancelled cancelled' : Prop} (h : Over active base cancelled s)
    (hImp : cancelled → cancelled') : Over active base cancelled' s :=
  Gone.mono h fun _ hTail hAccepted => ⟨hImp (hTail hAccepted).1, (hTail hAccepted).2⟩

section Publish

variable (hId : active.requestId ≠ 0) (hSession : user.session.isSome = true)
include hId hSession

theorem wp_publishCancelled (h : Stage user active base (Open kind) s) :
    wp (agentSetting kind user) (fun _ => Over active base True)
      (fun _ _ => False) (publishState user active .cancelled []) s := by
  refine wp_publishState hId hSession steady_open h fun s' hs' => ?_
  refine wp_mono (wp_queueLast hId ?_ steady_open ?_ hs') ?_ fun _ _ h => h
  · cases kind <;> rfl
  · exact fun _ _ hOpen => ⟨hOpen, fun _ => rfl⟩
  · exact fun _ _ hs₂ => Over.mono hs₂ fun _ => trivial

variable {last : UserInteractionState} {f : UInt64 → AgentProc α}

theorem wp_publishLast (hLast : kind.isLast last = true)
    (h : Stage user active base (Deaf kind) s) :
    wp (agentSetting kind user) (fun _ => Over active base (last = .cancelled))
      (fun _ _ => False) (publishState user active last []) s := by
  refine wp_publishState hId hSession steady_deaf h fun s' hs' => ?_
  refine wp_queueLast hId hLast steady_deaf ?_ hs'
  intro p progress hDeaf
  refine ⟨hDeaf.1, fun hCancel => ?_⟩
  rw [hDeaf.2.1] at hCancel
  cases hCancel

theorem wp_publishFirst {first : UserInteractionState} (hFirst : validTransition none first = true)
    (hP' : Steady kind P')
    (hEnters : ∀ p p' progress id, Begun p progress → InteractionRegistry.Entered p p' first id →
      P' p' progress) (h : Stage user active base Begun s) :
    wp (agentSetting kind user) (fun _ => Stage user active base P') (fun _ _ => False)
      (publishState user active first []) s := by
  have hNext : isTerminal first = false := by
    cases first <;> first | rfl | cases hFirst
  have hNotPrompt : first ≠ .secretRequired := by
    rintro rfl
    cases hFirst
  refine wp_publishState hId hSession steady_begun h fun s' hs' => ?_
  refine wp_mono (wp_queueNext (fun _ => P') hId hNext steady_begun (fun _ => hP')
    ?_ ?_ hs') ?_ fun _ _ h => h
  · intro s₁ p hBegun
    refine ⟨InteractionRegistry.checkTransition_ok ?_ (.inr rfl) (Nat.zero_le _) ?_, ?_⟩
    · rw [hBegun.1]
      exact hFirst
    · exact fun hPrompt => absurd hPrompt hNotPrompt
    · exact fun hPrompt => absurd hPrompt hNotPrompt
  · exact fun p p' _ progress' id hBegun _ hEntered _ => hEnters p p' progress' id hBegun hEntered
  · rintro id s₂ (hs₂ | ⟨_, p, tail, _, hBegun, hCancel⟩)
    · exact hs₂
    · rw [hBegun.2.1] at hCancel
      cases hCancel

theorem wp_publishLast_bind (hLast : kind.isLast last = true)
    (h : Stage user active base (Deaf kind) s)
    (hRest : ∀ id s', Over active base (last = .cancelled) s' →
      wp (agentSetting kind user) Q E (f id) s') :
    wp (agentSetting kind user) Q E ((publishState user active last []).bind f) s :=
  wp_seq (wp_publishLast hId hSession hLast h) hRest fun _ _ => False.elim

theorem wp_publishCancelled_bind (h : Stage user active base (Open kind) s)
    (hRest : ∀ id s', Over active base True s' → wp (agentSetting kind user) Q E (f id) s') :
    wp (agentSetting kind user) Q E ((publishState user active .cancelled []).bind f) s :=
  wp_seq (wp_publishCancelled hId hSession h) hRest fun _ _ => False.elim

end Publish

end

end VAuth
