import VAuth.Interaction.Stage

/-!
# Cancellations by the agent

A ceremony runs on the worker while the D-Bus thread serves the agent, whose registration
stays current. A cancellation that the registry has accepted makes it drop every later state
but `cancelled`, so the ceremony has to notice the cancellation at one of its checks. In a
presence ceremony it always does. In a verification it does unless the verifier service
answers, fails or times out between the last check and the end: then the ceremony goes its
normal way, and the user who cancelled may be reported as having approved.
-/

namespace VAuth

open Verifier Dbus Dbus.AgentService Proc

section

variable {user : UserContext} {active : UserInteractionRequest} {base : List Note}
  {s : AgentService}

/-! ## The presence ceremony -/

/-- What a wait for presence leaves behind. -/
def AfterPresence (user : UserContext) (active : UserInteractionRequest) (base : List Note) :
    PresenceWaitResult → AgentService → Prop
  | .approved => Stage user active base (Deaf .presence)
  | .denied => Stage user active base (Deaf .presence)
  | .timedOut => Stage user active base (Deaf .presence)
  | .clientCancelled => Stage user active base (Open .presence)
  | .platformCancelled => Stage user active base (Open .presence)
  | .invalidated => fun _ => False

theorem wp_awaitPresence (rounds : Nat) (h : Stage user active base Waiting s) :
    wp (agentSetting .presence user) (AfterPresence user active base) (fun _ _ => False)
      (awaitPresence rounds user active.requestId) s := by
  refine wp_loop (fun _ => Stage user active base Waiting) trivial ?_ rounds h
  intro _ s₁ hs₁
  refine wp_stage steady_waiting hs₁ fun s' i hs _ => ⟨?_, nofun⟩
  obtain ⟨p, tail, hp, hState, hCloses, hResponse⟩ := hs
  have hOpen : Open .presence p s'.progress := ⟨_, hState, rfl⟩
  have hCurrent : s'.interactions.current.filter (·.isFor user active.requestId) = some p :=
    Option.filter_eq_some_iff.mpr
      ⟨hp.current, PendingInteraction.isFor_iff.mpr ⟨hp.requestId, hp.binding⟩⟩
  simp only [InteractionRegistry.presenceRound, hCurrent]
  by_cases hStop : i.stop = true
  · simp only [if_pos hStop]
    rintro _ ⟨⟩
    exact ⟨_, tail, hp.closed, hOpen⟩
  by_cases hCancel : p.cancelRequested = true
  · simp only [if_neg hStop, if_pos hCancel]
    rintro _ ⟨⟩
    exact ⟨p, tail, hp, hOpen⟩
  have hNotCancelled := eq_false_of_ne_true hCancel
  simp only [if_neg hStop, if_neg hCancel]
  split
  · rename_i approved hAnswer
    have hDeaf : Stage user active base (Deaf .presence) s' :=
      ⟨p, tail, hp, hOpen, hNotCancelled, .inl (hResponse (by rw [hAnswer]; rfl)).1⟩
    rintro _ ⟨⟩
    cases approved with
    | true => exact hDeaf
    | false => exact hDeaf
  · by_cases hExpired : i.expired = true
    · simp only [if_pos hExpired]
      rintro _ ⟨⟩
      exact ⟨{ p with responseClosed := true }, tail, hp.closed, hOpen, hNotCancelled, .inl rfl⟩
    · simp only [if_neg hExpired]
      rintro _ ⟨⟩
      exact ⟨p, tail, hp, hState, hCloses, hResponse⟩

theorem wp_waitForPresence (rounds : Nat) (h : Stage user active base Waiting s) :
    wp (agentSetting .presence user)
      (fun r s' => if r = .cancelled then Stage user active base (Open .presence) s'
        else Stage user active base (Deaf .presence) s')
      (Halted .presence user active base) (waitForPresence rounds user active) s := by
  refine wp_seq (wp_throwIfFailed steady_waiting h) ?_ (fun _ _ => False.elim)
  intro _ s₁ hs₁
  refine wp_seq (wp_awaitPresence rounds hs₁) ?_ (fun _ _ => False.elim)
  intro r s₂ hs₂
  cases r with
  | approved => exact hs₂
  | denied => exact hs₂
  | timedOut => exact .of_deaf (.inr rfl) hs₂
  | clientCancelled => exact hs₂
  | platformCancelled => exact .of_cancels (.inr rfl) hs₂
  | invalidated => exact hs₂.elim

section Presence

variable (hId : active.requestId ≠ 0) (hSession : user.session.isSome = true)
include hId hSession

theorem wp_concludePresence {response : UserInteractionResult}
    (h : if response = .cancelled then Stage user active base (Open .presence) s
      else Stage user active base (Deaf .presence) s) :
    wp (agentSetting .presence user) (fun a => Over active base (a ≠ .approved)) (fun _ _ => False)
      (concludePresence user active response) s := by
  unfold concludePresence
  by_cases hCancelled : response = .cancelled
  · rw [if_pos hCancelled] at h ⊢
    exact wp_publishCancelled_bind hId hSession h fun _ s' hs' => hs'.mono fun _ => nofun
  rw [if_neg hCancelled] at h ⊢
  have hPublish : ∀ (approved : Bool) s', Stage user active base (Deaf .presence) s' →
      wp (agentSetting .presence user)
        (fun a => Over active base (a ≠ .approved)) (fun _ _ => False)
        ((publishState user active
          (if approved then .presenceApproved else .presenceDenied) []).bind fun _ =>
            .done (if approved then UserInteractionResult.approved else .denied)) s' := by
    intro approved s' hs'
    refine wp_publishLast_bind hId hSession ?_ hs' fun _ s₂ hs₂ => ?_
    · cases approved <;> rfl
    · refine hs₂.mono fun hLast => ?_
      cases approved <;> cases hLast
  by_cases hApproved : response = .approved
  · rw [if_pos hApproved]
    refine wp_seq (wp_contextIsStillCurrent hSession steady_deaf h) ?_ (fun _ _ => False.elim)
    exact fun approved s' hs' => hPublish approved s' hs'.2
  · rw [if_neg hApproved]
    exact hPublish false s h

theorem wp_presenceCaught {e : Exn} (h : Halted .presence user active base e s) :
    wp (agentSetting .presence user) (fun a => Over active base (a ≠ .approved))
      (fun _ => Over active base True) (presenceCaught user active e) s := by
  have hDeaf : ¬ Cancels e → Stage user active base (Deaf .presence) s :=
    fun hNot => h.2.resolve_left fun hCancels => hNot hCancels.1
  have hOpen : Stage user active base (Open .presence) s :=
    h.2.elim (fun hCancels => hCancels.2) Stage.deaf_open
  unfold presenceCaught
  split
  · exact wp_publishCancelled_bind hId hSession hOpen fun _ s' hs' => hs'.mono fun _ => nofun
  · exact wp_publishCancelled_bind hId hSession hOpen fun _ s' hs' => hs'
  · refine wp_publishLast_bind hId hSession rfl (hDeaf ?_) fun _ s' hs' => hs'.mono fun _ => trivial
    rintro (hCancels | hCancels) <;> cases hCancels
  · rename_i hNotCancelled hNotStopped hNotExpired
    rcases h.1 with (rfl | rfl) | rfl
    · exact absurd rfl hNotCancelled
    · exact absurd rfl hNotStopped
    · exact absurd rfl hNotExpired

theorem wp_presenceBody (rounds : Nat) (h : Stage user active base Begun s) :
    wp (agentSetting .presence user) (fun a => Over active base (a ≠ .approved))
      (fun _ => Over active base True) (presenceBody rounds user active) s := by
  have hFirst : ∀ p p' progress id, Begun p progress →
      InteractionRegistry.Entered p p' .presenceRequired id → Waiting p' progress := by
    intro p p' progress id hBegun hEntered
    refine ⟨hEntered.state, fun hCancel => ?_, fun hAnswer => ?_⟩
    · rw [hEntered.cancelRequested, hBegun.2.1] at hCancel
      cases hCancel
    · rw [hEntered.presenceResponse, hBegun.2.2] at hAnswer
      cases hAnswer
  refine wp_seq (wp_publishFirst hId hSession rfl steady_waiting hFirst h)
    ?_ (fun _ _ => False.elim)
  intro _ s₁ hs₁
  refine wp_tryCatch.mpr (wp_seq (wp_waitForPresence rounds hs₁) ?_ ?_)
  · exact fun response s₂ hs₂ => wp_mono (wp_concludePresence hId hSession hs₂)
      (fun _ _ h => h) (fun _ _ => False.elim)
  · exact fun e s₂ hs₂ => wp_presenceCaught hId hSession hs₂

end Presence

/-! ## The calls of the verifier service -/

/-- Whoever gets what ends the loop has not been cancelled, and will not be. -/
theorem Stage.settle {i : Dbus.Input} (h : Stage user active base (Open .verification) s)
    (hi : Undisturbed .verification user s i) (hNoise : ¬ Quiet i) :
    Stage user active base (Deaf .verification) s.settle := by
  obtain ⟨p, tail, hp, hOpen⟩ := h
  have hNotCancelled : p.cancelRequested = false := by
    by_contra hCancel
    refine hNoise ((hi.2 rfl).2.2 ?_)
    rw [hp.cancelPending]
    exact eq_true_of_ne_false hCancel
  exact ⟨p, tail, { hp with }, hOpen, hNotCancelled, .inr ⟨rfl, rfl⟩⟩

variable {P : PendingInteraction → Progress → Prop} {outcome : Except Exn UserInteractionResult}
  {request : UserInteractionRequest}

theorem wp_clockExpired (hP : Steady .verification P)
    (hOpen : ∀ p progress, P p progress → Open .verification p progress)
    (h : Stage user active base P s) :
    wp (agentSetting .verification user)
      (fun expired s' => if expired then Stage user active base (Deaf .verification) s'
        else Stage user active base P s')
      (fun _ _ => False) clockExpired s := by
  refine wp_stage hP h fun s' i hs hi => ⟨?_, nofun⟩
  rintro _ ⟨⟩
  by_cases hExpired : i.expired = true
  · simp only [if_pos hExpired]
    refine (hs.mono hOpen).settle hi fun hQuiet => ?_
    rw [hQuiet.1] at hExpired
    cases hExpired
  · simp only [if_neg hExpired]
    exact hs

theorem wp_connectToVerifier (h : Stage user active base (Open .verification) s) :
    wp (agentSetting .verification user) (fun _ => Stage user active base (Open .verification))
      (Halted .verification user active base) connectToVerifier s := by
  refine wp_stage steady_open h fun s' i hs hi => ?_
  by_cases hConnected : i.connected = true
  · simp only [if_pos hConnected]
    exact ⟨fun _ _ => hs, nofun⟩
  · simp only [if_neg hConnected]
    refine ⟨nofun, ?_⟩
    rintro _ ⟨⟩
    exact .of_deaf nofun (hs.settle hi fun hQuiet => hConnected hQuiet.2.1)

theorem wp_sendToVerifier {message : VerifierMessage}
    (hEncodes : ∃ packet, encodeVerifierMessage message = .ok packet)
    (hMessage : message ≠ .cancel) (h : Stage user active base (Open .verification) s) :
    wp (agentSetting .verification user) (fun _ => Stage user active base (Open .verification))
      (Halted .verification user active base) (sendToVerifier message) s := by
  obtain ⟨packet, hPacket⟩ := hEncodes
  refine wp_stage steady_open h fun s' i hs hi => ?_
  by_cases hSent : i.sent = true
  · have hOk : sendVerifierMessage i.sent message = .ok packet := by
      unfold sendVerifierMessage
      rw [hPacket, hSent]
      rfl
    simp only [hOk]
    exact ⟨fun _ _ => hs, nofun⟩
  · have hError : sendVerifierMessage i.sent message =
        .error (.systemError "send verifier packet") := by
      unfold sendVerifierMessage
      rw [hPacket, eq_false_of_ne_true hSent]
      rfl
    simp only [hError, if_neg hMessage]
    refine ⟨nofun, ?_⟩
    rintro _ ⟨⟩
    exact .of_deaf nofun (hs.settle hi fun hQuiet => hSent hQuiet.2.2.1)

/-- `send_cancel` changes nothing here. -/
theorem wp_sendCancel (rounds : Nat) (conversation : VerifierConversationState)
    (hP : Steady .verification P) (h : Stage user active base P s) :
    wp (agentSetting .verification user) (fun _ => Stage user active base P)
      (fun _ _ => False) ((verifierClient rounds user active).sendCancel conversation) s := by
  unfold VerifierClient.sendCancel
  split
  · exact h
  · refine wp_tryCatch.mpr (wp_stage hP h fun s' i hs hi => ?_)
    split
    · exact ⟨fun _ _ => hs, nofun⟩
    · exact ⟨nofun, fun _ _ => hs⟩

theorem wp_pollVerifier (h : Stage user active base (Open .verification) s) :
    wp (agentSetting .verification user) (fun readiness s' => if readiness = .hungUp then
          Stage user active base (Deaf .verification) s'
        else Stage user active base (Open .verification) s')
      (Halted .verification user active base) pollVerifier s := by
  refine wp_stage steady_open h fun s' i hs hi => ?_
  have hNoise : ∀ poll, i.poll = poll → poll ≠ some .nothing → poll ≠ some .readable →
      ¬ Quiet i := by
    rintro poll rfl hNothing hReadable hQuiet
    rcases hQuiet.2.2.2.1 with hPoll | hPoll
    · exact hNothing hPoll
    · exact hReadable hPoll
  split
  · rename_i hPoll
    refine ⟨?_, nofun⟩
    rintro _ ⟨⟩
    exact hs.settle hi (hNoise _ hPoll nofun nofun)
  · rename_i readiness hNotHungUp hPoll
    refine ⟨?_, nofun⟩
    rintro _ ⟨⟩
    rw [if_neg fun hHungUp => hNotHungUp (by rw [hHungUp])]
    exact hs
  · rename_i hPoll
    refine ⟨nofun, ?_⟩
    rintro _ ⟨⟩
    exact .of_deaf nofun (hs.settle hi (hNoise _ hPoll nofun nofun))

/-- Where a message leaves the loop. -/
def AfterMessage : VerifierMessage → PendingInteraction → Progress → Prop
  | .status _ => Open .verification
  | .secretRequired _ => Numbered
  | _ => Deaf .verification

theorem wp_receiveFromVerifier (h : Stage user active base (Open .verification) s) :
    wp (agentSetting .verification user)
      (fun heard s' => heard.1.displayText.length ≤ maxVerificationTextSize ∧
        advanceVerifierConversation .verifying .pamVerifier heard.1 = .ok heard.2 ∧
        Stage user active base (AfterMessage heard.1) s')
      (Halted .verification user active base) (receiveFromVerifier .verifying) s := by
  refine wp_stage steady_open h fun s' i hs hi => ⟨?_, ?_⟩
  · rintro ⟨message, next⟩ hHeard
    obtain ⟨hMessage, hNext⟩ := receiveAndAdvance_eq_ok.mp hHeard
    refine ⟨displayText_length hMessage, hNext, ?_⟩
    simp only [hMessage]
    have hEnds (hStops : goesOn (.ok message) = false) :
        Stage user active base (Deaf .verification) s'.settle := by
      refine hs.settle hi fun hQuiet => ?_
      have hGoesOn := hQuiet.2.2.2.2
      rw [hMessage, hStops] at hGoesOn
      cases hGoesOn
    cases message with
    | status status => exact hs
    | secretRequired required =>
      obtain ⟨p, tail, hp, hOpen⟩ := hs
      exact ⟨p, tail, hp, hOpen, (hi.2 rfl).2.1 (by rw [prompts, hMessage])⟩
    | start | secretResponse | complete | cancel => exact hEnds rfl
  · intro e hError
    -- A message that the loop would go on after is never refused here.
    have hStops : ¬ goesOn (receiveVerifierMessage i.packet) = true := by
      intro hGoesOn
      cases hMessage : receiveVerifierMessage i.packet with
      | error e' =>
        rw [hMessage] at hGoesOn
        cases hGoesOn
      | ok message =>
        rw [hMessage] at hGoesOn
        have hRefused : receiveAndAdvance i.packet .verifying .pamVerifier = .error e := hError
        unfold receiveAndAdvance at hRefused
        rw [hMessage] at hRefused
        cases message with
        | status status => cases hRefused
        | secretRequired required => cases hRefused
        | _ => cases hGoesOn
    have hForeseen : Foreseen .verification e := by
      rintro rfl
      cases throws_receiveAndAdvance _ _ _ _ hError
    simp only [if_neg hStops]
    exact .of_deaf hForeseen (hs.settle hi fun hQuiet => hStops hQuiet.2.2.2.2)

/-! ## The verification -/

theorem wp_cancellationRequested (hId : active.requestId ≠ 0) (hP : Steady .verification P)
    (h : Stage user active base P s) :
    wp (agentSetting .verification user)
      (fun a => Stage user active base fun p progress => P p progress ∧ p.cancelRequested = a)
      (fun _ _ => False) (cancellationRequested user active) s := by
  refine wp_bind.mpr (wp_stage_read hP h fun s₁ hs₁ => ?_)
  rw [if_neg (by simp [hs₁.registered.2])]
  refine wp_bind.mpr (wp_stage_read hP hs₁ fun s₂ hs₂ => ?_)
  rw [if_neg (not_not.mpr hs₂.registered.1)]
  refine wp_stage_read hP hs₂ fun s₃ hs₃ => ?_
  obtain ⟨p, tail, hp, hPs⟩ := hs₃
  refine ⟨p, tail, hp, hPs, ?_⟩
  simp only [InteractionRegistry.cancellationRequested, hp.find hId]

/-- The checks of `transition` for the states that show a text. -/
theorem checkTransition_progress {next : UserInteractionState} {message : Bytes}
    (hNext : acceptsMessage next = true) (hMessage : message.length ≤ maxVerificationTextSize)
    {s' : AgentService} {p : PendingInteraction} (hOpen : Open .verification p s'.progress)
    (hFree : next = .secretRequired → exhausted s'.interactions.nextPromptId = false) :
    s'.interactions.checkTransition p next message = .ok () ∧
      (next = .secretRequired → s'.interactions.nextPromptId ≠ 0) := by
  obtain ⟨state, hState, hProgress⟩ := hOpen
  refine ⟨InteractionRegistry.checkTransition_ok ?_ (.inl hNext) hMessage hFree, ?_⟩
  · rw [hState]
    cases state <;> cases hProgress <;> cases next <;> first | rfl | cases hNext
  · intro hAsks hZero
    have hLeft := hFree hAsks
    rw [hZero] at hLeft
    cases hLeft

/-- What a wait for a secret leaves behind. -/
def AfterSecret (user : UserContext) (active : UserInteractionRequest) (base : List Note) :
    SecretWaitResult → AgentService → Prop
  | .provided secret => fun s => validateSecret secret = .ok () ∧
      Stage user active base (Open .verification) s
  | .timedOut => Stage user active base (Deaf .verification)
  | .clientCancelled => Stage user active base (Open .verification)
  | .platformCancelled => Stage user active base (Open .verification)
  | .invalidated => fun _ => False

theorem wp_awaitSecret (rounds : Nat) {promptId : UInt64} (hPrompt : promptId ≠ 0)
    (h : Stage user active base (Prompted promptId) s) :
    wp (agentSetting .verification user) (AfterSecret user active base) (fun _ _ => False)
      (awaitSecret rounds user active.requestId promptId) s := by
  refine wp_loop (fun _ => Stage user active base (Prompted promptId)) trivial ?_ rounds h
  intro _ s₁ hs₁
  refine wp_stage steady_prompted hs₁ fun s' i hs _ => ⟨?_, nofun⟩
  obtain ⟨p, tail, hp, hState, hPromptId⟩ := hs
  have hOpen : Open .verification p s'.progress := ⟨_, hState, rfl⟩
  have hCurrent : (s'.interactions.current.filter fun p => promptId != 0 &&
      p.isFor user active.requestId && p.promptId == promptId) = some p := by
    refine Option.filter_eq_some_iff.mpr ⟨hp.current, ?_⟩
    simp [hPrompt, hPromptId, PendingInteraction.isFor_iff.mpr ⟨hp.requestId, hp.binding⟩]
  simp only [InteractionRegistry.secretRound, hCurrent]
  by_cases hStop : i.stop = true
  · simp only [if_pos hStop]
    rintro _ ⟨⟩
    exact ⟨_, tail, hp.closed, hOpen⟩
  by_cases hCancel : p.cancelRequested = true
  · simp only [if_neg hStop, if_pos hCancel]
    rintro _ ⟨⟩
    exact ⟨p, tail, hp, hOpen⟩
  have hNotCancelled := eq_false_of_ne_true hCancel
  simp only [if_neg hStop, if_neg hCancel]
  split
  · rename_i secret hSecret
    rintro _ ⟨⟩
    refine ⟨hp.secret secret hSecret, p, tail, { hp with secret := nofun }, hOpen⟩
  · by_cases hExpired : i.expired = true
    · simp only [if_pos hExpired]
      rintro _ ⟨⟩
      exact ⟨{ p with responseClosed := true }, tail, hp.closed, hOpen, hNotCancelled, .inl rfl⟩
    · simp only [if_neg hExpired]
      rintro _ ⟨⟩
      exact ⟨p, tail, hp, hState, hPromptId⟩

theorem wp_waitForSecret (rounds : Nat) {promptId : UInt64} (hPrompt : promptId ≠ 0)
    (h : Stage user active base (Prompted promptId) s) :
    wp (agentSetting .verification user) (fun secret s' => validateSecret secret = .ok () ∧
        Stage user active base (Open .verification) s')
      (Halted .verification user active base) (waitForSecret rounds user active promptId) s := by
  refine wp_seq (wp_throwIfFailed steady_prompted h) ?_ (fun _ _ => False.elim)
  intro _ s₁ hs₁
  refine wp_seq (wp_awaitSecret rounds hPrompt hs₁) ?_ (fun _ _ => False.elim)
  intro r s₂ hs₂
  cases r with
  | provided secret => exact hs₂
  | timedOut => exact .of_deaf nofun hs₂
  | clientCancelled => exact .of_cancels (.inl rfl) hs₂
  | platformCancelled => exact .of_cancels (.inr rfl) hs₂
  | invalidated => exact hs₂.elim

section Verification

variable (hId : active.requestId ≠ 0)
include hId

theorem wp_checkCancelled (rounds : Nat) (conversation : VerifierConversationState)
    (h : Stage user active base (Open .verification) s) :
    wp (agentSetting .verification user) (fun _ => Stage user active base (Open .verification))
      (Halted .verification user active base)
      ((verifierClient rounds user active).checkCancelled conversation) s := by
  unfold VerifierClient.checkCancelled
  refine wp_bind.mpr (wp_stage steady_open h fun s₁ i hs₁ _ => ⟨?_, nofun⟩)
  rintro stop ⟨⟩
  by_cases hStop : i.stop = true
  · rw [if_pos hStop]
    refine wp_seq (wp_sendCancel rounds conversation steady_open hs₁) ?_ (fun _ _ => False.elim)
    exact fun _ s₂ hs₂ => .of_cancels (.inr rfl) hs₂
  · rw [if_neg hStop]
    refine wp_seq (wp_cancellationRequested hId steady_open hs₁) ?_ (fun _ _ => False.elim)
    intro cancelled s₂ hs₂
    have hOpen : Stage user active base (Open .verification) s₂ := hs₂.mono fun _ _ h => h.1
    by_cases hCancelled : cancelled = true
    · rw [if_pos hCancelled]
      refine wp_seq (wp_sendCancel rounds conversation steady_open hOpen) ?_ (fun _ _ => False.elim)
      exact fun _ s₃ hs₃ => .of_cancels (.inl rfl) hs₃
    · rw [if_neg hCancelled]
      exact hOpen

variable (hSession : user.session.isSome = true)
include hSession

theorem wp_statusCallback {status : VerificationStatus}
    (hMessage : status.message.length ≤ maxVerificationTextSize)
    (h : Stage user active base (Open .verification) s) :
    wp (agentSetting .verification user)
      (fun _ => Stage user active base (Open .verification)) (fun _ _ => False)
      (statusCallback user active status) s := by
  have hAccepts : acceptsMessage (statusState status.kind) = true := by
    cases status.kind <;> rfl
  have hNext : isTerminal (statusState status.kind) = false := by
    cases status.kind <;> rfl
  have hPlain : statusState status.kind ≠ .secretRequired := by
    cases status.kind <;> exact nofun
  refine wp_bind.mpr (wp_publishState hId hSession steady_open h fun s' hs' => ?_)
  refine wp_mono (wp_queueNext (fun _ => Open .verification) hId hNext steady_open
    (fun _ => steady_open) (fun s' p hOpen => checkTransition_progress hAccepts hMessage hOpen
      fun hAsks => absurd hAsks hPlain) ?_ hs') ?_ fun _ _ h => h
  · intro p p' _ _ id _ _ hEntered _
    refine ⟨_, hEntered.state, ?_⟩
    cases status.kind <;> rfl
  · rintro id s₂ (hs₂ | ⟨_, hs₂⟩)
    · exact hs₂
    · exact hs₂.mono fun _ _ h => h.1

theorem wp_secretCallback (rounds : Nat) {required : SecretRequired}
    (hMessage : required.prompt.length ≤ maxVerificationTextSize)
    (h : Stage user active base Numbered s) :
    wp (agentSetting .verification user) (fun secret s' => validateSecret secret = .ok () ∧
        Stage user active base (Open .verification) s')
      (Halted .verification user active base)
      (secretCallback rounds user active required) s := by
  refine wp_seq
    (wp_clockExpired steady_numbered (fun _ _ hFree => hFree.1) h) ?_ (fun _ _ => False.elim)
  intro expired s₁ hs₁
  by_cases hExpired : expired = true
  · rw [if_pos hExpired] at hs₁ ⊢
    exact .of_deaf nofun hs₁
  rw [if_neg hExpired] at hs₁ ⊢
  refine wp_bind.mpr (wp_publishState hId hSession steady_numbered hs₁ fun s₂ hs₂ => ?_)
  refine wp_mono (wp_queueNext (fun id p progress => Prompted id p progress ∧ id ≠ 0)
    hId rfl steady_numbered ?_ (fun s' p hFree => checkTransition_progress rfl hMessage hFree.1
      fun _ => hFree.2) ?_ hs₂) ?_ (fun _ _ => False.elim)
  · intro id p p' progress hReacts hInTime hP
    exact ⟨steady_prompted p p' progress hReacts hInTime hP.1, hP.2⟩
  · exact fun p p' _ _ id _ _ hEntered hPrompt =>
      ⟨⟨hEntered.state, hEntered.promptId⟩, hPrompt rfl⟩
  · rintro id s₃ (hs₃ | ⟨rfl, hs₃⟩)
    · obtain ⟨p, tail, hp, hPrompted, hPrompt⟩ := hs₃
      rw [if_neg hPrompt]
      exact wp_waitForSecret rounds hPrompt ⟨p, tail, hp, hPrompted⟩
    · rw [if_pos rfl]
      refine wp_seq (wp_cancellationRequested hId (steady_cancelled steady_numbered) hs₃) ?_
        (fun _ _ => False.elim)
      rintro cancelled s₄ ⟨p, tail, hp, ⟨hFree, hCancel⟩, rfl⟩
      rw [if_pos hCancel]
      exact .of_cancels (.inl rfl) ⟨p, tail, hp, hFree.1⟩

/-- What a round of the loop leaves behind: the conversation goes on, or there is a result. -/
def AfterRound (user : UserContext) (active : UserInteractionRequest) (base : List Note)
    (r : VerifierConversationState ⊕ VerificationResult) (s : AgentService) : Prop :=
  r.elim (fun conversation => conversation = .verifying ∧
    Stage user active base (Open .verification) s)
    (fun _ => Stage user active base (Deaf .verification) s)

theorem wp_handleMessage (rounds : Nat) {message : VerifierMessage}
    {conversation : VerifierConversationState}
    (hText : message.displayText.length ≤ maxVerificationTextSize)
    (hNext : advanceVerifierConversation .verifying .pamVerifier message = .ok conversation)
    (h : Stage user active base (AfterMessage message) s) :
    wp (agentSetting .verification user) (AfterRound user active base)
      (Halted .verification user active base)
      ((verifierClient rounds user active).handleMessage message conversation) s := by
  unfold VerifierClient.handleMessage
  cases message with
  | status status =>
    cases hNext
    refine wp_seq (wp_statusCallback hId hSession hText h) ?_ (fun _ _ => False.elim)
    exact fun _ s' hs' => ⟨rfl, hs'⟩
  | secretRequired required =>
    cases hNext
    refine wp_seq (wp_secretCallback hId hSession rounds hText h) ?_ (fun _ _ hHalted => hHalted)
    rintro secret s₁ ⟨hSecret, hs₁⟩
    refine wp_seq (wp_checkCancelled hId rounds .awaitingSecret hs₁) ?_ (fun _ _ hHalted => hHalted)
    intro _ s₂ hs₂
    have hEncodes : ∃ packet, encodeVerifierMessage (.secretResponse secret) = .ok packet := by
      refine ⟨setHeader .secretResponse secret, ?_⟩
      simp only [encodeVerifierMessage, hSecret]
      rfl
    refine wp_seq (wp_sendToVerifier hEncodes nofun hs₂) ?_ (fun _ _ hHalted => hHalted)
    exact fun _ s₃ hs₃ => ⟨rfl, hs₃⟩
  | complete result => exact h
  | start start => exact .of_deaf nofun h
  | secretResponse secret => exact .of_deaf nofun h
  | cancel => exact .of_deaf nofun h

theorem wp_serviceRound (rounds : Nat) (h : Stage user active base (Open .verification) s) :
    wp (agentSetting .verification user) (AfterRound user active base)
      (Halted .verification user active base)
      ((verifierClient rounds user active).serviceRound .verifying) s := by
  unfold VerifierClient.serviceRound
  refine wp_seq (wp_checkCancelled hId rounds .verifying h) ?_ (fun _ _ hHalted => hHalted)
  intro _ s₁ hs₁
  refine wp_seq (wp_clockExpired steady_open (fun _ _ h => h) hs₁) ?_ (fun _ _ => False.elim)
  intro expired s₂ hs₂
  by_cases hExpired : expired = true
  · rw [if_pos hExpired] at hs₂ ⊢
    refine wp_seq (wp_sendCancel rounds .verifying steady_deaf hs₂) ?_ (fun _ _ => False.elim)
    exact fun _ s₃ hs₃ => .of_deaf nofun hs₃
  rw [if_neg hExpired] at hs₂ ⊢
  refine wp_seq (wp_pollVerifier hs₂) ?_ (fun _ _ hHalted => hHalted)
  intro readiness s₃ hs₃
  cases readiness with
  | nothing => exact ⟨rfl, hs₃⟩
  | hungUp => exact .of_deaf nofun hs₃
  | readable =>
    refine wp_seq (wp_receiveFromVerifier hs₃) ?_ (fun _ _ hHalted => hHalted)
    exact fun _ s₄ hs₄ => wp_handleMessage hId hSession rounds hs₄.1 hs₄.2.1 hs₄.2.2

theorem wp_runVerifierService (rounds : Nat) {start : StartVerification}
    {session : UserSessionContext} (hSome : user.session = some session)
    (hStart : start.sessionId = session.sessionId)
    (h : Stage user active base (Open .verification) s) :
    wp (agentSetting .verification user) (fun _ => Stage user active base (Deaf .verification))
      (Halted .verification user active base)
      ((verifierClient rounds user active).runVerifierService rounds start) s := by
  unfold VerifierClient.runVerifierService
  refine wp_bind.mpr (wp_stage steady_open h fun s₁ i hs₁ hi => ⟨?_, nofun⟩)
  have hValid : validateSessionId start.sessionId = .ok () := hStart ▸ (hi.2 rfl).1 session hSome
  rintro stop ⟨⟩
  by_cases hStop : i.stop = true
  · rw [if_pos hStop]
    exact .of_cancels (.inr rfl) hs₁
  rw [if_neg hStop]
  refine wp_seq (wp_cancellationRequested hId steady_open hs₁) ?_ (fun _ _ => False.elim)
  intro cancelled s₂ hs₂
  have hOpen : Stage user active base (Open .verification) s₂ := hs₂.mono fun _ _ h => h.1
  by_cases hCancelled : cancelled = true
  · rw [if_pos hCancelled]
    exact .of_cancels (.inl rfl) hOpen
  rw [if_neg hCancelled]
  refine wp_seq (wp_connectToVerifier hOpen) ?_ (fun _ _ hHalted => hHalted)
  intro _ s₃ hs₃
  have hEncodes : ∃ packet, encodeVerifierMessage (.start start) = .ok packet := by
    refine ⟨setHeader .start (writeUint32Be start.targetUid ++ start.sessionId), ?_⟩
    simp only [encodeVerifierMessage, hValid]
    rfl
  refine wp_seq (wp_sendToVerifier hEncodes nofun hs₃) ?_ (fun _ _ hHalted => hHalted)
  intro _ s₄ hs₄
  -- The conversation is back at `verifying` at the top of every round.
  refine wp_loop (fun conversation s' => conversation = .verifying ∧
    Stage user active base (Open .verification) s') trivial ?_ rounds ⟨rfl, hs₄⟩
  rintro _ s₅ ⟨rfl, hs₅⟩
  exact wp_serviceRound hId hSession rounds hs₅

theorem wp_concludeVerification (result : VerificationResult)
    (h : Stage user active base (Deaf .verification) s) :
    wp (agentSetting .verification user) (fun a => Over active base (a ≠ .approved))
      (fun e s' => e = .verificationInfrastructureError ∧ Over active base True s')
      (concludeVerification user active result) s := by
  cases result with
  | success =>
    refine wp_seq (wp_contextIsStillCurrent hSession steady_deaf h) ?_ (fun _ _ => False.elim)
    rintro _ s₁ ⟨rfl, hs₁⟩
    rw [if_neg (by simp)]
    exact wp_publishLast_bind hId hSession rfl hs₁ fun _ s' hs' => hs'.mono nofun
  | denied => exact wp_publishLast_bind hId hSession rfl h fun _ s' hs' => hs'.mono nofun
  | error =>
    exact wp_publishLast_bind hId hSession rfl h fun _ s' hs' => ⟨rfl, hs'.mono nofun⟩

theorem wp_verificationCaught {e : Exn} (h : Halted .verification user active base e s) :
    wp (agentSetting .verification user) (fun a => Over active base (a ≠ .approved))
      (fun _ => Over active base True) (verificationCaught user active e) s := by
  have hDeaf : ¬ Cancels e → Stage user active base (Deaf .verification) s :=
    fun hNot => h.2.resolve_left fun hCancels => hNot hCancels.1
  have hOpen : Stage user active base (Open .verification) s :=
    h.2.elim (fun hCancels => hCancels.2) Stage.deaf_open
  unfold verificationCaught
  split
  · exact wp_publishCancelled_bind hId hSession hOpen fun _ s' hs' => hs'.mono fun _ => nofun
  · exact wp_publishCancelled_bind hId hSession hOpen fun _ s' hs' => hs'
  · refine wp_publishLast_bind hId hSession rfl (hDeaf ?_) fun _ s' hs' => hs'.mono fun _ => trivial
    rintro (hCancels | hCancels) <;> cases hCancels
  · exact absurd rfl h.1
  · rename_i hNotCancelled hNotStopped _ _
    refine wp_publishLast_bind hId hSession rfl (hDeaf ?_) fun _ s' hs' => hs'.mono fun _ => trivial
    rintro (rfl | rfl)
    · exact hNotCancelled rfl
    · exact hNotStopped rfl

theorem wp_verificationBody (rounds : Nat) (h : Stage user active base Begun s) :
    wp (agentSetting .verification user) (fun a => Over active base (a ≠ .approved))
      (fun _ => Over active base True) (verificationBody rounds user active) s := by
  refine wp_seq (wp_publishFirst hId hSession rfl steady_open ?_ h) ?_ (fun _ _ => False.elim)
  · exact fun p p' progress id _ hEntered => ⟨_, hEntered.state, rfl⟩
  intro _ s₁ hs₁
  obtain ⟨session, hSome⟩ := Option.isSome_iff_exists.mp hSession
  have hAuthenticate : wp (agentSetting .verification user)
      (fun _ => Stage user active base (Deaf .verification))
      (Halted .verification user active base) (authenticateUser rounds user active) s₁ := by
    unfold authenticateUser
    rw [hSome]
    exact wp_runVerifierService hId hSession rounds hSome rfl hs₁
  refine wp_tryCatch.mpr (wp_seq hAuthenticate ?_ ?_)
  · intro result s₂ hs₂
    refine wp_mono (wp_concludeVerification hId hSession result hs₂) (fun _ _ h => h) ?_
    rintro _ s₃ ⟨rfl, hs₃⟩
    exact hs₃
  · exact fun e s₂ hs₂ => wp_verificationCaught hId hSession hs₂

end Verification

/-! ## The scope of an interaction -/

/-- The ceremony was not approved, and the agent was told that the request is cancelled
before the interaction ended. -/
def CancellationWins (requestId : UInt64) (outcome : Except Exn UserInteractionResult)
    (notes : List Note) : Prop :=
  outcome ≠ .ok .approved ∧ ∃ before event between after,
    notes = before ++ .queued event :: (between ++ .ended requestId :: after) ∧
      event.requestId = requestId ∧ event.state = .cancelled

/-- How a ceremony that started with this journal has ended. -/
def Concluded (start : List Note) (outcome : Except Exn UserInteractionResult)
    (s : AgentService) : Prop :=
  ∃ notes, s.journal = start ++ notes ∧
    ((s.interactions.current = none ∧ ∀ id, .begun id ∈ notes → .cancelAccepted id ∈ notes →
      CancellationWins id outcome notes) ∨ ∀ id, .begun id ∉ notes)

variable {kind : Ceremony} {start : List Note} {s' : AgentService}

/-- The ceremony has not begun its interaction. -/
def NotBegun (user : UserContext) (start : List Note) (s : AgentService) : Prop :=
  Registered user s ∧ ((s.interactions.current = none ∧ s.journal = start) ∨
    (s.interactions.current ≠ none ∧ ∃ notes, s.journal = start ++ notes ∧ ∀ id, .begun id ∉ notes))

theorem NotBegun.concluded (h : NotBegun user start s) : Concluded start outcome s := by
  rcases h.2 with ⟨_, hJournal⟩ | ⟨_, notes, hJournal, hNone⟩
  · exact ⟨[], by simp [hJournal], .inr nofun⟩
  · exact ⟨notes, hJournal, .inr hNone⟩

theorem inTime_cases (h : InTime kind user s s') :
    Registered user s' ∧ (s' = s ∨ Answered s s') := by
  obtain ⟨⟨sessionActive, call, hServe, hRegistered⟩, _⟩ := h
  refine ⟨hRegistered, ?_⟩
  rw [hServe]
  exact serve_cases (hServe ▸ hRegistered.1)

theorem notes_of_answered {notes : List Note} (hAnswered : Answered s s')
    (hJournal : s.journal = start ++ notes) (hNone : ∀ id, .begun id ∉ notes) :
    s'.interactions.current ≠ none ∧ ∃ notes', s'.journal = start ++ notes' ∧
      ∀ id, .begun id ∉ notes' := by
  cases hAnswered with
  | presence approved _ _ _ => exact ⟨nofun, notes, hJournal, hNone⟩
  | secret _ _ => exact ⟨nofun, notes, hJournal, hNone⟩
  | @cancelled p _ _ _ =>
    refine ⟨nofun, notes ++ [.cancelAccepted p.requestId], ?_, ?_⟩
    · simp [note, hJournal]
    · intro id hid
      simp [hNone id] at hid

theorem tolerates_notBegun : (agentSetting kind user).Tolerates (NotBegun user start) := by
  refine tolerates_among fun s s' hStep hs => ?_
  obtain ⟨hRegistered, hSame | hAnswered⟩ := inTime_cases hStep
  · rw [hSame]
    exact hs
  · refine ⟨hRegistered, .inr ?_⟩
    rcases hs.2 with ⟨hCurrent, _⟩ | ⟨_, notes, hJournal, hNone⟩
    · exact absurd hCurrent hAnswered.pending
    · exact notes_of_answered hAnswered hJournal hNone

theorem Concluded.inTime (hStep : InTime kind user s s') (h : Concluded start outcome s) :
    Concluded start outcome s' := by
  obtain ⟨_, hSame | hAnswered⟩ := inTime_cases hStep
  · rw [hSame]
    exact h
  · obtain ⟨notes, hJournal, ⟨hCurrent, _⟩ | hNone⟩ := h
    · exact absurd hCurrent hAnswered.pending
    · obtain ⟨_, notes', hJournal', hNone'⟩ := notes_of_answered hAnswered hJournal hNone
      exact ⟨notes', hJournal', .inr hNone'⟩

theorem wp_beginInteraction (h : NotBegun user start s) : wp (agentSetting kind user)
      (fun id s' => if id = 0 then NotBegun user start s' else user.session.isSome = true ∧
        Stage user { request with requestId := id } start Begun s')
      (fun _ => NotBegun user start) (beginInteraction user request) s := by
  have hObserve : ∀ {α : Type} {Q : α → AgentService → Prop} {E : Exn → AgentService → Prop}
      {f : AgentService → Except Exn α} {s : AgentService}, NotBegun user start s →
      (∀ s', NotBegun user start s' →
        (∀ a, f s' = .ok a → Q a s') ∧ ∀ e, f s' = .error e → E e s') →
      wp (agentSetting kind user) Q E (Proc.observe fun _ s => f s) s :=
    fun hs hf => wp_tolerant_atomically tolerates_notBegun hs fun s' i hs' _ => ⟨trivial, hf s' hs'⟩
  refine wp_bind.mpr (hObserve h fun s₁ hs₁ => ⟨?_, fun _ _ => hs₁⟩)
  intro _ _
  by_cases hRequest : request.requestId ≠ 0
  · rw [if_pos hRequest]
    exact hs₁
  rw [if_neg hRequest]
  by_cases hSession : user.session.isNone = true
  · rw [if_pos hSession]
    exact hs₁
  rw [if_neg hSession]
  refine wp_bind.mpr (hObserve hs₁ fun s₂ hs₂ => ⟨?_, nofun⟩)
  rintro _ ⟨⟩
  rw [if_neg (not_not.mpr hs₂.1.1)]
  refine wp_tolerant_atomically tolerates_notBegun hs₂ fun s₃ i hs₃ _ => ⟨trivial, ?_⟩
  have hSome : user.session.isSome = true := by simpa [Option.isSome_iff_ne_none] using hSession
  split
  · exact ⟨nofun, fun _ _ => hs₃⟩
  · rename_i id interactions hBegin
    refine ⟨?_, nofun⟩
    rintro _ ⟨⟩
    obtain ⟨hCurrent, hId, rfl⟩ := InteractionRegistry.begin_ok hBegin
    have hJournal : s₃.journal = start :=
      hs₃.2.elim (fun hNone => hNone.2) fun hOther => absurd hCurrent hOther.1
    rw [if_neg hId]
    refine ⟨hSome, _, [], ⟨hs₃.1, rfl, rfl, rfl, nofun, ?_, nofun, nofun⟩, rfl, rfl, rfl⟩
    simp [note, hJournal]

/-- The destructor of the scope. -/
theorem wp_endInteraction (hId : active.requestId ≠ 0)
    (h : Left kind user active start (outcome ≠ .ok .approved) s) :
    wp (agentSetting kind user) (fun _ => Concluded start outcome) (fun _ _ => False)
      (endInteraction user active) s := by
  -- What was noted since the beginning, and then the end.
  have hEnd : ∀ (tail : List Note), (∀ id, .begun id ∉ tail) →
      (.cancelAccepted active.requestId ∈ tail →
        outcome ≠ .ok .approved ∧ ToldCancelled active.requestId tail) →
      ∀ id, .begun id ∈ .begun active.requestId :: tail ++ [.ended active.requestId] →
        .cancelAccepted id ∈ .begun active.requestId :: tail ++ [.ended active.requestId] →
        CancellationWins id outcome
          (.begun active.requestId :: tail ++ [.ended active.requestId]) := by
    intro tail hFirst hTail id hBegun hAccepted
    obtain rfl : id = active.requestId := by simpa [hFirst id] using hBegun
    obtain ⟨hOutcome, event, hQueued, hEvent⟩ := hTail (by simpa using hAccepted)
    obtain ⟨before, between, rfl⟩ := List.append_of_mem hQueued
    exact ⟨hOutcome, .begun active.requestId :: before, event, between, [], by simp, hEvent⟩
  rcases h with hOver | hDeaf
  · refine wp_tolerant_atomically tolerates_gone hOver fun s' i hs' _ => ⟨trivial, ?_, nofun⟩
    rintro _ ⟨⟩
    obtain ⟨hCurrent, tail, hJournal, hFirst, hTail⟩ := hs'
    have hNone : s'.interactions.find user active.requestId = none := by
      simp [InteractionRegistry.find, hCurrent]
    refine ⟨.begun active.requestId :: tail ++ [.ended active.requestId], ?_,
      .inl ⟨?_, hEnd tail hFirst hTail⟩⟩
    · simp [note, hJournal]
    · simp [note, InteractionRegistry.endInteraction, hNone, hCurrent]
  · refine wp_tolerant_atomically (tolerates_stage steady_deaf) hDeaf
      fun s' i hs' _ => ⟨trivial, ?_, nofun⟩
    rintro _ ⟨⟩
    obtain ⟨p, tail, hp, _, hNotCancelled, _⟩ := hs'
    refine ⟨.begun active.requestId :: tail ++ [.ended active.requestId], ?_,
      .inl ⟨?_, hEnd tail hp.first ?_⟩⟩
    · simp [note, hp.journal]
    · simp [note, InteractionRegistry.endInteraction, hp.find hId]
    · intro hAccepted
      have hCancel := hp.cancel hAccepted
      rw [hNotCancelled] at hCancel
      cases hCancel

theorem wp_interactionScope {body : UserInteractionRequest → AgentProc UserInteractionResult}
    (hBody : ∀ active base s, active.requestId ≠ 0 → user.session.isSome = true →
      Stage user active base Begun s → wp (agentSetting kind user)
        (fun a => Over active base (a ≠ .approved)) (fun _ => Over active base True)
        (body active) s) (h : NotBegun user start s) :
    wp (agentSetting kind user) (fun a => Concluded start (.ok a))
      (fun e => Concluded start (.error e)) (interactionScope user request body) s := by
  refine wp_seq (wp_beginInteraction h) ?_ fun _ _ hs => hs.concluded
  intro id s₁ hs₁
  by_cases hId : id = 0
  · rw [if_pos hId] at hs₁ ⊢
    exact hs₁.concluded
  rw [if_neg hId] at hs₁ ⊢
  obtain ⟨hSession, hBegun⟩ := hs₁
  have hOutcome : wp (agentSetting kind user)
      (fun outcome => Over { request with requestId := id } start (outcome ≠ .ok .approved))
      (fun _ _ => False)
      (body { request with requestId := id }).attempt s₁ := by
    refine wp_attempt.mpr (wp_mono (hBody _ _ _ hId hSession hBegun) ?_ ?_)
    · exact fun a s₂ hs₂ => Over.mono hs₂ fun hResult hOk => hResult (Except.ok.inj hOk)
    · exact fun e s₂ hs₂ => Over.mono hs₂ fun _ => nofun
  refine wp_seq hOutcome ?_ (fun _ _ => False.elim)
  intro outcome s₂ hs₂
  refine wp_seq (wp_endInteraction hId (.inl hs₂)) ?_ (fun _ _ => False.elim)
  intro _ s₃ hs₃
  refine wp_ofExcept.mpr ⟨?_, ?_⟩
  · rintro a rfl
    exact hs₃
  · rintro e rfl
    exact hs₃

theorem wp_ceremony (rounds : Nat) (h : NotBegun user start s) :
    wp (agentSetting kind user) (fun a => Concluded start (.ok a))
      (fun e => Concluded start (.error e)) (ceremony kind rounds user request) s := by
  cases kind with
  | presence =>
    exact wp_interactionScope
      (fun active base s' hId hSession hs' => wp_presenceBody hId hSession rounds hs') h
  | verification =>
    exact wp_interactionScope (fun active base s' hId hSession hs' =>
      wp_verificationBody hId hSession rounds hs') h

/-- **An accepted cancellation wins in time.** In every run of a ceremony among method calls
of the agent, where in a verification nothing ends the exchange with the verifier service
between an accepted cancellation and the next check for it, and no cancellation is accepted
after what ended it: the ceremony does not return `approved`, and the agent is told
`cancelled` before the interaction ends. -/
theorem accepted_cancellation_wins (kind : Ceremony) (rounds : Nat) (user : UserContext)
    (request : UserInteractionRequest) {s s' : AgentService}
    {p : AgentProc UserInteractionResult} {outcome : Except Exn UserInteractionResult}
    (hRegistered : Registered user s)
    (hRun : Steps (InTime kind user) (Undisturbed kind user)
      (ceremony kind rounds user request, s) (p, s'))
    (hEnd : p.outcome? = some outcome) :
    ∃ notes, s'.journal = s.journal ++ notes ∧ ∀ id, .begun id ∈ notes →
      .cancelAccepted id ∈ notes → CancellationWins id outcome notes := by
  have hStart : NotBegun user s.journal s := by
    refine ⟨hRegistered, ?_⟩
    by_cases hCurrent : s.interactions.current = none
    · exact .inl ⟨hCurrent, rfl⟩
    · exact .inr ⟨hCurrent, [], by simp, nofun⟩
  have hOutcome := wp_outcome (wp_ceremony rounds hStart)
    (fun _ _ _ hStep hs => hs.inTime hStep) (fun _ _ _ hStep hs => hs.inTime hStep) hRun
  have hConcluded : Concluded s.journal outcome s' := by
    cases p with
    | done a =>
      cases hEnd
      exact hOutcome.1 a rfl
    | fail e =>
      cases hEnd
      exact hOutcome.2 e rfl
    | cut => cases hEnd
    | act update next => cases hEnd
  obtain ⟨notes, hJournal, ⟨_, hWins⟩ | hNone⟩ := hConcluded
  · exact ⟨notes, hJournal, hWins⟩
  · exact ⟨notes, hJournal, fun id hBegun => absurd hBegun (hNone id)⟩

end

/-! ## Two verifications -/

instance (i : Dbus.Input) : Decidable (Quiet i) := inferInstanceAs (Decidable (_ ∧ _))

instance (kind : Ceremony) (user : UserContext) (s : AgentService) (i : Dbus.Input) :
    Decidable (Undisturbed kind user s i) :=
  inferInstanceAs (Decidable (_ ∧ _))

instance (user : UserContext) (s : AgentService) : Decidable (Registered user s) :=
  inferInstanceAs (Decidable (_ ∧ _))

def agentUser : UserContext where
  uid := 1000
  name := [117]
  session := some { sessionId := [49], interactionAgentId := [58, 49], generation := 1 }

/-- The service with the agent registered and nothing pending. -/
def agentReady : AgentService := { registry := { current := some agentUser } }

def agentRequest : UserInteractionRequest :=
  { operation := .getAssertion, relyingPartyId := [114] }

/-- The agent cancels the first request. -/
def cancelFirst : AgentCall :=
  { sender := [58, 49], generation := 1, method := .cancelInteraction 1 }

/-- A status text of the verifier service. -/
def statusArrives : Dbus.Input := { poll := some .readable, packet := some [1, 4, 1] }

/-- The verifier service reports success. -/
def successArrives : Dbus.Input := { poll := some .readable, packet := some [1, 6, 1] }

/-- Run a verification on a script of inputs and method calls. -/
def followVerification (ok : AgentService → Dbus.Input → Bool)
    (okMove : AgentService → AgentCall → Bool) (script : List (Dbus.Input ⊕ AgentCall)) :
    Option (AgentProc UserInteractionResult × AgentService) :=
  follow ok (fun call s => (s.serve true call).2) okMove script
    (ceremony .verification 1 agentUser agentRequest, agentReady)

/-- The call leaves the registration alone and comes before the worker has what ends the loop. -/
def callsInTime (s : AgentService) (call : AgentCall) : Bool :=
  decide (Registered agentUser (s.serve true call).2) && !s.settled

variable {script : List (Dbus.Input ⊕ AgentCall)}
  {c : AgentProc UserInteractionResult × AgentService}

theorem steps_inTime
    (h : followVerification (fun s i => decide (Undisturbed .verification agentUser s i))
      callsInTime script = some c) :
    Steps (InTime .verification agentUser) (Undisturbed .verification agentUser)
        (ceremony .verification 1 agentUser agentRequest, agentReady) c := by
  refine steps_follow (fun s i hi => of_decide_eq_true hi) (fun s call hCall => ?_) _ h
  obtain ⟨hRegistered, hSettled⟩ := Bool.and_eq_true_iff.mp hCall
  refine ⟨⟨true, call, rfl, of_decide_eq_true hRegistered⟩, fun _ hs => ?_⟩
  rw [hs] at hSettled
  cases hSettled

theorem steps_served (h : followVerification (fun _ i => i.sessionActive)
      (fun s call => decide (Registered agentUser (s.serve true call).2)) script = some c) :
    Steps (Served agentUser) (fun _ i => i.sessionActive = true)
      (ceremony .verification 1 agentUser agentRequest, agentReady) c :=
  steps_follow (fun _ _ hi => hi)
    (fun _ call hCall => ⟨true, call, rfl, of_decide_eq_true hCall⟩) _ h

/-- The agent cancels before the first check. -/
def cancelledInTime : List (Dbus.Input ⊕ AgentCall) :=
  List.replicate 7 (.inl statusArrives) ++ .inr cancelFirst :: List.replicate 9 (.inl statusArrives)

/-- The agent cancels between the last check and the arrival of a success. -/
def cancelledTooLate : List (Dbus.Input ⊕ AgentCall) :=
  List.replicate 17 (.inl successArrives) ++ .inr cancelFirst ::
    List.replicate 11 (.inl successArrives)

/-- The cancellation comes before the first check. -/
theorem accepted_cancellation_wins_beforeFirstCheck : ∃ p s',
    Steps (InTime .verification agentUser) (Undisturbed .verification agentUser)
      (ceremony .verification 1 agentUser agentRequest, agentReady) (p, s') ∧
    p.outcome? = some (.ok .cancelled) ∧ .begun 1 ∈ s'.journal ∧ .cancelAccepted 1 ∈ s'.journal ∧
    CancellationWins 1 (.ok .cancelled) s'.journal := by
  have hEnds : (followVerification (fun s i => decide (Undisturbed .verification agentUser s i))
      callsInTime cancelledInTime).any (fun c =>
      c.1.outcome? == some (.ok .cancelled) && c.2.journal.contains (.begun 1) &&
        c.2.journal.contains (.cancelAccepted 1)) = true := by decide +kernel
  obtain ⟨⟨p, s'⟩, hFollow, hLast⟩ := (Option.any_eq_true _ _).mp hEnds
  simp only [Bool.and_eq_true, List.contains_iff_mem, beq_iff_eq] at hLast
  obtain ⟨⟨hOutcome, hBegun⟩, hAccepted⟩ := hLast
  have hRun := steps_inTime hFollow
  obtain ⟨notes, hJournal, hWins⟩ := accepted_cancellation_wins .verification 1 agentUser
    agentRequest (by decide) hRun hOutcome
  obtain rfl : s'.journal = notes := hJournal
  exact ⟨p, s', hRun, hOutcome, hBegun, hAccepted, hWins 1 hBegun hAccepted⟩

/-- **A lost cancellation.** The agent cancels between the last check of the loop and the
arrival of a success that was under way: the call is accepted, the verification returns
`approved`, and the agent never hears of it. -/
theorem accepted_cancellation_lost : ∃ p s',
    Steps (Served agentUser) (fun _ i => i.sessionActive = true)
      (ceremony .verification 1 agentUser agentRequest, agentReady) (p, s') ∧
    p.outcome? = some (.ok .approved) ∧ .begun 1 ∈ s'.journal ∧ .cancelAccepted 1 ∈ s'.journal ∧
    ∀ event, .queued event ∈ s'.journal → event.state ≠ .cancelled := by
  have hEnds : (followVerification (fun _ i => i.sessionActive)
      (fun s call => decide (Registered agentUser (s.serve true call).2))
      cancelledTooLate).any (fun c =>
      c.1.outcome? == some (.ok .approved) && c.2.journal.contains (.begun 1) &&
        c.2.journal.contains (.cancelAccepted 1) && c.2.journal.all fun
          | .queued event => event.state != .cancelled
          | _ => true) = true := by decide +kernel
  obtain ⟨⟨p, s'⟩, hFollow, hLast⟩ := (Option.any_eq_true _ _).mp hEnds
  simp only [Bool.and_eq_true, List.contains_iff_mem, beq_iff_eq, List.all_eq_true] at hLast
  obtain ⟨⟨⟨hOutcome, hBegun⟩, hAccepted⟩, hNever⟩ := hLast
  refine ⟨p, s', steps_served hFollow, hOutcome, hBegun, hAccepted, fun event hEvent => ?_⟩
  exact bne_iff_ne.mp (hNever _ hEvent)

end VAuth
