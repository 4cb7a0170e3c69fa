import VAuth.Dbus.PublishedStates
import VAuth.Dbus.Secrets

/-!
# Waits and answers

The worker waits for an answer of the agent, who may answer or cancel at any point; the
deadline or a stop request may strike at any point as well. An answer that was accepted in time
is the outcome of the wait, unless the request was cancelled or is gone.

An answer that comes too late is refused, with one exception: `submit_secret` does not look at
`responseClosed`, so between the end of a wait for a secret and the next state of the request a
secret is still accepted, and lost.
-/

namespace VAuth.Dbus

open InteractionRegistry

/-- A cancellation, or the interaction is no longer there. -/
def PresenceWaitResult.isBroken : PresenceWaitResult → Bool
  | .clientCancelled => true
  | .platformCancelled => true
  | .invalidated => true
  | _ => false

def SecretWaitResult.isBroken : SecretWaitResult → Bool
  | .clientCancelled => true
  | .platformCancelled => true
  | .invalidated => true
  | _ => false

/-- A call by which the agent answers the request. -/
def RegistryCall.answers (requestId : UInt64) : RegistryCall → Bool
  | .respondToPresence _ id _ => id == requestId
  | .submitSecret _ id _ _ => id == requestId
  | .requestCancel _ id => id == requestId
  | _ => false

/-- After the history, a wait that returns now returns what was answered, and answers to a
request whose wait was given up are refused, where `late` holds. Rounds of the same wait that
went on, and anything else, may stand in the history; an earlier wait that got the secret of the
same prompt may not. -/
structure AnswersHonoured (late : InteractionRegistry → RegistryCall → Prop)
    (calls : List RegistryCall) : Prop where
  presence : ∀ user requestId stop expired result,
    ((history calls).2.call (.waitForPresence user requestId stop expired)).1 =
      .presence (some result) →
    (∀ approved, .answered requestId approved ∈ occurrences calls →
      result = (if approved then .approved else .denied) ∨ result.isBroken = true) ∧
    (.cancelAccepted requestId ∈ occurrences calls → result.isBroken = true)
  secret : ∀ user requestId promptId stop expired result,
    ((history calls).2.call (.waitForSecret user requestId promptId stop expired)).1 =
      .secret (some result) →
    (∀ binding secret, .submitted ⟨binding, requestId, promptId, secret⟩ ∈ occurrences calls →
      (∀ binding' secret', .delivered ⟨binding', requestId, promptId, secret'⟩ ∉
        occurrences calls) → result = .provided secret ∨ result.isBroken = true) ∧
    (.cancelAccepted requestId ∈ occurrences calls → result.isBroken = true)
  late : ∀ requestId k, .abandoned requestId ∈ occurrences calls → k.answers requestId = true →
    late (history calls).2 k → ∃ e, ((history calls).2.call k).1 = .refused e

/-! ## What the registry remembers of the answers -/

namespace InteractionRegistry

/-- The pending request has the answer that was accepted, and is closed once it has one or its
wait was given up. -/
structure Heard (past : List Occurrence) (r : InteractionRegistry) : Prop where
  answer : ∀ p, r.current = some p → ∀ approved, .answered p.requestId approved ∈ past →
    p.presenceResponse = some approved
  closed : ∀ p, r.current = some p → p.presenceResponse.isSome = true ∨
    .abandoned p.requestId ∈ past → p.responseClosed = true

/-- The buffer has the secret that was submitted for the open prompt and not handed out. -/
def Due (past : List Occurrence) (r : InteractionRegistry) : Prop :=
  ∀ p, r.current = some p → p.promptId ≠ 0 → ∀ binding secret,
    .submitted ⟨binding, p.requestId, p.promptId, secret⟩ ∈ past →
    (∀ binding' secret', .delivered ⟨binding', p.requestId, p.promptId, secret'⟩ ∉ past) →
    r.secretResponse = some secret

section

variable {past : List Occurrence} {r r' : InteractionRegistry} {p : PendingInteraction}
  {requestId : UInt64} {user : UserContext} {more : List Occurrence} {o : Option Occurrence}

/-- Neither an answer nor the end of a wait. -/
theorem Heard.keeps (h : Heard past r) (hAnswers : ∀ id approved, .answered id approved ∉ more)
    (hAbandons : ∀ id, .abandoned id ∉ more)
    (hCurrent : ∀ p', r'.current = some p' → ∃ p, r.current = some p ∧
      p'.requestId = p.requestId ∧ p'.presenceResponse = p.presenceResponse ∧
      (p.responseClosed = true → p'.responseClosed = true)) : Heard (past ++ more) r' := by
  refine ⟨fun p' hp' approved hMem => ?_, fun p' hp' hCause => ?_⟩
  · obtain ⟨p, hp, hId, hResponse, _⟩ := hCurrent p' hp'
    rw [hId] at hMem
    rw [hResponse]
    exact h.answer p hp approved ((List.mem_append.mp hMem).resolve_right (hAnswers _ _))
  · obtain ⟨p, hp, hId, hResponse, hClosed⟩ := hCurrent p' hp'
    refine hClosed (h.closed p hp ?_)
    rw [hId, hResponse] at hCause
    exact hCause.imp id fun hMem => (List.mem_append.mp hMem).resolve_right (hAbandons _)

theorem Heard.step (h : Heard past r) (hTold : Told past r) (hEffect : Effect r o r') :
    Heard (past ++ o.toList) r' := by
  cases hEffect with
  | begun hNone hFresh =>
    refine ⟨?_, ?_⟩
    · rintro p ⟨⟩ approved hMem
      exact absurd rfl (hTold.fresh (.answered r.nextRequestId approved) (by simpa using hMem))
    · rintro p ⟨⟩ (hNone | hMem)
      · cases hNone
      · exact absurd rfl (hTold.fresh (.abandoned r.nextRequestId) (by simpa using hMem))
  | @published p state message hCurrent hValid hFresh hOpen =>
    refine h.keeps (by simp) (by simp) fun p' hp' => ⟨p, hCurrent, ?_⟩
    by_cases hTerminal : isTerminal state = true
    · rw [enter_terminal hTerminal] at hp'
      cases hp'
    · obtain ⟨_, p₁, r₁, hEnter, hp₁, hEntered, _, _⟩ :=
        enter_open r p message (eq_false_of_ne_true hTerminal)
      rw [hEnter] at hp'
      obtain rfl : p₁ = p' := Option.some.inj (hp₁.symm.trans hp')
      exact ⟨hEntered.requestId, hEntered.presenceResponse, fun hClosed => by
        rw [hEntered.responseClosed, hClosed]⟩
  | suppressed hCurrent hCancel =>
    exact h.keeps (by simp) (by simp) fun p' hp' => ⟨p', hp', rfl, rfl, id⟩
  | @answered p approved hCurrent hOpen =>
    refine ⟨?_, ?_⟩
    · rintro p' ⟨⟩ approved' hMem
      rcases List.mem_append.mp hMem with hMem | hMem
      · -- An earlier answer would have closed the request.
        have hClosed := h.closed p hCurrent (.inl (by rw [h.answer p hCurrent _ hMem]; rfl))
        rw [hOpen] at hClosed
        cases hClosed
      · cases List.mem_singleton.mp hMem
        rfl
    · rintro p' ⟨⟩ _
      rfl
  | @submitted p secret hCurrent hPrompt hState hFirst hOpen =>
    refine h.keeps (by simp) (by simp) ?_
    rintro p' ⟨⟩
    exact ⟨p, hCurrent, rfl, rfl, id⟩
  | @cancelled p hCurrent hState hOpen =>
    refine h.keeps (by simp) (by simp) ?_
    rintro p' ⟨⟩
    exact ⟨p, hCurrent, rfl, rfl, fun _ => rfl⟩
  | delivered hCurrent hPrompt hOpen hSecret =>
    exact h.keeps (by simp) (by simp) fun p' hp' => ⟨p', hp', rfl, rfl, id⟩
  | @abandoned p hCurrent =>
    refine ⟨?_, ?_⟩
    · rintro p' ⟨⟩ approved hMem
      exact h.answer p hCurrent approved (by simpa using hMem)
    · rintro p' ⟨⟩ _
      rfl
  | dropped =>
    refine h.keeps (by simp) (by simp) fun p' hp' => ?_
    cases hp'
  | unchanged => exact h.keeps (by simp) (by simp) fun p' hp' => ⟨p', hp', rfl, rfl, id⟩

theorem Due.keeps (h : Due past r) (hSubmissions : ∀ secret, .submitted secret ∉ more)
    (hCurrent : ∀ p', r'.current = some p' → p'.promptId ≠ 0 → ∃ p, r.current = some p ∧
      p'.promptId = p.promptId ∧ p'.requestId = p.requestId ∧
      r'.secretResponse = r.secretResponse) : Due (past ++ more) r' := by
  intro p' hp' hPrompt binding secret hMem hKept
  obtain ⟨p, hp, hId, hRequest, hBuffer⟩ := hCurrent p' hp' hPrompt
  rw [hId, hRequest] at hMem hKept
  rw [hId] at hPrompt
  rw [hBuffer]
  exact h p hp hPrompt binding secret ((List.mem_append.mp hMem).resolve_right (hSubmissions _))
    fun binding' secret' hDelivered => hKept binding' secret' (List.mem_append_left _ hDelivered)

theorem Due.step (h : Due past r) (hCounted : Counted past r) (hEffect : Effect r o r') :
    Due (past ++ o.toList) r' := by
  cases hEffect with
  | begun hNone hFresh =>
    rintro p ⟨⟩ hPrompt
    exact absurd rfl hPrompt
  | @published p state message hCurrent hValid hFresh hOpen =>
    by_cases hSecret : state = .secretRequired
    · subst hSecret
      rw [enter_prompt]
      rintro p' ⟨⟩ _ binding secret hMem
      have hPast : .submitted ⟨binding, p.requestId, r.nextPromptId, secret⟩ ∈ past := by
        simpa using hMem
      have hBelow := hCounted.below _ (mem_submissions hPast)
      exact absurd hBelow (UInt64.lt_irrefl _)
    · refine h.keeps (by simp) fun p' hp' hPrompt => ?_
      by_cases hTerminal : isTerminal state = true
      · rw [enter_terminal hTerminal] at hp'
        cases hp'
      · rw [enter_progress hSecret (eq_false_of_ne_true hTerminal)] at hp'
        cases hp'
        exact absurd rfl hPrompt
  | suppressed hCurrent hCancel =>
    exact h.keeps (by simp) fun p' hp' _ => ⟨p', hp', rfl, rfl, rfl⟩
  | @answered p approved hCurrent hOpen =>
    refine h.keeps (by simp) ?_
    rintro p' ⟨⟩ _
    exact ⟨p, hCurrent, rfl, rfl, rfl⟩
  | @submitted p secret hCurrent hPrompt hState hFirst hOpen =>
    rintro p' ⟨⟩ _ binding secret' hMem _
    rcases List.mem_append.mp hMem with hMem | hMem
    · -- There is no earlier submission for a prompt that takes one.
      have hNew := ((hCounted.awaited p hCurrent hPrompt).2 hFirst).2 _ (mem_submissions hMem)
      exact absurd rfl hNew
    · cases List.mem_singleton.mp hMem
      rfl
  | @cancelled p hCurrent hState hOpen =>
    refine h.keeps (by simp) ?_
    rintro p' ⟨⟩ _
    exact ⟨p, hCurrent, rfl, rfl, rfl⟩
  | @delivered p secret hCurrent hPrompt hOpen hSecret =>
    intro p' hp' _ binding secret' hMem hKept
    obtain rfl : p = p' := Option.some.inj (hCurrent.symm.trans hp')
    exact absurd (List.mem_append_right _ List.mem_cons_self) (hKept p.user secret)
  | @abandoned p hCurrent =>
    refine h.keeps (by simp) ?_
    rintro p' ⟨⟩ _
    exact ⟨p, hCurrent, rfl, rfl, rfl⟩
  | dropped =>
    refine h.keeps (by simp) fun p' hp' => ?_
    cases hp'
  | unchanged => exact h.keeps (by simp) fun p' hp' _ => ⟨p', hp', rfl, rfl, rfl⟩

/-! ## Late answers -/

/-- The request is not at a prompt. -/
def Unprompted (r : InteractionRegistry) : Prop :=
  ∀ p, r.current = some p → p.state ≠ some .secretRequired

theorem exists_refused {answer : Except Exn InteractionRegistry} (h : ∀ r', answer ≠ .ok r') :
    ∃ e, (r.answered answer).1 = .refused e := by
  cases answer with
  | error e => exact ⟨e, rfl⟩
  | ok r' => exact absurd rfl (h r')

/-! ## The rounds that end a wait -/

theorem presence_outcome (hTold : Told past r) (hHeard : Heard past r) {result : PresenceWaitResult}
    {round : Option PresenceWaitResult × InteractionRegistry}
    (hRound : PresenceRound r user requestId round) (hResult : round.1 = some result) :
    (∀ approved, .answered requestId approved ∈ past →
      result = (if approved then .approved else .denied) ∨ result.isBroken = true) ∧
    (.cancelAccepted requestId ∈ past → result.isBroken = true) := by
  cases hRound with
  | invalidated hOther =>
    cases hResult
    exact ⟨fun _ _ => .inr rfl, fun _ => rfl⟩
  | stopped hCurrent hFor =>
    cases hResult
    exact ⟨fun _ _ => .inr rfl, fun _ => rfl⟩
  | cancelled hCurrent hFor hCancel =>
    cases hResult
    exact ⟨fun _ _ => .inr rfl, fun _ => rfl⟩
  | @answered p approved hCurrent hFor hCancel hResponse =>
    cases hResult
    obtain ⟨rfl, _⟩ := PendingInteraction.isFor_iff.mp hFor
    refine ⟨fun approved' hMem => ?_, fun hMem => ?_⟩
    · rw [hHeard.answer p hCurrent approved' hMem] at hResponse
      cases hResponse
      exact .inl rfl
    · rw [hTold.cancel p hCurrent hMem] at hCancel
      cases hCancel
  | @expired p hCurrent hFor hCancel hResponse =>
    cases hResult
    obtain ⟨rfl, _⟩ := PendingInteraction.isFor_iff.mp hFor
    refine ⟨fun approved hMem => ?_, fun hMem => ?_⟩
    · rw [hHeard.answer p hCurrent approved hMem] at hResponse
      cases hResponse
    · rw [hTold.cancel p hCurrent hMem] at hCancel
      cases hCancel
  | waiting => cases hResult

theorem secret_outcome (hTold : Told past r) (hDue : Due past r) {promptId : UInt64}
    {result : SecretWaitResult} {round : Option SecretWaitResult × InteractionRegistry}
    (hRound : SecretRound r user requestId promptId round) (hResult : round.1 = some result) :
    (∀ binding secret, .submitted ⟨binding, requestId, promptId, secret⟩ ∈ past →
      (∀ binding' secret', .delivered ⟨binding', requestId, promptId, secret'⟩ ∉ past) →
      result = .provided secret ∨ result.isBroken = true) ∧
    (.cancelAccepted requestId ∈ past → result.isBroken = true) := by
  cases hRound with
  | invalidated hOther =>
    cases hResult
    exact ⟨fun _ _ _ _ => .inr rfl, fun _ => rfl⟩
  | stopped hCurrent hFor =>
    cases hResult
    exact ⟨fun _ _ _ _ => .inr rfl, fun _ => rfl⟩
  | cancelled hCurrent hFor hCancel =>
    cases hResult
    exact ⟨fun _ _ _ _ => .inr rfl, fun _ => rfl⟩
  | @provided p secret hCurrent hFor hCancel hSecret =>
    cases hResult
    obtain ⟨hPrompt, rfl, rfl, _⟩ := hFor
    refine ⟨fun binding secret' hMem hKept => ?_, fun hMem => ?_⟩
    · rw [hDue p hCurrent hPrompt binding secret' hMem hKept] at hSecret
      cases hSecret
      exact .inl rfl
    · rw [hTold.cancel p hCurrent hMem] at hCancel
      cases hCancel
  | @expired p hCurrent hFor hCancel hSecret =>
    cases hResult
    obtain ⟨hPrompt, rfl, rfl, _⟩ := hFor
    refine ⟨fun binding secret' hMem hKept => ?_, fun hMem => ?_⟩
    · rw [hDue p hCurrent hPrompt binding secret' hMem hKept] at hSecret
      cases hSecret
    · rw [hTold.cancel p hCurrent hMem] at hCancel
      cases hCancel
  | waiting => cases hResult

/-- A call that `responseClosed` stops, or a secret for a request that is not at a prompt. -/
def Stoppable (r : InteractionRegistry) : RegistryCall → Prop
  | .submitSecret _ _ _ _ => Unprompted r
  | _ => True

theorem late_answer_refused (hHeard : Heard past r) {k : RegistryCall}
    (hAbandoned : .abandoned requestId ∈ past) (hAnswers : k.answers requestId = true)
    (hStoppable : Stoppable r k) : ∃ e, (r.call k).1 = .refused e := by
  have hClosed : ∀ p, r.current = some p → p.requestId = requestId → p.responseClosed = true := by
    rintro p hCurrent rfl
    exact hHeard.closed p hCurrent (.inr hAbandoned)
  cases k with
  | respondToPresence user id approved =>
    obtain rfl : id = requestId := beq_iff_eq.mp hAnswers
    refine exists_refused fun r' hCall => ?_
    obtain ⟨p, hFind, _, hOpen, _⟩ := respondToPresence_ok hCall
    obtain ⟨hCurrent, _, hId, _⟩ := find_eq_some.mp hFind
    exact absurd (hClosed p hCurrent hId) (ne_true_of_eq_false hOpen)
  | requestCancel user id =>
    obtain rfl : id = requestId := beq_iff_eq.mp hAnswers
    refine exists_refused fun r' hCall => ?_
    obtain ⟨p, hFind, _, hOpen, _⟩ := requestCancel_ok hCall
    obtain ⟨hCurrent, _, hId, _⟩ := find_eq_some.mp hFind
    exact absurd (hClosed p hCurrent hId) (ne_true_of_eq_false hOpen)
  | submitSecret user id promptId secret =>
    refine exists_refused fun r' hCall => ?_
    obtain ⟨p, hFind, _, _, hState, _⟩ := submitSecret_ok hCall
    exact hStoppable p (find_eq_some.mp hFind).1 hState
  | _ => cases hAnswers

theorem remembered (calls : List RegistryCall) : Told (occurrences calls) (history calls).2 ∧
    Heard (occurrences calls) (history calls).2 ∧ Due (occurrences calls) (history calls).2 := by
  have hInit : Told [] {} ∧ Counted [] {} ∧ Heard [] {} ∧ Due [] {} := by
    refine ⟨told_init, counted_init, ⟨fun p hp => ?_, fun p hp => ?_⟩, fun p hp => ?_⟩
    · cases hp
    · cases hp
    · cases hp
  obtain ⟨hTold, _, hHeard, hDue⟩ := occurrences_invariant
    (J := fun past r => Told past r ∧ Counted past r ∧ Heard past r ∧ Due past r) hInit
    (fun past r o r' ⟨hTold, hCounted, hHeard, hDue⟩ hEffect => ⟨hTold.step hEffect,
      hCounted.step hEffect, hHeard.step hTold hEffect, hDue.step hCounted hEffect⟩) calls
  exact ⟨hTold, hHeard, hDue⟩

end

end InteractionRegistry

/-- **Accepted answers are the outcome of the wait, and late ones are refused.** After any
history; a secret is refused late only where the request has left its prompt. -/
theorem answers_honoured (calls : List RegistryCall) : AnswersHonoured Stoppable calls := by
  obtain ⟨hTold, hHeard, hDue⟩ := remembered calls
  refine ⟨fun user requestId stop expired result hReply => ?_,
    fun user requestId promptId stop expired result hReply => ?_,
    fun requestId k hAbandoned hAnswers hStoppable =>
      late_answer_refused hHeard hAbandoned hAnswers hStoppable⟩
  · exact presence_outcome hTold hHeard (presenceRound_cases _ _ _ _ _)
      (RegistryReply.presence.inj hReply)
  · exact secret_outcome hTold hDue (secretRound_cases _ _ _ _ _ _)
      (RegistryReply.secret.inj hReply)

/-- The wait for a secret times out; the request is still at its prompt. -/
def timedOutAtPrompt : List RegistryCall :=
  [.begin ⟨1000, [], none⟩ .getAssertion [], .transition ⟨1000, [], none⟩ 1 .verificationStarted [],
    .transition ⟨1000, [], none⟩ 1 .secretRequired [],
    .waitForSecret ⟨1000, [], none⟩ 1 1 false true]

/-- A secret that comes after that is accepted. -/
theorem late_secret_accepted : ¬ AnswersHonoured (fun _ _ => True) timedOutAtPrompt := by
  intro h
  have hAbandoned : Occurrence.abandoned 1 ∈ occurrences timedOutAtPrompt := by decide
  obtain ⟨e, hRefused⟩ := h.late 1 (.submitSecret ⟨1000, [], none⟩ 1 1 [115]) hAbandoned rfl trivial
  have hAccepted : ((history timedOutAtPrompt).2.call
      (.submitSecret ⟨1000, [], none⟩ 1 1 [115])).1 = .accepted := by decide
  rw [hAccepted] at hRefused
  cases hRefused

end VAuth.Dbus
