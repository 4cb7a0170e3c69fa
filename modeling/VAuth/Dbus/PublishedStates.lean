import VAuth.Dbus.Histories

/-!
# The protocol of the published states

The states that the registry tells its caller to publish, for any sequence of calls: for each
request they are the beginning of one of the two documented flows, requests and prompts are
numbered upwards, and after an accepted cancellation only `cancelled` follows.

The registry keeps one request and its last state. The proof carries along, for every request
there ever was, how far its flow has got (`Flowing`).
-/

namespace VAuth.Dbus

/-! ## The flows of the documentation -/

/-- The states of a whole interaction. -/
inductive Flow : List UserInteractionState → Prop
  | presence {last : UserInteractionState}
      (hLast : last ∈ [.presenceApproved, .presenceDenied, .cancelled, .timedOut]) :
      Flow [.presenceRequired, last]
  | verification {progress : List UserInteractionState} {last : UserInteractionState}
      (hProgress : ∀ state ∈ progress, isVerificationProgress state = true)
      (hLast : last ∈ [.verificationSucceeded, .verificationFailed, .cancelled, .timedOut]) :
      Flow (.verificationStarted :: progress ++ [last])

/-- How far an interaction has got. -/
inductive Flowing : List UserInteractionState → Prop
  | idle : Flowing []
  | presence : Flowing [.presenceRequired]
  | verification {progress : List UserInteractionState}
      (hProgress : ∀ state ∈ progress, isVerificationProgress state = true) :
      Flowing (.verificationStarted :: progress)
  | whole {states : List UserInteractionState} (h : Flow states) : Flowing states

variable {states : List UserInteractionState} {next : UserInteractionState}
  {trace : List Occurrence}

theorem Flowing.completes (h : Flowing states) : ∃ rest, Flow (states ++ rest) := by
  cases h with
  | idle => exact ⟨[.presenceRequired, .presenceApproved], .presence (by simp)⟩
  | presence => exact ⟨[.presenceApproved], .presence (by simp)⟩
  | verification hProgress => exact ⟨[.verificationSucceeded], .verification hProgress (by simp)⟩
  | whole hFlow => exact ⟨[], by simpa using hFlow⟩

theorem Flow.ended (h : Flow states) (next : UserInteractionState) :
    validTransition states.getLast? next = false := by
  cases h with
  | presence hLast =>
    simp only [List.mem_cons, List.not_mem_nil, or_false] at hLast
    rcases hLast with rfl | rfl | rfl | rfl <;> rfl
  | verification hProgress hLast =>
    rw [List.getLast?_concat]
    simp only [List.mem_cons, List.not_mem_nil, or_false] at hLast
    rcases hLast with rfl | rfl | rfl | rfl <;> rfl

theorem progress_getLast {progress : List UserInteractionState}
    (hProgress : ∀ state ∈ progress, isVerificationProgress state = true) :
    ∃ last, (UserInteractionState.verificationStarted :: progress).getLast? = some last ∧
      isVerificationProgress last = true := by
  refine ⟨_, List.getLast?_eq_some_getLast (by simp), ?_⟩
  rcases List.mem_cons.mp (List.getLast_mem (List.cons_ne_nil
    UserInteractionState.verificationStarted progress)) with h | h
  · rw [h]
    rfl
  · exact hProgress _ h

theorem validTransition_progress {last : UserInteractionState}
    (hLast : isVerificationProgress last = true) (h : validTransition (some last) next = true) :
    isVerificationProgress next = true ∨
      next ∈ [.verificationSucceeded, .verificationFailed, .cancelled, .timedOut] := by
  cases last <;> simp_all [isVerificationProgress, validTransition, or_assoc]

theorem Flowing.snoc (h : Flowing states) (hNext : validTransition states.getLast? next = true) :
    Flowing (states ++ [next]) := by
  cases h with
  | idle =>
    simp only [List.getLast?_nil, validTransition, Bool.or_eq_true, beq_iff_eq] at hNext
    rcases hNext with rfl | rfl
    · exact .presence
    · exact .verification (by simp)
  | presence =>
    refine .whole (.presence ?_)
    simpa [validTransition, or_assoc] using hNext
  | @verification progress hProgress =>
    obtain ⟨last, hLast, hOpen⟩ := progress_getLast hProgress
    rw [hLast] at hNext
    rcases validTransition_progress hOpen hNext with h | h
    · refine .verification fun state hState => ?_
      rcases List.mem_append.mp hState with hState | hState
      · exact hProgress state hState
      · rw [List.mem_singleton.mp hState]
        exact h
    · exact .whole (.verification hProgress h)
  | whole hFlow =>
    rw [hFlow.ended] at hNext
    cases hNext

theorem progress_not_terminal {state : UserInteractionState}
    (h : isVerificationProgress state = true) : isTerminal state = false := by
  cases state <;> simp_all [isVerificationProgress, isTerminal]

theorem Flowing.not_terminal (h : Flowing states)
    (hNext : validTransition states.getLast? next = true) :
    ∀ state ∈ states, isTerminal state = false := by
  cases h with
  | idle => exact fun _ hMem => absurd hMem List.not_mem_nil
  | presence =>
    intro state hMem
    rw [List.mem_singleton.mp hMem]
    rfl
  | verification hProgress =>
    intro state hMem
    rcases List.mem_cons.mp hMem with rfl | hMem
    · rfl
    · exact progress_not_terminal (hProgress state hMem)
  | whole hFlow =>
    rw [hFlow.ended] at hNext
    cases hNext

/-! ## What was published -/

def Occurrence.requestId : Occurrence → UInt64
  | .begun requestId => requestId
  | .published requestId _ _ => requestId
  | .suppressed requestId => requestId
  | .answered requestId _ => requestId
  | .cancelAccepted requestId => requestId
  | .submitted secret => secret.requestId
  | .delivered secret => secret.requestId
  | .abandoned requestId => requestId

/-- Neither the beginning of a request nor a published state. -/
def Occurrence.isAside : Occurrence → Bool
  | .begun _ => false
  | .published _ _ _ => false
  | _ => true

/-- The requests, in the order in which they were begun. -/
def requestIds (trace : List Occurrence) : List UInt64 :=
  trace.filterMap fun
    | .begun requestId => some requestId
    | _ => none

/-- The states published for a request. -/
def statesOf (requestId : UInt64) (trace : List Occurrence) : List UserInteractionState :=
  trace.filterMap fun
    | .published id _ state => if id = requestId then some state else none
    | _ => none

/-- The prompts, in the order in which they were published. -/
def promptIds (trace : List Occurrence) : List UInt64 :=
  trace.filterMap fun
    | .published _ promptId .secretRequired => some promptId
    | _ => none

/-- What is published is for the latest request, which has not had its last state, and is
`cancelled` if its cancellation was accepted. -/
def Proper (past : List Occurrence) : Occurrence → Prop
  | .published requestId _ state => (requestIds past).getLast? = some requestId ∧
      (∀ earlier ∈ statesOf requestId past, isTerminal earlier = false) ∧
      (.cancelAccepted requestId ∈ past → state = .cancelled)
  | _ => True

/-- The rules of the documentation for a history. -/
structure FollowsProtocol (trace : List Occurrence) : Prop where
  flow : ∀ requestId, ∃ rest, Flow (statesOf requestId trace ++ rest)
  proper : Proc.AtEach Proper trace
  requests : (requestIds trace).Pairwise (· < ·)
  prompts : (promptIds trace).Pairwise (· < ·)
  numbered : ∀ requestId promptId state, .published requestId promptId state ∈ trace →
    (promptId ≠ 0 ↔ state = .secretRequired)

theorem mem_requestIds {requestId : UInt64} :
    requestId ∈ requestIds trace ↔ .begun requestId ∈ trace := by
  refine List.mem_filterMap.trans ⟨?_, fun hMem => ⟨_, hMem, rfl⟩⟩
  rintro ⟨o, hMem, hId⟩
  cases o with
  | begun id =>
    cases hId
    exact hMem
  | _ => cases hId

theorem statesOf_eq_nil {requestId : UInt64} (h : ∀ o ∈ trace, o.requestId ≠ requestId) :
    statesOf requestId trace = [] := by
  refine List.filterMap_eq_nil_iff.mpr fun o hMem => ?_
  cases o with
  | published id promptId state => exact if_neg (h _ hMem)
  | _ => rfl

theorem pairwise_snoc {l : List UInt64} {next : UInt64} (h : l.Pairwise (· < ·))
    (hBelow : ∀ id ∈ l, id < next) : (l ++ [next]).Pairwise (· < ·) := by
  refine List.pairwise_append.mpr ⟨h, List.pairwise_singleton _ _, fun a ha b hb => ?_⟩
  rw [List.mem_singleton.mp hb]
  exact hBelow a ha

/-! ## The invariant -/

namespace InteractionRegistry

/-- What the registry has told so far, and what it remembers of it. -/
structure Told (past : List Occurrence) (r : InteractionRegistry) : Prop where
  flowing : ∀ requestId, Flowing (statesOf requestId past)
  proper : Proc.AtEach Proper past
  requests : (requestIds past).Pairwise (· < ·)
  prompts : (promptIds past).Pairwise (· < ·)
  numbered : ∀ requestId promptId state, .published requestId promptId state ∈ past →
    (promptId ≠ 0 ↔ state = .secretRequired)
  below : ∀ o ∈ past, o.requestId < r.nextRequestId
  promptsBelow : ∀ promptId ∈ promptIds past, promptId < r.nextPromptId
  latest : ∀ p, r.current = some p → (requestIds past).getLast? = some p.requestId
  state : ∀ p, r.current = some p → (statesOf p.requestId past).getLast? = p.state
  cancel : ∀ p, r.current = some p → .cancelAccepted p.requestId ∈ past →
    p.cancelRequested = true

section

variable {past : List Occurrence} {r r' : InteractionRegistry} {p : PendingInteraction}

theorem Told.pending (h : Told past r) (hCurrent : r.current = some p) :
    p.requestId < r.nextRequestId := by
  have hMem : p.requestId ∈ requestIds past := List.mem_of_getLast? (h.latest p hCurrent)
  exact h.below _ (mem_requestIds.mp hMem)

theorem Told.fresh (h : Told past r) : ∀ o ∈ past, o.requestId ≠ r.nextRequestId := by
  intro o ho hEq
  have hBelow := h.below o ho
  rw [hEq] at hBelow
  exact UInt64.lt_irrefl _ hBelow

/-- A change that only concerns the answers of the agent. -/
theorem Told.quiet (h : Told past r) (hNext : r'.nextRequestId = r.nextRequestId)
    (hPrompts : r'.nextPromptId = r.nextPromptId)
    (hCurrent : ∀ p', r'.current = some p' → ∃ p, r.current = some p ∧
      p'.requestId = p.requestId ∧ p'.state = p.state ∧
      (p.cancelRequested = true → p'.cancelRequested = true)) : Told past r' where
  flowing := h.flowing
  proper := h.proper
  requests := h.requests
  prompts := h.prompts
  numbered := h.numbered
  below := by
    rw [hNext]
    exact h.below
  promptsBelow := by
    rw [hPrompts]
    exact h.promptsBelow
  latest := by
    intro p' hp'
    obtain ⟨p, hp, hId, _, _⟩ := hCurrent p' hp'
    rw [hId]
    exact h.latest p hp
  state := by
    intro p' hp'
    obtain ⟨p, hp, hId, hState, _⟩ := hCurrent p' hp'
    rw [hId, hState]
    exact h.state p hp
  cancel := by
    intro p' hp' hMem
    obtain ⟨p, hp, hId, _, hCancel⟩ := hCurrent p' hp'
    rw [hId] at hMem
    exact hCancel (h.cancel p hp hMem)

/-- A note about the pending request, other than a state published for it. -/
theorem Told.aside (h : Told past r) (hCurrent : r.current = some p) {o : Occurrence}
    (hId : o.requestId = p.requestId) (hAside : o.isAside = true)
    (hCancel : o = .cancelAccepted p.requestId → p.cancelRequested = true) :
    Told (past ++ [o]) r := by
  have hRequests : requestIds (past ++ [o]) = requestIds past := by
    cases o with
    | begun id => cases hAside
    | _ => simp [requestIds]
  have hStates : ∀ id, statesOf id (past ++ [o]) = statesOf id past := by
    intro id
    cases o with
    | published id promptId state => cases hAside
    | _ => simp [statesOf]
  have hPrompts : promptIds (past ++ [o]) = promptIds past := by
    cases o with
    | published id promptId state => cases hAside
    | _ => simp [promptIds]
  refine ⟨?_, ?_, ?_, ?_, ?_, ?_, ?_, ?_, ?_, ?_⟩
  · intro id
    rw [hStates]
    exact h.flowing id
  · refine h.proper.snoc ?_
    cases o with
    | published id promptId state => cases hAside
    | _ => trivial
  · rw [hRequests]
    exact h.requests
  · rw [hPrompts]
    exact h.prompts
  · intro id promptId state hMem
    rcases List.mem_append.mp hMem with hMem | hMem
    · exact h.numbered id promptId state hMem
    · rw [← List.mem_singleton.mp hMem] at hAside
      cases hAside
  · intro o' hMem
    rcases List.mem_append.mp hMem with hMem | hMem
    · exact h.below o' hMem
    · rw [List.mem_singleton.mp hMem, hId]
      exact h.pending hCurrent
  · rw [hPrompts]
    exact h.promptsBelow
  · intro p' hp'
    rw [hRequests]
    exact h.latest p' hp'
  · intro p' hp'
    rw [hStates]
    exact h.state p' hp'
  · intro p' hp' hMem
    obtain rfl : p = p' := Option.some.inj (hCurrent.symm.trans hp')
    rcases List.mem_append.mp hMem with hMem | hMem
    · exact h.cancel p hp' hMem
    · exact hCancel (List.mem_singleton.mp hMem).symm

theorem Told.begun (h : Told past r) {user : UserContextBinding}
    {operation : UserInteractionOperation} {relyingPartyId : Bytes}
    (hFresh : exhausted r.nextRequestId = false) :
    Told (past ++ [.begun r.nextRequestId]) { r with
      current := some { requestId := r.nextRequestId, user, operation, relyingPartyId }
      secretResponse := none
      nextRequestId := r.nextRequestId + 1 } := by
  have hStates : ∀ id, statesOf id (past ++ [.begun r.nextRequestId]) = statesOf id past := by
    intro id
    simp [statesOf]
  have hRequests : requestIds (past ++ [.begun r.nextRequestId]) =
      requestIds past ++ [r.nextRequestId] := by simp [requestIds]
  have hPrompts : promptIds (past ++ [.begun r.nextRequestId]) = promptIds past := by
    simp [promptIds]
  have hLt := lt_of_not_exhausted hFresh
  refine ⟨?_, h.proper.snoc trivial, ?_, ?_, ?_, ?_, ?_, ?_, ?_, ?_⟩
  · intro id
    rw [hStates]
    exact h.flowing id
  · rw [hRequests]
    exact pairwise_snoc h.requests fun id hMem => h.below _ (mem_requestIds.mp hMem)
  · rw [hPrompts]
    exact h.prompts
  · intro id promptId state hMem
    refine h.numbered id promptId state ?_
    simpa using hMem
  · intro o hMem
    rcases List.mem_append.mp hMem with hMem | hMem
    · exact UInt64.lt_trans (h.below o hMem) hLt
    · rw [List.mem_singleton.mp hMem]
      exact hLt
  · rw [hPrompts]
    exact h.promptsBelow
  · rintro p ⟨⟩
    rw [hRequests]
    exact List.getLast?_concat
  · rintro p ⟨⟩
    rw [hStates, statesOf_eq_nil h.fresh]
    rfl
  · rintro p ⟨⟩ hMem
    have hPast : .cancelAccepted r.nextRequestId ∈ past := by simpa using hMem
    exact absurd rfl (h.fresh _ hPast)

variable {state : UserInteractionState}

theorem Told.published (h : Told past r) (hCurrent : r.current = some p) {promptId : UInt64}
    (hValid : validTransition p.state state = true)
    (hOpen : p.cancelRequested = true → state = .cancelled)
    (hNumber : promptId ≠ 0 ↔ state = .secretRequired) (hNext : r'.nextRequestId = r.nextRequestId)
    (hPrompts : (promptIds (past ++ [.published p.requestId promptId state])).Pairwise (· < ·) ∧
      ∀ id ∈ promptIds (past ++ [.published p.requestId promptId state]), id < r'.nextPromptId)
    (hAfter : ∀ p', r'.current = some p' → p'.requestId = p.requestId ∧ p'.state = some state ∧
      p'.cancelRequested = p.cancelRequested) :
    Told (past ++ [.published p.requestId promptId state]) r' := by
  have hStates : statesOf p.requestId (past ++ [.published p.requestId promptId state]) =
      statesOf p.requestId past ++ [state] := by simp [statesOf]
  have hRequests : requestIds (past ++ [.published p.requestId promptId state]) =
      requestIds past := by simp [requestIds]
  have hFlow := h.flowing p.requestId
  rw [← h.state p hCurrent] at hValid
  refine ⟨?_, h.proper.snoc ?_, ?_, hPrompts.1, ?_, ?_, hPrompts.2, ?_, ?_, ?_⟩
  · intro id
    by_cases hId : id = p.requestId
    · rw [hId, hStates]
      exact hFlow.snoc hValid
    · have hSame : statesOf id (past ++ [.published p.requestId promptId state]) =
          statesOf id past := by simp [statesOf, Ne.symm hId]
      rw [hSame]
      exact h.flowing id
  · exact ⟨h.latest p hCurrent, hFlow.not_terminal hValid, fun hMem =>
      hOpen (h.cancel p hCurrent hMem)⟩
  · rw [hRequests]
    exact h.requests
  · intro id promptId' state' hMem
    rcases List.mem_append.mp hMem with hMem | hMem
    · exact h.numbered id promptId' state' hMem
    · cases List.mem_singleton.mp hMem
      exact hNumber
  · intro o hMem
    rw [hNext]
    rcases List.mem_append.mp hMem with hMem | hMem
    · exact h.below o hMem
    · rw [List.mem_singleton.mp hMem]
      exact h.pending hCurrent
  · intro p' hp'
    rw [hRequests, (hAfter p' hp').1]
    exact h.latest p hCurrent
  · intro p' hp'
    obtain ⟨hId, hState, _⟩ := hAfter p' hp'
    rw [hId, hState, hStates]
    exact List.getLast?_concat
  · intro p' hp' hMem
    obtain ⟨hId, _, hCancel⟩ := hAfter p' hp'
    rw [hCancel]
    refine h.cancel p hCurrent ?_
    rw [hId] at hMem
    simpa using hMem

theorem Told.entered (h : Told past r) (hCurrent : r.current = some p)
    (hValid : validTransition p.state state = true)
    (hOpen : p.cancelRequested = true → state = .cancelled) (hState : state ≠ .secretRequired)
    (hNext : r'.nextRequestId = r.nextRequestId) (hPrompt : r'.nextPromptId = r.nextPromptId)
    (hAfter : ∀ p', r'.current = some p' → p'.requestId = p.requestId ∧ p'.state = some state ∧
      p'.cancelRequested = p.cancelRequested) :
    Told (past ++ [.published p.requestId 0 state]) r' := by
  have hSame : promptIds (past ++ [.published p.requestId 0 state]) = promptIds past := by
    cases state with
    | secretRequired => exact absurd rfl hState
    | _ => simp [promptIds]
  refine h.published hCurrent hValid hOpen ?_ hNext ?_ hAfter
  · exact ⟨fun hZero => absurd rfl hZero, fun hSecret => absurd hSecret hState⟩
  · rw [hSame, hPrompt]
    exact ⟨h.prompts, h.promptsBelow⟩

theorem Told.prompted (h : Told past r) (hCurrent : r.current = some p)
    (hValid : validTransition p.state .secretRequired = true)
    (hOpen : p.cancelRequested = false) (hFresh : exhausted r.nextPromptId = false)
    (hNext : r'.nextRequestId = r.nextRequestId)
    (hPrompt : r'.nextPromptId = r.nextPromptId + 1)
    (hAfter : ∀ p', r'.current = some p' → p'.requestId = p.requestId ∧
      p'.state = some .secretRequired ∧ p'.cancelRequested = p.cancelRequested) :
    Told (past ++ [.published p.requestId r.nextPromptId .secretRequired]) r' := by
  have hSnoc : promptIds (past ++ [.published p.requestId r.nextPromptId .secretRequired]) =
      promptIds past ++ [r.nextPromptId] := by simp [promptIds]
  have hLt := lt_of_not_exhausted hFresh
  refine h.published hCurrent hValid ?_ ?_ hNext ?_ hAfter
  · intro hCancel
    rw [hOpen] at hCancel
    cases hCancel
  · refine ⟨fun _ => rfl, fun _ hZero => ?_⟩
    rw [hZero] at hFresh
    cases hFresh
  · rw [hSnoc, hPrompt]
    refine ⟨pairwise_snoc h.prompts h.promptsBelow, fun id hMem => ?_⟩
    rcases List.mem_append.mp hMem with hMem | hMem
    · exact UInt64.lt_trans (h.promptsBelow id hMem) hLt
    · rw [List.mem_singleton.mp hMem]
      exact hLt

theorem told_init : Told [] {} := by
  refine ⟨fun _ => .idle, Proc.atEach_nil, .nil, .nil, ?_, ?_, ?_, ?_, ?_, ?_⟩
  · exact fun _ _ _ hMem => absurd hMem List.not_mem_nil
  · exact fun _ hMem => absurd hMem List.not_mem_nil
  · exact fun _ hMem => absurd hMem List.not_mem_nil
  · intro p hCurrent
    cases hCurrent
  · intro p hCurrent
    cases hCurrent
  · intro p hCurrent
    cases hCurrent

theorem Told.step (h : Told past r) {o : Option Occurrence} (hEffect : Effect r o r') :
    Told (past ++ o.toList) r' := by
  cases hEffect with
  | begun hNone hFresh => exact h.begun hFresh
  | @published p state message hCurrent hValid hFresh hOpen =>
    by_cases hSecret : state = .secretRequired
    · subst hSecret
      have hCancel : p.cancelRequested = false :=
        eq_false_of_ne_true fun hCancel => absurd (hOpen hCancel) (by decide)
      rw [enter_prompt]
      show Told (past ++ [.published p.requestId r.nextPromptId .secretRequired]) _
      refine h.prompted hCurrent hValid hCancel (hFresh rfl) rfl rfl ?_
      rintro p' ⟨⟩
      exact ⟨rfl, rfl, rfl⟩
    · by_cases hTerminal : isTerminal state = true
      · rw [enter_terminal hTerminal]
        show Told (past ++ [.published p.requestId 0 state]) _
        refine h.entered hCurrent hValid hOpen hSecret rfl rfl fun p' hp' => ?_
        cases hp'
      · rw [enter_progress hSecret (eq_false_of_ne_true hTerminal)]
        show Told (past ++ [.published p.requestId 0 state]) _
        refine h.entered hCurrent hValid hOpen hSecret rfl rfl ?_
        rintro p' ⟨⟩
        exact ⟨rfl, rfl, rfl⟩
  | suppressed hCurrent hCancel => exact h.aside hCurrent rfl rfl fun _ => hCancel
  | @answered p approved hCurrent hOpen =>
    refine (h.aside hCurrent rfl rfl fun hCancel => ?_).quiet rfl rfl ?_
    · cases hCancel
    rintro p' ⟨⟩
    exact ⟨p, hCurrent, rfl, rfl, id⟩
  | @submitted p secret hCurrent hPrompt hState hFirst hOpen =>
    refine (h.aside hCurrent rfl rfl fun hCancel => ?_).quiet rfl rfl ?_
    · cases hCancel
    rintro p' ⟨⟩
    exact ⟨p, hCurrent, rfl, rfl, id⟩
  | @cancelled p hCurrent hState hOpen =>
    have hQuiet : Told past { r with
        current := some { p with cancelRequested := true, responseClosed := true } } := by
      refine h.quiet rfl rfl ?_
      rintro p' ⟨⟩
      exact ⟨p, hCurrent, rfl, rfl, fun _ => rfl⟩
    exact hQuiet.aside rfl rfl rfl fun _ => rfl
  | @delivered p secret hCurrent hPrompt hOpen hSecret =>
    refine (h.aside hCurrent rfl rfl fun hCancel => ?_).quiet rfl rfl
      fun p' hp' => ⟨p', hp', rfl, rfl, id⟩
    cases hCancel
  | @abandoned p hCurrent =>
    refine (h.aside hCurrent rfl rfl fun hCancel => ?_).quiet rfl rfl ?_
    · cases hCancel
    rintro p' ⟨⟩
    exact ⟨p, hCurrent, rfl, rfl, id⟩
  | dropped =>
    rw [Option.toList_none, List.append_nil]
    refine h.quiet rfl rfl fun p' hp' => ?_
    cases hp'
  | unchanged =>
    rw [Option.toList_none, List.append_nil]
    exact h

theorem told (calls : List RegistryCall) : Told (occurrences calls) (history calls).2 :=
  occurrences_invariant told_init (fun _ _ _ _ h hEffect => h.step hEffect) calls

end

end InteractionRegistry

/-- **Published states follow the protocol.** Whatever is called on a registry, in any order and
with any arguments. -/
theorem published_states_follow_protocol (calls : List RegistryCall) :
    FollowsProtocol (occurrences calls) := by
  have h := InteractionRegistry.told calls
  exact ⟨fun requestId => (h.flowing requestId).completes, h.proper, h.requests, h.prompts,
    h.numbered⟩

end VAuth.Dbus
