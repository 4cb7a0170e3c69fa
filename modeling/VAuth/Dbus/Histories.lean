import Mathlib.Data.List.Induction
import VAuth.Dbus.InteractionRegistry
import VAuth.Process.Trace

/-!
# Histories of the registry of interactions

The member functions of `InteractionRegistry` may be called in any order and with any
arguments, by any number of threads: each call holds the mutex, so a history is a sequence of
calls. A wait is called round by round, since it gives the mutex away between two rounds.

An observer notes down what a history did to the interactions (`Occurrence`); `Effect` says
once what a call can do and what is noted of it.
-/

namespace VAuth.Dbus

inductive RegistryCall where
  | begin (user : UserContext) (operation : UserInteractionOperation) (relyingPartyId : Bytes)
  | transition (user : UserContext) (requestId : UInt64) (state : UserInteractionState)
      (message : Bytes)
  | respondToPresence (user : UserContext) (requestId : UInt64) (approved : Bool)
  | submitSecret (user : UserContext) (requestId promptId : UInt64) (secret : Bytes)
  | requestCancel (user : UserContext) (requestId : UInt64)
  | waitForPresence (user : UserContext) (requestId : UInt64) (stop expired : Bool)
  | waitForSecret (user : UserContext) (requestId promptId : UInt64) (stop expired : Bool)
  | endInteraction (user : UserContext) (requestId : UInt64)
  | clearFor (user : UserContext)
deriving DecidableEq

/-- What a call returns, or throws; a round of a wait has no result while the wait goes on. -/
inductive RegistryReply where
  | refused (e : Exn)
  | began (requestId : UInt64)
  | moved (transition : InteractionTransition)
  | accepted
  | presence (result : Option PresenceWaitResult)
  | secret (result : Option SecretWaitResult)
  | returned
deriving DecidableEq

structure Entry where
  call : RegistryCall
  reply : RegistryReply
deriving DecidableEq

namespace InteractionRegistry

/-- The reply to an answer of the agent. -/
def answered (r : InteractionRegistry) :
    Except Exn InteractionRegistry → RegistryReply × InteractionRegistry
  | .error e => (.refused e, r)
  | .ok r' => (.accepted, r')

def call (r : InteractionRegistry) : RegistryCall → RegistryReply × InteractionRegistry
  | .begin user operation relyingPartyId =>
    match r.begin user operation relyingPartyId with
    | .error e => (.refused e, r)
    | .ok (requestId, r') => (.began requestId, r')
  | .transition user requestId state message =>
    match r.transition user requestId state message with
    | .error e => (.refused e, r)
    | .ok (transition, r') => (.moved transition, r')
  | .respondToPresence user requestId approved =>
    r.answered (r.respondToPresence user requestId approved)
  | .submitSecret user requestId promptId secret =>
    r.answered (r.submitSecret user requestId promptId secret)
  | .requestCancel user requestId => r.answered (r.requestCancel user requestId)
  | .waitForPresence user requestId stop expired =>
    let (result, r') := r.presenceRound user requestId stop expired
    (.presence result, r')
  | .waitForSecret user requestId promptId stop expired =>
    let (result, r') := r.secretRound user requestId promptId stop expired
    (.secret result, r')
  | .endInteraction user requestId => (.returned, r.endInteraction user requestId)
  | .clearFor user => (.returned, r.clearFor user)

/-- The entries of a history, oldest first, and the registry after it. -/
def history (calls : List RegistryCall) : List Entry × InteractionRegistry :=
  calls.foldl (fun c k => (c.1 ++ [⟨k, (c.2.call k).1⟩], (c.2.call k).2)) ([], {})

theorem history_snoc (calls : List RegistryCall) (k : RegistryCall) :
    history (calls ++ [k]) = ((history calls).1 ++ [⟨k, ((history calls).2.call k).1⟩],
      ((history calls).2.call k).2) := by
  rw [history, List.foldl_append]
  rfl

theorem history_invariant {J : List Entry → InteractionRegistry → Prop} (hInit : J [] {})
    (hStep : ∀ past r k, J past r → J (past ++ [⟨k, (r.call k).1⟩]) (r.call k).2)
    (calls : List RegistryCall) : J (history calls).1 (history calls).2 := by
  induction calls using List.reverseRecOn with
  | nil => exact hInit
  | append_singleton calls k ih =>
    rw [history_snoc]
    exact hStep _ _ k ih

end InteractionRegistry

/-! ## What an observer notes down -/

/-- A secret, and the prompt it is for. -/
structure PromptSecret where
  user : UserContextBinding
  requestId : UInt64
  promptId : UInt64
  secret : Bytes
deriving DecidableEq

inductive Occurrence where
  | begun (requestId : UInt64)
  | published (requestId promptId : UInt64) (state : UserInteractionState)
  | suppressed (requestId : UInt64)
  | answered (requestId : UInt64) (approved : Bool)
  | cancelAccepted (requestId : UInt64)
  | submitted (secret : PromptSecret)
  | delivered (secret : PromptSecret)
  | abandoned (requestId : UInt64)
deriving DecidableEq

/-- The wait was given up: the deadline has passed, or the platform cancelled. -/
def RegistryReply.givesUp : RegistryReply → Bool
  | .presence (some .timedOut) => true
  | .presence (some .platformCancelled) => true
  | .secret (some .timedOut) => true
  | .secret (some .platformCancelled) => true
  | _ => false

def Entry.occurrence : Entry → Option Occurrence
  | ⟨.begin _ _ _, .began requestId⟩ => some (.begun requestId)
  | ⟨.transition _ requestId state _, .moved transition⟩ =>
    some (if transition.shouldPublish then .published requestId transition.promptId state
      else .suppressed requestId)
  | ⟨.respondToPresence _ requestId approved, .accepted⟩ => some (.answered requestId approved)
  | ⟨.requestCancel _ requestId, .accepted⟩ => some (.cancelAccepted requestId)
  | ⟨.submitSecret user requestId promptId secret, .accepted⟩ =>
    some (.submitted { user := user.binding, requestId, promptId, secret })
  | ⟨.waitForSecret user requestId promptId _ _, .secret (some (.provided secret))⟩ =>
    some (.delivered { user := user.binding, requestId, promptId, secret })
  | ⟨.waitForPresence _ requestId _ _, reply⟩ =>
    if reply.givesUp then some (.abandoned requestId) else none
  | ⟨.waitForSecret _ requestId _ _ _, reply⟩ =>
    if reply.givesUp then some (.abandoned requestId) else none
  | _ => none

def occurrences (calls : List RegistryCall) : List Occurrence :=
  (InteractionRegistry.history calls).1.filterMap Entry.occurrence

namespace InteractionRegistry

/-! ## How a round of a wait ends -/

inductive PresenceRound (r : InteractionRegistry) (user : UserContext) (requestId : UInt64) :
    Option PresenceWaitResult × InteractionRegistry → Prop
  | invalidated (hOther : ∀ p, r.current = some p → p.isFor user requestId = false) :
      PresenceRound r user requestId (some .invalidated, r)
  | stopped {p : PendingInteraction} (hCurrent : r.current = some p)
      (hFor : p.isFor user requestId = true) :
      PresenceRound r user requestId (some .platformCancelled,
        { r with current := some { p with responseClosed := true } })
  | cancelled {p : PendingInteraction} (hCurrent : r.current = some p)
      (hFor : p.isFor user requestId = true) (hCancel : p.cancelRequested = true) :
      PresenceRound r user requestId (some .clientCancelled, r)
  | answered {p : PendingInteraction} {approved : Bool} (hCurrent : r.current = some p)
      (hFor : p.isFor user requestId = true) (hCancel : p.cancelRequested = false)
      (hResponse : p.presenceResponse = some approved) :
      PresenceRound r user requestId (some (if approved then .approved else .denied), r)
  | expired {p : PendingInteraction} (hCurrent : r.current = some p)
      (hFor : p.isFor user requestId = true) (hCancel : p.cancelRequested = false)
      (hResponse : p.presenceResponse = none) :
      PresenceRound r user requestId (some .timedOut,
        { r with current := some { p with responseClosed := true } })
  | waiting : PresenceRound r user requestId (none, r)

theorem presenceRound_cases (r : InteractionRegistry) (user : UserContext) (requestId : UInt64)
    (stop expired : Bool) :
    PresenceRound r user requestId (r.presenceRound user requestId stop expired) := by
  unfold presenceRound
  split
  · rename_i hFilter
    refine .invalidated fun p hCurrent => ?_
    rw [hCurrent] at hFilter
    exact eq_false_of_ne_true (Option.filter_eq_none_iff.mp hFilter p rfl)
  · rename_i p hFilter
    obtain ⟨hCurrent, hFor⟩ := Option.filter_eq_some_iff.mp hFilter
    simp only
    split
    · exact .stopped hCurrent hFor
    · split
      · rename_i hCancel
        exact .cancelled hCurrent hFor hCancel
      · rename_i hCancel
        split
        · rename_i approved hResponse
          exact .answered hCurrent hFor (eq_false_of_ne_true hCancel) hResponse
        · rename_i hResponse
          split
          · exact .expired hCurrent hFor (eq_false_of_ne_true hCancel) hResponse
          · exact .waiting

/-- The interaction is at this prompt of this request. -/
def AtPrompt (p : PendingInteraction) (user : UserContext) (requestId promptId : UInt64) : Prop :=
  promptId ≠ 0 ∧ p.promptId = promptId ∧ p.requestId = requestId ∧ p.user = user.binding

inductive SecretRound (r : InteractionRegistry) (user : UserContext)
    (requestId promptId : UInt64) : Option SecretWaitResult × InteractionRegistry → Prop
  | invalidated (hOther : ∀ p, r.current = some p → ¬ AtPrompt p user requestId promptId) :
      SecretRound r user requestId promptId (some .invalidated, r)
  | stopped {p : PendingInteraction} (hCurrent : r.current = some p)
      (hFor : AtPrompt p user requestId promptId) :
      SecretRound r user requestId promptId (some .platformCancelled,
        { r with current := some { p with responseClosed := true } })
  | cancelled {p : PendingInteraction} (hCurrent : r.current = some p)
      (hFor : AtPrompt p user requestId promptId) (hCancel : p.cancelRequested = true) :
      SecretRound r user requestId promptId (some .clientCancelled, r)
  | provided {p : PendingInteraction} {secret : Bytes} (hCurrent : r.current = some p)
      (hFor : AtPrompt p user requestId promptId) (hCancel : p.cancelRequested = false)
      (hSecret : r.secretResponse = some secret) :
      SecretRound r user requestId promptId
        (some (.provided secret), { r with secretResponse := none })
  | expired {p : PendingInteraction} (hCurrent : r.current = some p)
      (hFor : AtPrompt p user requestId promptId) (hCancel : p.cancelRequested = false)
      (hSecret : r.secretResponse = none) :
      SecretRound r user requestId promptId (some .timedOut,
        { r with current := some { p with responseClosed := true } })
  | waiting : SecretRound r user requestId promptId (none, r)

theorem secretRound_cases (r : InteractionRegistry) (user : UserContext)
    (requestId promptId : UInt64) (stop expired : Bool) : SecretRound r user requestId promptId
      (r.secretRound user requestId promptId stop expired) := by
  have hAt : ∀ p : PendingInteraction, (promptId != 0 && p.isFor user requestId &&
      p.promptId == promptId) = true ↔ AtPrompt p user requestId promptId := by
    intro p
    simp only [Bool.and_eq_true, bne_iff_ne, beq_iff_eq, PendingInteraction.isFor_iff, AtPrompt]
    tauto
  unfold secretRound
  split
  · rename_i hFilter
    refine .invalidated fun p hCurrent hPrompt => ?_
    rw [hCurrent] at hFilter
    exact Option.filter_eq_none_iff.mp hFilter p rfl ((hAt p).mpr hPrompt)
  · rename_i p hFilter
    obtain ⟨hCurrent, hMatch⟩ := Option.filter_eq_some_iff.mp hFilter
    have hFor := (hAt p).mp hMatch
    simp only
    split
    · exact .stopped hCurrent hFor
    · split
      · rename_i hCancel
        exact .cancelled hCurrent hFor hCancel
      · rename_i hCancel
        split
        · rename_i secret hSecret
          exact .provided hCurrent hFor (eq_false_of_ne_true hCancel) hSecret
        · rename_i hSecret
          split
          · exact .expired hCurrent hFor (eq_false_of_ne_true hCancel) hSecret
          · exact .waiting

/-! ## What a call can do -/

/-- Everything a call can do to a registry, with what is noted of it. -/
inductive Effect (r : InteractionRegistry) : Option Occurrence → InteractionRegistry → Prop
  | begun {user : UserContext} {operation : UserInteractionOperation} {relyingPartyId : Bytes}
      (hNone : r.current = none) (hFresh : exhausted r.nextRequestId = false) :
      Effect r (some (.begun r.nextRequestId)) { r with
        current := some { requestId := r.nextRequestId, user := user.binding, operation,
                          relyingPartyId }
        secretResponse := none
        nextRequestId := r.nextRequestId + 1 }
  | published {p : PendingInteraction} {state : UserInteractionState} {message : Bytes}
      (hCurrent : r.current = some p) (hValid : validTransition p.state state = true)
      (hFresh : state = .secretRequired → exhausted r.nextPromptId = false)
      (hOpen : p.cancelRequested = true → state = .cancelled) :
      Effect r (some (.published p.requestId (r.enter p state message).1.promptId state))
        (r.enter p state message).2
  | suppressed {p : PendingInteraction} (hCurrent : r.current = some p)
      (hCancel : p.cancelRequested = true) : Effect r (some (.suppressed p.requestId)) r
  | answered {p : PendingInteraction} {approved : Bool} (hCurrent : r.current = some p)
      (hOpen : p.responseClosed = false) :
      Effect r (some (.answered p.requestId approved)) { r with current := some { p with
        presenceResponse := some approved, responseClosed := true } }
  | submitted {p : PendingInteraction} {secret : Bytes} (hCurrent : r.current = some p)
      (hPrompt : p.promptId ≠ 0) (hState : p.state = some .secretRequired)
      (hFirst : p.secretSubmitted = false) (hOpen : p.cancelRequested = false) :
      Effect r (some (.submitted ⟨p.user, p.requestId, p.promptId, secret⟩)) { r with
        current := some { p with secretSubmitted := true }, secretResponse := some secret }
  | cancelled {p : PendingInteraction} (hCurrent : r.current = some p)
      (hState : p.state.isSome = true) (hOpen : p.responseClosed = false) :
      Effect r (some (.cancelAccepted p.requestId)) { r with
        current := some { p with cancelRequested := true, responseClosed := true } }
  | delivered {p : PendingInteraction} {secret : Bytes} (hCurrent : r.current = some p)
      (hPrompt : p.promptId ≠ 0) (hOpen : p.cancelRequested = false)
      (hSecret : r.secretResponse = some secret) :
      Effect r (some (.delivered ⟨p.user, p.requestId, p.promptId, secret⟩))
        { r with secretResponse := none }
  | abandoned {p : PendingInteraction} (hCurrent : r.current = some p) :
      Effect r (some (.abandoned p.requestId))
        { r with current := some { p with responseClosed := true } }
  | dropped : Effect r none { r with current := none, secretResponse := none }
  | unchanged : Effect r none r

section

variable {r : InteractionRegistry} {user : UserContext} {requestId : UInt64}

theorem effect_of_answered {k : RegistryCall} {x : Except Exn InteractionRegistry}
    (hRefused : ∀ e, Entry.occurrence ⟨k, .refused e⟩ = none)
    (h : ∀ r', x = .ok r' → Effect r (Entry.occurrence ⟨k, .accepted⟩) r') :
    Effect r (Entry.occurrence ⟨k, (r.answered x).1⟩) (r.answered x).2 := by
  cases x with
  | error e =>
    rw [answered, hRefused]
    exact .unchanged
  | ok r' => exact h r' rfl

variable {state : UserInteractionState} {message : Bytes} {transition : InteractionTransition}
  {r' : InteractionRegistry}

theorem checked_of_transition {p : PendingInteraction}
    (h : r.checkTransition p state message = .ok ()) :
    validTransition p.state state = true ∧
      (state = .secretRequired → exhausted r.nextPromptId = false) := by
  unfold checkTransition at h
  obtain ⟨hValid, h⟩ := guard_eq_ok.mp h
  obtain ⟨_, h⟩ := guard_eq_ok.mp h
  obtain ⟨_, h⟩ := guard_eq_ok.mp h
  refine ⟨not_not.mp hValid, fun hState => ?_⟩
  refine eq_false_of_ne_true fun hExhausted => ?_
  rw [if_pos ⟨hState, hExhausted⟩] at h
  cases h

/-- What `transition` has done: nothing, when the state is suppressed, or it has entered it. -/
theorem transition_cases (h : r.transition user requestId state message = .ok (transition, r')) :
    ∃ p, r.find user requestId = some p ∧
      ((p.cancelRequested = true ∧ transition = { shouldPublish := false, promptId := 0 } ∧
        r' = r) ∨
      (validTransition p.state state = true ∧
        (state = .secretRequired → exhausted r.nextPromptId = false) ∧
        (p.cancelRequested = true → state = .cancelled) ∧
        transition.shouldPublish = true ∧ r.enter p state message = (transition, r'))) := by
  unfold InteractionRegistry.transition at h
  split at h
  · cases h
  · rename_i p hFind
    refine ⟨p, hFind, ?_⟩
    obtain ⟨_, hCheck, h⟩ := bind_eq_ok.mp h
    obtain ⟨hValid, hFresh⟩ := checked_of_transition hCheck
    by_cases hCancel : p.cancelRequested ∧ state ≠ .cancelled
    · rw [if_pos hCancel] at h
      cases h
      exact .inl ⟨hCancel.1, rfl, rfl⟩
    · rw [if_neg hCancel] at h
      have hEnter : (r.enter p state message) = (transition, r') := Except.ok.inj h
      have hPublish : (r.enter p state message).1.shouldPublish = true := by
        unfold enter
        split
        · rfl
        · split <;> rfl
      rw [hEnter] at hPublish
      refine .inr ⟨hValid, hFresh, fun hRequested => ?_, hPublish, hEnter⟩
      by_contra hState
      exact hCancel ⟨hRequested, hState⟩

theorem effect_of_transition
    (h : r.transition user requestId state message = .ok (transition, r')) :
    Effect r (Entry.occurrence ⟨.transition user requestId state message, .moved transition⟩)
      r' := by
  obtain ⟨p, hFind, hDone⟩ := transition_cases h
  obtain ⟨hCurrent, _, rfl, _⟩ := find_eq_some.mp hFind
  rcases hDone with ⟨hCancel, rfl, rfl⟩ | ⟨hValid, hFresh, hOpen, hPublish, hEnter⟩
  · exact .suppressed hCurrent hCancel
  · have hEffect : Effect r _ (r.enter p state message).2 :=
      .published hCurrent hValid hFresh hOpen
    rw [hEnter] at hEffect
    simpa [Entry.occurrence, hPublish] using hEffect

theorem effect_of_presenceRound (stop expired : Bool) :
    Effect r (Entry.occurrence ⟨.waitForPresence user requestId stop expired,
      .presence (r.presenceRound user requestId stop expired).1⟩)
      (r.presenceRound user requestId stop expired).2 := by
  have hRound := presenceRound_cases r user requestId stop expired
  generalize r.presenceRound user requestId stop expired = round at hRound
  cases hRound with
  | stopped hCurrent hFor =>
    obtain ⟨rfl, _⟩ := PendingInteraction.isFor_iff.mp hFor
    exact .abandoned hCurrent
  | expired hCurrent hFor _ _ =>
    obtain ⟨rfl, _⟩ := PendingInteraction.isFor_iff.mp hFor
    exact .abandoned hCurrent
  | @answered p approved hCurrent hFor hCancel hResponse =>
    cases approved with
    | false => exact .unchanged
    | true => exact .unchanged
  | _ => exact .unchanged

theorem effect_of_secretRound (promptId : UInt64) (stop expired : Bool) :
    Effect r (Entry.occurrence ⟨.waitForSecret user requestId promptId stop expired,
      .secret (r.secretRound user requestId promptId stop expired).1⟩)
      (r.secretRound user requestId promptId stop expired).2 := by
  have hRound := secretRound_cases r user requestId promptId stop expired
  generalize r.secretRound user requestId promptId stop expired = round at hRound
  cases hRound with
  | stopped hCurrent hFor =>
    obtain ⟨_, _, rfl, _⟩ := hFor
    exact .abandoned hCurrent
  | expired hCurrent hFor _ _ =>
    obtain ⟨_, _, rfl, _⟩ := hFor
    exact .abandoned hCurrent
  | provided hCurrent hFor hCancel hSecret =>
    obtain ⟨hPrompt, rfl, rfl, hUser⟩ := hFor
    show Effect r (some (.delivered ⟨user.binding, _, _, _⟩)) _
    rw [← hUser]
    exact .delivered hCurrent hPrompt hCancel hSecret
  | _ => exact .unchanged

theorem effect_of_call (r : InteractionRegistry) (k : RegistryCall) :
    Effect r (Entry.occurrence ⟨k, (r.call k).1⟩) (r.call k).2 := by
  cases k with
  | begin user operation relyingPartyId =>
    simp only [call]
    split
    · exact .unchanged
    · rename_i requestId r' hBegin
      unfold InteractionRegistry.begin at hBegin
      obtain ⟨hNone, hBegin⟩ := guard_eq_ok.mp hBegin
      obtain ⟨hFresh, hBegin⟩ := guard_eq_ok.mp hBegin
      cases hBegin
      exact .begun (by simpa using hNone) (eq_false_of_ne_true hFresh)
  | transition user requestId state message =>
    simp only [call]
    split
    · exact .unchanged
    · rename_i transition r' hMove
      exact effect_of_transition hMove
  | respondToPresence user requestId approved =>
    refine effect_of_answered (fun _ => rfl) fun r' h => ?_
    obtain ⟨p, hFind, -, hOpen, rfl⟩ := respondToPresence_ok h
    obtain ⟨hCurrent, _, rfl, _⟩ := find_eq_some.mp hFind
    exact .answered hCurrent hOpen
  | submitSecret user requestId promptId secret =>
    refine effect_of_answered (fun _ => rfl) fun r' h => ?_
    obtain ⟨p, hFind, hPrompt, rfl, hState, hFirst, hOpen, rfl⟩ := submitSecret_ok h
    obtain ⟨hCurrent, _, rfl, hUser⟩ := find_eq_some.mp hFind
    show Effect r (some (.submitted ⟨user.binding, p.requestId, p.promptId, secret⟩)) _
    rw [← hUser]
    exact .submitted hCurrent hPrompt hState hFirst hOpen
  | requestCancel user requestId =>
    refine effect_of_answered (fun _ => rfl) fun r' h => ?_
    obtain ⟨p, hFind, hState, hOpen, rfl⟩ := requestCancel_ok h
    obtain ⟨hCurrent, _, rfl, _⟩ := find_eq_some.mp hFind
    exact .cancelled hCurrent hState hOpen
  | waitForPresence user requestId stop expired => exact effect_of_presenceRound stop expired
  | waitForSecret user requestId promptId stop expired =>
    exact effect_of_secretRound promptId stop expired
  | endInteraction user requestId =>
    simp only [call, InteractionRegistry.endInteraction]
    split
    · exact .dropped
    · exact .unchanged
  | clearFor user =>
    simp only [call, InteractionRegistry.clearFor]
    split
    · exact .dropped
    · exact .unchanged

end

theorem occurrences_invariant {J : List Occurrence → InteractionRegistry → Prop} (hInit : J [] {})
    (hStep : ∀ past r o r', J past r → Effect r o r' → J (past ++ o.toList) r')
    (calls : List RegistryCall) : J (occurrences calls) (history calls).2 := by
  refine history_invariant (J := fun trace r => J (trace.filterMap Entry.occurrence) r) hInit ?_
    calls
  intro past r k hJ
  have hNext := hStep _ _ _ _ hJ (effect_of_call r k)
  rw [List.filterMap_append]
  cases hNoted : Entry.occurrence ⟨k, (r.call k).1⟩ with
  | none => simpa [hNoted] using hNext
  | some o => simpa [hNoted] using hNext

end InteractionRegistry

end VAuth.Dbus
