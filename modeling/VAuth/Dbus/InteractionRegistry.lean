import VAuth.Interaction.User
import VAuth.Verifier.Protocol

/-!
# The registry of pending interactions

`InteractionRegistry`: at most one interaction is pending; the worker moves it through its
states, the agent answers it. Every member function holds the mutex of the registry from
its first line to its last, so each is one function on the state. The two waits release
the mutex only inside `wait_until`; one round of theirs is one such function.
-/

namespace VAuth.Dbus

structure PendingInteraction where
  requestId : UInt64
  user : UserContextBinding
  operation : UserInteractionOperation
  relyingPartyId : Bytes
  state : Option UserInteractionState := none
  message : Bytes := []
  promptId : UInt64 := 0
  presenceResponse : Option Bool := none
  secretSubmitted : Bool := false
  cancelRequested : Bool := false
  responseClosed : Bool := false
deriving DecidableEq

inductive PresenceWaitResult where
  | approved
  | denied
  | clientCancelled
  | platformCancelled
  | timedOut
  | invalidated
deriving DecidableEq

inductive SecretWaitResult where
  | provided (secret : Bytes)
  | clientCancelled
  | platformCancelled
  | timedOut
  | invalidated
deriving DecidableEq

structure InteractionTransition where
  shouldPublish : Bool
  promptId : UInt64
deriving DecidableEq

structure InteractionRegistry where
  current : Option PendingInteraction := none
  secretResponse : Option Bytes := none
  nextRequestId : UInt64 := 1
  nextPromptId : UInt64 := 1
deriving DecidableEq

def sameUser (binding : UserContextBinding) (context : UserContext) : Bool :=
  binding.uid == context.uid && binding.session == context.session

def isTerminal : UserInteractionState → Bool
  | .presenceApproved => true
  | .presenceDenied => true
  | .verificationSucceeded => true
  | .verificationFailed => true
  | .cancelled => true
  | .timedOut => true
  | _ => false

def isVerificationProgress : UserInteractionState → Bool
  | .verificationStarted => true
  | .verificationInformation => true
  | .verificationError => true
  | .secretRequired => true
  | _ => false

def validTransition (previous : Option UserInteractionState) (next : UserInteractionState) :
    Bool :=
  match previous with
  | none => next == .presenceRequired || next == .verificationStarted
  | some .presenceRequired => next == .presenceApproved || next == .presenceDenied ||
      next == .cancelled || next == .timedOut
  | some previous => isVerificationProgress previous && (isVerificationProgress next ||
      next == .verificationSucceeded || next == .verificationFailed ||
      next == .cancelled || next == .timedOut)

/-- The states that carry a text for the user. -/
def acceptsMessage : UserInteractionState → Bool
  | .verificationInformation => true
  | .verificationError => true
  | .secretRequired => true
  | _ => false

/-- The identifiers that are not handed out. -/
def exhausted (next : UInt64) : Bool := next == 0 || next == 0xffffffffffffffff

/-- The interaction is this request of this user. -/
def PendingInteraction.isFor (p : PendingInteraction) (user : UserContext) (requestId : UInt64) :
    Bool :=
  p.requestId == requestId && sameUser p.user user

namespace InteractionRegistry

variable (r : InteractionRegistry) (user : UserContext) (requestId : UInt64)

/-- The pending interaction, if it is this request. -/
def find : Option PendingInteraction :=
  r.current.filter fun p => requestId != 0 && p.isFor user requestId

def begin (operation : UserInteractionOperation) (relyingPartyId : Bytes) :
    Except Exn (UInt64 × InteractionRegistry) := do
  if r.current.isSome then throw (.runtimeError "Another interaction is already pending")
  if exhausted r.nextRequestId then throw (.overflowError "Interaction request ID is exhausted")
  let pending : PendingInteraction :=
    { requestId := r.nextRequestId, user := user.binding, operation, relyingPartyId }
  return (r.nextRequestId, { r with current := some pending, secretResponse := none,
                                    nextRequestId := r.nextRequestId + 1 })

/-- What `transition` refuses. -/
def checkTransition (p : PendingInteraction) (state : UserInteractionState) (message : Bytes) :
    Except Exn Unit := do
  if ¬ validTransition p.state state then
    throw (.logicError "Invalid interaction state transition")
  if ¬ acceptsMessage state ∧ ¬ message.isEmpty then
    throw (.invalidArgument "Interaction state does not accept display text")
  if message.length > Verifier.maxVerificationTextSize then
    throw (.invalidArgument "Interaction display text exceeds the protocol limit")
  if state = .secretRequired ∧ exhausted r.nextPromptId then
    throw (.overflowError "Interaction prompt ID is exhausted")

/-- The rest of `transition`, once it is neither refused nor suppressed. -/
def enter (p : PendingInteraction) (state : UserInteractionState) (message : Bytes) :
    InteractionTransition × InteractionRegistry :=
  if state = .secretRequired then
    ({ shouldPublish := true, promptId := r.nextPromptId }, { r with
        current := some { p with
          state := some state, message, promptId := r.nextPromptId, secretSubmitted := false }
        secretResponse := none
        nextPromptId := r.nextPromptId + 1 })
  else if isTerminal state then
    ({ shouldPublish := true, promptId := 0 }, { r with current := none, secretResponse := none })
  else
    ({ shouldPublish := true, promptId := 0 },
      { r with current := some { p with state := some state, message, promptId := 0 } })

def transition (state : UserInteractionState) (message : Bytes) :
    Except Exn (InteractionTransition × InteractionRegistry) :=
  match r.find user requestId with
  | none => .error (.runtimeError "Interaction request is no longer current")
  | some p => do
      r.checkTransition p state message
      -- Once the agent has cancelled, every state but `cancelled` is dropped in silence.
      if p.cancelRequested ∧ state ≠ .cancelled then
        return ({ shouldPublish := false, promptId := 0 }, r)
      return r.enter p state message

def respondToPresence (approved : Bool) : Except Exn InteractionRegistry :=
  match r.find user requestId with
  | some p =>
    if p.state ≠ some .presenceRequired ∨ p.responseClosed then
      .error (.runtimeError "Presence response is not currently accepted")
    else .ok { r with current := some { p with
                          presenceResponse := some approved, responseClosed := true } }
  | none => .error (.runtimeError "Presence response is not currently accepted")

def submitSecret (promptId : UInt64) (secret : Bytes) : Except Exn InteractionRegistry :=
  match r.find user requestId with
  | some p =>
    if promptId = 0 ∨ p.promptId ≠ promptId ∨ p.state ≠ some .secretRequired ∨
        p.secretSubmitted ∨ p.cancelRequested then
      .error (.runtimeError "Secret response is not currently accepted")
    else .ok { r with current := some { p with secretSubmitted := true },
                      secretResponse := some secret }
  | none => .error (.runtimeError "Secret response is not currently accepted")

def requestCancel : Except Exn InteractionRegistry :=
  match r.find user requestId with
  | some p =>
    if p.state.isNone ∨ p.responseClosed then
      .error (.runtimeError "Interaction cancellation is not accepted")
    else .ok { r with current := some { p with cancelRequested := true, responseClosed := true } }
  | none => .error (.runtimeError "Interaction cancellation is not accepted")

/-- One round of `wait_for_presence`; without a result the wait goes on. -/
def presenceRound (stop expired : Bool) : Option PresenceWaitResult × InteractionRegistry :=
  match r.current.filter (·.isFor user requestId) with
  | none => (some .invalidated, r)
  | some p =>
    let closed := { r with current := some { p with responseClosed := true } }
    if stop then (some .platformCancelled, closed)
    else if p.cancelRequested then (some .clientCancelled, r)
    else match p.presenceResponse with
      | some approved => (some (if approved then .approved else .denied), r)
      | none => if expired then (some .timedOut, closed) else (none, r)

/-- One round of `wait_for_secret`; without a result the wait goes on. -/
def secretRound (promptId : UInt64) (stop expired : Bool) :
    Option SecretWaitResult × InteractionRegistry :=
  match r.current.filter fun p => promptId != 0 && p.isFor user requestId &&
      p.promptId == promptId with
  | none => (some .invalidated, r)
  | some p =>
    let closed := { r with current := some { p with responseClosed := true } }
    if stop then (some .platformCancelled, closed)
    else if p.cancelRequested then (some .clientCancelled, r)
    else match r.secretResponse with
      | some secret => (some (.provided secret), { r with secretResponse := none })
      | none => if expired then (some .timedOut, closed) else (none, r)

def cancellationRequested : Bool :=
  match r.find user requestId with
  | some p => p.cancelRequested
  | none => true

def endInteraction : InteractionRegistry :=
  match r.find user requestId with
  | some _ => { r with current := none, secretResponse := none }
  | none => r

def clearFor : InteractionRegistry :=
  match r.current.filter fun p => sameUser p.user user with
  | some _ => { r with current := none, secretResponse := none }
  | none => r

end InteractionRegistry

/-! ## What the functions do to the pending interaction -/

theorem sameUser_iff {binding : UserContextBinding} {context : UserContext} :
    sameUser binding context = true ↔ binding = context.binding := by
  obtain ⟨uid, session⟩ := binding
  simp [sameUser, UserContext.binding]

theorem PendingInteraction.isFor_iff {p : PendingInteraction} {user : UserContext}
    {requestId : UInt64} :
    p.isFor user requestId = true ↔ p.requestId = requestId ∧ p.user = user.binding := by
  simp [PendingInteraction.isFor, sameUser_iff]

/-- An identifier that is handed out is below the next one. -/
theorem lt_of_not_exhausted {next : UInt64} (h : exhausted next = false) : next < next + 1 := by
  have hMax : next ≠ 0xffffffffffffffff := by
    rintro rfl
    cases h
  have hNat : next.toNat ≠ 0xffffffffffffffff := fun hEq => hMax (UInt64.toNat_inj.mp hEq)
  have hLt := next.toNat_lt
  rw [UInt64.lt_iff_toNat_lt, UInt64.toNat_add, show (1 : UInt64).toNat = 1 from rfl]
  omega

namespace InteractionRegistry

variable {r : InteractionRegistry} {user : UserContext} {requestId : UInt64}
  {p : PendingInteraction} {state : UserInteractionState} {message : Bytes}

theorem find_eq_some : r.find user requestId = some p ↔ r.current = some p ∧ requestId ≠ 0 ∧
    p.requestId = requestId ∧ p.user = user.binding := by
  simp [find, Option.filter_eq_some_iff, PendingInteraction.isFor_iff]

theorem begin_ok {operation : UserInteractionOperation} {relyingPartyId : Bytes} {id : UInt64}
    {r' : InteractionRegistry} (h : r.begin user operation relyingPartyId = .ok (id, r')) :
    r.current = none ∧ id ≠ 0 ∧ r' = { r with
      current := some { requestId := id, user := user.binding, operation, relyingPartyId }
      secretResponse := none
      nextRequestId := id + 1 } := by
  unfold begin at h
  obtain ⟨hCurrent, h⟩ := guard_eq_ok.mp h
  obtain ⟨hExhausted, h⟩ := guard_eq_ok.mp h
  cases h
  refine ⟨by simpa using hCurrent, ?_, rfl⟩
  intro hZero
  exact hExhausted (by simp [exhausted, hZero])

theorem respondToPresence_ok {r' : InteractionRegistry} {approved : Bool}
    (h : r.respondToPresence user requestId approved = .ok r') :
    ∃ p, r.find user requestId = some p ∧ p.state = some .presenceRequired ∧
      p.responseClosed = false ∧ r' = { r with current := some { p with
        presenceResponse := some approved, responseClosed := true } } := by
  unfold respondToPresence at h
  split at h
  · rename_i p hFind
    split at h
    · cases h
    · rename_i hAccepts
      cases h
      obtain ⟨hState, hOpen⟩ := not_or.mp hAccepts
      exact ⟨p, hFind, not_not.mp hState, eq_false_of_ne_true hOpen, rfl⟩
  · cases h

theorem submitSecret_ok {r' : InteractionRegistry} {promptId : UInt64} {secret : Bytes}
    (h : r.submitSecret user requestId promptId secret = .ok r') :
    ∃ p, r.find user requestId = some p ∧ promptId ≠ 0 ∧ p.promptId = promptId ∧
      p.state = some .secretRequired ∧ p.secretSubmitted = false ∧ p.cancelRequested = false ∧
      r' = { r with current := some { p with secretSubmitted := true },
                    secretResponse := some secret } := by
  unfold submitSecret at h
  split at h
  · rename_i p hFind
    split at h
    · cases h
    · rename_i hAccepts
      cases h
      simp only [not_or, not_not, Bool.not_eq_true] at hAccepts
      obtain ⟨hPrompt, hId, hState, hFirst, hOpen⟩ := hAccepts
      exact ⟨p, hFind, hPrompt, hId, hState, hFirst, hOpen, rfl⟩
  · cases h

theorem requestCancel_ok {r' : InteractionRegistry} (h : r.requestCancel user requestId = .ok r') :
    ∃ p, r.find user requestId = some p ∧ p.state.isSome = true ∧ p.responseClosed = false ∧
      r' = { r with current := some { p with
        cancelRequested := true, responseClosed := true } } := by
  unfold requestCancel at h
  split at h
  · rename_i p hFind
    split at h
    · cases h
    · rename_i hAccepts
      cases h
      obtain ⟨hState, hOpen⟩ := not_or.mp hAccepts
      exact ⟨p, hFind, by simpa [Option.isSome_iff_ne_none] using hState,
        eq_false_of_ne_true hOpen, rfl⟩
  · cases h

theorem checkTransition_ok (hValid : validTransition p.state state = true)
    (hMessage : acceptsMessage state = true ∨ message = [])
    (hLength : message.length ≤ Verifier.maxVerificationTextSize)
    (hPrompt : state = .secretRequired → exhausted r.nextPromptId = false) :
    r.checkTransition p state message = .ok () := by
  unfold checkTransition
  rw [if_neg (by simp [hValid]), if_neg, if_neg (by omega), if_neg]
  · rfl
  · rintro ⟨hState, hExhausted⟩
    rw [hPrompt hState] at hExhausted
    exact absurd hExhausted Bool.false_ne_true
  · rintro ⟨hAccepts, hEmpty⟩
    rcases hMessage with h | h
    · exact hAccepts h
    · exact hEmpty (by simp [h])

theorem transition_of_find (hFind : r.find user requestId = some p)
    (hCheck : r.checkTransition p state message = .ok ()) :
    r.transition user requestId state message = .ok (if p.cancelRequested ∧ state ≠ .cancelled then
        ({ shouldPublish := false, promptId := 0 }, r) else r.enter p state message) := by
  unfold transition
  rw [hFind]
  simp only [hCheck]
  by_cases h : p.cancelRequested ∧ state ≠ .cancelled
  · rw [if_pos h, if_pos h]
    rfl
  · rw [if_neg h, if_neg h]
    rfl

theorem enter_terminal (h : isTerminal state = true) : r.enter p state message =
    ({ shouldPublish := true, promptId := 0 },
      { r with current := none, secretResponse := none }) := by
  unfold enter
  rw [if_neg (by rintro rfl; cases h), if_pos h]

theorem enter_prompt : r.enter p .secretRequired message =
    ({ shouldPublish := true, promptId := r.nextPromptId }, { r with
        current := some { p with
          state := some .secretRequired, message, promptId := r.nextPromptId
          secretSubmitted := false }
        secretResponse := none
        nextPromptId := r.nextPromptId + 1 }) := by
  unfold enter
  rw [if_pos rfl]

theorem enter_progress (hSecret : state ≠ .secretRequired) (hOpen : isTerminal state = false) :
    r.enter p state message = ({ shouldPublish := true, promptId := 0 },
      { r with current := some { p with state := some state, message, promptId := 0 } }) := by
  unfold enter
  rw [if_neg hSecret, if_neg (by simp [hOpen])]

/-- What entering a state that is not the last one keeps of the interaction. -/
structure Entered (p p' : PendingInteraction) (state : UserInteractionState) (promptId : UInt64) :
    Prop where
  state : p'.state = some state
  promptId : p'.promptId = promptId
  requestId : p'.requestId = p.requestId
  user : p'.user = p.user
  presenceResponse : p'.presenceResponse = p.presenceResponse
  cancelRequested : p'.cancelRequested = p.cancelRequested
  responseClosed : p'.responseClosed = p.responseClosed

theorem enter_open (r : InteractionRegistry) (p : PendingInteraction) (message : Bytes)
    (h : isTerminal state = false) : ∃ promptId p' r',
    r.enter p state message = ({ shouldPublish := true, promptId }, r') ∧
    r'.current = some p' ∧ Entered p p' state promptId ∧
    (r'.secretResponse = none ∨ r'.secretResponse = r.secretResponse) ∧
    (state = .secretRequired → promptId = r.nextPromptId) := by
  unfold enter
  by_cases hSecret : state = .secretRequired
  · rw [if_pos hSecret]
    exact ⟨_, _, _, rfl, rfl, ⟨rfl, rfl, rfl, rfl, rfl, rfl, rfl⟩, .inl rfl, fun _ => rfl⟩
  · rw [if_neg hSecret, if_neg (by simp [h])]
    exact ⟨_, _, _, rfl, rfl, ⟨rfl, rfl, rfl, rfl, rfl, rfl, rfl⟩, .inr rfl,
      fun hState => absurd hState hSecret⟩

end InteractionRegistry

end VAuth.Dbus
