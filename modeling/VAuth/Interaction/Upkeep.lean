import VAuth.Dbus.Histories
import VAuth.Interaction.Stage

/-!
# What the bodies of the ceremonies keep

A ceremony publishes states, asks whether its user is still registered, and otherwise takes steps
that neither queue an event nor move the interaction to another state. What these three keep, the
whole body keeps.
-/

namespace VAuth

open Proc Verifier Dbus Dbus.AgentService

/-! ## What publishing depends on -/

/-- The events that were queued, oldest first. -/
def queuedEvents (journal : List Note) : List StateEvent :=
  journal.filterMap fun
    | .queued event => some event
    | _ => none

/-- What the answers of the agent do not change in an interaction. -/
structure Shown where
  requestId : UInt64
  user : UserContextBinding
  state : Option UserInteractionState
  promptId : UInt64
deriving DecidableEq

def shown (p : PendingInteraction) : Shown :=
  { requestId := p.requestId, user := p.user, state := p.state, promptId := p.promptId }

/-- The service without the answers of the agent. -/
structure Seen where
  registry : AgentRegistry
  failure : Option String
  events : List StateEvent
  current : Option Shown
  nextPromptId : UInt64
deriving DecidableEq

def seen (s : AgentService) : Seen where
  registry := s.registry
  failure := s.failure
  events := queuedEvents s.journal
  current := s.interactions.current.map shown
  nextPromptId := s.interactions.nextPromptId

theorem queuedEvents_note (journal : List Note) (n : Note) :
    queuedEvents (journal ++ [n]) = queuedEvents journal ++ queuedEvents [n] :=
  List.filterMap_append

theorem mem_queuedEvents {event : StateEvent} {journal : List Note} :
    event ∈ queuedEvents journal ↔ .queued event ∈ journal := by
  refine List.mem_filterMap.trans ⟨?_, fun hMem => ⟨_, hMem, rfl⟩⟩
  rintro ⟨n, hMem, hEvent⟩
  cases n with
  | queued e =>
    cases hEvent
    exact hMem
  | _ => cases hEvent

theorem seen_answered {s s' : AgentService} (h : Answered s s') : seen s' = seen s := by
  cases h with
  | presence approved hCurrent => simp [seen, hCurrent, shown]
  | secret hCurrent => simp [seen, hCurrent, shown]
  | cancelled hCurrent =>
    simp only [seen, note, queuedEvents_note, hCurrent]
    simp [queuedEvents, shown]

theorem seen_presenceRound (s : AgentService) (user : UserContext) (requestId : UInt64)
    (stop expired : Bool) :
    seen { s with interactions := (s.interactions.presenceRound user requestId stop expired).2 } =
      seen s := by
  have hRound := InteractionRegistry.presenceRound_cases s.interactions user requestId stop expired
  generalize s.interactions.presenceRound user requestId stop expired = round at hRound
  cases hRound with
  | stopped hCurrent => simp [seen, hCurrent, shown]
  | expired hCurrent => simp [seen, hCurrent, shown]
  | _ => rfl

theorem seen_secretRound (s : AgentService) (user : UserContext) (requestId promptId : UInt64)
    (stop expired : Bool) :
    seen { s with interactions :=
      (s.interactions.secretRound user requestId promptId stop expired).2 } = seen s := by
  have hRound :=
    InteractionRegistry.secretRound_cases s.interactions user requestId promptId stop expired
  generalize s.interactions.secretRound user requestId promptId stop expired = round at hRound
  cases hRound with
  | stopped hCurrent => simp [seen, hCurrent, shown]
  | expired hCurrent => simp [seen, hCurrent, shown]
  | _ => rfl

/-! ## From the parts to the bodies -/

/-- The parts of a ceremony keep `I`. -/
structure Upholds (C : Setting AgentService Dbus.Input) (I : AgentService → Prop)
    (user : UserContext) (active : UserInteractionRequest) : Prop where
  mayCut : C.mayCut
  calm : ∀ {α : Type} {f : Dbus.Input → AgentService → Except Exn α × AgentService},
    (∀ i s, seen (f i s).2 = seen s) → Maintains C I (Proc.atomically f)
  context : Maintains C I (contextIsStillCurrent user)
  publish : ∀ (state : UserInteractionState) {message : Bytes}, Displayable message →
    Maintains C I (publishState user active state message)

namespace Upholds

variable {C : Setting AgentService Dbus.Input} {I : AgentService → Prop} {user : UserContext}
  {active : UserInteractionRequest} {α : Type}

theorem maintains_throw {e : Exn} : Maintains C I (throw e : AgentProc α) := fun _ h => h

theorem maintains_ofExcept (r : Except Exn α) : Maintains C I (Proc.ofExcept r : AgentProc α) :=
  fun _ h => wp_ofExcept.mpr ⟨fun _ _ => h, fun _ _ => h⟩

variable (h : Upholds C I user active)
include h

theorem observe (f : Dbus.Input → AgentService → Except Exn α) : Maintains C I (Proc.observe f) :=
  h.calm fun _ _ => rfl

theorem read (f : AgentService → α) : Maintains C I (Proc.read f : AgentProc α) := h.observe _

theorem publishPlain (state : UserInteractionState) :
    Maintains C I (publishState user active state []) :=
  h.publish state ⟨"", rfl⟩

/-! ### Presence -/

theorem waitForPresence (rounds : Nat) : Maintains C I (waitForPresence rounds user active) := by
  refine maintains_bind (h.observe _) fun _ => maintains_bind ?_ fun result => ?_
  · exact maintains_loop h.mayCut (fun _ => h.calm fun i s => seen_presenceRound s _ _ _ _)
      rounds ()
  · cases result <;> exact fun _ h => h

theorem presenceBody (rounds : Nat) : Maintains C I (presenceBody rounds user active) := by
  refine maintains_bind (h.publishPlain _) fun _ => maintains_tryCatch ?_ fun e => ?_
  · refine maintains_bind (h.waitForPresence rounds) fun response => ?_
    unfold concludePresence
    split
    · exact maintains_bind (h.publishPlain _) fun _ => maintains_done _
    · dsimp only
      split
      · exact maintains_bind h.context fun approved =>
          maintains_bind (h.publishPlain _) fun _ => maintains_done _
      · exact maintains_bind (maintains_done _) fun approved =>
          maintains_bind (h.publishPlain _) fun _ => maintains_done _
  · cases e <;> first
      | exact maintains_throw
      | exact maintains_bind (h.publishPlain _) fun _ => maintains_done _
      | exact maintains_bind (h.publishPlain _) fun _ => maintains_throw

/-! ### Verification -/

theorem cancellationRequested : Maintains C I (AgentService.cancellationRequested user active) := by
  refine maintains_bind (h.read _) fun failed => ?_
  split
  · exact maintains_done _
  refine maintains_bind (h.read _) fun isCurrent => ?_
  split
  · exact maintains_done _
  · exact h.read _

theorem statusCallback {status : VerificationStatus} (hMessage : Displayable status.message) :
    Maintains C I (statusCallback user active status) :=
  maintains_bind (h.publish _ hMessage) fun _ => maintains_done _

theorem clockExpired : Maintains C I clockExpired := by
  refine h.calm fun i s => ?_
  dsimp only
  split <;> rfl

theorem secretCallback (rounds : Nat) {required : SecretRequired}
    (hPrompt : Displayable required.prompt) :
    Maintains C I (secretCallback rounds user active required) := by
  refine maintains_bind h.clockExpired fun isExpired => ?_
  split
  · exact maintains_throw
  refine maintains_bind (h.publish _ hPrompt) fun promptId => ?_
  split
  · refine maintains_bind h.cancellationRequested fun cancelled => ?_
    split <;> exact maintains_throw
  · refine maintains_bind (h.observe _) fun _ => maintains_bind ?_ fun result => ?_
    · exact maintains_loop h.mayCut (fun _ => h.calm fun i s => seen_secretRound s _ _ _ _ _)
        rounds ()
    · cases result <;> exact fun _ h => h

theorem sendToVerifier (message : VerifierMessage) : Maintains C I (sendToVerifier message) := by
  refine h.calm fun i s => ?_
  split
  · rfl
  · dsimp only
    split <;> rfl

theorem sendCancel (rounds : Nat) (conversation : VerifierConversationState) :
    Maintains C I ((verifierClient rounds user active).sendCancel conversation) := by
  unfold VerifierClient.sendCancel
  split
  · exact maintains_done _
  · exact maintains_tryCatch (h.sendToVerifier _) fun _ => maintains_done _

theorem checkCancelled (rounds : Nat) (conversation : VerifierConversationState) :
    Maintains C I ((verifierClient rounds user active).checkCancelled conversation) := by
  refine maintains_bind (h.observe _) fun stopped => ?_
  split
  · exact maintains_bind (h.sendCancel rounds _) fun _ => maintains_throw
  refine maintains_bind h.cancellationRequested fun cancelled => ?_
  split
  · exact maintains_bind (h.sendCancel rounds _) fun _ => maintains_throw
  · exact maintains_done _

theorem handleMessage (rounds : Nat) {message : VerifierMessage}
    (hMessage : Displayable message.displayText) (conversation : VerifierConversationState) :
    Maintains C I ((verifierClient rounds user active).handleMessage message conversation) := by
  cases message with
  | status status => exact maintains_bind (h.statusCallback hMessage) fun _ => maintains_done _
  | secretRequired required =>
    refine maintains_bind (h.secretCallback rounds hMessage) fun secret => ?_
    refine maintains_bind (h.checkCancelled rounds _) fun _ => ?_
    refine maintains_bind (h.sendToVerifier _) fun _ => ?_
    exact maintains_bind (maintains_ofExcept _) fun _ => maintains_done _
  | complete result => exact maintains_done _
  | _ => exact maintains_throw

/-- A message that was received can be shown. -/
theorem wp_receive (conversation : VerifierConversationState) {s : AgentService} (hs : I s) :
    wp C (fun r s' => I s' ∧ Displayable r.1.displayText) (fun _ => I)
      (receiveFromVerifier conversation) s := by
  have hKeeps : Maintains C I (receiveFromVerifier conversation) := by
    refine h.calm fun i s => ?_
    dsimp only
    split <;> rfl
  refine wp_atomically_result (hKeeps s hs) fun i s' r hr => ?_
  obtain ⟨message, hMessage, hr⟩ := bind_eq_ok.mp hr
  obtain ⟨_, -, hr⟩ := bind_eq_ok.mp hr
  cases hr
  exact receiveVerifierMessage_displayText hMessage

theorem serviceRound (rounds : Nat) (conversation : VerifierConversationState) :
    Maintains C I ((verifierClient rounds user active).serviceRound conversation) := by
  have hPoll : Maintains C I pollVerifier := by
    refine h.calm fun i s => ?_
    split <;> rfl
  refine maintains_bind (h.checkCancelled rounds _) fun _ => ?_
  refine maintains_bind h.clockExpired fun isExpired => ?_
  split
  · exact maintains_bind (h.sendCancel rounds _) fun _ => maintains_throw
  refine maintains_bind hPoll fun readiness => ?_
  cases readiness with
  | nothing => exact maintains_done _
  | hungUp => exact maintains_throw
  | readable =>
    intro s hs
    refine wp_seq (h.wp_receive _ hs) ?_ fun _ _ h => h
    rintro ⟨message, conversation⟩ s' ⟨hs', hMessage⟩
    exact h.handleMessage rounds hMessage _ s' hs'

theorem runVerifierService (rounds : Nat) (start : StartVerification) :
    Maintains C I ((verifierClient rounds user active).runVerifierService rounds start) := by
  have hConnect : Maintains C I connectToVerifier := by
    refine h.calm fun i s => ?_
    split <;> rfl
  refine maintains_bind (h.observe _) fun stopped => ?_
  split
  · exact maintains_throw
  refine maintains_bind h.cancellationRequested fun cancelled => ?_
  split
  · exact maintains_throw
  refine maintains_bind hConnect fun _ => maintains_bind (h.sendToVerifier _) fun _ => ?_
  exact maintains_bind (maintains_ofExcept _) fun conversation =>
    maintains_loop h.mayCut (fun c => h.serviceRound rounds c) rounds conversation

theorem verificationBody (rounds : Nat) : Maintains C I (verificationBody rounds user active) := by
  refine maintains_bind (h.publishPlain _) fun _ => maintains_tryCatch ?_ fun e => ?_
  · refine maintains_bind ?_ fun result => ?_
    · unfold authenticateUser
      split
      · exact maintains_throw
      · exact h.runVerifierService rounds _
    · cases result with
      | success =>
        refine maintains_bind h.context fun isCurrent => ?_
        split
        · exact maintains_bind (h.publishPlain _) fun _ => maintains_throw
        · exact maintains_bind (h.publishPlain _) fun _ => maintains_done _
      | denied => exact maintains_bind (h.publishPlain _) fun _ => maintains_done _
      | error => exact maintains_bind (h.publishPlain _) fun _ => maintains_throw
  · cases e <;> first
      | exact maintains_throw
      | exact maintains_bind (h.publishPlain _) fun _ => maintains_done _
      | exact maintains_bind (h.publishPlain _) fun _ => maintains_throw

end Upholds

end VAuth
