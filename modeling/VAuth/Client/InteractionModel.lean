import Mathlib.Data.List.Induction
import VAuth.Interaction.User

/-!
# Interactions as the agent sees them

`InteractionTracker` (`interaction_model.cpp`) decides which of the signals of the daemon the agent
shows. It remembers the request that is open and the prompt that is shown, and nothing of those
before: a request that was closed can be started again, and a prompt that was left can be shown
again. The operation and the texts of an event, which the tracker does not read, are left out.
-/

namespace VAuth.Client

inductive InteractionState where
  | presenceRequired
  | presenceApproved
  | presenceDenied
  | verificationStarted
  | verificationInformation
  | verificationError
  | secretRequired
  | verificationSucceeded
  | verificationFailed
  | cancelled
  | timedOut
deriving DecidableEq

def parseInteractionState (state : String) : Option InteractionState :=
  if state = "presence_required" then some .presenceRequired
  else if state = "presence_approved" then some .presenceApproved
  else if state = "presence_denied" then some .presenceDenied
  else if state = "verification_started" then some .verificationStarted
  else if state = "verification_information" then some .verificationInformation
  else if state = "verification_error" then some .verificationError
  else if state = "secret_required" then some .secretRequired
  else if state = "verification_succeeded" then some .verificationSucceeded
  else if state = "verification_failed" then some .verificationFailed
  else if state = "cancelled" then some .cancelled
  else if state = "timed_out" then some .timedOut
  else none

def isTerminal : InteractionState → Bool
  | .presenceApproved | .presenceDenied | .verificationSucceeded | .verificationFailed
  | .cancelled | .timedOut => true
  | .presenceRequired | .verificationStarted | .verificationInformation | .verificationError
  | .secretRequired => false

structure InteractionEvent where
  generation : UInt64
  requestId : UInt64
  promptId : UInt64
  state : InteractionState
deriving DecidableEq

structure InteractionTracker where
  generation : UInt64
  activeRequestId : Option UInt64 := none
  activePromptId : UInt64 := 0
deriving DecidableEq

def startsInteraction (state : InteractionState) : Bool :=
  state == .presenceRequired || state == .verificationStarted

namespace InteractionTracker

def new (generation : UInt64) : InteractionTracker := { generation }

/-- The end of `accept`: a terminal event closes the request. -/
def closeIfTerminal (tracker : InteractionTracker) (event : InteractionEvent) :
    InteractionTracker :=
  if isTerminal event.state then { tracker with activeRequestId := none, activePromptId := 0 }
  else tracker

/-- The part of `accept` that follows the check of the request. -/
def acceptPrompt (tracker : InteractionTracker) (event : InteractionEvent) :
    Bool × InteractionTracker :=
  if event.state = .secretRequired then
    if event.promptId = tracker.activePromptId then (false, tracker)
    else (true, closeIfTerminal { tracker with activePromptId := event.promptId } event)
  else (true, closeIfTerminal { tracker with activePromptId := 0 } event)

/-- The answer and the tracker afterwards. -/
def accept (tracker : InteractionTracker) (event : InteractionEvent) :
    Bool × InteractionTracker :=
  if event.generation ≠ tracker.generation ∨ event.requestId = 0 then (false, tracker)
  else if decide (event.state = .secretRequired) ≠ decide (event.promptId ≠ 0) then
    (false, tracker)
  else if startsInteraction event.state then
    if tracker.activeRequestId.any (· ≠ event.requestId) then (false, tracker)
    else acceptPrompt { tracker with activeRequestId := some event.requestId } event
  else if tracker.activeRequestId ≠ some event.requestId then (false, tracker)
  else acceptPrompt tracker event

def isActive (tracker : InteractionTracker) (requestId : UInt64) : Bool :=
  tracker.activeRequestId == some requestId

end InteractionTracker

/-! ## One event -/

section

variable {tracker : InteractionTracker} {event : InteractionEvent}

/-- The event belongs to the tracker's registration, and has a prompt exactly if it asks for a
secret. -/
structure WellFormed (tracker : InteractionTracker) (event : InteractionEvent) : Prop where
  generation : event.generation = tracker.generation
  requestId : event.requestId ≠ 0
  promptId : event.state = .secretRequired ↔ event.promptId ≠ 0

/-- What `accept` can do. -/
inductive Acceptance (tracker : InteractionTracker) (event : InteractionEvent) :
    Bool × InteractionTracker → Prop
  | refused : Acceptance tracker event (false, tracker)
  | started (hStarts : startsInteraction event.state = true)
      (hFree : ∀ r, tracker.activeRequestId = some r → r = event.requestId) :
      Acceptance tracker event
        (true, { tracker with activeRequestId := some event.requestId, activePromptId := 0 })
  | progressed (hStarts : startsInteraction event.state = false)
      (hTerminal : isTerminal event.state = false) (hState : event.state ≠ .secretRequired)
      (hActive : tracker.activeRequestId = some event.requestId) :
      Acceptance tracker event (true, { tracker with activePromptId := 0 })
  | prompted (hState : event.state = .secretRequired)
      (hActive : tracker.activeRequestId = some event.requestId)
      (hPrompt : event.promptId ≠ tracker.activePromptId) :
      Acceptance tracker event (true, { tracker with activePromptId := event.promptId })
  | closed (hTerminal : isTerminal event.state = true)
      (hActive : tracker.activeRequestId = some event.requestId) :
      Acceptance tracker event (true, { tracker with activeRequestId := none, activePromptId := 0 })

theorem acceptPrompt_other (hState : event.state ≠ .secretRequired) : tracker.acceptPrompt event =
      (true, InteractionTracker.closeIfTerminal { tracker with activePromptId := 0 } event) := by
  rw [InteractionTracker.acceptPrompt, if_neg hState]

theorem accept_cases (tracker : InteractionTracker) (event : InteractionEvent) :
    Acceptance tracker event (tracker.accept event) := by
  unfold InteractionTracker.accept
  split
  · exact .refused
  split
  · exact .refused
  split
  · -- a state that starts an interaction is neither a prompt nor terminal
    rename_i hStarts
    split
    · exact .refused
    rename_i hOther
    have hFree : ∀ r, tracker.activeRequestId = some r → r = event.requestId := by
      intro r hr
      simpa [hr] using hOther
    have hState : event.state = .presenceRequired ∨ event.state = .verificationStarted := by
      simpa [startsInteraction] using hStarts
    have hTaken := Acceptance.started hStarts hFree
    rcases hState with hState | hState
    · rw [acceptPrompt_other (by rw [hState]; decide), InteractionTracker.closeIfTerminal, hState]
      exact hTaken
    · rw [acceptPrompt_other (by rw [hState]; decide), InteractionTracker.closeIfTerminal, hState]
      exact hTaken
  · rename_i hStarts
    split
    · exact .refused
    rename_i hOther
    have hActive : tracker.activeRequestId = some event.requestId := not_not.mp hOther
    by_cases hState : event.state = .secretRequired
    · rw [InteractionTracker.acceptPrompt, if_pos hState]
      split
      · exact .refused
      · rename_i hPrompt
        have hTaken := Acceptance.prompted hState hActive hPrompt
        rw [InteractionTracker.closeIfTerminal, hState]
        exact hTaken
    · rw [acceptPrompt_other hState, InteractionTracker.closeIfTerminal]
      split
      · rename_i hTerminal
        exact .closed hTerminal hActive
      · rename_i hTerminal
        exact .progressed (by simpa using hStarts) (by simpa using hTerminal) hState hActive

theorem accept_expected (hForm : WellFormed tracker event)
    (hRequest : (startsInteraction event.state = true ∧ tracker.activeRequestId = none) ∨
      (tracker.activeRequestId = some event.requestId))
    (hPrompt : event.state = .secretRequired → event.promptId ≠ tracker.activePromptId) :
    tracker.accept event = (true, { tracker with
      activeRequestId := if isTerminal event.state then none else some event.requestId
      activePromptId := event.promptId }) := by
  have hPlain : event.state ≠ .secretRequired → event.promptId = 0 := fun hState =>
    not_not.mp fun hSet => hState (hForm.promptId.mpr hSet)
  have hKind : ¬ decide (event.state = .secretRequired) ≠ decide (event.promptId ≠ 0) :=
    not_not.mpr (decide_eq_decide.mpr hForm.promptId)
  rw [InteractionTracker.accept, if_neg (not_or.mpr ⟨not_not.mpr hForm.generation,
    hForm.requestId⟩), if_neg hKind]
  by_cases hStarts : startsInteraction event.state = true
  · have hState : event.state = .presenceRequired ∨ event.state = .verificationStarted := by
      simpa [startsInteraction] using hStarts
    have hFree : ¬ tracker.activeRequestId.any (· ≠ event.requestId) = true := by
      rcases hRequest with ⟨-, hNone⟩ | hSame
      · simp [hNone]
      · simp [hSame]
    rw [if_pos hStarts, if_neg hFree]
    rcases hState with hState | hState
    · rw [acceptPrompt_other (by rw [hState]; decide), hPlain (by rw [hState]; decide),
        InteractionTracker.closeIfTerminal, hState]
      rfl
    · rw [acceptPrompt_other (by rw [hState]; decide), hPlain (by rw [hState]; decide),
        InteractionTracker.closeIfTerminal, hState]
      rfl
  · have hSame : tracker.activeRequestId = some event.requestId :=
      hRequest.resolve_left fun hBoth => hStarts hBoth.1
    rw [if_neg hStarts, if_neg (not_not.mpr hSame)]
    by_cases hState : event.state = .secretRequired
    · rw [InteractionTracker.acceptPrompt, if_pos hState, if_neg (hPrompt hState),
        InteractionTracker.closeIfTerminal, hState, ← hSame]
      rfl
    · rw [acceptPrompt_other hState, InteractionTracker.closeIfTerminal, hPlain hState, ← hSame]
      split <;> rfl

theorem accept_generation : (tracker.accept event).2.generation = tracker.generation := by
  have hStep := accept_cases tracker event
  generalize tracker.accept event = result at hStep
  cases hStep <;> rfl

end

/-! ## Sequences of events -/

namespace InteractionTracker

/-- The tracker after some events. -/
def given (tracker : InteractionTracker) (events : List InteractionEvent) : InteractionTracker :=
  events.foldl (fun tracker event => (tracker.accept event).2) tracker

/-- The event is accepted after the others. -/
def Accepts (tracker : InteractionTracker) (past : List InteractionEvent)
    (event : InteractionEvent) : Prop :=
  ((tracker.given past).accept event).1 = true

/-- The events that are accepted, oldest first. -/
def accepted (tracker : InteractionTracker) : List InteractionEvent → List InteractionEvent
  | [] => []
  | event :: rest =>
    if (tracker.accept event).1 then event :: (tracker.accept event).2.accepted rest
    else (tracker.accept event).2.accepted rest

section

variable (tracker : InteractionTracker)
include tracker

theorem given_append (past rest : List InteractionEvent) :
    tracker.given (past ++ rest) = (tracker.given past).given rest :=
  List.foldl_append

theorem given_cons (event : InteractionEvent) (rest : List InteractionEvent) :
    tracker.given (event :: rest) = (tracker.accept event).2.given rest := rfl

theorem given_snoc (past : List InteractionEvent) (event : InteractionEvent) :
    tracker.given (past ++ [event]) = ((tracker.given past).accept event).2 := by
  rw [given_append]
  rfl

theorem given_generation (events : List InteractionEvent) :
    (tracker.given events).generation = tracker.generation := by
  induction events generalizing tracker with
  | nil => rfl
  | cons event events ih => rw [given_cons, ih, accept_generation]

end

variable {tracker : InteractionTracker} {event : InteractionEvent}

end InteractionTracker

/-! ## Closed requests and prompts -/

open InteractionTracker

end VAuth.Client
