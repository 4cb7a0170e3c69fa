import VAuth.Dbus.Histories
import VAuth.Dbus.Registration

/-!
# Answers are bound to registrations

A call of the agent is accepted only for the registration for which the pending interaction was
begun, and only while this registration has never ceased to be current. The D-Bus thread looks at
the registration, at the session and at the interactions in separate steps, and either thread
drops a registration by clearing two objects one after the other.

`Change` says once what a step of either thread can do. The worker drops a registration only when
no interaction of it is pending, and it begins one for a registration that is current or that the
D-Bus thread itself has dropped since; this is what the D-Bus thread relies on between its look at
the registration and its last step.
-/

namespace VAuth.Dbus

open Proc

/-! ## Histories of registrations -/

def AgentEvent.isRegistration : AgentEvent → Bool
  | .registered _ => true
  | .unregistered _ _ => true
  | _ => false

/-- The registration that is current after an event. -/
def standingAfter (current : Option UserContext) : AgentEvent → Option UserContext
  | .registered context => some context
  | .unregistered _ _ => none
  | _ => current

def standing (history : List AgentEvent) : Option UserContext :=
  history.foldl standingAfter none

def generationOf (user : UserContextBinding) : Option UInt64 :=
  user.session.map (·.generation)

def GenerationBelow (next : UInt64) (user : UserContextBinding) : Prop :=
  ∃ g, generationOf user = some g ∧ g < next

/-- The call is from the registration for which the interaction was begun, and this has been
current ever since. -/
def BoundAnswer (past : List AgentEvent) (call : AgentService.AgentCall)
    (user : UserContextBinding) (requestId : UInt64) : Prop :=
  ∃ context session before after, context.binding = user ∧ context.session = some session ∧
    session.interactionAgentId = call.sender ∧ session.generation = call.generation ∧
    past = before ++ .registered context :: after ∧
    (∀ event ∈ after, event.isRegistration = false) ∧ .begun user requestId ∈ after

/-- The generation is that of the latest registration, which is the peer's. -/
def RepliedFor (past : List AgentEvent) (peer : Except Exn AgentPeer) (generation : UInt64) : Prop :=
  ∃ agent context before after, peer = .ok agent ∧ samePeer context agent = true ∧
    generationOf context.binding = some generation ∧
    past = before ++ .registered context :: after ∧ ∀ other, .registered other ∉ after

/-- A registration has a generation above those of all earlier ones. -/
def NewGeneration (past : List AgentEvent) (context : UserContext) : Prop :=
  ∃ g, generationOf context.binding = some g ∧
    ∀ earlier, .registered earlier ∈ past → GenerationBelow g earlier.binding

/-- What holds of an event after the events before it. -/
def Lawful (past : List AgentEvent) : AgentEvent → Prop
  | .registered context => NewGeneration past context
  | .replied peer generation => RepliedFor past peer generation
  | .unregistered _ context => standing past = some context
  | .begun user _ => ∃ context, .registered context ∈ past ∧ context.binding = user
  | .accepted call user requestId => BoundAnswer past call user requestId

section Histories

variable {history : List AgentEvent} {event : AgentEvent} {context other : UserContext}
  {party : Party}

theorem standing_snoc : standing (history ++ [event]) = standingAfter (standing history) event := by
  simp [standing, List.foldl_append]

theorem mem_of_mem_snoc (h : .registered context ∈ history ++ [event])
    (hOther : event ≠ .registered context) : .registered context ∈ history := by
  rcases List.mem_append.mp h with hOld | hNew
  · exact hOld
  · exact absurd (List.mem_singleton.mp hNew).symm hOther

theorem standingAfter_of_not (h : event.isRegistration = false) (current : Option UserContext) :
    standingAfter current event = current := by
  cases event with
  | registered | unregistered => cases h
  | begun | accepted | replied => rfl

theorem exists_since (h : standing history = some context) : ∃ before after,
    history = before ++ .registered context :: after ∧
      ∀ event ∈ after, event.isRegistration = false := by
  induction history using List.reverseRecOn with
  | nil => cases h
  | append_singleton history event ih =>
    rw [standing_snoc] at h
    cases hEvent : event.isRegistration with
    | true =>
      cases event with
      | registered c =>
        cases h
        exact ⟨history, [], rfl, nofun⟩
      | unregistered => cases h
      | begun | accepted | replied => cases hEvent
    | false =>
      rw [standingAfter_of_not hEvent] at h
      obtain ⟨before, after, rfl, hAfter⟩ := ih h
      refine ⟨before, after ++ [event], by simp, fun e he => ?_⟩
      rcases List.mem_append.mp he with hOld | hNew
      · exact hAfter e hOld
      · rw [List.mem_singleton.mp hNew]
        exact hEvent

theorem registered_of_standing (h : standing history = some context) :
    .registered context ∈ history := by
  obtain ⟨before, after, rfl, -⟩ := exists_since h
  simp

theorem registered_of_unregistered (hLawful : AtEach Lawful history)
    (h : .unregistered party context ∈ history) : .registered context ∈ history := by
  obtain ⟨past, rest, rfl⟩ := List.append_of_mem h
  have hStanding : standing past = some context := hLawful past _ rest rfl
  exact List.mem_append_left _ (registered_of_standing hStanding)

theorem NewGeneration.binding_ne {past : List AgentEvent} (h : NewGeneration past context)
    (hEarlier : .registered other ∈ past) : context.binding ≠ other.binding := by
  obtain ⟨g, hg, hAll⟩ := h
  obtain ⟨g', hg', hLt⟩ := hAll other hEarlier
  intro hSame
  rw [hSame, hg'] at hg
  cases hg
  exact UInt64.lt_irrefl _ hLt

/-- A registration that was dropped is not the current one. -/
theorem binding_ne_of_unregistered (hLawful : AtEach Lawful history)
    (hGone : .unregistered party other ∈ history) (h : standing history = some context) :
    context.binding ≠ other.binding := by
  obtain ⟨before, after, rfl, hAfter⟩ := exists_since h
  have hNew : NewGeneration before context := hLawful before _ after rfl
  refine hNew.binding_ne ?_
  rcases List.mem_append.mp hGone with hBefore | hRest
  · obtain ⟨past, rest, rfl⟩ := List.append_of_mem hBefore
    have hStanding : standing past = some other :=
      hLawful past (.unregistered party other) (rest ++ .registered context :: after) (by simp)
    exact List.mem_append_left _ (registered_of_standing hStanding)
  · rcases List.mem_cons.mp hRest with hSame | hLater
    · cases hSame
    · cases hAfter _ hLater

/-- A registration is dropped only once. -/
theorem binding_ne_of_droppers {party' : Party} (hLawful : AtEach Lawful history)
    (h : .unregistered party context ∈ history) (h' : .unregistered party' other ∈ history)
    (hParties : AgentEvent.unregistered party context ≠ .unregistered party' other) :
    other.binding ≠ context.binding := by
  induction history using List.reverseRecOn with
  | nil => cases h
  | append_singleton history event ih =>
    obtain ⟨hPast, hEvent⟩ := hLawful.init
    rcases List.mem_append.mp h with hOld | hNew
    · rcases List.mem_append.mp h' with hOld' | hNew'
      · exact ih hPast hOld hOld'
      · rw [← List.mem_singleton.mp hNew'] at hEvent
        exact binding_ne_of_unregistered hPast hOld hEvent
    · rw [← List.mem_singleton.mp hNew] at hEvent
      rcases List.mem_append.mp h' with hOld' | hNew'
      · exact (binding_ne_of_unregistered hPast hOld' hEvent).symm
      · exact absurd ((List.mem_singleton.mp hNew).trans (List.mem_singleton.mp hNew').symm)
          hParties

theorem boundAnswer_of_standing {call : AgentService.AgentCall} {session : UserSessionContext}
    {requestId : UInt64} (hLawful : AtEach Lawful history) (h : standing history = some context)
    (hSession : context.session = some session) (hSender : session.interactionAgentId = call.sender)
    (hGeneration : session.generation = call.generation)
    (hBegun : .begun context.binding requestId ∈ history) :
    BoundAnswer history call context.binding requestId := by
  obtain ⟨before, after, rfl, hAfter⟩ := exists_since h
  refine ⟨context, session, before, after, rfl, hSession, hSender, hGeneration, rfl, hAfter, ?_⟩
  rcases List.mem_append.mp hBegun with hBefore | hRest
  · -- an earlier registration would have the same binding
    obtain ⟨past, rest, rfl⟩ := List.append_of_mem hBefore
    obtain ⟨other, hOther, hSame⟩ :=
      hLawful past (.begun context.binding requestId) (rest ++ .registered context :: after)
        (by simp)
    have hNew : NewGeneration (past ++ .begun context.binding requestId :: rest) context :=
      hLawful _ _ after rfl
    exact absurd hSame.symm (hNew.binding_ne (List.mem_append_left _ hOther))
  · rcases List.mem_cons.mp hRest with hSame | hLater
    · cases hSame
    · exact hLater

end Histories

/-! ## What a step can do -/

/-- The pending interaction, if there is one afterwards, is the one that was pending. -/
def Narrows (s s' : AgentService) : Prop :=
  ∀ p', s'.interactions.current = some p' →
    ∃ p, s.interactions.current = some p ∧ p'.user = p.user ∧ p'.requestId = p.requestId

/-- The user's registration is current, or the D-Bus thread has dropped it. -/
def Checked (user : UserContextBinding) (o : Observed) : Prop :=
  (∃ context, o.service.registry.current = some context ∧ context.binding = user) ∨
    ∃ context, .unregistered .bus context ∈ o.history ∧ context.binding = user

/-- No interaction of this user is pending. -/
def NonePending (user : UserContextBinding) (s : AgentService) : Prop :=
  ∀ p, s.interactions.current = some p → p.user ≠ user

/-- Everything a step of a thread can do, with what is noted of it. -/
inductive Change : Party → Observed → Observed → Prop
  | kept {party : Party} {o : Observed} {s : AgentService}
      (hRegistry : s.registry = o.service.registry) (hNarrows : Narrows o.service s) :
      Change party o { o with service := s }
  | registered {o : Observed} {s : AgentService} {context : UserContext}
      (hNone : o.service.registry.current = none)
      (hFresh : exhausted o.service.registry.nextGeneration = false)
      (hGeneration : generationOf context.binding = some o.service.registry.nextGeneration)
      (hRegistry : s.registry = { current := some context
                                  nextGeneration := o.service.registry.nextGeneration + 1 })
      (hSame : s.interactions = o.service.interactions) :
      Change .bus o { service := s, history := o.history ++ [.registered context] }
  | unregistered {party : Party} {o : Observed} {s : AgentService} {context : UserContext}
      (hCurrent : o.service.registry.current = some context)
      (hRegistry : s.registry = { o.service.registry with current := none })
      (hSame : s.interactions = o.service.interactions)
      (hCleared : party = .worker → NonePending context.binding o.service) :
      Change party o { service := s, history := o.history ++ [.unregistered party context] }
  | begun {o : Observed} {s : AgentService} {p : PendingInteraction}
      (hRegistry : s.registry = o.service.registry)
      (hPending : s.interactions.current = some p) (hChecked : Checked p.user o) :
      Change .worker o { service := s, history := o.history ++ [.begun p.user p.requestId] }
  | accepted {o : Observed} {s : AgentService} {call : AgentService.AgentCall}
      {p : PendingInteraction} (hRegistry : s.registry = o.service.registry)
      (hNarrows : Narrows o.service s)
      (hBound : BoundAnswer o.history call p.user p.requestId) :
      Change .bus o { service := s, history := o.history ++ [.accepted call p.user p.requestId] }
  | replied {o : Observed} {peer : Except Exn AgentPeer} {generation : UInt64}
      (hReply : RepliedFor o.history peer generation) :
      Change .bus o { o with history := o.history ++ [.replied peer generation] }

/-- The notes agree with the state. -/
structure Chronicle (o : Observed) : Prop where
  standing : standing o.history = o.service.registry.current
  lawful : AtEach Lawful o.history
  generations : ∀ context, .registered context ∈ o.history →
    GenerationBelow o.service.registry.nextGeneration context.binding
  pending : ∀ p, o.service.interactions.current = some p → .begun p.user p.requestId ∈ o.history

section Change

variable {party : Party} {o o' : Observed} {user : UserContextBinding}

theorem Checked.registered (h : Checked user o) (hRecord : Chronicle o) :
    ∃ context, .registered context ∈ o.history ∧ context.binding = user := by
  rcases h with ⟨context, hCurrent, hUser⟩ | ⟨context, hGone, hUser⟩
  · exact ⟨context, registered_of_standing (hRecord.standing.trans hCurrent), hUser⟩
  · exact ⟨context, registered_of_unregistered hRecord.lawful hGone, hUser⟩

theorem Chronicle.narrows {s : AgentService} (h : Chronicle o) (hNarrows : Narrows o.service s)
    (p : PendingInteraction) (hPending : s.interactions.current = some p) :
    .begun p.user p.requestId ∈ o.history := by
  obtain ⟨q, hCurrent, hUser, hRequest⟩ := hNarrows p hPending
  rw [hUser, hRequest]
  exact h.pending q hCurrent

/-- An event that is no registration is noted. -/
theorem Chronicle.noted {s : AgentService} {event : AgentEvent} (h : Chronicle o)
    (hLawful : Lawful o.history event)
    (hStanding : standingAfter o.service.registry.current event = s.registry.current)
    (hNext : s.registry.nextGeneration = o.service.registry.nextGeneration)
    (hOther : ∀ context, event ≠ .registered context)
    (hPending : ∀ p, s.interactions.current = some p →
      .begun p.user p.requestId ∈ o.history ++ [event]) :
    Chronicle { service := s, history := o.history ++ [event] } where
  standing := by rw [standing_snoc, h.standing, hStanding]
  lawful := h.lawful.snoc hLawful
  generations := fun context hContext =>
    hNext ▸ h.generations context (mem_of_mem_snoc hContext (hOther context))
  pending := hPending

/-- Every step keeps the notes in agreement with the state. -/
theorem Chronicle.change (h : Chronicle o) (hChange : Change party o o') : Chronicle o' := by
  cases hChange with
  | kept hRegistry hNarrows =>
    exact ⟨h.standing.trans (congrArg _ hRegistry.symm), h.lawful, hRegistry ▸ h.generations,
      h.narrows hNarrows⟩
  | @registered _ s context hNone hFresh hGeneration hRegistry hSame =>
    have hAbove := lt_of_not_exhausted hFresh
    refine ⟨?_, h.lawful.snoc ⟨_, hGeneration, h.generations⟩, fun c hc => ?_, fun p hp => ?_⟩
    · rw [standing_snoc, hRegistry]
      rfl
    · rw [hRegistry]
      rcases List.mem_append.mp hc with hOld | hNew
      · obtain ⟨g, hg, hLt⟩ := h.generations c hOld
        exact ⟨g, hg, UInt64.lt_trans hLt hAbove⟩
      · cases List.mem_singleton.mp hNew
        exact ⟨_, hGeneration, hAbove⟩
    · exact List.mem_append_left _ (h.pending p (hSame ▸ hp))
  | unregistered hCurrent hRegistry hSame _ =>
    refine h.noted (h.standing.trans hCurrent) (by rw [hRegistry]; rfl) (by rw [hRegistry])
      (fun _ => nofun) fun p hp => ?_
    exact List.mem_append_left _ (h.pending p (hSame ▸ hp))
  | begun hRegistry hPending hChecked =>
    refine h.noted (hChecked.registered h) (congrArg AgentRegistry.current hRegistry.symm)
      (congrArg _ hRegistry) (fun _ => nofun) fun p hp => ?_
    cases hPending.symm.trans hp
    exact List.mem_append_right _ (List.mem_singleton.mpr rfl)
  | accepted hRegistry hNarrows hBound =>
    exact h.noted hBound (congrArg AgentRegistry.current hRegistry.symm) (congrArg _ hRegistry)
      (fun _ => nofun) fun p hp => List.mem_append_left _ (h.narrows hNarrows p hp)
  | replied hReply =>
    exact h.noted hReply rfl rfl (fun _ => nofun) fun p hp =>
      List.mem_append_left _ (h.pending p hp)

theorem Change.history (hChange : Change party o o') {event : AgentEvent}
    (h : event ∈ o.history) : event ∈ o'.history := by
  cases hChange with
  | kept => exact h
  | registered | unregistered | begun | accepted | replied => exact List.mem_append_left _ h

end Change

/-! ## Notes of a step -/

section Notes

variable {party : Party} {o : Observed} {s s' : AgentService}

theorem narrows_of_eq (h : s'.interactions.current = s.interactions.current) : Narrows s s' := by
  intro p hp
  exact ⟨p, h ▸ hp, rfl, rfl⟩

theorem changes_of_kept (hRegistry : s'.registry = s.registry) (hNarrows : Narrows s s') :
    changes party s s' = [] := by
  unfold changes
  rw [if_pos (congrArg _ hRegistry.symm), List.nil_append]
  split
  · rename_i p hNone hPending
    obtain ⟨q, hCurrent, -⟩ := hNarrows p hPending
    cases hNone.symm.trans hCurrent
  · rfl

theorem changes_of_same (h : s'.interactions = s.interactions)
    (hRegistry : s.registry.current ≠ s'.registry.current) : changes party s s' =
      (s.registry.current.map (AgentEvent.unregistered party)).toList ++
        (s'.registry.current.map AgentEvent.registered).toList := by
  unfold changes
  rw [if_neg hRegistry, h]
  split
  · rename_i hNone hPending
    cases hNone.symm.trans hPending
  · rw [List.append_nil]

theorem change_kept (hRegistry : s.registry = o.service.registry)
    (hNarrows : Narrows o.service s) : Change party o (o.advance party s) := by
  unfold Observed.advance
  rw [changes_of_kept hRegistry hNarrows, List.append_nil]
  exact .kept hRegistry hNarrows

theorem advance_self : o.advance party o.service = o := by
  unfold Observed.advance
  rw [changes_of_kept rfl (narrows_of_eq rfl), List.append_nil]

theorem change_begun {p : PendingInteraction} (hRegistry : s.registry = o.service.registry)
    (hNone : o.service.interactions.current = none)
    (hPending : s.interactions.current = some p) (hChecked : Checked p.user o) :
    Change .worker o (o.advance .worker s) := by
  unfold Observed.advance changes
  rw [if_pos (congrArg _ hRegistry.symm), hNone, hPending]
  exact .begun hRegistry hPending hChecked

variable {context : UserContext} {r' : InteractionRegistry} {reply : RegistryReply}

theorem change_unregistered (hCurrent : o.service.registry.current = some context)
    (hRegistry : s.registry = { o.service.registry with current := none })
    (hSame : s.interactions = o.service.interactions)
    (hCleared : party = .worker → NonePending context.binding o.service) :
    Change party o (o.advance party s) := by
  have hGone : s.registry.current = none := congrArg AgentRegistry.current hRegistry
  have hChanges : changes party o.service s = [.unregistered party context] := by
    rw [changes_of_same hSame (by rw [hCurrent, hGone]; exact nofun), hCurrent, hGone]
    rfl
  unfold Observed.advance
  rw [hChanges]
  exact .unregistered hCurrent hRegistry hSame hCleared

theorem change_registered (hNone : o.service.registry.current = none)
    (hFresh : exhausted o.service.registry.nextGeneration = false)
    (hGeneration : generationOf context.binding = some o.service.registry.nextGeneration)
    (hRegistry : s.registry = { current := some context
                                nextGeneration := o.service.registry.nextGeneration + 1 })
    (hSame : s.interactions = o.service.interactions) : Change .bus o (o.advance .bus s) := by
  have hNew : s.registry.current = some context := congrArg AgentRegistry.current hRegistry
  have hChanges : changes .bus o.service s = [.registered context] := by
    rw [changes_of_same hSame (by rw [hNone, hNew]; exact nofun), hNone, hNew]
    rfl
  unfold Observed.advance
  rw [hChanges]
  exact .registered hNone hFresh hGeneration hRegistry hSame

/-- What unregistering does: nothing, or it drops the current agent. -/
theorem unregisterAgent_cases (r : AgentRegistry) (busName : Bytes) :
    r.unregisterAgent busName = r ∨ ∃ context, r.current = some context ∧
      r.unregisterAgent busName = { r with current := none } := by
  unfold AgentRegistry.unregisterAgent
  split
  · rename_i context hNamed
    exact .inr ⟨context, (Option.filter_eq_some_iff.mp hNamed).1, rfl⟩
  · exact .inl rfl

/-- A step that unregisters. -/
theorem change_unregister (busName : Bytes)
    (hCleared : party = .worker → ∀ context, o.service.registry.current = some context →
      NonePending context.binding o.service) :
    Change party o (o.advance party { o.service with
      registry := o.service.registry.unregisterAgent busName }) := by
  rcases unregisterAgent_cases o.service.registry busName with hSame | ⟨context, hCurrent, hGone⟩
  · exact change_kept hSame (narrows_of_eq rfl)
  · exact change_unregistered hCurrent hGone rfl fun hWorker => hCleared hWorker context hCurrent

/-- A registration that was accepted: the agent was registered before, or it is a new one. -/
theorem registerAgent_cases {r r' : AgentRegistry} {peer : AgentPeer}
    (h : r.registerAgent peer = .ok (context, r')) :
    r.current = some context ∧ samePeer context peer = true ∧ r' = r ∨
      r.current = none ∧ exhausted r.nextGeneration = false ∧
        context = peer.context r.nextGeneration ∧
        r' = { current := some context, nextGeneration := r.nextGeneration + 1 } := by
  unfold AgentRegistry.registerAgent at h
  obtain ⟨_, -, h⟩ := bind_eq_ok.mp h
  split at h
  · rename_i current hCurrent
    split at h
    · rename_i hSame
      cases h
      exact .inl ⟨hCurrent, hSame, rfl⟩
    · cases h
  · rename_i hNone
    obtain ⟨hFresh, h⟩ := guard_eq_ok.mp h
    cases h
    exact .inr ⟨hNone, eq_false_of_ne_true hFresh, rfl, rfl⟩

theorem samePeer_context (peer : AgentPeer) (generation : UInt64) :
    samePeer (peer.context generation) peer = true := by
  simp [samePeer, AgentPeer.context]

theorem change_enroll {peer : AgentPeer} {registry : AgentRegistry}
    (h : o.service.registry.registerAgent peer = .ok (context, registry)) :
    samePeer context peer = true ∧ registry.current = some context ∧
      Change .bus o (o.advance .bus { o.service with registry }) := by
  rcases registerAgent_cases h with ⟨hCurrent, hSame, rfl⟩ | ⟨hNone, hFresh, rfl, rfl⟩
  · exact ⟨hSame, hCurrent, change_kept rfl (narrows_of_eq rfl)⟩
  · exact ⟨samePeer_context _ _, rfl, change_registered hNone hFresh rfl rfl rfl⟩

/-! ## Calls of the registry of interactions -/

/-- Only `begin` makes an interaction pending. -/
theorem InteractionRegistry.Effect.narrows {r : InteractionRegistry}
    {occurrence : Option Occurrence} (h : Effect r occurrence r')
    (hNotBegun : ∀ requestId, occurrence ≠ some (.begun requestId)) (p' : PendingInteraction)
    (hPending : r'.current = some p') :
    ∃ p, r.current = some p ∧ p'.user = p.user ∧ p'.requestId = p.requestId := by
  cases h with
  | begun => exact absurd rfl (hNotBegun _)
  | @published p state message hCurrent =>
    refine ⟨p, hCurrent, ?_⟩
    cases hTerminal : isTerminal state with
    | true =>
      rw [enter_terminal hTerminal] at hPending
      cases hPending
    | false =>
      obtain ⟨_, q, _, hEnter, hNext, hEntered, -⟩ := enter_open r p message hTerminal
      rw [hEnter, hNext] at hPending
      cases hPending
      exact ⟨hEntered.user, hEntered.requestId⟩
  | answered hCurrent | submitted hCurrent | cancelled hCurrent | abandoned hCurrent =>
    cases hPending
    exact ⟨_, hCurrent, rfl, rfl⟩
  | suppressed | delivered | unchanged => exact ⟨p', hPending, rfl, rfl⟩
  | dropped => cases hPending

def RegistryCall.isBegin : RegistryCall → Bool
  | .begin _ _ _ => true
  | _ => false

theorem begin_of_occurrence {k : RegistryCall} {requestId : UInt64}
    (h : Entry.occurrence ⟨k, reply⟩ = some (.begun requestId)) : k.isBegin = true := by
  unfold Entry.occurrence at h
  split at h
  · rename_i hEntry
    cases hEntry
    rfl
  all_goals first | cases h | (split at h <;> cases h)

/-- A call other than `begin` makes no interaction pending. -/
theorem narrows_of_call {k : RegistryCall} (hCall : k.isBegin = false)
    (h : InteractionRegistry.Effect s.interactions (Entry.occurrence ⟨k, reply⟩) r') :
    Narrows s { s with interactions := r' } := by
  refine h.narrows fun requestId hBegun => ?_
  cases hCall.symm.trans (begin_of_occurrence hBegun)

theorem narrows_clearFor (user : UserContext) :
    Narrows s { s with interactions := s.interactions.clearFor user } :=
  narrows_of_call rfl (InteractionRegistry.effect_of_call s.interactions (.clearFor user))

theorem change_clearFor (user : UserContext) : Change party o (o.advance party
    { o.service with interactions := o.service.interactions.clearFor user }) :=
  change_kept rfl (narrows_clearFor user)

theorem nonePending_clearFor (user : UserContext) : NonePending user.binding
    { s with interactions := s.interactions.clearFor user } := by
  intro p hp hUser
  unfold InteractionRegistry.clearFor at hp
  split at hp
  · cases hp
  · rename_i hNone
    exact Option.filter_eq_none_iff.mp hNone p hp (sameUser_iff.mpr hUser)

theorem narrows_of_answered (h : AgentService.Answered s s') :
    s'.registry = s.registry ∧ Narrows s s' := by
  refine ⟨by cases h <;> rfl, fun p' hp' => ?_⟩
  cases h with
  | presence _ hCurrent | secret hCurrent | cancelled hCurrent =>
    cases hp'
    exact ⟨_, hCurrent, rfl, rfl⟩

end Notes

/-! ## A thread among the steps of the other -/

def Party.other : Party → Party
  | .worker => .bus
  | .bus => .worker

def partySetting (party : Party) : Setting Observed Input :=
  .among (Change party.other) (fun _ _ => True) (Change party)

/-- The thread ends only as `Q` says, and its steps are changes. -/
abbrev Does {α : Type} (party : Party) (Q : α → Observed → Prop) (p : ObservedProc α)
    (o : Observed) : Prop :=
  wp (partySetting party) Q (fun _ => Chronicle) p o

/-- An assertion that the other thread keeps. -/
structure Withstands (party : Party) (J : Observed → Prop) : Prop where
  kept : ∀ o o', Change party.other o o' → J o → J o'
  chronicle : ∀ o, J o → Chronicle o

theorem withstands_chronicle {party : Party} : Withstands party Chronicle :=
  ⟨fun _ _ hChange h => h.change hChange, fun _ h => h⟩

section Does

variable {α β : Type} {party : Party} {J : Observed → Prop} {o : Observed}
  {Q : α → Observed → Prop} {P : β → Observed → Prop}

theorem Does.bind {p : ObservedProc β} {f : β → ObservedProc α} (hp : Does party P p o)
    (hf : ∀ b o', P b o' → Does party Q (f b) o') : Does party Q (p >>= f) o :=
  wp_seq hp hf fun _ _ h => h

theorem does_watch_bind {p : AgentProc β} {f : β → AgentProc α}
    (hp : Does party P (watch party p) o)
    (hf : ∀ b o', P b o' → Does party Q (watch party (f b)) o') :
    Does party Q (watch party (p >>= f)) o := by
  have hSplit : watch party (p >>= f) = watch party p >>= fun b => watch party (f b) :=
    zoom_bind p f
  rw [hSplit]
  exact hp.bind hf

section

variable (hJ : Withstands party J)
include hJ

theorem does_step {f : Input → AgentService → Except Exn α × AgentService} (h : J o)
    (hf : ∀ i o', J o' → Change party o' (o'.advance party (f i o'.service).2) ∧
      ∀ a, (f i o'.service).1 = .ok a → Q a (o'.advance party (f i o'.service).2)) :
    Does party Q (watch party (Proc.atomically f)) o := by
  rw [watch, zoom_atomically]
  refine wp_tolerant_atomically (tolerates_among hJ.kept) h fun o' i ho' _ => ?_
  obtain ⟨hChange, hOk⟩ := hf i o' ho'
  exact ⟨hChange, hOk, fun _ _ => (hJ.chronicle o' ho').change hChange⟩

theorem does_observe {f : Input → AgentService → Except Exn α} (h : J o)
    (hf : ∀ i o' a, J o' → f i o'.service = .ok a → Q a o') :
    Does party Q (watch party (Proc.observe f)) o := by
  refine does_step hJ h fun i o' ho' => ?_
  rw [advance_self]
  exact ⟨.kept rfl (narrows_of_eq rfl), fun a ha => hf i o' a ho' ha⟩

theorem does_read {f : AgentService → α} (h : J o) (hf : ∀ o', J o' → Q (f o'.service) o') :
    Does party Q (watch party (Proc.read f)) o := by
  refine does_observe hJ h fun _ o' a ho' ha => ?_
  cases ha
  exact hf o' ho'

theorem does_modify {f : AgentService → AgentService} {Q : Unit → Observed → Prop} (h : J o)
    (hf : ∀ o', J o' → Change party o' (o'.advance party (f o'.service)) ∧
      Q () (o'.advance party (f o'.service))) :
    Does party Q (watch party (Proc.modify f)) o :=
  does_step hJ h fun _ o' ho' => ⟨(hf o' ho').1, fun _ _ => (hf o' ho').2⟩

theorem does_throwIfFailed (h : J o) :
    Does party (fun _ => J) (watch party AgentService.throwIfFailed) o :=
  does_observe hJ h fun _ _ _ ho' _ => ho'

end

/-- A function of the service that does not touch the registration and begins nothing. -/
theorem does_moves {p : AgentProc α}
    (hp : Moves (fun s s' => s'.registry = s.registry ∧ Narrows s s') p) (h : Chronicle o) :
    Does party (fun _ => Chronicle) (watch party p) o := by
  refine maintains_zoom_moves hp (tolerates_among withstands_chronicle.kept) ?_ trivial o h
  intro o' s' ho' hMove
  have hChange : Change party o' (o'.advance party s') := change_kept hMove.1 hMove.2
  exact ⟨hChange, ho'.change hChange⟩

end Does

/-! ## The worker -/

section Worker

variable {o : Observed} {context : UserContext} {next : UInt64}

/-- The worker has read this context when the registry was to give out `next`: another agent that
is current has registered since, and what is pending was begun before. -/
structure Reading (context : UserContext) (next : UInt64) (o : Observed) : Prop where
  chronicle : Chronicle o
  later : next ≤ o.service.registry.nextGeneration
  current : ∀ c, o.service.registry.current = some c →
    c = context ∨ ∃ g, generationOf c.binding = some g ∧ next ≤ g
  pending : ∀ p, o.service.interactions.current = some p → GenerationBelow next p.user

theorem Chronicle.pending_generation (h : Chronicle o) (p : PendingInteraction)
    (hp : o.service.interactions.current = some p) :
    GenerationBelow o.service.registry.nextGeneration p.user := by
  obtain ⟨past, rest, hSplit⟩ := List.append_of_mem (h.pending p hp)
  obtain ⟨c, hRegistered, hUser⟩ := h.lawful past _ rest hSplit
  rw [← hUser]
  refine h.generations c ?_
  rw [hSplit]
  exact List.mem_append_left _ hRegistered

theorem Narrows.pending {s s' : AgentService} {P : UserContextBinding → Prop} (h : Narrows s s')
    (hAll : ∀ p, s.interactions.current = some p → P p.user) (p : PendingInteraction)
    (hp : s'.interactions.current = some p) : P p.user := by
  obtain ⟨q, hq, hUser, -⟩ := h p hp
  rw [hUser]
  exact hAll q hq

/-- The D-Bus thread begins nothing. -/
theorem Change.narrows {o' : Observed} (h : Change .bus o o') : Narrows o.service o'.service := by
  cases h with
  | kept _ hNarrows | accepted _ hNarrows => exact hNarrows
  | registered _ _ _ _ hSame | unregistered _ _ hSame =>
    exact narrows_of_eq (congrArg InteractionRegistry.current hSame)
  | replied => exact narrows_of_eq rfl

theorem withstands_reading : Withstands .worker (Reading context next) := by
  refine ⟨fun o o' hChange h => ?_, fun o h => h.chronicle⟩
  have hPending := (Change.narrows hChange).pending (P := GenerationBelow next) h.pending
  have hChronicle := h.chronicle.change hChange
  cases hChange with
  | kept hRegistry | accepted hRegistry =>
    exact ⟨hChronicle, hRegistry ▸ h.later, hRegistry ▸ h.current, hPending⟩
  | replied => exact ⟨hChronicle, h.later, h.current, hPending⟩
  | registered _ hFresh hGeneration hRegistry _ =>
    have hAbove := lt_of_not_exhausted hFresh
    refine ⟨hChronicle, ?_, fun c hc => ?_, hPending⟩
    · rw [hRegistry]
      exact UInt64.le_of_lt (UInt64.lt_of_le_of_lt h.later hAbove)
    · rw [hRegistry] at hc
      cases hc
      exact .inr ⟨_, hGeneration, h.later⟩
  | unregistered _ hRegistry _ _ =>
    refine ⟨hChronicle, ?_, fun c hc => ?_, hPending⟩
    · rw [hRegistry]
      exact h.later
    · rw [hRegistry] at hc
      cases hc

theorem withstands_cleared : Withstands .worker fun o =>
    Reading context next o ∧ NonePending context.binding o.service :=
  ⟨fun o o' hChange h => ⟨withstands_reading.kept o o' hChange h.1,
    (Change.narrows hChange).pending (P := (· ≠ context.binding)) h.2⟩,
    fun _ h => h.1.chronicle⟩

/-- What the worker drops has no interaction pending, also if it is a newer registration. -/
theorem Reading.nonePending (h : Reading context next o)
    (hCleared : NonePending context.binding o.service) (c : UserContext)
    (hCurrent : o.service.registry.current = some c) : NonePending c.binding o.service := by
  rcases h.current c hCurrent with rfl | ⟨g, hg, hLe⟩
  · exact hCleared
  · intro p hp hUser
    obtain ⟨g', hg', hLt⟩ := h.pending p hp
    rw [hUser, hg] at hg'
    cases hg'
    exact UInt64.lt_irrefl g (UInt64.lt_of_lt_of_le hLt hLe)

theorem does_currentContext (h : Chronicle o) :
    Does .worker (fun _ => Chronicle) (watch .worker AgentService.currentContext) o := by
  refine does_watch_bind (does_throwIfFailed withstands_chronicle h) fun _ o₁ h₁ => ?_
  refine does_watch_bind (P := fun context o => Chronicle o ∧
      ∀ c, context = some c → ∃ next, Reading c next o)
    (does_read withstands_chronicle h₁ fun o h => ⟨h, fun c hc => ?_⟩) ?_
  · refine ⟨o.service.registry.nextGeneration, h, UInt64.le_refl _, fun d hd => .inl ?_,
      h.pending_generation⟩
    exact Option.some.inj (hd.symm.trans hc)
  rintro context o₂ ⟨h₂, hRead⟩
  cases context with
  | none =>
    refine does_watch_bind (does_throwIfFailed withstands_chronicle h₂) fun _ o₃ h₃ => ?_
    exact h₃
  | some context =>
    obtain ⟨next, hReading⟩ := hRead context rfl
    refine does_watch_bind (does_throwIfFailed withstands_reading hReading) fun _ o₃ h₃ => ?_
    refine does_watch_bind (P := fun _ => Reading context next)
      (does_observe withstands_reading h₃ fun _ _ _ h _ => h) fun active o₄ h₄ => ?_
    split
    · exact h₄.chronicle
    · refine does_watch_bind (P := fun _ o =>
          Reading context next o ∧ NonePending context.binding o.service)
        (does_modify withstands_reading h₄ fun o h => ?_) fun _ o₅ h₅ => ?_
      · have hChange : Change .worker o _ := change_clearFor context
        refine ⟨hChange, ⟨h.chronicle.change hChange, h.later, h.current, ?_⟩,
          nonePending_clearFor context⟩
        exact (narrows_clearFor context).pending (P := GenerationBelow next) h.pending
      · refine does_watch_bind (P := fun _ => Chronicle)
          (does_modify withstands_cleared h₅ fun o h => ?_) fun _ o₆ h₆ => h₆
        have hChange : Change .worker o _ :=
          change_unregister ((context.session.map (·.interactionAgentId)).getD [])
            fun _ c hc => h.1.nonePending h.2 c hc
        exact ⟨hChange, h.1.chronicle.change hChange⟩

theorem withstands_checked {user : UserContextBinding} :
    Withstands .worker fun o => Chronicle o ∧ Checked user o := by
  refine ⟨fun o o' hChange h => ⟨h.1.change hChange, ?_⟩, fun _ h => h.1⟩
  rcases h.2 with ⟨c, hCurrent, hUser⟩ | ⟨c, hGone, hUser⟩
  · cases hChange with
    | kept hRegistry | accepted hRegistry => exact .inl ⟨c, hRegistry ▸ hCurrent, hUser⟩
    | replied => exact .inl ⟨c, hCurrent, hUser⟩
    | registered hNone => cases hNone.symm.trans hCurrent
    | unregistered hSome =>
      cases hSome.symm.trans hCurrent
      exact .inr ⟨c, List.mem_append_right _ (List.mem_singleton.mpr rfl), hUser⟩
  · exact .inr ⟨c, hChange.history hGone, hUser⟩

theorem change_begin {user : UserContext} {request : UserInteractionRequest} {requestId : UInt64}
    {interactions : InteractionRegistry} (hChecked : Checked user.binding o)
    (h : o.service.interactions.begin user request.operation request.relyingPartyId =
      .ok (requestId, interactions)) : Change .worker o (o.advance .worker
      ({ o.service with interactions, settled := false }.note (.begun requestId))) := by
  obtain ⟨hNone, -, rfl⟩ := InteractionRegistry.begin_ok h
  exact change_begun rfl hNone rfl hChecked

theorem does_beginInteraction (h : Chronicle o) (user : UserContext)
    (request : UserInteractionRequest) : Does .worker (fun _ => Chronicle)
      (watch .worker (AgentService.beginInteraction user request)) o := by
  refine does_watch_bind (does_throwIfFailed withstands_chronicle h) fun _ o₁ h₁ => ?_
  dsimp only
  split
  · exact h₁
  split
  · exact h₁
  refine does_watch_bind (P := fun isCurrent o => Chronicle o ∧
      (isCurrent = true → Checked user.binding o))
    (does_read withstands_chronicle h₁ fun o h => ⟨h, fun hCurrent => ?_⟩) ?_
  · obtain ⟨c, hSome, hSame⟩ := (Option.any_eq_true _ _).mp hCurrent
    exact .inl ⟨c, hSome, beq_iff_eq.mp hSame⟩
  rintro isCurrent o₂ ⟨h₂, hChecked⟩
  split
  · exact h₂
  · rename_i hCurrent
    refine does_step withstands_checked ⟨h₂, hChecked (not_not.mp hCurrent)⟩ fun _ o h => ?_
    cases hBegin : o.service.interactions.begin user request.operation request.relyingPartyId with
    | error e =>
      simp only [advance_self]
      exact ⟨.kept rfl (narrows_of_eq rfl), fun _ _ => h.1⟩
    | ok begun =>
      have hChange := change_begin h.2 hBegin
      exact ⟨hChange, fun _ _ => h.1.change hChange⟩

end Worker

/-! ## Calls that only concern the interaction -/

section Interaction

/-- What a step of such a call does. -/
abbrev Sideways (s s' : AgentService) : Prop := s'.registry = s.registry ∧ Narrows s s'

theorem sideways_refl (s : AgentService) : Sideways s s := ⟨rfl, narrows_of_eq rfl⟩

theorem moves_observe {α : Type} (f : Input → AgentService → Except Exn α) :
    Moves Sideways (Proc.observe f) :=
  moves_atomically fun _ s => sideways_refl s

theorem moves_throwIfFailed : Moves Sideways AgentService.throwIfFailed := moves_observe _

theorem moves_publishState (user : UserContext) (request : UserInteractionRequest)
    (state : UserInteractionState) (message : Bytes) :
    Moves Sideways (AgentService.publishState user request state message) := by
  refine moves_bind moves_throwIfFailed fun _ => ?_
  split
  · trivial
  refine moves_bind (moves_observe _) fun _ => ?_
  split
  · trivial
  refine moves_bind (moves_atomically fun _ s => ?_) fun transition => ?_
  · split
    · exact sideways_refl s
    · rename_i transition interactions hMove
      exact ⟨rfl, narrows_of_call rfl (InteractionRegistry.effect_of_transition hMove)⟩
  · split
    · trivial
    · refine moves_bind (moves_atomically fun _ s => ?_) fun _ => trivial
      exact ⟨rfl, narrows_of_eq rfl⟩

theorem sideways_presenceRound (s : AgentService) (user : UserContext) (requestId : UInt64)
    (stop expired : Bool) : Sideways s { s with
      interactions := (s.interactions.presenceRound user requestId stop expired).2 } :=
  ⟨rfl, narrows_of_call rfl (InteractionRegistry.effect_of_presenceRound stop expired)⟩

theorem sideways_secretRound (s : AgentService) (user : UserContext)
    (requestId promptId : UInt64) (stop expired : Bool) : Sideways s { s with
      interactions := (s.interactions.secretRound user requestId promptId stop expired).2 } :=
  ⟨rfl, narrows_of_call rfl (InteractionRegistry.effect_of_secretRound promptId stop expired)⟩

theorem moves_waitForPresence (rounds : Nat) (user : UserContext)
    (request : UserInteractionRequest) :
    Moves Sideways (AgentService.waitForPresence rounds user request) := by
  refine moves_bind moves_throwIfFailed fun _ => ?_
  refine moves_bind (moves_loop (fun _ => moves_atomically fun i s =>
    sideways_presenceRound s user request.requestId i.stop i.expired) rounds ()) fun result => ?_
  cases result <;> trivial

theorem moves_waitForSecret (rounds : Nat) (user : UserContext) (request : UserInteractionRequest)
    (promptId : UInt64) :
    Moves Sideways (AgentService.waitForSecret rounds user request promptId) := by
  refine moves_bind moves_throwIfFailed fun _ => ?_
  refine moves_bind (moves_loop (fun _ => moves_atomically fun i s =>
    sideways_secretRound s user request.requestId promptId i.stop i.expired) rounds ())
    fun result => ?_
  cases result <;> trivial

theorem moves_cancellationRequested (user : UserContext) (request : UserInteractionRequest) :
    Moves Sideways (AgentService.cancellationRequested user request) := by
  refine moves_bind (moves_observe _) fun _ => ?_
  split
  · trivial
  refine moves_bind (moves_observe _) fun _ => ?_
  split
  · trivial
  · exact moves_observe _

theorem moves_endInteraction (user : UserContext) (request : UserInteractionRequest) :
    Moves Sideways (AgentService.endInteraction user request) := by
  refine moves_atomically fun _ s => ⟨rfl, ?_⟩
  exact narrows_of_call rfl (InteractionRegistry.effect_of_call s.interactions
    (.endInteraction user request.requestId))

end Interaction

/-! ## The D-Bus thread -/

section Bus

variable {o : Observed} {context : UserContext}

theorem does_change {f : AgentService → AgentService} (h : Chronicle o)
    (hChange : ∀ o : Observed, Change .bus o (o.advance .bus (f o.service))) :
    Does .bus (fun _ => Chronicle) (watch .bus (Proc.modify f)) o :=
  does_modify withstands_chronicle h fun o h => ⟨hChange o, h.change (hChange o)⟩

theorem does_clearFor (h : Chronicle o) (context : UserContext) :
    Does .bus (fun _ => Chronicle) (watch .bus (Proc.modify fun s : AgentService =>
      { s with interactions := s.interactions.clearFor context })) o :=
  does_change h fun _ => change_clearFor context

theorem does_unregister (h : Chronicle o) (busName : Bytes) :
    Does .bus (fun _ => Chronicle) (watch .bus (Proc.modify fun s : AgentService =>
      { s with registry := s.registry.unregisterAgent busName })) o :=
  does_change h fun _ => change_unregister busName nofun

theorem does_discard (h : Chronicle o) (context : UserContext) (busName : Bytes) :
    Does .bus (fun _ => Chronicle) (watch .bus (AgentService.discard context busName)) o :=
  does_watch_bind (does_clearFor h context) fun _ _ h => does_unregister h busName

theorem does_readCurrent (h : Chronicle o) : Does .bus (fun _ => Chronicle)
    (watch .bus (Proc.read fun s : AgentService => s.registry.current)) o :=
  does_read withstands_chronicle h fun _ h => h

theorem does_discardInactive (h : Chronicle o) :
    Does .bus (fun _ => Chronicle) (watch .bus AgentService.discardInactive) o := by
  refine does_watch_bind (does_readCurrent h) fun current o₁ h₁ => ?_
  cases current with
  | none => exact h₁
  | some current =>
    refine does_watch_bind (P := fun _ => Chronicle)
      (does_observe withstands_chronicle h₁ fun _ _ _ h _ => h) fun active o₂ h₂ => ?_
    split
    · exact does_discard h₂ _ _
    · exact h₂

/-- The D-Bus thread has registered the peer, and is the only one that registers. -/
def Enrolled (peer : Except Exn AgentPeer) (generation : UInt64) (o : Observed) : Prop :=
  Chronicle o ∧ RepliedFor o.history peer generation

variable {peer : Except Exn AgentPeer} {generation : UInt64}

theorem RepliedFor.snoc {past : List AgentEvent} {event : AgentEvent}
    (h : RepliedFor past peer generation) (hEvent : ∀ context, event ≠ .registered context) :
    RepliedFor (past ++ [event]) peer generation := by
  obtain ⟨agent, context, before, after, hPeer, hSame, hGeneration, rfl, hAfter⟩ := h
  refine ⟨agent, context, before, after ++ [event], hPeer, hSame, hGeneration, by simp, ?_⟩
  intro other hOther
  exact hAfter other (mem_of_mem_snoc hOther (hEvent other))

theorem withstands_enrolled : Withstands .bus (Enrolled peer generation) := by
  refine ⟨fun o o' hChange h => ⟨h.1.change hChange, ?_⟩, fun _ h => h.1⟩
  cases hChange with
  | kept => exact h.2
  | unregistered | begun => exact h.2.snoc fun _ hSame => (by cases hSame)

theorem enrolled_of_current {peer : AgentPeer} (h : Chronicle o)
    (hCurrent : o.service.registry.current = some context) (hSame : samePeer context peer = true) :
    Enrolled (.ok peer) ((context.session.map (·.generation)).getD 0) o := by
  obtain ⟨before, after, hSplit, hAfter⟩ := exists_since (h.standing.trans hCurrent)
  obtain ⟨g, hg, -⟩ := h.generations context (registered_of_standing (h.standing.trans hCurrent))
  refine ⟨h, peer, context, before, after, rfl, hSame, ?_, hSplit, fun other hOther => ?_⟩
  · have hSession : context.session.map (·.generation) = some g := hg
    rw [hSession]
    exact hg
  · cases hAfter _ hOther

theorem does_registerAgent (h : Chronicle o) (peer : Except Exn AgentPeer) :
    Does .bus (Enrolled peer) (watch .bus (AgentService.registerAgent peer)) o := by
  cases peer with
  | error e => exact h
  | ok peer =>
    refine does_watch_bind (P := fun p o => Chronicle o ∧ peer = p) ⟨h, rfl⟩ ?_
    rintro _ o ⟨h, rfl⟩
    refine does_watch_bind (does_discardInactive h) fun _ o₁ h₁ => ?_
    refine does_watch_bind (does_step withstands_chronicle h₁ fun _ o h => ?_) fun _ _ h => h
    cases hRegister : o.service.registry.registerAgent peer with
    | error e =>
      simp only [advance_self]
      exact ⟨.kept rfl (narrows_of_eq rfl), nofun⟩
    | ok registered =>
      obtain ⟨hSame, hCurrent, hChange⟩ := change_enroll hRegister
      refine ⟨hChange, fun context hContext => ?_⟩
      cases hContext
      exact enrolled_of_current (h.change hChange) hCurrent hSame

theorem does_reply (h : Enrolled peer generation o) :
    Does .bus (fun _ => Chronicle) (reply peer generation) o := by
  refine wp_tolerant_atomically (tolerates_among withstands_enrolled.kept) h fun o' _ ho' _ => ?_
  have hChange : Change .bus o' _ := .replied ho'.2
  exact ⟨hChange, fun _ _ => ho'.1.change hChange, fun _ hNone => (by cases hNone)⟩

theorem does_unregisterAgent (h : Chronicle o) (sender : Bytes) :
    Does .bus (fun _ => Chronicle) (watch .bus (AgentService.unregisterAgent sender)) o := by
  unfold AgentService.unregisterAgent
  dsimp only
  split
  · exact h
  refine does_watch_bind (does_readCurrent h) fun current o₁ h₁ => ?_
  split
  · exact h₁
  · refine does_watch_bind (does_clearFor h₁ _) fun _ o₂ h₂ => ?_
    refine does_step withstands_chronicle h₂ fun _ o h => ?_
    have hChange : Change .bus o _ := change_unregister sender nofun
    exact ⟨hChange, fun _ _ => h.change hChange⟩

theorem does_unregisterDisconnectedAgent (h : Chronicle o) (busName : Bytes) :
    Does .bus (fun _ => Chronicle)
      (watch .bus (AgentService.unregisterDisconnectedAgent busName)) o := by
  refine does_watch_bind (P := fun _ => Chronicle) ?_ fun _ _ h => does_unregister h busName
  refine does_watch_bind (does_readCurrent h) fun current o₁ h₁ => ?_
  split
  · exact h₁
  · exact does_clearFor h₁ _

theorem does_recordFailure (h : Chronicle o) (message : String) :
    Does .bus (fun _ => Chronicle) (watch .bus (AgentService.recordFailure message)) o := by
  refine does_watch_bind (does_change h fun _ => change_kept rfl (narrows_of_eq rfl))
    fun _ o₁ h₁ => ?_
  refine does_watch_bind (does_readCurrent h₁) fun current o₂ h₂ => ?_
  cases current with
  | none => exact h₂
  | some context => exact does_discard h₂ _ _

/-- The D-Bus thread has found this registration current: it still is, or the worker has dropped
it, and then none of its interactions is pending. -/
def Holding (context : UserContext) (o : Observed) : Prop :=
  Chronicle o ∧ (o.service.registry.current = some context ∨
    .unregistered .worker context ∈ o.history ∧ NonePending context.binding o.service)

theorem withstands_holding : Withstands .bus (Holding context) := by
  refine ⟨fun o o' hChange h => ⟨h.1.change hChange, ?_⟩, fun _ h => h.1⟩
  rcases h.2 with hCurrent | ⟨hGone, hNone⟩
  · cases hChange with
    | kept hRegistry | begun hRegistry => exact .inl (hRegistry ▸ hCurrent)
    | unregistered hSome _ hSame hCleared =>
      cases hSome.symm.trans hCurrent
      refine .inr ⟨List.mem_append_right _ (List.mem_singleton.mpr rfl), fun p hp => ?_⟩
      exact hCleared rfl p (hSame ▸ hp)
  · refine .inr ⟨hChange.history hGone, ?_⟩
    cases hChange with
    | kept _ hNarrows => exact hNarrows.pending (P := (· ≠ context.binding)) hNone
    | unregistered _ _ hSame _ => exact fun p hp => hNone p (hSame ▸ hp)
    | @begun _ _ q _ hPending hChecked =>
      intro p hp hUser
      cases hPending.symm.trans hp
      -- the worker has found the registration current, or lost it to this thread
      rcases hChecked with ⟨c, hCurrent, hSame⟩ | ⟨c, hDropped, hSame⟩
      · exact binding_ne_of_unregistered h.1.lawful hGone (h.1.standing.trans hCurrent)
          (hSame.trans hUser)
      · exact absurd (hSame.trans hUser) (binding_ne_of_droppers h.1.lawful hGone hDropped nofun)

/-- The sender of the call is this registration. -/
def IsCaller (call : AgentService.AgentCall) (context : UserContext) : Prop :=
  ∃ session, context.session = some session ∧ session.interactionAgentId = call.sender ∧
    session.generation = call.generation

theorem does_findCaller (h : Chronicle o) (call : AgentService.AgentCall) :
    Does .bus (fun context o => Holding context o ∧ IsCaller call context)
      (watch .bus (AgentService.findCaller call)) o := by
  refine does_watch_bind (P := fun current o => Chronicle o ∧ ∀ c, current = some c → Holding c o)
    (does_read withstands_chronicle h fun o h => ⟨h, fun c hc => ⟨h, .inl hc⟩⟩) ?_
  rintro current o₁ ⟨h₁, hHolding⟩
  split
  · exact h₁
  · rename_i context hFound
    obtain ⟨hCurrent, hChecks⟩ := Option.filter_eq_some_iff.mp hFound
    have hCaller : IsCaller call context := by
      obtain ⟨session, hSession, hSame⟩ :=
        (Option.any_eq_true _ _).mp (Bool.and_eq_true_iff.mp hChecks).2
      simp only [Bool.and_eq_true, beq_iff_eq] at hSame
      exact ⟨session, hSession, hSame.1, hSame.2⟩
    refine does_watch_bind (P := fun _ => Holding context)
      (does_observe withstands_holding (hHolding context hCurrent) fun _ _ _ h _ => h) ?_
    intro active o₂ h₂
    split
    · exact ⟨h₂, hCaller⟩
    · exact does_watch_bind (does_discard h₂.1 _ _) fun _ _ h => h

/-- An accepted call is for the interaction that is pending. -/
theorem perform_user {s s' : AgentService} {user : UserContext} {method : AgentService.AgentMethod}
    (h : s.perform user method = .ok s') :
    ∃ p, s.interactions.current = some p ∧ p.user = user.binding := by
  have hFound : ∃ requestId p, s.interactions.find user requestId = some p := by
    cases method with
    | respondToPresence requestId approved =>
      obtain ⟨interactions, hCall, -⟩ := bind_eq_ok.mp h
      obtain ⟨p, hFind, -⟩ := InteractionRegistry.respondToPresence_ok hCall
      exact ⟨requestId, p, hFind⟩
    | submitSecret requestId promptId pipe =>
      obtain ⟨secret, -, h⟩ := bind_eq_ok.mp h
      obtain ⟨interactions, hCall, -⟩ := bind_eq_ok.mp h
      obtain ⟨p, hFind, -⟩ := InteractionRegistry.submitSecret_ok hCall
      exact ⟨requestId, p, hFind⟩
    | cancelInteraction requestId =>
      obtain ⟨interactions, hCall, -⟩ := bind_eq_ok.mp h
      obtain ⟨p, hFind, -⟩ := InteractionRegistry.requestCancel_ok hCall
      exact ⟨requestId, p, hFind⟩
  obtain ⟨requestId, p, hFind⟩ := hFound
  obtain ⟨hCurrent, -, -, hUser⟩ := InteractionRegistry.find_eq_some.mp hFind
  exact ⟨p, hCurrent, hUser⟩

theorem does_answer {call : AgentService.AgentCall} (h : Holding context o)
    (hCaller : IsCaller call context) :
    Does .bus (fun _ => Chronicle) (answer call context) o := by
  refine wp_tolerant_atomically (tolerates_among withstands_holding.kept) h fun o' _ ho' _ => ?_
  cases hPerform : o'.service.perform context call.method with
  | error e => exact ⟨.kept rfl (narrows_of_eq rfl), nofun, fun _ _ => ho'.1⟩
  | ok s =>
    obtain ⟨p, hPending, hUser⟩ := perform_user hPerform
    obtain ⟨session, hSession, hSender, hGeneration⟩ := hCaller
    -- a registration that was dropped has nothing pending
    have hCurrent : o'.service.registry.current = some context :=
      ho'.2.resolve_right fun hGone => hGone.2 p hPending hUser
    have hBegun := ho'.1.pending p hPending
    have hBound : BoundAnswer o'.history call p.user p.requestId := by
      rw [hUser] at hBegun ⊢
      exact boundAnswer_of_standing ho'.1.lawful (ho'.1.standing.trans hCurrent) hSession hSender
        hGeneration hBegun
    obtain ⟨hRegistry, hNarrows⟩ :=
      narrows_of_answered (AgentService.answered_of_perform hPerform)
    have hChange : Change .bus o' { service := s, history := o'.history ++
        [.accepted call p.user p.requestId] } := .accepted hRegistry hNarrows hBound
    simp only [hPending, Option.map_some, Option.toList_some]
    exact ⟨hChange, fun _ _ => ho'.1.change hChange, nofun⟩

end Bus

/-! ## Both threads -/

variable {o : Observed}

theorem does_channelCall (h : Chronicle o) (call : ChannelCall) :
    Does .worker (fun _ => Chronicle) call.proc o := by
  cases call with
  | currentContext => exact (does_currentContext h).bind fun _ _ h => h
  | beginInteraction user request =>
    exact (does_beginInteraction h user request).bind fun _ _ h => h
  | publishState user request state message =>
    exact (does_moves (moves_publishState user request state message) h).bind fun _ _ h => h
  | waitForPresence rounds user request =>
    exact (does_moves (moves_waitForPresence rounds user request) h).bind fun _ _ h => h
  | waitForSecret rounds user request promptId =>
    exact (does_moves (moves_waitForSecret rounds user request promptId) h).bind fun _ _ h => h
  | cancellationRequested user request =>
    exact (does_moves (moves_cancellationRequested user request) h).bind fun _ _ h => h
  | endInteraction user request => exact does_moves (moves_endInteraction user request) h

theorem does_busCall (h : Chronicle o) (call : BusCall) :
    Does .bus (fun _ => Chronicle) call.proc o := by
  cases call with
  | registerAgent peer => exact (does_registerAgent h peer).bind fun _ _ h => does_reply h
  | unregisterAgent sender => exact does_unregisterAgent h sender
  | nameLost busName => exact does_unregisterDisconnectedAgent h busName
  | method call => exact (does_findCaller h call).bind fun _ _ h => does_answer h.1 h.2
  | failure message => exact does_recordFailure h message

/-- However a call ends, the thread goes on to the next one. -/
theorem does_inTurn {party : Party} {calls : List (ObservedProc Unit)}
    (hCalls : ∀ call ∈ calls, ∀ o, Chronicle o → Does party (fun _ => Chronicle) call o)
    (h : Chronicle o) : Does party (fun _ => Chronicle) (inTurn calls) o := by
  induction calls generalizing o with
  | nil => exact h
  | cons call calls ih =>
    have hFirst := hCalls call List.mem_cons_self o h
    refine Does.bind (P := fun _ => Chronicle) (wp_attempt.mpr hFirst) fun _ o' h' => ?_
    exact ih (fun call hCall => hCalls call (List.mem_cons_of_mem _ hCall)) h'

theorem does_agentTeam (channelCalls : List ChannelCall) (busCalls : List BusCall) (h : Chronicle o)
    (party : Party) :
    Does party (fun _ => Chronicle) (agentTeam channelCalls busCalls party) o := by
  cases party with
  | worker =>
    refine does_inTurn (fun call hCall o h => ?_) h
    obtain ⟨channelCall, -, rfl⟩ := List.mem_map.mp hCall
    exact does_channelCall h channelCall
  | bus =>
    refine does_inTurn (fun call hCall o h => ?_) h
    obtain ⟨busCall, -, rfl⟩ := List.mem_map.mp hCall
    exact does_busCall h busCall

theorem chronicle_init : Chronicle {} :=
  ⟨rfl, atEach_nil, fun _ h => absurd h List.not_mem_nil, nofun⟩

/-- The notes agree with the state at every point of a run of the two threads. -/
theorem chronicle_of_steps {channelCalls : List ChannelCall} {busCalls : List BusCall}
    {ps : Team Observed Input Exn fun _ : Party => Unit}
    (hRun : Team.Steps (fun _ _ => False) (fun _ _ _ => True)
      (agentTeam channelCalls busCalls, {}) (ps, o)) : Chronicle o := by
  have hOther : ∀ j k : Party, j ≠ k → ∀ o o', Change j o o' → Change k.other o o' := by
    intro j k hNe o o' hChange
    cases j <;> cases k
    · exact absurd rfl hNe
    · exact hChange
    · exact hChange
    · exact absurd rfl hNe
  exact Team.invariant hOther (fun _ _ _ hNone => hNone.elim)
    (does_agentTeam channelCalls busCalls chronicle_init) chronicle_init
    (fun _ _ hNone => hNone.elim) (fun _ _ _ hChange h => h.change hChange) hRun

/-- Two replies with one generation are for one registration. -/
theorem replied_once {history past mid rest : List AgentEvent} {peer peer' : Except Exn AgentPeer}
    {generation : UInt64} (h : AtEach Lawful history)
    (hSplit : history = past ++ .replied peer generation :: (mid ++
      .replied peer' generation :: rest)) (context : UserContext) : .registered context ∉ mid := by
  intro hContext
  obtain ⟨-, first, before, after, -, -, hFirst, hPast, -⟩ : RepliedFor past peer generation :=
    h past _ _ hSplit
  have hSplit' : history = (past ++ .replied peer generation :: mid) ++
      .replied peer' generation :: rest := by simp [hSplit]
  obtain ⟨-, second, before', after', -, -, hSecond, hPast', hLatest⟩ :
    RepliedFor (past ++ .replied peer generation :: mid) peer' generation := h _ _ rest hSplit'
  rcases List.append_eq_append_iff.mp hPast' with ⟨extra, hBefore, -⟩ | ⟨extra, -, hAfter⟩
  · -- the second registration is later than the first one, and its generation larger
    have hNew : NewGeneration before' second := by
      refine h before' (.registered second) (after' ++ .replied peer' generation :: rest) ?_
      rw [hSplit', hPast']
      simp
    obtain ⟨g, hg, hAll⟩ := hNew
    obtain ⟨g', hg', hLt⟩ := hAll first (by rw [hBefore, hPast]; simp)
    cases hg.symm.trans hSecond
    cases hg'.symm.trans hFirst
    exact UInt64.lt_irrefl _ hLt
  · cases extra with
    | nil => cases hAfter
    | cons e extra =>
      obtain ⟨-, hLater⟩ := List.cons.inj hAfter
      refine hLatest context ?_
      rw [hLater]
      exact List.mem_append_right _ (List.mem_cons_of_mem _ hContext)

/-- **Answers are bound to registrations.** In every run of the worker and the D-Bus thread,
whatever they are asked to do and however their steps interleave: an accepted call comes from the
registration for which the interaction was begun, which has been current ever since; a new
registration has a generation that no earlier one had; `RegisterAgent` replies the generation of
the latest registration, so that replies for two registrations differ; and a registration that was
dropped is not current. -/
theorem answers_bound_to_registration (channelCalls : List ChannelCall) (busCalls : List BusCall)
    {ps : Team Observed Input Exn fun _ : Party => Unit} {o : Observed}
    (hRun : Team.Steps (fun _ _ => False) (fun _ _ _ => True)
      (agentTeam channelCalls busCalls, {}) (ps, o)) :
    (∀ past call user requestId rest, o.history = past ++ .accepted call user requestId :: rest →
        BoundAnswer past call user requestId) ∧
    (∀ past context rest, o.history = past ++ .registered context :: rest →
      ∀ earlier, .registered earlier ∈ past →
        generationOf earlier.binding ≠ generationOf context.binding) ∧
    (∀ past peer generation rest, o.history = past ++ .replied peer generation :: rest →
      RepliedFor past peer generation ∧
      ∀ mid peer' rest', rest = mid ++ .replied peer' generation :: rest' →
        ∀ context, .registered context ∉ mid) ∧
    ∀ party context, .unregistered party context ∈ o.history →
      o.service.registry.isCurrent context = false := by
  have h := chronicle_of_steps hRun
  refine ⟨fun past call user requestId rest hSplit => h.lawful past _ rest hSplit,
    fun past context rest hSplit earlier hEarlier => ?_,
    fun past peer generation rest hSplit => ⟨h.lawful past _ rest hSplit, ?_⟩,
    fun party context hGone => ?_⟩
  · obtain ⟨g, hg, hAll⟩ : NewGeneration past context := h.lawful past _ rest hSplit
    obtain ⟨g', hg', hLt⟩ := hAll earlier hEarlier
    rw [hg, hg']
    intro hSame
    cases hSame
    exact UInt64.lt_irrefl _ hLt
  · rintro mid peer' rest' rfl
    exact replied_once h.lawful hSplit
  · refine Bool.eq_false_iff.mpr fun hCurrent => ?_
    obtain ⟨c, hSome, hSame⟩ := (Option.any_eq_true _ _).mp hCurrent
    exact binding_ne_of_unregistered h.lawful hGone (h.standing.trans hSome) (beq_iff_eq.mp hSame)

/-- An agent with the bus name `:1`. -/
def samplePeer : AgentPeer where
  uid := 1000
  userName := [97]
  sessionId := [49]
  busName := [AgentService.uniqueNameMark, 49]

/-- A ceremony of the first registration that asks for presence. -/
def presenceCalls : List ChannelCall :=
  [.beginInteraction (samplePeer.context 1) { operation := .getAssertion, relyingPartyId := [] },
    .publishState (samplePeer.context 1)
      { operation := .getAssertion, relyingPartyId := [], requestId := 1 } .presenceRequired []]

/-- The agent registers and approves. -/
def approvalCalls : List BusCall :=
  [.registerAgent (.ok samplePeer),
    .method { sender := samplePeer.busName, generation := 1, method := .respondToPresence 1 true }]

theorem answers_bound_to_registration_approval : ∃ ps o past call user requestId rest,
    Team.Steps (fun _ _ => False) (fun _ _ _ => True)
      (agentTeam presenceCalls approvalCalls, {}) (ps, o) ∧
      o.history = past ++ .accepted call user requestId :: rest ∧
      BoundAnswer past call user requestId := by
  have hEnds : (Team.follow (fun _ _ _ => true) (fun (_ : Unit) o => o) (fun _ _ => false)
      (List.replicate 3 (.inl (Party.bus, {})) ++ List.replicate 7 (.inl (Party.worker, {})) ++
        List.replicate 3 (.inl (Party.bus, {})))
      (agentTeam presenceCalls approvalCalls, {})).any
      (fun c => c.2.history.any fun | .accepted _ _ _ => true | _ => false) = true := by
    decide +kernel
  obtain ⟨⟨ps, o⟩, hFollow, hAny⟩ := (Option.any_eq_true _ _).mp hEnds
  have hRun : Team.Steps (fun _ _ => False) (fun _ _ _ => True)
      (agentTeam presenceCalls approvalCalls, {}) (ps, o) :=
    Team.steps_follow (fun _ _ _ _ => trivial) (fun _ _ h => nomatch h) _ hFollow
  obtain ⟨event, hEvent, hAccepted⟩ := List.any_eq_true.mp hAny
  split at hAccepted
  · rename_i call user requestId
    obtain ⟨past, rest, hSplit⟩ := List.append_of_mem hEvent
    exact ⟨ps, o, past, call, user, requestId, rest, hRun, hSplit,
      (answers_bound_to_registration presenceCalls approvalCalls hRun).1 _ _ _ _ _ hSplit⟩
  · cases hAccepted

end VAuth.Dbus
