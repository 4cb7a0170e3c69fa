import VAuth.Ctap.Acceptance
import VAuth.Ctap.Consent
import VAuth.Interaction.Upkeep
import VAuth.Store.Texts
import VAuth.Verifier.DisplayText

/-!
# The texts of signals

The D-Bus type of strings is UTF-8 without NUL. Of the two texts in a `StateChanged` signal, the
message is empty or has passed the check of the verifier codec; the relying party id is that of
the request, of which only the length was checked.
-/

namespace VAuth

open Proc

/-- What a D-Bus string may hold. -/
structure DbusText (text : Bytes) : Prop where
  utf8 : Store.Utf8 text
  noNul : 0 ∉ text

namespace Verifier

theorem nul_mem_encode {c : Char} (h : 0 ∈ String.utf8EncodeChar c) : Control c := by
  rcases encode_cases c with ⟨-, a, hEncode, ha⟩ | ⟨-, -, a, b, hEncode, ha, hb⟩ |
      ⟨-, -, a, b, d, hEncode, ha, hb, hd⟩ | ⟨-, a, b, d, e, hEncode, ha, hb, hd, he⟩ <;>
    rw [hEncode] at h <;> simp only [List.mem_cons, List.not_mem_nil, or_false] at h
  · subst h
    rw [UInt8.toNat_zero] at ha
    left
    omega
  · rcases h with rfl | rfl <;> rw [UInt8.toNat_zero] at * <;> omega
  · rcases h with rfl | rfl | rfl <;> rw [UInt8.toNat_zero] at * <;> omega
  · rcases h with rfl | rfl | rfl | rfl <;> rw [UInt8.toNat_zero] at * <;> omega

/-- What the verifier codec lets through can be sent. -/
theorem Displayable.dbusText {text : Bytes} (h : Displayable text) : DbusText text := by
  obtain ⟨field, hValid⟩ := h
  obtain ⟨-, chars, hPrintable, rfl⟩ := validateDisplayText_ok_iff.mp hValid
  refine ⟨⟨chars, rfl⟩, fun hNul => ?_⟩
  obtain ⟨c, hc, hByte⟩ := List.mem_flatMap.mp hNul
  exact hPrintable c hc (nul_mem_encode hByte)

end Verifier

open Verifier Dbus Dbus.AgentService

/-! ## What a ceremony queues -/

/-- Nothing was queued: the others leave the queue of events alone. -/
def Unqueued (s s' : AgentService) : Prop :=
  ∀ event, Note.queued event ∈ s'.journal → Note.queued event ∈ s.journal

/-- The events queued so far are as `P` says. -/
def Queues (P : StateEvent → Prop) (s : AgentService) : Prop :=
  ∀ event, Note.queued event ∈ s.journal → P event

variable {s s' : AgentService}

theorem unqueued_of_eq (h : s'.journal = s.journal) : Unqueued s s' :=
  fun _ hEvent => h ▸ hEvent

theorem unqueued_note {n : Note} (h : s'.journal = s.journal ++ [n])
    (hNote : ∀ event, n ≠ .queued event) : Unqueued s s' := by
  intro event hEvent
  rw [h] at hEvent
  rcases List.mem_append.mp hEvent with hOld | hNew
  · exact hOld
  · exact absurd (List.mem_singleton.mp hNew).symm (hNote event)

theorem registeredCaller_journal (s : AgentService) (sessionActive : Bool) (call : AgentCall) :
    (s.registeredCaller sessionActive call).2.journal = s.journal := by
  unfold registeredCaller
  split
  · rfl
  · split <;> rfl

theorem unqueued_perform {user : UserContext} {method : AgentMethod}
    (h : s.perform user method = .ok s') : Unqueued s s' := by
  cases method with
  | respondToPresence requestId approved =>
    obtain ⟨_, -, h⟩ := bind_eq_ok.mp h
    cases h
    exact unqueued_of_eq rfl
  | submitSecret requestId promptId secretPipe =>
    obtain ⟨_, -, h⟩ := bind_eq_ok.mp h
    obtain ⟨_, -, h⟩ := bind_eq_ok.mp h
    cases h
    exact unqueued_of_eq rfl
  | cancelInteraction requestId =>
    obtain ⟨_, -, h⟩ := bind_eq_ok.mp h
    cases h
    exact unqueued_note rfl nofun

/-- The D-Bus thread serves the agent. -/
theorem unqueued_serve (s : AgentService) (sessionActive : Bool) (call : AgentCall) :
    Unqueued s (s.serve sessionActive call).2 := by
  have hJournal := registeredCaller_journal s sessionActive call
  unfold AgentService.serve
  split
  · rename_i hCaller
    rw [hCaller] at hJournal
    exact unqueued_of_eq hJournal
  · split
    · exact unqueued_of_eq rfl
    · rename_i hPerform
      exact unqueued_perform hPerform

abbrev queueSetting (P : StateEvent → Prop) : Setting AgentService Dbus.Input :=
  .among Unqueued (fun _ _ => True) fun _ s' => Queues P s'

section Queueing

variable {P : StateEvent → Prop} {user : UserContext} {active : UserInteractionRequest} {α : Type}

theorem tolerates_queues : (queueSetting P).Tolerates (Queues P) :=
  tolerates_among fun _ _ hStep h event hEvent => h event (hStep event hEvent)

theorem Queues.note {s : AgentService} {n : Note} (h : Queues P s)
    (hNote : ∀ event, n = .queued event → P event) : Queues P (s.note n) := by
  intro event hEvent
  rcases List.mem_append.mp hEvent with hOld | hNew
  · exact h event hOld
  · exact hNote event (List.mem_singleton.mp hNew).symm

theorem maintains_unqueued {f : Dbus.Input → AgentService → Except Exn α × AgentService}
    (h : ∀ i s, Unqueued s (f i s).2) :
    Maintains (queueSetting P) (Queues P) (Proc.atomically f) := by
  intro s hs
  refine wp_tolerant_atomically tolerates_queues hs fun s' i hs' _ => ?_
  have hNext : Queues P (f i s').2 := fun event hEvent => hs' event (h i s' event hEvent)
  exact ⟨hNext, fun _ _ => hNext, fun _ _ => hNext⟩

theorem maintains_observe (f : Dbus.Input → AgentService → Except Exn α) :
    Maintains (queueSetting P) (Queues P) (Proc.observe f) :=
  maintains_unqueued fun _ _ => unqueued_of_eq rfl

theorem maintains_read (f : AgentService → α) :
    Maintains (queueSetting P) (Queues P) (Proc.read f : AgentProc α) := maintains_observe _

theorem maintains_note {n : Note} (hNote : ∀ event, n = .queued event → P event) :
    Maintains (queueSetting P) (Queues P) (Proc.modify fun s => s.note n : AgentProc Unit) := by
  intro s hs
  refine wp_tolerant_atomically tolerates_queues hs fun s' i hs' _ => ?_
  have hNext : Queues P (s'.note n) := hs'.note hNote
  exact ⟨hNext, fun _ _ => hNext, fun _ _ => hNext⟩

theorem maintains_publishState {state : UserInteractionState} {message : Bytes}
    (hP : ∀ event : StateEvent, event.relyingPartyId = active.relyingPartyId →
      event.message = message → P event) :
    Maintains (queueSetting P) (Queues P) (publishState user active state message) := by
  have hTransition : Maintains (queueSetting P) (Queues P)
      (AgentService.transition user active state message) := by
    refine maintains_unqueued fun i s => ?_
    split <;> exact unqueued_of_eq rfl
  unfold publishState
  refine maintains_bind (maintains_observe _) fun _ => ?_
  split
  · exact maintains_done _
  refine maintains_bind (maintains_read _) fun isCurrent => ?_
  split
  · exact maintains_done _
  refine maintains_bind hTransition fun transition => ?_
  split
  · exact maintains_done _
  · refine maintains_bind (maintains_note fun event hEvent => ?_) fun _ => maintains_done _
    cases hEvent
    exact hP _ rfl rfl

theorem maintains_contextIsStillCurrent :
    Maintains (queueSetting P) (Queues P) (contextIsStillCurrent user) := by
  have hModify {f : AgentService → AgentService} (h : ∀ s, (f s).journal = s.journal) :
      Maintains (queueSetting P) (Queues P) (Proc.modify f : AgentProc Unit) :=
    maintains_unqueued fun _ s => unqueued_of_eq (h s)
  refine maintains_bind ?_ fun _ => maintains_done _
  refine maintains_bind (maintains_observe _) fun _ => maintains_bind (maintains_read _)
    fun context => maintains_bind (maintains_observe _) fun _ => ?_
  cases context with
  | none => exact maintains_done _
  | some context =>
    refine maintains_bind (maintains_observe _) fun isActive => ?_
    split
    · exact maintains_done _
    · exact maintains_bind (hModify fun _ => rfl) fun _ =>
        maintains_bind (hModify fun _ => rfl) fun _ => maintains_done _

/-- The ceremonies publish states without a message, and those of the verifier. -/
def Allows (P : StateEvent → Prop) (active : UserInteractionRequest) : Prop :=
  ∀ event : StateEvent, event.relyingPartyId = active.relyingPartyId →
    DbusText event.message → P event

theorem Allows.upholds (hP : Allows P active) :
    Upholds (queueSetting P) (Queues P) user active where
  mayCut := trivial
  calm := by
    intro α f hCalm
    refine maintains_unqueued fun i s event hEvent => ?_
    have hSame : queuedEvents (f i s).2.journal = queuedEvents s.journal :=
      congrArg Seen.events (hCalm i s)
    rw [← mem_queuedEvents, ← hSame]
    exact mem_queuedEvents.mpr hEvent
  context := maintains_contextIsStillCurrent
  publish := fun _ _ hMessage => maintains_publishState fun event hRp hSame =>
    hP event hRp (hSame ▸ hMessage.dbusText)

/-! ### The scope -/

variable {request : UserInteractionRequest}

theorem maintains_interactionScope {body : UserInteractionRequest → AgentProc α}
    (hBody : ∀ requestId, Maintains (queueSetting P) (Queues P) (body { request with requestId })) :
    Maintains (queueSetting P) (Queues P) (interactionScope user request body) := by
  have hBegin : Maintains (queueSetting P) (Queues P) (beginInteraction user request) := by
    refine maintains_bind (maintains_observe _) fun _ => ?_
    dsimp only
    split
    · exact fun _ h => h
    split
    · exact maintains_done _
    refine maintains_bind (maintains_read _) fun isCurrent => ?_
    split
    · exact maintains_done _
    refine maintains_unqueued fun i s => ?_
    cases s.interactions.begin user request.operation request.relyingPartyId with
    | error e => exact unqueued_of_eq rfl
    | ok begun => exact unqueued_note rfl fun _ hQueued => by cases hQueued
  refine maintains_bind hBegin fun requestId => ?_
  split
  · exact fun _ h => h
  refine maintains_bind ?_ fun outcome => maintains_bind ?_ fun _ => ?_
  · exact maintains_tryCatch (maintains_bind (hBody requestId) fun _ => maintains_done _)
      fun _ => maintains_done _
  · exact maintains_unqueued fun _ _ => unqueued_note rfl fun _ hQueued => by cases hQueued
  · exact fun _ h => wp_ofExcept.mpr ⟨fun _ _ => h, fun _ _ => h⟩

/-- **A ceremony** queues events with the relying party of its request and messages that can be
sent. -/
theorem maintains_ceremony (hP : Allows P request) (kind : Ceremony) (rounds : Nat) :
    Maintains (queueSetting P) (Queues P) (ceremony kind rounds user request) := by
  have hActive (requestId : UInt64) : Allows P { request with requestId } := hP
  cases kind with
  | presence => exact maintains_interactionScope fun id => (hActive id).upholds.presenceBody rounds
  | verification =>
    exact maintains_interactionScope fun id => (hActive id).upholds.verificationBody rounds

end Queueing

/-! ## What a command asks -/

namespace Ctap

open Store

/-- All interactions are about this relying party. -/
def Asks (rpId : Option Bytes) (d : Daemon) : Prop :=
  ∀ interaction ∈ d.ceremony.interactions, some interaction.request.relyingPartyId = rpId

abbrev askSetting (rpId : Option Bytes) : Setting Daemon Input :=
  .among Service.nobody (fun _ _ => True) fun _ d' => Asks rpId d'

section Asking

variable {L : Libraries} {rpId : Option Bytes} {α : Type}

abbrev AsksFor (rpId : Option Bytes) (p : HandlerProc α) : Prop :=
  Maintains (askSetting rpId) (Asks rpId) p

theorem asks_still {p : HandlerProc α} (h : Still (fun d : Daemon => d.ceremony.interactions) p) :
    AsksFor rpId p :=
  maintains_of_still (I := fun interactions => ∀ interaction ∈ interactions,
    some interaction.request.relyingPartyId = rpId) Service.keeps_nobody.shows h

theorem asks_withStore (p : StoreProc α) : AsksFor rpId (withStore p) := by
  intro d hd
  have hAny : wp (.among Service.nobody (fun _ _ => True) fun _ _ => True) (fun _ _ => True)
      (fun _ _ => True) p d.world := wp_trivial (fun _ _ => trivial) trivial
  refine wp_mono (wp_withStore_alone (fun _ _ => hd) hAny) ?_ ?_
  · rintro _ _ ⟨w, -, rfl⟩
    exact hd
  · rintro _ _ ⟨w, -, rfl⟩
    exact hd

theorem asks_ofExcept (r : Except Exn α) : AsksFor rpId (Proc.ofExcept r : HandlerProc α) :=
  asks_still (still_ofExcept r)

theorem asks_modify {f : Daemon → Daemon}
    (h : ∀ d, (f d).ceremony.interactions = d.ceremony.interactions) :
    AsksFor rpId (Proc.modify f : HandlerProc Unit) :=
  asks_still (still_atomically fun _ d => h d)

theorem asks_cancellationPoint : AsksFor rpId cancellationPoint :=
  asks_still (still_atomically fun _ _ => rfl)

theorem asks_currentContext : AsksFor rpId currentContext := by
  refine asks_still (still_atomically fun i d => ?_)
  cases i.context <;> rfl

theorem asks_sign {id digest : Bytes} {key : CredentialKey} :
    AsksFor rpId (sign id digest key) := by
  refine asks_still (still_atomically fun i d => ?_)
  cases i.signature <;> rfl

theorem asks_interaction {kind : InteractionKind} {user : UserContext}
    {request : UserInteractionRequest} (h : some request.relyingPartyId = rpId) :
    AsksFor rpId (requestInteraction kind user request) := by
  intro d hd
  refine wp_keeps_atomically Service.keeps_nobody fun i _ => ?_
  have hNext : Asks rpId (d.asked ⟨kind, user, request, i.interaction⟩) := by
    intro interaction hInteraction
    rcases List.mem_append.mp hInteraction with hOld | hNew
    · exact hd interaction hOld
    · rw [List.mem_singleton.mp hNew]
      exact h
  exact ⟨hNext, fun _ _ => hNext, fun _ _ => hNext⟩

theorem asks_throw {e : Exn} : AsksFor rpId (throw e : HandlerProc α) :=
  fun _ h => h

section Registration

variable {request : CTAPMakeCredentialRequest} (hRp : some request.rp.id = rpId)
include hRp

theorem asks_refuseExcluded (user : UserContext) : AsksFor rpId (request.refuseExcluded user) := by
  refine maintains_bind asks_cancellationPoint fun _ => maintains_bind (asks_interaction hRp)
    fun presence => maintains_bind asks_cancellationPoint fun _ => ?_
  cases presence <;> exact maintains_done _

theorem asks_registrationConsent (user : UserContext) :
    AsksFor rpId (request.requestConsent user) := by
  unfold CTAPMakeCredentialRequest.requestConsent
  split
  · refine maintains_bind (asks_interaction hRp) fun result => maintains_bind
      asks_cancellationPoint fun _ => ?_
    cases result <;> exact maintains_done _
  · refine maintains_bind asks_cancellationPoint fun _ => maintains_bind (asks_interaction hRp)
      fun result => maintains_bind asks_cancellationPoint fun _ => ?_
    cases result <;> exact maintains_done _

omit hRp in
theorem asks_register (user : UserContext) : AsksFor rpId (request.register L user) := by
  have hDraw : AsksFor rpId drawCredentialId := by
    refine asks_still (still_atomically fun i d => ?_)
    cases i.random <;> rfl
  unfold CTAPMakeCredentialRequest.register
  refine maintains_bind hDraw fun credId => maintains_bind asks_cancellationPoint fun _ => ?_
  refine maintains_bind (asks_still (still_atomically fun _ _ => rfl)) fun key =>
    maintains_bind asks_cancellationPoint fun _ => ?_
  refine maintains_bind (asks_ofExcept _) fun point => maintains_bind (asks_ofExcept _)
    fun cose => maintains_bind asks_sign fun signature => maintains_bind (asks_ofExcept _)
    fun payload => maintains_bind asks_cancellationPoint fun _ => ?_
  split
  · exact maintains_bind asks_cancellationPoint fun _ => maintains_bind (asks_withStore _)
      fun _ => maintains_done _
  · exact maintains_done _

omit hRp in
theorem asks_findExcluded (rp : Bytes) (ownerUid : UInt32)
    (list : List PublicKeyCredentialDescriptor) :
    AsksFor rpId (CTAPMakeCredentialRequest.findExcluded rp ownerUid list) := by
  induction list with
  | nil => exact maintains_done _
  | cons descriptor rest ih =>
    unfold CTAPMakeCredentialRequest.findExcluded
    by_cases hType : descriptor.type = text "public-key"
    · rw [if_pos hType]
      refine maintains_bind (asks_still (still_atomically fun _ _ => rfl)) fun excluded => ?_
      cases excluded
      · exact ih
      · exact maintains_done _
    · rw [if_neg hType]
      exact ih

theorem asks_registration : AsksFor rpId (request.buildResponse L) := by
  unfold CTAPMakeCredentialRequest.buildResponse
  refine maintains_bind asks_cancellationPoint fun _ => maintains_bind asks_currentContext
    fun user => maintains_bind (asks_findExcluded _ _ _) fun excluded => ?_
  split
  · exact asks_refuseExcluded hRp user
  split
  · exact maintains_done _
  split
  · exact maintains_done _
  · refine maintains_bind (asks_registrationConsent hRp user) fun error => ?_
    cases error with
    | some error => exact maintains_done _
    | none => exact asks_register user

end Registration

theorem asks_payload {c : StoredCredential} {ownerUid : UInt32} {number : Option UInt32} :
    AsksFor rpId (CTAPGetAssertionRequest.generateSingleCredentialPayload L c ownerUid number) :=
  maintains_bind (asks_still (still_atomically fun _ _ => rfl)) fun _ =>
    maintains_bind asks_sign fun _ => maintains_bind (asks_ofExcept _) fun _ =>
      maintains_bind asks_cancellationPoint fun _ => maintains_bind (asks_withStore _) fun _ =>
        maintains_done _

variable {parameters : AssertionParameters} {cleanup : HandlerProc Unit}

theorem asks_assertionConsent (hRp : some parameters.rpId = rpId) (user : UserContext) :
    AsksFor rpId (CTAPGetAssertionRequest.requestConsent parameters user) := by
  have hResult (present verified : Bool) (result : UserInteractionResult) : AsksFor rpId (do
        if result = .cancelled then return some .operationDenied
        if result ≠ .approved then return some .operationDenied
        CTAPGetAssertionRequest.setConsent present verified
        return none : HandlerProc (Option CTAPError)) := by
    cases result with
    | approved => exact maintains_bind (asks_modify fun _ => rfl) fun _ => maintains_done _
    | _ => exact maintains_done _
  unfold CTAPGetAssertionRequest.requestConsent
  cases assertionInteraction parameters.up parameters.uv with
  | verification =>
    exact maintains_bind (asks_interaction hRp) fun result => maintains_bind
      asks_cancellationPoint fun _ => hResult _ _ result
  | presence =>
    exact maintains_bind asks_cancellationPoint fun _ => maintains_bind (asks_interaction hRp)
      fun result => maintains_bind asks_cancellationPoint fun _ => hResult _ _ result
  | none => exact maintains_done _

theorem asks_assertFirst {cid : UInt32} {user : UserContext} (found : List StoredCredential) :
    AsksFor rpId (CTAPGetAssertionRequest.assertFirst L parameters cid user found) := by
  cases found with
  | nil => exact maintains_done _
  | cons c remaining =>
    refine maintains_bind asks_cancellationPoint fun _ => maintains_bind asks_payload
      fun payload => ?_
    split
    · refine maintains_bind (asks_still (still_atomically fun i d => ?_)) fun _ =>
        maintains_done _
      cases AssertionSequence.begin cid user remaining i.now <;> rfl
    · exact maintains_done _

/-- The request object holds the relying party when the ceremony begins. -/
theorem wp_asks_assertion {cid : UInt32} {d : Daemon} (hRp : some d.getAssertion.rpId = rpId)
    (hd : Asks rpId d) :
    wp (askSetting rpId) (fun _ d' => Asks rpId d') (fun _ d' => Asks rpId d')
      (CTAPGetAssertionRequest.buildResponse L cid) d := by
  have hFind (parameters : AssertionParameters) (ownerUid : UInt32) :
      AsksFor rpId (findForAssertion L parameters ownerUid) := by
    refine asks_still (still_atomically fun _ d => ?_)
    split <;> rfl
  have hReset : AsksFor rpId
      (CTAPGetAssertionRequest.setConsent false false) := asks_modify fun _ => rfl
  unfold CTAPGetAssertionRequest.buildResponse
  refine wp_bind.mpr (wp_keeps_observe Service.keeps_nobody hd fun i _ =>
    ⟨fun _ _ => ?_, fun _ _ => hd⟩)
  refine wp_bind.mpr (wp_keeps_atomically Service.keeps_nobody fun i _ => ?_)
  cases i.context with
  | error e => exact ⟨hd, fun _ hOk => (by cases hOk), fun _ _ => hd⟩
  | ok user =>
    refine ⟨hd, fun _ _ => ?_, fun _ hError => by cases hError⟩
    refine wp_bind.mpr (wp_keeps_read Service.keeps_nobody hd ?_)
    refine wp_seq (hFind _ _ _ hd) (fun found d' hd' => ?_) fun _ _ h => h
    dsimp only
    cases CTAPGetAssertionRequest.validationError d.getAssertion.toAssertionParameters with
    | some error => exact hd'
    | none =>
      dsimp only
      refine maintains_bind hReset (fun _ =>
        maintains_bind (asks_assertionConsent hRp _) fun error => ?_) d' hd'
      cases error with
      | some error => exact maintains_done _
      | none => exact asks_assertFirst found

theorem asks_guarded {build : HandlerProc Bytes} {d : Daemon} (hCleanup : AsksFor rpId cleanup)
    (hBuild : wp (askSetting rpId) (fun _ d' => Asks rpId d') (fun _ d' => Asks rpId d') build d) :
    wp (askSetting rpId) (fun _ d' => Asks rpId d') (fun _ d' => Asks rpId d')
      (guarded cleanup build) d := by
  refine wp_tryCatch.mpr (wp_mono hBuild (fun _ _ h => h) fun e d' hd' => ?_)
  refine maintains_bind hCleanup (fun _ => ?_) d' hd'
  cases errorReply e with
  | some error => exact maintains_done _
  | none => exact asks_throw

theorem asks_replyWith (cid : UInt32) (payload : Bytes) (hCleanup : AsksFor rpId cleanup) :
    AsksFor rpId (replyWith cleanup cid payload) := by
  unfold replyWith
  split
  · exact maintains_bind hCleanup fun _ => maintains_done _
  · split
    · exact maintains_bind (asks_modify fun _ => rfl) fun _ => maintains_done _
    · exact maintains_done _

variable {request : CborRequest}

theorem asks_reset : AsksFor rpId reset := asks_modify fun _ => rfl

theorem asks_handleGetInfo : AsksFor rpId (handleGetInfo request) := by
  unfold handleGetInfo
  split
  · exact maintains_done _
  · refine maintains_bind (maintains_tryCatch (asks_ofExcept _) fun e => ?_) fun payload =>
      asks_replyWith _ payload (maintains_done _)
    cases e <;> first | exact maintains_done _ | exact asks_throw

theorem asks_handleMakeCredential (hCommand : request.command = 0x01) :
    AsksFor (requestedRp L request) (handleMakeCredential L request) := by
  unfold handleMakeCredential
  cases hParsed : CTAPMakeCredentialRequest.parseRequest L.walk request.parameters with
  | none => exact maintains_done _
  | some makeCredential =>
    have hRp : some makeCredential.rp.id = requestedRp L request := by
      rw [requestedRp, if_pos hCommand, hParsed]
      rfl
    exact maintains_bind (fun d hd => asks_guarded (maintains_done _)
      (asks_registration hRp d hd)) fun payload => asks_replyWith _ payload (maintains_done _)

theorem asks_handleGetAssertion (hCommand : request.command = 0x02) :
    AsksFor (requestedRp L request) (handleGetAssertion L request) := by
  unfold handleGetAssertion
  refine maintains_bind asks_reset fun _ => ?_
  cases hParsed : CTAPGetAssertionRequest.parseRequest L.walk request.parameters with
  | none => exact maintains_bind asks_reset fun _ => maintains_done _
  | some getAssertion =>
    have hRp : some getAssertion.rpId = requestedRp L request := by
      rw [requestedRp, if_neg (by rw [hCommand]; decide), hParsed]
      rfl
    intro d hd
    refine wp_bind.mpr (wp_keeps_modify Service.keeps_nobody hd ?_)
    refine wp_seq (asks_guarded asks_reset (wp_asks_assertion hRp hd)) ?_ fun _ _ h => h
    exact fun payload d' hd' => asks_replyWith _ payload asks_reset d' hd'

theorem asks_handleGetNextAssertion : AsksFor rpId (handleGetNextAssertion L request) := by
  have hNext : AsksFor rpId (CTAPGetAssertionRequest.buildResponseNext L request.cid) := by
    refine maintains_bind asks_currentContext fun user => maintains_bind
      (asks_still (still_atomically fun _ _ => rfl)) fun next => ?_
    cases next with
    | none => exact maintains_done _
    | some c => exact maintains_bind asks_cancellationPoint fun _ => asks_payload
  unfold handleGetNextAssertion
  refine maintains_bind (asks_still (still_atomically fun _ _ => rfl)) fun originCid => ?_
  split
  · exact maintains_done _
  split
  · exact maintains_bind asks_reset fun _ => maintains_done _
  · exact maintains_bind (fun d hd => asks_guarded asks_reset (hNext d hd)) fun payload =>
      asks_replyWith _ payload asks_reset

/-- **A command** asks the user about the relying party of its request only. -/
theorem asks_executeCtapRequest : AsksFor (requestedRp L request)
      (executeCtapRequest L request) := by
  have hHandle : AsksFor (requestedRp L request) (handle L request) := by
    have hDispatch : AsksFor (requestedRp L request)
        (if request.command = 0x04 then handleGetInfo request
          else if request.command = 0x01 then handleMakeCredential L request
          else if request.command = 0x02 then handleGetAssertion L request
          else if request.command = 0x08 then handleGetNextAssertion L request
          else return makeCborError request.cid CTAPError.invalidCommand.code) := by
      split
      · exact asks_handleGetInfo
      split
      · exact asks_handleMakeCredential ‹_›
      split
      · exact asks_handleGetAssertion ‹_›
      split
      · exact asks_handleGetNextAssertion
      · exact maintains_done _
    unfold handle
    by_cases hOther : request.command ≠ 0x02 ∧ request.command ≠ 0x08
    · rw [if_pos hOther]
      exact maintains_bind asks_reset fun _ => hDispatch
    · rw [if_neg hOther]
      exact hDispatch
  exact maintains_tryCatch (maintains_bind asks_cancellationPoint fun _ => hHandle) fun e =>
    maintains_bind asks_reset fun _ => asks_throw

end Asking

/-- **Signals are legal if the relying party id is.** Whatever a command asks the user, every event
that the ceremony queues has a relying party id and a message that D-Bus can carry. -/
theorem queued_texts_legal {L : Libraries} {request : CborRequest} {rpId : Bytes}
    (hRp : requestedRp L request = some rpId) (hLegal : DbusText rpId) (d : Daemon)
    (inputs : List Input) : ∀ interaction ∈
      (Proc.run inputs (executeCtapRequest L request) d.newRecord).2.ceremony.interactions,
    ∀ (kind : VAuth.Ceremony) (rounds : Nat) (s s' : AgentService)
      (p : AgentProc UserInteractionResult),
      Proc.Steps Unqueued (fun _ _ => True)
        (ceremony kind rounds interaction.user interaction.request, s) (p, s') →
      ∀ event, Note.queued event ∈ s'.journal → Note.queued event ∈ s.journal ∨
        DbusText event.relyingPartyId ∧ DbusText event.message := by
  intro interaction hInteraction kind rounds s s' p hRun
  have hAsks : Asks (requestedRp L request)
      (Proc.run inputs (executeCtapRequest L request) d.newRecord).2 :=
    wp_invariant (asks_executeCtapRequest d.newRecord nofun) nofun
      (fun _ _ hStep => hStep.elim) (fun _ _ h _ => h)
      (steps_run (fun _ _ => trivial) inputs _ _)
  have hSame : interaction.request.relyingPartyId = rpId :=
    Option.some.inj ((hAsks interaction hInteraction).trans hRp)
  have hAllows : Allows (fun event => Note.queued event ∈ s.journal ∨
      DbusText event.relyingPartyId ∧ DbusText event.message) interaction.request := by
    intro event hEvent hMessage
    rw [hSame] at hEvent
    exact .inr ⟨hEvent ▸ hLegal, hMessage⟩
  exact wp_invariant (maintains_ceremony hAllows kind rounds s fun _ hEvent => .inl hEvent)
    (fun _ hEvent => .inl hEvent) (fun _ _ hStep h event hEvent => h event (hStep event hEvent))
    (fun _ _ h _ => h) hRun

/-- The registration and the assertion for a relying party. -/
def makeCredentialFor (rpId : Bytes) : CborRequest where
  cid := 1
  command := 0x01
  parameters := (Cbor.map (registration rpId [1] (.negative 6))).encode

def getAssertionFor (rpId : Bytes) : CborRequest where
  cid := 1
  command := 0x02
  parameters := (Cbor.map [.uint 1, .text rpId, .uint 2, .bytes (List.replicate 32 0)]).encode

/-- The agent of the user is registered. -/
def sampleService : AgentService := { registry := { current := some sampleUser } }

/-- The event of a presence request. -/
def presenceEvent (operation : UserInteractionOperation) (rpId : Bytes) : StateEvent where
  user := sampleUser
  requestId := 1
  promptId := 0
  operation
  state := .presenceRequired
  relyingPartyId := rpId
  message := []

theorem queued_texts_legal_registration : ∃ s',
    Proc.run (List.replicate 12 {}) (ceremony .presence 3 sampleUser
      { operation := .makeCredential, relyingPartyId := [97] }) sampleService = s' ∧
    Note.queued (presenceEvent .makeCredential [97]) ∈ s'.2.journal ∧
    DbusText (presenceEvent .makeCredential [97]).relyingPartyId := by
  have hRp : requestedRp sampleLibraries (makeCredentialFor [97]) = some [97] := by decide +kernel
  have hLegal : DbusText [97] := ⟨utf8_ascii (by decide +kernel), by decide⟩
  have hAsked : (Proc.run (List.replicate 12 approving) (executeCtapRequest sampleLibraries
      (makeCredentialFor [97])) ({} : Daemon).newRecord).2.ceremony.interactions.map
        (fun i => (i.user, i.request)) =
      [(sampleUser, { operation := .makeCredential, relyingPartyId := [97] })] := by
    decide +kernel
  have hQueued : Note.queued (presenceEvent .makeCredential [97]) ∈ (Proc.run
      (List.replicate 12 {}) (ceremony .presence 3 sampleUser
        { operation := .makeCredential, relyingPartyId := [97] }) sampleService).2.journal := by
    decide +kernel
  obtain ⟨interaction, hInteraction, hSame⟩ := List.mem_map.mp (hAsked ▸ List.mem_singleton_self _)
  obtain ⟨hUser, hRequest⟩ := Prod.mk.inj hSame
  refine ⟨_, rfl, hQueued, ?_⟩
  have hTexts := queued_texts_legal hRp hLegal {} (List.replicate 12 approving) interaction
    hInteraction .presence 3 sampleService _ _ (steps_run (fun _ _ => trivial)
      (List.replicate 12 {}) _ _)
  rw [hUser, hRequest] at hTexts
  rcases hTexts _ hQueued with hOld | ⟨hRelyingParty, -⟩
  · cases hOld
  · exact hRelyingParty

/-- Both kinds of request are accepted with a relying party id that is not UTF-8, and the user is
asked about it. -/
theorem queued_text_not_utf8 : ¬ DbusText [0xff] ∧
    ∀ request ∈ [(makeCredentialFor [0xff], UserInteractionOperation.makeCredential),
        (getAssertionFor [0xff], UserInteractionOperation.getAssertion)],
      requestedRp sampleLibraries request.1 = some [0xff] ∧
      (Proc.run (List.replicate 12 approving) (executeCtapRequest sampleLibraries request.1)
        ({} : Daemon).newRecord).2.ceremony.interactions.map (fun i => (i.user, i.request)) =
        [(sampleUser, { operation := request.2, relyingPartyId := [0xff] })] ∧
      Note.queued (presenceEvent request.2 [0xff]) ∈ (Proc.run (List.replicate 12 {})
        (ceremony .presence 3 sampleUser { operation := request.2, relyingPartyId := [0xff] })
        sampleService).2.journal := by
  refine ⟨fun h => ?_, by decide +kernel⟩
  exact absurd (h.utf8.byte_lt List.mem_cons_self) (by decide)

end Ctap

end VAuth
