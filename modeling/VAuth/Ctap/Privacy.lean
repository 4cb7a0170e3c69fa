import VAuth.Process.Lockstep
import VAuth.Hid.EventLoop

/-!
# What a refusal reveals about the store

Two runs of one command on two stores, with a user who does not approve. A GetAssertion that has
to ask the user goes the same way on both, although it searches the store first: the search leaves
nothing behind but the record `ceremony.found`, which the program does not read. A MakeCredential
does not go the same way, for an excluded credential is asked for under another operation; it gives
the same packet where no check of the request comes between.
-/

namespace VAuth.Ctap

open Proc Store

/-- The packet of a worker whose command has ended. -/
def responsePacket? (request : CborRequest) (command : HandlerProc CTAPPacket) :
    Option CTAPPacket :=
  command.outcome?.map fun
    | .ok packet => packet
    | .error e => makeCborError request.cid (taskError e).code

variable {p : HandlerProc CTAPPacket}

theorem responsePacket?_congr {request : CborRequest} {p' : HandlerProc CTAPPacket}
    (h : p.outcome? = p'.outcome?) : responsePacket? request p = responsePacket? request p' := by
  rw [responsePacket?, responsePacket?, h]

theorem responsePacket?_isSome (request : CborRequest) :
    (responsePacket? request p).isSome = p.outcome?.isSome := Option.isSome_map

/-- A command after `n` inputs of the stream. -/
def served (L : Libraries) (request : CborRequest) (stream : Nat → Input) (n : Nat) (d : Daemon) :
    HandlerProc CTAPPacket × Daemon :=
  Proc.run ((List.range n).map stream) (serve L request) d

/-- All refusals are answered in the same way. -/
theorem ite_refused {β : Type} {result : UserInteractionResult} (h : result ≠ .approved) (x y : β) :
    (if result = .cancelled then x else if result ≠ .approved then x else y) = x := by
  rw [if_pos h, ite_self]

/-! ## GetAssertion -/

/-- The user approves of nothing. -/
def Unapproved (i : Input) : Prop := i.interaction ≠ .ok .approved

/-- Daemons with these two stores that are otherwise the same to the client and the user. -/
structure Indistinct (w w' : World) (d d' : Daemon) : Prop where
  world : d.world = w
  world' : d'.world = w'
  getAssertion : d'.getAssertion = d.getAssertion
  interactions : d'.ceremony.interactions = d.ceremony.interactions

/-- Runs that cannot be told apart but by their stores, which stay as they are. -/
abbrev SameCourse (w w' : World) {α : Type} (p : HandlerProc α) (d : Daemon) (p' : HandlerProc α)
    (d' : Daemon) : Prop :=
  Lockstep Unapproved (Indistinct w w') (Alike (Indistinct w w')) (Alike (Indistinct w w'))
    p d p' d'

section GetAssertion

variable {L : Libraries} {w w' : World} {d d' : Daemon} {request : CborRequest}
  {parameters : AssertionParameters} {user : UserContext}

section

variable (h : Indistinct w w' d d')
include h

theorem Indistinct.asked (interaction : Interaction) :
    Indistinct w w' (d.asked interaction) (d'.asked interaction) :=
  ⟨h.world, h.world', h.getAssertion, congrArg (· ++ [interaction]) h.interactions⟩

theorem lockstep_cancellationPoint {α β : Type} {Q : α → Daemon → β → Daemon → Prop}
    {next : HandlerProc α} {next' : HandlerProc β}
    (hNext : Lockstep Unapproved (Indistinct w w') Q (Alike (Indistinct w w')) next d next' d') :
    Lockstep Unapproved (Indistinct w w') Q (Alike (Indistinct w w')) (do
        cancellationPoint
        next) d
      (do
        cancellationPoint
        next') d' := by
  refine lockstep_bind (lockstep_atomically fun i _ => ⟨h, ?_⟩)
  by_cases hStop : i.stop = true
  · exact .inr ⟨_, _, if_pos hStop, if_pos hStop, rfl, h⟩
  · exact .inl ⟨_, _, if_neg hStop, if_neg hStop, hNext⟩

theorem lockstep_currentContext {α β : Type} {Q : α → Daemon → β → Daemon → Prop}
    {next : UserContext → HandlerProc α} {next' : UserContext → HandlerProc β}
    (hNext : ∀ user, Lockstep Unapproved (Indistinct w w') Q (Alike (Indistinct w w'))
      (next user) { d with ceremony.user := some user }
      (next' user) { d' with ceremony.user := some user }) :
    Lockstep Unapproved (Indistinct w w') Q (Alike (Indistinct w w')) (do
        let user ← currentContext
        next user) d
      (do
        let user ← currentContext
        next' user) d' := by
  refine lockstep_bind (lockstep_atomically fun i _ => ?_)
  cases i.context with
  | ok user =>
    exact ⟨⟨h.world, h.world', h.getAssertion, h.interactions⟩, .inl ⟨_, _, rfl, rfl, hNext user⟩⟩
  | error e => exact ⟨h, .inr ⟨e, e, rfl, rfl, rfl, h⟩⟩

theorem sameCourse_reset : SameCourse w w' reset d reset d' :=
  alike_modify ⟨h.world, h.world', rfl, h.interactions⟩

theorem sameCourse_setConsent (present verified : Bool) :
    SameCourse w w' (CTAPGetAssertionRequest.setConsent present verified) d
      (CTAPGetAssertionRequest.setConsent present verified) d' := by
  refine alike_modify ⟨h.world, h.world', ?_, h.interactions⟩
  simp only [h.getAssertion]

/-- A refused interaction: what follows it sees no approval. -/
theorem lockstep_refusal {α : Type} {Q : α → Daemon → α → Daemon → Prop}
    {next : UserInteractionResult → HandlerProc α}
    (kind : InteractionKind) (interaction : UserInteractionRequest)
    (hNext : ∀ result ≠ .approved, ∀ d d', Indistinct w w' d d' →
      Lockstep Unapproved (Indistinct w w') Q (Alike (Indistinct w w')) (next result) d
        (next result) d') :
    Lockstep Unapproved (Indistinct w w') Q (Alike (Indistinct w w')) (do
        let result ← requestInteraction kind user interaction
        cancellationPoint
        next result) d
      (do
        let result ← requestInteraction kind user interaction
        cancellationPoint
        next result) d' := by
  refine lockstep_bind (lockstep_atomically fun i hi => ⟨h.asked _, ?_⟩)
  cases hResult : i.interaction with
  | error e => exact .inr ⟨e, e, rfl, rfl, rfl, h.asked _⟩
  | ok result =>
    have hRefused : result ≠ .approved := by
      rintro rfl
      exact hi hResult
    exact .inl ⟨result, result, rfl, rfl,
      lockstep_cancellationPoint (h.asked _) (hNext result hRefused _ _ (h.asked _))⟩

theorem lockstep_requestConsent (hAsks : parameters.up = true ∨ parameters.uv = true) :
    Lockstep Unapproved (Indistinct w w')
      (fun error d error' d' => error = some .operationDenied ∧ error' = some .operationDenied ∧
        Indistinct w w' d d') (Alike (Indistinct w w'))
      (CTAPGetAssertionRequest.requestConsent parameters user) d
      (CTAPGetAssertionRequest.requestConsent parameters user) d' := by
  unfold CTAPGetAssertionRequest.requestConsent assertionInteraction
  by_cases hUv : parameters.uv = true
  · rw [if_pos hUv]
    refine lockstep_refusal h .verification _ fun result hResult d d' h => ?_
    rw [ite_refused hResult]
    exact .done ⟨rfl, rfl, h⟩
  · rw [if_neg hUv, if_pos (hAsks.resolve_right hUv)]
    refine lockstep_cancellationPoint h ?_
    refine lockstep_refusal h .presence _ fun result hResult d d' h => ?_
    rw [ite_refused hResult]
    exact .done ⟨rfl, rfl, h⟩

end

theorem findForAssertion_ready {store : CredentialStore} (hReady : store.requiresReload = false)
    (P : Platform) (rpId : Bytes) (allowList : List PublicKeyCredentialDescriptor)
    (ownerUid : UInt32) :
    ∃ found, store.findForAssertion P rpId allowList ownerUid = .ok found := by
  unfold CredentialStore.findForAssertion
  rw [requireReady_eq hReady]
  by_cases hList : allowList ≠ []
  · exact ⟨_, if_pos hList⟩
  · exact ⟨_, if_neg hList⟩

/-- The search gives other matches on other stores, but nothing else. -/
theorem lockstep_findForAssertion (h : Indistinct w w' d d')
    (hReady : w.store.requiresReload = false) (hReady' : w'.store.requiresReload = false) :
    Lockstep Unapproved (Indistinct w w') (fun _ d _ d' => Indistinct w w' d d')
      (Alike (Indistinct w w')) (findForAssertion L parameters user.uid) d
      (findForAssertion L parameters user.uid) d' := by
  obtain ⟨found, hFound⟩ := findForAssertion_ready hReady L.toPlatform parameters.rpId
    parameters.allowList user.uid
  obtain ⟨found', hFound'⟩ := findForAssertion_ready hReady' L.toPlatform parameters.rpId
    parameters.allowList user.uid
  rw [← h.world] at hFound
  rw [← h.world'] at hFound'
  refine lockstep_atomically fun i _ => ?_
  simp only [hFound, hFound']
  have hSame : Indistinct w w' { d with ceremony.found := found }
      { d' with ceremony.found := found' } := ⟨h.world, h.world', h.getAssertion, h.interactions⟩
  exact ⟨hSame, .inl ⟨found, found', rfl, rfl, hSame⟩⟩

/-- The ceremony ends before it comes to the matches. -/
theorem sameCourse_assertionBuildResponse (h : Indistinct w w' d d')
    (hReady : w.store.requiresReload = false) (hReady' : w'.store.requiresReload = false)
    (hAsks : d.getAssertion.up = true ∨ d.getAssertion.uv = true) (cid : UInt32) :
    SameCourse w w' (CTAPGetAssertionRequest.buildResponse L cid) d
      (CTAPGetAssertionRequest.buildResponse L cid) d' := by
  unfold CTAPGetAssertionRequest.buildResponse
  refine lockstep_cancellationPoint h (lockstep_currentContext h fun user => ?_)
  have hSame : Indistinct w w' { d with ceremony.user := some user }
      { d' with ceremony.user := some user } := ⟨h.world, h.world', h.getAssertion, h.interactions⟩
  have hRead : d'.getAssertion.toAssertionParameters = d.getAssertion.toAssertionParameters := by
    rw [h.getAssertion]
  refine lockstep_bind (lockstep_atomically fun _ _ =>
    ⟨hSame, .inl ⟨_, _, rfl, congrArg Except.ok hRead, ?_⟩⟩)
  refine lockstep_bind (lockstep_mono (lockstep_findForAssertion hSame hReady hReady') ?_
    fun _ _ _ _ h => h)
  intro found e found' e' h
  cases CTAPGetAssertionRequest.validationError d.getAssertion.toAssertionParameters with
  | some error => exact .done ⟨rfl, h⟩
  | none =>
    refine lockstep_alike_bind (sameCourse_setConsent h false false) fun _ _ _ h => ?_
    refine lockstep_bind (lockstep_mono (lockstep_requestConsent h hAsks) ?_ fun _ _ _ _ h => h)
    rintro _ _ _ _ ⟨rfl, rfl, h⟩
    exact .done ⟨rfl, h⟩

/-- The `catch` clauses, and the reply. -/
theorem sameCourse_guarded_reset {build : HandlerProc Bytes}
    (h : SameCourse w w' build d build d') :
    SameCourse w w' (guarded reset build) d (guarded reset build) d' := by
  refine lockstep_tryCatch (lockstep_mono h (fun _ _ _ _ h => h) ?_)
  rintro e d _ d' ⟨rfl, h⟩
  refine lockstep_alike_bind (sameCourse_reset h) fun _ d d' h => ?_
  cases errorReply e with
  | some error => exact .done ⟨rfl, h⟩
  | none => exact .fail ⟨rfl, h⟩

theorem sameCourse_replyWith_reset (h : Indistinct w w' d d') (cid : UInt32) (payload : Bytes) :
    SameCourse w w' (replyWith reset cid payload) d (replyWith reset cid payload) d' := by
  unfold replyWith
  split
  · exact lockstep_alike_bind (sameCourse_reset h) fun _ _ _ h => .done ⟨rfl, h⟩
  · split
    · exact lockstep_alike_bind (sameCourse_reset h) fun _ _ _ h => .done ⟨rfl, h⟩
    · exact .done ⟨rfl, h⟩

/-- A command that ends in an exception clears the request object. -/
theorem sameCourse_executeCtapRequest (h : Indistinct w w' d d')
    (hHandle : SameCourse w w' (handle L request) d (handle L request) d') :
    SameCourse w w' (executeCtapRequest L request) d (executeCtapRequest L request) d' := by
  refine lockstep_tryCatch (lockstep_mono (E := Alike (Indistinct w w'))
    (lockstep_cancellationPoint h hHandle) (fun _ _ _ _ h => h) ?_)
  rintro e d _ d' ⟨rfl, h⟩
  exact lockstep_alike_bind (sameCourse_reset h) fun _ _ _ h => .fail ⟨rfl, h⟩

theorem sameCourse_handleGetAssertion (h : Indistinct w w' d d')
    (hReady : w.store.requiresReload = false) (hReady' : w'.store.requiresReload = false)
    (hParsed : CTAPGetAssertionRequest.parseRequest L.walk request.parameters =
      some { parameters with })
    (hAsks : parameters.up = true ∨ parameters.uv = true) :
    SameCourse w w' (handleGetAssertion L request) d (handleGetAssertion L request) d' := by
  unfold handleGetAssertion
  rw [hParsed]
  refine lockstep_alike_bind (sameCourse_reset h) fun _ d d' h => ?_
  have hSame : Indistinct w w' { d with getAssertion := { parameters with } }
      { d' with getAssertion := { parameters with } } := ⟨h.world, h.world', rfl, h.interactions⟩
  refine lockstep_bind (lockstep_atomically fun _ _ => ⟨hSame, .inl ⟨_, _, rfl, rfl, ?_⟩⟩)
  refine lockstep_alike_bind (sameCourse_guarded_reset
    (sameCourse_assertionBuildResponse hSame hReady hReady' hAsks request.cid)) ?_
  exact fun payload _ _ h => sameCourse_replyWith_reset h request.cid payload

theorem sameCourse_serve (hReady : w.store.requiresReload = false)
    (hReady' : w'.store.requiresReload = false) (hCommand : request.command = 0x02)
    (hParsed : CTAPGetAssertionRequest.parseRequest L.walk request.parameters =
      some { parameters with })
    (hAsks : parameters.up = true ∨ parameters.uv = true) (d : Daemon) :
    SameCourse w w' (serve L request) { d with world := w } (serve L request)
      { d with world := w' } := by
  unfold serve
  refine lockstep_alike_bind (alike_modify ⟨rfl, rfl, rfl, rfl⟩) fun _ d d' h => ?_
  refine sameCourse_executeCtapRequest h ?_
  have hHandle : handle L request = handleGetAssertion L request := by
    unfold handle
    rw [hCommand]
    rfl
  rw [hHandle]
  exact sameCourse_handleGetAssertion h hReady hReady' hParsed hAsks

end GetAssertion

/-- **A refused GetAssertion tells nothing of the store.** For every request that asks for user
presence or verification, on any two stores: if the user approves of nothing, the runs show the
same packet, the same interactions and the same continuation state at every point, the stores stay
as they are, and both runs do end. -/
theorem unapproved_assertion_reveals_nothing {L : Libraries} {request : CborRequest}
    {getAssertion : CTAPGetAssertionRequest} (hCommand : request.command = 0x02)
    (hParsed : CTAPGetAssertionRequest.parseRequest L.walk request.parameters = some getAssertion)
    (hAsks : getAssertion.up = true ∨ getAssertion.uv = true) (d : Daemon) {w w' : World}
    (hReady : w.store.requiresReload = false) (hReady' : w'.store.requiresReload = false)
    (stream : Nat → Input) (hStream : ∀ n, (stream n).interaction ≠ .ok .approved) :
    (∀ n,
      let one := served L request stream n { d with world := w }
      let other := served L request stream n { d with world := w' }
      responsePacket? request one.1 = responsePacket? request other.1 ∧
        Indistinct w w' one.2 other.2) ∧
    ∃ n packet,
      responsePacket? request (served L request stream n { d with world := w }).1 = some packet ∧
      responsePacket? request (served L request stream n { d with world := w' }).1 =
        some packet := by
  obtain ⟨parameters, rfl⟩ := parseRequest_some hParsed
  have hCourse := sameCourse_serve hReady hReady' hCommand hParsed hAsks d
  have hInputs (n : Nat) : ∀ i ∈ (List.range n).map stream, Unapproved i := by
    intro i hi
    obtain ⟨k, -, rfl⟩ := List.mem_map.mp hi
    exact hStream k
  have hSame (n : Nat) := lockstep_run hCourse ⟨rfl, rfl, rfl, rfl⟩ _ (hInputs n)
  constructor
  · intro n
    obtain ⟨h, hRest⟩ := hSame n
    exact ⟨responsePacket?_congr hRest.outcome_eq, h⟩
  · obtain ⟨n, hEnd⟩ := lockstep_run_stream hCourse stream hStream
    rw [← responsePacket?_isSome request] at hEnd
    obtain ⟨packet, hPacket⟩ := Option.isSome_iff_exists.mp hEnd
    exact ⟨n, packet, hPacket, (responsePacket?_congr (hSame n).2.outcome_eq).symm.trans hPacket⟩

/-- The user denies everything. -/
def denying : Input := { approving with interaction := .ok .denied }

/-- A store that holds a credential of the sample user. -/
def stocked : World := { store := { stored := {sampleEntry 1 0}, generation := 1 } }

theorem unapproved_assertion_reveals_nothing_denied : ∃ n packet,
    responsePacket? sampleGetAssertion (served sampleLibraries sampleGetAssertion
      (fun _ => denying) n { world := {} }).1 = some packet ∧
    responsePacket? sampleGetAssertion (served sampleLibraries sampleGetAssertion
      (fun _ => denying) n { world := stocked }).1 = some packet := by
  have hAsks : (CTAPGetAssertionRequest.parseRequest sampleLibraries.walk
      sampleGetAssertion.parameters).any (·.uv) = true := by decide +kernel
  obtain ⟨getAssertion, hParsed, hUv⟩ := (Option.any_eq_true _ _).mp hAsks
  exact (unapproved_assertion_reveals_nothing rfl hParsed (.inr hUv) {} rfl rfl (fun _ => denying)
    fun _ => nofun).2

/-! ## MakeCredential -/

/-- An interaction that the user denies, cancels or lets expire. -/
inductive Refusal : Except Exn UserInteractionResult → Prop
  | denied : Refusal (.ok .denied)
  | cancelled : Refusal (.ok .cancelled)
  | expired : Refusal (.error .userActionTimedOut)

/-- The client waits, and the user refuses. -/
structure Refusing (user : UserContext) (i : Input) : Prop where
  stop : i.stop = false
  context : i.context = .ok user
  interaction : Refusal i.interaction

/-- A command that runs while the user refuses. -/
abbrev refused (user : UserContext) : Setting Daemon Input := .alone (Refusing user) fun _ => True

section MakeCredential

variable {L : Libraries} {d : Daemon} {request : CborRequest}
  {makeCredential : CTAPMakeCredentialRequest} {user : UserContext} {E : Exn → Daemon → Prop}

theorem wp_refused_cancellationPoint {Q : Unit → Daemon → Prop} (hQ : Q () d) :
    wp (refused user) Q E cancellationPoint d :=
  wp_alone_cancellationPoint (fun _ hi => hi.stop) hQ

/-- Presence or verification, asked in vain. -/
theorem wp_refused_interaction {α : Type} {Q : α → Daemon → Prop} (kind : InteractionKind)
    (interaction : UserInteractionRequest) {next : UserInteractionResult → HandlerProc α}
    (hE : ∀ d', E .userActionTimedOut d')
    (hNext : ∀ result ≠ .approved, ∀ d', wp (refused user) Q E (next result) d') :
    wp (refused user) Q E (do
      let result ← requestInteraction kind user interaction
      cancellationPoint
      next result) d := by
  refine wp_bind.mpr (wp_keeps_atomically keeps_alone fun i hi => ⟨trivial, ?_, ?_⟩)
  · intro result hResult
    refine wp_bind.mpr (wp_refused_cancellationPoint (hNext result ?_ _))
    rintro rfl
    have hRefusal : Refusal (.ok .approved) := hResult ▸ hi.interaction
    cases hRefusal
  · intro e he
    have hRefusal : Refusal (.error e) := he ▸ hi.interaction
    cases hRefusal
    exact hE _

/-- The error of a registration that the user refuses. -/
def refusalError (makeCredential : CTAPMakeCredentialRequest) (excluded : Bool) : CTAPError :=
  if excluded then .operationDenied
  else if ¬ makeCredential.offersEs256 then .unsupportedAlgorithm
  else makeCredential.validationError.getD .operationDenied

/-- What a refusal ends in: the error, or the exception that the worker turns into it. -/
theorem wp_refused_makeCredential (hReady : d.world.store.requiresReload = false) :
    wp (refused user) (fun payload _ => payload =
        failure (refusalError makeCredential (excluded makeCredential user d.world.store)))
      (fun e _ => e = .userActionTimedOut ∧
        refusalError makeCredential (excluded makeCredential user d.world.store) = .operationDenied)
      (makeCredential.buildResponse L) d := by
  unfold CTAPMakeCredentialRequest.buildResponse
  refine wp_bind.mpr (wp_refused_cancellationPoint (wp_bind.mpr (wp_alone_currentContext
    fun i hi => ⟨user, hi.context, ?_⟩)))
  refine wp_seq (wp_alone_findExcluded ?_ _) ?_ fun _ _ h => h
  · exact hReady
  rintro found d' ⟨hFound, -⟩
  obtain rfl : found = excluded makeCredential user d.world.store := hFound
  cases excluded makeCredential user d.world.store with
  | true =>
    refine wp_bind.mpr (wp_refused_cancellationPoint ?_)
    refine wp_refused_interaction .presence _ (fun _ => ⟨rfl, rfl⟩) fun result hResult _ => ?_
    rw [ite_refused hResult]
    rfl
  | false =>
    unfold refusalError
    simp only [Bool.false_eq_true, if_false]
    split
    · rfl
    cases hValid : makeCredential.validationError with
    | some error => rfl
    | none =>
      refine wp_bind.mpr ?_
      unfold CTAPMakeCredentialRequest.requestConsent
      split
      · refine wp_refused_interaction .verification _ (fun _ => ⟨rfl, rfl⟩)
          fun result hResult _ => ?_
        rw [ite_refused hResult]
        rfl
      · refine wp_bind.mpr (wp_refused_cancellationPoint ?_)
        refine wp_refused_interaction .presence _ (fun _ => ⟨rfl, rfl⟩) fun result hResult _ => ?_
        rw [ite_refused hResult]
        rfl

section Serve

variable (hCommand : request.command = 0x01)
  (hParsed : CTAPMakeCredentialRequest.parseRequest L.walk request.parameters =
    some makeCredential) (hReady : d.world.store.requiresReload = false)
include hCommand hParsed hReady

theorem wp_refused_serve : wp (refused user) (fun packet _ => packet = makeCborError request.cid
        (refusalError makeCredential (excluded makeCredential user d.world.store)).code)
      (fun e _ => e = .userActionTimedOut ∧
        refusalError makeCredential (excluded makeCredential user d.world.store) = .operationDenied)
      (serve L request) d := by
  have hHandle : handle L request = reset >>= fun _ => handleMakeCredential L request := by
    unfold handle
    rw [hCommand]
    rfl
  refine wp_bind.mpr (wp_keeps_modify keeps_alone trivial (wp_tryCatch.mpr ?_))
  refine wp_bind.mpr (wp_refused_cancellationPoint ?_)
  rw [hHandle]
  refine wp_reset keeps_alone trivial ?_
  unfold handleMakeCredential
  rw [hParsed]
  refine wp_bind.mpr (wp_tryCatch.mpr (wp_mono (wp_refused_makeCredential hReady) ?_ ?_))
  · rintro _ _ rfl
    rfl
  · rintro _ _ ⟨rfl, hDenied⟩
    exact wp_reset keeps_alone trivial ⟨rfl, hDenied⟩

theorem refused_response {stream : Nat → Input} (hStream : ∀ n, Refusing user (stream n)) :
    (∃ n, responsePacket? request (served L request stream n d).1 = some (makeCborError request.cid
      (refusalError makeCredential (excluded makeCredential user d.world.store)).code)) ∧
    ∀ n packet, responsePacket? request (served L request stream n d).1 = some packet →
      packet = makeCborError request.cid
        (refusalError makeCredential (excluded makeCredential user d.world.store)).code := by
  have hServe : wp (refused user) _ _ _ _ := wp_refused_serve hCommand hParsed hReady
  constructor
  · obtain ⟨n, d', ⟨packet, hRun, rfl⟩ | ⟨e, hRun, rfl, hDenied⟩⟩ :=
      wp_run_stream hServe stream hStream
    · refine ⟨n, ?_⟩
      rw [served, hRun]
      rfl
    · refine ⟨n, ?_⟩
      rw [served, hRun, hDenied]
      rfl
  · intro n packet hPacket
    have hEnd := (wp_run hServe trivial ((List.range n).map stream) fun i hi => by
      obtain ⟨k, -, rfl⟩ := List.mem_map.mp hi
      exact hStream k).2
    unfold served at hPacket
    revert hPacket hEnd
    cases (Proc.run ((List.range n).map stream) (serve L request) d).1 with
    | done packet' =>
      rintro hPacket rfl
      exact (Option.some.inj hPacket).symm
    | fail e =>
      rintro hPacket ⟨rfl, hDenied⟩
      rw [hDenied]
      exact (Option.some.inj hPacket).symm
    | act | cut => exact fun hNone => nomatch hNone

end Serve

end MakeCredential

theorem refusing_denying (n : Nat) : Refusing sampleUser ((fun _ => denying) n) :=
  ⟨rfl, rfl, .denied⟩

/-- Two stores that differ only in whether they hold credentials of the user and the relying party
that the exclude list names. -/
def DifferInExcluded (makeCredential : CTAPMakeCredentialRequest) (user : UserContext)
    (store store' : CredentialStore) : Prop :=
  ∀ key : Bytes, store.stored[key]? = store'.stored[key]? ∨
    (∃ descriptor ∈ makeCredential.excludeList, key = hexEncode descriptor.id) ∧
      ∀ c : StoredCredential, store.stored[key]? = some c ∨ store'.stored[key]? = some c →
        c.ownerUid = user.uid ∧ c.rpId = makeCredential.rp.id

/-- The order of the checks does not matter: the request would not be refused for its algorithms or
its parameters, or it excludes nothing. -/
def Inoffensive (makeCredential : CTAPMakeCredentialRequest) : Prop :=
  makeCredential.offersEs256 = true ∧ makeCredential.validationError = none ∨
    ∀ descriptor ∈ makeCredential.excludeList, descriptor.type ≠ text "public-key"

section Exact

variable {makeCredential : CTAPMakeCredentialRequest} {user : UserContext}

theorem Inoffensive.refusalError_eq (h : Inoffensive makeCredential)
    (store store' : CredentialStore) :
    refusalError makeCredential (excluded makeCredential user store) =
      refusalError makeCredential (excluded makeCredential user store') := by
  rcases h with ⟨hOffers, hValid⟩ | hNone
  · have hDenied (b : Bool) : refusalError makeCredential b = .operationDenied := by
      simp [refusalError, hOffers, hValid]
    rw [hDenied, hDenied]
  · have hNot (store : CredentialStore) : excluded makeCredential user store = false := by
      refine List.any_eq_false.mpr fun descriptor hMem => ?_
      simp [hNone descriptor hMem]
    rw [hNot, hNot]

theorem refusalError_ne (h : ¬ Inoffensive makeCredential) :
    (refusalError makeCredential false).code ≠ (refusalError makeCredential true).code := by
  unfold refusalError CTAPMakeCredentialRequest.validationError
  simp only [Inoffensive, CTAPMakeCredentialRequest.validationError, not_or, not_and] at h
  split_ifs at h ⊢ <;> simp_all <;> decide

/-- A store with one credential that a descriptor of the exclude list names. -/
def onlyExcluded (makeCredential : CTAPMakeCredentialRequest)
    (descriptor : PublicKeyCredentialDescriptor) : CredentialStore where
  stored := Std.ExtTreeMap.empty.insert (hexEncode descriptor.id)
    { (sampleEntry 1 0).2 with rpId := makeCredential.rp.id }

theorem stored_onlyExcluded (descriptor : PublicKeyCredentialDescriptor) (key : Bytes) :
    (onlyExcluded makeCredential descriptor).stored[key]? =
      if hexEncode descriptor.id = key then
        some { (sampleEntry 1 0).2 with rpId := makeCredential.rp.id } else none := by
  refine Std.ExtTreeMap.getElem?_insert.trans ?_
  simp

variable {descriptor : PublicKeyCredentialDescriptor}

theorem differ_onlyExcluded (hMem : descriptor ∈ makeCredential.excludeList) :
    DifferInExcluded makeCredential sampleUser {} (onlyExcluded makeCredential descriptor) := by
  intro key
  by_cases hKey : hexEncode descriptor.id = key
  · subst hKey
    refine .inr ⟨⟨descriptor, hMem, rfl⟩, fun c hc => ?_⟩
    rcases hc with hc | hc
    · simp at hc
    · rw [stored_onlyExcluded, if_pos rfl] at hc
      cases hc
      exact ⟨rfl, rfl⟩
  · left
    rw [stored_onlyExcluded, if_neg hKey]
    simp

theorem excluded_onlyExcluded (hMem : descriptor ∈ makeCredential.excludeList)
    (hType : descriptor.type = text "public-key") :
    excluded makeCredential sampleUser (onlyExcluded makeCredential descriptor) = true := by
  refine List.any_eq_true.mpr ⟨descriptor, hMem, ?_⟩
  rw [hType, CredentialStore.entryFor, stored_onlyExcluded, if_pos rfl]
  simp [sampleEntry, sampleUser]

end Exact

/-- **A refused MakeCredential tells nothing of excluded credentials**, exactly if it offers ES256
and has no parameter that is an error by itself, or excludes nothing: on any two stores that differ
in excluded credentials only, whichever way the user refuses on each, both runs end with the same
packet. -/
theorem unapproved_registration_reveals_nothing {L : Libraries} {request : CborRequest}
    {makeCredential : CTAPMakeCredentialRequest} (hCommand : request.command = 0x01)
    (hParsed : CTAPMakeCredentialRequest.parseRequest L.walk request.parameters =
      some makeCredential) :
    (∀ (user : UserContext) (d d' : Daemon), d.world.store.requiresReload = false →
      d'.world.store.requiresReload = false →
      DifferInExcluded makeCredential user d.world.store d'.world.store →
      ∀ stream stream' : Nat → Input, (∀ n, Refusing user (stream n)) →
        (∀ n, Refusing user (stream' n)) →
        ∃ n n' packet, responsePacket? request (served L request stream n d).1 = some packet ∧
          responsePacket? request (served L request stream' n' d').1 = some packet) ↔
    (makeCredential.offersEs256 = true ∧ makeCredential.validationError = none ∨
      ∀ descriptor ∈ makeCredential.excludeList, descriptor.type ≠ text "public-key") := by
  constructor
  · intro hSame
    by_contra hOffensive
    obtain ⟨descriptor, hMem, hType⟩ : ∃ descriptor ∈ makeCredential.excludeList,
        descriptor.type = text "public-key" := by
      by_contra hNone
      exact hOffensive (.inr fun descriptor hMem hType => hNone ⟨descriptor, hMem, hType⟩)
    obtain ⟨n, n', packet, hPacket, hPacket'⟩ := hSame sampleUser {}
      { world.store := onlyExcluded makeCredential descriptor } rfl rfl
      (differ_onlyExcluded hMem) _ _ refusing_denying refusing_denying
    have hEmpty := (refused_response hCommand hParsed rfl refusing_denying).2 n packet hPacket
    have hOnly := (refused_response hCommand hParsed rfl refusing_denying).2 n' packet hPacket'
    rw [excluded_onlyExcluded hMem hType] at hOnly
    have hNone : excluded makeCredential sampleUser {} = false :=
      List.any_eq_false.mpr fun descriptor _ => by simp [CredentialStore.entryFor]
    rw [show ({} : Daemon).world.store = {} from rfl, hNone, hOnly] at hEmpty
    exact refusalError_ne hOffensive (List.cons.inj (congrArg CTAPPacket.payload hEmpty)).1.symm
  · intro hInoffensive user d d' hReady hReady' _ stream stream' hStream hStream'
    obtain ⟨n, hPacket⟩ := (refused_response hCommand hParsed hReady hStream).1
    obtain ⟨n', hPacket'⟩ := (refused_response hCommand hParsed hReady' hStream').1
    rw [Inoffensive.refusalError_eq hInoffensive d'.world.store d.world.store] at hPacket'
    exact ⟨n, n', _, hPacket, hPacket'⟩

/-- A registration that names the credential of the store `stocked` in its exclude list and offers
one algorithm. -/
def excludingRequest (algorithm : Cbor) : CborRequest where
  cid := 1
  command := 0x01
  parameters := Cbor.encode (.map [.uint 1, .bytes (List.replicate 32 0),
    .uint 2, .map [.text (text "id"), .text (text "example.org")],
    .uint 3, .map [.text (text "id"), .bytes [1]],
    .uint 4, .array [.map [.text (text "alg"), algorithm, .text (text "type"),
      .text (text "public-key")]],
    .uint 5, .array [.map [.text (text "id"), .bytes (List.replicate 32 1), .text (text "type"),
      .text (text "public-key")]]])

theorem unapproved_registration_reveals_nothing_denied : ∃ makeCredential store n n' packet,
    excluded makeCredential sampleUser store = true ∧
    responsePacket? (excludingRequest es256) (served sampleLibraries (excludingRequest es256)
      (fun _ => denying) n {}).1 = some packet ∧
    responsePacket? (excludingRequest es256) (served sampleLibraries (excludingRequest es256)
      (fun _ => denying) n' { world.store := store }).1 = some packet := by
  have hGood : (CTAPMakeCredentialRequest.parseRequest sampleLibraries.walk
      (excludingRequest es256).parameters).any (fun r => r.offersEs256 &&
        r.validationError.isNone && r.excludeList.any (·.type == text "public-key")) = true := by
    decide +kernel
  obtain ⟨makeCredential, hParsed, hOffers⟩ := (Option.any_eq_true _ _).mp hGood
  simp only [Bool.and_eq_true, Option.isNone_iff_eq_none, List.any_eq_true, beq_iff_eq] at hOffers
  obtain ⟨⟨hOffers, hValid⟩, descriptor, hMem, hType⟩ := hOffers
  obtain ⟨n, n', packet, hSame⟩ := (unapproved_registration_reveals_nothing rfl hParsed).mpr
    (.inl ⟨hOffers, hValid⟩) sampleUser {}
    { world.store := onlyExcluded makeCredential descriptor } rfl rfl
    (differ_onlyExcluded hMem) _ _ refusing_denying refusing_denying
  exact ⟨makeCredential, _, n, n', packet, excluded_onlyExcluded hMem hType, hSame⟩

/-- The algorithm is checked after the exclude list: a request for RS256 is refused at once by the
empty store, but the user is asked when the credential is there, and the denial is another error. -/
theorem excluded_credential_revealed : (CTAPMakeCredentialRequest.parseRequest sampleLibraries.walk
      (excludingRequest (.negative 256)).parameters).isSome ∧
    responsePacket? (excludingRequest (.negative 256)) (served sampleLibraries
      (excludingRequest (.negative 256)) (fun _ => denying) 12 {}).1 =
        some (makeCborError 1 CTAPError.unsupportedAlgorithm.code) ∧
    responsePacket? (excludingRequest (.negative 256)) (served sampleLibraries
      (excludingRequest (.negative 256)) (fun _ => denying) 12 { world := stocked }).1 =
        some (makeCborError 1 CTAPError.operationDenied.code) ∧
    makeCborError 1 CTAPError.unsupportedAlgorithm.code ≠
      makeCborError 1 CTAPError.operationDenied.code := by
  decide +kernel

end VAuth.Ctap
