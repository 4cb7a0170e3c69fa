import VAuth.Ctap.Handler
import VAuth.Store.Runs

/-!
# What a command does

One specification for each ceremony and for `execute_ctap_request`, for any user
interaction, key provider and clock, and any schedule of stop requests. A command changes
the store by at most one operation; what is known of that operation is a parameter
(`StoreRuns`), so that the same specification serves runs with and without failures of the
storage. `Handled` lists everything a command that returns can have done.
-/

namespace VAuth.Ctap

open Proc Store

/-! ## Sequences -/

/-- The credentials that a sequence has yet to return. -/
def AssertionSequence.pending (sequence : AssertionSequence) : List StoredCredential :=
  sequence.credentials.drop sequence.index

/-- A new sequence. -/
def AssertionSequence.begun (cid : UInt32) (user : UserContext) (remaining : List StoredCredential)
    (now : Int) : AssertionSequence :=
  if cid = 0 ∨ remaining = [] then {}
  else { credentials := remaining, originCid := cid, ownerContext := some user.binding, lastUse := now }

theorem begin_ok {cid : UInt32} {user : UserContext} {remaining : List StoredCredential}
    (h : ∀ c ∈ remaining, c.ownerUid = user.uid) (now : Int) :
    AssertionSequence.begin cid user remaining now = .ok (.begun cid user remaining now) := by
  unfold AssertionSequence.begin AssertionSequence.begun
  by_cases hEmpty : cid = 0 ∨ remaining = []
  · rw [if_pos hEmpty, if_pos hEmpty]
  · have hOwned : ¬ (remaining.any fun c => c.ownerUid ≠ user.uid) = true := by
      simpa using h
    rw [if_neg hEmpty, if_neg hEmpty, if_neg hOwned]

/-- A use of a sequence that yields a credential. -/
structure AssertionSequence.Advances (sequence : AssertionSequence) (cid : UInt32)
    (user : UserContext) (now : Int) (credential : StoredCredential) (sequence' : AssertionSequence) :
    Prop where
  origin : sequence.originCid = cid ∧ cid ≠ 0
  owner : sequence.ownerContext = some user.binding
  gap : now - sequence.lastUse ≤ timeout
  pending : sequence.pending = credential :: sequence'.pending
  after : sequence' = {} ∨ sequence' = { sequence with index := sequence.index + 1, lastUse := now }

theorem advances_of_next {sequence sequence' : AssertionSequence} {cid : UInt32} {user : UserContext}
    {now : Int} {credential : StoredCredential}
    (h : sequence.next cid user now = (some credential, sequence')) :
    sequence.Advances cid user now credential sequence' := by
  unfold AssertionSequence.next at h
  by_cases hOwner : sequence.originCid ≠ 0 ∧ sequence.ownerContext ≠ some user.binding
  · rw [if_pos hOwner] at h
    cases h
  by_cases hOrigin : sequence.originCid = 0 ∨ cid ≠ sequence.originCid
  · rw [if_neg hOwner, if_pos hOrigin] at h
    cases h
  by_cases hGap : now - sequence.lastUse > AssertionSequence.timeout
  · rw [if_neg hOwner, if_neg hOrigin, if_pos hGap] at h
    cases h
  rw [if_neg hOwner, if_neg hOrigin, if_neg hGap] at h
  obtain ⟨hActive, hCid⟩ := not_or.mp hOrigin
  have hSame : cid = sequence.originCid := not_not.mp hCid
  have hOwned : sequence.ownerContext = some user.binding := by
    by_contra hOther
    exact hOwner ⟨hActive, hOther⟩
  cases hNext : sequence.credentials[sequence.index]? with
  | none =>
    rw [hNext] at h
    cases h
  | some c =>
    rw [hNext] at h
    obtain ⟨hc, hAfter⟩ := Prod.mk.inj h
    obtain rfl := Option.some.inj hc
    obtain ⟨hBound, hAt⟩ := List.getElem?_eq_some_iff.mp hNext
    have hPending : sequence.pending = c :: sequence.credentials.drop (sequence.index + 1) := by
      rw [AssertionSequence.pending, List.drop_eq_getElem_cons hBound, hAt]
    refine ⟨⟨hSame.symm, hSame ▸ hActive⟩, hOwned, by omega, ?_, ?_⟩
    · rw [hPending, ← hAfter]
      by_cases hLast : sequence.index + 1 = sequence.credentials.length
      · rw [if_pos hLast, hLast, List.drop_length]
        rfl
      · rw [if_neg hLast]
        rfl
    · by_cases hLast : sequence.index + 1 = sequence.credentials.length
      · rw [if_pos hLast] at hAfter
        exact .inl hAfter.symm
      · rw [if_neg hLast] at hAfter
        exact .inr hAfter.symm

/-! ## Commands and the store -/

/-- The store is as it was, and at most further ids were drawn. -/
structure Quiet (d d' : Daemon) : Prop where
  world : d'.world = d.world
  drawn : d.drawn <+: d'.drawn

theorem Quiet.refl (d : Daemon) : Quiet d d := ⟨rfl, List.prefix_refl _⟩

/-- The id was drawn on an admitted input, as the first after those of `d`. -/
def Drew (C : Setting Daemon Input) (d : Daemon) (id : Bytes) : Prop :=
  ∃ d₁ i x, C.admits d₁ i ∧ d₁.drawn = d.drawn ∧ i.random = .ok x ∧ x.toList = id

/-- The operations a command may run once it has drawn these ids. -/
inductive Intends (C : Setting Daemon Input) (d : Daemon) (drawn : List Bytes) : Operation → Prop
  | register {credential : StoredCredential} {ownerUid : UInt32} (h : Drew C d credential.id)
      (hDrawn : credential.id ∈ drawn) : Intends C d drawn (.put credential ownerUid)
  | assert {credId : Bytes} {ownerUid : UInt32} :
      Intends C d drawn (.incrementSigCount credId ownerUid)

/-- What is known of the operations that a command runs from `d` on: where they return, and
where they throw. -/
def StoreRuns (L : Libraries) (C : Setting Daemon Input) (Ran Failed : Operation → World → World → Prop)
    (d : Daemon) : Prop :=
  ∀ op d', Quiet d d' → Intends C d d'.drawn op →
    wp C (fun _ d'' => ∃ w, Ran op d'.world w ∧ d'' = { d' with world := w })
      (fun _ d'' => ∃ w, Failed op d'.world w ∧ d'' = { d' with world := w })
      (withStore (op.run L.toPlatform)) d'

/-- The store where a command fails: as it was, or as an operation that threw left it. -/
def Spoiled (C : Setting Daemon Input) (Failed : Operation → World → World → Prop) (d d' : Daemon) :
    Prop :=
  d.drawn <+: d'.drawn ∧
    (d'.world = d.world ∨ ∃ op, Intends C d d'.drawn op ∧ Failed op d.world d'.world)

/-- The store at any time outside of the operation of a command. -/
def Settled (C : Setting Daemon Input) (Ran Failed : Operation → World → World → Prop)
    (d d' : Daemon) : Prop :=
  d.drawn <+: d'.drawn ∧ (d'.world = d.world ∨
    ∃ op, Intends C d d'.drawn op ∧ (Ran op d.world d'.world ∨ Failed op d.world d'.world))

section Steps

variable {L : Libraries} {C : Setting Daemon Input} {Ran Failed : Operation → World → World → Prop}
  {d d' : Daemon} {E : Exn → Daemon → Prop}

theorem Quiet.spoiled (h : Quiet d d') : Spoiled C Failed d d' := ⟨h.drawn, .inl h.world⟩

theorem Spoiled.settled (h : Spoiled C Failed d d') : Settled C Ran Failed d d' := by
  obtain ⟨hDrawn, hWorld | ⟨op, hIntends, hFailed⟩⟩ := h
  · exact ⟨hDrawn, .inl hWorld⟩
  · exact ⟨hDrawn, .inr ⟨op, hIntends, .inr hFailed⟩⟩

theorem keeps_quiet (hC : C.Keeps (Settled C Ran Failed d)) : C.Keeps (Quiet d) :=
  hC.mono fun _ h => h.spoiled.settled

/-- The part of the daemon that a ceremony may change freely. -/
theorem Quiet.of_eq {d'' : Daemon} (h : Quiet d d') (hWorld : d''.world = d'.world)
    (hDrawn : d''.drawn = d'.drawn) : Quiet d d'' :=
  ⟨hWorld.trans h.world, hDrawn ▸ h.drawn⟩

/-! ## Steps -/

variable {Q : Unit → Daemon → Prop}

theorem wp_cancellationPoint (hC : C.Keeps (Quiet d)) (h : Quiet d d')
    (hE : E .operationCancelled d') (hQ : Q () d') : wp C Q E cancellationPoint d' := by
  refine wp_keeps_observe hC h fun i _ => ⟨fun _ _ => hQ, fun e he => ?_⟩
  split at he
  · cases he
    exact hE
  · cases he

theorem wp_currentContext {Q : UserContext → Daemon → Prop} (hC : C.Keeps (Quiet d))
    (h : Quiet d d') (hE : ∀ e, E e d')
    (hQ : ∀ user, Q user { d' with ceremony.user := some user }) : wp C Q E currentContext d' := by
  refine wp_keeps_atomically hC fun i _ => ?_
  cases i.context with
  | ok user =>
    refine ⟨h.of_eq rfl rfl, fun u hu => ?_, nofun⟩
    cases hu
    exact hQ user
  | error e => exact ⟨h, nofun, fun e' _ => hE e'⟩

theorem Quiet.asked (h : Quiet d d') (interaction : Interaction) : Quiet d (d'.asked interaction) :=
  h.of_eq rfl rfl

section

variable (hC : C.Keeps (Quiet d))
include hC

/-- An interaction and the cancellation check after it: what follows sees the result. -/
theorem wp_ask {α : Type} {Q : α → Daemon → Prop} {kind : InteractionKind} {user : UserContext}
    {request : UserInteractionRequest} {next : UserInteractionResult → HandlerProc α} (h : Quiet d d') (hE : ∀ e interaction, E e (d'.asked interaction))
    (hNext : ∀ result, wp C Q E (next result) (d'.asked ⟨kind, user, request, .ok result⟩)) :
    wp C Q E (do
      let result ← requestInteraction kind user request
      cancellationPoint
      next result) d' := by
  simp only [bind_eq, wp_bind]
  apply wp_keeps_atomically hC
  intro i _
  cases hResult : i.interaction with
  | ok result =>
    refine ⟨h.asked _, fun r hr => ?_, nofun⟩
    cases hr
    exact wp_cancellationPoint hC (h.asked _) (hE _ _) (hNext result)
  | error e => exact ⟨h.asked _, nofun, fun e' _ => hE e' _⟩

theorem wp_drawCredentialId {Q : Bytes → Daemon → Prop} (h : Quiet d d')
    (hDrawn : d'.drawn = d.drawn) (hE : ∀ e, E e d')
    (hQ : ∀ id, Drew C d id → Q id { d' with drawn := d'.drawn ++ [id] }) :
    wp C Q E drawCredentialId d' := by
  refine wp_keeps_atomically hC fun i hi => ?_
  cases hRandom : i.random with
  | ok x =>
    refine ⟨⟨h.world, h.drawn.trans (List.prefix_append _ _)⟩, fun id hId => ?_, nofun⟩
    cases hId
    exact hQ _ ⟨d', i, x, hi, hDrawn, hRandom, rfl⟩
  | error e => exact ⟨h, nofun, fun e' _ => hE e'⟩

theorem wp_createKey {Q : CredentialKey → Daemon → Prop} {id : Bytes}
    (h : Quiet d d') (hE : ∀ e, E e d') (hQ : ∀ key, Q key d') : wp C Q E (createKey id) d' :=
  wp_keeps_observe hC h fun _ _ => ⟨fun key _ => hQ key, fun e _ => hE e⟩

theorem wp_sign {Q : Bytes → Daemon → Prop} {id digest : Bytes} {key : CredentialKey} (h : Quiet d d') (hE : ∀ e, E e d')
    (hQ : ∀ signature, Q signature { d' with
      ceremony.signed := d'.ceremony.signed ++ [⟨id, digest, key, signature⟩] }) :
    wp C Q E (sign id digest key) d' := by
  refine wp_keeps_atomically hC fun i _ => ?_
  cases i.signature with
  | ok signature =>
    refine ⟨h.of_eq rfl rfl, fun s hs => ?_, nofun⟩
    cases hs
    exact hQ signature
  | error e => exact ⟨h, nofun, fun e' _ => hE e'⟩

theorem wp_findForAssertion {Q : List StoredCredential → Daemon → Prop}
    {request : AssertionParameters} {ownerUid : UInt32} (h : Quiet d d')
    (hE : ∀ e, E e d')
    (hQ : ∀ found, d.world.store.findForAssertion L.toPlatform request.rpId request.allowList ownerUid =
      .ok found → Q found { d' with ceremony.found := found }) :
    wp C Q E (findForAssertion L request ownerUid) d' := by
  refine wp_keeps_atomically hC fun i _ => ?_
  cases hFound : d'.world.store.findForAssertion L.toPlatform request.rpId request.allowList
    ownerUid with
  | ok found =>
    refine ⟨h.of_eq rfl rfl, fun f hf => ?_, nofun⟩
    cases hf
    exact hQ found (h.world ▸ hFound)
  | error e => exact ⟨h, nofun, fun e' _ => hE e'⟩

end

theorem wp_withStore (op : Operation) (hRuns : StoreRuns L C Ran Failed d) (h : Quiet d d')
    (hIntends : Intends C d d'.drawn op)
    (hE : ∀ e w, Failed op d.world w → E e { d' with world := w })
    (hQ : ∀ w, Ran op d.world w → Q () { d' with world := w }) :
    wp C Q E (withStore (op.run L.toPlatform)) d' := by
  refine wp_mono (hRuns op d' h hIntends) ?_ ?_
  · rintro _ _ ⟨w, hRan, rfl⟩
    exact hQ w (h.world ▸ hRan)
  · rintro e _ ⟨w, hFailed, rfl⟩
    exact hE e w (h.world ▸ hFailed)

end Steps

/-! ## The assertion of one credential -/

/-- The payload is the assertion of `credential` under the request, its counter being the
one after the credential's. -/
structure Asserts (L : Libraries) (request : CTAPGetAssertionRequest) (credential : StoredCredential)
    (ceremony : Ceremony) (payload : Bytes) : Prop where
  authData : authDataOf payload = some (request.authData L (credential.signCount + 1))
  credentialId : credentialIdOf payload = some credential.id
  signed : ∃ signature, ceremony.signed = [⟨credential.id,
    L.sha256 (request.authData L (credential.signCount + 1) ++ request.clientDataHash),
    ⟨credential.publicBlob, credential.privateBlob⟩, signature⟩]
  length : 1 < payload.length ∧ payload.length ≤ ctaphidMaxPayloadSize

section Ceremonies

variable {L : Libraries} {C : Setting Daemon Input} {Ran Failed : Operation → World → World → Prop}
  {d d' : Daemon}

theorem wp_generateSingleCredentialPayload {credential : StoredCredential} {ownerUid : UInt32}
    {number : Option UInt32} (hC : C.Keeps (Quiet d)) (hRuns : StoreRuns L C Ran Failed d)
    (h : Quiet d d') (hSigned : d'.ceremony.signed = []) :
    wp C (fun payload d'' => Asserts L d'.getAssertion credential d''.ceremony payload ∧
        ∃ w signed, Ran (.incrementSigCount credential.id ownerUid) d.world w ∧
          d'' = { d' with world := w, ceremony.signed := signed })
      (fun _ d'' => Spoiled C Failed d d'')
      (CTAPGetAssertionRequest.generateSingleCredentialPayload L credential ownerUid number) d' := by
  unfold CTAPGetAssertionRequest.generateSingleCredentialPayload
  rw [bind_eq, wp_bind]
  refine wp_keeps_read hC h ?_
  simp only [bind_eq, wp_bind]
  refine wp_sign hC h (fun _ => h.spoiled) fun signature => ?_
  have hQuiet : Quiet d { d' with ceremony.signed := d'.ceremony.signed ++ [⟨credential.id,
      L.sha256 (d'.getAssertion.authData L (credential.signCount + 1) ++
        d'.getAssertion.clientDataHash), ⟨credential.publicBlob, credential.privateBlob⟩,
      signature⟩] } := h.of_eq rfl rfl
  rw [wp_ofExcept]
  refine ⟨fun payload hPayload => ?_, fun _ _ => hQuiet.spoiled⟩
  obtain ⟨hAuthData, hId⟩ := assertion_readable hPayload
  refine wp_cancellationPoint hC hQuiet hQuiet.spoiled ?_
  refine wp_withStore (.incrementSigCount credential.id ownerUid) hRuns hQuiet .assert ?_ ?_
  · exact fun _ w hFailed => ⟨h.drawn, .inr ⟨_, .assert, hFailed⟩⟩
  · intro w hRan
    refine ⟨⟨hAuthData, hId, ⟨signature, ?_⟩, encodeCbor_length hPayload⟩, w, _, hRan, rfl⟩
    rw [hSigned]
    rfl

/-! ## GetAssertion -/

/-- The interactions the options of an assertion ask for, all approved. -/
def approvals (request : AssertionParameters) (user : UserContext) : List Interaction :=
  match assertionInteraction request.up request.uv with
  | .verification => [⟨.verification, user,
      { operation := .getAssertion, relyingPartyId := request.rpId }, .ok .approved⟩]
  | .presence => [⟨.presence, user,
      { operation := .getAssertion, relyingPartyId := request.rpId }, .ok .approved⟩]
  | .none => []

/-- The daemon once the user has approved. -/
def Daemon.consented (d : Daemon) (request : AssertionParameters) (user : UserContext) : Daemon :=
  { d with
    getAssertion.userPresent := request.up
    getAssertion.userVerified := request.uv
    ceremony.interactions := approvals request user }

variable {user : UserContext} {cid : UInt32} {request : CTAPMakeCredentialRequest}
  {E : Exn → Daemon → Prop}

theorem wp_setConsent {α : Type} {Q : α → Daemon → Prop} {present verified : Bool}
    {next : HandlerProc α} (hC : C.Keeps (Quiet d)) (h : Quiet d d')
    (hNext : wp C Q E next { d' with
      getAssertion.userPresent := present, getAssertion.userVerified := verified }) :
    wp C Q E (do
      CTAPGetAssertionRequest.setConsent present verified
      next) d' := by
  rw [bind_eq, wp_bind]
  exact wp_keeps_modify hC (h.of_eq rfl rfl) hNext

theorem wp_assertionConsent {request : AssertionParameters} (hC : C.Keeps (Quiet d))
    (h : Quiet d d') (hNone : d'.ceremony.interactions = [])
    (hPresent : d'.getAssertion.userPresent = false)
    (hVerified : d'.getAssertion.userVerified = false) :
    wp C (fun error d'' => Quiet d d'' ∧ (error = none → d'' = d'.consented request user))
      (fun _ d'' => Quiet d d'') (CTAPGetAssertionRequest.requestConsent request user) d' := by
  unfold CTAPGetAssertionRequest.requestConsent
  by_cases hUv : request.uv = true
  · have hKind : assertionInteraction request.up request.uv = .verification := by
      simp [assertionInteraction, hUv]
    rw [hKind]
    apply wp_ask hC h (fun _ _ => h.asked _)
    intro result
    cases result with
    | approved =>
      apply wp_setConsent hC (h.asked _)
      refine ⟨h.of_eq rfl rfl, fun _ => ?_⟩
      simp [Daemon.consented, Daemon.asked, approvals, assertionInteraction, hNone, hUv]
    | _ => exact ⟨h.asked _, nofun⟩
  · by_cases hUp : request.up = true
    · have hKind : assertionInteraction request.up request.uv = .presence := by
        simp [assertionInteraction, hUv, hUp]
      rw [hKind]
      refine wp_bind.mpr (wp_cancellationPoint hC h h ?_)
      apply wp_ask hC h (fun _ _ => h.asked _)
      intro result
      cases result with
      | approved =>
        apply wp_setConsent hC (h.asked _)
        refine ⟨h.of_eq rfl rfl, fun _ => ?_⟩
        simp [Daemon.consented, Daemon.asked, approvals, assertionInteraction, hNone, hUv, hUp]
      | _ => exact ⟨h.asked _, nofun⟩
    · have hKind : assertionInteraction request.up request.uv = .none := by
        simp [assertionInteraction, hUv, hUp]
      rw [hKind]
      refine ⟨h, fun _ => ?_⟩
      obtain ⟨world, getAssertion, ceremony, drawn⟩ := d'
      cases getAssertion
      cases ceremony
      simp_all [Daemon.consented, approvals]

/-- The sequence of the matches that are left, if there is to be one. -/
def Begins (request : AssertionParameters) (cid : UInt32) (user : UserContext)
    (remaining : List StoredCredential) (d : Daemon) : Prop :=
  if hasAssertionContinuations request.allowList.isEmpty (remaining.length + 1) then
    ∃ now, d.ceremony.used = some now ∧ d.getAssertion.sequence = .begun cid user remaining now
  else d.getAssertion.sequence = {}

/-- A GetAssertion that returned an assertion. -/
structure Asserted (L : Libraries) (Ran : Operation → World → World → Prop)
    (request : AssertionParameters) (cid : UInt32) (user : UserContext)
    (credential : StoredCredential) (remaining : List StoredCredential) (d d' : Daemon)
    (payload : Bytes) : Prop where
  permitted : CTAPGetAssertionRequest.validationError request = none
  context : d'.ceremony.user = some user
  found : d.world.store.findForAssertion L.toPlatform request.rpId request.allowList user.uid =
    .ok (credential :: remaining)
  recorded : d'.ceremony.found = credential :: remaining
  approved : d'.ceremony.interactions = approvals request user
  state : d'.getAssertion = { request with
    userPresent := request.up, userVerified := request.uv, sequence := d'.getAssertion.sequence }
  begins : Begins request cid user remaining d'
  asserts : Asserts L d'.getAssertion credential d'.ceremony payload
  drawn : d'.drawn = d.drawn
  ran : Ran (.incrementSigCount credential.id user.uid) d.world d'.world

theorem wp_beginSequence {I : Daemon → Prop} {Q : Unit → Daemon → Prop}
    {remaining : List StoredCredential} (hC : C.Keeps I)
    (hI : ∀ sequence used, I { d' with getAssertion.sequence := sequence, ceremony.used := used })
    (h : ∀ c ∈ remaining, c.ownerUid = user.uid) (hQ : ∀ now, Q () { d' with
      getAssertion.sequence := .begun cid user remaining now, ceremony.used := some now }) :
    wp C Q E (beginSequence cid user remaining) d' := by
  apply wp_keeps_atomically hC
  intro i _
  rw [begin_ok h i.now]
  exact ⟨hI _ _, fun _ _ => hQ i.now, nofun⟩

theorem wp_assertFirst {request : AssertionParameters} {found : List StoredCredential}
    (hC : C.Keeps (Settled C Ran Failed d)) (hRuns : StoreRuns L C Ran Failed d) (h : Quiet d d')
    (hDrawn : d'.drawn = d.drawn)
    (hPermitted : CTAPGetAssertionRequest.validationError request = none)
    (hState : d'.getAssertion = { request with
      userPresent := request.up, userVerified := request.uv })
    (hFound : d.world.store.findForAssertion L.toPlatform request.rpId request.allowList user.uid =
      .ok found)
    (hCeremony : d'.ceremony =
      { user := some user, found, interactions := approvals request user }) :
    wp C (fun payload d'' => (∃ e, payload = failure e ∧ Quiet d d'') ∨
        ∃ credential remaining, Asserted L Ran request cid user credential remaining d d'' payload)
      (fun _ d'' => Spoiled C Failed d d'')
      (CTAPGetAssertionRequest.assertFirst L request cid user found) d' := by
  cases found with
  | nil => exact .inl ⟨_, rfl, h⟩
  | cons credential remaining =>
    unfold CTAPGetAssertionRequest.assertFirst
    refine wp_bind.mpr (wp_cancellationPoint (keeps_quiet hC) h h.spoiled ?_)
    refine wp_seq (wp_generateSingleCredentialPayload (keeps_quiet hC) hRuns h
      (by rw [hCeremony])) ?_ fun _ _ hSpoiled => hSpoiled
    rintro payload _ ⟨hAsserts, w, signed, hRan, rfl⟩
    have hSettled (getAssertion ceremony) :
        Settled C Ran Failed d { d' with world := w, getAssertion, ceremony } :=
      ⟨h.drawn, .inr ⟨_, .assert, .inl hRan⟩⟩
    have hAsserted (sequence used) (hBegins : Begins request cid user remaining { d' with
          world := w, getAssertion.sequence := sequence,
          ceremony.signed := signed, ceremony.used := used }) :
        Asserted L Ran request cid user credential remaining d { d' with
          world := w, getAssertion.sequence := sequence,
          ceremony.signed := signed, ceremony.used := used } payload :=
      { permitted := hPermitted
        context := by rw [hCeremony]
        found := hFound
        recorded := by rw [hCeremony]
        approved := by rw [hCeremony]
        state := by rw [hState]
        begins := hBegins
        asserts := ⟨hAsserts.authData, hAsserts.credentialId, hAsserts.signed, hAsserts.length⟩
        drawn := hDrawn
        ran := hRan }
    by_cases hMore :
        hasAssertionContinuations request.allowList.isEmpty (remaining.length + 1) = true
    · rw [if_pos hMore]
      refine wp_bind.mpr (wp_beginSequence hC (fun _ _ => hSettled _ _) ?_ ?_)
      · intro c hc
        exact owner_of_findForAssertion hFound (List.mem_cons_of_mem _ hc)
      · intro now
        refine .inr ⟨_, _, hAsserted (.begun cid user remaining now) (some now) ?_⟩
        unfold Begins
        rw [if_pos hMore]
        exact ⟨now, rfl, rfl⟩
    · rw [if_neg hMore]
      refine .inr ⟨_, _, hAsserted d'.getAssertion.sequence d'.ceremony.used ?_⟩
      unfold Begins
      rw [if_neg hMore]
      show d'.getAssertion.sequence = {}
      rw [hState]

theorem wp_assertionBuildResponse {request : AssertionParameters}
    (hC : C.Keeps (Settled C Ran Failed d)) (hRuns : StoreRuns L C Ran Failed d)
    (hCeremony : d.ceremony = {}) :
    wp C (fun payload d'' => (∃ e, payload = failure e ∧ Quiet d d'') ∨ ∃ user credential remaining,
          Asserted L Ran request cid user credential remaining d d'' payload)
      (fun _ d'' => Spoiled C Failed d d'') (CTAPGetAssertionRequest.buildResponse L cid)
      { d with getAssertion := { request with } } := by
  have hQuiet := keeps_quiet hC
  have hSame (getAssertion ceremony) : Quiet d { d with getAssertion, ceremony } :=
    (Quiet.refl d).of_eq rfl rfl
  unfold CTAPGetAssertionRequest.buildResponse
  refine wp_bind.mpr (wp_cancellationPoint hQuiet (hSame _ _) (hSame _ _).spoiled ?_)
  refine wp_bind.mpr (wp_currentContext hQuiet (hSame _ _) (fun _ => (hSame _ _).spoiled) ?_)
  intro user
  refine wp_bind.mpr (wp_keeps_read hQuiet (hSame _ _) ?_)
  refine wp_bind.mpr (wp_findForAssertion hQuiet (hSame _ _) (fun _ => (hSame _ _).spoiled) ?_)
  intro found hFound
  dsimp only at hFound ⊢
  cases hError : CTAPGetAssertionRequest.validationError request with
  | some error => exact .inl ⟨error, rfl, hSame _ _⟩
  | none =>
    apply wp_setConsent hQuiet (hSame _ _)
    refine wp_seq (wp_assertionConsent hQuiet (hSame _ _) ?_ rfl rfl) ?_ ?_
    · show d.ceremony.interactions = []
      rw [hCeremony]
    · rintro error d'' ⟨hAfter, hApproved⟩
      cases error with
      | some error => exact .inl ⟨error, rfl, hAfter⟩
      | none =>
        obtain rfl := hApproved rfl
        refine wp_mono (wp_assertFirst hC hRuns hAfter rfl hError rfl hFound ?_) ?_ ?_
        · simp only [Daemon.consented, hCeremony]
        · rintro payload d'' (hFailure | ⟨credential, remaining, hAsserted⟩)
          · exact .inl hFailure
          · exact .inr ⟨user, credential, remaining, hAsserted⟩
        · exact fun _ _ hSpoiled => hSpoiled
    · exact fun _ _ hAfter => hAfter.spoiled

/-! ## GetNextAssertion -/

/-- A GetNextAssertion that returned an assertion. -/
structure Continued (L : Libraries) (Ran : Operation → World → World → Prop) (cid : UInt32)
    (user : UserContext) (credential : StoredCredential) (d d' : Daemon) (payload : Bytes) :
    Prop where
  context : d'.ceremony.user = some user
  next : ∃ now, d'.ceremony.used = some now ∧
    d.getAssertion.sequence.Advances cid user now credential d'.getAssertion.sequence
  silent : d'.ceremony.interactions = []
  state : d'.getAssertion = { d.getAssertion with sequence := d'.getAssertion.sequence }
  asserts : Asserts L d'.getAssertion credential d'.ceremony payload
  drawn : d'.drawn = d.drawn
  ran : Ran (.incrementSigCount credential.id user.uid) d.world d'.world

theorem wp_nextInSequence {Q : Option StoredCredential → Daemon → Prop} (hC : C.Keeps (Quiet d))
    (h : Quiet d d')
    (hQ : ∀ now next sequence, d'.getAssertion.sequence.next cid user now = (next, sequence) →
      Q next { d' with getAssertion.sequence := sequence, ceremony.used := some now }) :
    wp C Q E (nextInSequence cid user) d' := by
  apply wp_keeps_atomically hC
  intro i _
  refine ⟨h.of_eq rfl rfl, fun next hNext => ?_, nofun⟩
  obtain rfl := Except.ok.inj hNext
  exact hQ i.now _ _ rfl

theorem wp_assertionBuildResponseNext (hC : C.Keeps (Quiet d)) (hRuns : StoreRuns L C Ran Failed d)
    (hCeremony : d.ceremony = {}) :
    wp C (fun payload d'' => (∃ e, payload = failure e ∧ Quiet d d'') ∨
        ∃ user credential, Continued L Ran cid user credential d d'' payload)
      (fun _ d'' => Spoiled C Failed d d'') (CTAPGetAssertionRequest.buildResponseNext L cid) d := by
  have hSame (getAssertion ceremony) : Quiet d { d with getAssertion, ceremony } :=
    (Quiet.refl d).of_eq rfl rfl
  unfold CTAPGetAssertionRequest.buildResponseNext
  refine wp_bind.mpr (wp_currentContext hC (.refl d) (fun _ => (Quiet.refl d).spoiled) ?_)
  intro user
  refine wp_bind.mpr (wp_nextInSequence hC (hSame _ _) fun now next sequence hNext => ?_)
  cases next with
  | none => exact .inl ⟨_, rfl, hSame _ _⟩
  | some credential =>
    refine wp_bind.mpr (wp_cancellationPoint hC (hSame _ _) (hSame _ _).spoiled ?_)
    refine wp_mono (wp_generateSingleCredentialPayload hC hRuns (hSame _ _) ?_) ?_
      fun _ _ hSpoiled => hSpoiled
    · show d.ceremony.signed = []
      rw [hCeremony]
    · rintro payload _ ⟨hAsserts, w, signed, hRan, rfl⟩
      refine .inr ⟨user, credential, ?_⟩
      exact {
        context := rfl
        next := ⟨now, rfl, advances_of_next hNext⟩
        silent := by simp only [hCeremony]
        state := rfl
        asserts := hAsserts
        drawn := rfl
        ran := hRan }

/-! ## MakeCredential -/

/-- What a registration keeps until it ends: the store, and a request object that is
cleared. -/
structure Unasserted (d d' : Daemon) : Prop extends Quiet d d' where
  cleared : d'.getAssertion = {}

/-- Where a registration fails. -/
def Dropped (C : Setting Daemon Input) (Failed : Operation → World → World → Prop)
    (d d' : Daemon) : Prop :=
  Spoiled C Failed d d' ∧ d'.getAssertion = {}

theorem Unasserted.asked (h : Unasserted d d') (interaction : Interaction) :
    Unasserted d (d'.asked interaction) :=
  ⟨h.toQuiet.asked interaction, h.cleared⟩

theorem Unasserted.dropped (h : Unasserted d d') : Dropped C Failed d d' :=
  ⟨h.toQuiet.spoiled, h.cleared⟩

/-- The interaction of a registration, approved. -/
def registrationApproval (request : CTAPMakeCredentialRequest) (user : UserContext) : Interaction :=
  ⟨if request.uv then .verification else .presence, user,
    { operation := .makeCredential, relyingPartyId := request.rp.id }, .ok .approved⟩

/-- The payload is an attestation of a new key under the request. -/
structure Attests (L : Libraries) (request : CTAPMakeCredentialRequest) (credId : Bytes)
    (key : CredentialKey) (ceremony : Ceremony) (payload : Bytes) : Prop where
  authData : ∃ cose, authDataOf payload = some (request.authDataPrefix L credId ++ cose)
  credentialId : credentialIdOf payload = none
  signed : ∃ digest signature, ceremony.signed = [⟨credId, digest, key, signature⟩]
  length : 1 < payload.length ∧ payload.length ≤ ctaphidMaxPayloadSize

/-- A MakeCredential that returned a new credential. -/
structure Registered (L : Libraries) (C : Setting Daemon Input)
    (Ran : Operation → World → World → Prop) (request : CTAPMakeCredentialRequest)
    (user : UserContext) (credId : Bytes) (key : CredentialKey) (d d' : Daemon) (payload : Bytes) :
    Prop where
  permitted : request.validationError = none
  algorithm : request.offersEs256 = true
  excludes : ∀ descriptor ∈ request.excludeList, descriptor.type = text "public-key" →
    d.world.store.hasForRp descriptor.id request.rp.id user.uid = .ok false
  context : d'.ceremony.user = some user
  approved : d'.ceremony.interactions = [registrationApproval request user]
  attests : Attests L request credId key d'.ceremony payload
  cleared : d'.getAssertion = {}
  drew : Drew C d credId
  drawn : d'.drawn = d.drawn ++ [credId]
  ran : if request.isDummy then d'.world = d.world
    else Ran (.put (request.credential credId key) user.uid) d.world d'.world

variable (hC : C.Keeps (Quiet d))
include hC

theorem wp_findExcluded {rpId : Bytes} {ownerUid : UInt32} (h : Unasserted d d') (list : List PublicKeyCredentialDescriptor) :
    wp C (fun excluded d'' => d'' = d' ∧ (excluded = false → ∀ descriptor ∈ list,
        descriptor.type = text "public-key" →
          d.world.store.hasForRp descriptor.id rpId ownerUid = .ok false))
      (fun _ d'' => Unasserted d d'')
      (CTAPMakeCredentialRequest.findExcluded rpId ownerUid list) d' := by
  induction list with
  | nil => exact ⟨rfl, fun _ => nofun⟩
  | cons descriptor rest ih =>
    unfold CTAPMakeCredentialRequest.findExcluded
    by_cases hType : descriptor.type = text "public-key"
    · rw [if_pos hType]
      refine wp_bind.mpr (wp_keeps_observe hC h.toQuiet fun i _ =>
        ⟨fun excluded hQuery => ?_, fun _ _ => h⟩)
      cases excluded with
      | true => exact ⟨rfl, nofun⟩
      | false =>
        refine wp_mono ih ?_ fun _ _ hAfter => hAfter
        rintro excluded d'' ⟨hSame, hRest⟩
        refine ⟨hSame, fun hExcluded => ?_⟩
        rw [h.world] at hQuery
        simpa [hQuery] using hRest hExcluded
    · rw [if_neg hType]
      refine wp_mono ih ?_ fun _ _ hAfter => hAfter
      rintro excluded d'' ⟨hSame, hRest⟩
      refine ⟨hSame, fun hExcluded => ?_⟩
      simpa [hType] using hRest hExcluded

theorem wp_refuseExcluded (h : Unasserted d d') :
    wp C (fun payload d'' => ∃ e, payload = failure e ∧ Unasserted d d'')
      (fun _ d'' => Unasserted d d'') (CTAPMakeCredentialRequest.refuseExcluded request user) d' := by
  unfold CTAPMakeCredentialRequest.refuseExcluded
  refine wp_bind.mpr (wp_cancellationPoint hC h.toQuiet h ?_)
  apply wp_ask hC h.toQuiet (fun _ _ => h.asked _)
  intro result
  cases result with
  | _ => exact ⟨_, rfl, h.asked _⟩

theorem wp_registrationConsent (h : Unasserted d d') : wp C (fun error d'' => Unasserted d d'' ∧
        (error = none → d'' = d'.asked (registrationApproval request user)))
      (fun _ d'' => Unasserted d d'') (CTAPMakeCredentialRequest.requestConsent request user) d' := by
  unfold CTAPMakeCredentialRequest.requestConsent
  by_cases hUv : request.uv = true
  · rw [if_pos hUv]
    apply wp_ask hC h.toQuiet (fun _ _ => h.asked _)
    intro result
    cases result with
    | approved => exact ⟨h.asked _, fun _ => by rw [registrationApproval, if_pos hUv]⟩
    | _ => exact ⟨h.asked _, nofun⟩
  · rw [if_neg hUv]
    refine wp_bind.mpr (wp_cancellationPoint hC h.toQuiet h ?_)
    apply wp_ask hC h.toQuiet (fun _ _ => h.asked _)
    intro result
    cases result with
    | approved => exact ⟨h.asked _, fun _ => by rw [registrationApproval, if_neg hUv]⟩
    | _ => exact ⟨h.asked _, nofun⟩

/-- From the consent on: a key, its attestation, and the entry in the store. -/
theorem wp_register (hRuns : StoreRuns L C Ran Failed d)
    (h : Unasserted d d') (hDrawn : d'.drawn = d.drawn) (hSigned : d'.ceremony.signed = []) :
    wp C (fun payload d'' => ∃ credId key w signed, Drew C d credId ∧
        Attests L request credId key d''.ceremony payload ∧
        (if request.isDummy then w = d.world
          else Ran (.put (request.credential credId key) user.uid) d.world w) ∧
        d'' = { d' with world := w, drawn := d.drawn ++ [credId], ceremony.signed := signed })
      (fun _ d'' => Dropped C Failed d d'')
      (CTAPMakeCredentialRequest.register L request user) d' := by
  unfold CTAPMakeCredentialRequest.register
  refine wp_bind.mpr (wp_drawCredentialId hC h.toQuiet hDrawn (fun _ => h.dropped) ?_)
  intro credId hDrew
  rw [hDrawn]
  have hQuiet (ceremony) : Unasserted d { d' with drawn := d.drawn ++ [credId], ceremony } :=
    ⟨⟨h.world, List.prefix_append _ _⟩, h.cleared⟩
  refine wp_bind.mpr (wp_cancellationPoint hC (hQuiet _).toQuiet (hQuiet _).dropped ?_)
  refine wp_bind.mpr (wp_createKey hC (hQuiet _).toQuiet (fun _ => (hQuiet _).dropped) ?_)
  intro key
  refine wp_bind.mpr (wp_cancellationPoint hC (hQuiet _).toQuiet (hQuiet _).dropped ?_)
  refine wp_bind.mpr (wp_ofExcept.mpr ⟨fun point _ => ?_, fun _ _ => (hQuiet _).dropped⟩)
  refine wp_bind.mpr (wp_ofExcept.mpr ⟨fun cose _ => ?_, fun _ _ => (hQuiet _).dropped⟩)
  refine wp_bind.mpr (wp_sign hC (hQuiet _).toQuiet (fun _ => (hQuiet _).dropped) ?_)
  intro signature
  refine wp_bind.mpr (wp_ofExcept.mpr ⟨fun payload hPayload => ?_, fun _ _ => (hQuiet _).dropped⟩)
  refine wp_bind.mpr (wp_cancellationPoint hC (hQuiet _).toQuiet (hQuiet _).dropped ?_)
  have hAttests {ceremony : Ceremony} (h : ∃ digest, ceremony.signed = d'.ceremony.signed ++
      [⟨credId, digest, key, signature⟩]) : Attests L request credId key ceremony payload := by
    obtain ⟨digest, h⟩ := h
    rw [hSigned] at h
    obtain ⟨hAuthData, hId⟩ := attestation_readable hPayload
    exact ⟨⟨cose, hAuthData⟩, hId, ⟨digest, signature, h⟩, encodeCbor_length hPayload⟩
  by_cases hDummy : request.isDummy = true
  · rw [if_neg (not_not.mpr hDummy)]
    refine ⟨credId, key, d'.world, _, hDrew, hAttests ⟨_, rfl⟩, ?_, rfl⟩
    rw [if_pos hDummy]
    exact h.world
  · rw [if_pos hDummy]
    refine wp_bind.mpr (wp_cancellationPoint hC (hQuiet _).toQuiet (hQuiet _).dropped ?_)
    have hIn : credId ∈ d.drawn ++ [credId] := List.mem_append_right _ List.mem_cons_self
    refine wp_bind.mpr (wp_withStore (.put (request.credential credId key) user.uid) hRuns
      (hQuiet _).toQuiet (.register hDrew hIn) ?_ ?_)
    · intro e w hFailed
      exact ⟨⟨List.prefix_append _ _, .inr ⟨_, .register hDrew hIn, hFailed⟩⟩, h.cleared⟩
    · intro w hRan
      refine ⟨credId, key, w, _, hDrew, hAttests ⟨_, rfl⟩, ?_, rfl⟩
      rw [if_neg hDummy]
      exact hRan

theorem wp_registrationBuildResponse (hRuns : StoreRuns L C Ran Failed d)
    (hCeremony : d.ceremony = {}) :
    wp C (fun payload d'' => (∃ e, payload = failure e ∧ Unasserted d d'') ∨
        ∃ user credId key, Registered L C Ran request user credId key d d'' payload)
      (fun _ d'' => Dropped C Failed d d'') (CTAPMakeCredentialRequest.buildResponse L request)
      { d with getAssertion := {} } := by
  have hSame (ceremony) : Unasserted d { d with getAssertion := {}, ceremony } :=
    ⟨(Quiet.refl d).of_eq rfl rfl, rfl⟩
  unfold CTAPMakeCredentialRequest.buildResponse
  refine wp_bind.mpr (wp_cancellationPoint hC (hSame _).toQuiet (hSame _).dropped ?_)
  refine wp_bind.mpr (wp_currentContext hC (hSame _).toQuiet (fun _ => (hSame _).dropped) ?_)
  intro user
  refine wp_seq (wp_findExcluded hC (hSame _) _) ?_ fun _ _ hAfter => hAfter.dropped
  rintro excluded _ ⟨rfl, hExcludes⟩
  cases excluded with
  | true =>
    exact wp_mono (wp_refuseExcluded hC (hSame _)) (fun _ _ hRefused => .inl hRefused)
      fun _ _ hAfter => hAfter.dropped
  | false =>
    rw [if_neg Bool.false_ne_true]
    by_cases hAlgorithm : request.offersEs256 = true
    · rw [if_neg (not_not.mpr hAlgorithm)]
      cases hError : request.validationError with
      | some error => exact .inl ⟨error, rfl, hSame _⟩
      | none =>
        refine wp_seq (wp_registrationConsent hC (hSame _)) ?_ fun _ _ hAfter => hAfter.dropped
        rintro error _ ⟨hAfter, hApproved⟩
        cases error with
        | some error => exact .inl ⟨error, rfl, hAfter⟩
        | none =>
          obtain rfl := hApproved rfl
          refine wp_mono (wp_register hC hRuns hAfter rfl ?_) ?_ fun _ _ hDropped => hDropped
          · show d.ceremony.signed = []
            rw [hCeremony]
          · rintro payload _ ⟨credId, key, w, signed, hDrew, hAttests, hRan, rfl⟩
            refine .inr ⟨user, credId, key, ?_⟩
            exact {
              permitted := hError
              algorithm := hAlgorithm
              excludes := hExcludes rfl
              context := rfl
              approved := by simp only [Daemon.asked, hCeremony, List.nil_append]
              attests := hAttests
              cleared := rfl
              drew := hDrew
              drawn := rfl
              ran := hRan }
    · rw [if_pos hAlgorithm]
      exact .inl ⟨_, rfl, hSame _⟩

end Ceremonies

end VAuth.Ctap
