import VAuth.Ctap.Acceptance
import VAuth.Ctap.Authenticator
import VAuth.Store.Isolation

/-!
# Requests that can be stored

The parser of MakeCredential and `validate_credential` check the same fields, one before the user
is asked and the other after the key has been made, and then the JSON serializer looks at the
texts. What the parser lets through is stored exactly if the user id is not empty, the texts are
UTF-8 and the document of the map is not too large for OpenSSL, or if the relying party is one whose
credentials are not kept: then `buildResponse` returns whenever the user approves and its input and
output, the key provider and the counter succeed. Of an empty user id and of text that is not UTF-8
only the store takes notice.
-/

namespace VAuth.Ctap

open Store Format Proc

/-! ## What the parser checks -/

theorem gives_length {fits : Cbor → Bytes → Prop} {n : Nat} (h : ∀ c s, fits c s → s.length ≤ n)
    {v : Option Cbor} {s : Bytes} (hGives : Gives .cursor fits [] v s) : s.length ≤ n := by
  cases v with
  | none =>
    rw [show s = [] from hGives]
    exact Nat.zero_le n
  | some c => exact h c s (gives_some.mp hGives)

/-- The bounds on the entities of an accepted request. -/
structure Bounded (request : CTAPMakeCredentialRequest) : Prop where
  rpId_ne : request.rp.id ≠ []
  rpId : request.rp.id.length ≤ 253
  userId : request.user.id.length ≤ 64
  userName : request.user.name.length ≤ 64
  userDisplayName : request.user.displayName.length ≤ 64

theorem isTextMap_rp {c : Cbor} {rp : RelyingParty} (h : IsTextMap relyingParty .cursor c rp) :
    rp.id ≠ [] ∧ rp.id.length ≤ 253 := by
  obtain ⟨members, -, hFields, -, hValid⟩ := h
  refine ⟨of_decide_eq_true hValid, ?_⟩
  exact gives_length (fun _ _ h => h.2) (hFields _ List.mem_cons_self)

theorem isTextMap_user {c : Cbor} {user : UserEntity} (h : IsTextMap userEntity .cursor c user) :
    user.id.length ≤ 64 ∧ user.name.length ≤ 64 ∧ user.displayName.length ≤ 64 := by
  obtain ⟨members, -, hFields, -, -⟩ := h
  refine ⟨gives_length (fun _ _ h => h.2) (hFields _ List.mem_cons_self),
    gives_length (fun _ _ h => h.2) (hFields _ (List.mem_cons_of_mem _ List.mem_cons_self)),
    gives_length (fun _ _ h => h.2) (hFields _ (List.mem_cons_of_mem _
      (List.mem_cons_of_mem _ List.mem_cons_self)))⟩

theorem parseRequest_bounded {walk : Walk} {payload : Bytes} {request : CTAPMakeCredentialRequest}
    (h : CTAPMakeCredentialRequest.parseRequest walk payload = some request) :
    Bounded request := by
  obtain ⟨root, -, hRoot⟩ := parsePayload_eq_some.mp h
  have hRequest := makeCredential_parseRoot_eq.mp hRoot
  obtain ⟨_, -, hRp⟩ := hRequest.member (f := makeCredential.fields[1]) asUint_key
    (List.getElem_mem _) (by decide)
  obtain ⟨_, -, hUser⟩ := hRequest.member (f := makeCredential.fields[2]) asUint_key
    (List.getElem_mem _) (by decide)
  obtain ⟨hNonempty, hRpId⟩ := isTextMap_rp hRp
  obtain ⟨hId, hName, hDisplay⟩ := isTextMap_user hUser
  exact ⟨hNonempty, hRpId, hId, hName, hDisplay⟩

/-! ## What the store takes -/

/-- The texts of the request that the store writes. -/
structure Textual (request : CTAPMakeCredentialRequest) : Prop where
  rpId : Utf8 request.rp.id
  userName : Utf8 request.user.name
  userDisplayName : Utf8 request.user.displayName

/-- A key whose blobs the store takes. -/
structure Keeps (key : CredentialKey) : Prop where
  privateBlob : key.privateBlob ≠ [] ∧ key.privateBlob.length ≤ maxCredentialBlobSize
  publicBlob : key.publicBlob ≠ [] ∧ key.publicBlob.length ≤ maxCredentialBlobSize

/-- The names in the store are as long as a request may give them. -/
def Named (m : Storage) : Prop := ∀ (k : Bytes) (c : StoredCredential), m[k]? = some c →
  c.userName.length ≤ 64 ∧ c.userDisplayName.length ≤ 64

section Store

variable {request : CTAPMakeCredentialRequest} {credId : Vector UInt8 32} {key : CredentialKey}
  {ownerUid : UInt32}

/-- The credential passes `validate_credential`. -/
theorem credential_valid (hBounded : Bounded request) (hUserId : request.user.id ≠ [])
    (hKey : Keeps key) {generation : UInt64} (hGeneration : generation ≠ maxUInt64) :
    validateCredential { request.credential credId.toList key with
      ownerUid, creationOrder := generation + 1 } = .ok () := by
  have hId : credId.toList.length = 32 := credId.length_toList
  have hOrder : generation + 1 ≠ 0 := by
    intro hZero
    have hSucc := toNat_succ hGeneration
    rw [hZero] at hSucc
    cases hSucc
  refine validateCredential_ok_iff.mpr ⟨?_, ⟨hBounded.rpId_ne, hBounded.rpId⟩,
    ⟨hUserId, hBounded.userId⟩, rfl, hKey.privateBlob, hKey.publicBlob, hOrder⟩
  show 16 ≤ credId.toList.length ∧ credId.toList.length ≤ 1024
  omega

variable {store : CredentialStore} {m : Storage} {P : Platform} {cred : StoredCredential}

theorem afterPut_of_valid (hReady : store.requiresReload = false)
    (hGeneration : store.generation ≠ maxUInt64) (hValid : validateCredential { cred with
      ownerUid, creationOrder := store.generation + 1 } = .ok ())
    (hNew : hexEncode cred.id ∉ store.stored) (hRoom : store.stored.size < maxCredentials) :
    ∃ m, store.afterPut cred ownerUid = .ok m := by
  unfold CredentialStore.afterPut
  have hSize : ¬ (if cred.discoverable then store.stored.filter fun _ existing =>
      !CredentialStore.supersedes { cred with ownerUid, creationOrder := store.generation + 1 }
        existing
      else store.stored).size ≥ maxCredentials := by
    split
    · exact Nat.not_le.mpr (Nat.lt_of_le_of_lt Std.ExtTreeMap.size_filter_le_size hRoom)
    · exact Nat.not_le.mpr hRoom
  rw [requireReady_eq hReady]
  refine ⟨_, bind_eq_ok.mpr ⟨(), rfl, guard_eq_ok.mpr ⟨hGeneration, bind_eq_ok.mpr ⟨(), hValid,
    guard_eq_ok.mpr ⟨hNew, guard_eq_ok.mpr ⟨hSize, rfl⟩⟩⟩⟩⟩⟩

theorem weight_le {c : StoredCredential} (hValid : validateCredential c = .ok ())
    (hName : c.userName.length ≤ 64) (hDisplay : c.userDisplayName.length ≤ 64) :
    c.weight ≤ 37444 := by
  obtain ⟨⟨-, hId⟩, ⟨-, hRp⟩, ⟨-, hUser⟩, -, ⟨-, hPrivate⟩, ⟨-, hPublic⟩, -⟩ :=
    validateCredential_ok_iff.mp hValid
  have hBlob : maxCredentialBlobSize = 4096 := rfl
  unfold StoredCredential.weight
  omega

/-- A map of entries with such names is small enough for the cipher. -/
theorem weight_le_of_named (hValid : m.Valid) (hNamed : Named m) :
    m.weight ≤ maxCredentials * 37444 := by
  have hEach : ∀ n ∈ m.toList.map fun item => item.2.weight, n ≤ 37444 := by
    intro n hn
    obtain ⟨⟨k, c⟩, hItem, rfl⟩ := List.mem_map.mp hn
    have hEntry := Std.ExtTreeMap.mem_toList_iff_getElem?_eq_some.mp hItem
    obtain ⟨hName, hDisplay⟩ := hNamed k c hEntry
    exact weight_le (hValid.credential k c hEntry) hName hDisplay
  have hSum := List.sum_le_card_nsmul _ _ hEach
  rw [List.length_map, Std.ExtTreeMap.length_toList] at hSum
  exact Nat.le_trans hSum (Nat.mul_le_mul_right _ hValid.size)

theorem length_of_named (hP : P.Lawful) (hCompact : P.DumpsCompact) (hValid : m.Valid)
    (hNamed : Named m) {text : Bytes} (hDump : P.dump (storageDocument (P.iterate m)) = some text) :
    text.length ≤ 2147483647 := by
  have hEntry : ∀ item ∈ P.iterate m, m[item.1]? = some item.2 := fun item hItem =>
    Std.ExtTreeMap.mem_toList_iff_getElem?_eq_some.mp ((hP.iterate_perm m).mem_iff.mp hItem)
  have hLength := length_storageDocument_le fun item hItem =>
    (validateCredential_ok_iff.mp (hValid.credential _ _ (hEntry item hItem))).2.2.2.1
  rw [((hP.iterate_perm m).map fun item => item.2.weight).sum_eq, ← hCompact _ _ hDump] at hLength
  have hWeight := weight_le_of_named hValid hNamed
  have hMax : maxCredentials = 4096 := rfl
  unfold Storage.weight at hWeight
  omega

/-- The document of the map with the new credential is not too large for OpenSSL. -/
def Fits (P : Platform) (cred : StoredCredential) (ownerUid : UInt32) (store : CredentialStore) :
    Prop :=
  ∀ m text, store.afterPut cred ownerUid = .ok m →
    P.dump (storageDocument (P.iterate m)) = some text → text.length ≤ 2147483647

theorem afterPut_entries (h : store.afterPut cred ownerUid = .ok m) (k : Bytes)
    (c : StoredCredential) (hc : m[k]? = some c) :
    c = { cred with ownerUid, creationOrder := store.generation + 1 } ∨
      store.stored[k]? = some c := by
  obtain ⟨base, -, -, -, -, hSub, -, rfl⟩ := afterPut_ok h
  rw [Std.ExtTreeMap.getElem?_insert] at hc
  split at hc
  · exact .inl (Option.some.inj hc).symm
  · exact .inr (hSub k c hc)

theorem fits_of_named (hP : P.Lawful) (hCompact : P.DumpsCompact) (hValid : store.stored.Valid)
    (hNamed : Named store.stored) (hBounded : Bounded request) :
    Fits P (request.credential credId.toList key) ownerUid store := by
  intro m text hChange hDump
  have hOperation : (Operation.put (request.credential credId.toList key) ownerUid).change store =
      .ok m := hChange
  refine length_of_named hP hCompact (Operation.change_valid hValid hOperation) ?_ hDump
  intro k c hc
  rcases afterPut_entries hChange k c hc with rfl | hOld
  · exact ⟨hBounded.userName, hBounded.userDisplayName⟩
  · exact hNamed k c hOld

/-- The credential can be put into the store and the store can be written. -/
def Possible (P : Platform) (cred : StoredCredential) (ownerUid : UInt32)
    (store : CredentialStore) : Prop :=
  ∃ m, store.afterPut cred ownerUid = .ok m ∧ P.Encodes m

/-- **What the store takes**, of an accepted request. -/
theorem put_possible_iff (hP : P.Lawful) (hText : P.DumpsText) (hDumps : P.DumpsUtf8)
    (hBounded : Bounded request) (hKey : Keeps key) (hReady : store.requiresReload = false)
    (hGeneration : store.generation ≠ maxUInt64) (hNew : hexEncode credId.toList ∉ store.stored)
    (hRoom : store.stored.size < maxCredentials) (hStored : store.stored.Textual) :
    Possible P (request.credential credId.toList key) ownerUid store ↔
      request.user.id ≠ [] ∧ Textual request ∧
        Fits P (request.credential credId.toList key) ownerUid store := by
  constructor
  · rintro ⟨m, hChange, text, hDump, hSize⟩
    obtain ⟨base, -, -, hValid, -, -, -, rfl⟩ := afterPut_ok hChange
    have hItem := textual_of_dump hDumps hDump (Std.ExtTreeMap.mem_toList_iff_getElem?_eq_some.mpr
      Std.ExtTreeMap.getElem?_insert_self |> (hP.iterate_perm _).mem_iff.mpr)
    refine ⟨(validateCredential_ok_iff.mp hValid).2.2.1.1,
      ⟨hItem.rpId, hItem.userName, hItem.userDisplayName⟩, fun m' text' hChange' hDump' => ?_⟩
    cases hChange.symm.trans hChange'
    cases hDump.symm.trans hDump'
    exact hSize
  · rintro ⟨hUserId, hTextual, hFits⟩
    obtain ⟨m, hChange⟩ := afterPut_of_valid hReady hGeneration
      (credential_valid hBounded hUserId hKey hGeneration) hNew hRoom
    obtain ⟨text, hDump⟩ := hText (P.iterate m) fun item hItem => by
      rcases afterPut_entries hChange item.1 item.2 ((mem_iterate hP).mp hItem) with hSame | hOld
      · rw [hSame]
        exact ⟨hTextual.rpId, hTextual.userName, hTextual.userDisplayName⟩
      · exact hStored item.1 item.2 hOld
    exact ⟨m, hChange, text, hDump, hFits m text hChange hDump⟩

end Store

/-! ## The command -/

/-- The user approves and nothing fails in a step: the key provider has a new key for a new id, and
its attestation can be encoded. -/
structure Approving (L : Libraries) (request : CTAPMakeCredentialRequest) (user : UserContext)
    (credId : Vector UInt8 32) (key : CredentialKey) (i : Input) : Prop where
  stop : i.stop = false
  storage : i.storage.Succeeds
  context : i.context = .ok user
  interaction : i.interaction = .ok .approved
  random : i.random = .ok credId
  created : i.key = .ok key
  signature : ∃ signature x y coseMap payload, i.signature = .ok signature ∧
    L.extractPublic key.publicBlob = .ok (x, y) ∧ buildCoseKey x y = .ok coseMap ∧
    buildAuthenticatorMakeCredentialResponse
      (request.authDataPrefix L credId.toList ++ coseMap) signature = .ok payload

section Command

variable {L : Libraries} {request : CTAPMakeCredentialRequest} {user : UserContext}
  {credId : Vector UInt8 32} {key : CredentialKey} {d : Daemon} {E : Exn → Daemon → Prop}

theorem wp_approving_cancellationPoint {Q : Unit → Daemon → Prop} (hQ : Q () d) :
    wp (.alone (Approving L request user credId key) fun _ => True) Q E cancellationPoint d :=
  wp_alone_cancellationPoint (fun _ hi => hi.stop) hQ

theorem wp_approving_consent {Q : Option CTAPError → Daemon → Prop}
    (hQ : ∀ d', d'.world = d.world → Q none d') :
    wp (.alone (Approving L request user credId key) fun _ => True) Q E
      (request.requestConsent user) d := by
  have hAsk (kind : InteractionKind) (interaction : UserInteractionRequest) :
      wp (.alone (Approving L request user credId key) fun _ => True) Q E (do
        let result ← requestInteraction kind user interaction
        cancellationPoint
        if result = .cancelled then return some .operationDenied
        if result ≠ .approved then return some .operationDenied
        return none) d := by
    refine wp_bind.mpr (wp_keeps_atomically keeps_alone fun i hi => ?_)
    rw [hi.interaction]
    refine ⟨trivial, fun _ hResult => ?_, nofun⟩
    cases hResult
    exact wp_bind.mpr (wp_approving_cancellationPoint (hQ _ rfl))
  unfold CTAPMakeCredentialRequest.requestConsent
  split
  · exact hAsk .verification _
  · exact wp_bind.mpr (wp_approving_cancellationPoint (hAsk .presence _))

theorem wp_approving_register (hP : L.toPlatform.Lawful) {w : World} (hWorld : d.world = w)
    (hValid : w.store.stored.Valid) (hReady : w.store.requiresReload = false)
    (hCounter : w.disk.counter = w.store.generation) (hGeneration : w.store.generation ≠ maxUInt64) :
    wp (.alone (Approving L request user credId key) fun _ => True)
      (fun _ d' => request.isDummy = true ∨
        Possible L.toPlatform (request.credential credId.toList key) user.uid w.store ∧
          w.store.afterPut (request.credential credId.toList key) user.uid =
            .ok d'.world.store.stored)
      (fun _ _ => ¬ request.isDummy = true ∧
        ¬ Possible L.toPlatform (request.credential credId.toList key) user.uid w.store)
      (request.register L user) d := by
  subst hWorld
  unfold CTAPMakeCredentialRequest.register
  refine wp_bind.mpr (wp_keeps_atomically keeps_alone fun i hi => ?_)
  rw [hi.random]
  refine ⟨trivial, fun _ hDrawn => ?_, nofun⟩
  cases hDrawn
  refine wp_bind.mpr (wp_approving_cancellationPoint (wp_bind.mpr
    (wp_keeps_observe keeps_alone trivial fun i hi => ?_)))
  rw [hi.created]
  refine ⟨fun _ hCreated => ?_, nofun⟩
  cases hCreated
  refine wp_bind.mpr (wp_approving_cancellationPoint ?_)
  obtain ⟨_, x, y, coseMap, _, -, hPublic, hCose, -⟩ := hi.signature
  rw [hPublic]
  refine wp_bind.mpr (wp_ofExcept.mpr ⟨fun _ hxy => ?_, nofun⟩)
  cases hxy
  simp only [hCose]
  refine wp_bind.mpr (wp_ofExcept.mpr ⟨fun _ hMap => ?_, nofun⟩)
  cases hMap
  refine wp_bind.mpr (wp_keeps_atomically keeps_alone fun i hi => ?_)
  obtain ⟨signature, x', y', coseMap', payload, hSignature, hPublic', hCose', hPayload⟩ :=
    hi.signature
  cases hPublic.symm.trans hPublic'
  cases hCose.symm.trans hCose'
  rw [hSignature]
  refine ⟨trivial, fun _ hSigned => ?_, nofun⟩
  cases hSigned
  rw [hPayload]
  refine wp_bind.mpr (wp_ofExcept.mpr ⟨fun _ hBuilt => ?_, nofun⟩)
  refine wp_bind.mpr (wp_approving_cancellationPoint ?_)
  by_cases hDummy : request.isDummy = true
  · rw [if_neg (not_not.mpr hDummy)]
    exact .inl hDummy
  · rw [if_pos hDummy]
    refine wp_bind.mpr (wp_approving_cancellationPoint (wp_bind.mpr (wp_alone_withStore
      (fun _ hi => hi.storage) (wp_exact_operation hP
        (.put (request.credential credId.toList key) user.uid) hValid hReady hCounter hGeneration)
      ?_ fun _ _ hImpossible => ⟨hDummy, hImpossible⟩)))
    rintro _ w ⟨m, hPossible, hCommitted⟩
    exact .inr ⟨⟨m, hPossible⟩, by rw [hCommitted.store]; exact hPossible.1⟩

theorem wp_approving_buildResponse {Q : Bytes → Daemon → Prop} (hOffers : request.offersEs256 = true)
    (hError : request.validationError = none) (hReady : d.world.store.requiresReload = false)
    (hExcluded : excluded request user d.world.store = false)
    (hQ : ∀ d', d'.world = d.world →
      wp (.alone (Approving L request user credId key) fun _ => True) Q E
        (request.register L user) d') :
    wp (.alone (Approving L request user credId key) fun _ => True) Q E
      (request.buildResponse L) d := by
  unfold CTAPMakeCredentialRequest.buildResponse
  refine wp_bind.mpr (wp_approving_cancellationPoint (wp_bind.mpr (wp_alone_currentContext
    fun i hi => ⟨user, hi.context, ?_⟩)))
  refine wp_seq (wp_alone_findExcluded ?_ _) ?_ fun _ _ h => h
  · exact hReady
  rintro found _ ⟨hFound, rfl⟩
  obtain rfl : found = false := hFound.trans hExcluded
  simp only [hOffers, hError]
  exact wp_bind.mpr (wp_approving_consent hQ)

end Command

/-- **What the parser accepts is stored**, once the user has approved it: exactly if the user id is
not empty, the texts are UTF-8 and the map fits, or if the credential is not to be kept. Names within
the bounds of the parser always fit. -/
theorem accepted_request_stored {L : Libraries} (hP : L.toPlatform.Lawful)
    (hParse : L.toPlatform.ParsesUtf8) (hText : L.toPlatform.DumpsText)
    (hDumps : L.toPlatform.DumpsUtf8) (hCompact : L.toPlatform.DumpsCompact) {payload : Bytes}
    {request : CTAPMakeCredentialRequest}
    (hParsed : CTAPMakeCredentialRequest.parseRequest L.walk payload = some request)
    (hOffers : request.offersEs256 = true) (hError : request.validationError = none)
    {user : UserContext} {credId : Vector UInt8 32} {key : CredentialKey} (hKey : Keeps key)
    {d : Daemon} (hReachable : Reachable L.toPlatform d.world)
    (hReady : d.world.store.requiresReload = false)
    (hCounter : d.world.disk.counter = d.world.store.generation)
    (hGeneration : d.world.store.generation ≠ maxUInt64)
    (hRoom : d.world.store.stored.size < maxCredentials)
    (hNew : hexEncode credId.toList ∉ d.world.store.stored)
    (hExcluded : excluded request user d.world.store = false) {stream : Nat → Input}
    (hStream : ∀ n, Approving L request user credId key (stream n)) :
    (∃ n result d', Proc.run ((List.range n).map stream) (request.buildResponse L) d =
        (Proc.ofExcept result, d') ∧
      (result.isOk = true ↔ request.isDummy = true ∨ request.user.id ≠ [] ∧ Textual request ∧
        Fits L.toPlatform (request.credential credId.toList key) user.uid d.world.store) ∧
      (result.isOk = true → request.isDummy = false →
        d.world.store.afterPut (request.credential credId.toList key) user.uid =
          .ok d'.world.store.stored)) ∧
    (Named d.world.store.stored →
      Fits L.toPlatform (request.credential credId.toList key) user.uid d.world.store) := by
  have hBounded := parseRequest_bounded hParsed
  have hValid := hReachable.valid hP
  have hPossible : Possible L.toPlatform _ user.uid _ ↔ _ := put_possible_iff hP hText hDumps
    hBounded hKey hReady hGeneration hNew hRoom
    (hReachable.elim fun _ hRun => textual_of_steps hP hParse hRun)
  refine ⟨?_, fun hNamed => fits_of_named hP hCompact hValid hNamed hBounded⟩
  have hCommand : wp (.alone (Approving L request user credId key) fun _ => True) _ _ _ d :=
    wp_approving_buildResponse hOffers hError hReady hExcluded fun d' hWorld =>
      wp_approving_register hP hWorld hValid hReady hCounter hGeneration
  obtain ⟨n, d', ⟨payload, hRun, hDone⟩ | ⟨e, hRun, hDummy, hImpossible⟩⟩ :=
    wp_run_stream hCommand stream hStream
  · refine ⟨n, .ok payload, d', hRun, iff_of_true rfl (hDone.imp_right fun h => hPossible.mp h.1),
      fun _ hKept => ?_⟩
    rcases hDone with hDummy | ⟨-, hStored⟩
    · cases hKept.symm.trans hDummy
    · exact hStored
  · exact ⟨n, .error e, d', hRun,
      iff_of_false nofun (not_or.mpr ⟨hDummy, fun h => hImpossible (hPossible.mpr h)⟩), nofun⟩

/-- The sample libraries with a platform that takes every UTF-8 text. -/
noncomputable def utf8Libraries : Libraries := { sampleLibraries with toPlatform := utf8Platform }

theorem accepted_request_stored_first : ∃ request n payload d',
    CTAPMakeCredentialRequest.parseRequest Cbor.next
      (Cbor.map (plainRequest (.negative 6))).encode = some request ∧
    Proc.run ((List.range n).map fun _ => drawing 1) (request.buildResponse utf8Libraries) {} =
      (done payload, d') := by
  have hFields : (CTAPMakeCredentialRequest.parseRequest Cbor.next
      (Cbor.map (plainRequest (.negative 6))).encode).any (fun request =>
        request.rp.id == [97] && request.user.id == [1] && request.user.name == [] &&
          request.user.displayName == [] && request.offersEs256 &&
          request.validationError.isNone && !excluded request sampleUser {} &&
          (do
            let coseMap ← buildCoseKey [] []
            buildAuthenticatorMakeCredentialResponse (request.authDataPrefix sampleLibraries
              (Vector.replicate 32 1).toList ++ coseMap) [3]).isOk) = true := by decide +kernel
  obtain ⟨request, hParsed, hFields⟩ := (Option.any_eq_true _ _).mp hFields
  simp only [Bool.and_eq_true, beq_iff_eq, Option.isNone_iff_eq_none, Bool.not_eq_true'] at hFields
  obtain ⟨⟨⟨⟨⟨⟨⟨hRp, hUser⟩, hName⟩, hDisplay⟩, hOffers⟩, hError⟩, hExcluded⟩, hBuilds⟩ := hFields
  obtain ⟨payload, hBuilt⟩ := exists_ok_of_isOk hBuilds
  obtain ⟨coseMap, hCose, hPayload⟩ := bind_eq_ok.mp hBuilt
  have hTextual : Textual request := by
    refine ⟨?_, ?_, ?_⟩
    · rw [hRp]
      exact utf8_ascii (by simp)
    · rw [hName]
      exact utf8_ascii nofun
    · rw [hDisplay]
      exact utf8_ascii nofun
  have hApproving (n : Nat) : Approving utf8Libraries request sampleUser (Vector.replicate 32 1)
      ⟨[1], [2]⟩ ((fun _ => drawing 1) n) :=
    ⟨rfl, Answer.success_succeeds, rfl, rfl, rfl, rfl, [3], [], [], coseMap, payload, rfl, rfl,
      hCose, hPayload⟩
  obtain ⟨⟨n, result, d', hRun, hExact, -⟩, hFits⟩ := accepted_request_stored (L := utf8Libraries)
    utf8Platform_lawful utf8Platform_parsesUtf8 utf8Platform_dumpsText utf8Platform_dumpsUtf8
    utf8Platform_dumpsCompact hParsed hOffers hError (⟨by decide, by decide⟩ : Keeps ⟨[1], [2]⟩)
    (d := {}) (holding_fresh utf8Platform).reachable rfl rfl (by decide) (by decide) (by simp)
    hExcluded hApproving
  cases result with
  | ok payload => exact ⟨request, n, payload, d', hParsed, hRun⟩
  | error e =>
    cases hExact.mpr (.inr ⟨by rw [hUser]; decide, hTextual, hFits fun k c hc => by simp at hc⟩)

/-! ## What only the store notices -/

/-- The inputs of a registration: the id is drawn in its sixth step. -/
def drawingInputs : List Input :=
  List.replicate 5 approving ++ [drawing 1] ++ List.replicate 26 approving

/-- An accepted request with an empty user id fails in the store, after the user has approved it
and the new key has signed; and an accepted relying party that is not UTF-8 keeps the store from
being written. -/
theorem accepted_request_not_stored :
    (∃ request d', CTAPMakeCredentialRequest.parseRequest Cbor.next
        (Cbor.map (registration (text "a") [] (.negative 6))).encode = some request ∧
      request.offersEs256 = true ∧ request.validationError = none ∧ request.excludeList = [] ∧
      Proc.run drawingInputs (request.buildResponse sampleLibraries) {} =
        (fail (.invalidArgument "User ID must contain between 1 and 64 bytes"), d') ∧
      d'.ceremony.signed ≠ []) ∧
    (∃ request, CTAPMakeCredentialRequest.parseRequest Cbor.next
        (Cbor.map (registration [0xff] [1] (.negative 6))).encode = some request ∧
      request.offersEs256 = true ∧ request.validationError = none ∧ request.excludeList = [] ∧
      ∀ (P : Platform) (items : List (Bytes × StoredCredential)) (k credId : Bytes)
        (key : CredentialKey), P.DumpsUtf8 → (k, request.credential credId key) ∈ items →
        P.dump (storageDocument items) = none) := by
  constructor
  · have hLate : (CTAPMakeCredentialRequest.parseRequest Cbor.next
        (Cbor.map (registration (text "a") [] (.negative 6))).encode).any (fun request =>
          request.offersEs256 && request.validationError.isNone && request.excludeList.isEmpty &&
          (Proc.run drawingInputs (request.buildResponse sampleLibraries) {}).1.outcome? ==
            some (.error (.invalidArgument "User ID must contain between 1 and 64 bytes")) &&
          (Proc.run drawingInputs (request.buildResponse sampleLibraries)
            {}).2.ceremony.signed.length == 1) = true := by decide +kernel
    obtain ⟨request, hParsed, hLate⟩ := (Option.any_eq_true _ _).mp hLate
    simp only [Bool.and_eq_true, beq_iff_eq, Option.isNone_iff_eq_none, List.isEmpty_iff] at hLate
    obtain ⟨⟨⟨⟨hOffers, hError⟩, hExclude⟩, hOutcome⟩, hSigned⟩ := hLate
    refine ⟨request, _, hParsed, hOffers, hError, hExclude, run_eq_fail hOutcome, fun hNone => ?_⟩
    rw [hNone] at hSigned
    cases hSigned
  · have hAccepted : (CTAPMakeCredentialRequest.parseRequest Cbor.next
        (Cbor.map (registration [0xff] [1] (.negative 6))).encode).any (fun request =>
          request.offersEs256 && request.validationError.isNone && request.excludeList.isEmpty &&
          request.rp.id == [0xff]) = true := by decide +kernel
    obtain ⟨request, hParsed, hAccepted⟩ := (Option.any_eq_true _ _).mp hAccepted
    simp only [Bool.and_eq_true, beq_iff_eq, Option.isNone_iff_eq_none, List.isEmpty_iff]
      at hAccepted
    obtain ⟨⟨⟨hOffers, hError⟩, hExclude⟩, hRp⟩ := hAccepted
    refine ⟨request, hParsed, hOffers, hError, hExclude, ?_⟩
    intro P items k credId key hDumps hItem
    refine Option.eq_none_iff_forall_ne_some.mpr fun text hDump => ?_
    have hUtf8 := (textual_of_dump hDumps hDump hItem).rpId
    have hByte : (0xff : UInt8) ∈ request.rp.id := by
      rw [hRp]
      exact List.mem_cons_self
    exact absurd (hUtf8.byte_lt hByte) (by decide)

end VAuth.Ctap
