import Mathlib.Data.List.Induction
import VAuth.Ctap.Commits
import VAuth.Ctap.Encoder
import VAuth.Store.Selection

/-!
# Discovery

A GetAssertion without an allow list and the GetNextAssertion commands after it return the
discoverable credentials one by one, the newest first. The commands are run to their end, each
on a stream of inputs of its own on which nothing fails, so that the theorem says that they
return, and not only what they return.

Between two commands the store is the first one with the counters of the credentials that were
shown (`Storage.counted`), and the sequence holds the others.
-/

namespace VAuth

open Proc

namespace Store

/-! ## Counters -/

/-- The credential after one more assertion. -/
def StoredCredential.counted (c : StoredCredential) : StoredCredential :=
  { c with signCount := c.signCount + 1 }

variable {m : Storage} {c : StoredCredential} {shown found rest : List StoredCredential}
  {store : CredentialStore}

theorem StoredCredential.counted_signCount (h : c.signCount ≠ 4294967295) :
    c.counted.signCount.toNat = c.signCount.toNat + 1 := by
  have hNe : c.signCount.toNat ≠ 4294967295 := fun hEq => h (UInt32.toNat_inj.mp hEq)
  have hLt := c.signCount.toNat_lt
  show (c.signCount + 1).toNat = _
  rw [UInt32.toNat_add]
  simp only [UInt32.toNat_one]
  omega

/-- The map after an assertion of each of the credentials. -/
def Storage.counted (m : Storage) (shown : List StoredCredential) : Storage :=
  shown.foldl (fun m c => m.insert (hexEncode c.id) c.counted) m

theorem Storage.counted_snoc (m : Storage) (shown : List StoredCredential) (c : StoredCredential) :
    m.counted (shown ++ [c]) = (m.counted shown).insert (hexEncode c.id) c.counted := by
  rw [counted, List.foldl_append]
  rfl

/-- Credentials of the map, each at its place and none twice. -/
structure Storage.Lists (m : Storage) (shown : List StoredCredential) : Prop where
  stored : ∀ c ∈ shown, m[hexEncode c.id]? = some c
  distinct : shown.Nodup

theorem Storage.Lists.left (h : m.Lists (shown ++ rest)) : m.Lists shown :=
  ⟨fun c hc => h.stored c (List.mem_append_left _ hc), (List.nodup_append.mp h.distinct).1⟩

theorem Storage.Lists.length_le (h : m.Lists found) : found.length ≤ m.size := by
  have hNodup : (found.map fun c => (hexEncode c.id, c)).Nodup :=
    h.distinct.map fun _ _ hSame => congrArg Prod.snd hSame
  have hSubset : (found.map fun c => (hexEncode c.id, c)) ⊆ m.toList := by
    intro item hItem
    obtain ⟨c, hc, rfl⟩ := List.mem_map.mp hItem
    exact Std.ExtTreeMap.mem_toList_iff_getElem?_eq_some.mpr (h.stored c hc)
  have hLength := (List.subperm_of_subset hNodup hSubset).length_le
  rwa [List.length_map, Std.ExtTreeMap.length_toList] at hLength

theorem Storage.getElem?_counted (hValid : m.Valid) (shown : List StoredCredential)
    (h : m.Lists shown) (k : Bytes) : (m.counted shown)[k]? =
      (m[k]?).map fun c => if c ∈ shown then c.counted else c := by
  induction shown using List.reverseRecOn with
  | nil => simp [counted]
  | append_singleton shown c ih =>
    have hStored : m[hexEncode c.id]? = some c := h.stored c (by simp)
    rw [counted_snoc, Std.ExtTreeMap.getElem?_insert, ih h.left]
    by_cases hKey : hexEncode c.id = k
    · subst hKey
      simp [hStored]
    · have hOther : ∀ c', m[k]? = some c' → (c' ∈ shown ++ [c] ↔ c' ∈ shown) := by
        intro c' hc'
        have hNe : c' ≠ c := fun hSame => hKey (hSame ▸ (hValid.key k c' hc').symm)
        simp [hNe]
      rw [if_neg (by simpa using hKey)]
      cases hEntry : m[k]? with
      | none => rfl
      | some c' => simp only [Option.map_some, hOther c' hEntry]

theorem Storage.counted_of_notMem (hValid : m.Valid) (h : m.Lists shown) {k : Bytes}
    (hc : m[k]? = some c) (hNew : c ∉ shown) : (m.counted shown)[k]? = some c := by
  rw [getElem?_counted hValid shown h, hc, Option.map_some, if_neg hNew]

theorem afterIncrement_counted (hValid : m.Valid) (h : m.Lists (shown ++ c :: rest))
    (hStored : store.stored = m.counted shown) (hReady : store.requiresReload = false)
    (hCount : c.signCount ≠ 4294967295) :
    store.afterIncrement c.id c.ownerUid = .ok (m.counted (shown ++ [c])) := by
  have hNew : c ∉ shown := fun hc =>
    (List.nodup_append.mp h.distinct).2.2 c hc c List.mem_cons_self rfl
  have hEntry : store.stored[hexEncode c.id]? = some c := by
    rw [hStored]
    exact Storage.counted_of_notMem hValid h.left (h.stored c (by simp)) hNew
  have hLookup : store.getByCredId c.id c.ownerUid = .ok c := by
    unfold CredentialStore.getByCredId
    rw [requireReady_eq hReady, hEntry]
    exact if_neg (not_not.mpr rfl)
  rw [Storage.counted_snoc, ← hStored]
  exact bind_eq_ok.mpr ⟨c, hLookup, guard_eq_ok.mpr ⟨hCount, rfl⟩⟩

theorem Operation.Returns.committed {P : Platform} (hP : P.Lawful) {op : Operation} {w w' : World}
    (hValid : w.store.stored.Valid) (h : op.Returns P w w') :
    ∃ m, op.change w.store = .ok m ∧ Committed P m w w' := by
  obtain ⟨inputs, hRun⟩ := h
  have hValids : ∀ m, op.change w.store = .ok m → m.Valid :=
    fun _ hm => Operation.change_valid hValid hm
  rw [Operation.run_eq] at hRun
  exact (Service.wp_run_nobody (wp_commit hP hValids
    (Service.keeps_nobody (I := fun _ => True).mono fun _ _ => trivial)) inputs).1 () w' hRun

theorem discovered_of_found {P : Platform} (hP : P.Lawful) {w : World} {rpId : Bytes}
    {ownerUid : UInt32} (hReachable : Reachable P w)
    (h : w.store.findForAssertion P rpId [] ownerUid = .ok found) :
    Discovered w.store rpId ownerUid found := by
  obtain ⟨_, -, h⟩ := bind_eq_ok.mp h
  cases h
  exact discoverableMatches_exact hP (hReachable.kept hP)

theorem Discovered.lists {rpId : Bytes} {ownerUid : UInt32} (hValid : store.stored.Valid)
    (h : Discovered store rpId ownerUid found) : store.stored.Lists found := by
  refine ⟨fun c hc => ?_, h.order.imp ?_⟩
  · obtain ⟨⟨k, hStored⟩, -⟩ := (h.exact c).mp hc
    rw [← hValid.key k c hStored]
    exact hStored
  · rintro c c' hLt rfl
    exact UInt64.lt_irrefl _ hLt

end Store

namespace Ctap

open Store

/-! ## One command -/

variable {credential : StoredCredential}

theorem AssertionSequence.next_eq {sequence : AssertionSequence} {cid : UInt32} {user : UserContext}
    {now : Int} {rest : List StoredCredential} (hOrigin : sequence.originCid = cid) (hCid : cid ≠ 0)
    (hOwner : sequence.ownerContext = some user.binding) (hGap : now - sequence.lastUse ≤ timeout)
    (hPending : sequence.pending = credential :: rest) :
    sequence.next cid user now = (some credential, if rest = [] then {}
      else { sequence with index := sequence.index + 1, lastUse := now }) := by
  have hAt : sequence.credentials[sequence.index]? = some credential := by
    rw [← List.head?_drop, ← pending, hPending, List.head?_cons]
  have hLast : sequence.index + 1 = sequence.credentials.length ↔ rest = [] := by
    have hLength := congrArg List.length hPending
    rw [pending, List.length_drop, List.length_cons] at hLength
    rw [← List.length_eq_zero_iff]
    omega
  unfold AssertionSequence.next
  rw [if_neg (by simp [hOwner]), if_neg (by simp [hOrigin, hCid]), if_neg (by omega), hAt]
  simp only [hLast]

/-- Nothing fails in a step: no stop was requested, the user is the one of the sequence, the
storage and the key provider succeed, and the assertion of each of the credentials can be
encoded. -/
structure Untroubled (L : Libraries) (request : CTAPGetAssertionRequest) (user : UserContext)
    (found : List StoredCredential) (i : Input) : Prop where
  stop : i.stop = false
  storage : i.storage.Succeeds
  context : ∃ current, i.context = .ok current ∧ current.binding = user.binding
  signature : ∃ signature, i.signature = .ok signature ∧ ∀ c ∈ found, ∃ payload,
    buildAuthenticatorGetAssertionResponse (request.authData L (c.signCount + 1)) signature
      request.userVerified c (request.allowList.length ≠ 1) none = .ok payload

/-- The packet is the assertion of the credential, with this number of credentials. -/
def IsAssertion (cid : UInt32) (credential : StoredCredential) (number : Option UInt64)
    (packet : CTAPPacket) : Prop :=
  ∃ payload contents, packet = successPacket cid payload ∧ readAssertion payload = some contents ∧
    contents.credentialId = credential.id ∧ contents.numberOfCredentials = number

theorem isAssertion_of_build {cid : UInt32} {authData signature payload : Bytes}
    {uv includeUser : Bool} {number : Option UInt32}
    (h : buildAuthenticatorGetAssertionResponse authData signature uv credential includeUser
      number = .ok payload) :
    IsAssertion cid credential (number.map UInt32.toUInt64) (successPacket cid payload) := by
  rcases encodeCbor_cases (ordered_assertionItem _ _ _ _ _ _) wellFormed_assertionItem with
    ⟨-, hLimit⟩ | ⟨bytes, hOk, -, hHolds⟩
  · cases hLimit.symm.trans h
  · obtain rfl := Except.ok.inj (hOk.symm.trans h)
    exact ⟨_, _, rfl, readAssertion_of_holds hHolds, rfl, rfl⟩

def getNextAssertion (cid : UInt32) : CborRequest where
  cid
  command := 0x08
  parameters := []

section Next

variable {L : Libraries} {admits : Input → Prop} {request : CTAPGetAssertionRequest}
  {user : UserContext} {found : List StoredCredential} {d : Daemon} {E : Exn → Daemon → Prop}
  (hAdmits : ∀ i, admits i → Untroubled L request user found i)
include hAdmits

theorem wp_untroubled_payload {Q : Bytes → Daemon → Prop} {c : StoredCredential} {m : Storage}
    (hRequest : d.getAssertion = { request with sequence := d.getAssertion.sequence })
    (hFound : c ∈ found)
    (hStore : wp (.alone Answer.Succeeds fun _ => True)
      (fun _ w => Committed L.toPlatform m d.world w) (fun _ _ => False)
      (incrementSigCount L.toPlatform c.id user.uid) d.world)
    (hQ : ∀ payload w signed, Committed L.toPlatform m d.world w →
      (∀ cid, IsAssertion cid c none (successPacket cid payload)) →
      1 < payload.length ∧ payload.length ≤ ctaphidMaxPayloadSize →
      Q payload { d with world := w, ceremony.signed := signed }) :
    wp (.alone admits fun _ => True) Q E
      (CTAPGetAssertionRequest.generateSingleCredentialPayload L c user.uid none) d := by
  unfold CTAPGetAssertionRequest.generateSingleCredentialPayload
  refine wp_bind.mpr (wp_keeps_read keeps_alone trivial ?_)
  refine wp_bind.mpr (wp_keeps_atomically keeps_alone fun i hi => ?_)
  obtain ⟨signature, hSignature, hEncodes⟩ := (hAdmits i hi).signature
  obtain ⟨payload, hPayload⟩ := hEncodes c hFound
  have hBuild : buildAuthenticatorGetAssertionResponse
      (d.getAssertion.authData L (c.signCount + 1)) signature d.getAssertion.userVerified c
      (d.getAssertion.allowList.length ≠ 1) none = .ok payload := by
    rw [hRequest]
    exact hPayload
  rw [hSignature]
  refine ⟨trivial, fun _ hSigned => ?_, nofun⟩
  cases hSigned
  refine wp_bind.mpr (wp_ofExcept.mpr ⟨fun p hp => ?_, fun e he => ?_⟩)
  · obtain rfl := Except.ok.inj (hBuild.symm.trans hp)
    refine wp_bind.mpr (wp_alone_cancellationPoint (fun i hi => (hAdmits i hi).stop) ?_)
    refine wp_bind.mpr (wp_alone_withStore (fun i hi => (hAdmits i hi).storage) hStore
      (fun _ w hCommitted => ?_) fun _ _ hNever => hNever.elim)
    exact hQ payload w _ hCommitted (fun _ => isAssertion_of_build hPayload)
      (encodeCbor_length hPayload)
  · cases hBuild.symm.trans he

theorem wp_untroubled_next {Q : CTAPPacket → Daemon → Prop} {cid : UInt32} {c : StoredCredential}
    {rest : List StoredCredential} {m : Storage}
    (hRequest : d.getAssertion = { request with sequence := d.getAssertion.sequence })
    (hOrigin : d.getAssertion.sequence.originCid = cid) (hCid : cid ≠ 0)
    (hOwner : d.getAssertion.sequence.ownerContext = some user.binding)
    (hGap : ∀ i, admits i → i.now - d.getAssertion.sequence.lastUse ≤ AssertionSequence.timeout)
    (hPending : d.getAssertion.sequence.pending = c :: rest) (hFound : c ∈ found)
    (hStore : wp (.alone Answer.Succeeds fun _ => True)
      (fun _ w => Committed L.toPlatform m d.world w) (fun _ _ => False)
      (incrementSigCount L.toPlatform c.id user.uid) d.world)
    (hQ : ∀ packet i d', admits i → IsAssertion cid c none packet →
      Committed L.toPlatform m d.world d'.world → d'.ceremony.used = some i.now →
      d'.getAssertion = { d.getAssertion with sequence := if rest = [] then {}
        else { d.getAssertion.sequence with
          index := d.getAssertion.sequence.index + 1, lastUse := i.now } } → Q packet d') :
    wp (.alone admits fun _ => True) Q E (serve L (getNextAssertion cid)) d := by
  have hOurs : ¬ (d.newRecord.getAssertion.sequence.originCid = 0 ∨
      d.newRecord.getAssertion.sequence.originCid ≠ (getNextAssertion cid).cid) :=
    not_or.mpr ⟨fun hNone => hCid (hOrigin.symm.trans hNone), not_not.mpr hOrigin⟩
  have hBare : ¬ (getNextAssertion cid).parameters ≠ [] := not_not.mpr rfl
  have hStop : ∀ i, admits i → i.stop = false := fun i hi => (hAdmits i hi).stop
  refine wp_bind.mpr (wp_keeps_modify keeps_alone trivial (wp_tryCatch.mpr ?_))
  refine wp_bind.mpr (wp_alone_cancellationPoint hStop ?_)
  show wp _ _ _ (handleGetNextAssertion L (getNextAssertion cid)) d.newRecord
  refine wp_bind.mpr (wp_keeps_read keeps_alone trivial ?_)
  rw [if_neg hOurs, if_neg hBare]
  refine wp_bind.mpr (wp_tryCatch.mpr ?_)
  refine wp_bind.mpr (wp_alone_currentContext fun j hj => ?_)
  obtain ⟨current, hContext, hBinding⟩ := (hAdmits j hj).context
  refine ⟨current, hContext, ?_⟩
  have hUid : current.uid = user.uid := congrArg UserContextBinding.uid hBinding
  refine wp_bind.mpr (wp_keeps_atomically keeps_alone fun i hi => ?_)
  have hYields := AssertionSequence.next_eq hOrigin hCid (hBinding ▸ hOwner) (hGap i hi) hPending
  refine ⟨trivial, fun next hNext => ?_, nofun⟩
  obtain rfl : some c = next := (congrArg Prod.fst hYields).symm.trans (Except.ok.inj hNext)
  refine wp_bind.mpr (wp_alone_cancellationPoint hStop ?_)
  rw [hUid]
  refine wp_untroubled_payload hAdmits ?_ hFound hStore fun payload w signed hCommitted hIs
    hLength => ?_
  · show ({ d.getAssertion with sequence := _ } : CTAPGetAssertionRequest) = _
    rw [hRequest]
  · rw [replyWith_eq hLength]
    refine hQ _ i _ hi (hIs cid) hCommitted rfl ?_
    exact congrArg (fun sequence => { d.getAssertion with sequence }) (congrArg Prod.snd hYields)

end Next

/-! ## An enumeration -/

/-- The store can count each of the credentials once: no counter and no generation is at its end,
and every document on the way can be written. -/
structure Countable (P : Platform) (found : List StoredCredential) (store : CredentialStore) :
    Prop where
  counts : ∀ c ∈ found, c.signCount ≠ 4294967295
  generation : store.generation.toNat + found.length < 2 ^ 64
  encodes : ∀ shown rest, found = shown ++ rest → P.Encodes (store.stored.counted shown)

/-- Between two commands: `shown` was returned and counted, and `rest` is to come. -/
structure Enumerating (request : CTAPGetAssertionRequest) (cid : UInt32) (user : UserContext)
    (store : CredentialStore) (shown rest : List StoredCredential) (d : Daemon) : Prop where
  stored : d.world.store.stored = store.stored.counted shown
  generation : d.world.store.generation.toNat = store.generation.toNat + shown.length
  valid : d.world.store.stored.Valid
  ready : d.world.store.requiresReload = false
  counter : d.world.disk.counter = d.world.store.generation
  request : d.getAssertion = { request with sequence := d.getAssertion.sequence }
  ended : rest = [] → d.getAssertion.sequence = {}
  pending : d.getAssertion.sequence.pending = rest
  origin : rest ≠ [] → d.getAssertion.sequence.originCid = cid
  owner : rest ≠ [] → d.getAssertion.sequence.ownerContext = some user.binding
  used : rest ≠ [] → d.ceremony.used = some d.getAssertion.sequence.lastUse

section Enumeration

variable {L : Libraries} {request : CTAPGetAssertionRequest} {cid : UInt32} {user : UserContext}
  {store : CredentialStore} {found shown rest : List StoredCredential} {c : StoredCredential}
  {d d' : Daemon}

/-- The next credential can be counted. -/
theorem Enumerating.change (hValid : store.stored.Valid) (hLists : store.stored.Lists found)
    (hCountable : Countable L.toPlatform found store) (hFound : found = shown ++ c :: rest)
    (hOwned : c.ownerUid = user.uid) (h : Enumerating request cid user store shown (c :: rest) d) :
    (Operation.incrementSigCount c.id user.uid).change d.world.store =
      .ok (store.stored.counted (shown ++ [c])) := by
  rw [← hOwned]
  exact afterIncrement_counted hValid (hFound ▸ hLists) h.stored h.ready
    (hCountable.counts c (by simp [hFound]))

theorem Enumerating.room (hCountable : Countable L.toPlatform found store)
    (hFound : found = shown ++ c :: rest)
    (h : Enumerating request cid user store shown (c :: rest) d) :
    d.world.store.generation ≠ maxUInt64 := by
  intro hMax
  have hLength : found.length = shown.length + (rest.length + 1) := by
    rw [hFound, List.length_append, List.length_cons]
  have hGeneration := h.generation
  have hRoom := hCountable.generation
  have hLimit : maxUInt64.toNat = 2 ^ 64 - 1 := rfl
  rw [hMax] at hGeneration
  omega

theorem Enumerating.advance {P : Platform} {now : Int}
    (h : Enumerating request cid user store shown (c :: rest) d)
    (hChange : (Operation.incrementSigCount c.id user.uid).change d.world.store =
      .ok (store.stored.counted (shown ++ [c])))
    (hRoom : d.world.store.generation ≠ maxUInt64)
    (hCommitted : Committed P (store.stored.counted (shown ++ [c])) d.world d'.world)
    (hUsed : d'.ceremony.used = some now)
    (hAfter : d'.getAssertion = { d.getAssertion with sequence := if rest = [] then {}
      else { d.getAssertion.sequence with
        index := d.getAssertion.sequence.index + 1, lastUse := now } }) :
    Enumerating request cid user store (shown ++ [c]) rest d' := by
  have hSome : c :: rest ≠ [] := List.cons_ne_nil c rest
  have hSequence : d'.getAssertion.sequence = if rest = [] then {}
      else { d.getAssertion.sequence with
        index := d.getAssertion.sequence.index + 1, lastUse := now } :=
    congrArg CTAPGetAssertionRequest.sequence hAfter
  have hPending : d.getAssertion.sequence.credentials.drop (d.getAssertion.sequence.index + 1) =
      rest := by
    rw [← List.drop_drop, ← AssertionSequence.pending, h.pending, List.drop_one, List.tail_cons]
  have hMore (hRest : rest ≠ []) : d'.getAssertion.sequence = { d.getAssertion.sequence with
      index := d.getAssertion.sequence.index + 1, lastUse := now } := by
    rw [hSequence, if_neg hRest]
  exact {
    stored := by rw [hCommitted.store]
    generation := by
      rw [hCommitted.store, List.length_append, ← Nat.add_assoc, ← h.generation]
      exact toNat_succ hRoom
    valid := by
      rw [hCommitted.store]
      exact Operation.change_valid h.valid hChange
    ready := by
      rw [hCommitted.store]
      exact h.ready
    counter := by rw [hCommitted.counter, hCommitted.store]
    request := by
      rw [hAfter, h.request]
    ended := fun hRest => by rw [hSequence, if_pos hRest]
    pending := by
      by_cases hRest : rest = []
      · rw [hSequence, if_pos hRest, hRest]
        rfl
      · rw [hMore hRest]
        exact hPending
    origin := fun hRest => by
      rw [hMore hRest]
      exact h.origin hSome
    owner := fun hRest => by
      rw [hMore hRest]
      exact h.owner hSome
    used := fun hRest => by rw [hMore hRest, hUsed] }

/-- **One command of an enumeration** returns the next credential and counts it. -/
theorem Enumerating.next (hL : L.Lawful) (hValid : store.stored.Valid)
    (hLists : store.stored.Lists found) (hCountable : Countable L.toPlatform found store)
    (hFound : found = shown ++ c :: rest) (hOwned : c.ownerUid = user.uid) (hCid : cid ≠ 0)
    (h : Enumerating request cid user store shown (c :: rest) d) (stream : Nat → Input)
    (hStream : ∀ n, Untroubled L request user found (stream n))
    (hGap : ∀ t, d.ceremony.used = some t → ∀ n, (stream n).now - t ≤ AssertionSequence.timeout) :
    ∃ n packet d', Proc.run ((List.range n).map stream) (serve L (getNextAssertion cid)) d =
        (done packet, d') ∧ IsAssertion cid c none packet ∧
      Enumerating request cid user store (shown ++ [c]) rest d' ∧
      ∃ k, d'.ceremony.used = some (stream k).now := by
  have hChange := h.change hValid hLists hCountable hFound hOwned
  have hRoom := h.room hCountable hFound
  have hStore := wp_reliable_operation hL.platform (.incrementSigCount c.id user.uid) h.valid
    h.ready h.counter hRoom hChange (hCountable.encodes _ rest (by simp [hFound]))
  have hSome : c :: rest ≠ [] := List.cons_ne_nil c rest
  have hMem : c ∈ found := by simp [hFound]
  have hNext : wp (.alone (fun i => ∃ n, i = stream n) fun _ => True)
      (fun packet d' => IsAssertion cid c none packet ∧
        Enumerating request cid user store (shown ++ [c]) rest d' ∧
        ∃ k, d'.ceremony.used = some (stream k).now)
      (fun _ _ => False) (serve L (getNextAssertion cid)) d := by
    refine wp_untroubled_next (fun i hi => ?_) h.request (h.origin hSome) hCid (h.owner hSome)
      (fun i hi => ?_) h.pending hMem hStore ?_
    · obtain ⟨n, rfl⟩ := hi
      exact hStream n
    · obtain ⟨n, rfl⟩ := hi
      exact hGap _ (h.used hSome) n
    · rintro packet _ d' ⟨k, rfl⟩ hIs hCommitted hUsed hAfter
      exact ⟨hIs, h.advance hChange hRoom hCommitted hUsed hAfter, k, hUsed⟩
  obtain ⟨n, d', ⟨packet, hRun, hIs, hAfter, hUsed⟩ | ⟨_, -, hNever⟩⟩ :=
    wp_run_stream hNext stream fun n => ⟨n, rfl⟩
  · exact ⟨n, packet, d', hRun, hIs, hAfter, hUsed⟩
  · exact hNever.elim

/-- After the last credential there is no sequence. -/
theorem Enumerating.refused (h : Enumerating request cid user store shown [] d)
    (stream : Nat → Input) (hStream : ∀ n, Untroubled L request user found (stream n)) :
    ∃ n, Proc.run ((List.range n).map stream) (serve L (getNextAssertion cid)) d =
      (done (makeCborError cid CTAPError.notAllowed.code), d.newRecord) := by
  have hNone : d.newRecord.getAssertion.sequence.originCid = 0 ∨
      d.newRecord.getAssertion.sequence.originCid ≠ (getNextAssertion cid).cid :=
    .inl (congrArg AssertionSequence.originCid (h.ended rfl))
  have hRefused : wp (.alone (fun i => ∃ n, i = stream n) fun _ => True)
      (fun packet d' => packet = makeCborError cid CTAPError.notAllowed.code ∧ d' = d.newRecord)
      (fun _ _ => False) (serve L (getNextAssertion cid)) d := by
    refine wp_bind.mpr (wp_keeps_modify keeps_alone trivial (wp_tryCatch.mpr ?_))
    refine wp_bind.mpr (wp_alone_cancellationPoint
      (fun i hi => hi.elim fun n hn => hn ▸ (hStream n).stop) ?_)
    show wp _ _ _ (handleGetNextAssertion L (getNextAssertion cid)) d.newRecord
    refine wp_bind.mpr (wp_keeps_read keeps_alone trivial ?_)
    rw [if_pos hNone]
    exact ⟨rfl, rfl⟩
  obtain ⟨n, _, ⟨_, hRun, rfl, rfl⟩ | ⟨_, -, hNever⟩⟩ :=
    wp_run_stream hRefused stream fun n => ⟨n, rfl⟩
  · exact ⟨n, hRun⟩
  · exact hNever.elim

/-- A command again and again, each time on a stream of inputs of its own. -/
inductive Repeats (L : Libraries) (command : CborRequest) :
    (Nat → Nat → Input) → Daemon → List CTAPPacket → Daemon → Prop
  | nil {streams : Nat → Nat → Input} {d : Daemon} : Repeats L command streams d [] d
  | cons {streams : Nat → Nat → Input} {d d' d'' : Daemon} {packet : CTAPPacket}
      {packets : List CTAPPacket} {n : Nat}
      (hRun : Proc.run ((List.range n).map (streams 0)) (serve L command) d = (done packet, d'))
      (h : Repeats L command (fun k => streams (k + 1)) d' packets d'') :
      Repeats L command streams d (packet :: packets) d''

/-- **The rest of an enumeration**: one command for each credential, and one that is refused. -/
theorem Enumerating.repeats (hL : L.Lawful) (hValid : store.stored.Valid)
    (hLists : store.stored.Lists found) (hCountable : Countable L.toPlatform found store)
    (hOwned : ∀ c ∈ found, c.ownerUid = user.uid) (hCid : cid ≠ 0)
    (hFound : found = shown ++ rest) (h : Enumerating request cid user store shown rest d)
    (streams : Nat → Nat → Input)
    (hStreams : ∀ k n, Untroubled L request user found (streams k n))
    (hFirst : ∀ t, d.ceremony.used = some t →
      ∀ n, (streams 0 n).now - t ≤ AssertionSequence.timeout)
    (hLater : ∀ k n n', (streams (k + 1) n).now - (streams k n').now ≤ AssertionSequence.timeout) :
    ∃ packets d', Repeats L (getNextAssertion cid) streams d
        (packets ++ [makeCborError cid CTAPError.notAllowed.code]) d' ∧
      List.Forall₂ (fun c packet => IsAssertion cid c none packet) rest packets ∧
      d'.world.store.stored = store.stored.counted found := by
  induction rest generalizing shown d streams with
  | nil =>
    obtain ⟨n, hRun⟩ := h.refused (streams 0) (hStreams 0)
    refine ⟨[], _, .cons hRun .nil, .nil, ?_⟩
    rw [hFound, List.append_nil]
    exact h.stored
  | cons c rest ih =>
    obtain ⟨n, packet, d₁, hRun, hIs, hAfter, k, hUsed⟩ := h.next hL hValid hLists hCountable
      hFound (hOwned c (by simp [hFound])) hCid (streams 0) (hStreams 0) hFirst
    obtain ⟨packets, d', hRepeats, hEach, hStored⟩ := ih (by simp [hFound]) hAfter
      (fun k => streams (k + 1)) (fun k => hStreams (k + 1))
      (fun t ht n => by
        rw [hUsed] at ht
        cases ht
        exact hLater 0 n k)
      (fun k => hLater (k + 1))
    exact ⟨packet :: packets, d', .cons hRun hRepeats, .cons hIs hEach, hStored⟩

end Enumeration

/-! ## The first command -/

section First

variable {L : Libraries} {request : CborRequest} {parameters : AssertionParameters} {d : Daemon}

theorem shows_found : commandSetting.Shows (fun d => d.ceremony.found) fun _ => True :=
  (Service.keeps_nobody (I := fun _ => True)).shows

theorem still_cancellationPoint {τ : Type} {view : Daemon → τ} : Still view cancellationPoint :=
  still_atomically fun _ _ => rfl

theorem still_sign {id digest : Bytes} {key : CredentialKey} :
    Still (fun d : Daemon => d.ceremony.found) (sign id digest key) := by
  refine still_atomically fun i d => ?_
  cases i.signature <;> rfl

variable {cid : UInt32} {user : UserContext} {remaining found : List StoredCredential}

theorem still_beginSequence :
    Still (fun d : Daemon => d.ceremony.found) (beginSequence cid user remaining) := by
  refine still_atomically fun i d => ?_
  cases AssertionSequence.begin cid user remaining i.now <;> rfl

theorem still_assertionConsent : Still (fun d : Daemon => d.ceremony.found)
      (CTAPGetAssertionRequest.requestConsent parameters user) := by
  have hAsk (kind : InteractionKind) (request : UserInteractionRequest) :
      Still (fun d : Daemon => d.ceremony.found) (requestInteraction kind user request) :=
    still_atomically fun _ _ => rfl
  have hResult (present verified : Bool) : ∀ result : UserInteractionResult,
      Still (fun d : Daemon => d.ceremony.found) (do
        if result = .cancelled then return some .operationDenied
        if result ≠ .approved then return some .operationDenied
        CTAPGetAssertionRequest.setConsent present verified
        return none : HandlerProc (Option CTAPError))
    | .approved => still_bind (still_atomically fun _ _ => rfl) fun _ => trivial
    | .denied => trivial
    | .cancelled => trivial
  unfold CTAPGetAssertionRequest.requestConsent
  cases assertionInteraction parameters.up parameters.uv with
  | verification =>
    exact still_bind (hAsk _ _) fun result => still_bind still_cancellationPoint fun _ =>
      hResult _ _ result
  | presence =>
    exact still_bind still_cancellationPoint fun _ => still_bind (hAsk _ _) fun result =>
      still_bind still_cancellationPoint fun _ => hResult _ _ result
  | none => trivial

theorem wp_numbered_payload {c : StoredCredential} {ownerUid : UInt32} {number : Option UInt32} :
    wp commandSetting (fun payload d' => d'.ceremony.found = d.ceremony.found ∧
        (1 < payload.length ∧ payload.length ≤ ctaphidMaxPayloadSize) ∧
        ∀ cid, IsAssertion cid c (number.map UInt32.toUInt64) (successPacket cid payload))
      (fun _ _ => True)
      (CTAPGetAssertionRequest.generateSingleCredentialPayload L c ownerUid number) d := by
  unfold CTAPGetAssertionRequest.generateSingleCredentialPayload
  refine wp_still_bind shows_found trivial (still_atomically fun _ _ => rfl) rfl
    (fun _ _ _ => trivial) fun request d₁ h₁ => ?_
  refine wp_still_bind shows_found trivial still_sign h₁ (fun _ _ _ => trivial)
    fun signature d₂ h₂ => ?_
  refine wp_bind.mpr (wp_ofExcept.mpr ⟨fun payload hPayload => ?_, fun _ _ => trivial⟩)
  refine wp_still_bind shows_found trivial still_cancellationPoint h₂ (fun _ _ _ => trivial)
    fun _ d₃ h₃ => ?_
  have hTrivial : wp (.among Service.nobody (fun _ _ => True) fun _ _ => True)
      (fun _ _ => True) (fun _ _ => True) (incrementSigCount L.toPlatform c.id ownerUid)
      d₃.world := wp_trivial (fun _ _ => trivial) trivial
  refine wp_seq (wp_withStore_alone (fun _ _ => trivial) hTrivial) ?_ fun _ _ _ => trivial
  rintro _ _ ⟨w, -, rfl⟩
  exact ⟨h₃, encodeCbor_length hPayload, fun _ => isAssertion_of_build hPayload⟩

/-- The number of credentials in the response to a GetAssertion. -/
def announcedNumber (parameters : AssertionParameters) (found : List StoredCredential) :
    Option UInt64 :=
  if hasAssertionContinuations parameters.allowList.isEmpty found.length then
    some (UInt32.ofNat found.length).toUInt64
  else none

theorem announcedNumber_eq (parameters : AssertionParameters) (c : StoredCredential)
    (remaining : List StoredCredential) :
    announcedNumber parameters (c :: remaining) =
      (if hasAssertionContinuations parameters.allowList.isEmpty (remaining.length + 1) then
        some (UInt32.ofNat (remaining.length + 1)) else none).map UInt32.toUInt64 := by
  unfold announcedNumber
  rw [List.length_cons]
  split <;> rfl

theorem announcedNumber_of_lists {m : Storage} (hValid : m.Valid) (hLists : m.Lists found)
    (hAllow : parameters.allowList = []) :
    announcedNumber parameters found =
      if found.length > 1 then some found.length.toUInt64 else none := by
  have hSize : found.length ≤ 4096 := Nat.le_trans hLists.length_le hValid.size
  have hNumber : (UInt32.ofNat found.length).toUInt64 = found.length.toUInt64 := by
    apply UInt64.toNat_inj.mp
    simp [Nat.toUInt64]
    omega
  unfold announcedNumber hasAssertionContinuations
  rw [hAllow, hNumber]
  simp

/-- The packet is the assertion of the first match. -/
def Announces (parameters : AssertionParameters) (cid : UInt32) (packet : CTAPPacket) (d : Daemon) :
    Prop :=
  ∃ c remaining, d.ceremony.found = c :: remaining ∧
    IsAssertion cid c (announcedNumber parameters (c :: remaining)) packet

/-- What a ceremony has returned: an error, or an assertion that is not taken for one. -/
def Answers (parameters : AssertionParameters) (cid : UInt32) (payload : Bytes) (d : Daemon) :
    Prop :=
  (∃ e, payload = failure e) ∨ (1 < payload.length ∧ payload.length ≤ ctaphidMaxPayloadSize) ∧
    Announces parameters cid (successPacket cid payload) d

theorem wp_numbered_assertFirst (hFound : d.ceremony.found = found) :
    wp commandSetting (Answers parameters cid)
      (fun _ _ => True) (CTAPGetAssertionRequest.assertFirst L parameters cid user found) d := by
  cases found with
  | nil => exact .inl ⟨_, rfl⟩
  | cons c remaining =>
    unfold CTAPGetAssertionRequest.assertFirst
    refine wp_still_bind shows_found trivial still_cancellationPoint hFound
      (fun _ _ _ => trivial) fun _ d₁ h₁ => ?_
    refine wp_seq wp_numbered_payload ?_ fun _ _ _ => trivial
    rintro payload d₂ ⟨h₂, hLength, hIs⟩
    have hAnswers (d' : Daemon) (h' : d'.ceremony.found = c :: remaining) :
        Answers parameters cid payload d' :=
      .inr ⟨hLength, c, remaining, h', announcedNumber_eq parameters c remaining ▸ hIs cid⟩
    split
    · exact wp_still_bind shows_found trivial still_beginSequence (h₂.trans h₁)
        (fun _ _ _ => trivial) fun _ d₃ h₃ => hAnswers d₃ h₃
    · exact hAnswers d₂ (h₂.trans h₁)

theorem wp_numbered_buildResponse
    (hParameters : d.getAssertion.toAssertionParameters = parameters) :
    wp commandSetting (Answers parameters cid)
      (fun _ _ => True) (CTAPGetAssertionRequest.buildResponse L cid) d := by
  have hC : commandSetting.Keeps (Quiet d) :=
    (Service.keeps_nobody (I := fun _ => True)).mono fun _ _ => trivial
  have hSame (ceremony) : Quiet d { d with ceremony } := (Quiet.refl d).of_eq rfl rfl
  unfold CTAPGetAssertionRequest.buildResponse
  refine wp_bind.mpr (wp_cancellationPoint hC (.refl d) trivial ?_)
  refine wp_bind.mpr (wp_currentContext hC (.refl d) (fun _ => trivial) fun user => ?_)
  refine wp_bind.mpr (wp_keeps_read hC (hSame _) ?_)
  refine wp_bind.mpr (wp_findForAssertion hC (hSame _) (fun _ => trivial) fun found _ => ?_)
  dsimp only
  rw [hParameters]
  cases CTAPGetAssertionRequest.validationError parameters with
  | some error => exact .inl ⟨error, rfl⟩
  | none =>
    refine wp_still_bind shows_found trivial (still_atomically fun _ _ => rfl) rfl
      (fun _ _ _ => trivial) fun _ d₁ h₁ => ?_
    refine wp_still_bind shows_found trivial still_assertionConsent h₁ (fun _ _ _ => trivial)
      fun error d₂ h₂ => ?_
    cases error with
    | some error => exact .inl ⟨error, rfl⟩
    | none => exact wp_numbered_assertFirst h₂

/-- The packet is an error, or the assertion of the first match. -/
def RepliesTo (parameters : AssertionParameters) (cid : UInt32) (packet : CTAPPacket) (d : Daemon) :
    Prop :=
  (∃ error : CTAPError, packet = makeCborError cid error.code) ∨ Announces parameters cid packet d

theorem wp_numbered_serve (hCommand : request.command = 0x02)
    (hParsed : CTAPGetAssertionRequest.parseRequest L.walk request.parameters =
      some { parameters with }) :
    wp commandSetting (RepliesTo parameters request.cid) (fun _ _ => True) (serve L request) d := by
  have hC : commandSetting.Keeps fun _ => True := Service.keeps_nobody
  have hHandle : handle L request = handleGetAssertion L request := by
    simp [handle, hCommand]
  refine wp_bind.mpr (wp_keeps_modify hC trivial (wp_tryCatch.mpr ?_))
  refine wp_mono (Q := RepliesTo parameters request.cid) (E := fun _ _ => True) ?_
    (fun _ _ h => h) fun _ _ _ => wp_bind.mpr (wp_keeps_modify hC trivial trivial)
  refine wp_bind.mpr (wp_cancellationPoint (hC.mono fun _ _ => trivial) (.refl _) trivial ?_)
  rw [hHandle]
  unfold handleGetAssertion
  refine wp_bind.mpr (wp_keeps_modify hC trivial ?_)
  rw [hParsed]
  refine wp_bind.mpr (wp_keeps_modify hC trivial ?_)
  refine wp_bind.mpr (wp_tryCatch.mpr (wp_mono (wp_numbered_buildResponse rfl) ?_ ?_))
  · rintro payload d' (⟨e, rfl⟩ | ⟨hLength, hAnnounces⟩)
    · exact wp_bind.mpr (wp_keeps_modify hC trivial (.inl ⟨_, rfl⟩))
    · rw [replyWith_eq hLength]
      exact .inr hAnnounces
  · intro e d' _
    refine wp_bind.mpr (wp_keeps_modify hC trivial ?_)
    cases errorReply e with
    | some error => exact wp_bind.mpr (wp_keeps_modify hC trivial (.inl ⟨_, rfl⟩))
    | none => trivial

theorem not_error_of_status {error : CTAPError} {packet : CTAPPacket}
    (hSuccess : packet.payload.head? = some 0x00) : packet ≠ makeCborError cid error.code := by
  rintro rfl
  cases error <;> cases hSuccess

theorem asserted_of_success (hCommand : request.command = 0x02)
    (hParsed : CTAPGetAssertionRequest.parseRequest L.walk request.parameters =
      some { parameters with }) {inputs : List Input} {packet : CTAPPacket} {d' : Daemon}
    (hRun : Proc.run inputs (serve L request) d = (done packet, d'))
    (hSuccess : packet.payload.head? = some 0x00) :
    ∃ user c remaining payload, Asserted L (fun op => op.Returns L.toPlatform) parameters
        request.cid user c remaining d.newRecord d' payload ∧
      IsAssertion request.cid c (announcedNumber parameters (c :: remaining)) packet := by
  have hHandled : Performed L request d.newRecord packet d' :=
    (Service.wp_run_nobody (wp_serve (Service.keeps_nobody.mono fun _ _ => trivial)
      (storeRuns_returns L d.newRecord)) inputs).1 packet d' hRun
  rcases (Service.wp_run_nobody (wp_numbered_serve hCommand hParsed) inputs).1 packet d' hRun with
    ⟨error, hError⟩ | ⟨c', remaining', hFound, hIs⟩
  · exact absurd hError (not_error_of_status hSuccess)
  · cases hHandled with
    | refused _ => exact absurd rfl (not_error_of_status hSuccess)
    | foreign hOther _ => cases hCommand.symm.trans hOther
    | info hOther _ => cases hCommand.symm.trans hOther
    | registered hOther _ _ => cases hCommand.symm.trans hOther
    | continued hOther _ _ => cases hCommand.symm.trans hOther
    | asserted _ hSame h =>
      obtain rfl := congrArg CTAPGetAssertionRequest.toAssertionParameters
        (Option.some.inj (hParsed.symm.trans hSame))
      obtain ⟨rfl, rfl⟩ := List.cons.inj (h.recorded.symm.trans hFound)
      exact ⟨_, _, _, _, h, hIs⟩

/-- Without an allow list, a sequence begins if there is more than one match. -/
theorem hasAssertionContinuations_iff (hAllow : parameters.allowList = [])
    (remaining : List StoredCredential) :
    hasAssertionContinuations parameters.allowList.isEmpty (remaining.length + 1) = true ↔
      remaining ≠ [] := by
  rw [hAllow, ← List.length_pos_iff]
  simp [hasAssertionContinuations]

theorem Begins.more (hAllow : parameters.allowList = []) (hCid : cid ≠ 0)
    (hRemaining : remaining ≠ []) (h : Begins parameters cid user remaining d) :
    ∃ now, d.ceremony.used = some now ∧ d.getAssertion.sequence = {
        credentials := remaining
        originCid := cid
        ownerContext := some user.binding
        lastUse := now } := by
  unfold Begins at h
  rw [if_pos ((hasAssertionContinuations_iff hAllow remaining).mpr hRemaining)] at h
  obtain ⟨now, hUsed, hSequence⟩ := h
  refine ⟨now, hUsed, ?_⟩
  rw [hSequence, AssertionSequence.begun, if_neg (not_or.mpr ⟨hCid, hRemaining⟩)]

theorem Begins.ended (hAllow : parameters.allowList = []) (hRemaining : remaining = [])
    (h : Begins parameters cid user remaining d) : d.getAssertion.sequence = {} := by
  have hNone : ¬ hasAssertionContinuations parameters.allowList.isEmpty (remaining.length + 1) =
      true := fun hMore => (hasAssertionContinuations_iff hAllow remaining).mp hMore hRemaining
  unfold Begins at h
  rwa [if_neg hNone] at h

/-- What a GetAssertion leaves for the commands after it. -/
theorem Asserted.enumerating (hL : L.Lawful) {c : StoredCredential} {d' : Daemon} {payload : Bytes}
    (hValid : d.world.store.stored.Valid) (hLists : d.world.store.stored.Lists (c :: remaining))
    (hOwned : c.ownerUid = user.uid)
    (hCountable : Countable L.toPlatform (c :: remaining) d.world.store)
    (hAllow : parameters.allowList = []) (hCid : cid ≠ 0)
    (h : Asserted L (fun op => op.Returns L.toPlatform) parameters cid user c remaining
      d.newRecord d' payload) :
    Enumerating d'.getAssertion cid user d.world.store [c] remaining d' := by
  obtain ⟨m, hChange, hCommitted⟩ := Operation.Returns.committed hL.platform hValid h.ran
  obtain ⟨_, hReady, -⟩ := afterIncrement_ok hChange
  have hFirst : d.world.store.stored.Lists ([] ++ c :: remaining) := hLists
  have hExpected : d.world.store.afterIncrement c.id c.ownerUid =
      .ok (d.world.store.stored.counted [c]) :=
    afterIncrement_counted hValid hFirst rfl hReady (hCountable.counts c List.mem_cons_self)
  rw [hOwned] at hExpected
  obtain rfl := Except.ok.inj (hExpected.symm.trans hChange)
  have hRoom : d.world.store.generation ≠ maxUInt64 := by
    intro hMax
    have hBound := hCountable.generation
    rw [hMax, List.length_cons] at hBound
    have hLimit : maxUInt64.toNat = 2 ^ 64 - 1 := rfl
    omega
  have hEnded (hRemaining : remaining = []) := h.begins.ended hAllow hRemaining
  have hMore (hRemaining : remaining ≠ []) := h.begins.more hAllow hCid hRemaining
  exact {
    stored := by rw [hCommitted.store]
    generation := by
      rw [hCommitted.store]
      exact toNat_succ hRoom
    valid := by
      rw [hCommitted.store]
      exact Operation.change_valid hValid hChange
    ready := by
      rw [hCommitted.store]
      exact hReady
    counter := by
      rw [hCommitted.counter, hCommitted.store]
    request := rfl
    ended := hEnded
    pending := by
      by_cases hRemaining : remaining = []
      · rw [hEnded hRemaining, hRemaining]
        rfl
      · obtain ⟨_, -, hSequence⟩ := hMore hRemaining
        rw [hSequence]
        rfl
    origin := fun hRemaining => by
      obtain ⟨_, -, hSequence⟩ := hMore hRemaining
      rw [hSequence]
    owner := fun hRemaining => by
      obtain ⟨_, -, hSequence⟩ := hMore hRemaining
      rw [hSequence]
    used := fun hRemaining => by
      obtain ⟨_, hUsed, hSequence⟩ := hMore hRemaining
      rw [hSequence, hUsed] }

end First

/-- **Discovery enumerates every account exactly once.** The store is reachable and `found` lists
the discoverable credentials of the user and the relying party, the newest first. After a
GetAssertion that succeeded, the GetNextAssertion commands return the others one by one, the next
one is refused, and each of the credentials was counted once. -/
theorem discovery_enumerates {L : Libraries} (hL : L.Lawful) {d d' : Daemon}
    (hReachable : Reachable L.toPlatform d.world) {request : CborRequest}
    {parameters : AssertionParameters} {user : UserContext} {found : List StoredCredential}
    (hCommand : request.command = 0x02)
    (hParsed : CTAPGetAssertionRequest.parseRequest L.walk request.parameters =
      some { parameters with })
    (hAllow : parameters.allowList = []) (hCid : request.cid ≠ 0)
    (hDiscovered : Discovered d.world.store parameters.rpId user.uid found)
    (hCountable : Countable L.toPlatform found d.world.store)
    {inputs : List Input} {packet : CTAPPacket}
    (hRun : Proc.run inputs (serve L request) d = (done packet, d'))
    (hSuccess : packet.payload.head? = some 0x00) (hUser : d'.ceremony.user = some user)
    (streams : Nat → Nat → Input)
    (hStreams : ∀ k n, Untroubled L d'.getAssertion user found (streams k n))
    (hFirst : ∀ t, d'.ceremony.used = some t →
      ∀ n, (streams 0 n).now - t ≤ AssertionSequence.timeout)
    (hLater : ∀ k n n', (streams (k + 1) n).now - (streams k n').now ≤ AssertionSequence.timeout) :
    ∃ c remaining packets d'', found = c :: remaining ∧ IsAssertion request.cid c
        (if found.length > 1 then some found.length.toUInt64 else none) packet ∧
      Repeats L (getNextAssertion request.cid) streams d'
        (packets ++ [makeCborError request.cid CTAPError.notAllowed.code]) d'' ∧
      List.Forall₂ (fun c packet => IsAssertion request.cid c none packet) remaining packets ∧
      (∀ c ∈ found, c.counted.signCount.toNat = c.signCount.toNat + 1) ∧
      ∀ k : Bytes, d''.world.store.stored[k]? =
        (d.world.store.stored[k]?).map fun c => if c ∈ found then c.counted else c := by
  obtain ⟨user', c, remaining, payload, hAsserted, hIs⟩ :=
    asserted_of_success hCommand hParsed hRun hSuccess
  obtain rfl : user = user' := Option.some.inj (hUser.symm.trans hAsserted.context)
  have hValid := hReachable.valid hL.platform
  have hFound := hAsserted.found
  rw [hAllow] at hFound
  obtain rfl := hDiscovered.unique (discovered_of_found hL.platform hReachable hFound)
  have hLists := hDiscovered.lists hValid
  have hOwned : ∀ c' ∈ c :: remaining, c'.ownerUid = user.uid :=
    fun c' hc' => ((hDiscovered.exact c').mp hc').2.1
  have hEnumerating := hAsserted.enumerating hL hValid hLists (hOwned c List.mem_cons_self)
    hCountable hAllow hCid
  obtain ⟨packets, d'', hRepeats, hEach, hStored⟩ := hEnumerating.repeats hL hValid hLists
    hCountable hOwned hCid rfl streams hStreams hFirst hLater
  refine ⟨c, remaining, packets, d'', rfl, ?_, hRepeats, hEach, fun c' hc' => ?_, fun k => ?_⟩
  · rw [← announcedNumber_of_lists hValid hLists hAllow]
    exact hIs
  · exact StoredCredential.counted_signCount (hCountable.counts c' hc')
  · rw [hStored]
    exact Storage.getElem?_counted hValid _ hLists k

/-- The store after one more registration. -/
def withAccount (n : UInt8) (w : World) : World :=
  (Proc.run (List.replicate 30 .success) (put sampleLibraries.toPlatform (sampleEntry n 0).2 1000)
    w).2

theorem reachable_withAccount {n : UInt8} {w : World} (h : Reachable sampleLibraries.toPlatform w)
    (hDone : (Proc.run (List.replicate 30 .success) (put sampleLibraries.toPlatform
      (sampleEntry n 0).2 1000) w).1.outcome?.any (fun r => r.toOption.any fun _ => true) = true) :
    Reachable sampleLibraries.toPlatform (withAccount n w) := by
  obtain ⟨_, hSteps⟩ := h
  obtain ⟨_, hRun, -⟩ := run_done_of_any hDone
  exact ⟨_, hSteps.trans (Service.steps_call (k := .update (.put (sampleEntry n 0).2 1000)) rfl
    (fun _ _ => trivial) hRun _)⟩

/-- The daemon after two registrations. -/
def twoAccounts : Daemon where
  world := withAccount 2 (withAccount 1 {})

theorem twoAccounts_reachable : Reachable sampleLibraries.toPlatform twoAccounts.world := by
  have hOne : Reachable sampleLibraries.toPlatform (withAccount 1 {}) :=
    reachable_withAccount (holding_fresh _).reachable (by decide +kernel)
  have hTwo : Reachable sampleLibraries.toPlatform (withAccount 2 (withAccount 1 {})) :=
    reachable_withAccount hOne (by decide +kernel)
  simp only [twoAccounts]
  exact hTwo

theorem discovery_enumerates_two : ∃ packet next d' d'',
    Proc.run (List.replicate 40 approving) (serve sampleLibraries sampleGetAssertion)
      twoAccounts = (done packet, d') ∧
    IsAssertion 1 (sampleEntry 2 0).2 (some 2) packet ∧
    Repeats sampleLibraries (getNextAssertion 1) (fun _ _ => approving) d'
      [next, makeCborError 1 CTAPError.notAllowed.code] d'' ∧
    IsAssertion 1 (sampleEntry 1 0).2 none next := by
  have hParses : (CTAPGetAssertionRequest.parseRequest sampleLibraries.walk
      sampleGetAssertion.parameters).any (fun request => request.allowList.isEmpty &&
        request.rpId == text "example.org") = true := by decide +kernel
  obtain ⟨request, hParsed, hRequest⟩ := (Option.any_eq_true _ _).mp hParses
  obtain ⟨parameters, rfl⟩ := parseRequest_some hParsed
  rw [Bool.and_eq_true, List.isEmpty_iff, beq_iff_eq] at hRequest
  have hStore : twoAccounts.world.store.discoverableMatches sampleLibraries.toPlatform
        (text "example.org") 1000 = [(sampleEntry 2 0).2, (sampleEntry 1 0).2] ∧
      twoAccounts.world.store.generation = 2 ∧
      ∀ shown ∈ [[], [(sampleEntry 2 0).2], [(sampleEntry 2 0).2, (sampleEntry 1 0).2]],
        (sampleLibraries.dump (storageDocument (sampleLibraries.iterate
          (twoAccounts.world.store.stored.counted shown)))).any (·.length ≤ 2147483647) = true := by
    decide +kernel
  obtain ⟨hFound, hGeneration, hDumps⟩ := hStore
  have hDiscovered : Discovered twoAccounts.world.store (text "example.org") sampleUser.uid
      [(sampleEntry 2 0).2, (sampleEntry 1 0).2] :=
    hFound ▸ discoverableMatches_exact sampleLibraries_lawful.platform
      (twoAccounts_reachable.kept sampleLibraries_lawful.platform)
  have hCountable : Countable sampleLibraries.toPlatform
      [(sampleEntry 2 0).2, (sampleEntry 1 0).2] twoAccounts.world.store := by
    refine ⟨by decide, by rw [hGeneration]; decide, fun shown rest hSplit => ?_⟩
    have hShown : shown ∈ [[], [(sampleEntry 2 0).2],
        [(sampleEntry 2 0).2, (sampleEntry 1 0).2]] := by
      match shown, hSplit with
      | [], _ => simp
      | [_], hSplit => simp [(List.cons.inj hSplit).1]
      | [_, _], hSplit =>
        obtain ⟨rfl, hTail⟩ := List.cons.inj hSplit
        simp [(List.cons.inj hTail).1]
      | _ :: _ :: _ :: _, hSplit => simp at hSplit
    obtain ⟨document, hDump, hSize⟩ := (Option.any_eq_true _ _).mp (hDumps shown hShown)
    exact ⟨document, hDump, by simpa using hSize⟩
  have hEnds : (fun r : HandlerProc CTAPPacket × Daemon =>
      r.1.outcome?.any (fun r => r.toOption.any fun packet =>
        packet.payload.head? == some 0x00) = true ∧
      r.2.ceremony.user = some sampleUser ∧ r.2.ceremony.used = some 0 ∧
      ∀ c ∈ [(sampleEntry 2 0).2, (sampleEntry 1 0).2], (buildAuthenticatorGetAssertionResponse
        (r.2.getAssertion.authData sampleLibraries (c.signCount + 1)) [3]
        r.2.getAssertion.userVerified c (r.2.getAssertion.allowList.length ≠ 1)
        none).toOption.isSome = true) (Proc.run (List.replicate 40 approving)
          (serve sampleLibraries sampleGetAssertion) twoAccounts) := by decide +kernel
  obtain ⟨hDone, hUser, hUsed, hAll⟩ := hEnds
  obtain ⟨packet, hRun, hSuccess⟩ := run_done_of_any hDone
  generalize (Proc.run (List.replicate 40 approving) (serve sampleLibraries sampleGetAssertion)
    twoAccounts).2 = d' at hRun hUser hUsed hAll
  have hUntroubled : Untroubled sampleLibraries d'.getAssertion sampleUser
      [(sampleEntry 2 0).2, (sampleEntry 1 0).2] approving := by
    refine ⟨rfl, Answer.success_succeeds, ⟨_, rfl, rfl⟩, [3], rfl, fun c hc => ?_⟩
    obtain ⟨payload, hPayload⟩ := Option.isSome_iff_exists.mp (hAll c hc)
    refine ⟨payload, ?_⟩
    cases hBuild : buildAuthenticatorGetAssertionResponse
        (d'.getAssertion.authData sampleLibraries (c.signCount + 1)) [3]
        d'.getAssertion.userVerified c (d'.getAssertion.allowList.length ≠ 1) none with
    | error e =>
      rw [hBuild] at hPayload
      cases hPayload
    | ok bytes =>
      rw [hBuild] at hPayload
      cases hPayload
      rfl
  have hGap (t : Int) (ht : d'.ceremony.used = some t) (_ : Nat) :
      approving.now - t ≤ AssertionSequence.timeout := by
    obtain rfl : 0 = t := Option.some.inj (hUsed.symm.trans ht)
    decide
  obtain ⟨c, remaining, packets, d'', hList, hIs, hRepeats, hEach, -⟩ :=
    discovery_enumerates sampleLibraries_lawful twoAccounts_reachable rfl hParsed hRequest.1
      (by decide) (hRequest.2 ▸ hDiscovered) hCountable hRun (beq_iff_eq.mp hSuccess) hUser
      (fun _ _ => approving) (fun _ _ => hUntroubled) hGap (fun _ _ _ => by decide)
  obtain ⟨rfl, rfl⟩ := List.cons.inj hList
  cases hEach with
  | cons hNext hNone =>
    cases hNone
    exact ⟨packet, _, d', d'', hRun, hIs, hRepeats, hNext⟩

end Ctap

end VAuth
