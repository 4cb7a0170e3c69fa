import Mathlib.Data.List.Lex
import Mathlib.Data.Prod.Lex
import VAuth.Store.Isolation

/-!
# Selection and listing

What `find_for_assertion` and `list_credentials` return, for every reachable store and every
order of the hash table. The ids and the creation orders of a reachable store are distinct, so
both sorts have one result.

The comparison of `list_credentials` is the order of the key (`CredentialSummary.key`), a linear
order on tuples.
-/

namespace VAuth.Store

open Proc

/-- The credential is one of the entries. -/
def Storage.Holds (m : Storage) (c : StoredCredential) : Prop := ∃ k : Bytes, m[k]? = some c

/-! ## The allow list -/

/-- The ids of the allow list that are considered. -/
def publicKeyIds (allowList : List PublicKeyCredentialDescriptor) : List Bytes :=
  (allowList.filter fun descriptor => descriptor.type = text "public-key").map
    PublicKeyCredentialDescriptor.id

section Allowed

variable {store : CredentialStore} {rpId : Bytes} {ownerUid : UInt32}

theorem allowedMatches_eq (seen : List Bytes) (allowList : List PublicKeyCredentialDescriptor) :
    store.allowedMatches rpId ownerUid seen allowList =
      ((publicKeyIds allowList).filter fun id => hexEncode id ∉ seen).eraseDups.filterMap
        fun id => store.entryFor id rpId ownerUid := by
  induction allowList generalizing seen with
  | nil => rfl
  | cons descriptor rest ih =>
    unfold CredentialStore.allowedMatches
    by_cases hType : descriptor.type = text "public-key"
    · have hIds : publicKeyIds (descriptor :: rest) = descriptor.id :: publicKeyIds rest := by
        simp [publicKeyIds, hType]
      rw [hIds]
      by_cases hSeen : hexEncode descriptor.id ∈ seen
      · rw [if_pos (.inr hSeen), ih, List.filter_cons_of_neg (by simpa using hSeen)]
      · have hFilter : (publicKeyIds rest).filter (fun id =>
              hexEncode id ∉ hexEncode descriptor.id :: seen) =
            ((publicKeyIds rest).filter fun id => hexEncode id ∉ seen).filter
              fun id => !id == descriptor.id := by
          rw [List.filter_filter]
          refine List.filter_congr fun id _ => ?_
          rw [Bool.eq_iff_iff]
          simp [hexEncode_injective.eq_iff]
        rw [if_neg (by simp [hType, hSeen]), ih, hFilter,
          List.filter_cons_of_pos (by simpa using hSeen), List.eraseDups_cons,
          List.filterMap_cons]
        cases store.entryFor descriptor.id rpId ownerUid with
        | none => rfl
        | some c => rfl
    · have hIds : publicKeyIds (descriptor :: rest) = publicKeyIds rest := by
        simp [publicKeyIds, hType]
      rw [if_pos (.inl hType), ih, hIds]

theorem entryFor_eq_some (hValid : store.stored.Valid) {credId : Bytes} {c : StoredCredential} :
    store.entryFor credId rpId ownerUid = some c ↔
      store.stored.Holds c ∧ c.id = credId ∧ c.ownerUid = ownerUid ∧ c.rpId = rpId := by
  constructor
  · intro h
    obtain ⟨hId, hStored, hOwner, hRp⟩ := entryFor_some hValid h
    exact ⟨⟨_, hStored⟩, hId, hOwner, hRp⟩
  · rintro ⟨⟨k, hStored⟩, rfl, hOwner, hRp⟩
    rw [hValid.key k c hStored] at hStored
    refine Option.filter_eq_some_iff.mpr ⟨hStored, ?_⟩
    simp [hOwner, hRp]

/-- Exactly the stored credentials of the owner and the relying party with an id of the list, in
the order in which the ids first occur. -/
structure AllowedMatches (store : CredentialStore) (rpId : Bytes) (ownerUid : UInt32)
    (ids : List Bytes) (found : List StoredCredential) : Prop where
  exact : ∀ c, c ∈ found ↔ store.stored.Holds c ∧ c.ownerUid = ownerUid ∧
    c.rpId = rpId ∧ c.id ∈ ids
  order : (found.map StoredCredential.id).Sublist ids.eraseDups
  distinct : (found.map StoredCredential.id).Nodup

theorem sublist_filterMap_entryFor (hValid : store.stored.Valid) (ids : List Bytes) :
    ((ids.filterMap fun id => store.entryFor id rpId ownerUid).map
      StoredCredential.id).Sublist ids := by
  induction ids with
  | nil => exact .slnil
  | cons id ids ih =>
    rw [List.filterMap_cons]
    cases hEntry : store.entryFor id rpId ownerUid with
    | none => exact ih.cons id
    | some c =>
      rw [List.map_cons, (entryFor_some hValid hEntry).1]
      exact ih.cons_cons id

theorem allowedMatches_exact (hValid : store.stored.Valid)
    (allowList : List PublicKeyCredentialDescriptor) :
    AllowedMatches store rpId ownerUid (publicKeyIds allowList)
      (store.allowedMatches rpId ownerUid [] allowList) := by
  have hAll : (publicKeyIds allowList).filter (fun id => hexEncode id ∉ ([] : List Bytes)) =
      publicKeyIds allowList := List.filter_eq_self.mpr fun _ _ => by simp
  refine ⟨fun c => ?_, ?_, (allowedMatches_spec hValid [] allowList).1.distinct⟩
  · rw [allowedMatches_eq, hAll, List.mem_filterMap]
    constructor
    · rintro ⟨id, hId, hEntry⟩
      obtain ⟨hStored, rfl, hOwner, hRp⟩ := (entryFor_eq_some hValid).mp hEntry
      exact ⟨hStored, hOwner, hRp, List.mem_eraseDups.mp hId⟩
    · rintro ⟨hStored, hOwner, hRp, hId⟩
      exact ⟨c.id, List.mem_eraseDups.mpr hId,
        (entryFor_eq_some hValid).mpr ⟨hStored, rfl, hOwner, hRp⟩⟩
  · rw [allowedMatches_eq, hAll]
    exact sublist_filterMap_entryFor hValid _

end Allowed

/-! ## Discovery -/

section Discovery

variable {P : Platform} {store : CredentialStore} {rpId : Bytes} {ownerUid : UInt32}

/-- Exactly the discoverable credentials of the owner and the relying party, the newest first. -/
structure Discovered (store : CredentialStore) (rpId : Bytes) (ownerUid : UInt32)
    (found : List StoredCredential) : Prop where
  exact : ∀ c, c ∈ found ↔ store.stored.Holds c ∧ c.ownerUid = ownerUid ∧ c.rpId = rpId ∧
    c.discoverable = true
  order : found.Pairwise fun c c' => c'.creationOrder < c.creationOrder

theorem Storage.Kept.eq_of_order {m : Storage} {generation : UInt64} (h : m.Kept generation)
    {c c' : StoredCredential} (hc : m.Holds c) (hc' : m.Holds c')
    (hOrder : c.creationOrder = c'.creationOrder) : c = c' := by
  obtain ⟨k, hc⟩ := hc
  obtain ⟨k', hc'⟩ := hc'
  rw [h.distinct k k' c c' hc hc' hOrder] at hc
  exact Option.some.inj (hc.symm.trans hc')

theorem discoverableMatches_exact (hP : P.Lawful) {generation : UInt64}
    (hKept : store.stored.Kept generation) :
    Discovered store rpId ownerUid (store.discoverableMatches P rpId ownerUid) := by
  have hMem : ∀ c, c ∈ store.discoverableMatches P rpId ownerUid ↔ store.stored.Holds c ∧
      c.ownerUid = ownerUid ∧ c.rpId = rpId ∧ c.discoverable = true := by
    intro c
    rw [CredentialStore.discoverableMatches, List.mem_insertionSort, mem_discoverable hP rpId]
    simp only [Storage.ownedBy_eq_some]
    constructor
    · rintro ⟨⟨k, hStored, hOwner⟩, hDiscoverable, hRp⟩
      exact ⟨⟨k, hStored⟩, hOwner, hRp, hDiscoverable⟩
    · rintro ⟨⟨k, hStored⟩, hOwner, hRp, hDiscoverable⟩
      exact ⟨⟨k, hStored, hOwner⟩, hDiscoverable, hRp⟩
  have hNodup : (store.discoverableMatches P rpId ownerUid).Nodup :=
    List.Nodup.of_map _ (discoverableMatches_spec hP hKept.valid).distinct
  have hSorted : (store.discoverableMatches P rpId ownerUid).Pairwise CredentialStore.newerFirst :=
    List.pairwise_insertionSort _ _
  refine ⟨hMem, (hSorted.and hNodup).imp_of_mem ?_⟩
  rintro c c' hc hc' ⟨hBefore, hNe⟩
  rcases newerFirst_iff.mp hBefore with hNewer | ⟨hOrder, -⟩
  · exact hNewer
  · exact absurd (hKept.eq_of_order ((hMem c).mp hc).1 ((hMem c').mp hc').1 hOrder) hNe

/-- A list is determined by its elements and the order of their creation. -/
theorem Discovered.unique {found found' : List StoredCredential}
    (h : Discovered store rpId ownerUid found) (h' : Discovered store rpId ownerUid found') :
    found = found' := by
  have hNodup : ∀ {l : List StoredCredential}, Discovered store rpId ownerUid l → l.Nodup := by
    intro l hl
    refine hl.order.imp fun {c c'} hLt => ?_
    rintro rfl
    exact UInt64.lt_irrefl _ hLt
  refine List.Perm.eq_of_pairwise ?_ h.order h'.order ?_
  · intro c c' _ _ hLt hLt'
    exact absurd hLt' (UInt64.lt_asymm hLt)
  · refine (List.perm_ext_iff_of_nodup (hNodup h) (hNodup h')).mpr fun c => ?_
    rw [h.exact, h'.exact]

end Discovery

/-! ## Listing -/

section Listing

/-- The key by which credentials are listed. -/
def CredentialSummary.key (s : CredentialSummary) : Nat ×ₗ List Nat ×ₗ Nat ×ₗ List Nat :=
  toLex (s.ownerUid.toNat, toLex (s.rpId.map UInt8.toNat,
    toLex (s.creationOrder.toNat, s.id.map UInt8.toNat)))

theorem map_toNat_lt {l r : Bytes} : l.map UInt8.toNat < r.map UInt8.toNat ↔ l < r := by
  induction l generalizing r with
  | nil =>
    cases r with
    | nil => simp
    | cons b r => simp
  | cons a l ih =>
    cases r with
    | nil => simp
    | cons b r =>
      rw [List.map_cons, List.map_cons, List.cons_lt_cons_iff, List.cons_lt_cons_iff, ih,
        UInt8.toNat_inj, UInt8.lt_iff_toNat_lt]

theorem map_toNat_inj {l r : Bytes} : l.map UInt8.toNat = r.map UInt8.toNat ↔ l = r :=
  (List.map_injective_iff.mpr fun _ _ h => UInt8.toNat_inj.mp h).eq_iff

theorem before_iff {left right : CredentialSummary} : left.before right ↔ left.key < right.key := by
  unfold CredentialSummary.before CredentialSummary.key
  rw [Prod.Lex.toLex_lt_toLex, Prod.Lex.toLex_lt_toLex, Prod.Lex.toLex_lt_toLex]
  simp only [UInt32.toNat_inj, UInt64.toNat_inj, map_toNat_inj, map_toNat_lt,
    ← UInt32.lt_iff_toNat_lt, ← UInt64.lt_iff_toNat_lt]
  by_cases hOwner : left.ownerUid = right.ownerUid
  · by_cases hRp : left.rpId = right.rpId
    · by_cases hOrder : left.creationOrder = right.creationOrder
      · simp [hOwner, hRp, hOrder, UInt32.lt_irrefl, UInt64.lt_irrefl, List.lt_irrefl]
      · simp [hOwner, hRp, hOrder, UInt32.lt_irrefl, List.lt_irrefl]
    · simp [hOwner, hRp, UInt32.lt_irrefl]
  · simp [hOwner]

instance : Std.Total fun left right : CredentialSummary => ¬ right.before left where
  total := by
    intro left right
    rw [before_iff, before_iff, not_lt, not_lt]
    exact le_total _ _

instance : IsTrans CredentialSummary fun left right => ¬ right.before left where
  trans := by
    intro a b c hab hbc
    rw [before_iff, not_lt] at hab hbc ⊢
    exact hab.trans hbc

variable {P : Platform} {store : CredentialStore}

/-- One summary for each stored credential, in the order of owner, relying party, creation and
id. -/
structure Listed (store : CredentialStore) (listed : List CredentialSummary) : Prop where
  exact : listed.Perm (store.stored.toList.map fun item => item.2.summary)
  order : listed.Pairwise CredentialSummary.before

theorem listCredentials_exact (hP : P.Lawful) (hValid : store.stored.Valid)
    (hReady : store.requiresReload = false) :
    ∃ listed, store.listCredentials P = .ok listed ∧ Listed store listed := by
  have hPerm := (List.perm_insertionSort (fun left right : CredentialSummary => ¬ right.before left)
    ((P.iterate store.stored).map fun item => item.2.summary))
  have hNodup : ((P.iterate store.stored).map fun item => item.2.summary).Pairwise
      fun s s' => s.id ≠ s'.id := by
    have hIds := nodup_iterate_id hP hValid
    rw [List.map_map, List.nodup_iff_pairwise_ne, List.pairwise_map] at hIds
    exact List.pairwise_map.mpr hIds
  refine ⟨_, by rw [CredentialStore.listCredentials, requireReady_eq hReady]; rfl, ?_, ?_⟩
  · exact hPerm.trans ((hP.iterate_perm store.stored).map _)
  · have hDistinct := (hPerm.symm.pairwise_iff fun {_ _} => Ne.symm).mp hNodup
    refine ((List.pairwise_insertionSort _ _).and hDistinct).imp fun {s s'} h => ?_
    obtain ⟨hNot, hNe⟩ := h
    rw [before_iff, not_lt] at hNot
    refine before_iff.mpr (lt_of_le_of_ne hNot fun hSame => hNe ?_)
    simp only [CredentialSummary.key, toLex_inj, Prod.mk.injEq, map_toNat_inj] at hSame
    exact hSame.2.2.2

theorem Listed.unique {listed listed' : List CredentialSummary} (h : Listed store listed)
    (h' : Listed store listed') : listed = listed' := by
  refine List.Perm.eq_of_pairwise ?_ h.order h'.order (h.exact.trans h'.exact.symm)
  intro s s' _ _ hLt hLt'
  rw [before_iff] at hLt hLt'
  exact absurd hLt' (lt_asymm hLt)

end Listing

/-! ## Reachable stores -/

theorem Reachable.kept {P : Platform} {w : World} (hP : P.Lawful) (h : Reachable P w) :
    w.store.stored.Kept w.store.generation := by
  obtain ⟨history, hRun⟩ := h
  obtain ⟨hReady, hKept⟩ : ReadyInv P w history ∧ history.Kept :=
    (storeService_kept hP _).holds (c := fresh) ⟨fresh_holds, Storage.kept_empty 0⟩ hRun
  rw [hReady.stored, hReady.generation]
  exact hKept

/-- **Selection and listing are exact.** In every reachable store that is ready, for every order
`Q` in which the hash table may be listed; and the order does not matter. -/
theorem selection_exact {P Q Q' : Platform} {w : World} (hP : P.Lawful) (hQ : Q.Lawful)
    (hQ' : Q'.Lawful) (hReachable : Reachable P w) (hReady : w.store.requiresReload = false)
    (ownerUid : UInt32) (rpId : Bytes) (allowList : List PublicKeyCredentialDescriptor) :
    (∃ found, w.store.findForAssertion Q rpId allowList ownerUid = .ok found ∧
      w.store.findForAssertion Q' rpId allowList ownerUid = .ok found ∧
      (allowList ≠ [] → AllowedMatches w.store rpId ownerUid (publicKeyIds allowList) found) ∧
      (allowList = [] → Discovered w.store rpId ownerUid found)) ∧
    ∃ listed, w.store.listCredentials Q = .ok listed ∧ w.store.listCredentials Q' = .ok listed ∧
      Listed w.store listed := by
  have hKept := hReachable.kept hP
  obtain ⟨listed, hListed, hExact⟩ := listCredentials_exact hQ hKept.valid hReady
  obtain ⟨listed', hListed', hExact'⟩ := listCredentials_exact hQ' hKept.valid hReady
  have hDiscovered : Discovered w.store rpId ownerUid
      (w.store.discoverableMatches Q rpId ownerUid) := discoverableMatches_exact hQ hKept
  have hSame := hDiscovered.unique (discoverableMatches_exact hQ' hKept)
  have hFind : ∀ R : Platform, w.store.findForAssertion R rpId allowList ownerUid =
      .ok (if allowList ≠ [] then w.store.allowedMatches rpId ownerUid [] allowList
        else w.store.discoverableMatches R rpId ownerUid) := by
    intro R
    unfold CredentialStore.findForAssertion
    rw [requireReady_eq hReady]
    split <;> rfl
  refine ⟨⟨_, hFind Q, ?_, fun hSome => ?_, fun hNone => ?_⟩, listed, hListed, ?_, hExact⟩
  · rw [hFind Q', hSame]
  · rw [if_pos hSome]
    exact allowedMatches_exact hKept.valid allowList
  · rw [if_neg (not_not.mpr hNone)]
    exact hDiscovered
  · rw [hListed', hExact.unique hExact']

/-- A platform that lists the table the other way round. -/
noncomputable def reversedPlatform : Platform :=
  { utf8Platform with iterate := fun m => m.toList.reverse }

theorem reversedPlatform_lawful : reversedPlatform.Lawful :=
  { utf8Platform_lawful with iterate_perm := fun _ => List.reverse_perm _ }

/-- A credential of another account at the relying party of the sample credential. -/
def otherAccount : StoredCredential := { secondCredential with userId := [3] }

def twoAccounts : Storage :=
  (single sampleCredential).insert (hexEncode otherAccount.id) otherAccount

theorem holding_twoAccounts : ∃ w, Holding utf8Platform twoAccounts 2 w := by
  have hSample : sampleCredential.Textual := by
    obtain ⟨hRp, hName, hDisplay⟩ := ownCredential_textual 0
    exact ⟨hRp, hName, hDisplay⟩
  have hOther : otherAccount.Textual := ⟨hSample.rpId, hSample.userName, hSample.userDisplayName⟩
  have hFirst := single_textual hSample
  obtain ⟨_, w, -, hw⟩ := (holding_fresh utf8Platform).commit utf8Platform_lawful
    (.put sampleCredential 1000) rfl (utf8Platform_encodes hFirst (by decide +kernel)) (by decide)
  have hPut : CredentialStore.afterPut { stored := single sampleCredential, generation := 0 + 1 }
      otherAccount 1000 = .ok twoAccounts := by
    decide +kernel
  obtain ⟨_, w', -, hw'⟩ := hw.commit utf8Platform_lawful (.put otherAccount 1000) hPut
    (utf8Platform_encodes (hFirst.insert hOther) (by decide +kernel)) (by decide)
  exact ⟨w', hw'⟩

/-- An allow list that names the younger credential twice. -/
def repeatedIds : List PublicKeyCredentialDescriptor :=
  [otherAccount.id, sampleCredential.id, otherAccount.id].map fun id =>
    { id, type := text "public-key" }

theorem selection_exact_twoAccounts : ∃ w, Holding utf8Platform twoAccounts 2 w ∧
    (∀ Q ∈ [utf8Platform, reversedPlatform],
      w.store.findForAssertion Q sampleCredential.rpId repeatedIds 1000 =
        .ok [otherAccount, sampleCredential] ∧
      w.store.findForAssertion Q sampleCredential.rpId [] 1000 =
        .ok [otherAccount, sampleCredential] ∧
      w.store.listCredentials Q = .ok [sampleCredential.summary, otherAccount.summary]) ∧
    AllowedMatches w.store sampleCredential.rpId 1000
      [otherAccount.id, sampleCredential.id, otherAccount.id] [otherAccount, sampleCredential] ∧
    Discovered w.store sampleCredential.rpId 1000 [otherAccount, sampleCredential] ∧
    Listed w.store [sampleCredential.summary, otherAccount.summary] := by
  obtain ⟨w, h⟩ := holding_twoAccounts
  have hExact := selection_exact utf8Platform_lawful utf8Platform_lawful reversedPlatform_lawful
    h.reachable (congrArg CredentialStore.requiresReload h.store) 1000 sampleCredential.rpId
  obtain ⟨⟨allowed, hAllowed, hAllowed', hMatches, -⟩, -⟩ := hExact repeatedIds
  obtain ⟨⟨found, hFound, hFound', -, hDiscovered⟩, listed, hListed, hListed', hSorted⟩ := hExact []
  obtain rfl : [otherAccount, sampleCredential] = allowed := by
    rw [h.store] at hAllowed
    exact Except.ok.inj hAllowed
  obtain rfl : [otherAccount, sampleCredential] = found := by
    rw [h.store] at hFound
    exact Except.ok.inj hFound
  obtain rfl : [sampleCredential.summary, otherAccount.summary] = listed := by
    rw [h.store] at hListed
    exact Except.ok.inj hListed
  refine ⟨w, h, ?_, hMatches (List.cons_ne_nil _ _), hDiscovered rfl, hSorted⟩
  intro Q hQ
  rcases List.mem_pair.mp hQ with rfl | rfl
  · exact ⟨hAllowed, hFound, hListed⟩
  · exact ⟨hAllowed', hFound', hListed'⟩

end VAuth.Store
