import VAuth.Store.CredentialStore
import Mathlib.Data.List.Sort

/-!
# Queries over the store

`has`, `has_for_rp`, `find_for_assertion` and `list_credentials`. Whatever the order of the hash
table, the matches of an assertion are entries of the map, of the owner and relying party asked
for, and no two of them have one id (`findForAssertion_spec`).
-/

namespace VAuth

/-- The texts of the source, as bytes. -/
def text (s : String) : Bytes := Store.Json.ascii s

namespace Store

structure PublicKeyCredentialDescriptor where
  type : Bytes := []
  id : Bytes := []
  transports : List Bytes := []
deriving DecidableEq

namespace CredentialStore

/-- The entry of the id that belongs to the owner and the relying party. -/
def entryFor (store : CredentialStore) (credId rpId : Bytes) (ownerUid : UInt32) :
    Option StoredCredential :=
  store.stored[hexEncode credId]?.filter fun c => c.ownerUid == ownerUid && c.rpId == rpId

def has (store : CredentialStore) (credId : Bytes) (ownerUid : UInt32) : Except Exn Bool := do
  store.requireReady
  return store.stored[hexEncode credId]?.any fun c => c.ownerUid == ownerUid

def hasForRp (store : CredentialStore) (credId rpId : Bytes) (ownerUid : UInt32) :
    Except Exn Bool := do
  store.requireReady
  return (store.entryFor credId rpId ownerUid).isSome

/-- The loop over the allow list, with the ids seen so far. -/
def allowedMatches (store : CredentialStore) (rpId : Bytes) (ownerUid : UInt32) :
    List Bytes → List PublicKeyCredentialDescriptor → List StoredCredential
  | _, [] => []
  | seen, descriptor :: rest =>
    if descriptor.type ≠ text "public-key" ∨ hexEncode descriptor.id ∈ seen then
      store.allowedMatches rpId ownerUid seen rest
    else
      (store.entryFor descriptor.id rpId ownerUid).toList ++
        store.allowedMatches rpId ownerUid (hexEncode descriptor.id :: seen) rest

/-- The order of discovered credentials: the newest first. -/
def newerFirst (left right : StoredCredential) : Prop :=
  if left.creationOrder ≠ right.creationOrder then left.creationOrder > right.creationOrder
  else left.id ≤ right.id

instance : DecidableRel newerFirst := fun left right =>
  inferInstanceAs (Decidable (if left.creationOrder ≠ right.creationOrder then _ else _))

def discoverableMatches (P : Platform) (store : CredentialStore) (rpId : Bytes)
    (ownerUid : UInt32) : List StoredCredential :=
  ((P.iterate store.stored).map Prod.snd).filter
      (fun c => c.ownerUid == ownerUid && c.discoverable && c.rpId == rpId) |>.insertionSort
    newerFirst

def findForAssertion (P : Platform) (store : CredentialStore) (rpId : Bytes)
    (allowList : List PublicKeyCredentialDescriptor) (ownerUid : UInt32) :
    Except Exn (List StoredCredential) := do
  store.requireReady
  if allowList ≠ [] then return store.allowedMatches rpId ownerUid [] allowList
  return store.discoverableMatches P rpId ownerUid

end CredentialStore

structure CredentialSummary where
  id : Bytes
  ownerUid : UInt32
  rpId : Bytes
  userName : Bytes
  userDisplayName : Bytes
  signCount : UInt32
  discoverable : Bool
  creationOrder : UInt64
deriving DecidableEq

def StoredCredential.summary (c : StoredCredential) : CredentialSummary where
  id := c.id
  ownerUid := c.ownerUid
  rpId := c.rpId
  userName := c.userName
  userDisplayName := c.userDisplayName
  signCount := c.signCount
  discoverable := c.discoverable
  creationOrder := c.creationOrder

/-- The comparison of `list_credentials`. -/
def CredentialSummary.before (left right : CredentialSummary) : Prop :=
  if left.ownerUid ≠ right.ownerUid then left.ownerUid < right.ownerUid
  else if left.rpId ≠ right.rpId then left.rpId < right.rpId
  else if left.creationOrder ≠ right.creationOrder then left.creationOrder < right.creationOrder
  else left.id < right.id

instance : DecidableRel CredentialSummary.before := fun left right =>
  inferInstanceAs (Decidable (if left.ownerUid ≠ right.ownerUid then _
    else if left.rpId ≠ right.rpId then _
    else if left.creationOrder ≠ right.creationOrder then _ else _))

/-- Sorted, as `std::sort` leaves it: no element is before an earlier one. -/
def CredentialStore.listCredentials (P : Platform) (store : CredentialStore) :
    Except Exn (List CredentialSummary) := do
  store.requireReady
  return ((P.iterate store.stored).map fun item => item.2.summary).insertionSort
    fun left right => ¬ right.before left

/-! ## What the matches are -/

/-- The list holds entries of the map, of the given owner and relying party, each id once. -/
structure Matching (store : CredentialStore) (rpId : Bytes) (ownerUid : UInt32)
    (found : List StoredCredential) : Prop where
  stored : ∀ c ∈ found, store.stored[hexEncode c.id]? = some c
  owner : ∀ c ∈ found, c.ownerUid = ownerUid
  rp : ∀ c ∈ found, c.rpId = rpId
  distinct : (found.map StoredCredential.id).Nodup

variable {P : Platform} {store : CredentialStore} {rpId : Bytes} {ownerUid : UInt32}
  {c : StoredCredential} {allowList : List PublicKeyCredentialDescriptor}
  {found : List StoredCredential}

theorem entryFor_some (hValid : store.stored.Valid) {credId : Bytes}
    (h : store.entryFor credId rpId ownerUid = some c) :
    c.id = credId ∧ store.stored[hexEncode c.id]? = some c ∧ c.ownerUid = ownerUid ∧
      c.rpId = rpId := by
  obtain ⟨hEntry, hFits⟩ := Option.filter_eq_some_iff.mp h
  have hId : credId = c.id := hexEncode_injective (hValid.key _ c hEntry)
  simp only [Bool.and_eq_true, beq_iff_eq] at hFits
  exact ⟨hId.symm, hId ▸ hEntry, hFits⟩

theorem allowedMatches_spec (hValid : store.stored.Valid) (seen : List Bytes)
    (allowList : List PublicKeyCredentialDescriptor) :
    Matching store rpId ownerUid (store.allowedMatches rpId ownerUid seen allowList) ∧
      ∀ c ∈ store.allowedMatches rpId ownerUid seen allowList, hexEncode c.id ∉ seen := by
  induction allowList generalizing seen with
  | nil => exact ⟨⟨nofun, nofun, nofun, .nil⟩, nofun⟩
  | cons descriptor rest ih =>
    unfold CredentialStore.allowedMatches
    split
    · exact ih seen
    · rename_i hNew
      have hUnseen : hexEncode descriptor.id ∉ seen := fun h => hNew (.inr h)
      obtain ⟨hMatching, hFresh⟩ := ih (hexEncode descriptor.id :: seen)
      cases hEntry : store.entryFor descriptor.id rpId ownerUid with
      | none =>
        exact ⟨hMatching, fun c hc hSeen => hFresh c hc (List.mem_cons_of_mem _ hSeen)⟩
      | some c =>
        obtain ⟨hId, hStored, hOwner, hRp⟩ := entryFor_some hValid hEntry
        refine ⟨⟨?_, ?_, ?_, ?_⟩, ?_⟩
        · exact List.forall_mem_cons.mpr ⟨hStored, hMatching.stored⟩
        · exact List.forall_mem_cons.mpr ⟨hOwner, hMatching.owner⟩
        · exact List.forall_mem_cons.mpr ⟨hRp, hMatching.rp⟩
        · refine List.nodup_cons.mpr ⟨fun hAgain => ?_, hMatching.distinct⟩
          obtain ⟨c', hc', hSame⟩ := List.mem_map.mp hAgain
          exact hFresh c' hc' (by rw [hSame, hId]; exact List.mem_cons_self)
        · refine List.forall_mem_cons.mpr ⟨by rwa [hId], fun c' hc' hSeen => ?_⟩
          exact hFresh c' hc' (List.mem_cons_of_mem _ hSeen)

theorem mem_iterate (hP : P.Lawful) {m : Storage} {k : Bytes} :
    (k, c) ∈ P.iterate m ↔ m[k]? = some c := by
  rw [(hP.iterate_perm m).mem_iff, Std.ExtTreeMap.mem_toList_iff_getElem?_eq_some]

/-- The ids of a valid map, as a hash table lists them, are distinct. -/
theorem nodup_iterate_id (hP : P.Lawful) {m : Storage} (hValid : m.Valid) :
    (((P.iterate m).map Prod.snd).map StoredCredential.id).Nodup := by
  have hKeys : ((P.iterate m).map Prod.fst).Nodup := by
    refine ((hP.iterate_perm m).map Prod.fst).nodup_iff.mpr ?_
    refine List.pairwise_map.mpr (Std.ExtTreeMap.distinct_keys_toList.imp fun hNe hSame => ?_)
    exact hNe (Std.LawfulEqCmp.compare_eq_iff_eq.mpr hSame)
  have hSame : (((P.iterate m).map Prod.snd).map StoredCredential.id).map hexEncode =
      (P.iterate m).map Prod.fst := by
    rw [List.map_map, List.map_map]
    refine List.map_congr_left fun item hItem => ?_
    exact (hValid.key item.1 item.2 ((mem_iterate hP).mp hItem)).symm
  exact List.Nodup.of_map hexEncode (hSame ▸ hKeys)

theorem discoverableMatches_spec (hP : P.Lawful) (hValid : store.stored.Valid) :
    Matching store rpId ownerUid (store.discoverableMatches P rpId ownerUid) := by
  have hMem : ∀ c ∈ store.discoverableMatches P rpId ownerUid,
      store.stored[hexEncode c.id]? = some c ∧ c.ownerUid = ownerUid ∧ c.rpId = rpId := by
    intro c hc
    rw [CredentialStore.discoverableMatches, List.mem_insertionSort, List.mem_filter] at hc
    obtain ⟨hListed, hFits⟩ := hc
    obtain ⟨⟨k, c'⟩, hEntry, rfl⟩ := List.mem_map.mp hListed
    have hStored := (mem_iterate hP).mp hEntry
    simp only [Bool.and_eq_true, beq_iff_eq] at hFits
    exact ⟨hValid.key k c' hStored ▸ hStored, hFits.1.1, hFits.2⟩
  refine ⟨fun c hc => (hMem c hc).1, fun c hc => (hMem c hc).2.1, fun c hc => (hMem c hc).2.2, ?_⟩
  have hSorted := (List.perm_insertionSort CredentialStore.newerFirst
    (((P.iterate store.stored).map Prod.snd).filter
      fun c => c.ownerUid == ownerUid && c.discoverable && c.rpId == rpId)).map StoredCredential.id
  refine hSorted.nodup_iff.mpr ?_
  exact (nodup_iterate_id hP hValid).sublist (List.filter_sublist.map _)

/-- The checks a query has passed, and the list it returns. -/
theorem findForAssertion_ok (h : store.findForAssertion P rpId allowList ownerUid = .ok found) :
    store.requiresReload = false ∧ found = if allowList ≠ [] then
      store.allowedMatches rpId ownerUid [] allowList
      else store.discoverableMatches P rpId ownerUid := by
  obtain ⟨_, hReady, h⟩ := bind_eq_ok.mp h
  refine ⟨requireReady_ok hReady, ?_⟩
  by_cases hAllow : allowList ≠ []
  · rw [if_pos hAllow] at h ⊢
    cases h
    rfl
  · rw [if_neg hAllow] at h ⊢
    cases h
    rfl

theorem findForAssertion_spec (hP : P.Lawful) (hValid : store.stored.Valid)
    (h : store.findForAssertion P rpId allowList ownerUid = .ok found) :
    Matching store rpId ownerUid found := by
  obtain ⟨_, rfl⟩ := findForAssertion_ok h
  split
  · exact (allowedMatches_spec hValid [] allowList).1
  · exact discoverableMatches_spec hP hValid

theorem owner_of_allowedMatches {seen : List Bytes}
    (hc : c ∈ store.allowedMatches rpId ownerUid seen allowList) : c.ownerUid = ownerUid := by
  induction allowList generalizing seen with
  | nil => cases hc
  | cons descriptor rest ih =>
    unfold CredentialStore.allowedMatches at hc
    split at hc
    · exact ih hc
    · rcases List.mem_append.mp hc with hc | hc
      · have hFits := (Option.filter_eq_some_iff.mp (Option.mem_toList.mp hc)).2
        simp only [Bool.and_eq_true, beq_iff_eq] at hFits
        exact hFits.1
      · exact ih hc

/-- Whatever the map, a match belongs to the owner asked for. -/
theorem owner_of_findForAssertion (h : store.findForAssertion P rpId allowList ownerUid = .ok found)
    (hc : c ∈ found) : c.ownerUid = ownerUid := by
  obtain ⟨_, rfl⟩ := findForAssertion_ok h
  split at hc
  · exact owner_of_allowedMatches hc
  · rw [CredentialStore.discoverableMatches, List.mem_insertionSort, List.mem_filter] at hc
    simp only [Bool.and_eq_true, beq_iff_eq] at hc
    exact hc.2.1.1

end Store

end VAuth
