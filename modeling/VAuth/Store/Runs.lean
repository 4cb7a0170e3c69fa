import VAuth.Store.Load

/-!
# Runs of the store

The store as a service: a process image begins with `load`, then takes operations and
further loads in any order, and may crash inside any of them. `History` is what an
observer outside knows: the store as of the last call that returned normally, and the
operations that threw or crashed since.
-/

namespace VAuth.Store

open Proc

/-! ## Operations -/

inductive Operation where
  | put (cred : StoredCredential) (ownerUid : UInt32)
  | erase (credentialId : Bytes) (ownerUid : UInt32)
  | incrementSigCount (credId : Bytes) (ownerUid : UInt32)
  | clear

/-- The map an operation saves. -/
def Operation.change : Operation → CredentialStore → Except Exn Storage
  | put cred ownerUid, store => store.afterPut cred ownerUid
  | erase credentialId ownerUid, store => store.afterErase credentialId ownerUid
  | incrementSigCount credId ownerUid, store => store.afterIncrement credId ownerUid
  | clear, _ => .ok {}

def Operation.run (P : Platform) : Operation → StoreProc Unit
  | put cred ownerUid => Store.put P cred ownerUid
  | erase credentialId ownerUid => Store.erase P credentialId ownerUid
  | incrementSigCount credId ownerUid => Store.incrementSigCount P credId ownerUid
  | clear => Store.clear P

theorem Operation.run_eq (P : Platform) (op : Operation) : op.run P = commit P op.change := by
  cases op <;> rfl

/-! ## Operations keep maps valid -/

variable {m : Storage} {store : CredentialStore} {ownerUid : UInt32}

theorem Storage.Valid.insert (hm : m.Valid) {c : StoredCredential}
    (hc : validateCredential c = .ok ())
    (hSize : (m.insert (hexEncode c.id) c).size ≤ maxCredentials) :
    Storage.Valid (m.insert (hexEncode c.id) c) where
  key := by
    intro k d hd
    rw [Std.ExtTreeMap.getElem?_insert] at hd
    split at hd
    · rename_i hk
      cases hd
      exact (Std.LawfulEqCmp.eq_of_compare hk).symm
    · exact hm.key k d hd
  credential := by
    intro k d hd
    rw [Std.ExtTreeMap.getElem?_insert] at hd
    split at hd
    · cases hd
      exact hc
    · exact hm.credential k d hd
  size := hSize

/-- A map with some of the entries left out. -/
theorem Storage.Valid.of_sub {m' : Storage} (hm : m.Valid)
    (hSub : ∀ (k : Bytes) (c : StoredCredential), m'[k]? = some c → m[k]? = some c)
    (hSize : m'.size ≤ maxCredentials) : m'.Valid where
  key := fun k c h => hm.key k c (hSub k c h)
  credential := fun k c h => hm.credential k c (hSub k c h)
  size := hSize

theorem getByCredId_ok {credId : Bytes} {c : StoredCredential}
    (h : store.getByCredId credId ownerUid = .ok c) :
    store.requiresReload = false ∧ store.stored[hexEncode credId]? = some c ∧
      c.ownerUid = ownerUid := by
  unfold CredentialStore.getByCredId at h
  obtain ⟨_, hReady, h⟩ := bind_eq_ok.mp h
  split at h
  · rename_i found hFound
    obtain ⟨hOwner, h⟩ := guard_eq_ok.mp h
    cases h
    exact ⟨requireReady_ok hReady, hFound, not_not.mp hOwner⟩
  · cases h

/-- What `put` checked, and the entries it keeps. -/
theorem afterPut_ok {cred : StoredCredential} (h : store.afterPut cred ownerUid = .ok m) :
    ∃ base : Storage, store.requiresReload = false ∧ store.generation ≠ maxUInt64 ∧
      validateCredential { cred with ownerUid, creationOrder := store.generation + 1 } = .ok () ∧
      hexEncode cred.id ∉ store.stored ∧
      (∀ (k : Bytes) (c : StoredCredential), base[k]? = some c → store.stored[k]? = some c) ∧
      base.size < maxCredentials ∧
      m = base.insert (hexEncode cred.id)
        { cred with ownerUid, creationOrder := store.generation + 1 } := by
  unfold CredentialStore.afterPut at h
  obtain ⟨_, hReady, h⟩ := bind_eq_ok.mp h
  obtain ⟨hBound, h⟩ := guard_eq_ok.mp h
  obtain ⟨_, hValid, h⟩ := bind_eq_ok.mp h
  obtain ⟨hFresh, h⟩ := guard_eq_ok.mp h
  obtain ⟨hSize, h⟩ := guard_eq_ok.mp h
  cases h
  refine ⟨_, requireReady_ok hReady, hBound, hValid, hFresh, ?_, Nat.not_le.mp hSize, rfl⟩
  intro k c hc
  split at hc
  · rw [Std.ExtTreeMap.getElem?_filter', Option.filter_eq_some_iff] at hc
    exact hc.1
  · exact hc

/-- What `incrementSigCount` checked, and the entry it replaces. -/
theorem afterIncrement_ok {credId : Bytes} (h : store.afterIncrement credId ownerUid = .ok m) :
    ∃ c, store.requiresReload = false ∧ store.stored[hexEncode credId]? = some c ∧
      c.ownerUid = ownerUid ∧ c.signCount ≠ 4294967295 ∧
      m = store.stored.insert (hexEncode credId) { c with signCount := c.signCount + 1 } := by
  obtain ⟨c, hFound, h⟩ := bind_eq_ok.mp h
  obtain ⟨hBound, h⟩ := guard_eq_ok.mp h
  cases h
  obtain ⟨hReady, hIn, hOwner⟩ := getByCredId_ok hFound
  exact ⟨c, hReady, hIn, hOwner, hBound, rfl⟩

theorem Operation.change_valid {op : Operation} (hValid : store.stored.Valid)
    (h : op.change store = .ok m) : m.Valid := by
  cases op with
  | put cred ownerUid =>
    obtain ⟨base, _, _, hCred, hFresh, hSub, hSize, rfl⟩ := afterPut_ok h
    refine (hValid.of_sub hSub (Nat.le_of_lt hSize)).insert hCred ?_
    exact Nat.le_trans Std.ExtTreeMap.size_insert_le hSize
  | erase credentialId ownerUid =>
    obtain ⟨_, _, h⟩ := bind_eq_ok.mp h
    cases h
    refine hValid.of_sub ?_ (Nat.le_trans Std.ExtTreeMap.size_erase_le hValid.size)
    intro k c hc
    rw [Std.ExtTreeMap.getElem?_erase] at hc
    split at hc
    · cases hc
    · exact hc
  | incrementSigCount credId ownerUid =>
    obtain ⟨c, _, hIn, _, _, rfl⟩ := afterIncrement_ok h
    have hKey : hexEncode credId = hexEncode c.id := hValid.key _ c hIn
    rw [hKey] at hIn ⊢
    have hCounted : validateCredential { c with signCount := c.signCount + 1 } = .ok () :=
      validateCredential_ok_iff.mpr (validateCredential_ok_iff.mp (hValid.credential _ c hIn))
    have hMem : hexEncode c.id ∈ store.stored :=
      Std.ExtTreeMap.mem_iff_isSome_getElem?.mpr (by rw [hIn]; rfl)
    refine hValid.insert hCounted ?_
    rw [Std.ExtTreeMap.size_insert, if_pos (Std.ExtTreeMap.contains_iff_mem.mpr hMem)]
    exact hValid.size
  | clear =>
    cases h
    exact Storage.valid_empty

/-! ## The service -/

inductive Call where
  | load
  | update (op : Operation)

def Call.run (P : Platform) : Call → StoreProc Unit
  | load => Store.load P
  | update op => op.run P

/-- The store as of the last call that returned, and the operations that did not return
since. -/
structure History where
  last : CredentialStore := {}
  since : List Operation := []

/-- The history after a call that threw or crashed. -/
def History.interrupted (h : History) : Call → History
  | .load => h
  | .update op => { h with since := h.since ++ [op] }

def storeService (P : Platform) : Service World Answer Exn Call Unit History where
  boot := .load
  call := Call.run P
  restart := fun w => { w with store := {} }
  returned := fun _ _ w _ => { last := w.store }
  failed := fun k _ _ h => h.interrupted k
  crashed := fun k _ h => h.interrupted k

/-- No process, no store file, and the counter at zero. -/
def fresh : Service.Config World Answer Exn Call Unit History := ⟨.down, {}, {}⟩

end VAuth.Store
