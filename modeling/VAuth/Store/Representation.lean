import VAuth.Store.FailedWrite

/-!
# The representation invariant of the store

The creation order of a credential is the generation its `put` wrote. No generation is used for
two credentials of one map, because the map a load recovers is the acknowledged one, or that one
with a single interrupted operation applied at the next generation. That an account has one
discoverable credential is kept by `put` alone.
-/

namespace VAuth.Store

open Proc

/-- What a map at a generation satisfies. -/
structure Storage.Kept (m : Storage) (generation : UInt64) : Prop where
  valid : m.Valid
  order : ∀ (k : Bytes) (c : StoredCredential), m[k]? = some c →
    1 ≤ c.creationOrder ∧ c.creationOrder ≤ generation
  distinct : ∀ (k k' : Bytes) (c c' : StoredCredential), m[k]? = some c → m[k']? = some c' →
    c.creationOrder = c'.creationOrder → k = k'
  account : ∀ (k k' : Bytes) (c c' : StoredCredential), m[k]? = some c → m[k']? = some c' →
    c.discoverable = true → c'.discoverable = true → c.ownerUid = c'.ownerUid → c.rpId = c'.rpId →
    c.userId = c'.userId → k = k'

/-- The discoverable credential of the same owner, relying party and user as a new discoverable
one. -/
def Superseded (cred : StoredCredential) (ownerUid : UInt32) (c : StoredCredential) : Prop :=
  cred.discoverable = true ∧ c.discoverable = true ∧ c.ownerUid = ownerUid ∧ c.rpId = cred.rpId ∧
    c.userId = cred.userId

/-- The map is that of the store with the new credential in place of what it supersedes. -/
structure Replaces (store : CredentialStore) (cred : StoredCredential) (ownerUid : UInt32)
    (m : Storage) : Prop where
  fresh : hexEncode cred.id ∉ store.stored
  added : m[hexEncode cred.id]? =
    some { cred with ownerUid, creationOrder := store.generation + 1 }
  others : ∀ (k : Bytes) (c : StoredCredential), k ≠ hexEncode cred.id →
    (m[k]? = some c ↔ store.stored[k]? = some c ∧ ¬ Superseded cred ownerUid c)

section Maps

variable {m m' : Storage} {generation generation' : UInt64} {store : CredentialStore}

theorem Storage.kept_empty (generation : UInt64) : Storage.Kept {} generation where
  valid := Storage.valid_empty
  order := by simp
  distinct := by simp
  account := by simp

/-- What the invariant reads of a credential. -/
structure StoredCredential.Similar (c c' : StoredCredential) : Prop where
  order : c'.creationOrder = c.creationOrder
  discoverable : c'.discoverable = c.discoverable
  owner : c'.ownerUid = c.ownerUid
  rp : c'.rpId = c.rpId
  user : c'.userId = c.userId

theorem Storage.Kept.of_similar (h : m.Kept generation) (hValid : m'.Valid)
    (hLater : generation ≤ generation')
    (hSimilar : ∀ (k : Bytes) (c' : StoredCredential), m'[k]? = some c' →
      ∃ c, m[k]? = some c ∧ c.Similar c') : m'.Kept generation' where
  valid := hValid
  order := by
    intro k c' hc'
    obtain ⟨c, hc, hSame⟩ := hSimilar k c' hc'
    rw [hSame.order]
    exact ⟨(h.order k c hc).1, UInt64.le_trans (h.order k c hc).2 hLater⟩
  distinct := by
    intro k₁ k₂ c₁' c₂' h₁' h₂' hOrder
    obtain ⟨c₁, h₁, hSame₁⟩ := hSimilar k₁ c₁' h₁'
    obtain ⟨c₂, h₂, hSame₂⟩ := hSimilar k₂ c₂' h₂'
    rw [hSame₁.order, hSame₂.order] at hOrder
    exact h.distinct k₁ k₂ c₁ c₂ h₁ h₂ hOrder
  account := by
    intro k₁ k₂ c₁' c₂' h₁' h₂' hFirst hSecond hOwner hRp hUser
    obtain ⟨c₁, h₁, hSame₁⟩ := hSimilar k₁ c₁' h₁'
    obtain ⟨c₂, h₂, hSame₂⟩ := hSimilar k₂ c₂' h₂'
    rw [hSame₁.discoverable] at hFirst
    rw [hSame₂.discoverable] at hSecond
    rw [hSame₁.owner, hSame₂.owner] at hOwner
    rw [hSame₁.rp, hSame₂.rp] at hRp
    rw [hSame₁.user, hSame₂.user] at hUser
    exact h.account k₁ k₂ c₁ c₂ h₁ h₂ hFirst hSecond hOwner hRp hUser

theorem StoredCredential.Similar.refl (c : StoredCredential) : c.Similar c := ⟨rfl, rfl, rfl, rfl, rfl⟩

variable {cred : StoredCredential} {ownerUid : UInt32}

theorem supersedes_iff {c : StoredCredential} {order : UInt64} (h : cred.discoverable = true) :
    CredentialStore.supersedes { cred with ownerUid, creationOrder := order } c = true ↔
      Superseded cred ownerUid c := by
  simp [CredentialStore.supersedes, Superseded, h, and_assoc]

theorem afterPut_replaces (h : store.afterPut cred ownerUid = .ok m) :
    Replaces store cred ownerUid m := by
  unfold CredentialStore.afterPut at h
  obtain ⟨_, -, h⟩ := bind_eq_ok.mp h
  obtain ⟨-, h⟩ := guard_eq_ok.mp h
  obtain ⟨_, -, h⟩ := bind_eq_ok.mp h
  obtain ⟨hFresh, h⟩ := guard_eq_ok.mp h
  obtain ⟨-, h⟩ := guard_eq_ok.mp h
  cases h
  refine ⟨hFresh, Std.ExtTreeMap.getElem?_insert_self, fun k c hk => ?_⟩
  have hOther : ¬ compare (hexEncode cred.id) k = .eq :=
    fun hSame => hk (Std.LawfulEqCmp.eq_of_compare hSame).symm
  rw [Std.ExtTreeMap.getElem?_insert, if_neg hOther]
  by_cases hDiscoverable : cred.discoverable = true
  · rw [if_pos hDiscoverable, Std.ExtTreeMap.getElem?_filter', Option.filter_eq_some_iff,
      Bool.not_eq_true', ← Bool.not_eq_true, supersedes_iff hDiscoverable]
  · rw [if_neg hDiscoverable]
    exact ⟨fun hc => ⟨hc, fun hSuperseded => hDiscoverable hSuperseded.1⟩, And.left⟩

/-- The map of a `put` at the next generation. -/
theorem Replaces.kept (h : Replaces store cred ownerUid m)
    (hKept : store.stored.Kept store.generation) (hBound : store.generation ≠ maxUInt64)
    (hValid : m.Valid) : m.Kept (store.generation + 1) := by
  have hSucc := toNat_succ hBound
  -- An entry is the new one, or an old one that was not superseded.
  have hEntry : ∀ (k : Bytes) (c : StoredCredential), m[k]? = some c →
      (k = hexEncode cred.id ∧ c = { cred with ownerUid, creationOrder := store.generation + 1 }) ∨
        store.stored[k]? = some c ∧ ¬ Superseded cred ownerUid c := by
    intro k c hc
    by_cases hk : k = hexEncode cred.id
    · subst hk
      rw [h.added] at hc
      exact .inl ⟨rfl, (Option.some.inj hc).symm⟩
    · exact .inr ((h.others k c hk).mp hc)
  have hOld : ∀ (k : Bytes) (c : StoredCredential), store.stored[k]? = some c →
      c.creationOrder ≠ store.generation + 1 := by
    intro k c hc hSame
    have hLe := (hKept.order k c hc).2
    rw [hSame, UInt64.le_iff_toNat_le, hSucc] at hLe
    omega
  refine ⟨hValid, ?_, ?_, ?_⟩
  · intro k c hc
    rcases hEntry k c hc with ⟨-, rfl⟩ | ⟨hc, -⟩
    · refine ⟨?_, UInt64.le_refl _⟩
      rw [UInt64.le_iff_toNat_le, hSucc]
      exact Nat.le_add_left 1 _
    · refine ⟨(hKept.order k c hc).1, UInt64.le_trans (hKept.order k c hc).2 ?_⟩
      rw [UInt64.le_iff_toNat_le, hSucc]
      exact Nat.le_succ _
  · intro k k' c c' hc hc' hOrder
    rcases hEntry k c hc with ⟨rfl, rfl⟩ | ⟨hc, -⟩
    · rcases hEntry k' c' hc' with ⟨rfl, -⟩ | ⟨hc', -⟩
      · rfl
      · exact absurd hOrder.symm (hOld k' c' hc')
    · rcases hEntry k' c' hc' with ⟨rfl, rfl⟩ | ⟨hc', -⟩
      · exact absurd hOrder (hOld k c hc)
      · exact hKept.distinct k k' c c' hc hc' hOrder
  · intro k k' c c' hc hc' hFirst hSecond hOwner hRp hUser
    rcases hEntry k c hc with ⟨rfl, rfl⟩ | ⟨hc, hStays⟩
    · rcases hEntry k' c' hc' with ⟨rfl, -⟩ | ⟨hc', hStays'⟩
      · rfl
      · exact absurd ⟨hFirst, hSecond, hOwner.symm, hRp.symm, hUser.symm⟩ hStays'
    · rcases hEntry k' c' hc' with ⟨rfl, rfl⟩ | ⟨hc', -⟩
      · exact absurd ⟨hSecond, hFirst, hOwner, hRp, hUser⟩ hStays
      · exact hKept.account k k' c c' hc hc' hFirst hSecond hOwner hRp hUser

theorem Operation.change_kept {op : Operation} (hKept : store.stored.Kept store.generation)
    (hBound : store.generation ≠ maxUInt64) (h : op.change store = .ok m) :
    m.Kept (store.generation + 1) := by
  have hValid := Operation.change_valid hKept.valid h
  have hLater : store.generation ≤ store.generation + 1 := by
    rw [UInt64.le_iff_toNat_le, toNat_succ hBound]
    exact Nat.le_succ _
  cases op with
  | put cred ownerUid => exact (afterPut_replaces h).kept hKept hBound hValid
  | erase credentialId ownerUid =>
    refine hKept.of_similar hValid hLater fun k c hc => ⟨c, ?_, .refl c⟩
    obtain ⟨_, -, h⟩ := bind_eq_ok.mp h
    cases h
    rw [Std.ExtTreeMap.getElem?_erase] at hc
    split at hc
    · cases hc
    · exact hc
  | incrementSigCount credId ownerUid =>
    obtain ⟨c, -, hIn, -, -, rfl⟩ := afterIncrement_ok h
    refine hKept.of_similar hValid hLater fun k c' hc' => ?_
    rw [Std.ExtTreeMap.getElem?_insert] at hc'
    split at hc'
    · rename_i hk
      cases hc'
      exact ⟨c, Std.LawfulEqCmp.eq_of_compare hk ▸ hIn, rfl, rfl, rfl, rfl, rfl⟩
    · exact ⟨c', hc', .refl c'⟩
  | clear =>
    cases h
    exact Storage.kept_empty _

end Maps

/-! ## Every run -/

variable {P : Platform} {w w' : World} {h : History}

/-- The acknowledged store satisfies the invariant. -/
def History.Kept (h : History) : Prop := h.last.stored.Kept h.last.generation

theorem Loaded.kept (hLoaded : Loaded P w w') (hDurable : Durable P w.disk h) (hKept : h.Kept) :
    w'.store.stored.Kept w'.store.generation := by
  cases hLoaded with
  | absent _ _ _ hStore =>
    rw [hStore]
    exact Storage.kept_empty 0
  | present hFile hSeals _ _ hStore =>
    rw [hStore]
    cases hDurable with
    | absent hNone => rw [hNone] at hFile; cases hFile
    | current hOld _ hSealed _ =>
      rw [hOld] at hFile
      cases hFile
      obtain ⟨rfl, rfl⟩ := hSeals.unique hSealed
      exact hKept
    | ahead hOld _ hSealed _ hChange hBound _ =>
      rw [hOld] at hFile
      cases hFile
      obtain ⟨rfl, rfl⟩ := hSeals.unique hSealed
      exact Operation.change_kept hKept hBound hChange

theorem Committed.kept {op : Operation} {m : Storage} (hCommitted : Committed P m w w')
    (hChange : op.change w.store = .ok m) (hKept : w.store.stored.Kept w.store.generation) :
    w'.store.stored.Kept w'.store.generation := by
  rw [hCommitted.store]
  exact Operation.change_kept hKept hCommitted.installed.startable.bound hChange

theorem storeService_memory {J : Storage → UInt64 → Prop} (hP : P.Lawful)
    (hLoad : ∀ w w' h, Durable P w.disk h → J h.last.stored h.last.generation → Loaded P w w' →
      J w'.store.stored w'.store.generation)
    (hCommit : ∀ (op : Operation) m w w', J w.store.stored w.store.generation →
      op.change w.store = .ok m → Committed P m w w' → J w'.store.stored w'.store.generation)
    (admits : World → Answer → Prop) :
    (storeService P).Invariant Service.nobody admits
      (fun w h => StoreInv P w h ∧ J h.last.stored h.last.generation)
      (fun w h => ReadyInv P w h ∧ J h.last.stored h.last.generation) := by
  have hInterrupted {h : History} (k : Call) (hJ : J h.last.stored h.last.generation) :
      J (h.interrupted k).last.stored (h.interrupted k).last.generation := by
    rw [last_interrupted]
    exact hJ
  refine .alone ?_ ?_ (fun w h hInv => ⟨hInv.1.restart, hInv.2⟩)
    (fun k w h hReady => ⟨hReady.1.inv.interrupted k, hInterrupted k hReady.2⟩)
    (fun w h hReady => ⟨hReady.1.inv, hReady.2⟩)
  · rintro w h ⟨hInv, hJ⟩
    refine wp_mono (wp_boot hInv.restart (Service.keeps_nobody.mono fun _ hw => ⟨hw, hJ⟩)) ?_ ?_
    · rintro _ w' ⟨hReached, hLoaded⟩
      exact ⟨hInv.restart.loaded hReached hLoaded, hLoad _ _ h hInv.restart.durable hJ hLoaded⟩
    · intro _ w' hThrows
      exact ⟨hInv.restart.reaches hThrows.reaches, hJ⟩
  · rintro k w h _ ⟨hReady, hJ⟩
    refine wp_mono (wp_call hP hReady k
      (Service.keeps_nobody.mono fun _ hw => ⟨hw, hInterrupted k hJ⟩)) ?_ ?_
    · intro _ w' hReturns
      refine ⟨hReady.returned hReturns, ?_⟩
      cases k with
      | load => exact hLoad _ _ h hReady.inv.durable hJ hReturns.2
      | update op =>
        obtain ⟨m, hChange, hCommitted⟩ := hReturns
        refine hCommit op m w w' ?_ hChange hCommitted
        rw [hReady.stored, hReady.generation]
        exact hJ
    · intro _ w' hThrows
      exact ⟨hReady.thrown hThrows, hInterrupted k hJ⟩

theorem storeService_kept (hP : P.Lawful) (admits : World → Answer → Prop) :
    (storeService P).Invariant Service.nobody admits (fun w h => StoreInv P w h ∧ h.Kept)
      (fun w h => ReadyInv P w h ∧ h.Kept) :=
  storeService_memory hP (fun _ _ _ hDurable hKept hLoaded => hLoaded.kept hDurable hKept)
    (fun _ _ _ _ hKept hChange hCommitted => hCommitted.kept hChange hKept) admits

/-- **The representation invariant.** In every run of the store, with any failures, crashes and
reloads, the map in memory satisfies the invariant at its generation; and a `put` that returns
has put the new credential in place of exactly what it supersedes. -/
theorem store_representation (hP : P.Lawful)
    (hRun : Service.Steps (storeService P) Service.nobody (fun _ _ => True) fresh ⟨.ready, w, h⟩) :
    w.store.stored.Kept w.store.generation ∧
      ∀ (cred : StoredCredential) (ownerUid : UInt32) (inputs : List Answer) (w' : World),
        run inputs (put P cred ownerUid) w = (done (), w') →
          Replaces w.store cred ownerUid w'.store.stored := by
  obtain ⟨hReady, hKept⟩ : ReadyInv P w h ∧ h.Kept :=
    (storeService_kept hP _).holds (c := fresh) ⟨fresh_holds, Storage.kept_empty 0⟩ hRun
  constructor
  · rw [hReady.stored, hReady.generation]
    exact hKept
  · intro cred ownerUid inputs w' hDone
    have hCall := wp_call (C := .alone (fun _ => True) fun _ => True) hP hReady
      (.update (.put cred ownerUid)) (keeps_alone.mono fun _ _ => trivial)
    have hEnd := (wp_run hCall trivial inputs fun _ _ => trivial).2
    change wp _ _ _ (run inputs (put P cred ownerUid) w).1
      (run inputs (put P cred ownerUid) w).2 at hEnd
    rw [hDone] at hEnd
    obtain ⟨m, hChange, hCommitted⟩ := hEnd
    rw [hCommitted.store]
    exact afterPut_replaces hChange

/-- A first start and the registration of the sample credential. -/
def registeredSample : List (Service.Action World Answer Call) :=
  [.start] ++ Service.feed 3 .success ++ [.finish, .invoke (.update putSample)] ++
    Service.feed 20 .success ++ [.finish]

/-- A second credential of the account of the sample credential. -/
def secondCredential : StoredCredential :=
  { sampleCredential with id := List.replicate 16 8, creationOrder := 2 }

/-- A platform that can also write the map of the second credential. -/
def secondPlatform : Platform :=
  tablePlatform ((storageDocument [(hexEncode secondCredential.id, secondCredential)] ::
    sampleDocuments).map fun json => (json, json.render))

theorem secondPlatform_lawful : secondPlatform.Lawful := tablePlatform_lawful (by decide +kernel)

/-- The second registration of an account removes the first. -/
theorem store_representation_superseding : ∃ w h w',
    Service.Steps (storeService secondPlatform) Service.nobody (fun _ _ => True) fresh
      ⟨.ready, w, h⟩ ∧ w.store.stored.Kept w.store.generation ∧
    run (List.replicate 20 .success) (put secondPlatform secondCredential 1000) w = (done (), w') ∧
    Replaces w.store secondCredential 1000 w'.store.stored ∧
    hexEncode sampleCredential.id ∈ w.store.stored ∧
    hexEncode sampleCredential.id ∉ w'.store.stored := by
  let second (w : World) :=
    run (List.replicate 20 .success) (put secondPlatform secondCredential 1000) w
  have hEnds : (Service.exec (storeService secondPlatform) (fun _ _ => true) registeredSample
      fresh).any (fun c => c.phase.isReady && decide ((second c.state).1.outcome? = some (.ok ()) ∧
        hexEncode sampleCredential.id ∈ c.state.store.stored ∧
        hexEncode sampleCredential.id ∉ (second c.state).2.store.stored)) = true := by
    decide +kernel
  obtain ⟨⟨φ, w, h⟩, hExec, hEnd⟩ := (Option.any_eq_true _ _).mp hEnds
  have hRun : Service.Steps (storeService secondPlatform) Service.nobody (fun _ _ => True) fresh
      ⟨φ, w, h⟩ :=
    Service.steps_exec_nobody _ _ (fun _ _ _ => trivial) (by decide +kernel) hExec
  obtain ⟨hReady, hSecond⟩ := Bool.and_eq_true_iff.mp hEnd
  obtain ⟨hDone, hBefore, hAfter⟩ := of_decide_eq_true hSecond
  cases φ with
  | ready =>
    obtain ⟨hKept, hReplaces⟩ := store_representation secondPlatform_lawful hRun
    have hDone := run_eq_done hDone
    exact ⟨w, h, _, hRun, hKept, hDone, hReplaces _ _ _ _ hDone, hBefore, hAfter⟩
  | _ => cases hReady

end VAuth.Store
