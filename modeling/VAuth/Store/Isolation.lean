import VAuth.Process.Lockstep
import VAuth.Store.Capacity
import VAuth.Store.Memory
import VAuth.Store.Query
import VAuth.Store.Texts

/-!
# Users are isolated in the store

All users share one map, one generation and one file. Whatever one user calls, the credentials of
the others stay in the map as they are. And a call of that user other than `put` does not depend on
what the map holds for the others: on two stores that hold the same for the user it goes the same
way, step by step, as long as the documents fit the cipher.
-/

namespace VAuth.Store

open Proc

/-! ## Calls of one user -/

inductive StoreCall where
  | has (credId : Bytes)
  | hasForRp (credId rpId : Bytes)
  | getByCredId (credId : Bytes)
  | findForAssertion (rpId : Bytes) (allowList : List PublicKeyCredentialDescriptor)
  | put (cred : StoredCredential)
  | erase (credentialId : Bytes)
  | incrementSigCount (credId : Bytes)

/-- What a call returns. -/
inductive StoreResult where
  | nothing
  | flag (found : Bool)
  | credential (c : StoredCredential)
  | credentials (found : List StoredCredential)
deriving DecidableEq

def query (ask : CredentialStore → Except Exn StoreResult) : StoreProc StoreResult :=
  Proc.observe fun _ w => ask w.store

def update (p : StoreProc Unit) : StoreProc StoreResult := do
  p
  return .nothing

def StoreCall.run (P : Platform) (ownerUid : UInt32) : StoreCall → StoreProc StoreResult
  | has credId => query fun store => (store.has credId ownerUid).map .flag
  | hasForRp credId rpId => query fun store => (store.hasForRp credId rpId ownerUid).map .flag
  | getByCredId credId => query fun store => (store.getByCredId credId ownerUid).map .credential
  | findForAssertion rpId allowList => query fun store =>
    (store.findForAssertion P rpId allowList ownerUid).map .credentials
  | put cred => update (Store.put P cred ownerUid)
  | erase credentialId => update (Store.erase P credentialId ownerUid)
  | incrementSigCount credId => update (Store.incrementSigCount P credId ownerUid)

/-- Calls one after another, whether they return or throw. -/
def runAll (P : Platform) (ownerUid : UInt32) : List StoreCall → StoreProc Unit
  | [] => return
  | call :: rest => do
      let _ ← (call.run P ownerUid).attempt
      runAll P ownerUid rest

/-! ## The others keep their credentials -/

/-- Every credential of another user is in the map. -/
def Storage.KeepsOthers (m : Storage) (ownerUid : UInt32) (m' : Storage) : Prop :=
  ∀ (k : Bytes) (c : StoredCredential), m[k]? = some c → c.ownerUid ≠ ownerUid → m'[k]? = some c

section Others

variable {P : Platform} {store : CredentialStore} {m m' : Storage} {ownerUid : UInt32} {w : World}

theorem Storage.KeepsOthers.trans {m'' : Storage} (h : m.KeepsOthers ownerUid m')
    (h' : m'.KeepsOthers ownerUid m'') : m.KeepsOthers ownerUid m'' :=
  fun k c hc hOther => h' k c (h k c hc hOther) hOther

theorem afterPut_keepsOthers {cred : StoredCredential}
    (h : store.afterPut cred ownerUid = .ok m) : store.stored.KeepsOthers ownerUid m := by
  intro k c hc hOther
  have hReplaces := afterPut_replaces h
  have hKey : k ≠ hexEncode cred.id := by
    rintro rfl
    exact hReplaces.fresh (Std.ExtTreeMap.mem_iff_isSome_getElem?.mpr (by rw [hc]; rfl))
  exact (hReplaces.others k c hKey).mpr ⟨hc, fun hSuperseded => hOther hSuperseded.2.2.1⟩

theorem afterErase_keepsOthers {credentialId : Bytes}
    (h : store.afterErase credentialId ownerUid = .ok m) : store.stored.KeepsOthers ownerUid m := by
  intro k c hc hOther
  obtain ⟨current, hFound, h⟩ := bind_eq_ok.mp h
  cases h
  obtain ⟨-, hIn, hOwner⟩ := getByCredId_ok hFound
  rw [Std.ExtTreeMap.getElem?_erase, if_neg, hc]
  intro hSame
  rw [Std.LawfulEqCmp.eq_of_compare hSame, hc] at hIn
  cases hIn
  exact hOther hOwner

theorem afterIncrement_keepsOthers {credId : Bytes}
    (h : store.afterIncrement credId ownerUid = .ok m) : store.stored.KeepsOthers ownerUid m := by
  intro k c hc hOther
  obtain ⟨current, -, hIn, hOwner, -, rfl⟩ := afterIncrement_ok h
  rw [Std.ExtTreeMap.getElem?_insert, if_neg, hc]
  intro hSame
  rw [Std.LawfulEqCmp.eq_of_compare hSame, hc] at hIn
  cases hIn
  exact hOther hOwner

/-- The others' credentials of `m` are in memory, at every point. -/
abbrev othersKept (m : Storage) (ownerUid : UInt32) : Setting World Answer :=
  .alone (fun _ => True) fun w => m.KeepsOthers ownerUid w.store.stored

theorem wp_others_commit {change : CredentialStore → Except Exn Storage}
    (hKept : m.KeepsOthers ownerUid w.store.stored)
    (hChange : ∀ m', change w.store = .ok m' → w.store.stored.KeepsOthers ownerUid m') :
    wp (othersKept m ownerUid) (fun _ w' => m.KeepsOthers ownerUid w'.store.stored)
      (fun _ w' => m.KeepsOthers ownerUid w'.store.stored) (commit P change) w := by
  refine wp_mono (wp_memory_commit (I := fun memory => m.KeepsOthers ownerUid memory.1) keeps_alone
    hKept (fun _ => hKept) fun m' hm' _ => hKept.trans (hChange m' hm')) ?_ ?_
  · rintro _ w' ⟨m', hm', -, hMemory⟩
    have hStored : w'.store.stored = m' := congrArg Prod.fst hMemory
    rw [hStored]
    exact hKept.trans (hChange m' hm')
  · intro _ w' hMemory
    have hStored : w'.store.stored = w.store.stored := congrArg Prod.fst hMemory
    rw [hStored]
    exact hKept

theorem wp_others_run (call : StoreCall) (hKept : m.KeepsOthers ownerUid w.store.stored) :
    wp (othersKept m ownerUid) (fun _ w' => m.KeepsOthers ownerUid w'.store.stored)
      (fun _ w' => m.KeepsOthers ownerUid w'.store.stored) (call.run P ownerUid) w := by
  have hQuery (ask : CredentialStore → Except Exn StoreResult) :
      wp (othersKept m ownerUid) (fun _ w' => m.KeepsOthers ownerUid w'.store.stored)
        (fun _ w' => m.KeepsOthers ownerUid w'.store.stored) (query ask) w :=
    wp_keeps_observe keeps_alone hKept fun _ _ => ⟨fun _ _ => hKept, fun _ _ => hKept⟩
  cases call with
  | has | hasForRp | getByCredId | findForAssertion =>
    unfold StoreCall.run
    exact hQuery _
  | put cred => exact wp_bind.mpr (wp_others_commit hKept fun _ => afterPut_keepsOthers)
  | erase credentialId => exact wp_bind.mpr (wp_others_commit hKept fun _ => afterErase_keepsOthers)
  | incrementSigCount credId =>
    exact wp_bind.mpr (wp_others_commit hKept fun _ => afterIncrement_keepsOthers)

theorem wp_others_runAll (calls : List StoreCall) (hKept : m.KeepsOthers ownerUid w.store.stored) :
    wp (othersKept m ownerUid) (fun _ _ => True) (fun _ _ => True) (runAll P ownerUid calls) w := by
  induction calls generalizing w with
  | nil => trivial
  | cons call rest ih =>
    refine wp_bind.mpr (wp_attempt.mpr (wp_mono (wp_others_run call hKept) ?_ ?_))
    · exact fun _ _ hKept => ih hKept
    · exact fun _ _ hKept => ih hKept

end Others

/-! ## Two stores that are the same for a user -/

/-- The entry of the key, if it belongs to the user. -/
def Storage.ownedBy (m : Storage) (uid : UInt32) (k : Bytes) : Option StoredCredential :=
  m[k]?.filter fun c => c.ownerUid == uid

variable {w : World} {m : Storage} {P : Platform} {n : Nat}

theorem Storage.ownedBy_eq_some {uid : UInt32} {k : Bytes} {c : StoredCredential} :
    m.ownedBy uid k = some c ↔ m[k]? = some c ∧ c.ownerUid = uid := by
  rw [Storage.ownedBy, Option.filter_eq_some_iff, beq_iff_eq]

/-- Stores with the same credentials of the user, the same generation and the same counter. -/
structure SameFor (uid : UInt32) (w w' : World) : Prop where
  owned : w'.store.stored.ownedBy uid = w.store.stored.ownedBy uid
  generation : w'.store.generation = w.store.generation
  requiresReload : w'.store.requiresReload = w.store.requiresReload
  counter : w'.disk.counter = w.disk.counter

section Queries

variable {P : Platform} {uid : UInt32} {w w' : World}

theorem SameFor.requireReady (h : SameFor uid w w') :
    w'.store.requireReady = w.store.requireReady := by
  unfold CredentialStore.requireReady
  rw [h.requiresReload]

theorem SameFor.has (h : SameFor uid w w') (credId : Bytes) :
    w'.store.has credId uid = w.store.has credId uid := by
  have hAny (m : Storage) : m[hexEncode credId]?.any (fun c => c.ownerUid == uid) =
      (m.ownedBy uid (hexEncode credId)).isSome := by
    rw [Storage.ownedBy, Option.isSome_filter]
  unfold CredentialStore.has
  rw [h.requireReady, hAny, hAny, h.owned]

theorem SameFor.entryFor (h : SameFor uid w w') (credId rpId : Bytes) :
    w'.store.entryFor credId rpId uid = w.store.entryFor credId rpId uid := by
  have hFilter (store : CredentialStore) : store.entryFor credId rpId uid =
      (store.stored.ownedBy uid (hexEncode credId)).filter fun c => c.rpId == rpId := by
    rw [CredentialStore.entryFor, Storage.ownedBy, Option.filter_filter]
  rw [hFilter, hFilter, h.owned]

theorem SameFor.hasForRp (h : SameFor uid w w') (credId rpId : Bytes) :
    w'.store.hasForRp credId rpId uid = w.store.hasForRp credId rpId uid := by
  unfold CredentialStore.hasForRp
  rw [h.requireReady, h.entryFor]

theorem getByCredId_eq (store : CredentialStore) (credId : Bytes) :
    store.getByCredId credId uid = (do
      store.requireReady
      match store.stored.ownedBy uid (hexEncode credId) with
      | some credential => return credential
      | none => throw (.outOfRange "Credential ID was not found for local user")) := by
  unfold CredentialStore.getByCredId Storage.ownedBy
  cases store.requireReady with
  | error e => rfl
  | ok u =>
    cases store.stored[hexEncode credId]? with
    | none => rfl
    | some c =>
      by_cases hOwner : c.ownerUid = uid
      · simp [Option.filter, hOwner]
      · simp [Option.filter, hOwner, throw, throwThe, MonadExceptOf.throw, bind, Except.bind]

theorem SameFor.getByCredId (h : SameFor uid w w') (credId : Bytes) :
    w'.store.getByCredId credId uid = w.store.getByCredId credId uid := by
  rw [getByCredId_eq, getByCredId_eq, h.requireReady, h.owned]

theorem SameFor.allowedMatches (h : SameFor uid w w') (rpId : Bytes) (seen : List Bytes)
    (allowList : List PublicKeyCredentialDescriptor) :
    w'.store.allowedMatches rpId uid seen allowList =
      w.store.allowedMatches rpId uid seen allowList := by
  induction allowList generalizing seen with
  | nil => rfl
  | cons descriptor rest ih =>
    unfold CredentialStore.allowedMatches
    rw [h.entryFor, ih, ih]

theorem newerFirst_iff {a b : StoredCredential} : CredentialStore.newerFirst a b ↔
    b.creationOrder < a.creationOrder ∨ a.creationOrder = b.creationOrder ∧ a.id ≤ b.id := by
  unfold CredentialStore.newerFirst
  by_cases hOrder : a.creationOrder = b.creationOrder
  · rw [if_neg (not_not.mpr hOrder), hOrder]
    exact ⟨fun h => .inr ⟨rfl, h⟩, fun h => (h.resolve_left (UInt64.lt_irrefl _)).2⟩
  · rw [if_pos hOrder]
    exact ⟨.inl, fun h => h.resolve_right fun hSame => hOrder hSame.1⟩

instance : Std.Total CredentialStore.newerFirst where
  total := by
    intro a b
    rw [newerFirst_iff, newerFirst_iff]
    by_cases hSame : a.creationOrder = b.creationOrder
    · rcases List.le_total a.id b.id with hId | hId
      · exact .inl (.inr ⟨hSame, hId⟩)
      · exact .inr (.inr ⟨hSame.symm, hId⟩)
    · rcases UInt64.lt_or_lt_of_ne hSame with hLess | hMore
      · exact .inr (.inl hLess)
      · exact .inl (.inl hMore)

instance : IsTrans StoredCredential CredentialStore.newerFirst where
  trans := by
    intro a b c hab hbc
    rw [newerFirst_iff] at hab hbc ⊢
    rcases hab with hab | ⟨hab, hId⟩
    · rcases hbc with hbc | ⟨hbc, -⟩
      · exact .inl (UInt64.lt_trans hbc hab)
      · exact .inl (hbc ▸ hab)
    · rcases hbc with hbc | ⟨hbc, hId'⟩
      · exact .inl (hab ▸ hbc)
      · exact .inr ⟨hab.trans hbc, List.le_trans hId hId'⟩

theorem id_eq_of_newerFirst {a b : StoredCredential} (hab : CredentialStore.newerFirst a b)
    (hba : CredentialStore.newerFirst b a) : a.id = b.id := by
  rw [newerFirst_iff] at hab hba
  rcases hab with hab | ⟨hab, hId⟩
  · rcases hba with hba | ⟨hba, -⟩
    · exact absurd hba (UInt64.lt_asymm hab)
    · exact absurd (hba ▸ hab) (UInt64.lt_irrefl _)
  · rcases hba with hba | ⟨-, hId'⟩
    · exact absurd (hab ▸ hba) (UInt64.lt_irrefl _)
    · exact List.le_antisymm hId hId'

theorem mem_discoverable (hP : P.Lawful) {store : CredentialStore} (rpId : Bytes)
    {c : StoredCredential} :
    c ∈ ((P.iterate store.stored).map Prod.snd).filter
        (fun c => c.ownerUid == uid && c.discoverable && c.rpId == rpId) ↔
      (∃ k, store.stored.ownedBy uid k = some c) ∧ c.discoverable = true ∧ c.rpId = rpId := by
  simp only [List.mem_filter, List.mem_map, Prod.exists, mem_iterate hP, exists_eq_right,
    Bool.and_eq_true, beq_iff_eq, Storage.ownedBy_eq_some]
  constructor
  · rintro ⟨⟨k, hc⟩, ⟨hOwner, hDiscoverable⟩, hRp⟩
    exact ⟨⟨k, hc, hOwner⟩, hDiscoverable, hRp⟩
  · rintro ⟨⟨k, hc, hOwner⟩, hDiscoverable, hRp⟩
    exact ⟨⟨k, hc⟩, ⟨hOwner, hDiscoverable⟩, hRp⟩

/-- Sorting forgets the order of the hash tables. -/
theorem SameFor.discoverableMatches (hP : P.Lawful) (h : SameFor uid w w')
    (hValid : w.store.stored.Valid) (hValid' : w'.store.stored.Valid) (rpId : Bytes) :
    w'.store.discoverableMatches P rpId uid = w.store.discoverableMatches P rpId uid := by
  have hNodup {m : Storage} (hm : m.Valid) (p : StoredCredential → Bool) :
      (((P.iterate m).map Prod.snd).filter p).Nodup :=
    (List.Nodup.of_map _ (nodup_iterate_id hP hm)).filter _
  have hPerm := (List.perm_ext_iff_of_nodup (hNodup hValid' _) (hNodup hValid _)).mpr fun c => by
    rw [mem_discoverable hP rpId, mem_discoverable hP rpId, h.owned]
  unfold CredentialStore.discoverableMatches
  refine List.Perm.eq_of_pairwise ?_ (List.pairwise_insertionSort _ _)
    (List.pairwise_insertionSort _ _) ?_
  · intro a b ha hb hab hba
    rw [List.mem_insertionSort] at ha hb
    obtain ⟨⟨k, ha⟩, -, -⟩ := (mem_discoverable hP rpId).mp ha
    obtain ⟨⟨k', hb⟩, -, -⟩ := (mem_discoverable hP rpId).mp hb
    rw [h.owned] at ha
    have hKey : k = k' := by
      rw [hValid.key k a (Storage.ownedBy_eq_some.mp ha).1,
        hValid.key k' b (Storage.ownedBy_eq_some.mp hb).1, id_eq_of_newerFirst hab hba]
    rw [hKey, hb] at ha
    exact (Option.some.inj ha).symm
  · exact (List.perm_insertionSort _ _).trans (hPerm.trans (List.perm_insertionSort _ _).symm)

theorem SameFor.findForAssertion (hP : P.Lawful) (h : SameFor uid w w')
    (hValid : w.store.stored.Valid) (hValid' : w'.store.stored.Valid) (rpId : Bytes)
    (allowList : List PublicKeyCredentialDescriptor) :
    w'.store.findForAssertion P rpId allowList uid =
      w.store.findForAssertion P rpId allowList uid := by
  unfold CredentialStore.findForAssertion
  rw [h.requireReady, h.allowedMatches, h.discoverableMatches hP hValid hValid']

end Queries

/-! ## Two runs of an operation -/

/-- The document of the map is UTF-8, and small enough for the cipher. -/
def Platform.Encodes (P : Platform) (m : Storage) : Prop :=
  ∃ text, P.dump (storageDocument (P.iterate m)) = some text ∧ text.length ≤ 2147483647

/-- Processes that go the same way and keep the stores the same for the user. -/
abbrev Together (uid : UInt32) {α : Type} (p : StoreProc α) (w : World) (p' : StoreProc α)
    (w' : World) : Prop :=
  Lockstep (fun _ => True) (SameFor uid) (Alike (SameFor uid)) (Alike (SameFor uid)) p w p' w'

section Updates

variable {P : Platform} {uid : UInt32} {w w' : World} {m m' : Storage}

theorem together_syscall {call : Syscall} {e : Exn} {effect effect' : World → World}
    (h : SameFor uid w w') (hEffect : SameFor uid (effect w) (effect' w')) :
    Together uid (syscall call e effect) w (syscall call e effect') w' := by
  refine alike_atomically fun a _ => ?_
  cases a.fails call with
  | true => exact ⟨rfl, h⟩
  | false => exact ⟨rfl, hEffect⟩

theorem together_touch {call : Syscall} {e : Exn} (h : SameFor uid w w') :
    Together uid (touch call e) w (touch call e) w' := together_syscall h h

theorem together_readCounter (h : SameFor uid w w') :
    Together uid readCounter w readCounter w' := by
  refine alike_observe h fun a _ => ?_
  rw [h.counter]

theorem together_incrementCounter (h : SameFor uid w w') :
    Together uid incrementCounter w incrementCounter w' := by
  have hNext : SameFor uid { w with disk.counter := w.disk.counter + 1 }
      { w' with disk.counter := w'.disk.counter + 1 } :=
    ⟨h.owned, h.generation, h.requiresReload, congrArg (· + 1) h.counter⟩
  refine alike_atomically fun a _ => ?_
  cases a.increment with
  | succeeds => exact ⟨rfl, hNext⟩
  | failsWithoutEffect => exact ⟨rfl, h⟩
  | failsAfterAdvance => exact ⟨rfl, hNext⟩

theorem together_replaceStore (h : SameFor uid w w') (e e' : Bytes) :
    Together uid (replaceStore e) w (replaceStore e') w' := by
  refine lockstep_alike_bind (lockstep_alike_bind (together_touch h) fun _ _ _ h => ?_) ?_
  · exact together_syscall h ⟨h.owned, h.generation, h.requiresReload, h.counter⟩
  · intro _ _ _ h
    refine lockstep_alike_bind (together_touch h) fun _ _ _ h => ?_
    refine lockstep_alike_bind (together_touch h) fun _ _ _ h => ?_
    exact together_syscall h ⟨h.owned, h.generation, h.requiresReload, h.counter⟩

theorem together_atomicWriteFile (h : SameFor uid w w') (e e' : Bytes) :
    Together uid (atomicWriteFile e) w (atomicWriteFile e') w' := by
  have hDisk {w w' : World} (h : SameFor uid w w') {disk disk' : Disk}
      (hCounter : disk.counter = w.disk.counter) (hCounter' : disk'.counter = w'.disk.counter) :
      SameFor uid { w with disk } { w' with disk := disk' } :=
    ⟨h.owned, h.generation, h.requiresReload, hCounter'.trans (h.counter.trans hCounter.symm)⟩
  refine lockstep_alike_bind (together_syscall h (hDisk h rfl rfl)) fun _ _ _ h => ?_
  refine lockstep_alike_bind (lockstep_alike_bind (together_touch h) fun _ _ _ h =>
    alike_observe h fun _ _ => rfl) fun _ _ _ h => ?_
  refine lockstep_alike_bind (lockstep_alike_bind (together_touch h) fun _ _ _ h =>
    together_syscall h (hDisk h rfl rfl)) fun _ _ _ h => ?_
  refine lockstep_alike_bind (lockstep_tryCatch (lockstep_mono (together_replaceStore h e e')
    (fun _ _ _ _ h => h) ?_)) fun _ _ _ h => ?_
  · rintro e _ _ _ ⟨rfl, h⟩
    exact lockstep_alike_bind (alike_modify (hDisk h rfl rfl)) fun _ _ _ h => .fail ⟨rfl, h⟩
  · exact lockstep_alike_bind (together_touch h) fun _ _ _ h => together_touch h

theorem together_advance (h : SameFor uid w w') (next : UInt64) :
    Together uid ((advanceCounter next).tryCatch (recheckCounter next)) w
      ((advanceCounter next).tryCatch (recheckCounter next)) w' := by
  have hReload {w w' : World} (h : SameFor uid w w') (reload : Bool) :
      SameFor uid { w with store.requiresReload := reload }
        { w' with store.requiresReload := reload } := ⟨h.owned, h.generation, rfl, h.counter⟩
  refine lockstep_tryCatch (E := Alike (SameFor uid)) (lockstep_mono (E := Alike (SameFor uid))
    (lockstep_alike_bind (together_incrementCounter h) fun _ _ _ h =>
      lockstep_alike_bind (together_readCounter h) fun n _ _ h => ?_) (fun _ _ _ _ h => h) ?_)
  · by_cases hNext : n ≠ next
    · rw [if_pos hNext]
      exact .fail ⟨rfl, h⟩
    · rw [if_neg hNext]
      exact .done ⟨rfl, h⟩
  · rintro e _ _ _ ⟨rfl, h⟩
    refine lockstep_alike_bind (alike_modify (hReload h true)) fun _ _ _ h => ?_
    refine lockstep_alike_bind (together_readCounter h) fun n _ _ h => ?_
    by_cases hNext : n ≠ next
    · rw [if_pos hNext]
      exact .fail ⟨rfl, h⟩
    · rw [if_neg hNext]
      exact alike_modify (hReload h false)

theorem lockstep_encryptDocument (h : SameFor uid w w') {text text' : Bytes}
    (hSize : text.length ≤ 2147483647) (hSize' : text'.length ≤ 2147483647) (generation : UInt64) :
    Lockstep (fun _ => True) (SameFor uid) (fun _ w _ w' => SameFor uid w w') (Alike (SameFor uid))
      (encryptDocument P text generation) w (encryptDocument P text' generation) w' := by
  refine lockstep_atomically fun a _ => ⟨h, ?_⟩
  obtain ⟨e, he⟩ := encrypt_ok P a.nonce generation hSize
  obtain ⟨e', he'⟩ := encrypt_ok P a.nonce generation hSize'
  by_cases hRandom : a.fails .randomBytes = true
  · exact .inr ⟨_, _, if_pos hRandom, if_pos hRandom, rfl, h⟩
  by_cases hCipher : a.fails .cipher = true
  · exact .inr ⟨_, _, (if_neg hRandom).trans (if_pos hCipher),
      (if_neg hRandom).trans (if_pos hCipher), rfl, h⟩
  · exact .inl ⟨e, e', (if_neg hRandom).trans ((if_neg hCipher).trans he),
      (if_neg hRandom).trans ((if_neg hCipher).trans he'), h⟩

theorem together_saveStorage (h : SameFor uid w w') (hm : P.Encodes m) (hm' : P.Encodes m') :
    Together uid (saveStorage P m) w (saveStorage P m') w' := by
  obtain ⟨text, hDump, hSize⟩ := hm
  obtain ⟨text', hDump', hSize'⟩ := hm'
  unfold saveStorage
  rw [hDump, hDump']
  refine lockstep_bind (lockstep_atomically fun _ _ => ⟨h, .inl ⟨_, _, rfl, rfl, ?_⟩⟩)
  rw [h.requiresReload, h.generation]
  by_cases hReload : w.store.requiresReload = true
  · rw [if_pos hReload, if_pos hReload]
    exact .fail ⟨rfl, h⟩
  rw [if_neg hReload, if_neg hReload]
  refine lockstep_alike_bind (together_readCounter h) fun n _ _ h => ?_
  by_cases hSame : n ≠ w.store.generation
  · rw [if_pos hSame, if_pos hSame]
    exact .fail ⟨rfl, h⟩
  by_cases hBound : n = maxUInt64
  · rw [if_neg hSame, if_neg hSame, if_pos hBound, if_pos hBound]
    exact .fail ⟨rfl, h⟩
  rw [if_neg hSame, if_neg hSame, if_neg hBound, if_neg hBound]
  refine lockstep_bind (lockstep_mono (lockstep_encryptDocument h hSize hSize' (n + 1)) ?_
    fun _ _ _ _ h => h)
  intro e _ e' _ h
  refine lockstep_alike_bind (together_atomicWriteFile h e e') fun _ _ _ h => ?_
  refine lockstep_alike_bind (together_advance h (n + 1)) fun _ _ _ h => ?_
  exact alike_modify ⟨h.owned, rfl, h.requiresReload, h.counter⟩

/-- The maps that an operation computes on the two stores. -/
def SameChange (uid : UInt32) (result result' : Except Exn Storage) : Prop :=
  (∃ e, result = .error e ∧ result' = .error e) ∨
    ∃ m m' : Storage, result = .ok m ∧ result' = .ok m' ∧ m'.ownedBy uid = m.ownedBy uid

theorem together_commit {change : CredentialStore → Except Exn Storage} (h : SameFor uid w w')
    (hChange : SameChange uid (change w.store) (change w'.store))
    (hFits : ∀ m, change w.store = .ok m → P.Encodes m)
    (hFits' : ∀ m, change w'.store = .ok m → P.Encodes m) :
    Together uid (commit P change) w (commit P change) w' := by
  unfold commit
  refine lockstep_bind (lockstep_atomically fun _ _ => ⟨h, .inl ⟨_, _, rfl, rfl, ?_⟩⟩)
  rcases hChange with ⟨e, he, he'⟩ | ⟨m, m', hm, hm', hOwned⟩
  · rw [he, he']
    exact .fail ⟨rfl, h⟩
  · rw [hm, hm']
    refine lockstep_bind (.done ?_)
    refine lockstep_alike_bind (together_saveStorage h (hFits m hm) (hFits' m' hm'))
      fun _ _ _ h => ?_
    exact alike_modify ⟨hOwned, h.generation, h.requiresReload, h.counter⟩

theorem ownedBy_erase (m : Storage) (k : Bytes) :
    Storage.ownedBy (m.erase k) uid = fun j => if k = j then none else m.ownedBy uid j := by
  funext j
  rw [Storage.ownedBy, Std.ExtTreeMap.getElem?_erase]
  by_cases hSame : k = j
  · rw [if_pos hSame, if_pos (Std.LawfulEqCmp.compare_eq_iff_eq.mpr hSame)]
    rfl
  · rw [if_neg hSame, if_neg fun h => hSame (Std.LawfulEqCmp.compare_eq_iff_eq.mp h)]
    rfl

theorem ownedBy_insert (m : Storage) (k : Bytes) (c : StoredCredential) :
    Storage.ownedBy (m.insert k c) uid = fun j =>
      if k = j then (some c).filter fun c => c.ownerUid == uid else m.ownedBy uid j := by
  funext j
  rw [Storage.ownedBy, Std.ExtTreeMap.getElem?_insert]
  by_cases hSame : k = j
  · rw [if_pos hSame, if_pos (Std.LawfulEqCmp.compare_eq_iff_eq.mpr hSame)]
  · rw [if_neg hSame, if_neg fun h => hSame (Std.LawfulEqCmp.compare_eq_iff_eq.mp h)]
    rfl

theorem SameFor.afterErase (h : SameFor uid w w') (credentialId : Bytes) :
    SameChange uid (w.store.afterErase credentialId uid)
      (w'.store.afterErase credentialId uid) := by
  unfold CredentialStore.afterErase
  rw [h.getByCredId]
  cases w.store.getByCredId credentialId uid with
  | error e => exact .inl ⟨e, rfl, rfl⟩
  | ok c =>
    refine .inr ⟨_, _, rfl, rfl, ?_⟩
    rw [ownedBy_erase, ownedBy_erase, h.owned]

theorem SameFor.afterIncrement (h : SameFor uid w w') (credId : Bytes) :
    SameChange uid (w.store.afterIncrement credId uid) (w'.store.afterIncrement credId uid) := by
  unfold CredentialStore.afterIncrement
  rw [h.getByCredId]
  cases w.store.getByCredId credId uid with
  | error e => exact .inl ⟨e, rfl, rfl⟩
  | ok c =>
    by_cases hLast : c.signCount = 4294967295
    · exact .inl ⟨_, if_pos hLast, if_pos hLast⟩
    · refine .inr ⟨_, _, if_neg hLast, if_neg hLast, ?_⟩
      rw [ownedBy_insert, ownedBy_insert, h.owned]

variable {store : CredentialStore}

theorem afterErase_textual {credentialId : Bytes} (hTextual : store.stored.Textual)
    (h : store.afterErase credentialId uid = .ok m) : m.Textual := by
  obtain ⟨_, -, h⟩ := bind_eq_ok.mp h
  cases h
  intro k c hc
  rw [Std.ExtTreeMap.getElem?_erase] at hc
  split at hc
  · cases hc
  · exact hTextual k c hc

theorem afterIncrement_textual {credId : Bytes} (hTextual : store.stored.Textual)
    (h : store.afterIncrement credId uid = .ok m) : m.Textual := by
  obtain ⟨c, -, hIn, -, -, rfl⟩ := afterIncrement_ok h
  obtain ⟨hRp, hName, hDisplay⟩ := hTextual _ c hIn
  exact hTextual.insert ⟨hRp, hName, hDisplay⟩

end Updates

/-! ## Isolation -/

/-- The map that a call saves, if it gets that far. -/
def StoreCall.saves (ownerUid : UInt32) : StoreCall → CredentialStore → Option Storage
  | put cred, store => (store.afterPut cred ownerUid).toOption
  | erase credentialId, store => (store.afterErase credentialId ownerUid).toOption
  | incrementSigCount credId, store => (store.afterIncrement credId ownerUid).toOption
  | _, _ => none

/-- The document that a call saves is not too large for the cipher. -/
def StoreCall.Fits (P : Platform) (ownerUid : UInt32) (call : StoreCall) (store : CredentialStore) :
    Prop :=
  ∀ m text, call.saves ownerUid store = some m →
    P.dump (storageDocument (P.iterate m)) = some text → text.length ≤ 2147483647

def StoreCall.isPut : StoreCall → Bool
  | put _ => true
  | _ => false

/-- A store that a run of the daemon can have in memory. -/
def Reachable (P : Platform) (w : World) : Prop :=
  ∃ h, Service.Steps (storeService P) Service.nobody (fun _ _ => True) fresh ⟨.ready, w, h⟩

section Isolation

variable {P : Platform} {uid : UInt32} {w w' : World}

theorem Reachable.valid (hP : P.Lawful) (h : Reachable P w) : w.store.stored.Valid := by
  obtain ⟨_, hRun⟩ := h
  have hReady : ReadyInv P w _ := holds_of_steps hP hRun
  rw [hReady.stored]
  exact hReady.inv.valid

theorem Reachable.textual (hP : P.Lawful) (hParse : P.ParsesUtf8) (h : Reachable P w) :
    w.store.stored.Textual := by
  obtain ⟨_, hRun⟩ := h
  exact textual_of_steps hP hParse hRun

/-- UTF-8 is written, if it is not too large. -/
theorem encodes_of_textual (hP : P.Lawful) (hDump : P.DumpsText) {m : Storage}
    (hTextual : m.Textual)
    (hSize : ∀ text, P.dump (storageDocument (P.iterate m)) = some text →
      text.length ≤ 2147483647) : P.Encodes m := by
  obtain ⟨text, hText⟩ := hDump (P.iterate m) fun item hItem =>
    hTextual item.1 item.2 ((mem_iterate hP).mp hItem)
  exact ⟨text, hText, hSize text hText⟩

theorem together_update {p p' : StoreProc Unit} (h : Together uid p w p' w') :
    Together uid (update p) w (update p') w' :=
  lockstep_alike_bind h fun _ _ _ h => .done ⟨rfl, h⟩

theorem together_query {ask ask' : CredentialStore → Except Exn StoreResult} (h : SameFor uid w w')
    (hAsk : ask' w'.store = ask w.store) : Together uid (query ask) w (query ask') w' :=
  alike_observe h fun _ _ => hAsk

theorem together_run (hP : P.Lawful) (hDump : P.DumpsText) (hParse : P.ParsesUtf8)
    (hReached : Reachable P w) (hReached' : Reachable P w') (h : SameFor uid w w')
    (call : StoreCall) (hPut : call.isPut = false) (hFits : call.Fits P uid w.store)
    (hFits' : call.Fits P uid w'.store) :
    Together uid (call.run P uid) w (call.run P uid) w' := by
  have hTextual := hReached.textual hP hParse
  have hTextual' := hReached'.textual hP hParse
  have hSize {call : StoreCall} {store : CredentialStore} {m : Storage}
      {result : Except Exn Storage} (hFits : call.Fits P uid store)
      (hSaves : call.saves uid store = result.toOption) (hm : result = .ok m) (text : Bytes)
      (hText : P.dump (storageDocument (P.iterate m)) = some text) : text.length ≤ 2147483647 := by
    refine hFits m text ?_ hText
    rw [hSaves, hm]
    rfl
  cases call with
  | has credId =>
    unfold StoreCall.run
    refine together_query h ?_
    rw [h.has]
  | hasForRp credId rpId =>
    unfold StoreCall.run
    refine together_query h ?_
    rw [h.hasForRp]
  | getByCredId credId =>
    unfold StoreCall.run
    refine together_query h ?_
    rw [h.getByCredId]
  | findForAssertion rpId allowList =>
    unfold StoreCall.run
    refine together_query h ?_
    rw [h.findForAssertion hP (hReached.valid hP) (hReached'.valid hP)]
  | put cred => cases hPut
  | erase credentialId =>
    refine together_update (together_commit h (h.afterErase credentialId) ?_ ?_)
    · exact fun m hm => encodes_of_textual hP hDump (afterErase_textual hTextual hm)
        (hSize hFits rfl hm)
    · exact fun m hm => encodes_of_textual hP hDump (afterErase_textual hTextual' hm)
        (hSize hFits' rfl hm)
  | incrementSigCount credId =>
    refine together_update (together_commit h (h.afterIncrement credId) ?_ ?_)
    · exact fun m hm => encodes_of_textual hP hDump (afterIncrement_textual hTextual hm)
        (hSize hFits rfl hm)
    · exact fun m hm => encodes_of_textual hP hDump (afterIncrement_textual hTextual' hm)
        (hSize hFits' rfl hm)

end Isolation

/-- **Users are isolated.** Any sequence of calls of one user leaves every credential of the others
in the store as it is, at every point; and a call of the user other than `put` has the same result,
and leaves the same credentials of the user, on any two reachable stores that hold the same for the
user, provided that the documents it saves fit the cipher, which throws at a longer one. -/
theorem users_isolated {P : Platform} (hP : P.Lawful) (hDump : P.DumpsText) (hParse : P.ParsesUtf8)
    (uid : UInt32) :
    (∀ (w : World) (calls : List StoreCall) (inputs : List Answer) (k : Bytes)
      (c : StoredCredential), w.store.stored[k]? = some c → c.ownerUid ≠ uid →
        (Proc.run inputs (runAll P uid calls) w).2.store.stored[k]? = some c) ∧
    (∀ w w' : World, Reachable P w → Reachable P w' → SameFor uid w w' →
      ∀ call : StoreCall, call.isPut = false → call.Fits P uid w.store → call.Fits P uid w'.store →
        (∀ inputs : List Answer, (Proc.run inputs (call.run P uid) w).1.outcome? =
            (Proc.run inputs (call.run P uid) w').1.outcome? ∧
          SameFor uid (Proc.run inputs (call.run P uid) w).2
            (Proc.run inputs (call.run P uid) w').2) ∧
        ∀ stream : Nat → Answer, ∃ n,
          (Proc.run ((List.range n).map stream) (call.run P uid) w).1.outcome?.isSome) ∧
    ∀ (text : Bytes) (generation : UInt64) (iv : Nonce), 2147483647 < text.length →
      encrypt P iv text generation =
        .error (.lengthError "credential plaintext is too large for OpenSSL") := by
  refine ⟨?_, ?_, fun text generation iv => encrypt_error P iv generation⟩
  · intro w calls inputs k c hc hOther
    have hRuns : wp (othersKept w.store.stored uid) (fun _ _ => True) (fun _ _ => True)
        (runAll P uid calls) w := wp_others_runAll calls fun _ _ hc _ => hc
    have hKept := (wp_run hRuns (fun _ _ hc _ => hc) inputs fun _ _ => trivial).1
    exact hKept k c hc hOther
  · intro w w' hReached hReached' h call hPut hFits hFits'
    have hTogether := together_run hP hDump hParse hReached hReached' h call hPut hFits hFits'
    constructor
    · intro inputs
      obtain ⟨hSame, hRest⟩ := lockstep_run hTogether h inputs fun _ _ => trivial
      exact ⟨hRest.outcome_eq, hSame⟩
    · exact fun stream => lockstep_run_stream hTogether stream fun _ => trivial

/-! ## Two users of one store -/

/-- A credential of the first user, whose counter has this value. -/
def ownCredential (count : UInt32) : StoredCredential :=
  { sampleCredential with signCount := count, discoverable := false }

/-- A credential of the second user, under a display name of this length. -/
def bystander (n : Nat) : StoredCredential :=
  { longNamed n with
    id := List.replicate 16 8, ownerUid := 1001, discoverable := false, creationOrder := 2 }

def sharedMap (count : UInt32) (n : Nat) : Storage :=
  (single (ownCredential count)).insert (hexEncode (bystander n).id) (bystander n)

theorem toList_sharedMap (count : UInt32) (n : Nat) : (sharedMap count n).toList =
    [(hexEncode (ownCredential count).id, ownCredential count),
      (hexEncode (bystander n).id, bystander n)] := rfl

theorem afterPut_own :
    CredentialStore.afterPut {} (ownCredential 9) 1000 = .ok (single (ownCredential 9)) := rfl

theorem afterPut_bystander (n : Nat) :
    CredentialStore.afterPut { stored := single (ownCredential 9), generation := 1 } (bystander n)
      1001 = .ok (sharedMap 9 n) := rfl

theorem afterIncrement_shared (n : Nat) :
    CredentialStore.afterIncrement { stored := sharedMap 9 n, generation := 2 }
      (ownCredential 9).id 1000 = .ok (sharedMap 10 n) := rfl

theorem ownCredential_textual (count : UInt32) : (ownCredential count).Textual where
  rpId := ⟨"example.org".toList, show sampleCredential.rpId = _ by decide⟩
  userName := ⟨"alice".toList, show sampleCredential.userName = _ by decide⟩
  userDisplayName := ⟨"Alice".toList, show sampleCredential.userDisplayName = _ by decide⟩

theorem bystander_textual (n : Nat) : (bystander n).Textual := by
  obtain ⟨hRp, hName, hDisplay⟩ := longNamed_textual n
  exact ⟨hRp, hName, hDisplay⟩

theorem sharedMap_textual (count : UInt32) (n : Nat) : (sharedMap count n).Textual :=
  (single_textual (ownCredential_textual count)).insert (bystander_textual n)

/-- The length of the document. -/
def sharedLength (count : UInt32) (n : Nat) : Nat :=
  (storageDocument (sharedMap count n).toList).render.length

theorem sharedLength_eq (count : UInt32) (n : Nat) :
    sharedLength count n = sharedLength count 0 + n := by
  have hEscape : Json.escape 97 = [97] := by decide
  have hQuote (n : Nat) : (Json.quote (List.replicate n 97)).length = n + 2 := by
    simp [Json.quote, hEscape]
  have hBystander : (credentialDocument (bystander n)).render.length =
      (credentialDocument (bystander 0)).render.length + n := by
    simp only [credentialDocument, Json.render, Json.renderMembers, List.length_append,
      List.length_cons, List.length_nil, bystander, longNamed, hQuote]
    omega
  simp only [sharedLength, toList_sharedMap, storageDocument, List.map_cons, List.map_nil,
    Json.render, Json.renderElements, List.length_append, List.length_cons, List.length_nil,
    hBystander]
  omega

theorem utf8Platform_dump (hTextual : m.Textual) :
    utf8Platform.dump (storageDocument (utf8Platform.iterate m)) =
      some (storageDocument m.toList).render :=
  if_pos (allUtf8_storageDocument fun item hItem =>
    hTextual item.1 item.2 ((mem_iterate utf8Platform_lawful).mp hItem))

theorem utf8Platform_encodes (hTextual : m.Textual)
    (hSize : (storageDocument m.toList).render.length ≤ 2147483647) : utf8Platform.Encodes m :=
  ⟨_, utf8Platform_dump hTextual, hSize⟩

/-- A ready store, its counter and the map it holds. -/
structure Holding (P : Platform) (m : Storage) (generation : UInt64) (w : World) : Prop where
  reachable : Reachable P w
  store : w.store = { stored := m, generation }
  counter : w.disk.counter = generation

theorem holding_fresh (P : Platform) : Holding P {} 0 {} :=
  ⟨⟨_, steps_firstStart fun _ => trivial⟩, rfl, rfl⟩

theorem wp_reliable_operation (hP : P.Lawful) (op : Operation) (hValid : w.store.stored.Valid)
    (hReady : w.store.requiresReload = false) (hCounter : w.disk.counter = w.store.generation)
    (hBound : w.store.generation ≠ maxUInt64) (hChange : op.change w.store = .ok m)
    (hEncodes : P.Encodes m) :
    wp (.alone Answer.Succeeds fun _ => True) (fun _ w' => Committed P m w w')
      (fun _ _ => False) (op.run P) w := by
  obtain ⟨text, hDump, hSize⟩ := hEncodes
  have hValids : ∀ m, op.change w.store = .ok m → m.Valid :=
    fun _ hm => Operation.change_valid hValid hm
  have hCommits := wp_commit (C := .alone Answer.Succeeds fun _ => True) hP hValids
    (keeps_alone.mono fun _ _ => trivial)
  have hReturns := wp_reliable_commit (C := .alone Answer.Succeeds fun _ => True) keeps_alone
    (fun _ _ ha => ha) hReady hCounter hBound hChange hDump hSize
  have hBoth : wp (.alone Answer.Succeeds fun _ => True) _ _ (Store.commit P op.change) w :=
    wp_and hCommits hReturns (fun _ _ h => ⟨h, h⟩) (fun _ _ h => ⟨h, h⟩) (fun _ _ h _ => h) id
  rw [Operation.run_eq]
  refine wp_mono hBoth ?_ fun _ _ h => h.2
  rintro _ w' ⟨⟨m', hm, hCommitted⟩, -⟩
  obtain rfl : m = m' := Except.ok.inj (hChange.symm.trans hm)
  exact hCommitted

/-- An operation that is refused, or whose map cannot be written, throws. -/
theorem wp_unencodable {C : Setting World Answer} (hC : C.Keeps fun _ => True) (op : Operation)
    (h : ¬ ∃ m, op.change w.store = .ok m ∧ P.Encodes m) :
    wp C (fun _ _ => False) (fun _ _ => True) (op.run P) w := by
  rw [Operation.run_eq]
  unfold Store.commit saveStorage
  refine wp_bind.mpr (wp_keeps_read hC trivial ?_)
  refine wp_bind.mpr (wp_ofExcept.mpr ⟨fun m hm => ?_, fun _ _ => trivial⟩)
  refine wp_bind.mpr (wp_bind.mpr (wp_keeps_read hC trivial ?_))
  by_cases hReload : w.store.requiresReload = true
  · rw [if_pos hReload]
    trivial
  rw [if_neg hReload]
  refine wp_bind.mpr (wp_keeps_observe hC trivial fun _ _ =>
    ⟨fun counter _ => ?_, fun _ _ => trivial⟩)
  by_cases hCounter : counter ≠ w.store.generation
  · rw [if_pos hCounter]
    trivial
  by_cases hMax : counter = maxUInt64
  · rw [if_neg hCounter, if_pos hMax]
    trivial
  rw [if_neg hCounter, if_neg hMax]
  cases hDump : P.dump (storageDocument (P.iterate m)) with
  | none => trivial
  | some text =>
    refine wp_bind.mpr (wp_keeps_observe hC trivial fun a _ =>
      ⟨fun e he => ?_, fun _ _ => trivial⟩)
    split_ifs at he
    exact (h ⟨m, hm, text, hDump, (encrypt_eq_ok he).1⟩).elim

/-- An operation with all input and output returns exactly if its map can be written. -/
theorem wp_exact_operation (hP : P.Lawful) (op : Operation) (hValid : w.store.stored.Valid)
    (hReady : w.store.requiresReload = false) (hCounter : w.disk.counter = w.store.generation)
    (hBound : w.store.generation ≠ maxUInt64) :
    wp (.alone Answer.Succeeds fun _ => True)
      (fun _ w' => ∃ m, (op.change w.store = .ok m ∧ P.Encodes m) ∧ Committed P m w w')
      (fun _ _ => ¬ ∃ m, op.change w.store = .ok m ∧ P.Encodes m) (op.run P) w := by
  by_cases h : ∃ m, op.change w.store = .ok m ∧ P.Encodes m
  · obtain ⟨m, hChange, hEncodes⟩ := h
    exact wp_mono (wp_reliable_operation hP op hValid hReady hCounter hBound hChange hEncodes)
      (fun _ _ hCommitted => ⟨m, ⟨hChange, hEncodes⟩, hCommitted⟩) fun _ _ hNever => hNever.elim
  · exact wp_mono (wp_unencodable keeps_alone op h) (fun _ _ hNever => hNever.elim) fun _ _ _ => h

theorem Holding.commit (hP : P.Lawful) {m' : Storage} {generation : UInt64}
    (h : Holding P m generation w) (op : Operation)
    (hChange : op.change { stored := m, generation } = .ok m') (hEncodes : P.Encodes m')
    (hBound : generation ≠ maxUInt64) :
    ∃ n w', Proc.run ((List.range n).map fun _ => .success) (op.run P) w = (done (), w') ∧
      Holding P m' (generation + 1) w' := by
  rw [← h.store] at hChange
  have hGeneration : w.store.generation = generation := congrArg CredentialStore.generation h.store
  have hReturns := wp_reliable_operation hP op (h.reachable.valid hP)
    (congrArg CredentialStore.requiresReload h.store) (h.counter.trans hGeneration.symm)
    (hGeneration ▸ hBound) hChange hEncodes
  obtain ⟨n, w', ⟨_, hRun, hCommitted⟩ | ⟨_, -, hNever⟩⟩ :=
    wp_run_stream hReturns (fun _ => .success) fun _ => Answer.success_succeeds
  · obtain ⟨_, hSteps⟩ := h.reachable
    refine ⟨n, w', hRun, ⟨_, hSteps.trans (Service.steps_call (k := .update op) rfl
      (fun _ _ => trivial) hRun _)⟩, ?_, ?_⟩
    · rw [hCommitted.store, h.store]
    · rw [hCommitted.counter, hGeneration]
  · exact hNever.elim

/-- Both users have registered. -/
theorem exists_shared (hSize : sharedLength 9 n ≤ 2147483647) :
    ∃ w, Holding utf8Platform (sharedMap 9 n) 2 w := by
  have hOwn : utf8Platform.Encodes (single (ownCredential 9)) :=
    utf8Platform_encodes (single_textual (ownCredential_textual 9)) (by decide +kernel)
  have hBoth : utf8Platform.Encodes (sharedMap 9 n) :=
    utf8Platform_encodes (sharedMap_textual 9 n) hSize
  obtain ⟨_, w, -, hFirst⟩ := (holding_fresh utf8Platform).commit utf8Platform_lawful
    (.put (ownCredential 9) 1000) afterPut_own hOwn (by decide)
  obtain ⟨_, w', -, hSecond⟩ := hFirst.commit utf8Platform_lawful (.put (bystander n) 1001)
    (afterPut_bystander n) hBoth (by decide)
  exact ⟨w', hSecond⟩

/-- The second user's name makes no difference to the first user. -/
theorem sameFor_shared {n' : Nat} {w' : World} (h : Holding utf8Platform (sharedMap 9 n) 2 w)
    (h' : Holding utf8Platform (sharedMap 9 n') 2 w') : SameFor 1000 w w' := by
  refine ⟨?_, ?_, ?_, h'.counter.trans h.counter.symm⟩
  · rw [h.store, h'.store, sharedMap, sharedMap, ownedBy_insert, ownedBy_insert]
    rfl
  · rw [h.store, h'.store]
  · rw [h.store, h'.store]

theorem fits_shared (h : Holding utf8Platform (sharedMap 9 n) 2 w)
    (hSize : sharedLength 10 n ≤ 2147483647) :
    StoreCall.Fits utf8Platform 1000 (.incrementSigCount (ownCredential 9).id) w.store := by
  intro m text hSaves hText
  rw [h.store, StoreCall.saves, afterIncrement_shared] at hSaves
  cases hSaves
  rw [utf8Platform_dumpsCompact _ _ hText]
  exact hSize

theorem users_isolated_shared : ∃ w w', Holding utf8Platform (sharedMap 9 0) 2 w ∧
    Holding utf8Platform (sharedMap 9 1) 2 w' ∧ ∀ inputs,
      let call : StoreProc StoreResult :=
        StoreCall.run utf8Platform 1000 (.incrementSigCount (ownCredential 9).id)
      (Proc.run inputs call w).1.outcome? = (Proc.run inputs call w').1.outcome? ∧
        SameFor 1000 (Proc.run inputs call w).2 (Proc.run inputs call w').2 := by
  obtain ⟨w, h⟩ := exists_shared (n := 0) (by decide +kernel)
  obtain ⟨w', h'⟩ := exists_shared (n := 1) (by decide +kernel)
  refine ⟨w, w', h, h', fun inputs => ?_⟩
  exact ((users_isolated utf8Platform_lawful utf8Platform_dumpsText utf8Platform_parsesUtf8 1000).2.1
    w w' h.reachable h'.reachable (sameFor_shared h h') _ rfl (fits_shared h (by decide +kernel))
    (fits_shared h' (by decide +kernel))).1 inputs

/-- A document over the limit is refused by the cipher. -/
theorem wp_oversized_saveStorage {text : Bytes} (hReady : w.store.requiresReload = false)
    (hCounter : w.disk.counter = w.store.generation) (hBound : w.store.generation ≠ maxUInt64)
    (hDump : P.dump (storageDocument (P.iterate m)) = some text)
    (hSize : 2147483647 < text.length) :
    wp (.alone Answer.Succeeds fun _ => True) (fun _ _ => False)
      (fun e _ => e = .lengthError "credential plaintext is too large for OpenSSL")
      (saveStorage P m) w := by
  have hReliable : Reliable (.alone Answer.Succeeds fun _ => True) := fun _ _ ha => ha
  unfold saveStorage
  refine wp_bind.mpr (wp_keeps_read keeps_alone trivial ?_)
  rw [hReady, if_neg Bool.false_ne_true]
  refine wp_bind.mpr (wp_reliable_readCounter keeps_alone hReliable ?_)
  rw [if_neg (not_not.mpr hCounter), hCounter, if_neg hBound, hDump]
  refine wp_bind.mpr (wp_keeps_observe keeps_alone trivial fun a ha => ?_)
  rw [hReliable.fails_eq ha, hReliable.fails_eq ha, if_neg Bool.false_ne_true,
    if_neg Bool.false_ne_true, encrypt_error P a.nonce _ hSize]
  exact ⟨nofun, fun e he => (Except.error.inj he).symm⟩

theorem wp_oversized_increment (h : Holding utf8Platform (sharedMap 9 n) 2 w)
    (hSize : 2147483647 < sharedLength 10 n) :
    wp (.alone Answer.Succeeds fun _ => True) (fun _ _ => False)
      (fun e _ => e = .lengthError "credential plaintext is too large for OpenSSL")
      (incrementSigCount utf8Platform (ownCredential 9).id 1000) w := by
  have hChange : w.store.afterIncrement (ownCredential 9).id 1000 = .ok (sharedMap 10 n) := by
    rw [h.store]
    exact afterIncrement_shared n
  refine wp_bind.mpr (wp_keeps_read keeps_alone trivial ?_)
  refine wp_bind.mpr (wp_ofExcept.mpr ⟨fun m hm => ?_, fun e he => ?_⟩)
  · obtain rfl : sharedMap 10 n = m := Except.ok.inj (hChange.symm.trans hm)
    refine wp_seq (wp_oversized_saveStorage ?_ ?_ ?_
      (utf8Platform_dump (sharedMap_textual 10 n)) hSize) (fun _ _ h => h.elim) fun _ _ h => h
    · rw [h.store]
    · rw [h.store, h.counter]
    · rw [h.store]
      exact (by decide : (2 : UInt64) ≠ maxUInt64)
  · cases hChange.symm.trans he

/-- The second user's name can be so long that the first user's counter, when it gets a second
digit, makes the document one byte too long. -/
theorem shared_capacity_observed : ∃ (n : Nat) (w w' : World),
    Holding utf8Platform (sharedMap 9 0) 2 w ∧ Holding utf8Platform (sharedMap 9 n) 2 w' ∧
    SameFor 1000 w w' ∧
    (∃ k w₁, Proc.run ((List.range k).map fun _ => Answer.success)
      (incrementSigCount utf8Platform (ownCredential 9).id 1000) w = (done (), w₁)) ∧
    ∃ k w₁, Proc.run ((List.range k).map fun _ => Answer.success)
      (incrementSigCount utf8Platform (ownCredential 9).id 1000) w' =
        (fail (.lengthError "credential plaintext is too large for OpenSSL"), w₁) := by
  have hNine : sharedLength 9 0 ≤ 2147483647 := by decide +kernel
  have hTen : sharedLength 10 0 = sharedLength 9 0 + 1 := by decide +kernel
  have hFits : sharedLength 10 0 ≤ 2147483647 := by decide +kernel
  obtain ⟨n, hn⟩ := Nat.exists_eq_add_of_le hNine
  have hLast : sharedLength 9 n = 2147483647 := (sharedLength_eq 9 n).trans hn.symm
  have hOver : 2147483647 < sharedLength 10 n := by
    rw [sharedLength_eq, hTen]
    omega
  obtain ⟨w, h⟩ := exists_shared hNine
  obtain ⟨w', h'⟩ := exists_shared (Nat.le_of_eq hLast)
  refine ⟨n, w, w', h, h', sameFor_shared h h', ?_, ?_⟩
  · obtain ⟨k, w₁, hRun, -⟩ := h.commit utf8Platform_lawful
      (.incrementSigCount (ownCredential 9).id 1000) (afterIncrement_shared 0)
      (utf8Platform_encodes (sharedMap_textual 10 0) hFits) (by decide)
    exact ⟨k, w₁, hRun⟩
  · obtain ⟨k, w₁, ⟨_, -, hNever⟩ | ⟨e, hRun, rfl⟩⟩ := wp_run_stream
      (wp_oversized_increment h' hOver) (fun _ => .success) fun _ => Answer.success_succeeds
    · exact hNever.elim
    · exact ⟨k, w₁, hRun⟩

end VAuth.Store
