import VAuth.Store.Commit

/-!
# What a load leaves behind

`wp_load` is the counterpart of `wp_saveStorage`: a load changes nothing but the counter,
and that only to catch up with a file that is one generation ahead. It throws only when
some input or output fails or the disk is not one a load accepts (`Loadable`).
-/

namespace VAuth.Store

open Proc

section Load

variable {P : Platform} {C : Setting World Answer} {w w' : World}

theorem checkGeneration_ok_iff {g c : UInt64} :
    checkGeneration g c = .ok () ↔ g = c ∨ g = c + 1 ∧ c ≠ maxUInt64 := by
  unfold checkGeneration
  by_cases hMax : c = maxUInt64
  · subst hMax
    have hLe : g.toNat ≤ maxUInt64.toNat := Nat.le_of_lt_succ g.toNat_lt
    simp only [UInt64.lt_iff_toNat_lt, gt_iff_lt, ← UInt64.toNat_inj, ne_eq, not_true_eq_false,
      and_false, or_false]
    split
    · simp only [reduceCtorEq, false_iff]
      omega
    · rw [if_neg (by omega)]
      simp only [true_iff]
      omega
  · have hSucc := toNat_succ hMax
    simp only [UInt64.lt_iff_toNat_lt, gt_iff_lt, ← UInt64.toNat_inj, ne_eq, hSucc] at hMax ⊢
    split
    · simp only [reduceCtorEq, false_iff]
      omega
    · split
      · simp only [reduceCtorEq, false_iff]
        omega
      · simp only [true_iff]
        omega

/-- The file is one generation ahead of the counter. -/
def Ahead (P : Platform) (disk : Disk) : Prop :=
  ∃ e m, disk.file = some e ∧ Seals P e (disk.counter + 1) m ∧ disk.counter ≠ maxUInt64

/-- What `load` asks of the disk. -/
structure Loadable (P : Platform) (disk : Disk) : Prop where
  absent : disk.file = none → disk.counter = 0
  present : ∀ e, disk.file = some e → e.length ≤ maxStoreSize ∧ ∃ g m, Seals P e g m ∧
    (g = disk.counter ∨ g = disk.counter + 1 ∧ disk.counter ≠ maxUInt64)

/-- No input or output fails. -/
def Reliable (C : Setting World Answer) : Prop := ∀ w a, C.admits w a → a.Succeeds

/-- Where a load can be interrupted: it changes at most the counter, and that only when the
file is ahead. -/
structure LoadReaches (P : Platform) (w₀ w : World) : Prop where
  file : w.disk.file = w₀.disk.file
  directory : w.disk.directory = w₀.disk.directory
  written : w.disk.written = w₀.disk.written
  counter : w.disk.counter = w₀.disk.counter ∨
    Ahead P w₀.disk ∧ w.disk.counter = w₀.disk.counter + 1

/-- Where a load returns: there was no file, or its contents are now in memory and the
counter has its generation. -/
inductive Loaded (P : Platform) (w₀ w : World) : Prop
  | absent (hFile : w₀.disk.file = none) (hZero : w₀.disk.counter = 0)
      (hCounter : w.disk.counter = 0) (hStore : w.store = {})
  | present {e : Bytes} {g : UInt64} {m : Storage} (hFile : w₀.disk.file = some e)
      (hSeals : Seals P e g m) (hCounter : w.disk.counter = g)
      (hFrom : g = w₀.disk.counter ∨ g = w₀.disk.counter + 1 ∧ w₀.disk.counter ≠ maxUInt64)
      (hStore : w.store = { stored := m, generation := g, requiresReload := false })

/-- Where a load throws. It does not when nothing fails and the disk can be loaded. -/
structure LoadFails (P : Platform) (C : Setting World Answer) (w₀ w : World) : Prop where
  reaches : LoadReaches P w₀ w
  store : w.store = w₀.store
  fault : ¬ (Reliable C ∧ Loadable P w₀.disk)

theorem LoadReaches.refl (w : World) : LoadReaches P w w where
  file := rfl
  directory := rfl
  written := rfl
  counter := .inl rfl

variable {a : Answer} {Q : Unit → World → Prop}

theorem checkDirectoryStatus_ok (h : a.Succeeds) :
    checkDirectoryStatus a.directoryStatus = .ok () := by
  simp [checkDirectoryStatus, h.directoryStatus]

theorem checkStoreStatus_ok (h : a.Succeeds) {size : Nat} (hSize : size ≤ maxStoreSize) :
    checkStoreStatus a.storeStatus size = .ok () := by
  simp [checkStoreStatus, h.storeStatus, Nat.not_lt.mpr hSize]

theorem Reliable.fails_eq (h : Reliable C) (ha : C.admits w a) (call : Syscall) :
    a.fails call = false := (h w a ha).fails call

/-- A step that threw, although it does not when all input and output succeeds. -/
theorem LoadFails.of_fault (h : LoadReaches P w w') (hStore : w'.store = w.store)
    (hFault : Reliable C → Loadable P w.disk → False) : LoadFails P C w w' :=
  ⟨h, hStore, fun ⟨hReliable, hLoadable⟩ => hFault hReliable hLoadable⟩

variable (hC : C.Keeps (LoadReaches P w))
include hC

theorem wp_loadTouch {call : Syscall} {e : Exn}
    (h : LoadReaches P w w') (hStore : w'.store = w.store) (hQ : Q () w') :
    wp C Q (fun _ w' => LoadFails P C w w') (touch call e) w' := by
  refine wp_touch hC h (fun a ha hFails => .of_fault h hStore fun hReliable _ => ?_) hQ
  rw [hReliable.fails_eq ha] at hFails
  cases hFails

theorem wp_loadStatDirectory (h : LoadReaches P w w') (hStore : w'.store = w.store) (hQ : Q () w') :
    wp C Q (fun _ w' => LoadFails P C w w') statDirectory w' := by
  refine wp_keeps_observe hC h fun a ha => ⟨fun _ _ => hQ, fun e he => ?_⟩
  refine .of_fault h hStore fun hReliable _ => ?_
  simp [hReliable.fails_eq ha, checkDirectoryStatus_ok (hReliable w' a ha)] at he

theorem wp_loadReadCounter {Q : UInt64 → World → Prop}
    (h : LoadReaches P w w') (hStore : w'.store = w.store) (hQ : Q w'.disk.counter w') :
    wp C Q (fun _ w' => LoadFails P C w w') readCounter w' := by
  refine wp_keeps_observe hC h fun a ha => ⟨fun n hn => ?_, fun e he => ?_⟩
  · split at hn
    · cases hn
    · cases hn
      exact hQ
  · refine .of_fault h hStore fun hReliable _ => ?_
    simp [hReliable.fails_eq ha] at he

theorem wp_findDirectory :
    wp C (fun r w' => r = w.disk.directory ∧ w' = { w with disk.lastRead := none })
      (fun _ w' => LoadFails P C w w') findDirectory w := by
  have hStart : LoadReaches P w w := .refl w
  refine wp_keeps_atomically hC fun a ha => ?_
  cases hOpen : a.fails .openDirectory with
  | true =>
    refine ⟨hStart, nofun, fun _ _ => .of_fault hStart rfl fun hReliable _ => ?_⟩
    rw [hReliable.fails_eq ha] at hOpen
    cases hOpen
  | false =>
    refine ⟨{ hStart with }, fun r hr => ?_, nofun⟩
    cases hr
    exact ⟨rfl, rfl⟩

theorem wp_openStore (h : LoadReaches P w w') (hStore : w'.store = w.store) :
    wp C (fun r w'' => r = w'.disk.file ∧ w'' = { w' with disk.lastRead := w'.disk.file })
      (fun _ w' => LoadFails P C w w') openStore w' := by
  refine wp_keeps_atomically hC fun a ha => ?_
  cases hOpen : a.fails .openStore with
  | true =>
    refine ⟨h, nofun, fun _ _ => .of_fault h hStore fun hReliable _ => ?_⟩
    rw [hReliable.fails_eq ha] at hOpen
    cases hOpen
  | false =>
    refine ⟨{ h with }, fun r hr => ?_, nofun⟩
    cases hr
    exact ⟨rfl, rfl⟩

theorem wp_readStoreFile (hDirectory : w.disk.file ≠ none → w.disk.directory = true) :
    wp C (fun r w' => r = w.disk.file ∧ LoadReaches P w w' ∧ w'.disk.counter = w.disk.counter ∧
        w'.store = w.store)
      (fun _ w' => LoadFails P C w w') readStoreFile w := by
  have hFound : LoadReaches P w { w with disk.lastRead := none } := { LoadReaches.refl w with }
  have hOpened : LoadReaches P w { w with disk.lastRead := w.disk.file } :=
    { LoadReaches.refl w with }
  rw [readStoreFile, bind_eq, wp_bind]
  refine wp_mono (wp_findDirectory hC) ?_ (fun _ _ h => h)
  rintro present w' ⟨hPresent, rfl⟩
  cases present with
  | false =>
    have hNone : w.disk.file = none := by
      by_contra hSome
      rw [← hPresent] at hDirectory
      exact Bool.false_ne_true (hDirectory hSome)
    exact ⟨hNone.symm, hFound, rfl, rfl⟩
  | true =>
    rw [if_neg (by simp), bind_eq, wp_bind]
    refine wp_loadStatDirectory hC hFound rfl ?_
    rw [bind_eq, wp_bind]
    refine wp_mono (wp_openStore hC hFound rfl) ?_ (fun _ _ h => h)
    rintro r w' ⟨hr, rfl⟩
    cases r with
    | none => exact ⟨hr, hOpened, rfl, rfl⟩
    | some contents =>
      simp only [bind_eq, wp_bind]
      refine wp_keeps_observe hC hOpened fun a ha => ⟨fun _ _ => ?_, fun e he => ?_⟩
      · exact wp_loadTouch hC hOpened rfl ⟨hr, hOpened, rfl, rfl⟩
      · refine .of_fault hOpened rfl fun hReliable hLoadable => ?_
        have hSize := (hLoadable.present contents hr.symm).1
        rw [hReliable.fails_eq ha, checkStoreStatus_ok (hReliable _ a ha) hSize] at he
        cases he

/-- The envelope in the file, taken apart. -/
theorem wp_decryptStore {e : Bytes} (hFile : w.disk.file = some e)
    (h : LoadReaches P w w') (hStore : w'.store = w.store) :
    wp C (fun r w'' => decrypt P e = .ok r ∧ w'' = w') (fun _ w' => LoadFails P C w w')
      (decryptStore P e) w' := by
  refine wp_keeps_observe hC h fun a ha => ⟨fun r hr => ?_, fun _ he => ?_⟩
  · split at hr
    · cases hr
    · exact ⟨hr, rfl⟩
  · refine .of_fault h hStore fun hReliable hLoadable => ?_
    obtain ⟨_, g, m, ⟨text, hDecrypt, _⟩, _⟩ := hLoadable.present e hFile
    rw [hReliable.fails_eq ha, if_neg Bool.false_ne_true, hDecrypt] at he
    cases he

theorem wp_recoverCounter {e : Bytes} {g : UInt64} {m : Storage}
    (hFile : w.disk.file = some e) (hSeals : Seals P e g m)
    (hFrom : g = w.disk.counter ∨ g = w.disk.counter + 1 ∧ w.disk.counter ≠ maxUInt64)
    (h : LoadReaches P w w') (hCounter : w'.disk.counter = w.disk.counter)
    (hStore : w'.store = w.store) :
    wp C (fun _ w'' => LoadReaches P w w'' ∧ w''.disk.counter = g ∧ w''.store = w.store)
      (fun _ w' => LoadFails P C w w') (recoverCounter g w.disk.counter) w' := by
  rw [recoverCounter]
  rcases hFrom with rfl | ⟨rfl, hBound⟩
  · rw [if_neg (succ_ne_self w.disk.counter).symm]
    exact ⟨h, hCounter, hStore⟩
  · rw [if_pos rfl, bind_eq, wp_bind]
    have hAdvanced : LoadReaches P w { w' with disk.counter := w'.disk.counter + 1 } :=
      { h with counter := .inr ⟨⟨e, m, hFile, hSeals, hBound⟩, by rw [hCounter]⟩ }
    have hNow : w'.disk.counter + 1 = w.disk.counter + 1 := by rw [hCounter]
    refine wp_keeps_atomically hC fun a ha => ?_
    have hFault : a.increment ≠ .succeeds → Reliable C → Loadable P w.disk → False :=
      fun hNot hReliable _ => hNot (hReliable w' a ha).increment
    cases hIncrement : a.increment with
    | succeeds =>
      refine ⟨hAdvanced, fun _ _ => ?_, nofun⟩
      simp only [bind_eq, wp_bind]
      refine wp_loadReadCounter hC hAdvanced hStore ?_
      rw [if_neg (not_not.mpr hNow)]
      exact ⟨hAdvanced, hNow, hStore⟩
    | failsWithoutEffect =>
      exact ⟨h, nofun, fun _ _ => .of_fault h hStore (hFault (by simp [hIncrement]))⟩
    | failsAfterAdvance =>
      exact ⟨hAdvanced, nofun, fun _ _ =>
        .of_fault hAdvanced hStore (hFault (by simp [hIncrement]))⟩

/-- **What a load leaves behind**, wherever it stops. -/
theorem wp_load (hDirectory : w.disk.file ≠ none → w.disk.directory = true) :
    wp C (fun _ w' => LoadReaches P w w' ∧ Loaded P w w') (fun _ w' => LoadFails P C w w')
      (load P) w := by
  rw [load, bind_eq, wp_bind]
  refine wp_mono (wp_readStoreFile hC hDirectory) ?_ (fun _ _ h => h)
  rintro r w₁ ⟨hFile, hReached, hCounter, hStore⟩
  cases r with
  | none =>
    simp only [bind_eq, wp_bind]
    refine wp_loadReadCounter hC hReached hStore ?_
    by_cases hZero : w₁.disk.counter = 0
    · rw [if_neg (not_not.mpr hZero)]
      have hEnd : LoadReaches P w { w₁ with store := {} } := { hReached with }
      exact wp_keeps_modify hC hEnd ⟨hEnd, .absent hFile.symm (hCounter.symm.trans hZero) hZero rfl⟩
    · rw [if_pos hZero]
      refine .of_fault hReached hStore fun _ hLoadable => hZero ?_
      rw [hCounter, hLoadable.absent hFile.symm]
  | some e =>
    simp only [bind_eq, wp_bind]
    refine wp_mono (wp_decryptStore hC hFile.symm hReached hStore) ?_ (fun _ _ h => h)
    rintro decrypted w₂ ⟨hDecrypt, rfl⟩
    refine wp_loadReadCounter hC hReached hStore ?_
    -- What the file must be for the two checks to pass.
    have hFits : Loadable P w.disk → checkGeneration decrypted.generation w.disk.counter = .ok () ∧
        ∃ m, parsePlaintext P decrypted.plaintext = .ok m := by
      intro hLoadable
      obtain ⟨_, g, m, ⟨text, hOpened, hParse⟩, hFrom⟩ := hLoadable.present e hFile.symm
      rw [hDecrypt] at hOpened
      cases hOpened
      exact ⟨checkGeneration_ok_iff.mpr hFrom, m, hParse⟩
    rw [hCounter, wp_ofExcept]
    refine ⟨fun _ hCheck => ?_, fun _ hCheck => .of_fault hReached hStore fun _ hLoadable => ?_⟩
    · rw [wp_ofExcept]
      refine ⟨fun m hParse => ?_, fun _ hParse => .of_fault hReached hStore fun _ hLoadable => ?_⟩
      · have hFrom := checkGeneration_ok_iff.mp hCheck
        have hSeals : Seals P e decrypted.generation m := ⟨decrypted.plaintext, hDecrypt, hParse⟩
        refine wp_mono (wp_recoverCounter hC hFile.symm hSeals hFrom hReached hCounter hStore) ?_
          (fun _ _ h => h)
        rintro _ w₃ ⟨hRecovered, hNow, _⟩
        have hEnd : LoadReaches P w { w₃ with
            store := { stored := m, generation := decrypted.generation } } := { hRecovered with }
        exact wp_keeps_modify hC hEnd ⟨hEnd, .present hFile.symm hSeals hNow hFrom rfl⟩
      · obtain ⟨_, m, hm⟩ := hFits hLoadable
        rw [hm] at hParse
        cases hParse
    · rw [(hFits hLoadable).1] at hCheck
      cases hCheck

end Load

end VAuth.Store
