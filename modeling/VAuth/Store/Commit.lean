import VAuth.Store.CredentialStore

/-!
# What a save leaves behind

`wp_saveStorage` lists the states in which `save_storage` can stop. Until the rename
nothing the store relies on has changed (`Untouched`). After it the new envelope is the
file (`Installed`), and the counter and the memory are in one of a few states, depending
on where the call stops. Everything said about whole runs of the store rests on this
list and on the matching one for `load` (`Store.Load`).
-/

namespace VAuth.Store

open Proc

/-! ## Envelopes and maps -/

/-- The envelope `e` holds the map `m` at generation `g`. -/
def Seals (P : Platform) (e : Bytes) (g : UInt64) (m : Storage) : Prop :=
  ∃ text, decrypt P e = .ok { generation := g, plaintext := text } ∧ parsePlaintext P text = .ok m

variable {g : UInt64}

theorem Seals.unique {P : Platform} {e : Bytes} {g' : UInt64} {m m' : Storage} (h : Seals P e g m)
    (h' : Seals P e g' m') : g = g' ∧ m = m' := by
  obtain ⟨text, hDecrypt, hParse⟩ := h
  obtain ⟨text', hDecrypt', hParse'⟩ := h'
  rw [hDecrypt] at hDecrypt'
  cases hDecrypt'
  rw [hParse] at hParse'
  cases hParse'
  exact ⟨rfl, rfl⟩

theorem seals_encrypt {P : Platform} (hP : P.Lawful) {m : Storage} (hm : m.Valid) {text e : Bytes}
    {iv : Nonce} (hDump : P.dump (storageDocument (P.iterate m)) = some text)
    (hEncrypt : encrypt P iv text g = .ok e) : Seals P e g m := by
  refine ⟨text, decrypt_encrypt hP hEncrypt, ?_⟩
  rw [parsePlaintext, hP.parse_dump _ _ hDump]
  exact parseStorage_document hm (hP.iterate_perm m)

theorem toNat_succ (h : g ≠ maxUInt64) : (g + 1).toNat = g.toNat + 1 := by
  have hNe : g.toNat ≠ 18446744073709551615 := fun hEq => h (UInt64.toNat_inj.mp hEq)
  have hLt := g.toNat_lt
  rw [UInt64.toNat_add]
  exact Nat.mod_eq_of_lt (show g.toNat + 1 < 2 ^ 64 by omega)

theorem succ_ne_self (g : UInt64) : g + 1 ≠ g := by
  intro h
  have hNat := congrArg UInt64.toNat h
  have hLt := g.toNat_lt
  rw [UInt64.toNat_add, show (1 : UInt64).toNat = 1 from rfl] at hNat
  omega

/-! ## The states of a save -/

/-- Nothing the store relies on has changed since `w₀`. -/
structure Untouched (w₀ w : World) : Prop where
  file : w.disk.file = w₀.disk.file
  counter : w.disk.counter = w₀.disk.counter
  store : w.store = w₀.store
  directory : w₀.disk.directory = true → w.disk.directory = true
  written : w₀.disk.written <+: w.disk.written

/-- The save started from a ready store whose generation is the counter's. -/
structure Startable (w₀ : World) : Prop where
  ready : w₀.store.requiresReload = false
  counter : w₀.disk.counter = w₀.store.generation
  bound : w₀.store.generation ≠ maxUInt64

/-- The envelope of `m` has become the store file. -/
structure Installed (P : Platform) (m : Storage) (w₀ w : World) : Prop where
  startable : Startable w₀
  file : ∃ e, w.disk.file = some e ∧ e ∈ w.disk.written ∧ Seals P e (w₀.store.generation + 1) m
  directory : w.disk.directory = true
  written : w₀.disk.written <+: w.disk.written

/-- The counter is where it was or one further. -/
def CounterNear (w₀ w : World) : Prop :=
  w.disk.counter = w₀.store.generation ∨ w.disk.counter = w₀.store.generation + 1

/-- Where a save can be interrupted. -/
def SaveReaches (P : Platform) (m : Storage) (w₀ w : World) : Prop :=
  Untouched w₀ w ∨ Installed P m w₀ w ∧ CounterNear w₀ w

/-- Where a save can throw. `late` says that a call on the directory failed after the
rename. -/
inductive SaveFails (P : Platform) (m : Storage) (late : Prop) (w₀ w : World) : Prop
  | untouched (h : Untouched w₀ w)
  | silent (hLate : late) (h : Installed P m w₀ w)
      (hCounter : w.disk.counter = w₀.store.generation) (hStore : w.store = w₀.store)
  | flagged (h : Installed P m w₀ w) (hCounter : CounterNear w₀ w)
      (hStore : w.store = { w₀.store with requiresReload := true })

/-- Where a save returns. -/
structure Saved (P : Platform) (m : Storage) (w₀ w : World) : Prop where
  installed : Installed P m w₀ w
  counter : w.disk.counter = w₀.store.generation + 1
  store : w.store = { w₀.store with generation := w₀.store.generation + 1 }

theorem Untouched.refl (w : World) : Untouched w w where
  file := rfl
  counter := rfl
  store := rfl
  directory := id
  written := List.prefix_refl _

/-! ## The rules for one system call -/

section Rules

variable {α : Type} {C : Setting World Answer} {I : World → Prop} {E : Exn → World → Prop}
  {w : World} {Q : Unit → World → Prop}

theorem wp_syscall {call : Syscall} {e : Exn} {effect : World → World} (hC : C.Keeps I) (hI : I w)
    (hFail : ∀ a, C.admits w a → a.fails call = true → E e w) (hEffect : I (effect w))
    (hQ : Q () (effect w)) : wp C Q E (syscall call e effect) w := by
  refine wp_keeps_atomically hC fun a ha => ?_
  cases hCall : a.fails call with
  | true => simpa [hCall] using ⟨hI, hFail a ha hCall⟩
  | false => simpa [hCall] using ⟨hEffect, fun _ => hQ⟩

theorem wp_touch {call : Syscall} {e : Exn} (hC : C.Keeps I) (hI : I w)
    (hFail : ∀ a, C.admits w a → a.fails call = true → E e w) (hQ : Q () w) :
    wp C Q E (touch call e) w :=
  wp_syscall hC hI hFail hI hQ

theorem wp_statDirectory (hC : C.Keeps I) (hI : I w) (hE : ∀ e, E e w) (hQ : Q () w) :
    wp C Q E statDirectory w :=
  wp_keeps_observe hC hI fun _ _ => ⟨fun _ _ => hQ, fun e _ => hE e⟩

theorem wp_readCounter {Q : UInt64 → World → Prop} (hC : C.Keeps I) (hI : I w) (hE : ∀ e, E e w)
    (hQ : Q w.disk.counter w) : wp C Q E readCounter w := by
  refine wp_keeps_observe hC hI fun a _ => ⟨?_, fun e _ => hE e⟩
  intro n hn
  split at hn
  · cases hn
  · cases hn
    exact hQ

theorem wp_incrementCounter (hC : C.Keeps I) (hI : I w)
    (hStep : I { w with disk.counter := w.disk.counter + 1 }) (hE : ∀ e, E e w)
    (hEStep : ∀ e, E e { w with disk.counter := w.disk.counter + 1 })
    (hQ : Q () { w with disk.counter := w.disk.counter + 1 }) : wp C Q E incrementCounter w := by
  refine wp_keeps_atomically hC fun a _ => ?_
  cases hIncrement : a.increment with
  | succeeds => simpa [hIncrement] using ⟨hStep, fun _ => hQ⟩
  | failsWithoutEffect => simpa [hIncrement] using ⟨hI, hE _⟩
  | failsAfterAdvance => simpa [hIncrement] using ⟨hStep, hEStep _⟩

end Rules

/-! ## Replacing the file -/

section Save

variable {P : Platform} {m : Storage} {C : Setting World Answer} {w₀ w : World}

/-- Some call on the directory fails after a rename. -/
def DirectoryFails (C : Setting World Answer) : Prop :=
  ∃ w a, C.admits w a ∧ (a.fails .fsyncDirectory = true ∨ a.fails .closeDirectory = true)

/-- The new envelope is the file, and nothing else has happened yet. -/
structure JustInstalled (P : Platform) (m : Storage) (w₀ w : World) : Prop where
  installed : Installed P m w₀ w
  counter : w.disk.counter = w₀.store.generation
  store : w.store = w₀.store

theorem JustInstalled.reaches (h : JustInstalled P m w₀ w) : SaveReaches P m w₀ w :=
  .inr ⟨h.installed, .inl h.counter⟩

section

variable (hC : C.Keeps (SaveReaches P m w₀))
include hC

theorem wp_replaceStore {e : Bytes} (hStart : Startable w₀)
    (hSeals : Seals P e (w₀.store.generation + 1) m) (h : Untouched w₀ w)
    (hDirectory : w.disk.directory = true) :
    wp C (fun _ w' => JustInstalled P m w₀ w') (fun _ w' => Untouched w₀ w') (replaceStore e) w := by
  simp only [replaceStore, writeAll, bind_eq, wp_bind]
  refine wp_touch hC (.inl h) (fun _ _ _ => h) ?_
  have hWritten : Untouched w₀ { w with
      disk.temporary := some e, disk.written := w.disk.written ++ [e] } :=
    { h with written := h.written.trans (List.prefix_append _ _) }
  refine wp_syscall hC (.inl h) (fun _ _ _ => h) (.inl hWritten) ?_
  refine wp_touch hC (.inl hWritten) (fun _ _ _ => hWritten) ?_
  refine wp_touch hC (.inl hWritten) (fun _ _ _ => hWritten) ?_
  have hInstalled : JustInstalled P m w₀ { w with
      disk.file := some e, disk.temporary := none, disk.written := w.disk.written ++ [e] } :=
    { installed :=
        { startable := hStart
          file := ⟨e, rfl, List.mem_append_right _ List.mem_cons_self, hSeals⟩
          directory := hDirectory
          written := hWritten.written }
      counter := h.counter.trans hStart.counter
      store := h.store }
  exact wp_syscall hC (.inl hWritten) (fun _ _ _ => hWritten) hInstalled.reaches hInstalled

theorem wp_atomicWriteFile {e : Bytes} (hStart : Startable w₀)
    (hSeals : Seals P e (w₀.store.generation + 1) m) (h : Untouched w₀ w) :
    wp C (fun _ w' => JustInstalled P m w₀ w')
      (fun _ w' => Untouched w₀ w' ∨ DirectoryFails C ∧ JustInstalled P m w₀ w')
      (atomicWriteFile e) w := by
  simp only [atomicWriteFile, openStoreDirectory, prepareStoreDirectory, createTemporaryFile,
    bind_eq, wp_bind, tryCatch_eq, wp_tryCatch]
  have hMade : Untouched w₀ { w with disk.directory := true } := { h with directory := fun _ => rfl }
  refine wp_syscall hC (.inl h) (fun _ _ _ => .inl h) (.inl hMade) ?_
  refine wp_touch hC (.inl hMade) (fun _ _ _ => .inl hMade) ?_
  refine wp_statDirectory hC (.inl hMade) (fun _ => .inl hMade) ?_
  refine wp_touch hC (.inl hMade) (fun _ _ _ => .inl hMade) ?_
  have hCreated : Untouched w₀ { w with disk.directory := true, disk.temporary := some [] } :=
    { hMade with }
  refine wp_syscall hC (.inl hMade) (fun _ _ _ => .inl hMade) (.inl hCreated) ?_
  refine wp_mono (wp_replaceStore hC hStart hSeals hCreated rfl) ?_ ?_
  · intro _ w' h'
    refine wp_touch hC h'.reaches (fun a ha hFails => .inr ⟨⟨w', a, ha, .inl hFails⟩, h'⟩) ?_
    exact wp_touch hC h'.reaches (fun a ha hFails => .inr ⟨⟨w', a, ha, .inr hFails⟩, h'⟩) h'
  · intro _ w' h'
    have hDropped : Untouched w₀ { w' with disk.temporary := none } := { h' with }
    exact wp_keeps_modify hC (.inl hDropped) (.inl hDropped)

/-! ## Advancing the counter -/

theorem wp_advanceCounter (h : JustInstalled P m w₀ w) :
    wp C (fun _ w' => Installed P m w₀ w' ∧ w'.disk.counter = w₀.store.generation + 1 ∧
        w'.store = w₀.store)
      (fun _ w' => Installed P m w₀ w' ∧ CounterNear w₀ w' ∧ w'.store = w₀.store)
      (advanceCounter (w₀.store.generation + 1)) w := by
  rw [advanceCounter, bind_eq, wp_bind]
  have hAdvanced : Installed P m w₀ { w with disk.counter := w.disk.counter + 1 } :=
    { h.installed with }
  have hCounter : w.disk.counter + 1 = w₀.store.generation + 1 := by rw [h.counter]
  have hReaches : SaveReaches P m w₀ { w with disk.counter := w.disk.counter + 1 } :=
    .inr ⟨hAdvanced, .inr hCounter⟩
  refine wp_incrementCounter hC h.reaches hReaches (fun _ => ⟨h.installed, .inl h.counter, h.store⟩)
    (fun _ => ⟨hAdvanced, .inr hCounter, h.store⟩) ?_
  rw [bind_eq, wp_bind]
  refine wp_readCounter hC hReaches (fun _ => ⟨hAdvanced, .inr hCounter, h.store⟩) ?_
  rw [if_neg (not_not.mpr hCounter)]
  exact ⟨hAdvanced, hCounter, h.store⟩

/-- The handler sets `requiresReload`, unless the counter has advanced after all. -/
theorem wp_recheckCounter (e : Exn)
    (hInstalled : Installed P m w₀ w) (hNear : CounterNear w₀ w) (hStore : w.store = w₀.store) :
    wp C (fun _ w' => Installed P m w₀ w' ∧ w'.disk.counter = w₀.store.generation + 1 ∧
        w'.store = w₀.store)
      (fun _ w' => Installed P m w₀ w' ∧ CounterNear w₀ w' ∧
        w'.store = { w₀.store with requiresReload := true })
      (recheckCounter (w₀.store.generation + 1) e) w := by
  have hReady := hInstalled.startable.ready
  have hFlagged : Installed P m w₀ { w with store.requiresReload := true } := { hInstalled with }
  have hFlaggedStore : { w.store with requiresReload := true } =
      { w₀.store with requiresReload := true } := by rw [hStore]
  have hCleared : Installed P m w₀ { w with store.requiresReload := false } := { hInstalled with }
  have hClearedStore : { w.store with requiresReload := false } = w₀.store := by
    rw [hStore, ← hReady]
  rw [recheckCounter, bind_eq, wp_bind]
  refine wp_keeps_modify hC (.inr ⟨hFlagged, hNear⟩) ?_
  rw [bind_eq, wp_bind]
  refine wp_readCounter hC (.inr ⟨hFlagged, hNear⟩) (fun _ => ⟨hFlagged, hNear, hFlaggedStore⟩) ?_
  by_cases hCounter : w.disk.counter = w₀.store.generation + 1
  · rw [if_neg (not_not.mpr hCounter)]
    exact wp_keeps_modify hC (.inr ⟨hCleared, hNear⟩) ⟨hCleared, hCounter, hClearedStore⟩
  · rw [if_pos hCounter]
    exact ⟨hFlagged, hNear, hFlaggedStore⟩

/-- After the rename a failure sets `requiresReload`. -/
theorem wp_advance (h : JustInstalled P m w₀ w) :
    wp C (fun _ w' => Installed P m w₀ w' ∧ w'.disk.counter = w₀.store.generation + 1 ∧
        w'.store = w₀.store)
      (fun _ w' => Installed P m w₀ w' ∧ CounterNear w₀ w' ∧
        w'.store = { w₀.store with requiresReload := true })
      ((advanceCounter (w₀.store.generation + 1)).tryCatch
        (recheckCounter (w₀.store.generation + 1))) w := by
  rw [wp_tryCatch]
  refine wp_mono (wp_advanceCounter hC h) (fun _ _ h' => h') ?_
  rintro e w' ⟨hInstalled, hNear, hStore⟩
  exact wp_recheckCounter hC e hInstalled hNear hStore

end

/-! ## The whole save -/

theorem wp_encryptDocument {text : Bytes} (hP : P.Lawful) (hm : m.Valid)
    (hDump : P.dump (storageDocument (P.iterate m)) = some text) {I : World → Prop}
    (hC : C.Keeps I) (hI : I w) {E : Exn → World → Prop} (hE : ∀ e, E e w) {g : UInt64} :
    wp C (fun e w' => Seals P e g m ∧ w' = w) E (encryptDocument P text g) w := by
  refine wp_keeps_observe hC hI fun a _ => ⟨?_, fun e _ => hE e⟩
  intro e he
  split at he
  · cases he
  · split at he
    · cases he
    · exact ⟨seals_encrypt hP hm hDump he, rfl⟩

/-- **What a save leaves behind**, wherever it stops. -/
theorem wp_saveStorage (hP : P.Lawful) (hm : m.Valid) (hC : C.Keeps (SaveReaches P m w)) :
    wp C (fun _ w' => Saved P m w w') (fun _ w' => SaveFails P m (DirectoryFails C) w w')
      (saveStorage P m) w := by
  have hStart : Untouched w w := .refl w
  rw [saveStorage, bind_eq, wp_bind]
  refine wp_keeps_read hC (.inl hStart) ?_
  cases hReady : w.store.requiresReload with
  | true => exact .untouched hStart
  | false =>
    rw [if_neg Bool.false_ne_true, bind_eq, wp_bind]
    refine wp_readCounter hC (.inl hStart) (fun _ => .untouched hStart) ?_
    by_cases hCounter : w.disk.counter = w.store.generation
    · rw [if_neg (not_not.mpr hCounter)]
      by_cases hBound : w.disk.counter = maxUInt64
      · rw [if_pos hBound]
        exact .untouched hStart
      · rw [if_neg hBound]
        have hStartable : Startable w :=
          { ready := hReady, counter := hCounter, bound := hCounter ▸ hBound }
        cases hDump : P.dump (storageDocument (P.iterate m)) with
        | none => exact .untouched hStart
        | some text =>
          simp only
          rw [hCounter, bind_eq, wp_bind]
          refine wp_mono (wp_encryptDocument hP hm hDump hC (.inl hStart)
            (fun _ => .untouched hStart)) ?_ (fun _ _ h => h)
          rintro e w' ⟨hSeals, rfl⟩
          rw [bind_eq, wp_bind]
          refine wp_mono (wp_atomicWriteFile hC hStartable hSeals hStart) ?_ ?_
          · intro _ w₁ hInstalled
            rw [bind_eq, wp_bind]
            refine wp_mono (wp_advance hC hInstalled) ?_ ?_
            · rintro _ w₂ ⟨hInstalled, hAdvanced, hStore⟩
              have hDone : Installed P m w' { w₂ with
                  store.generation := w'.store.generation + 1 } := { hInstalled with }
              exact wp_keeps_modify hC (.inr ⟨hDone, .inr hAdvanced⟩)
                ⟨hDone, hAdvanced, by rw [hStore]⟩
            · rintro _ w₂ ⟨hInstalled, hNear, hStore⟩
              exact .flagged hInstalled hNear hStore
          · rintro _ w₁ (hUntouched | ⟨hLate, hInstalled⟩)
            · exact .untouched hUntouched
            · exact .silent hLate hInstalled.installed hInstalled.counter hInstalled.store
    · rw [if_pos hCounter]
      exact .untouched hStart

/-! ## An operation -/

/-- Where an operation can be interrupted. -/
def CommitReaches (P : Platform) (change : CredentialStore → Except Exn Storage) (w₀ w : World) :
    Prop :=
  Untouched w₀ w ∨ ∃ m, change w₀.store = .ok m ∧ Installed P m w₀ w ∧ CounterNear w₀ w

/-- An operation that throws, and the map it was to save if it got that far. -/
def CommitFails (P : Platform) (change : CredentialStore → Except Exn Storage) (late : Prop)
    (w₀ w : World) : Prop :=
  Untouched w₀ w ∨ ∃ m, change w₀.store = .ok m ∧ SaveFails P m late w₀ w

variable {change : CredentialStore → Except Exn Storage}

theorem CommitFails.mono {late late' : Prop} (h : CommitFails P change late w₀ w)
    (hLate : late → late') : CommitFails P change late' w₀ w := by
  rcases h with hSame | ⟨m, hChange, hFails⟩
  · exact .inl hSame
  · refine .inr ⟨m, hChange, ?_⟩
    cases hFails with
    | untouched hSame => exact .untouched hSame
    | silent h hInstalled hCounter hStore => exact .silent (hLate h) hInstalled hCounter hStore
    | flagged hInstalled hCounter hStore => exact .flagged hInstalled hCounter hStore

/-- An operation that returns: the changed map is in memory and in the file, one
generation further. -/
structure Committed (P : Platform) (m : Storage) (w₀ w : World) : Prop where
  installed : Installed P m w₀ w
  counter : w.disk.counter = w₀.store.generation + 1
  store : w.store = { w₀.store with stored := m, generation := w₀.store.generation + 1 }

/-- **What an operation leaves behind**, wherever it stops. -/
theorem wp_commit (hP : P.Lawful) (hValid : ∀ m, change w.store = .ok m → m.Valid)
    (hC : C.Keeps (CommitReaches P change w)) :
    wp C (fun _ w' => ∃ m, change w.store = .ok m ∧ Committed P m w w')
      (fun _ w' => CommitFails P change (DirectoryFails C) w w') (commit P change) w := by
  rw [commit, bind_eq, wp_bind]
  refine wp_keeps_read hC (.inl (.refl w)) ?_
  rw [bind_eq, wp_bind, wp_ofExcept]
  refine ⟨fun m hm => ?_, fun _ _ => .inl (.refl w)⟩
  have hSave : C.Keeps (SaveReaches P m w) := by
    refine hC.mono ?_
    rintro w' (hUntouched | ⟨hInstalled, hNear⟩)
    · exact .inl hUntouched
    · exact .inr ⟨m, hm, hInstalled, hNear⟩
  rw [bind_eq, wp_bind]
  refine wp_mono (wp_saveStorage hP (hValid m hm) hSave) ?_ (fun _ _ h => .inr ⟨m, hm, h⟩)
  intro _ w' hSaved
  have hInstalled : Installed P m w { w' with store.stored := m } := { hSaved.installed with }
  exact wp_keeps_modify hC (.inr ⟨m, hm, hInstalled, .inr hSaved.counter⟩)
    ⟨m, hm, hInstalled, hSaved.counter, by rw [hSaved.store]⟩

end Save

end VAuth.Store
