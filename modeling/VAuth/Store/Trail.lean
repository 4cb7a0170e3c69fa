import VAuth.Store.FailedWrite
import VAuth.Store.Memory

/-!
# The trail of the store

What a run has written, where the counter stands and what the last load opened. Somebody
who replaces the store file does not change the trail, so what an operation or a load does
to it can be said in their presence.
-/

namespace VAuth.Store

open Proc

structure Trail where
  counter : UInt64
  written : List Bytes
  lastRead : Option Bytes

def World.trail (w : World) : Trail := ⟨w.disk.counter, w.disk.written, w.disk.lastRead⟩

def Trail.wrote (t : Trail) (e : Bytes) : Trail := { t with written := t.written ++ [e] }

def Trail.advanced (t : Trail) : Trail := { t with counter := t.counter + 1 }

/-- The generation an envelope carries, if it is authentic. -/
def generationOf (P : Platform) (e : Bytes) : Option UInt64 :=
  (decrypt P e).toOption.map DecryptedStore.generation

/-- The envelope carries the generation `g`. -/
def Carries (P : Platform) (e : Bytes) (g : UInt64) : Prop := generationOf P e = some g

theorem Carries.unique {P : Platform} {e : Bytes} {g g' : UInt64} (h : Carries P e g)
    (h' : Carries P e g') : g = g' := Option.some.inj (h.symm.trans h')

theorem carries_of_decrypt {P : Platform} {e : Bytes} {d : DecryptedStore}
    (h : decrypt P e = .ok d) : Carries P e d.generation := by
  rw [Carries, generationOf, h]
  rfl

/-- No envelope of the next generation was written. -/
def Unused (P : Platform) (t : Trail) : Prop := ∀ e ∈ t.written, ¬ Carries P e (t.counter + 1)

/-- The writes that succeed use a generation for the first time. -/
def FreshWrites (P : Platform) (w : World) (a : Answer) : Prop :=
  a.fails .write = false → Unused P w.trail

section Trails

variable {P : Platform} {C : Setting World Answer} {I : Trail → Prop} {w : World} {t : Trail}

section

variable (hC : C.Shows World.trail I)
include hC

theorem wp_trail_readCounter (hI : I t) (hw : w.trail = t) :
    wp C (fun n w' => n = t.counter ∧ w'.trail = t) (fun _ w' => w'.trail = t) readCounter w := by
  subst hw
  refine wp_shows_observe hC hI fun w' a hw _ => ⟨fun n hn => ⟨?_, hw⟩, fun _ _ => hw⟩
  rw [← hw]
  split at hn
  · cases hn
  · exact (Except.ok.inj hn).symm

theorem wp_trail_replaceStore {e : Bytes}
    (hFresh : ∀ w a, C.admits w a → FreshWrites P w a) (hI : I t)
    (hWrote : Unused P t → I (t.wrote e)) (hw : w.trail = t) :
    wp C (fun _ w' => Unused P t ∧ w'.trail = t.wrote e)
      (fun _ w' => w'.trail = t ∨ Unused P t ∧ w'.trail = t.wrote e) (replaceStore e) w := by
  rw [replaceStore, writeAll, bind_eq, bind_eq, wp_bind]
  refine wp_still_bind hC hI still_touch hw (fun _ _ h => .inl h) fun _ w₁ h₁ => ?_
  refine wp_shows_atomically hC fun w₂ a h₂ ha => ?_
  have hTrail : w₂.trail = t := h₂.trans h₁
  cases hCall : a.fails .write with
  | true => exact ⟨hTrail ▸ hI, fun _ hOk => (by cases hOk), fun _ _ => .inl hTrail⟩
  | false =>
    have hUnused : Unused P t := hTrail ▸ hFresh w₂ a ha hCall
    have hNow : World.trail { w₂ with
        disk.temporary := some e, disk.written := w₂.disk.written ++ [e] } = t.wrote e := by
      rw [← hTrail]
      rfl
    refine ⟨hNow ▸ hWrote hUnused, fun _ _ => ?_, fun _ hError => by cases hError⟩
    refine wp_mono (wp_still hC (hWrote hUnused) ?_ hNow) (fun _ _ h => ⟨hUnused, h⟩)
      (fun _ _ h => .inr ⟨hUnused, h⟩)
    exact still_bind still_touch fun _ => still_bind still_touch fun _ => still_syscall fun _ => rfl

theorem wp_trail_atomicWriteFile {e : Bytes}
    (hFresh : ∀ w a, C.admits w a → FreshWrites P w a) (hI : I t)
    (hWrote : Unused P t → I (t.wrote e)) (hw : w.trail = t) :
    wp C (fun _ w' => Unused P t ∧ w'.trail = t.wrote e)
      (fun _ w' => w'.trail = t ∨ Unused P t ∧ w'.trail = t.wrote e) (atomicWriteFile e) w := by
  unfold atomicWriteFile
  refine wp_still_bind hC hI (still_syscall fun _ => rfl) hw (fun _ _ h => .inl h) fun _ w₁ h₁ => ?_
  refine wp_still_bind hC hI still_openStoreDirectory h₁ (fun _ _ h => .inl h) fun _ w₂ h₂ => ?_
  refine wp_still_bind hC hI (still_createTemporaryFile fun _ _ => rfl) h₂ (fun _ _ h => .inl h)
    fun _ w₃ h₃ => ?_
  rw [bind_eq, wp_bind, tryCatch_eq, wp_tryCatch]
  refine wp_mono (wp_trail_replaceStore hC hFresh hI hWrote h₃) ?_ ?_
  · rintro _ w₄ ⟨hUnused, h₄⟩
    refine wp_mono (wp_still hC (hWrote hUnused) ?_ h₄) (fun _ _ h => ⟨hUnused, h⟩)
      (fun _ _ h => .inr ⟨hUnused, h⟩)
    exact still_bind still_touch fun _ => still_touch
  · rintro _ w₄ (h₄ | ⟨hUnused, h₄⟩)
    · exact wp_still_bind hC hI (still_modify fun _ => rfl) h₄ (fun _ _ h => .inl h)
        fun _ _ h => .inl h
    · exact wp_still_bind hC (hWrote hUnused) (still_modify fun _ => rfl) h₄
        (fun _ _ h => .inr ⟨hUnused, h⟩) fun _ _ h => .inr ⟨hUnused, h⟩

theorem wp_trail_incrementCounter (hI : I t) (hAdvanced : I t.advanced) (hw : w.trail = t) :
    wp C (fun _ w' => w'.trail = t.advanced) (fun _ w' => w'.trail = t ∨ w'.trail = t.advanced)
      incrementCounter w := by
  refine wp_shows_atomically hC fun w' a hw' _ => ?_
  have hTrail : w'.trail = t := hw'.trans hw
  have hNow : World.trail { w' with disk.counter := w'.disk.counter + 1 } = t.advanced := by
    rw [← hTrail]
    rfl
  cases hIncrement : a.increment with
  | succeeds => exact ⟨hNow ▸ hAdvanced, fun _ _ => hNow, nofun⟩
  | failsWithoutEffect => exact ⟨hTrail ▸ hI, nofun, fun _ _ => .inl hTrail⟩
  | failsAfterAdvance => exact ⟨hNow ▸ hAdvanced, nofun, fun _ _ => .inr hNow⟩

theorem wp_trail_recheckCounter {e : Exn} {next : UInt64} (hI : I t) (hw : w.trail = t) :
    wp C (fun _ w' => w'.trail = t ∧ t.counter = next) (fun _ w' => w'.trail = t)
      (recheckCounter next e) w := by
  unfold recheckCounter
  refine wp_still_bind hC hI (still_modify fun _ => rfl) hw (fun _ _ h => h) fun _ w₁ h₁ => ?_
  rw [bind_eq, wp_bind]
  refine wp_mono (wp_trail_readCounter hC hI h₁) ?_ (fun _ _ h => h)
  rintro n w₂ ⟨rfl, h₂⟩
  by_cases hNext : t.counter = next
  · rw [if_neg (not_not.mpr hNext)]
    exact wp_mono (wp_still hC hI (still_modify fun _ => rfl) h₂) (fun _ _ h => ⟨h, hNext⟩)
      (fun _ _ h => h)
  · rw [if_pos hNext]
    exact h₂

theorem wp_trail_advance (hI : I t) (hAdvanced : I t.advanced) (hw : w.trail = t) :
    wp C (fun _ w' => w'.trail = t.advanced) (fun _ w' => w'.trail = t ∨ w'.trail = t.advanced)
      ((advanceCounter (t.counter + 1)).tryCatch (recheckCounter (t.counter + 1))) w := by
  have hTry : wp C (fun _ w' => w'.trail = t.advanced)
      (fun _ w' => w'.trail = t ∨ w'.trail = t.advanced) (advanceCounter (t.counter + 1)) w := by
    rw [advanceCounter, bind_eq, wp_bind]
    refine wp_mono (wp_trail_incrementCounter hC hI hAdvanced hw) (fun _ w₁ h₁ => ?_)
      (fun _ _ h => h)
    rw [bind_eq, wp_bind]
    refine wp_mono (wp_trail_readCounter hC hAdvanced h₁) ?_ (fun _ _ h => .inr h)
    rintro n w₂ ⟨rfl, h₂⟩
    have hNext : ¬ t.advanced.counter ≠ t.counter + 1 := not_not.mpr rfl
    rw [if_neg hNext]
    exact h₂
  rw [wp_tryCatch]
  refine wp_mono hTry (fun _ _ h => h) (fun e w₁ h₁ => ?_)
  rcases h₁ with h₁ | h₁
  · refine wp_mono (wp_trail_recheckCounter hC hI h₁) ?_ (fun _ _ h => .inl h)
    rintro _ w₂ ⟨-, hNext⟩
    exact absurd hNext.symm (succ_ne_self t.counter)
  · exact wp_mono (wp_trail_recheckCounter hC hAdvanced h₁) (fun _ _ h => h.1) (fun _ _ h => .inr h)

end

/-! ## Operations and loads on the trail -/

/-- A completed write at the next generation, the first there. -/
structure Writes (P : Platform) (t : Trail) (e : Bytes) : Prop where
  unused : Unused P t
  carries : Carries P e (t.counter + 1)
  bound : t.counter ≠ maxUInt64

/-- Where an operation can be interrupted. -/
def Attempted (P : Platform) (t t' : Trail) : Prop :=
  t' = t ∨ ∃ e, Writes P t e ∧ (t' = t.wrote e ∨ t' = (t.wrote e).advanced)

theorem wp_trail_saveStorage {m : Storage} (hP : P.Lawful) (hC : C.Shows World.trail (Attempted P t))
    (hFresh : ∀ w a, C.admits w a → FreshWrites P w a) (hw : w.trail = t) :
    wp C (fun _ w' => ∃ e, Writes P t e ∧ w'.trail = (t.wrote e).advanced)
      (fun _ w' => Attempted P t w'.trail) (saveStorage P m) w := by
  have hStart : Attempted P t t := .inl rfl
  unfold saveStorage
  refine wp_still_bind hC hStart (still_atomically fun _ _ => rfl) hw
    (fun _ _ h => .inl h) fun store w₁ h₁ => ?_
  by_cases hReload : store.requiresReload = true
  · rw [if_pos hReload]
    exact .inl h₁
  rw [if_neg hReload, bind_eq, wp_bind]
  refine wp_mono (wp_trail_readCounter hC hStart h₁) ?_ (fun _ _ h => .inl h)
  rintro n w₂ ⟨rfl, h₂⟩
  by_cases hSame : t.counter ≠ store.generation
  · rw [if_pos hSame]
    exact .inl h₂
  by_cases hBound : t.counter = maxUInt64
  · rw [if_neg hSame, if_pos hBound]
    exact .inl h₂
  rw [if_neg hSame, if_neg hBound]
  cases hDump : P.dump (storageDocument (P.iterate m)) with
  | none => exact .inl h₂
  | some text =>
    simp only [bind_eq, wp_bind]
    have hEncrypt : wp C (fun e w' => Carries P e (t.counter + 1) ∧ w'.trail = t)
        (fun _ w' => w'.trail = t) (encryptDocument P text (t.counter + 1)) w₂ := by
      refine wp_shows_observe hC (h₂ ▸ hStart) fun w₃ a h₃ _ => ⟨fun e he => ?_, fun _ _ => ?_⟩
      · split at he
        · cases he
        split at he
        · cases he
        exact ⟨carries_of_decrypt (decrypt_encrypt hP he), h₃.trans h₂⟩
      · exact h₃.trans h₂
    refine wp_mono hEncrypt ?_ (fun _ _ h => .inl h)
    rintro e w₃ ⟨hCarries, h₃⟩
    have hWrites : Unused P t → Writes P t e := fun hUnused => ⟨hUnused, hCarries, hBound⟩
    have hWrote : Unused P t → Attempted P t (t.wrote e) :=
      fun hUnused => .inr ⟨e, hWrites hUnused, .inl rfl⟩
    refine wp_mono (wp_trail_atomicWriteFile hC hFresh hStart hWrote h₃) ?_ ?_
    · rintro _ w₄ ⟨hUnused, h₄⟩
      have hAdvanced : Attempted P t (t.wrote e).advanced := .inr ⟨e, hWrites hUnused, .inr rfl⟩
      refine wp_mono (wp_trail_advance (t := t.wrote e) hC (hWrote hUnused) hAdvanced h₄)
        (fun _ w₅ h₅ => ?_) ?_
      · exact wp_mono (wp_still hC hAdvanced (still_modify fun _ => rfl) h₅)
          (fun _ _ h => ⟨e, hWrites hUnused, h⟩) (fun _ _ h => .inr ⟨e, hWrites hUnused, .inr h⟩)
      · rintro _ w₅ (h₅ | h₅)
        · exact .inr ⟨e, hWrites hUnused, .inl h₅⟩
        · exact .inr ⟨e, hWrites hUnused, .inr h₅⟩
    · rintro _ w₄ (h₄ | ⟨hUnused, h₄⟩)
      · exact .inl h₄
      · exact .inr ⟨e, hWrites hUnused, .inl h₄⟩

theorem wp_trail_operation {op : Operation} (hP : P.Lawful)
    (hC : C.Shows World.trail (Attempted P t))
    (hFresh : ∀ w a, C.admits w a → FreshWrites P w a) (hw : w.trail = t) :
    wp C (fun _ w' => ∃ e, Writes P t e ∧ w'.trail = (t.wrote e).advanced)
      (fun _ w' => Attempted P t w'.trail) (op.run P) w := by
  rw [Operation.run_eq]
  unfold commit
  refine wp_still_bind hC (.inl rfl) (still_atomically fun _ _ => rfl) hw
    (fun _ _ h => .inl h) fun store w₁ h₁ => ?_
  refine wp_still_bind hC (.inl rfl) (still_ofExcept _) h₁ (fun _ _ h => .inl h) fun m w₂ h₂ => ?_
  rw [bind_eq, wp_bind]
  refine wp_mono (wp_trail_saveStorage hP hC hFresh h₂) ?_ (fun _ _ h => h)
  rintro _ w₃ ⟨e, hWrites, h₃⟩
  have hAdvanced : Attempted P t (t.wrote e).advanced := .inr ⟨e, hWrites, .inr rfl⟩
  exact wp_mono (wp_still hC hAdvanced (still_modify fun _ => rfl) h₃)
    (fun _ _ h => ⟨e, hWrites, h⟩) (fun _ _ h => .inr ⟨e, hWrites, .inr h⟩)

/-- Where a load can be interrupted. -/
structure Moved (t t' : Trail) : Prop where
  written : t'.written = t.written
  counter : t'.counter = t.counter ∨ t'.counter = t.counter + 1 ∧ t.counter ≠ maxUInt64

/-- Where a load returns: what it opened, if anything, is not below the counter. -/
structure Accepted (P : Platform) (t t' : Trail) : Prop where
  moved : Moved t t'
  fresh : ∀ e, t'.lastRead = some e → ∃ g, Carries P e g ∧ t.counter ≤ g

/-- What is in memory is what the opened envelope holds. -/
def Yields (P : Platform) : Option Bytes → CredentialStore → Prop
  | none, store => store.stored = {} ∧ store.generation = 0
  | some e, store => ∃ text,
      decrypt P e = .ok { generation := store.generation, plaintext := text } ∧
        parsePlaintext P text = .ok store.stored

theorem wp_trail_readStoreFile (hC : C.Shows World.trail (Moved t)) (hw : w.trail = t) :
    wp C (fun r w' => w'.trail = { t with lastRead := r }) (fun _ w' => Moved t w'.trail)
      readStoreFile w := by
  have hMoved : ∀ r, Moved t { t with lastRead := r } := fun r => ⟨rfl, .inl rfl⟩
  have hFails : ∀ r (w' : World), w'.trail = { t with lastRead := r } → Moved t w'.trail :=
    fun r w' h => h ▸ hMoved r
  unfold readStoreFile
  rw [bind_eq, wp_bind]
  refine wp_shows_atomically hC fun w₁ a h₁ _ => ?_
  have hTrail : w₁.trail = t := h₁.trans hw
  cases a.fails .openDirectory with
  | true => exact ⟨hFails t.lastRead w₁ hTrail, nofun, fun _ _ => hFails t.lastRead w₁ hTrail⟩
  | false =>
    have hFound : World.trail { w₁ with disk.lastRead := none } = { t with lastRead := none } := by
      rw [← hTrail]
      rfl
    refine ⟨hFails _ _ hFound, fun present hPresent => ?_, nofun⟩
    cases hPresent
    by_cases hPresent : w₁.disk.directory = true
    · rw [if_neg (not_not.mpr hPresent)]
      refine wp_still_bind hC (hMoved none) (still_atomically fun _ _ => rfl) hFound (fun _ _ h =>
        hFails _ _ h) fun _ w₂ h₂ => ?_
      rw [bind_eq, wp_bind]
      refine wp_shows_atomically hC fun w₃ b h₃ _ => ?_
      have hThere : w₃.trail = { t with lastRead := none } := h₃.trans h₂
      cases b.fails .openStore with
      | true => exact ⟨hFails _ _ hThere, nofun, fun _ _ => hFails _ _ hThere⟩
      | false =>
        have hOpened : World.trail { w₃ with disk.lastRead := w₃.disk.file } =
            { t with lastRead := w₃.disk.file } := by
          simp only [World.trail, Trail.mk.injEq] at hThere ⊢
          exact ⟨hThere.1, hThere.2.1, trivial⟩
        refine ⟨hFails _ _ hOpened, fun r hr => ?_, nofun⟩
        cases hr
        cases hFile : w₃.disk.file with
        | none =>
          rw [hFile] at hOpened
          exact hOpened
        | some contents =>
          rw [hFile] at hOpened
          refine wp_still_bind hC (hMoved _) (still_atomically fun _ _ => rfl) hOpened
            (fun _ _ h => hFails _ _ h) fun _ w₄ h₄ => ?_
          exact wp_still_bind hC (hMoved _) still_touch h₄ (fun _ _ h => hFails _ _ h)
            fun _ _ h => h
    · rw [if_pos hPresent]
      exact hFound

theorem wp_trail_recoverCounter {t' : Trail} {g : UInt64} (hC : C.Shows World.trail (Moved t))
    (hMoved : Moved t t') (hCounter : t'.counter = t.counter)
    (hFrom : g = t.counter ∨ g = t.counter + 1 ∧ t.counter ≠ maxUInt64) (hw : w.trail = t') :
    wp C (fun _ w' => Moved t w'.trail ∧ w'.trail.lastRead = t'.lastRead)
      (fun _ w' => Moved t w'.trail) (recoverCounter g t.counter) w := by
  rw [recoverCounter]
  rcases hFrom with rfl | ⟨rfl, hBound⟩
  · rw [if_neg (succ_ne_self t.counter).symm]
    exact ⟨hw ▸ hMoved, by rw [hw]⟩
  · rw [if_pos rfl, bind_eq, wp_bind]
    have hAdvanced : Moved t t'.advanced :=
      ⟨hMoved.written, .inr ⟨congrArg (· + 1) hCounter, hBound⟩⟩
    refine wp_mono (wp_trail_incrementCounter hC hMoved hAdvanced hw) (fun _ w₁ h₁ => ?_) ?_
    · rw [bind_eq, wp_bind]
      refine wp_mono (wp_trail_readCounter hC hAdvanced h₁) ?_ (fun _ _ h => h ▸ hAdvanced)
      rintro n w₂ ⟨rfl, h₂⟩
      split
      · exact show Moved t w₂.trail from h₂ ▸ hAdvanced
      · exact ⟨h₂ ▸ hAdvanced, by rw [h₂]; rfl⟩
    · rintro _ w₁ (h₁ | h₁)
      · exact h₁ ▸ hMoved
      · exact h₁ ▸ hAdvanced

theorem wp_trail_load (hC : C.Shows World.trail (Moved t)) (hw : w.trail = t) :
    wp C (fun _ w' => Accepted P t w'.trail ∧ Yields P w'.disk.lastRead w'.store)
      (fun _ w' => Moved t w'.trail) (load P) w := by
  unfold load
  rw [bind_eq, wp_bind]
  refine wp_mono (wp_trail_readStoreFile hC hw) (fun r w₁ h₁ => ?_) (fun _ _ h => h)
  have hRead : Moved t { t with lastRead := r } := ⟨rfl, .inl rfl⟩
  have hThrown : ∀ (_ : Exn) (w' : World), w'.trail = { t with lastRead := r } → Moved t w'.trail :=
    fun _ w' h => h ▸ hRead
  cases r with
  | none =>
    simp only [bind_eq, wp_bind]
    refine wp_mono (wp_trail_readCounter hC hRead h₁) ?_ hThrown
    rintro n w₂ ⟨-, h₂⟩
    split
    · exact hThrown (.runtimeError "") w₂ h₂
    · refine wp_shows_atomically hC fun w₃ _ h₃ _ => ?_
      have hTrail : w₃.trail = { t with lastRead := none } := h₃.trans h₂
      refine ⟨hThrown (.runtimeError "") w₃ hTrail, fun _ _ => ⟨?_, ?_⟩, nofun⟩
      · exact show Accepted P t w₃.trail from hTrail ▸ ⟨hRead, nofun⟩
      · exact show Yields P w₃.trail.lastRead {} from hTrail ▸ ⟨rfl, rfl⟩
  | some e =>
    simp only [bind_eq, wp_bind]
    have hDecrypted : wp C
        (fun d w' => decrypt P e = .ok d ∧ w'.trail = { t with lastRead := some e })
        (fun _ w' => Moved t w'.trail) (decryptStore P e) w₁ := by
      refine wp_shows_observe hC (h₁ ▸ hRead) fun w₂ a h₂ _ => ⟨fun d hd => ?_, fun x _ => ?_⟩
      · split at hd
        · cases hd
        · exact ⟨hd, h₂.trans h₁⟩
      · exact hThrown x w₂ (h₂.trans h₁)
    refine wp_mono hDecrypted ?_ (fun _ _ h => h)
    rintro d w₂ ⟨hDecrypt, h₂⟩
    refine wp_mono (wp_trail_readCounter hC hRead h₂) ?_ hThrown
    rintro n w₃ ⟨rfl, h₃⟩
    rw [wp_ofExcept]
    refine ⟨fun _ hCheck => ?_, fun x _ => hThrown x w₃ h₃⟩
    rw [wp_ofExcept]
    refine ⟨fun m hParse => ?_, fun x _ => hThrown x w₃ h₃⟩
    have hFrom := checkGeneration_ok_iff.mp hCheck
    have hFresh : t.counter ≤ d.generation := by
      rcases hFrom with hSame | ⟨hNext, hBound⟩
      · exact UInt64.le_of_eq hSame.symm
      · rw [hNext, UInt64.le_iff_toNat_le, toNat_succ hBound]
        exact Nat.le_succ _
    refine wp_mono (wp_trail_recoverCounter (t := t) hC hRead rfl hFrom h₃) ?_ (fun _ _ h => h)
    rintro _ w₄ ⟨hMoved, hLast⟩
    refine wp_shows_atomically hC fun w₅ _ h₅ _ => ?_
    have hOpened : w₅.trail.lastRead = some e := by rw [h₅, hLast]
    refine ⟨show Moved t w₅.trail from h₅ ▸ hMoved, fun _ _ => ⟨?_, ?_⟩, nofun⟩
    · refine show Accepted P t w₅.trail from ⟨h₅ ▸ hMoved, fun e' he' => ?_⟩
      rw [hOpened] at he'
      cases he'
      exact ⟨d.generation, carries_of_decrypt hDecrypt, hFresh⟩
    · show Yields P w₅.trail.lastRead { stored := m, generation := d.generation }
      rw [hOpened]
      exact ⟨d.plaintext, hDecrypt, hParse⟩

end Trails

end VAuth.Store
