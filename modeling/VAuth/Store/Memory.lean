import VAuth.Store.Serialization

/-!
# What is in memory

The map and the generation that a process has in memory. An operation changes them when it
returns and not before; a load puts a valid map there.
-/

namespace VAuth.Store

open Proc

/-! ## Steps that leave a view of the world alone -/

section Views

variable {τ : Type} {view : World → τ}

theorem still_syscall {call : Syscall} {e : Exn} {effect : World → World}
    (h : ∀ w, view (effect w) = view w) : Still view (syscall call e effect) := by
  refine still_atomically fun a w => ?_
  cases a.fails call with
  | true => rfl
  | false => exact h w

theorem still_touch {call : Syscall} {e : Exn} : Still view (touch call e) :=
  still_syscall fun _ => rfl

theorem still_modify {f : World → World} (h : ∀ w, view (f w) = view w) :
    Still view (modify f : StoreProc Unit) := still_atomically fun _ w => h w

theorem still_readCounter : Still view readCounter := still_atomically fun _ _ => rfl

theorem still_openStoreDirectory : Still view openStoreDirectory :=
  still_bind still_touch fun _ => still_atomically fun _ _ => rfl

theorem still_createTemporaryFile
    (h : ∀ w temporary, view { w with disk.temporary := temporary } = view w) :
    Still view createTemporaryFile :=
  still_bind still_touch fun _ => still_syscall fun w => h w _

theorem still_incrementCounter (h : ∀ w counter, view { w with disk.counter := counter } = view w) :
    Still view incrementCounter := by
  refine still_atomically fun a w => ?_
  cases a.increment with
  | succeeds => exact h w _
  | failsWithoutEffect => rfl
  | failsAfterAdvance => exact h w _

theorem still_advance (hCounter : ∀ w counter, view { w with disk.counter := counter } = view w)
    (hReload : ∀ w reload, view { w with store.requiresReload := reload } = view w)
    (next : UInt64) : Still view ((advanceCounter next).tryCatch (recheckCounter next)) := by
  refine still_tryCatch ?_ fun e => ?_
  · refine still_bind (still_incrementCounter hCounter) fun _ => ?_
    refine still_bind still_readCounter fun n => ?_
    split <;> trivial
  · refine still_bind (still_modify fun w => hReload w _) fun _ =>
      still_bind still_readCounter fun n => ?_
    split
    · trivial
    · exact still_modify fun w => hReload w _

theorem still_readStoreFile (h : ∀ w lastRead, view { w with disk.lastRead := lastRead } = view w) :
    Still view readStoreFile := by
  refine still_bind (still_atomically fun a w => ?_) fun present => ?_
  · cases a.fails .openDirectory with
    | true => rfl
    | false => exact h w _
  split
  · trivial
  refine still_bind (still_atomically fun _ _ => rfl) fun _ => ?_
  refine still_bind (still_atomically fun a w => ?_) fun contents => ?_
  · cases a.fails .openStore with
    | true => rfl
    | false => exact h w _
  cases contents with
  | none => trivial
  | some contents =>
    refine still_bind (still_atomically fun _ _ => rfl) fun _ => ?_
    exact still_bind still_touch fun _ => trivial

theorem still_recoverCounter (h : ∀ w counter, view { w with disk.counter := counter } = view w)
    (generation counter : UInt64) : Still view (recoverCounter generation counter) := by
  unfold recoverCounter
  split
  · refine still_bind (still_incrementCounter h) fun _ => still_bind still_readCounter fun n => ?_
    split <;> trivial
  · trivial

end Views

/-! ## Operations -/

/-- The map and the generation in memory. -/
def World.memory (w : World) : Storage × UInt64 := (w.store.stored, w.store.generation)

theorem still_memory_atomicWriteFile (contents : Bytes) :
    Still World.memory (atomicWriteFile contents) := by
  refine still_bind (still_syscall fun _ => rfl) fun _ => ?_
  refine still_bind still_openStoreDirectory fun _ => ?_
  refine still_bind (still_createTemporaryFile fun _ _ => rfl) fun _ => ?_
  refine still_bind (still_tryCatch ?_ fun e =>
    still_bind (still_modify fun _ => rfl) fun _ => trivial)
    fun _ => still_bind still_touch fun _ => still_touch
  refine still_bind (still_bind still_touch fun _ => still_syscall fun _ => rfl) fun _ => ?_
  exact still_bind still_touch fun _ => still_bind still_touch fun _ => still_syscall fun _ => rfl

section Memory

variable {P : Platform} {C : Setting World Answer} {I : Storage × UInt64 → Prop} {w : World}

theorem wp_memory_saveStorage {m : Storage} (hC : C.Shows World.memory I) (hI : I w.memory)
    (hNext : w.store.generation ≠ maxUInt64 → I (w.store.stored, w.store.generation + 1)) :
    wp C (fun _ w' => w.store.generation ≠ maxUInt64 ∧
        w'.memory = (w.store.stored, w.store.generation + 1))
      (fun _ w' => w'.memory = w.memory) (saveStorage P m) w := by
  unfold saveStorage
  rw [bind_eq, wp_bind]
  refine wp_shows_observe hC hI fun w₁ _ h₁ _ => ⟨fun store hStore => ?_, nofun⟩
  cases hStore
  have hGeneration : w₁.store.generation = w.store.generation := congrArg Prod.snd h₁
  by_cases hReload : w₁.store.requiresReload = true
  · rw [if_pos hReload]
    exact h₁
  rw [if_neg hReload]
  refine wp_still_bind hC hI still_readCounter h₁ (fun _ _ h => h) fun n w₂ h₂ => ?_
  by_cases hSame : n ≠ w₁.store.generation
  · rw [if_pos hSame]
    exact h₂
  by_cases hBound : n = maxUInt64
  · rw [if_neg hSame, if_pos hBound]
    exact h₂
  rw [if_neg hSame, if_neg hBound]
  obtain rfl : n = w.store.generation := (not_not.mp hSame).trans hGeneration
  cases hDump : P.dump (storageDocument (P.iterate m)) with
  | none => exact h₂
  | some text =>
    refine wp_still_bind hC hI (still_atomically fun _ _ => rfl) h₂ (fun _ _ h => h)
      fun e w₃ h₃ => ?_
    refine wp_still_bind hC hI (still_memory_atomicWriteFile e) h₃ (fun _ _ h => h)
      fun _ w₄ h₄ => ?_
    refine wp_still_bind hC hI (still_advance (fun _ _ => rfl) (fun _ _ => rfl) _) h₄
      (fun _ _ h => h) fun _ w₅ h₅ => ?_
    refine wp_shows_atomically hC fun w₆ _ h₆ _ => ?_
    have hStored : w₆.store.stored = w.store.stored := congrArg Prod.fst (h₆.trans h₅)
    have hNow : World.memory { w₆ with store.generation := w.store.generation + 1 } =
        (w.store.stored, w.store.generation + 1) := congrArg (·, _) hStored
    exact ⟨hNow ▸ hNext hBound, fun _ _ => ⟨hBound, hNow⟩, nofun⟩

/-- **What an operation does to the memory.** -/
theorem wp_memory_commit {change : CredentialStore → Except Exn Storage}
    (hC : C.Keeps fun w' => I w'.memory) (hI : I w.memory)
    (hNext : w.store.generation ≠ maxUInt64 → I (w.store.stored, w.store.generation + 1))
    (hDone : ∀ m, change w.store = .ok m → w.store.generation ≠ maxUInt64 →
      I (m, w.store.generation + 1)) :
    wp C (fun _ w' => ∃ m, change w.store = .ok m ∧ w.store.generation ≠ maxUInt64 ∧
        w'.memory = (m, w.store.generation + 1))
      (fun _ w' => w'.memory = w.memory) (commit P change) w := by
  unfold commit
  rw [bind_eq, wp_bind]
  refine wp_keeps_read hC hI ?_
  rw [bind_eq, wp_bind, wp_ofExcept]
  refine ⟨fun m hChange => ?_, fun _ _ => rfl⟩
  rw [bind_eq, wp_bind]
  refine wp_mono (wp_memory_saveStorage hC.shows hI hNext) ?_ (fun _ _ h => h)
  rintro _ w₁ ⟨hBound, h₁⟩
  have hNow : World.memory { w₁ with store.stored := m } = (m, w.store.generation + 1) :=
    congrArg (m, ·) (congrArg Prod.snd h₁)
  exact wp_keeps_modify hC (hNow ▸ hDone m hChange hBound) ⟨m, hChange, hBound, hNow⟩

theorem wp_memory_load (hC : C.Shows World.memory I) (hI : I w.memory)
    (hLoaded : ∀ m g, m.Valid → I (m, g)) :
    wp C (fun _ w' => w'.store.stored.Valid) (fun _ w' => w'.memory = w.memory) (load P) w := by
  unfold load
  refine wp_still_bind hC hI (still_readStoreFile fun _ _ => rfl) rfl (fun _ _ h => h)
    fun contents w₁ h₁ => ?_
  cases contents with
  | none =>
    refine wp_still_bind hC hI still_readCounter h₁ (fun _ _ h => h) fun n w₂ h₂ => ?_
    split
    · exact h₂
    · refine wp_shows_atomically hC fun w₃ _ _ _ => ?_
      exact ⟨hLoaded _ _ Storage.valid_empty, fun _ _ => Storage.valid_empty, nofun⟩
  | some e =>
    refine wp_still_bind hC hI (still_atomically fun _ _ => rfl) h₁ (fun _ _ h => h)
      fun d w₂ h₂ => ?_
    refine wp_still_bind hC hI still_readCounter h₂ (fun _ _ h => h) fun n w₃ h₃ => ?_
    refine wp_still_bind hC hI (still_ofExcept _) h₃ (fun _ _ h => h) fun _ w₄ h₄ => ?_
    rw [bind_eq, wp_bind, wp_ofExcept]
    refine ⟨fun m hParse => ?_, fun _ _ => h₄⟩
    have hValid := parsePlaintext_valid hParse
    refine wp_still_bind hC hI (still_recoverCounter (fun _ _ => rfl) _ _) h₄ (fun _ _ h => h)
      fun _ w₅ h₅ => ?_
    refine wp_shows_atomically hC fun w₆ _ _ _ => ?_
    exact ⟨hLoaded _ _ hValid, fun _ _ => hValid, nofun⟩

end Memory

end VAuth.Store
