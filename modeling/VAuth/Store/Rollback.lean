import VAuth.Store.Trail

/-!
# Rollback

Somebody who may put back any envelope the program has written, at any time, is held off
by the generation alone: `load` refuses a generation below the counter. That is enough as
long as no envelope is written at a generation that an earlier envelope already carries
(`rollback_protection`). A write that fails after its envelope is complete leaves an
authentic envelope behind, and the next write uses the same generation again; the
abandoned envelope can then replace the acknowledged one (`rollback_accepted`).
-/

namespace VAuth.Store

open Proc

/-! ## The adversary and the observer -/

/-- Put back the `i`-th envelope that was written. -/
def World.replay (i : Nat) (w : World) : World :=
  match w.disk.written[i]? with
  | some e => { w with disk.file := some e }
  | none => w

/-- The adversary puts back some envelope that was written. -/
def Replays (w w' : World) : Prop := ∃ i, w' = w.replay i

/-- A load that returned: the envelope it opened, the store it left in memory, and the
envelopes of the operations that had returned before, as positions in `written`. -/
structure LoadRecord where
  envelope : Option Bytes
  store : CredentialStore
  acked : List Nat

/-- What returned so far: the envelope of each operation, and the loads. -/
structure Watch where
  acked : List Nat := []
  loads : List LoadRecord := []

/-- The history after a call that returned. -/
def Watch.returned (g : Watch) (w : World) : Call → Watch
  | .load => { g with loads := g.loads ++ [⟨w.disk.lastRead, w.store, g.acked⟩] }
  | .update _ => { g with acked := g.acked ++ [w.disk.written.length - 1] }

/-- The store, watched for what returns. -/
def watchedService (P : Platform) : Service World Answer Exn Call Unit Watch where
  boot := .load
  call := Call.run P
  restart := fun w => { w with store := {} }
  returned := fun k _ w g => g.returned w k
  failed := fun _ _ _ g => g
  crashed := fun _ _ g => g

def freshWatched : Service.Config World Answer Exn Call Unit Watch := ⟨.down, {}, {}⟩

/-! ## The generations of what was written -/

section Generations

variable {P : Platform} {t t' : Trail} {g : Watch} {xs : List Bytes} {i : Nat} {m n : UInt64}

/-- The envelope at position `i` carries a generation of at most `n`. -/
def Below (P : Platform) (xs : List Bytes) (i : Nat) (n : UInt64) : Prop :=
  ∃ e n', xs[i]? = some e ∧ Carries P e n' ∧ n' ≤ n

theorem Below.mono (h : Below P xs i n) (hn : n ≤ m) : Below P xs i m := by
  obtain ⟨e, n', he, hCarries, hn'⟩ := h
  exact ⟨e, n', he, hCarries, UInt64.le_trans hn' hn⟩

theorem Below.append {ys : List Bytes} (h : Below P xs i n) : Below P (xs ++ ys) i n := by
  obtain ⟨e, n', he, hRest⟩ := h
  refine ⟨e, n', ?_, hRest⟩
  obtain ⟨hi, _⟩ := List.getElem?_eq_some_iff.mp he
  rw [List.getElem?_append_left hi, he]

/-- Generations grow along `written`, none is more than one above the counter, those
of the operations that returned are at most the counter, and what a load opened is no
older than what had returned by then. -/
structure WatchInv (P : Platform) (t : Trail) (g : Watch) : Prop where
  ordered : t.written.Pairwise fun e e' => ∀ n n', Carries P e n → Carries P e' n' → n < n'
  bounded : ∀ e ∈ t.written, ∃ n, Carries P e n ∧ n.toNat ≤ t.counter.toNat + 1
  acked : ∀ i ∈ g.acked, Below P t.written i t.counter
  loads : ∀ l ∈ g.loads, Yields P l.envelope l.store ∧
    ∀ e, l.envelope = some e → ∃ n, Carries P e n ∧ ∀ i ∈ l.acked, Below P t.written i n

theorem WatchInv.raised (hInv : WatchInv P t g) (hWritten : t'.written = t.written)
    (hCounter : t.counter ≤ t'.counter) : WatchInv P t' g where
  ordered := hWritten ▸ hInv.ordered
  bounded := fun e he => by
    obtain ⟨n, hCarries, hn⟩ := hInv.bounded e (hWritten ▸ he)
    exact ⟨n, hCarries, Nat.le_trans hn (Nat.add_le_add_right hCounter 1)⟩
  acked := fun i hi => hWritten ▸ (hInv.acked i hi).mono hCounter
  loads := hWritten ▸ hInv.loads

theorem WatchInv.wrote {e : Bytes} (hInv : WatchInv P t g) (hWrites : Writes P t e) :
    WatchInv P (t.wrote e) g where
  ordered := by
    refine List.pairwise_append.mpr ⟨hInv.ordered, List.pairwise_singleton _ _, ?_⟩
    intro e₁ he₁ e₂ he₂ n n' hn hn'
    cases List.mem_singleton.mp he₂
    obtain ⟨n₁, hCarries, hBound⟩ := hInv.bounded e₁ he₁
    cases hn.unique hCarries
    cases hn'.unique hWrites.carries
    refine UInt64.lt_of_le_of_ne ?_ fun hSame => hWrites.unused e₁ he₁ (hSame ▸ hn)
    rw [UInt64.le_iff_toNat_le, toNat_succ hWrites.bound]
    exact hBound
  bounded := by
    intro e' he'
    rcases List.mem_append.mp he' with he' | he'
    · exact hInv.bounded e' he'
    · cases List.mem_singleton.mp he'
      exact ⟨_, hWrites.carries, Nat.le_of_eq (toNat_succ hWrites.bound)⟩
  acked := fun i hi => (hInv.acked i hi).append
  loads := fun l hl => by
    obtain ⟨hYields, hOpened⟩ := hInv.loads l hl
    refine ⟨hYields, fun e' he' => ?_⟩
    obtain ⟨n, hCarries, hBelow⟩ := hOpened e' he'
    exact ⟨n, hCarries, fun i hi => (hBelow i hi).append⟩

theorem counter_le_succ (h : n ≠ maxUInt64) : n ≤ n + 1 := by
  rw [UInt64.le_iff_toNat_le, toNat_succ h]
  exact Nat.le_succ _

theorem WatchInv.attempted (hInv : WatchInv P t g) (h : Attempted P t t') : WatchInv P t' g := by
  rcases h with rfl | ⟨e, hWrites, rfl | rfl⟩
  · exact hInv
  · exact hInv.wrote hWrites
  · exact (hInv.wrote hWrites).raised rfl (counter_le_succ hWrites.bound)

theorem WatchInv.moved (hInv : WatchInv P t g) (h : Moved t t') : WatchInv P t' g := by
  refine hInv.raised h.written ?_
  rcases h.counter with hCounter | ⟨hCounter, hBound⟩
  · exact UInt64.le_of_eq hCounter.symm
  · exact hCounter ▸ counter_le_succ hBound

/-- An operation that returns has its own envelope at a generation of at most the counter. -/
theorem WatchInv.committed {e : Bytes} {w : World} (hInv : WatchInv P t g) (op : Operation)
    (hWrites : Writes P t e) (hw : w.trail = (t.wrote e).advanced) :
    WatchInv P w.trail (g.returned w (.update op)) := by
  have hNow : WatchInv P w.trail g := hInv.attempted (.inr ⟨e, hWrites, .inr hw⟩)
  have hWritten : w.disk.written = t.written ++ [e] := congrArg Trail.written hw
  refine { hNow with acked := fun i hi => ?_ }
  rcases List.mem_append.mp hi with hi | hi
  · exact hNow.acked i hi
  · rw [List.mem_singleton.mp hi, hw, hWritten]
    refine ⟨e, t.counter + 1, ?_, hWrites.carries, UInt64.le_refl _⟩
    simp [Trail.wrote, Trail.advanced]

theorem WatchInv.loaded {w : World} (hInv : WatchInv P t g) (hAccepted : Accepted P t w.trail)
    (hYields : Yields P w.disk.lastRead w.store) :
    WatchInv P w.trail (g.returned w .load) := by
  have hNow : WatchInv P w.trail g := hInv.moved hAccepted.moved
  refine { hNow with loads := fun l hl => ?_ }
  rcases List.mem_append.mp hl with hl | hl
  · exact hNow.loads l hl
  · cases List.mem_singleton.mp hl
    refine ⟨hYields, fun e he => ?_⟩
    obtain ⟨n, hCarries, hFresh⟩ := hAccepted.fresh e he
    refine ⟨n, hCarries, fun i hi => ?_⟩
    rw [hAccepted.moved.written]
    exact (hInv.acked i hi).mono hFresh

end Generations

/-! ## Rollback protection -/

variable {P : Platform}

theorem trail_replay (i : Nat) (w : World) : (w.replay i).trail = w.trail := by
  unfold World.replay
  split <;> rfl

theorem store_replay (i : Nat) (w : World) : (w.replay i).store = w.store := by
  unfold World.replay
  split <;> rfl

theorem returned_replay (i : Nat) (w : World) (g : Watch) (k : Call) :
    g.returned (w.replay i) k = g.returned w k := by
  have hTrail := trail_replay i w
  simp only [World.trail, Trail.mk.injEq] at hTrail
  cases k with
  | load => simp only [Watch.returned, hTrail.2.2, store_replay]
  | update op => simp only [Watch.returned, hTrail.2.1]

theorem trail_replays {w w' : World} (h : Relation.ReflTransGen Replays w w') :
    w'.trail = w.trail := by
  induction h with
  | refl => rfl
  | tail _ hStep ih =>
    obtain ⟨i, rfl⟩ := hStep
    rw [trail_replay, ih]

theorem watchedService_invariant (hP : P.Lawful) :
    (watchedService P).Invariant Replays (FreshWrites P) (fun w g => WatchInv P w.trail g)
      (fun w g => WatchInv P w.trail g) := by
  have hShows : ∀ (g : Watch) (I : Trail → Prop), (∀ t, I t → WatchInv P t g) →
      (Setting.among Replays (FreshWrites P) fun _ w' => WatchInv P w'.trail g :
        Setting World Answer).Shows World.trail I :=
    fun g I hI => ⟨fun _ _ h => trail_replays h, fun _ _ h => hI _ h⟩
  have hLoad : ∀ w g, WatchInv P w.trail g →
      wp (.among Replays (FreshWrites P) fun _ w' => WatchInv P w'.trail g)
        (fun _ w' => WatchInv P w'.trail (g.returned w' .load))
        (fun _ w' => WatchInv P w'.trail g) (load P) w := by
    intro w g hInv
    refine wp_mono (wp_trail_load (hShows g (Moved w.trail) fun _ h => hInv.moved h) rfl) ?_ ?_
    · rintro _ w' ⟨hAccepted, hYields⟩
      exact hInv.loaded hAccepted hYields
    · exact fun _ _ hMoved => hInv.moved hMoved
  have hReplay : ∀ k w w' (g : Watch), Replays w w' → WatchInv P w.trail (g.returned w k) →
      WatchInv P w'.trail (g.returned w' k) := by
    rintro k w _ g ⟨i, rfl⟩ h
    rwa [trail_replay, returned_replay]
  have hSame : ∀ w w' g, Replays w w' → WatchInv P w.trail g → WatchInv P w'.trail g := by
    rintro w _ g ⟨i, rfl⟩ h
    rwa [trail_replay]
  exact {
    boot := fun w g hInv => hLoad { w with store := {} } g hInv
    call := fun k w g _ hInv => by
      cases k with
      | load => exact hLoad w g hInv
      | update op =>
        refine wp_mono (wp_trail_operation hP
          (hShows g (Attempted P w.trail) fun _ h => hInv.attempted h) (fun _ _ h => h) rfl) ?_ ?_
        · rintro _ w' ⟨e, hWrites, hw'⟩
          exact hInv.committed op hWrites hw'
        · exact fun _ _ hAttempted => hInv.attempted hAttempted
    crash_boot := fun _ _ h => h
    crash_call := fun _ _ _ h => h
    stop := fun _ _ h => h
    env_down := hSame
    env_ready := hSame
    env_crashed := fun _ => hSame
    env_returned := fun k _ => hReplay k
    env_failed := fun _ _ => hSame
    env_bootFailed := fun _ _ => hSame }

theorem WatchInv.fresh : WatchInv P (World.trail {}) {} where
  ordered := .nil
  bounded := nofun
  acked := nofun
  loads := nofun

theorem watchInv_of_steps (hP : P.Lawful) {c : Service.Config World Answer Exn Call Unit Watch}
    (hRun : Service.Steps (watchedService P) Replays (FreshWrites P) freshWatched c) :
    WatchInv P c.state.trail c.ghost := by
  have hHolds := (watchedService_invariant hP).holds (c := freshWatched) WatchInv.fresh hRun
  obtain ⟨φ, w, g⟩ := c
  cases φ with
  | down => exact hHolds
  | ready => exact hHolds
  | busy booting k p => exact hHolds.1

/-- **Rollback protection.** When no envelope is written at a generation that was used
before, every load that returns yields what it opened, and that is no envelope written
before the envelope of an operation that had returned, whatever was put back meanwhile. -/
theorem rollback_protection (hP : P.Lawful) {c : Service.Config World Answer Exn Call Unit Watch}
    (hRun : Service.Steps (watchedService P) Replays (FreshWrites P) freshWatched c) :
    ∀ l ∈ c.ghost.loads, Yields P l.envelope l.store ∧
      ∀ e, l.envelope = some e → ∀ i ∈ l.acked, e ∉ c.state.disk.written.take i := by
  have hInv := watchInv_of_steps hP hRun
  intro l hl
  obtain ⟨hYields, hOpened⟩ := hInv.loads l hl
  refine ⟨hYields, fun e he i hi hOlder => ?_⟩
  obtain ⟨n, hCarries, hBelow⟩ := hOpened e he
  obtain ⟨e', n', he', hCarries', hLe⟩ := hBelow i hi
  have hOrdered := hInv.ordered
  rw [← List.take_append_drop i c.state.trail.written, List.pairwise_append] at hOrdered
  have hLater : e' ∈ c.state.trail.written.drop i := by
    refine List.mem_iff_getElem?.mpr ⟨0, ?_⟩
    rw [List.getElem?_drop]
    exact he'
  have hLt : n < n' := hOrdered.2.2 e hOlder e' hLater n n' hCarries hCarries'
  exact UInt64.not_le.mpr hLt hLe

/-- The inputs of an operation that succeeds: the write is its eleventh step. -/
def freshWrite : List (Service.Action World Answer Call) :=
  Service.feed 10 (.without .write) ++ Service.feed 1 .success ++ Service.feed 9 (.without .write)

/-- A registration and a `clear`; the first envelope is put back and refused, then the
second is put back and loaded. -/
def refusedReplay : List (Service.Action World Answer Call) :=
  [.start] ++ Service.feed 3 (.without .write) ++ [.finish, .invoke (.update putSample)] ++
    freshWrite ++ [.finish, .invoke (.update .clear)] ++
    freshWrite ++ [.finish, .other (World.replay 0), .invoke .load] ++
    Service.feed 7 (.without .write) ++ [.finish, .other (World.replay 1), .invoke .load] ++
    Service.feed 8 (.without .write) ++ [.finish]

instance {P : Platform} {t : Trail} : Decidable (Unused P t) :=
  inferInstanceAs (Decidable (∀ e ∈ t.written, ¬ generationOf P e = some (t.counter + 1)))

theorem rollback_protection_refusedReplay : ∃ c,
    Service.Steps (watchedService samplePlatform) Replays (FreshWrites samplePlatform)
      freshWatched c ∧
    ∃ l ∈ c.ghost.loads, l.acked = [0, 1] ∧ Yields samplePlatform l.envelope l.store ∧
      ∀ e, l.envelope = some e → ∀ i ∈ l.acked, e ∉ c.state.disk.written.take i := by
  have hEnds : (Service.exec (watchedService samplePlatform)
      (fun w a => a.fails .write || decide (Unused samplePlatform w.trail)) refusedReplay
      freshWatched).any (fun c => c.ghost.loads.any fun l => l.acked = [0, 1]) = true := by
    decide +kernel
  obtain ⟨c, hExec, hEnd⟩ := (Option.any_eq_true _ _).mp hEnds
  obtain ⟨l, hl, hAcked⟩ := List.any_eq_true.mp hEnd
  have hRun : Service.Steps (watchedService samplePlatform) Replays (FreshWrites samplePlatform)
      freshWatched c := by
    refine Service.steps_exec _ _ ?_ ?_ hExec
    · intro a _ w hOk hWrite
      rw [hWrite, Bool.false_or] at hOk
      exact of_decide_eq_true hOk
    · intro f hf w
      have hReplay : f = World.replay 0 ∨ f = World.replay 1 := by
        simpa [refusedReplay, freshWrite, Service.feed] using hf
      rcases hReplay with rfl | rfl
      · exact ⟨0, rfl⟩
      · exact ⟨1, rfl⟩
  exact ⟨c, hRun, l, hl, of_decide_eq_true hAcked, rollback_protection samplePlatform_lawful hRun l hl⟩

/-- A registration whose directory `fsync` fails after the rename, then a `clear` that
returns at the same generation; the envelope of the registration is put back and loaded. -/
def reusedGeneration : List (Service.Action World Answer Call) :=
  [.start] ++ Service.feed 3 .success ++ [.finish, .invoke (.update putSample)] ++
    lateFailure.map .input ++ [.finish, .invoke (.update .clear)] ++
    Service.feed 20 .success ++ [.finish, .other (World.replay 0), .invoke .load] ++
    Service.feed 8 .success ++ [.finish]

/-- The load that opens the abandoned envelope returns, with the credential of the failed
registration in memory, although `clear` had returned at a later envelope. -/
theorem rollback_accepted : ∃ c,
    Service.Steps (watchedService samplePlatform) Replays (fun _ _ => True) freshWatched c ∧
    ∃ l ∈ c.ghost.loads, hexEncode sampleCredential.id ∈ l.store.stored ∧
      ∃ e, l.envelope = some e ∧ ∃ i ∈ l.acked, e ∈ c.state.disk.written.take i := by
  have hEnds : (Service.exec (watchedService samplePlatform) (fun _ _ => true) reusedGeneration
      freshWatched).any (fun c => c.ghost.loads.any fun l =>
        l.store.stored.contains (hexEncode sampleCredential.id) &&
          l.envelope.any fun e => l.acked.any fun i => e ∈ c.state.disk.written.take i) = true := by
    decide +kernel
  obtain ⟨c, hExec, hEnd⟩ := (Option.any_eq_true _ _).mp hEnds
  obtain ⟨l, hl, hLoad⟩ := List.any_eq_true.mp hEnd
  obtain ⟨hBack, hOpened⟩ := (Bool.and_eq_true _ _).mp hLoad
  obtain ⟨e, he, hAcked⟩ := (Option.any_eq_true _ _).mp hOpened
  obtain ⟨i, hi, hOlder⟩ := List.any_eq_true.mp hAcked
  refine ⟨c, Service.steps_exec _ _ (fun _ _ _ _ => trivial) (fun f hf w => ?_) hExec, l, hl, ?_, e,
    he, i, hi, of_decide_eq_true hOlder⟩
  · obtain rfl : f = World.replay 0 := by
      simpa [reusedGeneration, Service.feed, lateFailure] using hf
    exact ⟨0, rfl⟩
  · exact Std.ExtTreeMap.contains_iff_mem.mp hBack

end VAuth.Store
