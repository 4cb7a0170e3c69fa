import VAuth.Store.CrashConsistency
import VAuth.Store.Query

/-!
# Failed writes

A write that throws should leave the file as the memory knows it, or mark the store for a
reload. It does so at every step but two: when the `fsync` or the `close` of the directory
fails after the rename, the new file is in place, the memory is the old one, and nothing
marks the store (`failed_put_apart`). When those two calls do not fail, the memory and the
disk are never apart unmarked (`failed_write_marked`).
-/

namespace VAuth.Store

open Proc

variable {P : Platform} {w w' : World} {h : History}

/-- The file holds what is in memory, or there is no file and the store was never
written. -/
def InStep (P : Platform) (w : World) : Prop :=
  (w.disk.file = none ∧ w.store.stored = {} ∧ w.store.generation = 0) ∨
    ∃ e, w.disk.file = some e ∧ Seals P e w.store.generation w.store.stored

/-- From `w` the operation throws, whatever its input and output does, and at no point have
the file, the counter or the store changed. -/
def Refuses (P : Platform) (op : Operation) (w : World) : Prop :=
  ∀ stream : Nat → Answer, (∃ n e w', run ((List.range n).map stream) (op.run P) w = (fail e, w')) ∧
    ∀ n, let w' := (run ((List.range n).map stream) (op.run P) w).2
      w'.disk.file = w.disk.file ∧ w'.disk.counter = w.disk.counter ∧ w'.store = w.store

/-- Every query of the store throws. -/
structure RefusesQueries (P : Platform) (store : CredentialStore) : Prop where
  has : ∀ credId ownerUid, ∃ e, store.has credId ownerUid = .error e
  hasForRp : ∀ credId rpId ownerUid, ∃ e, store.hasForRp credId rpId ownerUid = .error e
  getByCredId : ∀ credId ownerUid, ∃ e, store.getByCredId credId ownerUid = .error e
  findForAssertion : ∀ rpId allowList ownerUid,
    ∃ e, store.findForAssertion P rpId allowList ownerUid = .error e
  listCredentials : ∃ e, store.listCredentials P = .error e

/-- A write from `w` that threw in `w'` has left memory and disk together, or the store is
marked, takes no operation but a load and answers no query. -/
structure FailedMarked (P : Platform) (w w' : World) : Prop where
  stored : w'.store.stored = w.store.stored
  generation : w'.store.generation = w.store.generation
  marked : InStep P w' ∨
    w'.store.requiresReload = true ∧ (∀ op, Refuses P op w') ∧ RefusesQueries P w'.store

/-! ## A marked store -/

theorem wp_run_marked (op : Operation) (hMarked : w.store.requiresReload = true) :
    wp (.alone (fun _ => True) fun w' => w' = w) (fun _ _ => False) (fun _ w' => w' = w)
      (op.run P) w := by
  rw [Operation.run_eq, commit, bind_eq, wp_bind]
  refine wp_keeps_read keeps_alone rfl ?_
  rw [bind_eq, wp_bind, wp_ofExcept]
  refine ⟨fun m _ => ?_, fun _ _ => rfl⟩
  simp only [saveStorage, bind_eq, wp_bind]
  refine wp_keeps_read keeps_alone rfl ?_
  rw [if_pos hMarked]
  rfl

theorem refuses_of_requiresReload (op : Operation) (hMarked : w.store.requiresReload = true) :
    Refuses P op w := by
  intro stream
  have hRefused := wp_run_marked (P := P) op hMarked
  constructor
  · obtain ⟨n, w', ⟨_, _, hNever⟩ | ⟨e, hEnd, _⟩⟩ :=
      wp_run_stream hRefused stream fun _ => trivial
    · exact hNever.elim
    · exact ⟨n, e, w', hEnd⟩
  · intro n
    obtain ⟨hSame, _⟩ := wp_run hRefused rfl ((List.range n).map stream) fun _ _ => trivial
    simp only [hSame, and_self]

/-- `require_ready` is the first statement of every query. -/
theorem refusesQueries_of_requiresReload {store : CredentialStore}
    (hMarked : store.requiresReload = true) : RefusesQueries P store := by
  have hReady : store.requireReady = .error _ := if_pos hMarked
  constructor <;> intros <;> exact ⟨_, congrArg (· >>= _) hReady⟩

/-! ## Runs in which the directory calls succeed -/

/-- The `fsync` and the `close` of the directory succeed. -/
def DirectorySyncs (a : Answer) : Prop :=
  a.fails .fsyncDirectory = false ∧ a.fails .closeDirectory = false

/-- Unless it is marked, the store in memory is the one in the file. -/
structure MarkedInv (P : Platform) (w : World) (h : History) : Prop where
  ready : ReadyInv P w h
  inStep : w.store.requiresReload = false → InStep P w

theorem InStep.of_eq (hStep : InStep P w) (hFile : w'.disk.file = w.disk.file)
    (hStore : w'.store = w.store) : InStep P w' := by
  rw [InStep, hFile, hStore]
  exact hStep

theorem Loaded.inStep (hLoaded : Loaded P w w') (hReached : LoadReaches P w w') : InStep P w' := by
  cases hLoaded with
  | absent hFile _ _ hStore => exact .inl ⟨hReached.file.trans hFile, by rw [hStore], by rw [hStore]⟩
  | present hFile hSeals _ _ hStore =>
    exact .inr ⟨_, hReached.file.trans hFile, by rw [hStore]; exact hSeals⟩

theorem Committed.inStep {m : Storage} (hCommitted : Committed P m w w') : InStep P w' := by
  obtain ⟨e, hFile, _, hSeals⟩ := hCommitted.installed.file
  exact .inr ⟨e, hFile, by rw [hCommitted.store]; exact hSeals⟩

theorem MarkedInv.thrown {op : Operation} {late : Prop} (hLate : ¬ late) (hInv : MarkedInv P w h)
    (hFails : CommitFails P op.change late w w') :
    w'.store.requiresReload = false → InStep P w' := by
  intro hFlag
  rcases hFails with hSame | ⟨m, _, hSame | ⟨hLater, -, -, -⟩ | ⟨-, -, hStore⟩⟩
  · exact (hInv.inStep (hSame.store ▸ hFlag)).of_eq hSame.file hSame.store
  · exact (hInv.inStep (hSame.store ▸ hFlag)).of_eq hSame.file hSame.store
  · exact absurd hLater hLate
  · rw [hStore] at hFlag
    cases hFlag

theorem not_directoryFails {C : Setting World Answer}
    (hC : ∀ w a, C.admits w a → DirectorySyncs a) : ¬ DirectoryFails C := by
  rintro ⟨w, a, ha, hFails | hFails⟩
  · rw [(hC w a ha).1] at hFails
    cases hFails
  · rw [(hC w a ha).2] at hFails
    cases hFails

theorem storeService_marked (hP : P.Lawful) :
    (storeService P).Invariant Service.nobody (fun _ a => DirectorySyncs a) (StoreInv P)
      (MarkedInv P) := by
  refine .alone ?_ ?_ (fun w h hInv => hInv.restart)
    (fun k w h hInv => hInv.ready.inv.interrupted k) (fun w h hInv => hInv.ready.inv)
  · intro w h hInv
    refine wp_mono (wp_boot hInv.restart Service.keeps_nobody) ?_ ?_
    · rintro _ w' hReturns
      exact ⟨hInv.restart.loaded hReturns.1 hReturns.2, fun _ => hReturns.2.inStep hReturns.1⟩
    · intro _ w' hFails
      exact hInv.restart.reaches hFails.reaches
  · intro k w h _ hInv
    refine wp_mono (wp_call hP hInv.ready k Service.keeps_nobody) ?_ ?_
    · intro _ w' hReturns
      refine ⟨hInv.ready.returned hReturns, fun _ => ?_⟩
      cases k with
      | load => exact hReturns.2.inStep hReturns.1
      | update op =>
        obtain ⟨m, _, hCommitted⟩ := hReturns
        exact hCommitted.inStep
    · intro _ w' hThrows
      refine ⟨hInv.ready.thrown hThrows, fun hFlag => ?_⟩
      cases k with
      | load => exact (hInv.inStep (hThrows.store ▸ hFlag)).of_eq hThrows.reaches.file hThrows.store
      | update op => exact hInv.thrown (not_directoryFails fun _ _ ha => ha) hThrows hFlag

/-- **A failed write is in step or marked**, in every run whose directory calls succeed
after a rename. -/
theorem failed_write_marked (hP : P.Lawful)
    (hRun : Service.Steps (storeService P) Service.nobody (fun _ a => DirectorySyncs a) fresh
      ⟨.ready, w, h⟩)
    (op : Operation) {inputs : List Answer} (hInputs : ∀ a ∈ inputs, DirectorySyncs a) {e : Exn}
    (hFail : run inputs (op.run P) w = (fail e, w')) : FailedMarked P w w' := by
  have hInv : MarkedInv P w h :=
    (storeService_marked hP).holds (c := fresh) fresh_holds hRun
  have hCall := wp_call (C := .alone DirectorySyncs fun _ => True) hP hInv.ready (.update op)
    (keeps_alone.mono fun _ _ => trivial)
  have hThrows : CallThrows P (.alone DirectorySyncs fun _ => True) (.update op) w w' := by
    have hEnd := (wp_run hCall trivial inputs hInputs).2
    change wp _ _ _ (run inputs (op.run P) w).1 (run inputs (op.run P) w).2 at hEnd
    rwa [hFail] at hEnd
  have hMemory := CommitFails.memory hThrows
  refine ⟨hMemory.1, hMemory.2, ?_⟩
  cases hFlag : w'.store.requiresReload with
  | false => exact .inl (hInv.thrown (not_directoryFails fun _ _ ha => ha) hThrows hFlag)
  | true =>
    exact .inr ⟨rfl, fun op' => refuses_of_requiresReload op' hFlag,
      refusesQueries_of_requiresReload hFlag⟩

/-- A new process on an empty disk is ready. -/
theorem steps_firstStart {admits : World → Answer → Prop} (hAdmits : ∀ w, admits w .success) :
    Service.Steps (storeService P) Service.nobody admits fresh ⟨.ready, {}, {}⟩ := by
  refine Service.steps_exec (fun _ _ => true)
    ([.start] ++ Service.feed 3 .success ++ [.finish]) (fun a ha w _ => ?_)
    (by simp [Service.feed]) rfl
  obtain rfl : a = .success := by simpa [Service.feed] using ha
  exact hAdmits w

/-- The operation that registers the sample credential. -/
def putSample : Operation := .put sampleCredential 1000

/-- The inputs of a write whose counter neither advances nor can be read back. -/
def counterLost : List Answer := List.replicate 16 .success ++
  List.replicate 3 { Answer.without .readCounter with increment := .failsWithoutEffect }

theorem failed_write_marked_counterLost :
    ∃ e w', run counterLost (putSample.run samplePlatform) {} = (fail e, w') ∧
      w'.store.requiresReload = true ∧ FailedMarked samplePlatform {} w' := by
  have hFail : run counterLost (putSample.run samplePlatform) {} =
      (fail (.runtimeError "TPM rollback counter read"), _) := run_eq_fail (by decide +kernel)
  refine ⟨_, _, hFail, by decide +kernel, failed_write_marked samplePlatform_lawful
    (steps_firstStart fun _ => ⟨rfl, rfl⟩) putSample ?_ hFail⟩
  intro a ha
  rcases List.mem_append.mp ha with h | h
  · rw [List.eq_of_mem_replicate h]
    exact ⟨rfl, rfl⟩
  · rw [List.eq_of_mem_replicate h]
    exact ⟨rfl, rfl⟩

/-- The inputs of a write whose directory `fsync` fails after the rename. -/
def lateFailure : List Answer := List.replicate 14 .success ++ [.without .fsyncDirectory]

/-- The directory `fsync` of a first registration fails after the rename: the credential is
in the file at generation 1, the store in memory is empty at generation 0, and it is not
marked for a reload. -/
theorem failed_put_apart :
    Service.Steps (storeService samplePlatform) Service.nobody (fun _ _ => True) fresh
      ⟨.ready, {}, {}⟩ ∧
    ∃ e w', run lateFailure (putSample.run samplePlatform) {} = (fail e, w') ∧
      ¬ FailedMarked samplePlatform {} w' := by
  refine ⟨steps_firstStart fun _ => trivial, .systemError "fsync credential store directory", _,
    run_eq_fail (by decide +kernel), fun hMarked => ?_⟩
  rcases hMarked.marked with (⟨hNone, _⟩ | ⟨e, hFile, text, hDecrypt, _⟩) | ⟨hFlag, _⟩
  · exact absurd hNone (by decide +kernel)
  · have hGeneration : ((run lateFailure (putSample.run samplePlatform) {}).2.disk.file.map
        fun e => (decrypt samplePlatform e).map DecryptedStore.generation) = some (.ok 1) := by
      decide +kernel
    have hMemory : (run lateFailure (putSample.run samplePlatform) {}).2.store.generation = 0 := by
      decide +kernel
    rw [hFile, Option.map_some, hDecrypt, hMemory] at hGeneration
    cases hGeneration
  · exact absurd hFlag (by decide +kernel)

end VAuth.Store
