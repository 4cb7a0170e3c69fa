import VAuth.Store.Runs

/-!
# Crash consistency of the store

`Durable` says how the file, the counter and the history fit together. The file holds
the acknowledged map at the counter's generation, or it is one generation ahead and holds
that map with one interrupted operation applied. Every call keeps this wherever it is
interrupted, so it holds at every point of every run, and it is exactly what `load`
needs to succeed (`crash_consistency`).
-/

namespace VAuth.Store

open Proc

variable {P : Platform} {w w' : World} {h : History}

/-- How the disk and the history fit together. -/
inductive Durable (P : Platform) (disk : Disk) (h : History) : Prop
  | absent (hFile : disk.file = none) (hCounter : disk.counter = 0) (hLast : h.last = {})
  | current {e : Bytes} (hFile : disk.file = some e) (hWritten : e ∈ disk.written)
      (hSeals : Seals P e h.last.generation h.last.stored)
      (hCounter : disk.counter = h.last.generation)
  | ahead {e : Bytes} {m : Storage} {op : Operation} (hFile : disk.file = some e)
      (hWritten : e ∈ disk.written) (hSeals : Seals P e (h.last.generation + 1) m)
      (hOp : op ∈ h.since) (hChange : op.change h.last = .ok m)
      (hBound : h.last.generation ≠ maxUInt64)
      (hCounter : disk.counter = h.last.generation ∨ disk.counter = h.last.generation + 1)

/-- What holds at every point of a run. -/
structure StoreInv (P : Platform) (w : World) (h : History) : Prop where
  durable : Durable P w.disk h
  valid : h.last.stored.Valid
  ready : h.last.requiresReload = false
  directory : w.disk.file ≠ none → w.disk.directory = true

/-- The memory of a running process is the acknowledged store. -/
structure ReadyInv (P : Platform) (w : World) (h : History) : Prop where
  inv : StoreInv P w h
  stored : w.store.stored = h.last.stored
  generation : w.store.generation = h.last.generation

/-! ## Operations -/

variable {op : Operation} {disk : Disk} {late : Prop} {C : Setting World Answer}

theorem mem_since_interrupted (hOp : op ∈ h.since) (k : Call) : op ∈ (h.interrupted k).since := by
  cases k with
  | load => exact hOp
  | update op' => exact List.mem_append_left _ hOp

theorem last_interrupted (k : Call) : (h.interrupted k).last = h.last := by
  cases k <;> rfl

theorem Durable.mono {disk' : Disk} (hDurable : Durable P disk h) (hFile : disk'.file = disk.file)
    (hCounter : disk'.counter = disk.counter) (hWritten : disk.written <+: disk'.written)
    (k : Call) : Durable P disk' (h.interrupted k) := by
  have hLast := (last_interrupted (h := h) k).symm
  cases hDurable with
  | absent hF hC hL => exact .absent (hFile.trans hF) (hCounter.trans hC) (hLast.symm.trans hL)
  | current hF hW hS hC =>
    rw [hLast] at hS hC
    exact .current (hFile.trans hF) (hWritten.subset hW) hS (hCounter.trans hC)
  | ahead hF hW hS hO hX hB hC =>
    rw [← hCounter, hLast] at hC
    rw [hLast] at hS hX hB
    exact .ahead (hFile.trans hF) (hWritten.subset hW) hS (mem_since_interrupted hO k) hX hB hC

theorem StoreInv.interrupted (hInv : StoreInv P w h) (k : Call) : StoreInv P w (h.interrupted k) where
  durable := hInv.durable.mono rfl rfl (List.prefix_refl _) k
  valid := last_interrupted (h := h) k ▸ hInv.valid
  ready := last_interrupted (h := h) k ▸ hInv.ready
  directory := hInv.directory

theorem StoreInv.restart (hInv : StoreInv P w h) : StoreInv P { w with store := {} } h :=
  { hInv with }

theorem ReadyInv.store_eq (hReady : ReadyInv P w h) (hFlag : w.store.requiresReload = false) :
    w.store = h.last := by
  have hLast := hReady.inv.ready
  have hStored := hReady.stored
  have hGeneration := hReady.generation
  cases hw : w.store
  cases hl : h.last
  simp_all

/-- The invariant where an operation is interrupted. -/
theorem ReadyInv.reaches (hReady : ReadyInv P w h) (hReached : CommitReaches P op.change w w') :
    StoreInv P w' (h.interrupted (.update op)) := by
  rcases hReached with hSame | ⟨m, hChange, hInstalled, hNear⟩
  · refine ⟨hReady.inv.durable.mono hSame.file hSame.counter hSame.written _, hReady.inv.valid,
      hReady.inv.ready, fun hFile => hSame.directory (hReady.inv.directory ?_)⟩
    rwa [← hSame.file]
  · obtain ⟨e, hFile, hWritten, hSeals⟩ := hInstalled.file
    have hStore := hReady.store_eq hInstalled.startable.ready
    rw [CounterNear, hStore] at hNear
    rw [hStore] at hSeals hChange
    have hOp : op ∈ (h.interrupted (.update op)).since :=
      List.mem_append_right _ List.mem_cons_self
    have hBound := hStore ▸ hInstalled.startable.bound
    exact ⟨.ahead hFile hWritten hSeals hOp hChange hBound hNear, hReady.inv.valid,
      hReady.inv.ready, fun _ => hInstalled.directory⟩

theorem CommitFails.reaches (hFails : CommitFails P op.change late w w') :
    CommitReaches P op.change w w' := by
  rcases hFails with hSame | ⟨m, hChange, hSame | ⟨-, hInstalled, hCounter, -⟩ | ⟨hInstalled, hNear, -⟩⟩
  · exact .inl hSame
  · exact .inl hSame
  · exact .inr ⟨m, hChange, hInstalled, .inl hCounter⟩
  · exact .inr ⟨m, hChange, hInstalled, hNear⟩

theorem CommitFails.memory (hFails : CommitFails P op.change late w w') :
    w'.store.stored = w.store.stored ∧ w'.store.generation = w.store.generation := by
  rcases hFails with hSame | ⟨m, _, hSame | ⟨-, -, -, hStore⟩ | ⟨-, -, hStore⟩⟩
  · rw [hSame.store]
    exact ⟨rfl, rfl⟩
  · rw [hSame.store]
    exact ⟨rfl, rfl⟩
  · rw [hStore]
    exact ⟨rfl, rfl⟩
  · rw [hStore]
    exact ⟨rfl, rfl⟩

theorem ReadyInv.failed (hReady : ReadyInv P w h) (hFails : CommitFails P op.change late w w') :
    ReadyInv P w' (h.interrupted (.update op)) where
  inv := hReady.reaches hFails.reaches
  stored := hFails.memory.1.trans hReady.stored
  generation := hFails.memory.2.trans hReady.generation

theorem ReadyInv.committed {m : Storage} (hReady : ReadyInv P w h)
    (hChange : op.change w.store = .ok m) (hCommitted : Committed P m w w') :
    ReadyInv P w' { last := w'.store } := by
  obtain ⟨e, hFile, hWritten, hSeals⟩ := hCommitted.installed.file
  have hStore := hCommitted.store
  have hValid : m.Valid := Operation.change_valid (hReady.stored ▸ hReady.inv.valid) hChange
  refine ⟨⟨.current hFile hWritten ?_ ?_, ?_, ?_, fun _ => hCommitted.installed.directory⟩, rfl, rfl⟩
  · rw [hStore]
    exact hSeals
  · rw [hStore]
    exact hCommitted.counter
  · rw [hStore]
    exact hValid
  · rw [hStore]
    exact hCommitted.installed.startable.ready

/-! ## Loads -/

theorem Durable.advance (hDurable : Durable P disk h) (hAhead : Ahead P disk) :
    Durable P { disk with counter := disk.counter + 1 } h := by
  obtain ⟨e, m, hFile, hSeals, _⟩ := hAhead
  cases hDurable with
  | absent hF hC hL =>
    rw [hF] at hFile
    cases hFile
  | current hF hW hS hC =>
    rw [hF] at hFile
    cases hFile
    rw [hC] at hSeals
    exact absurd (hSeals.unique hS).1 (succ_ne_self _)
  | ahead hF hW hS hO hX hB hC =>
    rcases hC with hC | hC
    · exact .ahead hF hW hS hO hX hB (.inr (by rw [hC]))
    · rw [hF] at hFile
      cases hFile
      rw [hC] at hSeals
      exact absurd (hSeals.unique hS).1 (succ_ne_self _)

/-- The invariant where a load is interrupted. -/
theorem StoreInv.reaches (hInv : StoreInv P w h) (hReached : LoadReaches P w w') :
    StoreInv P w' h := by
  refine ⟨?_, hInv.valid, hInv.ready, ?_⟩
  · have hWritten : w.disk.written <+: w'.disk.written := hReached.written ▸ List.prefix_refl _
    rcases hReached.counter with hSame | ⟨hAhead, hAdvanced⟩
    · exact hInv.durable.mono hReached.file hSame hWritten .load
    · exact (hInv.durable.advance hAhead).mono hReached.file hAdvanced hWritten .load
  · rw [hReached.file, hReached.directory]
    exact hInv.directory

theorem StoreInv.loaded (hInv : StoreInv P w h) (hReached : LoadReaches P w w')
    (hLoaded : Loaded P w w') : ReadyInv P w' { last := w'.store } := by
  have hDirectory := (hInv.reaches hReached).directory
  cases hLoaded with
  | absent hFile hZero hCounter hStore =>
    refine ⟨⟨.absent (hReached.file.trans hFile) hCounter hStore, ?_, ?_, hDirectory⟩, rfl, rfl⟩
    · rw [hStore]
      exact Storage.valid_empty
    · rw [hStore]
  | @present e g m hFile hSeals hCounter hFrom hStore =>
    have hOld : e ∈ w.disk.written ∧ m.Valid := by
      cases hInv.durable with
      | absent hF => rw [hF] at hFile; cases hFile
      | current hF hW hS hC =>
        rw [hF] at hFile
        cases hFile
        exact ⟨hW, (hSeals.unique hS).2 ▸ hInv.valid⟩
      | ahead hF hW hS hO hX hB hC =>
        rw [hF] at hFile
        cases hFile
        exact ⟨hW, (hSeals.unique hS).2 ▸ Operation.change_valid hInv.valid hX⟩
    refine ⟨⟨.current (hReached.file.trans hFile) (hReached.written ▸ hOld.1) ?_ ?_, ?_, ?_,
      hDirectory⟩, rfl, rfl⟩
    · rw [hStore]
      exact hSeals
    · rw [hStore]
      exact hCounter
    · rw [hStore]
      exact hOld.2
    · rw [hStore]

/-! ## Calls -/

/-- Where a call returns. -/
def CallReturns (P : Platform) : Call → World → World → Prop
  | .load, w, w' => LoadReaches P w w' ∧ Loaded P w w'
  | .update op, w, w' => ∃ m, op.change w.store = .ok m ∧ Committed P m w w'

/-- Where a call throws. -/
def CallThrows (P : Platform) (C : Setting World Answer) : Call → World → World → Prop
  | .load, w, w' => LoadFails P C w w'
  | .update op, w, w' => CommitFails P op.change (DirectoryFails C) w w'

theorem wp_boot (hInv : StoreInv P w h) (hC : C.Keeps fun w' => StoreInv P w' h) :
    wp C (fun _ w' => CallReturns P .load w w') (fun _ w' => CallThrows P C .load w w')
      (Call.run P .load) w :=
  wp_load (hC.mono fun _ hw' => hInv.reaches hw') hInv.directory

theorem wp_call (hP : P.Lawful) (hReady : ReadyInv P w h) (k : Call)
    (hC : C.Keeps fun w' => StoreInv P w' (h.interrupted k)) :
    wp C (fun _ w' => CallReturns P k w w') (fun _ w' => CallThrows P C k w w') (k.run P) w := by
  cases k with
  | load => exact wp_boot hReady.inv hC
  | update op =>
    have hValid : ∀ m, op.change w.store = .ok m → m.Valid :=
      fun m hm => Operation.change_valid (hReady.stored ▸ hReady.inv.valid) hm
    change wp _ _ _ (op.run P) w
    rw [Operation.run_eq]
    exact wp_commit hP hValid (hC.mono fun _ hw' => hReady.reaches hw')

theorem ReadyInv.returned {k : Call} (hReady : ReadyInv P w h) (hReturns : CallReturns P k w w') :
    ReadyInv P w' { last := w'.store } := by
  cases k with
  | load => exact hReady.inv.loaded hReturns.1 hReturns.2
  | update op =>
    obtain ⟨m, hChange, hCommitted⟩ := hReturns
    exact hReady.committed hChange hCommitted

theorem ReadyInv.thrown {k : Call} (hReady : ReadyInv P w h) (hThrows : CallThrows P C k w w') :
    ReadyInv P w' (h.interrupted k) := by
  cases k with
  | load =>
    refine ⟨hReady.inv.reaches hThrows.reaches, ?_, ?_⟩
    · rw [hThrows.store]
      exact hReady.stored
    · rw [hThrows.store]
      exact hReady.generation
  | update op => exact hReady.failed hThrows

/-! ## Every run -/

theorem storeService_invariant (hP : P.Lawful) (admits : World → Answer → Prop) :
    (storeService P).Invariant Service.nobody admits (StoreInv P) (ReadyInv P) := by
  refine .alone ?_ ?_ (fun w h hInv => hInv.restart) (fun k w h hReady => hReady.inv.interrupted k)
    (fun w h hReady => hReady.inv)
  · intro w h hInv
    refine wp_mono (wp_boot hInv.restart Service.keeps_nobody) ?_ ?_
    · intro _ w' hReturns
      exact hInv.restart.loaded hReturns.1 hReturns.2
    · intro _ w' hThrows
      exact hInv.restart.reaches hThrows.reaches
  · intro k w h _ hReady
    refine wp_mono (wp_call hP hReady k Service.keeps_nobody) ?_ ?_
    · intro _ w' hReturns
      exact hReady.returned hReturns
    · intro _ w' hThrows
      exact hReady.thrown hThrows

theorem fresh_holds : StoreInv P {} {} where
  durable := .absent rfl rfl rfl
  valid := Storage.valid_empty
  ready := rfl
  directory := fun h => absurd rfl h

theorem holds_of_steps (hP : P.Lawful) {admits : World → Answer → Prop}
    {c : Service.Config World Answer Exn Call Unit History}
    (hRun : Service.Steps (storeService P) Service.nobody admits fresh c) :
    Service.Holds (storeService P) Service.nobody admits (StoreInv P) (ReadyInv P) c :=
  (storeService_invariant hP admits).holds (c := fresh) fresh_holds hRun

/-! ## Crash consistency -/

/-- The generation of the file is the counter or one more; without a file the counter is
zero. -/
def CounterConsistent (P : Platform) (disk : Disk) : Prop :=
  (disk.file = none ∧ disk.counter = 0) ∨ ∃ e d, disk.file = some e ∧ decrypt P e = .ok d ∧
      (d.generation = disk.counter ∨ d.generation.toNat = disk.counter.toNat + 1)

/-- The acknowledged map, or that map with one interrupted operation applied. -/
def Recovered (h : History) (m : Storage) : Prop :=
  m = h.last.stored ∨ ∃ op ∈ h.since, op.change h.last = .ok m

/-- The world in which a load can start: a new process image, or a running one. -/
inductive LoadStart : Service.Config World Answer Exn Call Unit History → World → Prop
  | boot {w : World} {h : History} : LoadStart ⟨.down, w, h⟩ { w with store := {} }
  | again {w : World} {h : History} : LoadStart ⟨.ready, w, h⟩ w

theorem Durable.counterConsistent (hDurable : Durable P disk h) : CounterConsistent P disk := by
  cases hDurable with
  | absent hFile hCounter => exact .inl ⟨hFile, hCounter⟩
  | current hFile _ hSeals hCounter =>
    obtain ⟨text, hDecrypt, _⟩ := hSeals
    exact .inr ⟨_, _, hFile, hDecrypt, .inl hCounter.symm⟩
  | ahead hFile _ hSeals _ _ hBound hCounter =>
    obtain ⟨text, hDecrypt, _⟩ := hSeals
    refine .inr ⟨_, _, hFile, hDecrypt, ?_⟩
    rcases hCounter with hCounter | hCounter
    · exact .inr (by rw [hCounter]; exact toNat_succ hBound)
    · exact .inl hCounter.symm

/-- What a load asks of the disk, from the invariant. -/
theorem Durable.loadable (hDurable : Durable P disk h)
    (hSize : ∀ e ∈ disk.written, e.length ≤ maxStoreSize) : Loadable P disk := by
  cases hDurable with
  | absent hFile hCounter =>
    refine ⟨fun _ => hCounter, fun e he => ?_⟩
    rw [hFile] at he
    cases he
  | current hFile hWritten hSeals hCounter =>
    refine ⟨fun hNone => ?_, fun e he => ?_⟩
    · rw [hFile] at hNone
      cases hNone
    · rw [hFile] at he
      cases he
      exact ⟨hSize _ hWritten, _, _, hSeals, .inl hCounter.symm⟩
  | ahead hFile hWritten hSeals _ _ hBound hCounter =>
    refine ⟨fun hNone => ?_, fun e he => ?_⟩
    · rw [hFile] at hNone
      cases hNone
    · rw [hFile] at he
      cases he
      refine ⟨hSize _ hWritten, _, _, hSeals, ?_⟩
      rcases hCounter with hCounter | hCounter
      · exact .inr ⟨by rw [hCounter], hCounter ▸ hBound⟩
      · exact .inl hCounter.symm

theorem Durable.recovered (hDurable : Durable P w.disk h) (hLoaded : Loaded P w w') :
    Recovered h w'.store.stored := by
  cases hLoaded with
  | absent hFile hZero hCounter hStore =>
    rw [hStore]
    cases hDurable with
    | absent _ _ hLast => exact .inl (by rw [hLast])
    | current hF => rw [hF] at hFile; cases hFile
    | ahead hF => rw [hF] at hFile; cases hFile
  | present hFile hSeals hCounter hFrom hStore =>
    rw [hStore]
    cases hDurable with
    | absent hF => rw [hF] at hFile; cases hFile
    | current hF _ hS _ =>
      rw [hF] at hFile
      cases hFile
      exact .inl (hSeals.unique hS).2
    | ahead hF _ hS hOp hChange _ _ =>
      rw [hF] at hFile
      cases hFile
      exact .inr ⟨_, hOp, (hSeals.unique hS).2 ▸ hChange⟩

theorem StoreInv.load_succeeds (hInv : StoreInv P w h)
    (hSize : ∀ e ∈ w.disk.written, e.length ≤ maxStoreSize) (stream : Nat → Answer)
    (hStream : ∀ n, (stream n).Succeeds) :
    ∃ n w', run ((List.range n).map stream) (load P) w = (done (), w') ∧
      Recovered h w'.store.stored := by
  have hKeeps : (Setting.alone Answer.Succeeds fun _ => True).Keeps (LoadReaches P w) :=
    keeps_alone.mono fun _ _ => trivial
  obtain ⟨n, w', ⟨_, hEnd, hReached, hLoaded⟩ | ⟨_, _, hFails⟩⟩ :=
    wp_run_stream (wp_load hKeeps hInv.directory) stream hStream
  · exact ⟨n, w', hEnd, hInv.durable.recovered hLoaded⟩
  · exact absurd ⟨fun _ _ ha => ha, hInv.durable.loadable hSize⟩ hFails.fault

/-- **Crash consistency.** At every point of a run of the store, with any failures and
crashes, the file's generation is the counter's or one more; and every load whose own
input and output succeeds yields the acknowledged map, or that map with one interrupted
operation applied. -/
theorem crash_consistency (hP : P.Lawful) {c : Service.Config World Answer Exn Call Unit History}
    (hRun : Service.Steps (storeService P) Service.nobody (fun _ _ => True) fresh c)
    (hSize : ∀ e ∈ c.state.disk.written, e.length ≤ maxStoreSize) :
    CounterConsistent P c.state.disk ∧
      ∀ w, LoadStart c w → ∀ stream : Nat → Answer, (∀ n, (stream n).Succeeds) →
        ∃ n w', run ((List.range n).map stream) (load P) w = (done (), w') ∧
          Recovered c.ghost w'.store.stored := by
  have hHolds := holds_of_steps hP hRun
  constructor
  · obtain ⟨φ, w, h⟩ := c
    cases φ with
    | down => exact hHolds.durable.counterConsistent
    | ready => exact hHolds.inv.durable.counterConsistent
    | busy booting k p => exact hHolds.1.durable.counterConsistent
  · intro w hStart stream hStream
    cases hStart with
    | boot => exact (StoreInv.restart hHolds).load_succeeds hSize stream hStream
    | again => exact hHolds.inv.load_succeeds hSize stream hStream

/-- A first `clear` that crashes right after the rename. -/
def interruptedClear : List (Service.Action World Answer Call) :=
  [.start] ++ Service.feed 3 .success ++ [.finish, .invoke (.update .clear)] ++
    Service.feed 14 .success ++ [.crash]

theorem crash_consistency_interruptedClear : ∃ w h,
    Service.Steps (storeService samplePlatform) Service.nobody (fun _ _ => True) fresh
      ⟨.down, w, h⟩ ∧ w.disk.file ≠ none ∧ w.disk.counter = 0 ∧
    CounterConsistent samplePlatform w.disk ∧
    ∃ n w', run ((List.range n).map fun _ => Answer.success) (load samplePlatform)
      { w with store := {} } = (done (), w') ∧ Recovered h w'.store.stored := by
  have hRun : Service.Steps (storeService samplePlatform) Service.nobody (fun _ _ => True) fresh _ :=
    Service.steps_exec (fun _ _ => true) interruptedClear (fun _ _ _ _ => trivial)
      (by simp [interruptedClear, Service.feed]) rfl
  obtain ⟨hCounter, hLoad⟩ := crash_consistency samplePlatform_lawful hRun (by decide)
  exact ⟨_, _, hRun, by decide, by decide, hCounter,
    hLoad _ .boot (fun _ => .success) fun _ => Answer.success_succeeds⟩

end VAuth.Store
