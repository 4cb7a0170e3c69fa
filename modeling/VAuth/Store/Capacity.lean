import VAuth.Store.Memory
import VAuth.Store.Representation
import VAuth.Store.Serialization
import VAuth.Store.Size

/-!
# Room in the store file

`read_store_file` refuses a file over `MAX_STORE_SIZE`, and `save_storage` does not look at the
size of what it writes. While there is room for the credential of every `put`, everything that is
written stays within the limit and can be loaded again; a single credential with a long display
name is committed and then refused by every load.
-/

namespace VAuth.Store

open Proc

/-! ## What is written fits -/

/-- Every envelope is within the limit that `read_store_file` enforces. -/
def Small (written : List Bytes) : Prop := ∀ e ∈ written, e.length ≤ maxStoreSize

/-- The envelopes that were written. -/
def World.written (w : World) : List Bytes := w.disk.written

section Written

variable {P : Platform} {C : Setting World Answer} {w : World}

theorem maintains_atomicWriteFile {e : Bytes} (hC : C.Shows World.written Small)
    (he : e.length ≤ maxStoreSize) :
    Maintains C (fun w => Small w.written) (atomicWriteFile e) := by
  have hWrite : Maintains C (fun w => Small w.written) (writeAll e) := by
    refine maintains_bind (maintains_of_still hC still_touch) fun _ w hw => ?_
    refine wp_shows_atomically hC fun w' a hSame _ => ?_
    have hBefore : Small w'.written := hSame ▸ hw
    cases a.fails .write with
    | true => exact ⟨hBefore, nofun, fun _ _ => hBefore⟩
    | false =>
      have hAfter : Small (w'.written ++ [e]) :=
        List.forall_mem_append.mpr ⟨hBefore, List.forall_mem_singleton.mpr he⟩
      exact ⟨hAfter, fun _ _ => hAfter, nofun⟩
  refine maintains_bind (maintains_of_still hC (still_syscall fun _ => rfl)) fun _ => ?_
  refine maintains_bind (maintains_of_still hC still_openStoreDirectory) fun _ => ?_
  refine maintains_bind (maintains_of_still hC (still_createTemporaryFile fun _ _ => rfl))
    fun _ => ?_
  refine maintains_bind (maintains_tryCatch (maintains_bind hWrite fun _ => ?_) fun _ => ?_)
    fun _ => maintains_of_still hC (still_bind still_touch fun _ => still_touch)
  · exact maintains_of_still hC (still_bind still_touch fun _ => still_bind still_touch fun _ =>
      still_syscall fun _ => rfl)
  · exact maintains_of_still hC (still_bind (still_modify fun _ => rfl) fun _ => trivial)

theorem maintains_saveStorage {m : Storage} (hP : P.Lawful) (hCompact : P.DumpsCompact)
    (hC : C.Shows World.written Small) (hValid : m.Valid)
    (hWeight : m.weight + envelopeOverhead ≤ maxStoreSize) :
    Maintains C (fun w => Small w.written) (saveStorage P m) := by
  unfold saveStorage
  refine maintains_bind (maintains_of_still hC (still_atomically fun _ _ => rfl)) fun store => ?_
  by_cases hReload : store.requiresReload = true
  · rw [if_pos hReload]
    exact fun _ hw => hw
  rw [if_neg hReload]
  refine maintains_bind (maintains_of_still hC still_readCounter) fun counter => ?_
  by_cases hSame : counter ≠ store.generation
  · rw [if_pos hSame]
    exact fun _ hw => hw
  by_cases hBound : counter = maxUInt64
  · rw [if_neg hSame, if_pos hBound]
    exact fun _ hw => hw
  rw [if_neg hSame, if_neg hBound]
  cases hDump : P.dump (storageDocument (P.iterate m)) with
  | none => exact fun _ hw => hw
  | some text =>
    intro w hw
    refine wp_bind.mpr (wp_shows_observe hC hw fun w' a hSame _ => ?_)
    have hw' : Small w'.written := hSame ▸ hw
    refine ⟨fun e he => ?_, fun _ _ => hw'⟩
    split at he
    · cases he
    split at he
    · cases he
    have hLength : e.length ≤ maxStoreSize :=
      Nat.le_trans (length_envelope_le hP hCompact hValid hDump he) hWeight
    refine maintains_bind (maintains_atomicWriteFile hC hLength) (fun _ => ?_) w' hw'
    refine maintains_bind (maintains_of_still hC
      (still_advance (fun _ _ => rfl) (fun _ _ => rfl) _)) fun _ => ?_
    exact maintains_of_still hC (still_modify fun _ => rfl)

/-- An operation whose map fits writes an envelope that fits. -/
theorem wp_small_commit {change : CredentialStore → Except Exn Storage} (hP : P.Lawful)
    (hCompact : P.DumpsCompact) (hC : C.Keeps fun w => Small w.written) (hSmall : Small w.written)
    (hChange : ∀ m, change w.store = .ok m → m.Valid ∧ m.weight + envelopeOverhead ≤ maxStoreSize) :
    wp C (fun _ w' => Small w'.written) (fun _ w' => Small w'.written) (commit P change) w := by
  unfold commit
  refine wp_bind.mpr (wp_keeps_read hC hSmall ?_)
  refine wp_bind.mpr (wp_ofExcept.mpr ⟨fun m hm => ?_, fun _ _ => hSmall⟩)
  obtain ⟨hValid, hWeight⟩ := hChange m hm
  refine maintains_bind (maintains_saveStorage hP hCompact hC.shows hValid hWeight) (fun _ => ?_) w
    hSmall
  exact maintains_of_still hC.shows (still_modify fun _ => rfl)

theorem still_written_load : Still World.written (load P) := by
  refine still_bind (still_readStoreFile fun _ _ => rfl) fun contents => ?_
  cases contents with
  | none =>
    refine still_bind still_readCounter fun n => ?_
    split
    · trivial
    · exact still_modify fun _ => rfl
  | some e =>
    refine still_bind (still_atomically fun _ _ => rfl) fun d => ?_
    refine still_bind still_readCounter fun n => still_bind (still_ofExcept _) fun _ => ?_
    refine still_bind (still_ofExcept _) fun m => ?_
    exact still_bind (still_recoverCounter (fun _ _ => rfl) _ _) fun _ =>
      still_modify fun _ => rfl

end Written

/-! ## Every run -/

/-- There is room for the credential of a `put` where it is called. -/
def HasRoom (k : Call) (w : World) : Prop :=
  match k with
  | .load => True
  | .update op => op.Fits w.store

/-- Whatever map the file holds fits. -/
def FileFits (P : Platform) (disk : Disk) : Prop := ∀ e g m, disk.file = some e → Seals P e g m →
  m.weight + envelopeOverhead ≤ maxStoreSize

/-- What holds at every point of a run with room. -/
structure RoomyInv (P : Platform) (w : World) (h : History) : Prop where
  inv : StoreInv P w h
  file : FileFits P w.disk
  small : Small w.written

structure RoomyReady (P : Platform) (w : World) (h : History) : Prop where
  ready : ReadyInv P w h
  file : FileFits P w.disk
  small : Small w.written
  weight : w.store.stored.weight + envelopeOverhead ≤ maxStoreSize

section Runs

variable {P : Platform} {w w' : World} {h : History} {C : Setting World Answer}

theorem RoomyReady.interrupted (hReady : RoomyReady P w h) (k : Call) :
    RoomyInv P w (h.interrupted k) :=
  ⟨hReady.ready.inv.interrupted k, hReady.file, hReady.small⟩

theorem Installed.fileFits {m : Storage} (hInstalled : Installed P m w w')
    (hWeight : m.weight + envelopeOverhead ≤ maxStoreSize) : FileFits P w'.disk := by
  intro e g m' hFile hSeals
  obtain ⟨e', hFile', -, hSeals'⟩ := hInstalled.file
  rw [hFile] at hFile'
  cases hFile'
  rw [(hSeals.unique hSeals').2]
  exact hWeight

theorem FileFits.reaches {op : Operation} (hFile : FileFits P w.disk)
    (hWeight : ∀ m, op.change w.store = .ok m → m.weight + envelopeOverhead ≤ maxStoreSize)
    (hReached : CommitReaches P op.change w w') : FileFits P w'.disk := by
  rcases hReached with hSame | ⟨m, hChange, hInstalled, -⟩
  · intro e g m
    rw [hSame.file]
    exact hFile e g m
  · exact hInstalled.fileFits (hWeight m hChange)

theorem wp_roomy_operation {op : Operation} (hP : P.Lawful) (hCompact : P.DumpsCompact)
    (hReady : RoomyReady P w h) (hFits : op.Fits w.store)
    (hC : C.Keeps fun w' => RoomyInv P w' (h.interrupted (.update op))) :
    wp C (fun _ w' => CallReturns P (.update op) w w' ∧ RoomyReady P w' { last := w'.store })
      (fun _ w' => RoomyReady P w' (h.interrupted (.update op))) (op.run P) w := by
  obtain ⟨hInv, hFile, hSmall, hWeight⟩ := hReady
  have hValid : ∀ m, op.change w.store = .ok m → m.Valid :=
    fun m hm => Operation.change_valid (hInv.stored ▸ hInv.inv.valid) hm
  have hNew : ∀ m, op.change w.store = .ok m → m.weight + envelopeOverhead ≤ maxStoreSize :=
    fun m hm => Operation.change_weight hFits hWeight hm
  rw [Operation.run_eq]
  have hStore := wp_commit (C := { C with guar := fun _ w' => CommitReaches P op.change w w' }) hP
    hValid ⟨hC.rely, fun _ _ h => h⟩
  have hWritten := wp_small_commit (C := { C with guar := fun _ w' => Small w'.written }) hP hCompact
    ⟨hC.rely, fun _ _ h => h⟩ hSmall fun m hm => ⟨hValid m hm, hNew m hm⟩
  refine wp_mono (wp_and hStore hWritten (fun _ _ h => ⟨h, h⟩) (fun _ _ h => ⟨h, h⟩) ?_ id) ?_ ?_
  · exact fun s s' hReached hSmall' =>
      hC.guar s s' ⟨hInv.reaches hReached, hFile.reaches hNew hReached, hSmall'⟩
  · rintro _ w' ⟨⟨m, hChange, hCommitted⟩, hSmall'⟩
    refine ⟨⟨m, hChange, hCommitted⟩, hInv.committed hChange hCommitted,
      hCommitted.installed.fileFits (hNew m hChange), hSmall', ?_⟩
    rw [hCommitted.store]
    exact hNew m hChange
  · rintro _ w' ⟨hFails, hSmall'⟩
    refine ⟨hInv.failed hFails, hFile.reaches hNew hFails.reaches, hSmall', ?_⟩
    rw [hFails.memory.1]
    exact hWeight

theorem wp_roomy_load (hInv : RoomyInv P w h) (hC : C.Keeps fun w' => RoomyInv P w' h) :
    wp C (fun _ w' => RoomyReady P w' { last := w'.store })
      (fun _ w' => RoomyInv P w' h ∧ w'.store = w.store) (load P) w := by
  obtain ⟨hInv, hFile, hSmall⟩ := hInv
  have hStore := wp_load (P := P) (C := { C with guar := fun _ w' => LoadReaches P w w' })
    ⟨hC.rely, fun _ _ h => h⟩ hInv.directory
  have hWritten := maintains_of_still (C := { C with guar := fun _ w' => Small w'.written })
    ⟨fun s s' h => congrArg World.written (hC.rely s s' h), fun _ _ h => h⟩
    (still_written_load (P := P)) w hSmall
  have hSameFile : ∀ {w'}, LoadReaches P w w' → FileFits P w'.disk := by
    intro w' hReached e g m
    rw [hReached.file]
    exact hFile e g m
  refine wp_mono (wp_and hStore hWritten (fun _ _ h => ⟨h, h⟩) (fun _ _ h => ⟨h, h⟩) ?_ id) ?_ ?_
  · exact fun s s' hReached hSmall' =>
      hC.guar s s' ⟨hInv.reaches hReached, hSameFile hReached, hSmall'⟩
  · rintro _ w' ⟨⟨hReached, hLoaded⟩, hSmall'⟩
    refine ⟨hInv.loaded hReached hLoaded, hSameFile hReached, hSmall', ?_⟩
    cases hLoaded with
    | absent _ _ _ hEmpty =>
      rw [hEmpty]
      decide
    | present hRead hSeals _ _ hNow =>
      rw [hNow]
      exact hFile _ _ _ hRead hSeals
  · rintro _ w' ⟨hFails, hSmall'⟩
    exact ⟨⟨hInv.reaches hFails.reaches, hSameFile hFails.reaches, hSmall'⟩, hFails.store⟩

/-- The invariant of a run in which every `put` is called where there is room. -/
theorem roomy_of_steps (hP : P.Lawful) (hCompact : P.DumpsCompact)
    {c : Service.Config World Answer Exn Call Unit History}
    (hRun : Service.StepsWhere (storeService P) Service.nobody (fun _ _ => True) HasRoom fresh c) :
    Service.Holds (storeService P) Service.nobody (fun _ _ => True) (RoomyInv P) (RoomyReady P)
      c := by
  have hStart : RoomyInv P {} {} := ⟨fresh_holds, nofun, nofun⟩
  have hRestart : ∀ {w h}, RoomyInv P w h → RoomyInv P { w with store := {} } h :=
    fun hInv => ⟨hInv.inv.restart, hInv.file, hInv.small⟩
  refine Service.Invariant.holdsWhere (.alone ?_ nofun (fun _ _ hInv => hRestart hInv)
    (fun k _ _ hReady => hReady.interrupted k)
    (fun _ _ hReady => ⟨hReady.ready.inv, hReady.file, hReady.small⟩)) ?_ (c := fresh) hStart hRun
  · intro w h hInv
    exact wp_mono (wp_roomy_load (hRestart hInv) Service.keeps_nobody) (fun _ _ h => h)
      (fun _ _ h => h.1)
  · intro k w h hRoom hReady
    cases k with
    | load =>
      refine wp_mono (wp_roomy_load (hReady.interrupted .load) Service.keeps_nobody)
        (fun _ _ h => h) ?_
      rintro _ w' ⟨hInv, hStore⟩
      refine ⟨⟨hInv.inv, ?_, ?_⟩, hInv.file, hInv.small, ?_⟩
      · rw [hStore]
        exact hReady.ready.stored
      · rw [hStore]
        exact hReady.ready.generation
      · rw [hStore]
        exact hReady.weight
    | update op =>
      exact wp_mono (wp_roomy_operation hP hCompact hReady hRoom Service.keeps_nobody)
        (fun _ _ h => h.2) (fun _ _ h => h)

end Runs

/-! ## What is committed can be read again -/

/-- The file holds what is in memory, within every limit, and a new process reads it. -/
structure Readable (P : Platform) (w : World) : Prop where
  file : ∃ e text json, w.disk.file = some e ∧ e.length ≤ maxStoreSize ∧
    decrypt P e = .ok { generation := w.store.generation, plaintext := text } ∧
    P.parse text = some json ∧ parseStorage json = .ok w.store.stored
  size : w.store.stored.size ≤ maxCredentials
  loads : ∀ stream : Nat → Answer, (∀ n, (stream n).Succeeds) →
    ∃ n w', run ((List.range n).map stream) (load P) { w with store := {} } = (done (), w') ∧
      w'.store.stored = w.store.stored

theorem Committed.readable {P : Platform} {w w' : World} {m : Storage}
    (hCommitted : Committed P m w w') (hReady : RoomyReady P w' { last := w'.store }) :
    Readable P w' where
  file := by
    obtain ⟨e, hFile, hWritten, text, hDecrypt, hParse⟩ := hCommitted.installed.file
    rw [hCommitted.store]
    cases hJson : P.parse text with
    | none =>
      rw [parsePlaintext, hJson] at hParse
      cases hParse
    | some json =>
      rw [parsePlaintext, hJson] at hParse
      exact ⟨e, text, json, hFile, hReady.small e hWritten, hDecrypt, hJson, hParse⟩
  size := hReady.ready.inv.valid.size
  loads := by
    intro stream hStream
    obtain ⟨n, w'', hEnd, hSame | ⟨op, hOp, -⟩⟩ :=
      hReady.ready.inv.restart.load_succeeds hReady.small stream hStream
    · exact ⟨n, w'', hEnd, hSame⟩
    · cases hOp

/-- **What the store commits it can read again**, in every run in which there is room for the
credential of each `put` when it is called: a load whose input and output succeed is not refused at
any point, and every operation that returns leaves a file that is read back as the map in
memory. -/
theorem committed_store_readable {P : Platform} (hP : P.Lawful) (hCompact : P.DumpsCompact)
    {c : Service.Config World Answer Exn Call Unit History}
    (hRun : Service.StepsWhere (storeService P) Service.nobody (fun _ _ => True) HasRoom fresh c) :
    (∀ w, LoadStart c w → ∀ stream : Nat → Answer, (∀ n, (stream n).Succeeds) →
      ∃ n w', run ((List.range n).map stream) (load P) w = (done (), w')) ∧
    ∀ w h, c = ⟨.ready, w, h⟩ → ∀ op : Operation, op.Fits w.store →
      ∀ (inputs : List Answer) (w' : World), run inputs (op.run P) w = (done (), w') →
        Readable P w' := by
  have hHolds := roomy_of_steps hP hCompact hRun
  constructor
  · intro w hStart stream hStream
    cases hStart with
    | boot =>
      have hInv : RoomyInv P _ _ := hHolds
      obtain ⟨n, w', hEnd, -⟩ := hInv.inv.restart.load_succeeds hInv.small stream hStream
      exact ⟨n, w', hEnd⟩
    | again =>
      have hReady : RoomyReady P w _ := hHolds
      obtain ⟨n, w', hEnd, -⟩ := hReady.ready.inv.load_succeeds hReady.small stream hStream
      exact ⟨n, w', hEnd⟩
  · rintro w h rfl op hFits inputs w' hDone
    have hCall := wp_roomy_operation (C := .alone (fun _ => True) fun w' =>
      RoomyInv P w' (h.interrupted (.update op))) hP hCompact hHolds hFits keeps_alone
    have hEnd := (wp_run hCall (RoomyReady.interrupted hHolds _) inputs fun _ _ => trivial).2
    rw [hDone] at hEnd
    obtain ⟨⟨m, -, hCommitted⟩, hReady⟩ := hEnd
    exact hCommitted.readable hReady

theorem renderPlatform_dumpsCompact : renderPlatform.DumpsCompact :=
  fun _ _ h => (Option.some.inj h).symm

theorem committed_store_readable_putSample :
    ∃ w', run (List.replicate 20 .success) (putSample.run renderPlatform) {} = (done (), w') ∧
      Readable renderPlatform w' := by
  have hRun : Service.StepsWhere (storeService renderPlatform) Service.nobody (fun _ _ => True)
      HasRoom fresh ⟨.ready, {}, {}⟩ := by
    refine Service.stepsWhere_uncalled (Service.steps_exec_nobody (fun _ _ => true)
      ([.start] ++ Service.feed 3 .success ++ [.finish]) (fun _ _ _ => trivial) rfl rfl)
  have hFits : ({} : Storage).weight + sampleCredential.weight + envelopeOverhead ≤
      maxStoreSize := by decide +kernel
  have hDone : run (List.replicate 20 .success) (putSample.run renderPlatform) {} = (done (), _) :=
    run_eq_done (by decide +kernel)
  exact ⟨_, hDone, (committed_store_readable renderPlatform_lawful renderPlatform_dumpsCompact
    hRun).2 _ _ rfl putSample hFits _ _ hDone⟩

/-! ## A store that is refused -/

section Reliable

variable {P : Platform} {C : Setting World Answer} {w : World} (hC : C.Keeps fun _ => True)
  (hReliable : Reliable C)
include hC hReliable

variable {E : Exn → World → Prop} {Q : Unit → World → Prop}

theorem wp_reliable_syscall {call : Syscall} {e : Exn} {effect : World → World}
    (hQ : Q () (effect w)) : wp C Q E (syscall call e effect) w := by
  refine wp_syscall hC trivial (fun a ha hFails => ?_) trivial hQ
  rw [hReliable.fails_eq ha] at hFails
  cases hFails

theorem wp_reliable_readCounter {Q : UInt64 → World → Prop} (hQ : Q w.disk.counter w) :
    wp C Q E readCounter w := by
  refine wp_keeps_observe hC trivial fun a ha => ?_
  rw [hReliable.fails_eq ha, if_neg Bool.false_ne_true]
  refine ⟨fun n hn => ?_, nofun⟩
  cases hn
  exact hQ

theorem wp_reliable_atomicWriteFile {contents : Bytes}
    (hQ : ∀ disk : Disk, disk.directory = true → disk.file = some contents →
      disk.counter = w.disk.counter → Q () { w with disk }) :
    wp C Q E (atomicWriteFile contents) w := by
  simp only [atomicWriteFile, openStoreDirectory, prepareStoreDirectory, createTemporaryFile,
    replaceStore, writeAll, renameTemporary, statDirectory, touch, bind_eq, wp_bind, tryCatch_eq,
    wp_tryCatch]
  refine wp_reliable_syscall hC hReliable (wp_reliable_syscall hC hReliable ?_)
  refine wp_keeps_observe hC trivial fun a ha => ?_
  rw [hReliable.fails_eq ha, if_neg Bool.false_ne_true, checkDirectoryStatus_ok (hReliable _ a ha)]
  refine ⟨fun _ _ => ?_, fun _ hError => by cases hError⟩
  refine wp_reliable_syscall hC hReliable (wp_reliable_syscall hC hReliable ?_)
  refine wp_reliable_syscall hC hReliable (wp_reliable_syscall hC hReliable ?_)
  refine wp_reliable_syscall hC hReliable (wp_reliable_syscall hC hReliable ?_)
  refine wp_reliable_syscall hC hReliable (wp_reliable_syscall hC hReliable ?_)
  exact wp_reliable_syscall hC hReliable (hQ _ rfl rfl rfl)

theorem wp_reliable_advanceCounter {next : UInt64} (hNext : w.disk.counter + 1 = next)
    (hQ : Q () { w with disk.counter := next }) : wp C Q E (advanceCounter next) w := by
  unfold advanceCounter incrementCounter
  refine wp_bind.mpr (wp_keeps_atomically hC fun a ha => ?_)
  rw [(hReliable _ a ha).increment]
  refine ⟨trivial, fun _ _ => ?_, nofun⟩
  refine wp_bind.mpr (wp_reliable_readCounter hC hReliable ?_)
  rw [if_neg (not_not.mpr hNext)]
  cases hNext
  exact hQ

theorem wp_reliable_saveStorage {m : Storage} {text : Bytes}
    (hReady : w.store.requiresReload = false) (hCounter : w.disk.counter = w.store.generation)
    (hBound : w.store.generation ≠ maxUInt64)
    (hDump : P.dump (storageDocument (P.iterate m)) = some text)
    (hSize : text.length ≤ 2147483647) :
    wp C (fun _ w' => w'.disk.directory = true ∧ ∃ iv e, w'.disk.file = some e ∧
        encrypt P iv text (w.store.generation + 1) = .ok e)
      E (saveStorage P m) w := by
  unfold saveStorage
  refine wp_bind.mpr (wp_keeps_read hC trivial ?_)
  rw [hReady, if_neg Bool.false_ne_true]
  refine wp_bind.mpr (wp_reliable_readCounter hC hReliable ?_)
  rw [if_neg (not_not.mpr hCounter), hCounter, if_neg hBound, hDump]
  refine wp_bind.mpr (wp_keeps_observe hC trivial fun a ha => ?_)
  rw [hReliable.fails_eq ha, hReliable.fails_eq ha, if_neg Bool.false_ne_true,
    if_neg Bool.false_ne_true]
  obtain ⟨e, he⟩ := encrypt_ok P a.nonce (w.store.generation + 1) hSize
  rw [he]
  refine ⟨fun e' he' => ?_, nofun⟩
  cases he'
  refine wp_bind.mpr (wp_reliable_atomicWriteFile hC hReliable ?_)
  intro disk hDirectory hFile hSame
  refine wp_bind.mpr (wp_tryCatch.mpr (wp_reliable_advanceCounter hC hReliable ?_ ?_))
  · rw [← hCounter, ← hSame]
  · exact wp_keeps_modify hC trivial ⟨hDirectory, a.nonce, e, hFile, he⟩

/-- An operation with all input and output returns. -/
theorem wp_reliable_commit {change : CredentialStore → Except Exn Storage} {m : Storage}
    {text : Bytes} (hReady : w.store.requiresReload = false)
    (hCounter : w.disk.counter = w.store.generation) (hBound : w.store.generation ≠ maxUInt64)
    (hChange : change w.store = .ok m)
    (hDump : P.dump (storageDocument (P.iterate m)) = some text)
    (hSize : text.length ≤ 2147483647) :
    wp C (fun _ w' => w'.store.stored = m ∧ w'.disk.directory = true ∧
        ∃ iv e, w'.disk.file = some e ∧ encrypt P iv text (w.store.generation + 1) = .ok e)
      (fun _ _ => False) (commit P change) w := by
  unfold commit
  refine wp_bind.mpr (wp_keeps_read hC trivial ?_)
  rw [hChange]
  refine wp_bind.mpr (wp_ofExcept.mpr ⟨?_, nofun⟩)
  rintro _ ⟨⟩
  refine wp_seq (wp_reliable_saveStorage hC hReliable hReady hCounter hBound hDump
    hSize) ?_ fun _ _ h => h
  exact fun _ _ hSaved => wp_keeps_modify hC trivial ⟨rfl, hSaved⟩

end Reliable

theorem checkStoreStatus_size {status : FileStatus} {size : Nat} {u : Unit}
    (h : checkStoreStatus status size = .ok u) : size ≤ maxStoreSize := by
  unfold checkStoreStatus at h
  by_contra hSize
  rw [if_pos (Nat.not_le.mp hSize)] at h
  split_ifs at h

theorem wp_load_oversized {P : Platform} {C : Setting World Answer} {w : World}
    (hC : C.Keeps fun _ => True) {e : Bytes} (hDirectory : w.disk.directory = true)
    (hFile : w.disk.file = some e) (hSize : maxStoreSize < e.length) :
    wp C (fun _ _ => False) (fun _ _ => True) (load P) w := by
  unfold load readStoreFile
  refine wp_bind.mpr (wp_bind.mpr (wp_keeps_atomically hC fun a _ => ⟨trivial, ?_⟩))
  by_cases hFails : a.fails .openDirectory = true
  · rw [if_pos hFails]
    exact ⟨nofun, fun _ _ => trivial⟩
  rw [if_neg hFails]
  refine ⟨fun found hFound => ?_, nofun⟩
  obtain rfl : w.disk.directory = found := Except.ok.inj hFound
  rw [hDirectory]
  refine wp_bind.mpr (wp_keeps_observe hC trivial fun b _ => ⟨fun _ _ => ?_, fun _ _ => trivial⟩)
  refine wp_bind.mpr (wp_keeps_atomically hC fun c _ => ⟨trivial, ?_⟩)
  by_cases hOpen : c.fails .openStore = true
  · rw [if_pos hOpen]
    exact ⟨nofun, fun _ _ => trivial⟩
  rw [if_neg hOpen]
  refine ⟨fun contents hContents => ?_, nofun⟩
  obtain rfl : some e = contents := hFile.symm.trans (Except.ok.inj hContents)
  refine wp_bind.mpr (wp_keeps_observe hC trivial fun d _ => ⟨fun _ hStatus => ?_,
    fun _ _ => trivial⟩)
  by_cases hStat : d.fails .statStore = true
  · rw [if_pos hStat] at hStatus
    cases hStatus
  · rw [if_neg hStat] at hStatus
    exact absurd hSize (Nat.not_lt.mpr (checkStoreStatus_size hStatus))

/-- The map that holds the sample credential under a display name of this length, as a first
`put` computes it. -/
theorem afterPut_longNamed (n : Nat) :
    CredentialStore.afterPut {} (longNamed n) 1000 = .ok (single (longNamed n)) := rfl

theorem length_longNamed (n : Nat) :
    n ≤ (storageDocument (renderPlatform.iterate (single (longNamed n)))).render.length ∧
    (storageDocument (renderPlatform.iterate (single (longNamed n)))).render.length ≤
      4096 + 6 * n := by
  rw [show renderPlatform.iterate (single (longNamed n)) = _ from toList_single _]
  constructor
  · have hLong := length_le_render (longNamed n)
    rwa [show (longNamed n).userDisplayName.length = n from List.length_replicate] at hLong
  · have hItems : ∀ item ∈ [(hexEncode (longNamed n).id, longNamed n)], item.2.alg = -7 := by
      intro item hItem
      cases List.mem_singleton.mp hItem
      rfl
    refine Nat.le_trans (length_storageDocument_le hItems) ?_
    have hSample : sampleCredential.weight ≤ 4000 := by decide
    simp only [List.map_cons, List.map_nil, List.sum_cons, List.sum_nil, StoredCredential.weight,
      longNamed, List.length_replicate] at hSample ⊢
    omega

theorem wp_put_longNamed : wp (.alone Answer.Succeeds fun _ => True)
    (fun _ w => w.disk.directory = true ∧ ∃ e, w.disk.file = some e ∧ maxStoreSize < e.length)
    (fun _ _ => False) (put renderPlatform (longNamed maxStoreSize) 1000) {} := by
  obtain ⟨hLong, hSize⟩ := length_longNamed maxStoreSize
  refine wp_mono (wp_reliable_commit keeps_alone (fun _ _ ha => ha) rfl rfl (by decide)
    (afterPut_longNamed maxStoreSize) rfl (Nat.le_trans hSize (by decide))) ?_ fun _ _ h => h
  rintro - w ⟨-, hDirectory, iv, e, hFile, hEncrypt⟩
  refine ⟨hDirectory, e, hFile, ?_⟩
  rw [length_encrypt renderPlatform_lawful hEncrypt]
  have hTag : 0 < tagSize := by decide
  omega

/-- A display name of sixteen megabytes is committed, and every later load is refused. -/
theorem oversized_store_refused : ∃ (P : Platform) (op : Operation) (inputs : List Answer)
    (w : World) (e : Bytes), P.Lawful ∧ P.DumpsCompact ∧
    Service.Steps (storeService P) Service.nobody (fun _ _ => True) fresh ⟨.ready, {}, {}⟩ ∧
    run inputs (op.run P) {} = (done (), w) ∧
    w.disk.file = some e ∧ maxStoreSize < e.length ∧
    ∀ (inputs' : List Answer) (w' : World),
      run inputs' (load P) { w with store := {} } ≠ (done (), w') := by
  obtain ⟨n, w, ⟨u, hDone, hDirectory, e, hFile, hOver⟩ | ⟨_, -, hNever⟩⟩ :=
    wp_run_stream wp_put_longNamed (fun _ => .success) fun _ => Answer.success_succeeds
  · refine ⟨renderPlatform, .put (longNamed maxStoreSize) 1000, _, w, e, renderPlatform_lawful,
      renderPlatform_dumpsCompact, steps_firstStart fun _ => trivial, hDone, hFile, hOver, ?_⟩
    intro inputs' w' hLoad
    have hOversized := wp_load_oversized (P := renderPlatform)
      (C := .alone (fun _ => True) fun _ => True) (w := { w with store := {} }) keeps_alone
      hDirectory hFile hOver
    have hRefused := (wp_run hOversized trivial inputs' fun _ _ => trivial).2
    rw [hLoad] at hRefused
    exact hRefused
  · exact hNever.elim

end VAuth.Store
