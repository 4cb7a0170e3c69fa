import VAuth.Store.Selection
import VAuth.System.Exclusion

/-!
# After a crash

Wherever the processes of a machine were killed, the next one recovers the store: it unseals the
key, brings the counter to the file if a save was interrupted between the two, and has what was
acknowledged, or what an interrupted operation would have left. This needs the TPM objects, the
right authorization, a store file that is not too large to be read, and a machine on which nothing
fails any more.
-/

namespace VAuth.System

open Proc Store

/-- A turn in which nothing fails, for a process that reads this authorization. -/
structure Turn.Succeeds (origin : StoreAuthorizationOrigin) (authorization : Bytes) (i : Turn) :
    Prop where
  answer : i.answer.Succeeds
  tpm : ∀ command, i.tpm.outcome command = .succeeds
  file : ∃ file, i.authorization = .ok file ∧ readAuthorization origin file = .ok authorization
  flock : i.flockFails = false
  alive : i.killed = false

/-- The objects in the TPM open with this authorization, and the counter has not run out. -/
structure TpmReady (authorization key : Bytes) (value counterOrigin : UInt64) (tpm : Tpm) :
    Prop where
  counter : tpm.counter = some ⟨authorization, some value⟩
  sealed : ∃ data, tpm.sealed = some ⟨authorization, data⟩ ∧
    openMaterial data = .ok (key, counterOrigin)
  range : counterOrigin ≤ value ∧ value ≠ maxUInt64

abbrev reliably {σ : Type} (origin : StoreAuthorizationOrigin) (authorization : Bytes) :
    Setting σ Turn :=
  .alone (Turn.Succeeds origin authorization) fun _ => True

abbrev tpmReliably : Setting Security TpmAnswer :=
  .alone (fun a => ∀ command, a.outcome command = .succeeds) fun _ => True

theorem checkAuthorization_of_read {origin : StoreAuthorizationOrigin} {file : AuthorizationFile}
    {authorization : Bytes} (h : readAuthorization origin file = .ok authorization) :
    FapiStoreSecurity.checkAuthorization authorization = .ok () := by
  obtain ⟨-, h⟩ := guard_eq_ok.mp h
  obtain ⟨-, h⟩ := guard_eq_ok.mp h
  obtain ⟨-, h⟩ := guard_eq_ok.mp h
  obtain ⟨-, h⟩ := guard_eq_ok.mp h
  obtain ⟨hBytes, h⟩ := guard_eq_ok.mp h
  cases h
  rw [not_or, not_or] at hBytes
  rw [FapiStoreSecurity.checkAuthorization, if_neg (not_or.mpr ⟨hBytes.1, hBytes.2.1⟩),
    if_neg hBytes.2.2]

theorem openMaterial_ok {data key : Bytes} {counterOrigin : UInt64}
    (h : openMaterial data = .ok (key, counterOrigin)) :
    key.length = keySize ∧ counterOrigin ≠ 0 := by
  obtain ⟨hLength, h⟩ := guard_eq_ok.mp h
  obtain ⟨_, -, h⟩ := bind_eq_ok.mp h
  obtain ⟨hOrigin, h⟩ := guard_eq_ok.mp h
  cases h
  refine ⟨?_, hOrigin⟩
  rw [List.length_take, not_not.mp hLength]
  rfl

section Parts

variable {P : Bytes → Platform} {pid : Nat} {origin : StoreAuthorizationOrigin}
  {authorization key : Bytes} {value counterOrigin : UInt64} {α : Type}

/-! ## Commands of the TPM -/

variable {s : Image} {m : Machine} {x : Security} {h : History} {E : Exn → Security → Prop}
  {ownerUid : Option UInt32}

theorem wp_reliable_tssCheck {command : TpmCommand} {operation : String}
    {Q : Unit → Security → Prop} (hQ : Q () x) :
    wp tpmReliably Q E (FapiStoreSecurity.tssCheck command operation) x := by
  refine wp_keeps_observe keeps_alone trivial fun a ha => ?_
  rw [if_pos (ha command)]
  exact ⟨fun _ _ => hQ, fun _ h => (by cases h)⟩

theorem wp_reliable_construct (h : FapiStoreSecurity.checkAuthorization authorization = .ok ()) :
    wp tpmReliably (fun _ x' => x' = x) (fun _ _ => False)
      (FapiStoreSecurity.construct authorization) x := by
  unfold FapiStoreSecurity.construct
  rw [h]
  exact wp_bind.mpr (wp_bind.mpr (wp_reliable_tssCheck (wp_reliable_tssCheck rfl)))

theorem wp_reliable_unsealKey (h : TpmReady authorization key value counterOrigin x.tpm) :
    wp tpmReliably (fun k x' => k = key ∧ x' = { x with counterOrigin := some counterOrigin })
      (fun _ _ => False) (FapiStoreSecurity.unsealKey authorization) x := by
  obtain ⟨data, hSealed, hOpen⟩ := h.sealed
  refine wp_keeps_atomically keeps_alone fun a ha => ?_
  have hUnseal : unsealObject authorization a x.tpm = .ok (key, counterOrigin) := by
    rw [FapiStoreSecurity.unsealObject_sealed hSealed (ha _)]
    exact hOpen
  rw [hUnseal]
  refine ⟨trivial, fun k hk => ?_, fun _ h => (by cases h)⟩
  cases hk
  exact ⟨rfl, rfl⟩

theorem wp_reliable_withSecurity {p : SecurityProc α} {Q : α → Security → Prop}
    (h : wp tpmReliably Q E p ⟨s.tpm, s.counterOrigin⟩) :
    wp (reliably origin authorization) (fun a s' => ∃ x, Q a x ∧ s' = s.setSecurity x)
      (fun e s' => ∃ x, E e x ∧ s' = s.setSecurity x) (withSecurity p) s :=
  wp_embed_alone (fun _ _ => rfl) (fun _ _ _ => rfl) rfl (fun _ _ hi => hi.tpm) h

/-! ## The load -/

theorem answer_succeeds {t : Image} {i : Turn}
    (hReadable : t.Readable authorization value counterOrigin) (hNonzero : value ≠ 0)
    (hRange : counterOrigin ≤ value) (hi : i.Succeeds origin authorization) :
    (t.answer authorization i).Succeeds where
  fails := by
    intro call
    simp only [Image.answer]
    by_cases hCall : call = .readCounter
    · rw [if_pos hCall, hReadable.origin, Option.getD_some,
        FapiStoreSecurity.readGeneration_counter hReadable.counter hNonzero hRange (hi.tpm _)]
      rfl
    · rw [if_neg hCall]
      exact hi.answer.fails call
  directoryStatus := hi.answer.directoryStatus
  storeStatus := hi.answer.storeStatus
  increment := by
    simp only [Image.answer, incrementOutcome, incremented, hReadable.counter, if_true,
      Option.isNone_some, hi.tpm]
    rfl

theorem TpmReady.readable {w : World} (h : TpmReady authorization key value counterOrigin s.tpm)
    (hOrigin : s.counterOrigin = some counterOrigin) (hReached : LoadReaches (P key) s.world w) :
    ∃ value', (s.setWorld w).Readable authorization value' counterOrigin ∧ value' ≠ 0 ∧
      counterOrigin ≤ value' := by
  obtain ⟨data, -, hOpen⟩ := h.sealed
  have hPositive := (openMaterial_ok hOpen).2
  have hReadable : s.Readable authorization value counterOrigin := ⟨h.counter, hOrigin⟩
  have hGeneration : s.world.disk.counter = value - counterOrigin := hReadable.generation_eq
  have hAbove {v : UInt64} (hv : counterOrigin ≤ v) : v ≠ 0 ∧ counterOrigin ≤ v := by
    refine ⟨fun hZero => hPositive ?_, hv⟩
    rw [hZero] at hv
    exact UInt64.le_antisymm hv UInt64.zero_le
  have hSum : counterOrigin + (value - counterOrigin) = value := by
    rw [UInt64.add_comm, UInt64.sub_add_cancel]
  refine ⟨_, hReadable.setWorld w, ?_⟩
  rcases hReached.counter with hSame | ⟨-, hNext⟩
  · rw [hSame, hGeneration, hSum]
    exact hAbove h.range.1
  · rw [hNext, hGeneration, ← UInt64.add_assoc, hSum]
    refine hAbove (UInt64.le_iff_toNat_le.mpr ?_)
    rw [toNat_succ h.range.2]
    exact Nat.le_succ_of_le (UInt64.le_iff_toNat_le.mp h.range.1)

theorem wp_reliable_load (hTpm : TpmReady authorization key value counterOrigin s.tpm)
    (hOrigin : s.counterOrigin = some counterOrigin)
    (hStore : StoreInv (P key) ⟨{ s.disk with counter := value - counterOrigin }, {}⟩ h)
    (hSize : ∀ e ∈ s.disk.written, e.length ≤ maxStoreSize) :
    wp (reliably origin authorization) (fun _ s' => Recovered h s'.store.stored ∧
        s'.store.stored.Valid ∧ s'.store.requiresReload = false) (fun _ _ => False)
      (withStore authorization (load (P key))) s := by
  have hReadable : s.Readable authorization value counterOrigin := ⟨hTpm.counter, hOrigin⟩
  have hInv := storeInv_of_condition hReadable hStore
  have hRun := wp_load (C := .alone Answer.Succeeds (LoadReaches (P key) s.world)) keeps_alone
    hInv.directory
  refine wp_mono (wp_embed (J := fun t => t = s.setWorld t.world ∧
    LoadReaches (P key) s.world t.world) (fun t u hJ hRely => ?_) ?_ ?_ id ?_ hRun) ?_ ?_
  · cases hRely
    exact ⟨rfl, hJ⟩
  · rintro t i ⟨ht, hReached⟩ hi
    obtain ⟨value', hReadable', hNonzero, hRange⟩ := hTpm.readable hOrigin hReached
    rw [← ht] at hReadable'
    exact answer_succeeds hReadable' hNonzero hRange hi
  · rintro t w ⟨ht, -⟩ hw
    rw [ht, setWorld_setWorld, world_setWorld hReadable]
    exact ⟨rfl, ⟨rfl, hw⟩, trivial⟩
  · exact ⟨(setWorld_world s).symm, .refl _⟩
  · rintro _ s' ⟨⟨hReached, hLoaded⟩, -⟩
    have hReady := hInv.loaded hReached hLoaded
    exact ⟨hInv.durable.recovered hLoaded, hReady.inv.valid, hReady.inv.ready⟩
  · rintro _ s' ⟨hFails, -⟩
    exact hFails.fault ⟨fun _ _ ha => ha, hInv.durable.loadable hSize⟩

/-! ## The command -/

/-- What `credential_list` prints of a store that was recovered. -/
def Prints (h : History) (ownerUid : Option UInt32) (rp : Option Bytes) (output : Bytes) : Prop :=
  ∃ store credentials, Recovered h store.stored ∧ Listed store credentials ∧
    output = Vauthctl.printCredentials credentials ownerUid rp

theorem wp_reliable_record {event : Image → Event} {Q : Unit → Image → Prop}
    {E : Exn → Image → Prop} (hQ : Q () { s with log := s.log ++ [event s] }) :
    wp (reliably origin authorization) Q E (record event) s :=
  wp_keeps_modify keeps_alone trivial hQ

theorem wp_reliable_useStore {rp : Option Bytes} (hP : (P key).Lawful)
    (hTpm : TpmReady authorization key value counterOrigin s.tpm)
    (hStore : StoreInv (P key) ⟨{ s.disk with counter := value - counterOrigin }, {}⟩ h)
    (hSize : ∀ e ∈ s.disk.written, e.length ≤ maxStoreSize) :
    wp (reliably origin authorization) (fun output _ => Prints h ownerUid rp output)
      (fun _ _ => False)
      (useStore P pid authorization (pure ()) fun key => Proc.observe fun _ s => do
        let credentials ← s.store.listCredentials (P key)
        return Vauthctl.printCredentials credentials ownerUid rp) s := by
  obtain ⟨data, -, hOpen⟩ := hTpm.sealed
  have hKey : checkStoreKey key = .ok () := by
    rw [checkStoreKey, if_neg fun h => h (openMaterial_ok hOpen).1]
  refine wp_bind.mpr (wp_seq (wp_reliable_withSecurity (wp_reliable_unsealKey hTpm)) ?_ ?_)
  · rintro _ _ ⟨x, ⟨rfl, rfl⟩, rfl⟩
    refine wp_bind.mpr (wp_reliable_record ?_)
    refine wp_bind.mpr (wp_bind.mpr ?_)
    rw [hKey]
    refine wp_bind.mpr (wp_bind.mpr (wp_reliable_record ?_))
    refine wp_seq (wp_reliable_load hTpm rfl hStore hSize) ?_ fun _ _ h => h
    rintro _ s' ⟨hRecovered, hValid, hReady⟩
    obtain ⟨listed, hListing, hListed⟩ := listCredentials_exact hP hValid hReady
    refine wp_reliable_record (wp_keeps_observe keeps_alone trivial fun _ _ => ?_)
    rw [hListing]
    refine ⟨fun output hOutput => ?_, fun _ he => (by cases he)⟩
    exact ⟨_, listed, hRecovered, hListed, (Except.ok.inj hOutput).symm⟩
  · rintro _ _ ⟨x, hFalse, -⟩
    exact hFalse

/-! ## The machine -/

theorem wp_reliable_inside {p : ImageProc α} {Q : α → Image → Prop} {E : Exn → Image → Prop}
    (h : wp (reliably origin authorization) Q E p (m.image pid)) :
    wp (reliably origin authorization) (fun a m' => ∃ s, Q a s ∧ m' = m.setImage pid s)
      (fun e m' => ∃ s, E e s ∧ m' = m.setImage pid s) (inside pid p) m :=
  wp_embed_alone image_setImage setImage_setImage (setImage_image m) (fun _ _ hi => hi) h

theorem wp_reliable_withDirectory {p : StoreProc α} {Q : α → World → Prop} {E : Exn → World → Prop}
    (h : wp (.alone Answer.Succeeds fun _ => True) Q E p ⟨s.disk, s.store⟩) :
    wp (reliably origin authorization) (fun a s' => ∃ w, Q a w ∧ s' = s.setDirectory w)
      (fun e s' => ∃ w, E e w ∧ s' = s.setDirectory w) (withDirectory p) s :=
  wp_embed_alone (fun _ _ => rfl) (fun _ _ _ => rfl) rfl (fun _ _ hi => hi.answer) h

theorem wp_reliable_prepareStoreDirectory :
    wp (reliably origin authorization) (fun _ m' => m' = { m with disk.directory := true })
      (fun _ _ => False) (inside pid (withDirectory prepareStoreDirectory)) m := by
  have hMade : wp (.alone Answer.Succeeds fun _ => True)
      (fun _ w => w = ⟨{ m.disk with directory := true }, (m.memory pid).store⟩) (fun _ _ => False)
      prepareStoreDirectory ⟨m.disk, (m.memory pid).store⟩ :=
    wp_reliable_syscall keeps_alone (fun _ _ ha => ha) rfl
  refine wp_mono (wp_reliable_inside (wp_reliable_withDirectory hMade)) ?_ ?_
  · rintro _ _ ⟨_, ⟨_, rfl, rfl⟩, rfl⟩
    simp [Machine.setImage, Image.setDirectory, Machine.image]
  · rintro _ _ ⟨_, ⟨_, hFalse, -⟩, -⟩
    exact hFalse

theorem wp_reliable_openStoreDirectory : wp (reliably origin authorization) (fun _ m' => m' = m)
      (fun _ _ => False) (inside pid (withDirectory openStoreDirectory)) m := by
  have hReliable : Reliable (.alone Answer.Succeeds fun _ => True) := fun _ _ ha => ha
  have hOpened {w : World} : wp (.alone Answer.Succeeds fun _ => True) (fun _ w' => w' = w)
      (fun _ _ => False) openStoreDirectory w := by
    refine wp_bind.mpr (wp_reliable_syscall keeps_alone hReliable ?_)
    refine wp_keeps_observe keeps_alone trivial fun a ha => ?_
    rw [hReliable.fails_eq ha, if_neg Bool.false_ne_true, checkDirectoryStatus_ok ha]
    exact ⟨fun _ _ => rfl, fun _ h => (by cases h)⟩
  refine wp_mono (wp_reliable_inside (wp_reliable_withDirectory hOpened)) ?_ ?_
  · rintro _ _ ⟨_, ⟨_, rfl, rfl⟩, rfl⟩
    exact setImage_image m
  · rintro _ _ ⟨_, ⟨_, hFalse, -⟩, -⟩
    exact hFalse

theorem wp_reliable_flock (hLock : m.lock = none) :
    wp (reliably origin authorization) (fun _ m' => m' = { m with lock := some pid })
      (fun _ _ => False) (flock pid) m := by
  refine wp_keeps_atomically keeps_alone fun i hi => ?_
  simp only [hi.flock, hLock, Bool.false_eq_true, if_false]
  exact ⟨trivial, fun _ _ => trivial, fun _ h => (by cases h)⟩

theorem wp_reliable_locked {body : ImageProc α} {Q : α → Prop} (hLock : m.lock = none)
    (hBody : wp (reliably origin authorization) (fun a _ => Q a) (fun _ _ => False) body
      { m.image pid with disk.directory := true }) :
    wp (reliably origin authorization) (fun a m' => Q a ∧ m'.lock = none) (fun _ _ => False)
      (locked pid body) m := by
  refine wp_seq wp_reliable_prepareStoreDirectory ?_ fun _ _ h => h
  rintro _ _ rfl
  refine wp_seq wp_reliable_openStoreDirectory ?_ fun _ _ h => h
  rintro _ _ rfl
  refine wp_seq (wp_reliable_flock hLock) ?_ fun _ _ h => h
  rintro _ _ rfl
  refine wp_bind.mpr (wp_tryCatch.mpr (wp_mono (wp_reliable_inside hBody) ?_ ?_))
  · rintro a _ ⟨s, hQ, rfl⟩
    exact wp_bind.mpr (wp_keeps_modify keeps_alone trivial ⟨hQ, rfl⟩)
  · rintro _ _ ⟨_, hFalse, -⟩
    exact hFalse.elim

theorem wp_reliable_credentialList {rp : Option Bytes} (hP : (P key).Lawful) (hLock : m.lock = none)
    (hTpm : TpmReady authorization key value counterOrigin m.tpm)
    (hStore : StoreInv (P key) ⟨{ m.disk with counter := value - counterOrigin }, {}⟩ h)
    (hSize : ∀ e ∈ m.disk.written, e.length ≤ maxStoreSize) :
    wp (reliably origin authorization)
      (fun output m' => Prints h ownerUid rp output ∧ m'.lock = none) (fun _ _ => False)
      (credentialList P pid origin ownerUid rp) m := by
  refine wp_bind.mpr (wp_keeps_observe keeps_alone trivial fun i hi => ?_)
  obtain ⟨file, hOpened, hRead⟩ := hi.file
  rw [hOpened]
  refine ⟨fun a ha => ?_, fun e he => ?_⟩
  · obtain rfl : authorization = a := Except.ok.inj (hRead.symm.trans ha)
    refine wp_seq (wp_reliable_inside (wp_reliable_withSecurity
      (wp_reliable_construct (checkAuthorization_of_read hRead)))) ?_ ?_
    · rintro _ _ ⟨_, ⟨_, rfl, rfl⟩, rfl⟩
      have hMade := storeInv_makeDirectory hStore
      exact wp_reliable_locked hLock (wp_reliable_useStore hP hTpm hMade hSize)
    · rintro _ _ ⟨_, ⟨_, hFalse, -⟩, -⟩
      exact hFalse
  · cases hRead.symm.trans he

end Parts

/-- **Recovery.** Wherever the processes of a machine stopped, as long as none of them still holds
the lock: on a machine whose TPM objects are intact and whose store has been used, the next
`credential_list` that meets no failure returns, and it prints the acknowledged credentials, or
those that an interrupted operation would have left. -/
theorem next_process_recovers {P : Bytes → Platform} {programs : Nat → Program} {m : Machine}
    {origin : StoreAuthorizationOrigin} {authorization key : Bytes} {value counterOrigin : UInt64}
    (hP : ∀ key, (P key).Lawful) (hReached : Reached P programs m) (hLock : m.lock = none)
    (hTpm : TpmReady authorization key value counterOrigin m.tpm) (hFile : m.disk.file ≠ none)
    (hSize : ∀ e ∈ m.disk.written, e.length ≤ maxStoreSize) (pid : Nat)
    (ownerUid : Option UInt32) (rp : Option Bytes) (stream : Nat → Turn)
    (hStream : ∀ n, (stream n).Succeeds origin authorization) :
    ∃ n output m', run ((List.range n).map stream)
        ((Program.credentialList origin ownerUid rp).process P pid) m = (.done output, m') ∧
      Prints (historyOf m.log) ownerUid rp output ∧ m'.lock = none := by
  have hInv := machineInv_reached hP hReached
  cases hInv.shared.condition with
  | unused hNone => exact absurd hNone hFile
  | used hCounter hOpens hStore =>
    -- The objects of the invariant are those that the process can open.
    obtain ⟨data, hSealed, hOpen⟩ := hTpm.sealed
    obtain ⟨rfl, rfl⟩ := hOpens.unique ⟨_, hSealed, hOpen⟩
    cases hCounter.symm.trans hTpm.counter
    have hRun : wp (reliably origin authorization)
        (fun output m' => Prints (historyOf m.log) ownerUid rp output ∧ m'.lock = none)
        (fun _ _ => False) (credentialList P pid origin ownerUid rp) m :=
      wp_reliable_credentialList (hP _) hLock hTpm hStore hSize
    obtain ⟨n, m', ⟨output, hDone, hPrints, hFree⟩ | ⟨_, _, hFalse⟩⟩ :=
      wp_run_stream (wp_mortal_alive (fun _ _ hi => hi.alive) hRun) stream hStream
    · exact ⟨n, output, m', hDone, hPrints, hFree⟩
    · exact hFalse.elim

/-- The daemon is killed in the middle of a registration. -/
def killedRegistration : List ((Nat × Turn) ⊕ Empty) :=
  turns 0 22 .success ++ turns 1 36 .success ++ turns 1 1 { Turn.success with killed := true }

def sampleAuthorization : Bytes := List.replicate 32 65

/-- The TPM as `provision` has left it. -/
def sampleTpm : Tpm where
  counter := some ⟨sampleAuthorization, some 7⟩
  sealed := some ⟨sampleAuthorization, List.replicate keySize 5 ++ encodeUint64 7⟩

theorem sampleTpm_ready :
    TpmReady sampleAuthorization (List.replicate keySize 5) 7 7 sampleTpm where
  counter := rfl
  sealed := ⟨_, rfl, FapiStoreSecurity.openMaterial_append List.length_replicate (by decide)⟩
  range := by decide

theorem success_succeeds : Turn.success.Succeeds .explicitFile sampleAuthorization where
  answer := Answer.success_succeeds
  tpm := fun _ => rfl
  file := ⟨_, rfl, by decide +kernel⟩
  flock := rfl
  alive := rfl

theorem next_process_recovers_killedRegistration :
    ∃ m, Reached (fun _ => samplePlatform) samplePrograms m ∧
      ∃ n output m', run ((List.range n).map fun _ => Turn.success)
          ((Program.credentialList .explicitFile none none).process (fun _ => samplePlatform) 2) m =
          (.done output, m') ∧
        Prints (historyOf m.log) none none output := by
  obtain ⟨m, hReached, hCheck⟩ := reached_runTurns killedRegistration
    (fun m => decide (m.lock = none ∧ m.tpm = sampleTpm ∧ m.disk.file ≠ none ∧
      ∀ e ∈ m.disk.written, e.length ≤ maxStoreSize)) (by decide +kernel)
  obtain ⟨hLock, hTpm, hFile, hSize⟩ := of_decide_eq_true hCheck
  obtain ⟨n, output, m', hRun, hPrints, -⟩ := next_process_recovers
    (fun _ => samplePlatform_lawful) hReached hLock (hTpm ▸ sampleTpm_ready) hFile hSize 2 none none
    (fun _ => .success) fun _ => success_succeeds
  exact ⟨m, hReached, n, output, m', hRun, hPrints⟩

end VAuth.System
