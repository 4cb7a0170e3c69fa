import VAuth.Process.Team
import VAuth.System.Sessions

/-!
# The lock of the store directory

Any number of processes run on one machine, each one program: the daemon or a command of `vauthctl`.
They step in any order, each may be killed before any of its steps, and system calls and commands of
the TPM fail as they like. The lock makes them take turns: what a process does under the lock is not
interrupted by the others (`Untouched`), and since it keeps `SharedInv` in each of its steps
(`wp_useStore`, `wp_provisionObjects`), the next one finds a store that fits its history.
-/

namespace VAuth.System

open Proc Store

/-! ## What processes rely on -/

structure MachineInv (P : Bytes → Platform) (m : Machine) : Prop where
  shared : SharedInv P m.toShared
  directory : m.lock ≠ none → m.disk.directory = true

/-- What the others do to a process. -/
structure Untouched (pid : Nat) (m m' : Machine) : Prop where
  memory : m'.memory pid = m.memory pid
  held : m.lock = some pid → m'.lock = some pid ∧ m'.toShared = m.toShared
  free : m.lock ≠ some pid → m'.lock ≠ some pid
  directory : m.disk.directory = true → m'.disk.directory = true
  silent : (∀ e ∈ m.log, e.pid ≠ pid) → ∀ e ∈ m'.log, e.pid ≠ pid

def Relies (P : Bytes → Platform) (pid : Nat) (m m' : Machine) : Prop :=
  MachineInv P m → MachineInv P m' ∧ Untouched pid m m'

def Promises (P : Bytes → Platform) (pid : Nat) (m m' : Machine) : Prop :=
  MachineInv P m → MachineInv P m' ∧ ∀ other, other ≠ pid → Untouched other m m'

abbrev among (P : Bytes → Platform) (pid : Nat) : Setting Machine Turn :=
  .among (Relies P pid) (fun _ _ => True) (Promises P pid)

/-- Before it has the lock. -/
structure Outside (P : Bytes → Platform) (pid : Nat) (m : Machine) : Prop where
  inv : MachineInv P m
  lock : m.lock ≠ some pid
  silent : ∀ e ∈ m.log, e.pid ≠ pid

/-- Once the directory of the store is there. -/
structure Prepared (P : Bytes → Platform) (pid : Nat) (m : Machine) : Prop where
  outside : Outside P pid m
  directory : m.disk.directory = true

/-- While it has the lock, which it took with this log. -/
structure Holding (P : Bytes → Platform) (pid : Nat) (log : List Event) (m : Machine) : Prop where
  lock : m.lock = some pid
  own : OwnInv P pid log (m.image pid)

section Parts

variable {P : Bytes → Platform} {pid : Nat} {log : List Event} {m m' : Machine} {α : Type}

theorem Untouched.refl (pid : Nat) (m : Machine) : Untouched pid m m :=
  ⟨rfl, fun h => ⟨h, rfl⟩, id, id, id⟩

theorem Promises.refl (P : Bytes → Platform) (pid : Nat) (m : Machine) : Promises P pid m m :=
  fun hInv => ⟨hInv, fun other _ => .refl other m⟩

theorem Outside.relies (h : Outside P pid m) (hRelies : Relies P pid m m') : Outside P pid m' := by
  obtain ⟨hInv, hUntouched⟩ := hRelies h.inv
  exact ⟨hInv, hUntouched.free h.lock, hUntouched.silent h.silent⟩

theorem tolerates_outside : (among P pid).Tolerates (Outside P pid) :=
  tolerates_among fun _ _ hRelies h => h.relies hRelies

theorem tolerates_prepared : (among P pid).Tolerates (Prepared P pid) :=
  tolerates_among fun _ _ hRelies h =>
    ⟨h.outside.relies hRelies, (hRelies h.outside.inv).2.directory h.directory⟩

theorem Holding.inv (h : Holding P pid log m) : MachineInv P m :=
  ⟨h.own.shared, fun _ => h.own.directory⟩

/-- Nobody touches what a process sees that holds the lock. -/
theorem Holding.relies (h : Holding P pid log m) (hRelies : Relies P pid m m') :
    m'.image pid = m.image pid ∧ Holding P pid log m' := by
  obtain ⟨-, hUntouched⟩ := hRelies h.inv
  obtain ⟨hLock, hShared⟩ := hUntouched.held h.lock
  have hImage : m'.image pid = m.image pid := by
    rw [Machine.image, Machine.image, hShared, hUntouched.memory]
  exact ⟨hImage, hLock, hImage ▸ h.own⟩

theorem Holding.relies_star (h : Holding P pid log m)
    (hRelies : Relation.ReflTransGen (Relies P pid) m m') :
    m'.image pid = m.image pid ∧ Holding P pid log m' := by
  induction hRelies with
  | refl => exact ⟨rfl, h⟩
  | tail _ hStep ih =>
    obtain ⟨hImage, hHolding⟩ := ih
    obtain ⟨hImage', hHolding'⟩ := hHolding.relies hStep
    exact ⟨hImage'.trans hImage, hHolding'⟩

theorem image_setImage (s : Image) (m : Machine) : (m.setImage pid s).image pid = s := by
  simp [Machine.image, Machine.setImage]

theorem setImage_image (m : Machine) : m.setImage pid (m.image pid) = m := by
  simp [Machine.setImage, Machine.image]

theorem setImage_setImage (s s' : Image) (m : Machine) :
    (m.setImage pid s).setImage pid s' = m.setImage pid s' := by
  simp [Machine.setImage]

/-- A step under the lock, as the others see it. -/
theorem Holding.setImage {s : Image} (h : Holding P pid log m) (hs : OwnInv P pid log s) :
    Holding P pid log (m.setImage pid s) ∧ Promises P pid m (m.setImage pid s) := by
  have hHolding : Holding P pid log (m.setImage pid s) := by
    refine ⟨h.lock, ?_⟩
    rw [image_setImage]
    exact hs
  refine ⟨hHolding, fun _ => ⟨hHolding.inv, fun other hOther => ?_⟩⟩
  have hNot : m.lock ≠ some other := by
    rw [h.lock]
    exact fun hSame => hOther (Option.some.inj hSame).symm
  refine ⟨Function.update_of_ne hOther _ _, fun hLock => absurd hLock hNot, id,
    fun _ => hs.directory, fun hSilent => ?_⟩
  -- The log has grown by events of the process that holds the lock.
  obtain ⟨before, hBefore, -⟩ := h.own.own
  obtain ⟨new, hLog, hNew⟩ := hs.own
  intro e he
  have he' : e ∈ log ++ new := hLog ▸ he
  rcases List.mem_append.mp he' with hMem | hMem
  · exact hSilent e (hBefore ▸ List.mem_append_left _ hMem)
  · rw [hNew e hMem]
    exact hOther.symm

/-- Under the lock a process does what it does alone. -/
theorem wp_inside {p : ImageProc α} {Q : α → Image → Prop} {E : Exn → Image → Prop}
    (hm : Holding P pid log m) (h : wp (owning P pid log) Q E p (m.image pid)) :
    wp (among P pid) (fun a m => Q a (m.image pid) ∧ Holding P pid log m)
      (fun e m => E e (m.image pid) ∧ Holding P pid log m) (inside pid p) m := by
  refine wp_embed (fun t u hJ hRely => ?_) (fun _ _ _ _ => trivial) (fun t s hJ hs => ?_) id hm h
  · obtain ⟨hImage, hHolding⟩ := hJ.relies_star hRely
    rw [hImage]
    exact ⟨.refl, hHolding⟩
  · obtain ⟨hHolding, hPromises⟩ := hJ.setImage hs
    exact ⟨image_setImage s t, hHolding, hPromises⟩

theorem moves_inside (pid : Nat) {p : ImageProc α} (hp : Moves (fun s s' => s' = s) p) :
    Moves (fun m m' => m' = m) (inside pid p) :=
  moves_embed hp setImage_image

/-! ## Taking and giving back -/

theorem storeInv_makeDirectory {P : Platform} {disk : Disk} {counter : UInt64} {h : History}
    (hStore : StoreInv P ⟨{ disk with counter := counter }, {}⟩ h) :
    StoreInv P ⟨{ disk with directory := true, counter := counter }, {}⟩ h := by
  refine ⟨?_, hStore.valid, hStore.ready, fun _ => rfl⟩
  cases hStore.durable with
  | absent hFile hCounter hLast => exact .absent hFile hCounter hLast
  | current hFile hWritten hSeals hCounter => exact .current hFile hWritten hSeals hCounter
  | ahead hFile hWritten hSeals hOp hChange hBound hCounter =>
    exact .ahead hFile hWritten hSeals hOp hChange hBound hCounter

theorem SharedInv.makeDirectory {s : Shared} (h : SharedInv P s) :
    SharedInv P { s with disk.directory := true } := by
  refine ⟨?_, h.log⟩
  cases h.condition with
  | unused hFile hLast => exact .unused hFile hLast
  | used hCounter hOpens hStore =>
    have hMade := storeInv_makeDirectory hStore
    exact .used hCounter hOpens hMade

theorem Outside.makeDirectory (hm : Outside P pid m) :
    Promises P pid m { m with disk.directory := true } ∧
      Prepared P pid { m with disk.directory := true } := by
  have hInv : MachineInv P { m with disk.directory := true } :=
    ⟨hm.inv.shared.makeDirectory, fun _ => rfl⟩
  refine ⟨fun _ => ⟨hInv, fun other _ => ⟨rfl, fun hLock => ⟨hLock, ?_⟩, id, fun _ => rfl, id⟩⟩,
    ⟨hInv, hm.lock, hm.silent⟩, rfl⟩
  -- Where somebody holds the lock, the directory is there already.
  rw [← hm.inv.directory (hLock ▸ Option.some_ne_none other)]

theorem wp_prepareStoreDirectory (hm : Outside P pid m) :
    wp (among P pid) (fun _ => Prepared P pid) (fun _ => MachineInv P)
      (inside pid (withDirectory prepareStoreDirectory)) m := by
  unfold inside withDirectory prepareStoreDirectory syscall
  rw [embed_atomically, embed_atomically]
  refine wp_tolerant_atomically tolerates_outside hm fun m i hm _ => ?_
  obtain ⟨hPromises, hPrepared⟩ := hm.makeDirectory
  cases i.answer.fails .makeDirectory with
  | true =>
    have hSame : m.setImage pid (m.image pid) = m := setImage_image m
    refine ⟨?_, fun _ h => (by cases h), fun _ _ => ?_⟩
    · exact hSame.symm ▸ Promises.refl P pid m
    · exact hSame.symm ▸ hm.inv
  | false =>
    have hMade : m.setImage pid { m.image pid with disk.directory := true } =
        { m with disk.directory := true } := by simp [Machine.setImage, Machine.image]
    refine ⟨?_, fun _ _ => ?_, fun _ h => (by cases h)⟩
    · exact hMade.symm ▸ hPromises
    · exact hMade.symm ▸ hPrepared

theorem moves_openStoreDirectory : Moves (fun w w' => w' = w) openStoreDirectory := by
  refine moves_bind (moves_atomically fun a w => ?_) fun _ => moves_atomically fun _ _ => rfl
  cases a.fails .openDirectory <;> rfl

theorem wp_openStoreDirectory (hm : Prepared P pid m) :
    wp (among P pid) (fun _ => Prepared P pid) (fun _ => Prepared P pid)
      (inside pid (withDirectory openStoreDirectory)) m :=
  maintains_of_moves (moves_inside pid (moves_embed moves_openStoreDirectory fun _ => rfl))
    tolerates_prepared (fun m _ => .refl P pid m) trivial m hm

/-- Taking the lock is nothing to those who do not hold it. -/
theorem Prepared.takeLock (hm : Prepared P pid m) (hFree : m.lock = none) :
    Promises P pid m { m with lock := some pid } ∧
      Holding P pid m.log { m with lock := some pid } := by
  refine ⟨fun hInv => ⟨⟨hInv.shared, fun _ => hm.directory⟩, fun other hOther => ?_⟩, rfl,
    hm.outside.inv.shared, hm.directory, [], (List.append_nil _).symm, fun _ h => by cases h⟩
  refine ⟨rfl, fun hLock => ?_, fun _ hLock => hOther (Option.some.inj hLock).symm, id, id⟩
  rw [hFree] at hLock
  cases hLock

theorem wp_flock (hm : Prepared P pid m) :
    wp (among P pid) (fun _ m => ∃ log, (∀ e ∈ log, e.pid ≠ pid) ∧ Holding P pid log m)
      (fun _ => MachineInv P) (flock pid) m := by
  refine wp_tolerant_atomically tolerates_prepared hm fun m i hm _ => ?_
  have hInv := hm.outside.inv
  cases i.flockFails with
  | true => exact ⟨.refl P pid m, fun _ h => (by cases h), fun _ _ => hInv⟩
  | false =>
    cases hLock : m.lock with
    | some holder =>
      simp only [Bool.false_eq_true, if_false]
      exact ⟨.refl P pid m, fun _ h => (by cases h), fun _ _ => hInv⟩
    | none =>
      simp only [Bool.false_eq_true, if_false]
      obtain ⟨hPromises, hHolding⟩ := hm.takeLock hLock
      exact ⟨hPromises, fun _ _ => ⟨m.log, hm.outside.silent, hHolding⟩, fun _ h => (by cases h)⟩

/-- Whoever gives back the lock, or dies with it, harms nobody. -/
theorem promises_death (P : Bytes → Platform) (pid : Nat) (m : Machine) :
    Promises P pid m (death pid m) := by
  intro hInv
  by_cases hLock : m.lock = some pid
  · have hDeath : death pid m = { m with lock := none } := by rw [death, if_pos hLock]
    rw [hDeath]
    refine ⟨⟨hInv.shared, fun h => absurd rfl h⟩, fun other hOther => ⟨rfl, fun hHeld => ?_,
      fun _ h => (by cases h), id, id⟩⟩
    rw [hLock] at hHeld
    exact absurd (Option.some.inj hHeld).symm hOther
  · have hDeath : death pid m = m := by rw [death, if_neg hLock]
    rw [hDeath]
    exact Promises.refl P pid m hInv

theorem wp_unlock {Q : Unit → Machine → Prop} {E : Exn → Machine → Prop}
    (hm : Holding P pid log m) (hQ : ∀ m, MachineInv P m → Q () m) :
    wp (among P pid) Q E unlock m := by
  intro m' hRely i _
  obtain ⟨-, hHolding⟩ := hm.relies_star hRely
  have hDeath : death pid m' = { m' with lock := none } := by rw [death, if_pos hHolding.lock]
  have hPromises := promises_death P pid m'
  rw [hDeath] at hPromises
  exact ⟨hPromises, hQ _ (hPromises hHolding.inv).1⟩

/-- **Critical sections.** A process takes the lock, does under it what it does alone, and gives it
back, whether it returns or throws. -/
theorem wp_locked {body : ImageProc α} (hm : Outside P pid m)
    (hBody : ∀ log s, (∀ e ∈ log, e.pid ≠ pid) → OwnInv P pid log s →
      wp (owning P pid log) (fun _ => OwnInv P pid log) (fun _ => OwnInv P pid log) body s) :
    wp (among P pid) (fun _ => MachineInv P) (fun _ => MachineInv P) (locked pid body) m := by
  refine wp_seq (wp_prepareStoreDirectory hm) (fun _ m hm => ?_) fun _ _ h => h
  refine wp_seq (wp_openStoreDirectory hm) (fun _ m hm => ?_) fun _ _ h => h.outside.inv
  refine wp_seq (wp_flock hm) ?_ fun _ _ h => h
  rintro _ m ⟨log, hOld, hm⟩
  refine wp_bind.mpr (wp_tryCatch.mpr (wp_mono (wp_inside hm (hBody log _ hOld hm.own)) ?_ ?_))
  · rintro result m ⟨-, hm⟩
    exact wp_bind.mpr (wp_unlock hm fun _ h => h)
  · rintro e m ⟨-, hm⟩
    exact wp_bind.mpr (wp_unlock hm fun _ h => h)

end Parts

/-! ## Programs -/

section Programs

variable {P : Bytes → Platform} {pid : Nat} {m : Machine} {α : Type}

theorem wp_storeAuthorization (origin : StoreAuthorizationOrigin) (hm : Outside P pid m) :
    wp (among P pid) (fun _ => Outside P pid) (fun _ => MachineInv P)
      (storeAuthorization origin) m :=
  wp_tolerant_atomically tolerates_outside hm fun m _ hm _ =>
    ⟨.refl P pid m, fun _ _ => hm, fun _ _ => hm.inv⟩

theorem wp_session {origin : StoreAuthorizationOrigin} {beforeStore : ImageProc Unit}
    {rest : Bytes → Bytes → ImageProc α} (hBefore : Moves (fun s s' => s' = s) beforeStore)
    (hRest : ∀ log authorization key s, (∀ e ∈ log, e.pid ≠ pid) → Serving P pid log key s →
      wp (owning P pid log) (fun _ => OwnInv P pid log) (fun _ => OwnInv P pid log)
        (rest authorization key) s) (hm : Outside P pid m) :
    wp (among P pid) (fun _ => MachineInv P) (fun _ => MachineInv P)
      (session P pid origin beforeStore rest) m := by
  refine wp_seq (wp_storeAuthorization origin hm) (fun authorization m hm => ?_) fun _ _ h => h
  have hConstruct := maintains_of_moves (moves_inside pid (moves_withSecurity
    (moves_construct authorization))) tolerates_outside
    (fun m _ => Promises.refl P pid m) trivial m hm
  refine wp_seq hConstruct (fun _ m hm => ?_) fun _ _ h => h.inv
  exact wp_locked hm fun log s hOld hs =>
    wp_useStore hOld hBefore (fun key s hServing => hRest log authorization key s hOld hServing) hs

theorem moves_startup : Moves (fun s s' => s' = s) startup := moves_atomically fun _ _ => rfl

theorem wp_run (hP : ∀ key, (P key).Lawful) (program : Program) (hm : Outside P pid m) :
    wp (among P pid) (fun _ => MachineInv P) (fun _ => MachineInv P) (program.run P pid) m := by
  cases program with
  | daemon rounds =>
    refine wp_session (moves_bind (moves_withSecurity moves_tssCheck) fun _ => moves_startup)
      (fun log authorization key s hOld hServing => ?_) hm
    refine wp_seq (maintains_reads moves_startup (fun _ h => h.inv) s hServing)
      (fun _ s hServing => ?_) fun _ _ h => h.inv
    exact wp_seq (maintains_serveRequests hOld hP key rounds s hServing)
      (fun _ _ h => h.inv) fun _ _ h => h.inv
  | storeClear origin =>
    refine wp_session trivial (fun log authorization key s hOld hServing => ?_) hm
    exact wp_seq (wp_update hOld hP hServing .clear) (fun _ _ h => h.inv) fun _ _ h => h.inv
  | credentialList origin ownerUid rp =>
    refine wp_session trivial (fun log authorization key s hOld hServing => ?_) hm
    exact wp_keeps_observe Service.keeps_nobody hServing.inv fun _ _ =>
      ⟨fun _ _ => hServing.inv, fun _ _ => hServing.inv⟩
  | eraseCredential origin ownerUid credentialId =>
    refine wp_bind.mpr (wp_ofExcept.mpr ⟨fun credId _ => ?_, fun _ _ => hm.inv⟩)
    refine wp_session trivial (fun log authorization key s hOld hServing => ?_) hm
    exact wp_seq (wp_update hOld hP hServing (.erase credId ownerUid))
      (fun _ _ h => h.inv) fun _ _ h => h.inv
  | provision origin =>
    refine wp_seq (wp_storeAuthorization origin hm) (fun authorization m hm => ?_) fun _ _ h => h
    exact wp_locked hm fun log s hOld hs => wp_provisionObjects hOld hs

end Programs

/-! ## Machines -/

/-- Each process runs one program. -/
def processes (P : Bytes → Platform) (programs : Nat → Program) :
    Team Machine Turn Exn fun _ : Nat => Bytes :=
  fun pid => (programs pid).process P pid

/-- Everything that can have happened on a machine whose store was not used before. The TPM may
hold anything. -/
def Reached (P : Bytes → Platform) (programs : Nat → Program) (m : Machine) : Prop :=
  ∃ m₀ ps, m₀.disk.file = none ∧ m₀.log = [] ∧ m₀.lock = none ∧
    Team.Steps Service.nobody (fun _ _ _ => True) (processes P programs, m₀) (ps, m)

variable {P : Bytes → Platform} {m : Machine}

theorem machineInv_blank (hFile : m.disk.file = none) (hLog : m.log = []) (hLock : m.lock = none) :
    MachineInv P m where
  shared := by
    refine ⟨.unused hFile (by rw [hLog]; rfl), ?_⟩
    rw [hLog]
    refine ⟨fun past pid call store rest h => ?_, fun before first between last after h => ?_,
      fun _ _ h => (by cases h), fun _ h => (by cases h), fun before pid after h => ?_⟩
    all_goals simp at h
  directory := fun h => absurd hLock h

/-- The invariant holds whatever the processes do. -/
theorem machineInv_reached {programs : Nat → Program} (hP : ∀ key, (P key).Lawful)
    (h : Reached P programs m) : MachineInv P m := by
  obtain ⟨m₀, ps, hFile, hLog, hLock, hRun⟩ := h
  have hBlank : MachineInv P m₀ := machineInv_blank hFile hLog hLock
  have hMembers (pid : Nat) : wp (among P pid) (fun _ => MachineInv P) (fun _ => MachineInv P)
      (processes P programs pid) m₀ := by
    refine wp_mortal (promises_death P pid) trivial (wp_run hP (programs pid) ⟨hBlank, ?_, ?_⟩)
    · rw [hLock]
      exact fun h => by cases h
    · rw [hLog]
      exact fun _ h => by cases h
  have hOthers (j k : Nat) (hjk : j ≠ k) (m m' : Machine) (hPromises : Promises P j m m') :
      Relies P k m m' := fun hInv => ⟨(hPromises hInv).1, (hPromises hInv).2 k hjk.symm⟩
  exact Team.invariant hOthers (fun _ _ _ h => h.elim) hMembers hBlank (fun _ _ h => h.elim)
    (fun pid m m' hPromises hInv => (hPromises hInv).1) hRun

/-- **Processes take turns.** Whatever the processes of a machine do, wherever they are killed and
whatever fails, the log is that of one process after another: the events of a process are not mixed
with those of others, every load yields what was acknowledged before it or what one interrupted
operation would have left, and every operation that returns was applied to the acknowledged
store. -/
theorem processes_take_turns {P : Bytes → Platform} {programs : Nat → Program} {m : Machine}
    (hP : ∀ key, (P key).Lawful) (h : Reached P programs m) : Serial m.log ∧ Sequential m.log := by
  have hInv := machineInv_reached hP h
  exact ⟨hInv.shared.log.serial, hInv.shared.log.sequential⟩

/-! ### A daemon that is killed -/

/-- Nothing fails. -/
def Turn.success : Turn where
  answer := .success
  tpm := { outcome := fun _ => .succeeds, description := "", startupClear := 2, permanent := 0
           initial := 7, random := Vector.replicate keySize 5 }
  authorization := .ok { kind := .regular, links := 1, owned := true, mode := 0o400
                         contents := List.replicate 32 65 ++ [10] }
  startup := .ok ()
  flockFails := false
  request := some (.put sampleCredential 1000)
  killed := false

def samplePrograms : Nat → Program
  | 0 => .provision .explicitFile
  | 1 => .daemon 4
  | _ => .credentialList .explicitFile none none

/-- This many turns of one process. -/
def turns (pid count : Nat) (turn : Turn) : List ((Nat × Turn) ⊕ Empty) :=
  List.replicate count (.inl (pid, turn))

/-- A machine is provisioned, and its daemon is killed while it registers a credential, after the
new file is there and before the counter has followed. A list then shows the credential. -/
def killedDaemon : List ((Nat × Turn) ⊕ Empty) :=
  turns 0 22 .success ++ turns 1 36 .success ++ turns 1 1 { Turn.success with killed := true } ++
    turns 2 23 .success

def runTurns (script : List ((Nat × Turn) ⊕ Empty)) (m : Machine) :=
  Team.follow (fun _ _ _ => true) (fun (move : Empty) _ => move.elim) (fun _ _ => false) script
    (processes (fun _ => samplePlatform) samplePrograms, m)

theorem steps_runTurns {script : List ((Nat × Turn) ⊕ Empty)} {m' : Machine}
    {ps : Team Machine Turn Exn fun _ : Nat => Bytes} (h : runTurns script m = some (ps, m')) :
    Team.Steps Service.nobody (fun _ _ _ => True)
      (processes (fun _ => samplePlatform) samplePrograms, m) (ps, m') :=
  Team.steps_follow (fun _ _ _ _ => trivial) (fun _ _ h => by cases h) script h

theorem reached_runTurns (script : List ((Nat × Turn) ⊕ Empty)) (check : Machine → Bool)
    (h : (runTurns script {}).any (fun c => check c.2) = true) :
    ∃ m, Reached (fun _ => samplePlatform) samplePrograms m ∧ check m = true := by
  obtain ⟨⟨ps, m⟩, hFollow, hCheck⟩ := (Option.any_eq_true _ _).mp h
  exact ⟨m, ⟨{}, ps, rfl, rfl, rfl, steps_runTurns hFollow⟩, hCheck⟩

theorem processes_take_turns_killedDaemon :
    ∃ m, Reached (fun _ => samplePlatform) samplePrograms m ∧
      m.log.map Event.pid = [0, 1, 1, 1, 1, 2, 2, 2] ∧ Serial m.log ∧ Sequential m.log := by
  obtain ⟨m, hReached, hLog⟩ := reached_runTurns killedDaemon
    (fun m => m.log.map Event.pid == [0, 1, 1, 1, 1, 2, 2, 2]) (by decide +kernel)
  exact ⟨m, hReached, beq_iff_eq.mp hLog, processes_take_turns (fun _ => samplePlatform_lawful)
    hReached⟩

/-- The store file at rest: it opens with the key in the TPM, and the counter in the TPM is at its
generation or one behind. -/
def FileOpens (P : Bytes → Platform) (tpm : Tpm) (file : Bytes) : Prop :=
  ∃ authorization value key counterOrigin generation stored,
    tpm.counter = some ⟨authorization, some value⟩ ∧ Opens tpm key counterOrigin ∧
    Seals (P key) file generation stored ∧
    (generation = value - counterOrigin ∨ generation = value - counterOrigin + 1)

theorem fileOpens_of_condition {s : Shared} {file : Bytes} (h : Condition P s)
    (hFile : s.disk.file = some file) : FileOpens P s.tpm file := by
  cases h with
  | unused hNone =>
    rw [hFile] at hNone
    cases hNone
  | used hCounter hOpens hStore =>
    cases hStore.durable with
    | absent hNone =>
      rw [show s.disk.file = none from hNone] at hFile
      cases hFile
    | current hSome _ hSeals hAgrees =>
      obtain rfl := Option.some.inj (hSome.symm.trans hFile)
      exact ⟨_, _, _, _, _, _, hCounter, hOpens, hSeals, .inl hAgrees.symm⟩
    | ahead hSome _ hSeals _ _ _ hAgrees =>
      obtain rfl := Option.some.inj (hSome.symm.trans hFile)
      refine ⟨_, _, _, _, _, _, hCounter, hOpens, hSeals, ?_⟩
      rcases hAgrees with hBehind | hSame
      · exact .inr (congrArg (· + 1) hBehind.symm)
      · exact .inl hSame.symm

/-- **One key.** At every moment every key that a process ever unsealed is the one in the TPM,
provisioning has succeeded at most once, and the store file opens with the key in the TPM at a
generation that the counter allows. -/
theorem one_store_key {P : Bytes → Platform} {programs : Nat → Program} {m : Machine}
    (hP : ∀ key, (P key).Lawful) (h : Reached P programs m) :
    (∀ pid key, .unsealed pid key ∈ m.log → ∃ counterOrigin, Opens m.tpm key counterOrigin) ∧
    (∀ before pid after, m.log = before ++ .provisioned pid :: after →
      ∀ pid', .provisioned pid' ∉ before) ∧
    ∀ file, m.disk.file = some file → FileOpens P m.tpm file := by
  have hInv := machineInv_reached hP h
  exact ⟨hInv.shared.log.unsealed, hInv.shared.log.once,
    fun _ hFile => fileOpens_of_condition hInv.shared.condition hFile⟩

theorem one_store_key_killedDaemon :
    ∃ m file, Reached (fun _ => samplePlatform) samplePrograms m ∧ m.disk.file = some file ∧
      FileOpens (fun _ => samplePlatform) m.tpm file := by
  obtain ⟨m, hReached, hFile⟩ := reached_runTurns killedDaemon (fun m => m.disk.file.isSome)
    (by decide +kernel)
  obtain ⟨file, hFile⟩ := Option.isSome_iff_exists.mp hFile
  exact ⟨m, file, hReached, hFile,
    (one_store_key (fun _ => samplePlatform_lawful) hReached).2.2 file hFile⟩

end VAuth.System
