import VAuth.Store.Security

/-!
# What provisioning does to the TPM

`provision` never touches objects that exist: with a counter in the TPM it changes nothing, and a
sealed object it did not create stays as it is. It returns only with a new counter and a new sealed
object that fit together. If it throws, it has removed what it created, unless the message says
that this failed or a command failed after its effect.
-/

namespace VAuth.Store

open Proc

/-- How a command that changes the TPM can end. -/
inductive Changed (command : TpmCommand) (operation : String)
    (effect : TpmAnswer → Tpm → Option Tpm) (a : TpmAnswer) (tpm : Tpm) :
    Except Exn Unit × Tpm → Prop
  | done {tpm' : Tpm} (hEffect : effect a tpm = some tpm') :
      Changed command operation effect a tpm (.ok (), tpm')
  | refused : Changed command operation effect a tpm (.error (tssError a operation), tpm)
  | late {tpm' : Tpm} (hEffect : effect a tpm = some tpm')
      (hLate : a.outcome command = .failsAfterEffect) :
      Changed command operation effect a tpm (.error (tssError a operation), tpm')

theorem changed (command : TpmCommand) (operation : String)
    (effect : TpmAnswer → Tpm → Option Tpm) (a : TpmAnswer) (tpm : Tpm) :
    Changed command operation effect a tpm (changeTpm command operation effect a tpm) := by
  unfold changeTpm
  cases hEffect : effect a tpm with
  | none => exact .refused
  | some tpm' =>
    cases hOutcome : a.outcome command with
    | succeeds => exact .done hEffect
    | failsWithoutEffect => exact .refused
    | failsAfterEffect => exact .late hEffect hOutcome

/-- What provisioning may have made of the TPM so far. -/
structure Provisions (t₀ t : Tpm) : Prop where
  existing : t₀.counter ≠ none → t = t₀
  sealed : ∀ object, t₀.sealed = some object → t.sealed = some object

theorem Provisions.blank (t : Tpm) : Provisions {} t :=
  ⟨fun h => absurd rfl h, fun _ h => by cases h⟩

/-- The TPM as a provisioning leaves it that returned. -/
structure Provisioned (authorization : Bytes) (t₀ t : Tpm) : Prop where
  unprovisioned : t₀ = {}
  objects : ∃ (key : Bytes) (counterOrigin : UInt64), key.length = keySize ∧ counterOrigin ≠ 0 ∧
    t = { counter := some ⟨authorization, some counterOrigin⟩
          sealed := some ⟨authorization, key ++ encodeUint64 counterOrigin⟩ }

/-- The command that throws has created an object in spite of its failure, and this object is
all that is new in the TPM. -/
inductive CreatedLate (answered : TpmAnswer → Prop) (authorization : Bytes) (t₀ : Tpm) :
    Exn → Tpm → Prop
  | counter {a : TpmAnswer} (ha : answered a) (hLate : a.outcome .createNv = .failsAfterEffect)
      (hNone : t₀.counter = none) :
      CreatedLate answered authorization t₀ (tssError a "Fapi_CreateNv")
        { t₀ with counter := some { authorization } }
  | sealed {a : TpmAnswer} {data : Bytes} (ha : answered a)
      (hLate : a.outcome .createSeal = .failsAfterEffect) (hNone : t₀.sealed = none) :
      CreatedLate answered authorization t₀ (tssError a "Fapi_CreateSeal")
        { t₀ with sealed := some { authorization, data } }

/-- The message says that the objects could not be removed. -/
def CleanupFailed (e : Exn) : Prop :=
  ∃ what, e = .runtimeError (what ++ "; cleanup of provisioned objects failed")

/-- Where provisioning throws. -/
structure ProvisionThrows (answered : TpmAnswer → Prop) (authorization : Bytes) (t₀ : Tpm)
    (e : Exn) (t : Tpm) : Prop where
  provisions : Provisions t₀ t
  restored : t = t₀ ∨ CleanupFailed e ∨ CreatedLate answered authorization t₀ e t

namespace FapiStoreSecurity

variable {C : Setting Security TpmAnswer} {I : Security → Prop} {s : Security}
  {authorization : Bytes} {t₀ : Tpm} {answered : TpmAnswer → Prop} {a : TpmAnswer} {tpm t : Tpm}
  {counterOrigin : UInt64} {command : TpmCommand} {operation : String}
  {effect : TpmAnswer → Tpm → Option Tpm} {Q : Unit → Security → Prop} {E : Exn → Security → Prop}

theorem wp_tssChange (hC : C.Keeps I) (hI : I s)
    (hDone : ∀ a tpm', C.admits s a → effect a s.tpm = some tpm' → I { s with tpm := tpm' } ∧
      Q () { s with tpm := tpm' }) (hRefused : ∀ what, E (.runtimeError what) s)
    (hLate : ∀ a tpm', C.admits s a → effect a s.tpm = some tpm' →
      a.outcome command = .failsAfterEffect → E (tssError a operation) { s with tpm := tpm' }) :
    wp C Q E (tssChange (changeTpm command operation effect)) s := by
  refine wp_keeps_atomically hC fun a ha => ?_
  have hChanged := changed command operation effect a s.tpm
  generalize changeTpm command operation effect a s.tpm = result at hChanged
  cases hChanged with
  | done hEffect =>
    refine ⟨(hDone a _ ha hEffect).1, fun _ _ => (hDone a _ ha hEffect).2, fun e he => ?_⟩
    cases he
  | refused =>
    refine ⟨hI, fun _ hOk => (by cases hOk), fun e he => ?_⟩
    cases he
    exact hRefused _
  | late hEffect hOutcome =>
    refine ⟨(hDone a _ ha hEffect).1, fun _ hOk => (by cases hOk), fun e he => ?_⟩
    cases he
    exact hLate a _ ha hEffect hOutcome

theorem wp_tssCheck (hC : C.Keeps I) (hI : I s) (hQ : Q () s)
    (hE : ∀ what, E (.runtimeError what) s) : wp C Q E (tssCheck command operation) s := by
  refine wp_keeps_observe hC hI fun a _ => ⟨fun _ _ => hQ, fun e he => ?_⟩
  split at he
  · cases he
  · cases he
    exact hE _

theorem wp_requireUnprotectedOwnerHierarchy (hC : C.Keeps I) (hI : I s) :
    wp C (fun _ s' => s' = s) (fun _ s' => s' = s) requireUnprotectedOwnerHierarchy s := by
  have hProperty {command : TpmCommand} {property : TpmAnswer → UInt32}
      {Q : UInt32 → Security → Prop} (hQ : ∀ value, Q value s) :
      wp C Q (fun _ s' => s' = s) (readTpmProperty command property) s :=
    wp_keeps_observe hC hI fun a _ => ⟨fun value _ => hQ value, fun _ _ => rfl⟩
  refine wp_bind.mpr (wp_tssCheck hC hI (wp_bind.mpr (wp_tssCheck hC hI ?_ fun _ => rfl))
    fun _ => rfl)
  refine wp_bind.mpr (hProperty fun startupClear => ?_)
  split
  · exact rfl
  · refine wp_bind.mpr (hProperty fun permanent => ?_)
    split <;> exact rfl

theorem wp_rethrow {cleaned : Bool} {what : String} (hC : C.Keeps fun s' => Provisions t₀ s'.tpm)
    (hProvisions : Provisions t₀ s.tpm) (hCleaned : cleaned = true →
      s.tpm = t₀ ∨ CreatedLate answered authorization t₀ (.runtimeError what) s.tpm) :
    wp C (fun _ _ => False) (fun e s' => ProvisionThrows answered authorization t₀ e s'.tpm)
      (rethrow cleaned (.runtimeError what)) s := by
  refine wp_bind.mpr (wp_keeps_modify hC hProvisions ⟨hProvisions, ?_⟩)
  cases cleaned with
  | false => exact .inr (.inl ⟨what, rfl⟩)
  | true =>
    rcases hCleaned rfl with hSame | hLate
    · exact .inl hSame
    · exact .inr (.inr hLate)

/-- A deletion either removes its object or says that it failed. -/
theorem wp_delete {Q : Except Exn Unit → Security → Prop} (hC : C.Keeps I) (hI : I s)
    (hEffect : ∀ a tpm', effect a s.tpm = some tpm' → I { s with tpm := tpm' })
    (hDone : ∀ a tpm', effect a s.tpm = some tpm' → Q (.ok ()) { s with tpm := tpm' })
    (hFailed : ∀ s' e, I s' → Q (.error e) s') :
    wp C Q (fun _ _ => False) (tssChange (changeTpm command operation effect)).attempt s := by
  refine wp_attempt.mpr (wp_tssChange hC hI ?_ ?_ ?_)
  · intro a tpm' _ h
    exact ⟨hEffect a tpm' h, hDone a tpm' h⟩
  · exact fun what => hFailed s _ hI
  · exact fun a tpm' _ h _ => hFailed _ _ (hEffect a tpm' h)

/-- Where the first part of the `try` block throws: but for the counter, the TPM is as a throw of
`provision` may leave it. -/
structure CreationThrows (answered : TpmAnswer → Prop) (authorization : Bytes) (t₀ : Tpm) (e : Exn)
    (s : Security) : Prop where
  runtimeError : ∃ what, e = .runtimeError what
  provisions : Provisions t₀ s.tpm
  sealed : { s.tpm with counter := t₀.counter } = t₀ ∨
    CreatedLate answered authorization t₀ e { s.tpm with counter := t₀.counter }

/-- The `catch` block before there was a sealed object. -/
theorem wp_cleanup_counter {e : Exn} (hC : C.Keeps fun s' => Provisions t₀ s'.tpm)
    (hCounter : t₀.counter = none) (hThrows : CreationThrows answered authorization t₀ e s) :
    wp C (fun _ _ => False) (fun e s' => ProvisionThrows answered authorization t₀ e s'.tpm)
      (cleanup false e) s := by
  obtain ⟨⟨what, rfl⟩, hProvisions, hSealed⟩ := hThrows
  rw [hCounter] at hSealed
  have hKeeps : Provisions t₀ { s.tpm with counter := none } :=
    ⟨fun h => absurd hCounter h, hProvisions.sealed⟩
  refine wp_seq (wp_delete hC hProvisions ?_ ?_ ?_) (fun _ _ h => h) fun _ _ h => h.elim
  · intro a tpm' hEffect
    obtain ⟨-, hSome⟩ := Option.ite_none_right_eq_some.mp hEffect
    cases hSome
    exact hKeeps
  · intro a tpm' hEffect
    obtain ⟨-, hSome⟩ := Option.ite_none_right_eq_some.mp hEffect
    cases hSome
    exact wp_rethrow hC hKeeps fun _ => hSealed
  · intro s' e hs'
    exact wp_rethrow hC hs' fun hOk => by cases hOk

/-- The `catch` block after the sealed object was created. -/
theorem wp_cleanup_objects {what : String} (hC : C.Keeps fun s' => Provisions {} s'.tpm) :
    wp C (fun _ _ => False) (fun e s' => ProvisionThrows answered authorization {} e s'.tpm)
      (cleanup true (.runtimeError what)) s := by
  have hKey (cleaned : Bool) {s' : Security} (hs' : cleaned = true → s'.tpm.counter = none) :
      wp C (fun _ _ => False) (fun e s' => ProvisionThrows answered authorization {} e s'.tpm) (do
        let keyCleanup ← (tssChange deleteKey).attempt
        rethrow (cleaned && keyCleanup.isOk) (.runtimeError what)) s' := by
    refine wp_seq (wp_delete hC (.blank _) (fun _ _ _ => .blank _) ?_ ?_)
      (fun _ _ h => h) fun _ _ h => h.elim
    · intro a tpm' hEffect
      obtain ⟨-, hSome⟩ := Option.ite_none_right_eq_some.mp hEffect
      cases hSome
      refine wp_rethrow hC (.blank _) fun hOk => .inl ?_
      show Tpm.mk s'.tpm.counter none = {}
      rw [hs' (Bool.and_eq_true_iff.mp hOk).1]
    · intro s'' e _
      exact wp_rethrow hC (.blank _) fun hOk => by
        cases (Bool.and_eq_true_iff.mp hOk).2
  refine wp_seq (wp_delete hC (.blank _) (fun _ _ _ => .blank _) ?_ ?_)
    (fun _ _ h => h) fun _ _ h => h.elim
  · intro a tpm' hEffect
    obtain ⟨-, hSome⟩ := Option.ite_none_right_eq_some.mp hEffect
    cases hSome
    exact hKey true fun _ => rfl
  · intro s' e _
    exact hKey false fun hOk => by cases hOk

theorem length_encodeUint64 (value : UInt64) : (encodeUint64 value).length = counterSize := rfl

theorem decodeUint64_encode (value : UInt64) : decodeUint64 (encodeUint64 value) = .ok value := by
  rw [decodeUint64, if_neg fun h => h (length_encodeUint64 value), encodeUint64,
    readUint64Be_append]

theorem openMaterial_append {key : Bytes} (hKey : key.length = keySize)
    (hOrigin : counterOrigin ≠ 0) :
    openMaterial (key ++ encodeUint64 counterOrigin) = .ok (key, counterOrigin) := by
  have hLength : (key ++ encodeUint64 counterOrigin).length = sealedMaterialSize := by
    rw [List.length_append, hKey, length_encodeUint64, sealedMaterialSize]
  unfold openMaterial
  rw [if_neg fun h => h hLength, ← hKey, List.drop_left, List.take_left, decodeUint64_encode]
  simp only [bind, Except.bind, pure, Except.pure, if_neg hOrigin]

theorem readRawCounter_ok {value : UInt64} (h : readRawCounter authorization a tpm = .ok value) :
    tpm.counter = some ⟨authorization, some value⟩ ∧ value ≠ 0 := by
  unfold readRawCounter at h
  split at h
  · rename_i objectAuthorization raw hCounter
    split at h
    · rename_i hAccess
      obtain ⟨value', hDecoded, h⟩ := bind_eq_ok.mp h
      obtain ⟨hNonzero, h⟩ := guard_eq_ok.mp h
      cases h
      have hValue : raw = value := Except.ok.inj ((decodeUint64_encode raw).symm.trans hDecoded)
      rw [hCounter, hValue, hAccess.1]
      exact ⟨rfl, hNonzero⟩
    · cases h
  · cases h

theorem unsealObject_ok {key : Bytes}
    (h : unsealObject authorization a tpm = .ok (key, counterOrigin)) :
    ∃ object, tpm.sealed = some object ∧ object.authorization = authorization ∧
      openMaterial object.data = .ok (key, counterOrigin) := by
  unfold unsealObject at h
  split at h
  · rename_i object hObject
    split at h
    · rename_i hAccess
      exact ⟨object, hObject, hAccess.1, h⟩
    · cases h
  · cases h

theorem throws_readRawCounter :
    Throws (fun e => ∃ what, e = .runtimeError what) (readRawCounter authorization a tpm) := by
  unfold readRawCounter
  split
  · split
    · refine throws_bind ?_ fun value => throws_guard ⟨_, rfl⟩ (throws_ok _)
      unfold decodeUint64
      split
      · exact throws_error ⟨_, rfl⟩
      · exact throws_ok _
    · exact throws_error ⟨_, rfl⟩
  · exact throws_error ⟨_, rfl⟩

theorem incremented_eq {tpm' : Tpm} (h : incremented authorization a tpm = some tpm') :
    ∃ counter, tpm.counter = some counter ∧ counter.authorization = authorization ∧
      tpm' = { tpm with counter := some { counter with
        value := some (counter.value.elim a.initial fun value => value + 1) } } := by
  unfold incremented at h
  split at h
  · cases h
  · rename_i counter hCounter
    obtain ⟨hAuthorization, hSome⟩ := Option.ite_none_right_eq_some.mp h
    exact ⟨counter, hCounter, hAuthorization, (Option.some.inj hSome).symm⟩

theorem wp_createObjects (hC : C.Keeps fun s' => Provisions t₀ s'.tpm)
    (hAnswered : ∀ s a, C.admits s a → answered a) (hCounter : t₀.counter = none)
    (hSealed : s.tpm.sealed = t₀.sealed) :
    wp C (fun _ s' => Provisioned authorization t₀ s'.tpm)
      (CreationThrows answered authorization t₀) (createObjects authorization) s := by
  have hKeeps {s' : Security} (hs' : s'.tpm.sealed = t₀.sealed) : Provisions t₀ s'.tpm :=
    ⟨fun h => absurd hCounter h, fun object h => hs'.trans h⟩
  have hThrows {s' : Security} (hs' : s'.tpm.sealed = t₀.sealed) {e : Exn}
      (he : ∃ what, e = .runtimeError what) : CreationThrows answered authorization t₀ e s' :=
    ⟨he, hKeeps hs', .inl (congrArg (Tpm.mk t₀.counter) hs')⟩
  have hIncremented {a : TpmAnswer} {tpm' : Tpm}
      (h : incremented authorization a s.tpm = some tpm') : tpm'.sealed = t₀.sealed := by
    obtain ⟨_, _, _, rfl⟩ := incremented_eq h
    exact hSealed
  refine wp_bind.mpr (wp_tssChange hC (hKeeps hSealed) ?_ (fun what => hThrows hSealed ⟨what, rfl⟩)
    fun a tpm' _ hEffect _ => hThrows (hIncremented hEffect) ⟨_, rfl⟩)
  intro a tpm' _ hEffect
  have hs' : ({ s with tpm := tpm' } : Security).tpm.sealed = t₀.sealed := hIncremented hEffect
  refine ⟨hKeeps hs', ?_⟩
  generalize ({ s with tpm := tpm' } : Security) = s' at hs' ⊢
  refine wp_bind.mpr (wp_keeps_observe hC (hKeeps hs') fun a _ => ⟨?_, fun e he =>
    hThrows hs' (throws_readRawCounter e he)⟩)
  intro counterOrigin hRead
  obtain ⟨hValue, hNonzero⟩ := readRawCounter_ok hRead
  rw [if_neg hNonzero]
  refine wp_bind.mpr (wp_keeps_observe hC (hKeeps hs') fun a _ => ⟨fun key _ => ?_, fun e he => ?_⟩)
  · refine wp_tssChange hC (hKeeps hs') ?_ (fun what => hThrows hs' ⟨what, rfl⟩) ?_
    · intro a tpm' _ hEffect
      obtain ⟨hNone, hSome⟩ := Option.ite_none_right_eq_some.mp hEffect
      cases hSome
      have hAbsent : t₀.sealed = none := hs' ▸ Option.isNone_iff_eq_none.mp hNone
      have hBlank : t₀ = {} := by rw [← hCounter, ← hAbsent]
      refine ⟨⟨fun h => absurd hCounter h, fun object h => ?_⟩, hBlank, key.toList, counterOrigin,
        Vector.length_toList, hNonzero, ?_⟩
      · rw [hAbsent] at h
        cases h
      · rw [hValue]
    · intro a tpm' ha hEffect hLate
      obtain ⟨hNone, hSome⟩ := Option.ite_none_right_eq_some.mp hEffect
      cases hSome
      have hAbsent : t₀.sealed = none := hs' ▸ Option.isNone_iff_eq_none.mp hNone
      refine ⟨⟨_, rfl⟩, ⟨fun h => absurd hCounter h, fun object h => ?_⟩,
        .inr (.sealed (hAnswered s' a ha) hLate hAbsent)⟩
      rw [hAbsent] at h
      cases h
  · refine hThrows hs' ?_
    split at he
    · cases he
    · cases he
      exact ⟨_, rfl⟩

theorem throws_openMaterial {data : Bytes} :
    Throws (fun e => ∃ what, e = .runtimeError what) (openMaterial data) := by
  refine throws_guard ⟨_, rfl⟩ (throws_bind ?_ fun _ => throws_guard ⟨_, rfl⟩ (throws_ok _))
  unfold decodeUint64
  split
  · exact throws_error ⟨_, rfl⟩
  · exact throws_ok _

theorem throws_unsealObject :
    Throws (fun e => ∃ what, e = .runtimeError what) (unsealObject authorization a tpm) := by
  unfold unsealObject
  split
  · split
    · exact throws_openMaterial
    · exact throws_error ⟨_, rfl⟩
  · exact throws_error ⟨_, rfl⟩

theorem throws_readGeneration : Throws (fun e => ∃ what, e = .runtimeError what)
      (readGeneration authorization counterOrigin a tpm) :=
  throws_bind throws_readRawCounter fun _ => throws_guard ⟨_, rfl⟩ (throws_ok _)

/-- `unseal_key` leaves the TPM alone and remembers the origin it read. -/
theorem wp_unsealKey (authorization : Bytes) (hC : C.Keeps fun s' => s'.tpm = t) (ht : s.tpm = t) :
    wp C (fun key s' => s'.tpm = t ∧ ∃ a counterOrigin,
        unsealObject authorization a t = .ok (key, counterOrigin) ∧
        s'.counterOrigin = some counterOrigin)
      (fun e s' => s'.tpm = t ∧ ∃ what, e = .runtimeError what) (unsealKey authorization) s := by
  refine wp_keeps_atomically hC fun a _ => ?_
  rw [ht]
  cases hUnseal : unsealObject authorization a t with
  | ok opened =>
    obtain ⟨key, counterOrigin⟩ := opened
    refine ⟨rfl, fun key' hKey => ?_, fun _ he => by cases he⟩
    cases hKey
    exact ⟨rfl, a, counterOrigin, hUnseal, rfl⟩
  | error e =>
    refine ⟨rfl, fun _ hOk => (by cases hOk), fun e' he => ?_⟩
    cases he
    exact ⟨rfl, throws_unsealObject e hUnseal⟩

theorem wp_read (hC : C.Keeps fun s' => s'.tpm = t) (ht : s.tpm = t) :
    wp C (fun _ s' => s'.tpm = t) (fun e s' => s'.tpm = t ∧ ∃ what, e = .runtimeError what)
      (read authorization) s := by
  have hRead {s' : Security} (hs' : s'.tpm = t) : wp C (fun _ s' => s'.tpm = t)
      (fun e s' => s'.tpm = t ∧ ∃ what, e = .runtimeError what)
      (Proc.observe fun a s => readGeneration authorization (s.counterOrigin.getD 0) a s.tpm) s' :=
    wp_keeps_observe hC hs' fun a _ => ⟨fun _ _ => hs', fun e he => ⟨hs',
      throws_readGeneration e he⟩⟩
  refine wp_bind.mpr (wp_keeps_read hC ht ?_)
  split
  · refine wp_seq (wp_unsealKey authorization hC ht) ?_ fun _ _ h => h
    exact fun _ s' hs' => hRead hs'.1
  · exact hRead ht

theorem wp_verifyObjects (hC : C.Keeps fun s' => s'.tpm = t) (ht : s.tpm = t) :
    wp C (fun _ s' => s'.tpm = t) (fun e s' => s'.tpm = t ∧ ∃ what, e = .runtimeError what)
      (verifyObjects authorization) s := by
  refine wp_seq (wp_unsealKey authorization hC ht) ?_ fun _ _ h => h
  refine fun _ s' hs' => wp_seq (wp_read hC hs'.1) ?_ fun _ _ h => h
  intro value s'' hs''
  split
  · exact ⟨hs'', _, rfl⟩
  · exact hs''

/-- **Provisioning.** Every exit of `provision`, wherever its commands fail, and every point at
which it may be interrupted. -/
theorem wp_provision (authorization : Bytes) (hC : C.Keeps fun s' => Provisions s.tpm s'.tpm)
    (hAnswered : ∀ s a, C.admits s a → answered a) :
    wp C (fun _ s' => Provisioned authorization s.tpm s'.tpm)
      (fun e s' => ProvisionThrows answered authorization s.tpm e s'.tpm)
      (provision authorization) s := by
  have hStart : Provisions s.tpm s.tpm := ⟨fun _ => rfl, fun _ h => h⟩
  have hUnchanged {e : Exn} : ProvisionThrows answered authorization s.tpm e s.tpm :=
    ⟨hStart, .inl rfl⟩
  refine wp_seq (wp_requireUnprotectedOwnerHierarchy hC hStart) ?_ ?_
  · rintro _ s rfl
    refine wp_bind.mpr (wp_keeps_modify hC hStart ?_)
    refine wp_bind.mpr (wp_tssChange hC hStart ?_ (fun _ => hUnchanged) ?_)
    · intro a tpm' _ hEffect
      obtain ⟨hNone, hSome⟩ := Option.ite_none_right_eq_some.mp hEffect
      cases hSome
      have hCounter : s.tpm.counter = none := Option.isNone_iff_eq_none.mp hNone
      refine ⟨⟨fun h => absurd hCounter h, fun _ h => h⟩, ?_⟩
      refine wp_bind.mpr (wp_tryCatch.mpr (wp_mono
        (wp_createObjects hC hAnswered hCounter rfl) ?_ ?_))
      · intro _ s' hProvisioned
        -- Everything in the TPM is new, so that whatever happens to it is allowed.
        have hBlank := hProvisioned.unprovisioned
        rw [hBlank] at hC ⊢
        refine wp_tryCatch.mpr (wp_mono (wp_verifyObjects (t := s'.tpm)
          (hC.mono fun _ _ => .blank _) rfl) ?_ ?_)
        · intro _ s'' hSame
          rw [hSame, ← hBlank]
          exact hProvisioned
        · rintro e s'' ⟨-, what, rfl⟩
          exact wp_mono (wp_cleanup_objects hC) (fun _ _ h => h.elim) fun _ _ h => h
      · exact fun e s' hThrows => wp_mono (wp_cleanup_counter hC hCounter hThrows)
          (fun _ _ h => h.elim) fun _ _ h => h
    · intro a tpm' ha hEffect hLate
      obtain ⟨hNone, hSome⟩ := Option.ite_none_right_eq_some.mp hEffect
      cases hSome
      have hCounter : s.tpm.counter = none := Option.isNone_iff_eq_none.mp hNone
      exact ⟨⟨fun h => absurd hCounter h, fun _ h => h⟩,
        .inr (.inr (.counter (hAnswered _ a ha) hLate hCounter))⟩
  · rintro e s rfl
    exact hUnchanged

/-- Whoever has the authorization unseals this key and finds the counter at its origin, unless the
TPM fails. -/
def Usable (authorization : Bytes) (tpm : Tpm) : Prop :=
  ∃ key counterOrigin, key.length = keySize ∧ (∀ a, a.outcome .fapiUnseal = .succeeds →
      unsealObject authorization a tpm = .ok (key, counterOrigin)) ∧
    ∀ a, a.outcome .nvRead = .succeeds → readGeneration authorization counterOrigin a tpm = .ok 0

theorem unsealObject_sealed {data : Bytes} (hSealed : tpm.sealed = some ⟨authorization, data⟩)
    (ha : a.outcome .fapiUnseal = .succeeds) :
    unsealObject authorization a tpm = openMaterial data := by
  simp only [unsealObject, hSealed, ha, and_self, if_true]

theorem readGeneration_counter {value : UInt64}
    (hCounter : tpm.counter = some ⟨authorization, some value⟩) (hValue : value ≠ 0)
    (hOrigin : counterOrigin ≤ value) (ha : a.outcome .nvRead = .succeeds) :
    readGeneration authorization counterOrigin a tpm = .ok (value - counterOrigin) := by
  have hRaw : readRawCounter authorization a tpm = .ok value := by
    simp only [readRawCounter, hCounter, ha, and_self, if_true, decodeUint64_encode, bind,
      Except.bind, if_neg hValue, pure, Except.pure]
  simp only [readGeneration, hRaw, bind, Except.bind, if_neg (UInt64.not_lt.mpr hOrigin), pure,
    Except.pure]

theorem usable_of_provisioned (h : Provisioned authorization t₀ t) : Usable authorization t := by
  obtain ⟨key, counterOrigin, hKey, hOrigin, rfl⟩ := h.objects
  refine ⟨key, counterOrigin, hKey, fun a ha => ?_, fun a ha => ?_⟩
  · rw [unsealObject_sealed rfl ha]
    exact openMaterial_append hKey hOrigin
  · rw [readGeneration_counter rfl hOrigin (UInt64.le_refl _) ha, UInt64.sub_self]

/-- **All or nothing.** However the commands of the TPM end, `provision` ends. If it returns, the
TPM was empty before, and the two objects in it now fit together. If it throws, the TPM is as
before, or the message says that the cleanup failed, or the command it throws for has created its
object all the same, which is then all that is new. At no point has it touched an object that was
there. -/
theorem provision_all_or_nothing (authorization : Bytes) (s : Security) (stream : Nat → TpmAnswer) :
    (∀ n, Provisions s.tpm (run ((List.range n).map stream) (provision authorization) s).2.tpm) ∧
    ∃ n s', (run ((List.range n).map stream) (provision authorization) s = (done (), s') ∧
        s.tpm = {} ∧ Usable authorization s'.tpm) ∨
      ∃ e, run ((List.range n).map stream) (provision authorization) s = (fail e, s') ∧
        (s'.tpm = s.tpm ∨ CleanupFailed e ∨
          CreatedLate (· ∈ (List.range n).map stream) authorization s.tpm e s'.tpm) := by
  have hRun (n : Nat) := wp_run (wp_provision authorization (C := .alone
    (· ∈ (List.range n).map stream) fun s' => Provisions s.tpm s'.tpm) keeps_alone
    fun _ _ ha => ha) ⟨fun _ => rfl, fun _ h => h⟩ _ fun _ ha => ha
  refine ⟨fun n => (hRun n).1, ?_⟩
  obtain ⟨n, s', ⟨_, hDone, hProvisioned⟩ | ⟨e, hFail, -⟩⟩ := wp_run_stream
    (wp_provision authorization (C := .alone (fun _ => True) fun s' => Provisions s.tpm s'.tpm)
      keeps_alone fun _ _ => id) stream fun _ => trivial
  · exact ⟨n, s', .inl ⟨hDone, hProvisioned.unprovisioned, usable_of_provisioned hProvisioned⟩⟩
  · have hThrows := (hRun n).2
    rw [hFail] at hThrows
    exact ⟨n, s', .inr ⟨e, hFail, hThrows.restored⟩⟩

end FapiStoreSecurity

end VAuth.Store
