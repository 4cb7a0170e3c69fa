import VAuth.Ctap.Acceptance
import VAuth.Ctap.Handler

/-!
# Algorithm identifiers

`read_int` gets an integer of up to 65 bits as an `int64_t`, reduced modulo 2^64, and only then is
it checked to be within `int`. The check excludes what has not been reduced into that range: of the
integers from -2^64 + 2^31 up to 2^64 - 2^31 those that are not within `int`. The 2^31 integers at
either end are taken for others, among them 2^64 - 7 for ES256.
-/

namespace VAuth.Ctap

open Store Format

/-- The mathematical integer. -/
def integer : Cbor → Option Int
  | .uint n => some n.toNat
  | .negative n => some (-1 - n.toNat)
  | _ => none

/-- What `cbor_value_get_int64` makes of the integer. -/
theorem asInt_toInt {c : Cbor} {n : Int64} (h : asInt c = some n) :
    ∃ z, integer c = some z ∧ -2 ^ 64 ≤ z ∧ z < 2 ^ 64 ∧ n.toInt = z.bmod (2 ^ 64) := by
  cases c with
  | uint m =>
    cases h
    have hBound := m.toNat_lt
    refine ⟨m.toNat, rfl, by omega, by omega, ?_⟩
    exact BitVec.toInt_eq_toNat_bmod m.toBitVec
  | negative m =>
    cases h
    have hBound := m.toNat_lt
    refine ⟨-1 - m.toNat, rfl, by omega, by omega, ?_⟩
    refine (BitVec.toInt_eq_toNat_bmod (~~~m).toBitVec).trans ?_
    show (((~~~m).toNat : Nat) : Int).bmod (2 ^ 64) = _
    rw [UInt64.toNat_not]
    have hSize : ((UInt64.size - 1 - m.toNat : Nat) : Int) = -1 - (m.toNat : Int) + 2 ^ 64 := by
      unfold UInt64.size
      omega
    rw [hSize]
    exact Int.add_bmod_right _ _
  | _ => cases h

/-- It is not one of the 2^31 integers at either end of the range. -/
def Unreduced (z : Int) : Prop := -2 ^ 64 + 2 ^ 31 ≤ z ∧ z < 2 ^ 64 - 2 ^ 31

/-- **The recorded algorithm is the integer**, unless that is one of those at either end. -/
theorem isAlgorithm_exact {c : Cbor} {alg : Int32} (h : IsAlgorithm c alg) :
    ∃ z, integer c = some z ∧ (z = alg.toInt ↔ Unreduced z) := by
  obtain ⟨n, hInt, hSame⟩ := h
  obtain ⟨z, hz, hLeast, hMost, hReduced⟩ := asInt_toInt hInt
  refine ⟨z, hz, ?_⟩
  unfold Unreduced
  have hMin := Int32.le_toInt alg
  have hMax := Int32.toInt_lt alg
  have hCast : ((2 ^ 64 : Nat) : Int) = 18446744073709551616 := rfl
  rw [← hSame, hReduced, Int.bmod_def, hCast] at hMin hMax ⊢
  split_ifs at hMin hMax ⊢ <;> omega

/-! ## In a request -/

/-- The value of `alg` in a public-key parameter. -/
def listedAlgorithm (c : Cbor) : Option Cbor :=
  (asMembers (asText maxEntityTextLength) c).bind (·.lookup (text "alg"))

/-- Its values in all public-key parameters of the request. -/
def listedAlgorithms (root : Cbor) : Option (List Cbor) :=
  ((asMembers asUint root).bind (·.lookup 4)).bind fun
    | .array elements => elements.mapM listedAlgorithm
    | _ => none

theorem isTextMap_alg {c : Cbor} {p : PubKeyCredParam} (h : IsTextMap pubKeyCredParam .cursor c p) :
    ∃ v, listedAlgorithm c = some v ∧ IsAlgorithm v p.alg :=
  h.member (fun _ _ => asText_eq) (List.mem_cons_of_mem _ List.mem_cons_self)
    (List.mem_cons_of_mem _ List.mem_cons_self)

variable {params : List PubKeyCredParam}

theorem isTextMap_algs {elements : List Cbor}
    (h : List.Forall₂ (IsTextMap pubKeyCredParam .cursor) elements params) :
    ∃ algs, elements.mapM listedAlgorithm = some algs ∧
      List.Forall₂ (fun c p => IsAlgorithm c p.alg) algs params := by
  induction h with
  | nil => exact ⟨[], rfl, .nil⟩
  | @cons c p _ _ hParam _ ih =>
    obtain ⟨v, hv, hAlg⟩ := isTextMap_alg hParam
    obtain ⟨algs, hAlgs, hEach⟩ := ih
    refine ⟨v :: algs, ?_, .cons hAlg hEach⟩
    rw [List.mapM_cons, hv, hAlgs]
    rfl

theorem isRequest_algs {root : Cbor} {request : CTAPMakeCredentialRequest}
    (h : IsRequest makeCredential .cursor root request) :
    ∃ algs, listedAlgorithms root = some algs ∧
      List.Forall₂ (fun c p => IsAlgorithm c p.alg) algs request.publicKeyCredParams := by
  obtain ⟨v, hv, hArray⟩ := h.member (f := makeCredential.fields[3]) asUint_key
    (List.getElem_mem _) (by decide)
  replace hv : (asMembers asUint root).bind (·.lookup 4) = some v := hv
  replace hArray : IsArray (IsTextMap pubKeyCredParam .cursor) .cursor v
      request.publicKeyCredParams := hArray
  unfold listedAlgorithms
  rw [hv]
  cases v with
  | array elements => exact isTextMap_algs (isArray_cursor.mp hArray)
  | _ =>
    obtain ⟨_, hItems, -⟩ := hArray
    cases hItems

theorem algs_recorded {algs : List Cbor}
    (hEach : List.Forall₂ (fun c p => IsAlgorithm c p.alg) algs params) :
    (algs.map integer = params.map fun p => some p.alg.toInt) ↔
      ∀ z, some z ∈ algs.map integer → Unreduced z := by
  induction hEach with
  | nil => simp
  | @cons c p algs params hAlg _ ih =>
    obtain ⟨z, hz, hExact⟩ := isAlgorithm_exact hAlg
    simp only [List.map_cons, List.cons.injEq, hz, Option.some.injEq, hExact, ih,
      List.mem_cons, forall_eq_or_imp]

/-- **Algorithms are recorded as they are listed**, and ES256 is selected only if it is, exactly
if the accepted request lists none of the 2^31 integers at either end of the range. -/
theorem algorithms_not_aliased {walk : Walk} {payload : Bytes} {request : CTAPMakeCredentialRequest}
    (hParsed : CTAPMakeCredentialRequest.parseRequest walk payload = some request) :
    ∃ root algs, walk payload = some (root, []) ∧ listedAlgorithms root = some algs ∧
      ((algs.map integer = (request.publicKeyCredParams.map fun p => some p.alg.toInt) ∧
          (request.offersEs256 → some (-7) ∈ algs.map integer)) ↔
        ∀ z, some z ∈ algs.map integer → -2 ^ 64 + 2 ^ 31 ≤ z ∧ z < 2 ^ 64 - 2 ^ 31) := by
  obtain ⟨root, hRoot, hRequest⟩ := parsePayload_eq_some.mp hParsed
  obtain ⟨algs, hAlgs, hEach⟩ := isRequest_algs (makeCredential_parseRoot_eq.mp hRequest)
  refine ⟨root, algs, hRoot, hAlgs, Iff.trans (and_iff_left_of_imp ?_) (algs_recorded hEach)⟩
  intro hRecorded hOffers
  obtain ⟨p, hp, hSelected⟩ := List.any_eq_true.mp hOffers
  have hAlg : p.alg = -7 := by simpa using (Bool.and_eq_true_iff.mp hSelected).1
  rw [hRecorded]
  refine List.mem_map.mpr ⟨p, hp, ?_⟩
  rw [hAlg]
  rfl

theorem algorithms_not_aliased_es256 : ∃ algs,
    listedAlgorithms (.map (plainRequest (.negative 6))) = some algs ∧
      some (-7) ∈ algs.map integer := by
  have hOffers : (CTAPMakeCredentialRequest.parseRequest Cbor.next
      (Cbor.map (plainRequest (.negative 6))).encode).any (·.offersEs256) = true := by
    decide +kernel
  obtain ⟨request, hParsed, hSelected⟩ := (Option.any_eq_true _ _).mp hOffers
  obtain ⟨root, algs, hRoot, hAlgs, hExact⟩ := algorithms_not_aliased hParsed
  cases next_plainRequest.symm.trans hRoot
  refine ⟨algs, hAlgs, (hExact.mpr fun z hz => ?_).2 hSelected⟩
  cases hAlgs
  cases List.mem_singleton.mp hz
  decide

/-- A request whose only algorithm is 2^64 - 7 is served as one for ES256. -/
theorem algorithm_aliased : (CTAPMakeCredentialRequest.parseRequest Cbor.next
      (Cbor.map (plainRequest (.uint 18446744073709551609))).encode).any (·.offersEs256) = true ∧
    ((Cbor.next (Cbor.map (plainRequest (.uint 18446744073709551609))).encode).bind
      (listedAlgorithms ·.1)).map (·.map integer) = some [some (2 ^ 64 - 7)] := by
  constructor
  · decide +kernel
  · decide +kernel

end VAuth.Ctap
