import VAuth.Exception

/-!
# Hexadecimal keys

`hex_encode` and `hex_decode` of `encoding/hex.cpp`, on the bytes of the strings they
work with. The store files every credential under the hexadecimal form of its id, so
`hexEncode_injective` is what makes two ids two entries.
-/

namespace VAuth.Store

/-- One digit of `sprintf("%02X")`. -/
def hexDigit (n : UInt8) : UInt8 := if n < 10 then 48 + n else 55 + n

def decodeHexDigit (digit : UInt8) : Except Exn UInt8 :=
  if 48 ≤ digit ∧ digit ≤ 57 then .ok (digit - 48)
  else if 97 ≤ digit ∧ digit ≤ 102 then .ok (digit - 97 + 10)
  else if 65 ≤ digit ∧ digit ≤ 70 then .ok (digit - 65 + 10)
  else .error (.invalidArgument "Invalid hexadecimal character")

def hexEncode (v : Bytes) : Bytes :=
  v.flatMap fun (c : UInt8) => [hexDigit (c >>> 4), hexDigit (c &&& 15)]

/-- The loop of `hex_decode` over pairs of digits. -/
def decodeHexPairs : Bytes → Except Exn Bytes
  | high :: low :: rest => do
      let high ← decodeHexDigit high
      let low ← decodeHexDigit low
      let bytes ← decodeHexPairs rest
      return ((high <<< 4) ||| low) :: bytes
  | _ => .ok []

def hexDecode (s : Bytes) : Except Exn Bytes :=
  if s.length % 2 = 1 then .error (.invalidArgument "Odd size string is given")
  else decodeHexPairs s

theorem decodeHexDigit_hexDigit {n : UInt8} (h : n < 16) : decodeHexDigit (hexDigit n) = .ok n := by
  have key : ∀ m : Fin 16,
      decodeHexDigit (hexDigit (UInt8.ofNat m.val)) = .ok (UInt8.ofNat m.val) := by decide
  have hn : n.toNat < 16 := by simpa [UInt8.lt_iff_toNat_lt] using h
  simpa using key ⟨n.toNat, hn⟩

theorem shiftRight_four_lt (c : UInt8) : c >>> 4 < 16 := by
  have key : ∀ b : BitVec 8, UInt8.ofBitVec b >>> 4 < 16 := by decide
  simpa using key c.toBitVec

theorem and_fifteen_lt (c : UInt8) : c &&& 15 < 16 := by
  have key : ∀ b : BitVec 8, UInt8.ofBitVec b &&& 15 < 16 := by decide
  simpa using key c.toBitVec

theorem join_nibbles (c : UInt8) : ((c >>> 4) <<< 4) ||| (c &&& 15) = c := by
  have key : ∀ b : BitVec 8, ((UInt8.ofBitVec b >>> 4) <<< 4) ||| (UInt8.ofBitVec b &&& 15) =
      UInt8.ofBitVec b := by decide
  simpa using key c.toBitVec

theorem length_hexEncode (v : Bytes) : (hexEncode v).length = 2 * v.length := by
  induction v with
  | nil => rfl
  | cons c v ih =>
    simp only [hexEncode, List.flatMap_cons, List.length_append, List.length_cons] at ih ⊢
    simp only [List.length_nil]
    omega

theorem decodeHexPairs_hexEncode (v : Bytes) : decodeHexPairs (hexEncode v) = .ok v := by
  induction v with
  | nil => rfl
  | cons c v ih =>
    have hStep : hexEncode (c :: v) =
        hexDigit (c >>> 4) :: hexDigit (c &&& 15) :: hexEncode v := rfl
    rw [hStep, decodeHexPairs, decodeHexDigit_hexDigit (shiftRight_four_lt c),
      decodeHexDigit_hexDigit (and_fifteen_lt c), ih]
    simp [bind, Except.bind, pure, Except.pure, join_nibbles]

/-- Decoding undoes encoding. -/
theorem hexDecode_hexEncode (v : Bytes) : hexDecode (hexEncode v) = .ok v := by
  have hEven : ¬ (hexEncode v).length % 2 = 1 := by
    rw [length_hexEncode]
    omega
  rw [hexDecode, if_neg hEven, decodeHexPairs_hexEncode]

theorem hexEncode_injective : Function.Injective hexEncode := by
  intro v w h
  have hv := hexDecode_hexEncode v
  rw [h, hexDecode_hexEncode w] at hv
  exact (Except.ok.inj hv).symm

/-! ## What is decoded -/

def isHexDigit (digit : UInt8) : Bool :=
  (48 ≤ digit && digit ≤ 57) || (97 ≤ digit && digit ≤ 102) || (65 ≤ digit && digit ≤ 70)

/-- `toupper` of a byte in the C locale. -/
def upper (digit : UInt8) : UInt8 := if 97 ≤ digit ∧ digit ≤ 122 then digit - 32 else digit

/-- A digit that is decoded is encoded again in upper case. -/
def readsBack (digit : UInt8) : Bool :=
  match decodeHexDigit digit with
  | .ok n => isHexDigit digit && n < 16 && hexDigit n == upper digit
  | .error e => !isHexDigit digit && e == .invalidArgument "Invalid hexadecimal character"

theorem readsBack_all (digit : UInt8) : readsBack digit = true := by
  have key : ∀ b : BitVec 8, readsBack (UInt8.ofBitVec b) = true := by decide +kernel
  simpa using key digit.toBitVec

theorem decodeHexDigit_upper (digit : UInt8) :
    decodeHexDigit (upper digit) = decodeHexDigit digit := by
  have key : ∀ b : BitVec 8, decodeHexDigit (upper (UInt8.ofBitVec b)) =
      decodeHexDigit (UInt8.ofBitVec b) := by decide +kernel
  simpa using key digit.toBitVec

theorem decodeHexDigit_ok {digit n : UInt8} (h : decodeHexDigit digit = .ok n) :
    isHexDigit digit = true ∧ n < 16 ∧ hexDigit n = upper digit := by
  have hRead := readsBack_all digit
  unfold readsBack at hRead
  rw [h] at hRead
  simpa [and_assoc] using hRead

theorem decodeHexDigit_of_isHexDigit {digit : UInt8} (h : isHexDigit digit = true) :
    ∃ n, decodeHexDigit digit = .ok n := by
  have hRead := readsBack_all digit
  unfold readsBack at hRead
  cases hDigit : decodeHexDigit digit with
  | ok n => exact ⟨n, rfl⟩
  | error e => simp [hDigit, h] at hRead

theorem split_nibbles {high low : UInt8} (hHigh : high < 16) (hLow : low < 16) :
    ((high <<< 4) ||| low) >>> 4 = high ∧ ((high <<< 4) ||| low) &&& 15 = low := by
  have key : ∀ h l : Fin 16,
      ((UInt8.ofNat h.val <<< 4) ||| UInt8.ofNat l.val) >>> 4 = UInt8.ofNat h.val ∧
      ((UInt8.ofNat h.val <<< 4) ||| UInt8.ofNat l.val) &&& 15 = UInt8.ofNat l.val := by decide
  have hh : high.toNat < 16 := by simpa [UInt8.lt_iff_toNat_lt] using hHigh
  have hl : low.toNat < 16 := by simpa [UInt8.lt_iff_toNat_lt] using hLow
  simpa using key ⟨high.toNat, hh⟩ ⟨low.toNat, hl⟩

theorem decodeHexPairs_upper (s : Bytes) : decodeHexPairs (s.map upper) = decodeHexPairs s := by
  induction s using decodeHexPairs.induct with
  | case1 high low rest ih =>
    rw [List.map_cons, List.map_cons, decodeHexPairs, decodeHexPairs, decodeHexDigit_upper,
      decodeHexDigit_upper, ih]
  | case2 s hShort =>
    match s with
    | [] => rfl
    | [_] => rfl
    | high :: low :: rest => exact absurd rfl (hShort high low rest)

/-- The letter case of the digits does not matter. -/
theorem hexDecode_upper (s : Bytes) : hexDecode (s.map upper) = hexDecode s := by
  rw [hexDecode, hexDecode, List.length_map, decodeHexPairs_upper]

theorem decodeHexPairs_ok {s v : Bytes} (hEven : s.length % 2 = 0) (h : decodeHexPairs s = .ok v) :
    (∀ digit ∈ s, isHexDigit digit = true) ∧ hexEncode v = s.map upper := by
  induction s using decodeHexPairs.induct generalizing v with
  | case1 high low rest ih =>
    rw [decodeHexPairs] at h
    obtain ⟨n, hHigh, h⟩ := bind_eq_ok.mp h
    obtain ⟨m, hLow, h⟩ := bind_eq_ok.mp h
    obtain ⟨bytes, hRest, h⟩ := bind_eq_ok.mp h
    cases h
    obtain ⟨hDigit, hn, hUpper⟩ := decodeHexDigit_ok hHigh
    obtain ⟨hDigit', hm, hUpper'⟩ := decodeHexDigit_ok hLow
    have hRestEven : rest.length % 2 = 0 := by
      simp only [List.length_cons] at hEven
      omega
    obtain ⟨hAll, hBytes⟩ := ih hRestEven hRest
    obtain ⟨hFirst, hSecond⟩ := split_nibbles hn hm
    constructor
    · exact List.forall_mem_cons.mpr ⟨hDigit, List.forall_mem_cons.mpr ⟨hDigit', hAll⟩⟩
    · have hStep : hexEncode ((n <<< 4 ||| m) :: bytes) = hexDigit ((n <<< 4 ||| m) >>> 4) ::
          hexDigit ((n <<< 4 ||| m) &&& 15) :: hexEncode bytes := rfl
      rw [hStep, hFirst, hSecond, hUpper, hUpper', hBytes]
      rfl
  | case2 s hShort =>
    match s with
    | [] =>
      cases h
      exact ⟨fun _ hMem => absurd hMem List.not_mem_nil, rfl⟩
    | [_] => exact absurd hEven (by simp)
    | high :: low :: rest => exact absurd rfl (hShort high low rest)

theorem decodeHexPairs_of_isHexDigit {s : Bytes} (h : ∀ digit ∈ s, isHexDigit digit = true) :
    ∃ v, decodeHexPairs s = .ok v := by
  induction s using decodeHexPairs.induct with
  | case1 high low rest ih =>
    obtain ⟨n, hHigh⟩ := decodeHexDigit_of_isHexDigit (h high (by simp))
    obtain ⟨m, hLow⟩ := decodeHexDigit_of_isHexDigit (h low (by simp))
    obtain ⟨bytes, hRest⟩ := ih fun digit hMem => h digit (by simp [hMem])
    refine ⟨(n <<< 4 ||| m) :: bytes, ?_⟩
    rw [decodeHexPairs, hHigh, hLow, hRest]
    rfl
  | case2 s hShort =>
    rw [decodeHexPairs]
    · exact ⟨[], rfl⟩
    · exact hShort

theorem hexDecode_ok {s v : Bytes} (h : hexDecode s = .ok v) : s.length % 2 = 0 ∧
    (∀ digit ∈ s, isHexDigit digit = true) ∧ hexEncode v = s.map upper := by
  unfold hexDecode at h
  split at h
  · cases h
  · have hEven : s.length % 2 = 0 := by omega
    exact ⟨hEven, decodeHexPairs_ok hEven h⟩

theorem hexDecode_isOk_iff (s : Bytes) : (∃ v, hexDecode s = .ok v) ↔
    s.length % 2 = 0 ∧ ∀ digit ∈ s, isHexDigit digit = true := by
  constructor
  · rintro ⟨v, h⟩
    obtain ⟨hEven, hDigits, _⟩ := hexDecode_ok h
    exact ⟨hEven, hDigits⟩
  · rintro ⟨hEven, hDigits⟩
    rw [hexDecode, if_neg (by omega)]
    exact decodeHexPairs_of_isHexDigit hDigits

end VAuth.Store
