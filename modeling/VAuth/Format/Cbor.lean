import Mathlib.Algebra.Order.Ring.Int
import Mathlib.Data.List.Basic

/-!
# CBOR

Data items and their bytes (RFC 7049). A container holds the elements that a cursor visits in
it, one after another: the keys and values of a map alternate, and a tag is an element of its own
in front of the element it belongs to, which it does not count as. Items are written with the
shortest head for every number and read in every well-formed spelling, of definite or indefinite
length. `next_encode` recovers every well-formed item from its bytes.
-/

/-- A data item. -/
inductive Cbor where
  | uint (n : UInt64)
  /-- The integer `-1 - n`. -/
  | negative (n : UInt64)
  | bytes (contents : List UInt8)
  | text (contents : List UInt8)
  | array (elements : List Cbor)
  | map (elements : List Cbor)
  | tag (n : UInt64)
  /-- Major type 7: simple values and floating point numbers. -/
  | special (info : Nat) (argument : Nat)

namespace Cbor

protected def bool : Bool → Cbor
  | false => special 20 20
  | true => special 21 21

/-! ## Numbers -/

/-- The `k` low bytes of `n`, most significant first. -/
def bigEndian : Nat → Nat → List UInt8
  | 0, _ => []
  | k + 1, n => bigEndian k (n / 256) ++ [UInt8.ofNat n]

def ofBigEndian (bytes : List UInt8) : Nat := bytes.foldl (fun n b => 256 * n + b.toNat) 0

theorem length_bigEndian (k n : Nat) : (bigEndian k n).length = k := by
  induction k generalizing n with
  | zero => rfl
  | succ k ih => simp [bigEndian, ih]

theorem ofBigEndian_append (xs : List UInt8) (b : UInt8) :
    ofBigEndian (xs ++ [b]) = 256 * ofBigEndian xs + b.toNat := by
  simp [ofBigEndian, List.foldl_append]

theorem ofBigEndian_bigEndian {k n : Nat} (h : n < 256 ^ k) : ofBigEndian (bigEndian k n) = n := by
  induction k generalizing n with
  | zero =>
    have : n = 0 := by simpa using h
    subst this
    rfl
  | succ k ih =>
    have hQuotient : n / 256 < 256 ^ k := by
      rw [Nat.pow_succ] at h
      omega
    rw [bigEndian, ofBigEndian_append, ih hQuotient, UInt8.toNat_ofNat']
    omega

/-! ## Heads -/

/-- The bytes that hold the argument of a head, by its additional information. -/
def argumentWidth (info : Nat) : Nat :=
  if info = 24 then 1 else if info = 25 then 2 else if info = 26 then 4
  else if info = 27 then 8 else 0

/-- A head with the given additional information. -/
def head (major info argument : Nat) : List UInt8 :=
  UInt8.ofNat (32 * major + info) :: bigEndian (argumentWidth info) argument

/-- The additional information of the shortest head. -/
def shortestInfo (n : Nat) : Nat :=
  if n < 24 then n else if n < 256 then 24 else if n < 65536 then 25
  else if n < 4294967296 then 26 else 27

def encodeHead (major n : Nat) : List UInt8 := head major (shortestInfo n) n

/-- The major type, the additional information and the argument of a head, and what
follows. The head of an item of indefinite length has no argument. -/
def decodeHead : List UInt8 → Option (Nat × Nat × Option Nat × List UInt8)
  | [] => none
  | initial :: rest =>
    let info := initial.toNat % 32
    let width := argumentWidth info
    if info = 31 then some (initial.toNat / 32, info, none, rest)
    else if info ≥ 28 ∨ rest.length < width then none
    else some (initial.toNat / 32, info,
      some (if info < 24 then info else ofBigEndian (rest.take width)), rest.drop width)

theorem decodeHead_head {major info argument : Nat} (rest : List UInt8) (hMajor : major < 8)
    (hInfo : info < 28) (hSmall : info < 24 → argument = info)
    (hArgument : 24 ≤ info → argument < 256 ^ argumentWidth info) :
    decodeHead (head major info argument ++ rest) = some (major, info, some argument, rest) := by
  have hInitial : (UInt8.ofNat (32 * major + info)).toNat = 32 * major + info := by
    rw [UInt8.toNat_ofNat']
    omega
  have hMod : (32 * major + info) % 32 = info := by omega
  have hDiv : (32 * major + info) / 32 = major := by omega
  have hLength := length_bigEndian (argumentWidth info) argument
  simp only [head, List.cons_append, decodeHead, hInitial, hMod, hDiv]
  rw [if_neg (by omega), if_neg (by simp only [List.length_append, hLength]; omega),
    List.take_left' hLength, List.drop_left' hLength]
  by_cases h : info < 24
  · rw [if_pos h, hSmall h]
  · rw [if_neg h, ofBigEndian_bigEndian (hArgument (by omega))]

theorem shortestInfo_cases {n : Nat} (hn : n < 2 ^ 64) : (n < 24 ∧ shortestInfo n = n) ∨
      (24 ≤ shortestInfo n ∧ shortestInfo n < 28 ∧ n < 256 ^ argumentWidth (shortestInfo n)) := by
  unfold shortestInfo
  by_cases h₀ : n < 24
  · exact .inl ⟨h₀, if_pos h₀⟩
  · right
    rw [if_neg h₀]
    by_cases h₁ : n < 256
    · rw [if_pos h₁]
      exact ⟨by decide, by decide, h₁⟩
    · rw [if_neg h₁]
      by_cases h₂ : n < 65536
      · rw [if_pos h₂]
        exact ⟨by decide, by decide, h₂⟩
      · rw [if_neg h₂]
        by_cases h₃ : n < 4294967296
        · rw [if_pos h₃]
          exact ⟨by decide, by decide, h₃⟩
        · rw [if_neg h₃]
          exact ⟨by decide, by decide, hn⟩

theorem decodeHead_encodeHead {major n : Nat} (rest : List UInt8) (hMajor : major < 8)
    (hn : n < 2 ^ 64) :
    decodeHead (encodeHead major n ++ rest) = some (major, shortestInfo n, some n, rest) := by
  rcases shortestInfo_cases hn with ⟨hSmall, hInfo⟩ | ⟨hLow, hHigh, hFits⟩
  · refine decodeHead_head rest hMajor ?_ ?_ ?_ <;> omega
  · refine decodeHead_head rest hMajor hHigh ?_ fun _ => hFits
    omega

theorem length_encodeHead_pos (major n : Nat) : 0 < (encodeHead major n).length := by
  simp [encodeHead, head]

/-! ## Items -/

def isTag : Cbor → Bool
  | tag _ => true
  | _ => false

/-- The number of elements that count towards the length of a container. -/
def counted : List Cbor → Nat
  | [] => 0
  | element :: rest => (if element.isTag then 0 else 1) + counted rest

theorem counted_cons {e : Cbor} (es : List Cbor) (h : e.isTag = false) :
    counted (e :: es) = counted es + 1 := by
  rw [counted, h]
  exact Nat.add_comm 1 _

theorem counted_tag (n : UInt64) (es : List Cbor) : counted (tag n :: es) = counted es :=
  Nat.zero_add _

mutual

def encode : Cbor → List UInt8
  | uint n => encodeHead 0 n.toNat
  | negative n => encodeHead 1 n.toNat
  | bytes contents => encodeHead 2 contents.length ++ contents
  | text contents => encodeHead 3 contents.length ++ contents
  | array elements => encodeHead 4 (counted elements) ++ encodeAll elements
  | map elements => encodeHead 5 (counted elements / 2) ++ encodeAll elements
  | tag n => encodeHead 6 n.toNat
  | special info argument => head 7 info argument

def encodeAll : List Cbor → List UInt8
  | [] => []
  | element :: rest => encode element ++ encodeAll rest

end

/-- The byte that ends an item of indefinite length comes next. -/
def breaks (input : List UInt8) : Bool := input.head? == some 0xFF

/-- The contents of a string: `length` bytes, or the chunks up to the break, which are strings of
the same type and of definite length. -/
def decodeString : Nat → Nat → Option Nat → List UInt8 → Option (List UInt8 × List UInt8)
  | _, _, some length, input =>
    if input.length < length then none else some (input.take length, input.drop length)
  | 0, _, none, _ => none
  | fuel + 1, major, none, input =>
    if breaks input then some ([], input.tail) else do
      let (chunkMajor, _, argument, rest) ← decodeHead input
      let length ← argument
      if chunkMajor ≠ major ∨ rest.length < length then none
      let (contents, after) ← decodeString fuel major none (rest.drop length)
      return (rest.take length ++ contents, after)

/-- The next `count` elements, or those up to the break, with the tags in front of them. -/
def decodeAll : Nat → Option Nat → List UInt8 → Option (List Cbor × List UInt8)
  | _, some 0, input => some ([], input)
  | 0, _, _ => none
  | fuel + 1, none, input =>
    if breaks input then some ([], input.tail) else do
      let (first, rest) ← decodeAll fuel (some 1) input
      let (more, rest) ← decodeAll fuel none rest
      return (first ++ more, rest)
  | fuel + 1, some (count + 1), input => do
      let (major, info, argument, rest) ← decodeHead input
      match major, argument with
      | 0, some n => followed (uint (.ofNat n)) (← decodeAll fuel (some count) rest)
      | 1, some n => followed (negative (.ofNat n)) (← decodeAll fuel (some count) rest)
      | 2, length =>
        let (contents, rest) ← decodeString fuel 2 length rest
        followed (bytes contents) (← decodeAll fuel (some count) rest)
      | 3, length =>
        let (contents, rest) ← decodeString fuel 3 length rest
        followed (text contents) (← decodeAll fuel (some count) rest)
      | 4, length =>
        let (elements, rest) ← decodeAll fuel length rest
        followed (array elements) (← decodeAll fuel (some count) rest)
      | 5, length =>
        let (elements, rest) ← decodeAll fuel (length.map (2 * ·)) rest
        if counted elements % 2 = 1 then none
        followed (map elements) (← decodeAll fuel (some count) rest)
      | 6, some n => followed (tag (.ofNat n)) (← decodeAll fuel (some (count + 1)) rest)
      | 7, some n =>
        if info = 24 ∧ n < 32 then none
        followed (special info n) (← decodeAll fuel (some count) rest)
      | _, _ => none
where
  followed (element : Cbor) (tail : List Cbor × List UInt8) : Option (List Cbor × List UInt8) :=
    some (element :: tail.1, tail.2)

/-- The item at the front of the bytes, if it has no tag, and what follows it. Every element
takes at least one byte, so the length of the input bounds the recursion. -/
def next (input : List UInt8) : Option (Cbor × List UInt8) :=
  match decodeAll (2 * input.length + 1) (some 1) input with
  | some ([item], rest) => some (item, rest)
  | _ => none

/-- The one item that the bytes hold, with nothing after it. -/
def decode (input : List UInt8) : Option Cbor :=
  match next input with
  | some (item, []) => some item
  | _ => none

/-! ## Round trip -/

mutual

/-- Lengths fit a head, a map has as many keys as values, and no tag is left without its
element. -/
def WellFormed : Cbor → Prop
  | bytes contents => contents.length < 2 ^ 64
  | text contents => contents.length < 2 ^ 64
  | array elements => counted elements < 2 ^ 64 ∧ AllWellFormed elements
  | map elements => counted elements < 2 ^ 64 ∧ counted elements % 2 = 0 ∧ AllWellFormed elements
  | special info argument => info < 28 ∧ (info < 24 → argument = info) ∧
      (24 ≤ info → argument < 256 ^ argumentWidth info) ∧ (info = 24 → 32 ≤ argument)
  | _ => True

def AllWellFormed : List Cbor → Prop
  | [] => True
  | element :: rest => WellFormed element ∧ (element.isTag = true → rest ≠ []) ∧ AllWellFormed rest

end

theorem counted_pos {es : List Cbor} (h : AllWellFormed es) (hne : es ≠ []) : 0 < counted es := by
  induction es with
  | nil => exact absurd rfl hne
  | cons e es ih =>
    obtain ⟨_, hTag, hRest⟩ := h
    cases hKind : e.isTag with
    | true =>
      have := ih hRest (hTag hKind)
      rw [counted]
      omega
    | false =>
      rw [counted_cons es hKind]
      exact Nat.succ_pos _

theorem length_encode_pos (e : Cbor) : 0 < e.encode.length := by
  cases e <;> simp [encode, encodeHead, head]

theorem decodeString_append (fuel major : Nat) (contents rest : List UInt8) :
    decodeString fuel major (some contents.length) (contents ++ rest) = some (contents, rest) := by
  simp [decodeString]

/-- Elements are read back from their bytes, with anything after them. -/
theorem decodeAll_encodeAll {fuel : Nat} {es : List Cbor} (rest : List UInt8)
    (hWellFormed : AllWellFormed es) (hFuel : (encodeAll es).length < fuel) :
    decodeAll fuel (some (counted es)) (encodeAll es ++ rest) = some (es, rest) := by
  induction fuel generalizing es rest with
  | zero => exact absurd hFuel (Nat.not_lt_zero _)
  | succ fuel ih =>
    cases es with
    | nil => rfl
    | cons e es =>
      obtain ⟨hElement, hTag, hRest⟩ := hWellFormed
      have hPos := length_encode_pos e
      simp only [encodeAll, List.length_append] at hFuel
      have hTail : decodeAll fuel (some (counted es)) (encodeAll es ++ rest) = some (es, rest) :=
        ih rest hRest (by omega)
      simp only [encodeAll, List.append_assoc]
      cases e with
      | uint n =>
        rw [counted_cons es rfl]
        simp only [decodeAll, encode, decodeHead_encodeHead _ (by decide : 0 < 8) n.toNat_lt,
          Option.bind_eq_bind, Option.bind_some, hTail, decodeAll.followed, UInt64.ofNat_toNat]
      | negative n =>
        rw [counted_cons es rfl]
        simp only [decodeAll, encode, decodeHead_encodeHead _ (by decide : 1 < 8) n.toNat_lt,
          Option.bind_eq_bind, Option.bind_some, hTail, decodeAll.followed, UInt64.ofNat_toNat]
      | bytes contents =>
        rw [counted_cons es rfl]
        simp only [decodeAll, encode, List.append_assoc,
          decodeHead_encodeHead _ (by decide : 2 < 8) hElement, Option.bind_eq_bind,
          Option.bind_some, decodeString_append, hTail, decodeAll.followed]
      | text contents =>
        rw [counted_cons es rfl]
        simp only [decodeAll, encode, List.append_assoc,
          decodeHead_encodeHead _ (by decide : 3 < 8) hElement, Option.bind_eq_bind,
          Option.bind_some, decodeString_append, hTail, decodeAll.followed]
      | array elements =>
        have hHead := length_encodeHead_pos 4 (counted elements)
        rw [counted_cons es rfl]
        simp only [encode, List.length_append] at hFuel
        have hInner := ih (encodeAll es ++ rest) hElement.2 (by omega)
        simp only [decodeAll, encode, List.append_assoc,
          decodeHead_encodeHead _ (by decide : 4 < 8) hElement.1, Option.bind_eq_bind,
          Option.bind_some, hInner, hTail, decodeAll.followed]
      | map elements =>
        obtain ⟨hLength, hEven, hElements⟩ := hElement
        have hHead := length_encodeHead_pos 5 (counted elements / 2)
        have hDouble : 2 * (counted elements / 2) = counted elements := by omega
        have hHalf : counted elements / 2 < 2 ^ 64 := by omega
        rw [counted_cons es rfl]
        simp only [encode, List.length_append] at hFuel
        have hInner := ih (encodeAll es ++ rest) hElements (by omega)
        simp only [decodeAll, encode, List.append_assoc,
          decodeHead_encodeHead _ (by decide : 5 < 8) hHalf, Option.bind_eq_bind,
          Option.bind_some, Option.map_some, hDouble, hInner, hTail, decodeAll.followed]
        rw [if_neg (by omega)]
      | tag n =>
        obtain ⟨k, hk⟩ : ∃ k, counted es = k + 1 :=
          Nat.exists_eq_add_of_lt (counted_pos hRest (hTag rfl)) |>.imp fun _ h => by omega
        rw [hk] at hTail
        rw [counted_tag, hk]
        simp only [decodeAll, encode, decodeHead_encodeHead _ (by decide : 6 < 8) n.toNat_lt,
          Option.bind_eq_bind, Option.bind_some, hTail, decodeAll.followed, UInt64.ofNat_toNat]
      | special info argument =>
        obtain ⟨hInfo, hSmall, hArgument, hSimple⟩ := hElement
        rw [counted_cons es rfl]
        simp only [decodeAll, encode, decodeHead_head _ (by decide : 7 < 8) hInfo hSmall hArgument,
          Option.bind_eq_bind, Option.bind_some, hTail, decodeAll.followed]
        rw [if_neg (by omega)]

/-- **Round trip.** A well-formed item that is no bare tag is read back from its bytes. -/
theorem next_encode {e : Cbor} (h : e.WellFormed) (hTag : e.isTag = false) (rest : List UInt8) :
    next (e.encode ++ rest) = some (e, rest) := by
  have hAll : AllWellFormed [e] := ⟨h, fun hKind => absurd hKind (by simp [hTag]), trivial⟩
  have hFuel : (encodeAll [e]).length < 2 * (e.encode ++ rest).length + 1 := by
    simp only [encodeAll, List.append_nil, List.length_append]
    omega
  have hRead := decodeAll_encodeAll rest hAll hFuel
  rw [counted_cons [] hTag] at hRead
  simp only [encodeAll, List.append_nil, counted] at hRead
  rw [next, hRead]

theorem decode_encode {e : Cbor} (h : e.WellFormed) (hTag : e.isTag = false) :
    decode e.encode = some e := by
  have hNext := next_encode h hTag []
  rw [List.append_nil] at hNext
  rw [decode, hNext]

example : next [0xBF, 0x01, 0x7F, 0x61, 0x62, 0xFF, 0xFF, 0x00] =
    some (map [uint 1, text [0x62]], [0x00]) := rfl

end Cbor
