import VAuth.Verifier.Protocol

/-!
# Text for display

`validate_display_text` decodes UTF-8 by hand, one range test for each class of first bytes. It
accepts the encodings of sequences of characters without controls and nothing else: the loop is
compared with `String.utf8EncodeChar`, one character for each round.
-/

namespace VAuth.Verifier

open String (utf8EncodeChar)

/-! ## The bytes of a character -/

/-- A continuation byte. -/
def Continues (b : UInt8) : Prop := 128 ≤ b.toNat ∧ b.toNat ≤ 191

instance (b : UInt8) : Decidable (Continues b) := inferInstanceAs (Decidable (_ ∧ _))

/-- The second and third byte of a character of three bytes that starts with `a`. -/
def Completes3 (a b d : UInt8) : Prop :=
  Continues b ∧ Continues d ∧ (a.toNat = 224 → 160 ≤ b.toNat) ∧ (a.toNat = 237 → b.toNat ≤ 159)

/-- The other bytes of a character of four bytes that starts with `a`. -/
def Completes4 (a b d e : UInt8) : Prop :=
  Continues b ∧ Continues d ∧ Continues e ∧ (a.toNat = 240 → 144 ≤ b.toNat) ∧
    (a.toNat = 244 → b.toNat ≤ 143)

/-- A character is no surrogate. -/
theorem toNat_valid (c : Char) : c.toNat < 55296 ∨ 57343 < c.toNat ∧ c.toNat < 1114112 := c.valid

/-- The encoding by the value of the character. -/
theorem encode_cases (c : Char) :
    (c.toNat ≤ 127 ∧ ∃ a, utf8EncodeChar c = [a] ∧ a.toNat = c.toNat) ∨
    (127 < c.toNat ∧ c.toNat ≤ 2047 ∧ ∃ a b, utf8EncodeChar c = [a, b] ∧
      a.toNat = c.toNat / 64 + 192 ∧ b.toNat = c.toNat % 64 + 128) ∨
    (2047 < c.toNat ∧ c.toNat ≤ 65535 ∧ ∃ a b d, utf8EncodeChar c = [a, b, d] ∧
      a.toNat = c.toNat / 4096 + 224 ∧ b.toNat = c.toNat / 64 % 64 + 128 ∧
      d.toNat = c.toNat % 64 + 128) ∨
    (65535 < c.toNat ∧ ∃ a b d e, utf8EncodeChar c = [a, b, d, e] ∧
      a.toNat = c.toNat / 262144 + 240 ∧ b.toNat = c.toNat / 4096 % 64 + 128 ∧
      d.toNat = c.toNat / 64 % 64 + 128 ∧ e.toNat = c.toNat % 64 + 128) := by
  have hValid := toNat_valid c
  have hVal : c.val.toNat = c.toNat := rfl
  unfold utf8EncodeChar
  simp only [hVal]
  generalize c.toNat = v at hValid
  by_cases h1 : v ≤ 127
  · refine .inl ⟨h1, _, if_pos h1, ?_⟩
    rw [UInt8.toNat_ofNat']
    omega
  · by_cases h2 : v ≤ 2047
    · refine .inr (.inl ⟨by omega, h2, _, _, (if_neg h1).trans (if_pos h2), ?_, ?_⟩) <;>
        rw [UInt8.toNat_ofNat'] <;> omega
    · by_cases h3 : v ≤ 65535
      · refine .inr (.inr (.inl ⟨by omega, h3, _, _, _,
          (if_neg h1).trans ((if_neg h2).trans (if_pos h3)), ?_, ?_, ?_⟩)) <;>
          rw [UInt8.toNat_ofNat'] <;> omega
      · refine .inr (.inr (.inr ⟨by omega, _, _, _, _,
          (if_neg h1).trans ((if_neg h2).trans (if_neg h3)), ?_, ?_, ?_, ?_⟩)) <;>
          rw [UInt8.toNat_ofNat'] <;> omega

theorem exists_char {v : Nat} (h : v < 55296 ∨ 57343 < v ∧ v < 1114112) : ∃ c : Char, c.toNat = v :=
  ⟨Char.ofNatAux v h, rfl⟩

variable {a b : UInt8}

theorem exists_encode_one (ha : a.toNat ≤ 127) :
    ∃ c : Char, utf8EncodeChar c = [a] ∧ c.toNat = a.toNat := by
  obtain ⟨c, hc⟩ := exists_char (.inl (by omega : a.toNat < 55296))
  rcases encode_cases c with ⟨-, a', hEncode, ha'⟩ | h | h | h
  · obtain rfl : a' = a := UInt8.toNat_inj.mp (by omega)
    exact ⟨c, hEncode, hc⟩
  all_goals omega

theorem exists_encode_two (ha : 194 ≤ a.toNat ∧ a.toNat ≤ 223) (hb : Continues b) :
    ∃ c : Char, utf8EncodeChar c = [a, b] ∧ c.toNat = (a.toNat - 192) * 64 + (b.toNat - 128) := by
  unfold Continues at hb
  obtain ⟨c, hc⟩ := exists_char (v := (a.toNat - 192) * 64 + (b.toNat - 128)) (.inl (by omega))
  rcases encode_cases c with h | ⟨-, -, a', b', hEncode, ha', hb'⟩ | h | h
  · omega
  · obtain rfl : a' = a := UInt8.toNat_inj.mp (by omega)
    obtain rfl : b' = b := UInt8.toNat_inj.mp (by omega)
    exact ⟨c, hEncode, hc⟩
  all_goals omega

theorem exists_encode_three {d : UInt8} (ha : 224 ≤ a.toNat ∧ a.toNat ≤ 239)
    (h : Completes3 a b d) : ∃ c : Char, utf8EncodeChar c = [a, b, d] ∧ 2047 < c.toNat := by
  unfold Completes3 Continues at h
  obtain ⟨c, hc⟩ := exists_char
    (v := (a.toNat - 224) * 4096 + (b.toNat - 128) * 64 + (d.toNat - 128)) (by omega)
  rcases encode_cases c with h' | h' | ⟨hLow, -, a', b', d', hEncode, ha', hb', hd'⟩ | h'
  · omega
  · omega
  · obtain rfl : a' = a := UInt8.toNat_inj.mp (by omega)
    obtain rfl : b' = b := UInt8.toNat_inj.mp (by omega)
    obtain rfl : d' = d := UInt8.toNat_inj.mp (by omega)
    exact ⟨c, hEncode, hLow⟩
  · omega

theorem exists_encode_four {d e : UInt8} (ha : 240 ≤ a.toNat ∧ a.toNat ≤ 244)
    (h : Completes4 a b d e) : ∃ c : Char, utf8EncodeChar c = [a, b, d, e] ∧ 2047 < c.toNat := by
  unfold Completes4 Continues at h
  obtain ⟨c, hc⟩ := exists_char
    (v := (a.toNat - 240) * 262144 + (b.toNat - 128) * 4096 + (d.toNat - 128) * 64 +
      (e.toNat - 128)) (by omega)
  rcases encode_cases c with h' | h' | h' | ⟨hLow, a', b', d', e', hEncode, ha', hb', hd', he'⟩
  · omega
  · omega
  · omega
  · obtain rfl : a' = a := UInt8.toNat_inj.mp (by omega)
    obtain rfl : b' = b := UInt8.toNat_inj.mp (by omega)
    obtain rfl : d' = d := UInt8.toNat_inj.mp (by omega)
    obtain rfl : e' = e := UInt8.toNat_inj.mp (by omega)
    exact ⟨c, hEncode, by omega⟩

/-! ## One round of the loop -/

section
variable {text : Bytes} {field : String} {index : Nat} {a b d e : UInt8}

theorem isContinuationByte_iff : isContinuationByte b = true ↔ Continues b := by
  simp [isContinuationByte, Continues, UInt8.le_iff_toNat_le]

theorem byteAt_of_lt (h : index < text.length) : ∃ a, byteAt text index = .ok a := by
  refine ⟨text[index], ?_⟩
  rw [byteAt, List.getElem?_eq_getElem h]

theorem byteAt_ok (h : byteAt text index = .ok a) :
    index < text.length ∧ text.drop index = a :: text.drop (index + 1) := by
  unfold byteAt at h
  split at h
  · rename_i byte hByte
    cases h
    obtain ⟨hLt, rfl⟩ := List.getElem?_eq_some_iff.mp hByte
    exact ⟨hLt, List.drop_eq_getElem_cons hLt⟩
  · cases h

theorem byteAt_of_drop {rest : Bytes} (h : text.drop index = a :: rest) :
    byteAt text index = .ok a ∧ text.drop (index + 1) = rest := by
  have hFirst : text[index]? = some a := by
    rw [← List.head?_drop, h, List.head?_cons]
  refine ⟨?_, ?_⟩
  · rw [byteAt, hFirst]
  · rw [← List.tail_drop, h, List.tail_cons]

theorem nextCharacter_one (h0 : byteAt text index = .ok a) (ha : a.toNat ≤ 127) :
    nextCharacter text field index = if a.toNat < 32 ∨ a.toNat = 127 then
      .error (controlCharacter field) else .ok (index + 1) := by
  have hControl : (a < 0x20 ∨ a = 0x7f) ↔ (a.toNat < 32 ∨ a.toNat = 127) := by
    rw [UInt8.lt_iff_toNat_lt, ← UInt8.toNat_inj]
    rfl
  unfold nextCharacter
  simp only [h0, bind, Except.bind]
  rw [if_pos (UInt8.le_iff_toNat_le.mpr ha)]
  simp only [hControl]
  rfl

theorem nextCharacter_two (h0 : byteAt text index = .ok a) (h1 : byteAt text (index + 1) = .ok b)
    (ha : 194 ≤ a.toNat ∧ a.toNat ≤ 223) :
    nextCharacter text field index = if ¬ Continues b then .error (notUtf8 field)
      else if a.toNat = 194 ∧ b.toNat ≤ 159 then .error (controlCharacter field)
      else .ok (index + 2) := by
  have hControl : (a = 0xc2 ∧ b ≤ 0x9f) ↔ (a.toNat = 194 ∧ b.toNat ≤ 159) := by
    rw [UInt8.le_iff_toNat_le, ← UInt8.toNat_inj]
    rfl
  have hNotOne : ¬ a ≤ 0x7f := by
    simp only [UInt8.le_iff_toNat_le, UInt8.reduceToNat]
    omega
  have hTwo : 0xc2 ≤ a ∧ a ≤ 0xdf := by
    rw [UInt8.le_iff_toNat_le, UInt8.le_iff_toNat_le]
    exact ha
  have hLength := (byteAt_ok h1).1
  unfold nextCharacter
  simp only [h0, h1, bind, Except.bind]
  rw [if_neg hNotOne, if_pos hTwo, if_neg (by omega)]
  simp only [hControl, isContinuationByte_iff]
  rfl

theorem nextCharacter_three (h0 : byteAt text index = .ok a)
    (h1 : byteAt text (index + 1) = .ok b) (h2 : byteAt text (index + 2) = .ok d)
    (ha : 224 ≤ a.toNat ∧ a.toNat ≤ 239) :
    (Completes3 a b d → nextCharacter text field index = .ok (index + 3)) ∧
    (¬ Completes3 a b d → nextCharacter text field index = .error (notUtf8 field)) := by
  have hLength := (byteAt_ok h2).1
  unfold nextCharacter Completes3
  simp only [h0, h1, h2, bind, Except.bind, UInt8.le_iff_toNat_le, UInt8.reduceToNat,
    isContinuationByte_iff, ← UInt8.toNat_inj, Bool.or_eq_true, Bool.and_eq_true, beq_iff_eq,
    decide_eq_true_iff]
  rw [if_neg (by omega), if_neg (by omega), if_pos ha, if_neg (by omega)]
  unfold Continues
  refine ⟨fun hValid => ?_, fun hValid => ?_⟩
  · rw [if_neg (by omega)]
    rfl
  · rw [if_pos (by omega)]
    rfl

theorem nextCharacter_four (h0 : byteAt text index = .ok a)
    (h1 : byteAt text (index + 1) = .ok b) (h2 : byteAt text (index + 2) = .ok d)
    (h3 : byteAt text (index + 3) = .ok e) (ha : 240 ≤ a.toNat ∧ a.toNat ≤ 244) :
    (Completes4 a b d e → nextCharacter text field index = .ok (index + 4)) ∧
    (¬ Completes4 a b d e → nextCharacter text field index = .error (notUtf8 field)) := by
  have hLength := (byteAt_ok h3).1
  unfold nextCharacter Completes4
  simp only [h0, h1, h2, h3, bind, Except.bind, UInt8.le_iff_toNat_le, UInt8.reduceToNat,
    isContinuationByte_iff, ← UInt8.toNat_inj, Bool.or_eq_true, Bool.and_eq_true, beq_iff_eq,
    decide_eq_true_iff]
  rw [if_neg (by omega), if_neg (by omega), if_neg (by omega), if_pos ha, if_neg (by omega)]
  unfold Continues
  refine ⟨fun hValid => ?_, fun hValid => ?_⟩
  · rw [if_neg (by omega)]
    rfl
  · rw [if_pos (by omega)]
    rfl

/-- The number of bytes that a first byte announces; there is none for a byte that starts no
character. -/
def announced (a : UInt8) : Option Nat :=
  if a.toNat ≤ 127 then some 1
  else if 194 ≤ a.toNat ∧ a.toNat ≤ 223 then some 2
  else if 224 ≤ a.toNat ∧ a.toNat ≤ 239 then some 3
  else if 240 ≤ a.toNat ∧ a.toNat ≤ 244 then some 4
  else none

theorem announced_cases {n : Nat} (h : announced a = some n) :
    (n = 1 ∧ a.toNat ≤ 127) ∨ (n = 2 ∧ 194 ≤ a.toNat ∧ a.toNat ≤ 223) ∨
    (n = 3 ∧ 224 ≤ a.toNat ∧ a.toNat ≤ 239) ∨ (n = 4 ∧ 240 ≤ a.toNat ∧ a.toNat ≤ 244) := by
  unfold announced at h
  split at h
  · cases h
    omega
  split at h
  · cases h
    omega
  split at h
  · cases h
    omega
  split at h
  · cases h
    omega
  · cases h

theorem nextCharacter_short (h0 : byteAt text index = .ok a)
    (hShort : ∀ n, announced a = some n → text.length < index + n) :
    nextCharacter text field index = .error (notUtf8 field) := by
  have hLength := (byteAt_ok h0).1
  unfold announced at hShort
  unfold nextCharacter
  simp only [h0, bind, Except.bind, UInt8.le_iff_toNat_le, UInt8.reduceToNat]
  split at hShort
  · have := hShort 1 rfl
    omega
  rw [if_neg ‹_›]
  split at hShort
  · have := hShort 2 rfl
    rw [if_pos ‹_›, if_pos (by omega)]
    rfl
  rw [if_neg ‹_›]
  split at hShort
  · have := hShort 3 rfl
    rw [if_pos ‹_›, if_pos (by omega)]
    rfl
  rw [if_neg ‹_›]
  split at hShort
  · have := hShort 4 rfl
    rw [if_pos ‹_›, if_pos (by omega)]
    rfl
  rw [if_neg ‹_›]
  rfl
end

/-! ## The loop -/

/-- One of U+0000 to U+001F and U+007F to U+009F. -/
def Control (c : Char) : Prop := c.toNat ≤ 0x1f ∨ 0x7f ≤ c.toNat ∧ c.toNat ≤ 0x9f

/-- The encoding of characters none of which is a control. -/
def Printable (text : Bytes) : Prop :=
  ∃ chars : List Char, (∀ c ∈ chars, ¬ Control c) ∧ text = chars.flatMap utf8EncodeChar

section

variable {text : Bytes} {field : String} {index : Nat}

theorem nextCharacter_encoded {c : Char} {rest : Bytes} (hControl : ¬ Control c)
    (h : text.drop index = utf8EncodeChar c ++ rest) :
    nextCharacter text field index = .ok (index + (utf8EncodeChar c).length) := by
  unfold Control at hControl
  rcases encode_cases c with ⟨hc, a, hEncode, ha⟩ | ⟨hLow, hc, a, b, hEncode, ha, hb⟩ |
    ⟨hLow, hc, a, b, d, hEncode, ha, hb, hd⟩ | ⟨hLow, a, b, d, e, hEncode, ha, hb, hd, he⟩
  · rw [hEncode] at h ⊢
    obtain ⟨h0, -⟩ := byteAt_of_drop h
    rw [nextCharacter_one h0 (by omega), if_neg (by omega)]
    rfl
  · rw [hEncode] at h ⊢
    obtain ⟨h0, h⟩ := byteAt_of_drop h
    obtain ⟨h1, -⟩ := byteAt_of_drop h
    have hb' : Continues b := ⟨by omega, by omega⟩
    rw [nextCharacter_two h0 h1 (by omega), if_neg (not_not.mpr hb'), if_neg (by omega)]
    rfl
  · rw [hEncode] at h ⊢
    obtain ⟨h0, h⟩ := byteAt_of_drop h
    obtain ⟨h1, h⟩ := byteAt_of_drop h
    obtain ⟨h2, -⟩ := byteAt_of_drop h
    have hValid := toNat_valid c
    refine (nextCharacter_three h0 h1 h2 (by omega)).1 ?_
    unfold Completes3 Continues
    omega
  · rw [hEncode] at h ⊢
    obtain ⟨h0, h⟩ := byteAt_of_drop h
    obtain ⟨h1, h⟩ := byteAt_of_drop h
    obtain ⟨h2, h⟩ := byteAt_of_drop h
    obtain ⟨h3, -⟩ := byteAt_of_drop h
    have hValid := toNat_valid c
    refine (nextCharacter_four h0 h1 h2 h3 (by omega)).1 ?_
    unfold Completes4 Continues
    omega

/-- How a round ends: with the character it took, or with one of two refusals. -/
inductive Round (text : Bytes) (field : String) (index : Nat) : Except Exn Nat → Prop
  | taken (c : Char) (rest : Bytes) (hControl : ¬ Control c)
      (hDrop : text.drop index = utf8EncodeChar c ++ rest) :
      Round text field index (.ok (index + (utf8EncodeChar c).length))
  | malformed : Round text field index (.error (notUtf8 field))
  | control : Round text field index (.error (controlCharacter field))

theorem Round.of_encode {c : Char} {bytes rest : Bytes} (hEncode : utf8EncodeChar c = bytes)
    (hControl : ¬ Control c) (hDrop : text.drop index = bytes ++ rest) :
    Round text field index (.ok (index + bytes.length)) := by
  subst hEncode
  exact .taken c rest hControl hDrop

theorem round_cases (hIndex : index < text.length) :
    Round text field index (nextCharacter text field index) := by
  obtain ⟨a, h0⟩ := byteAt_of_lt hIndex
  obtain ⟨-, hDrop⟩ := byteAt_ok h0
  by_cases hShort : ∀ n, announced a = some n → text.length < index + n
  · rw [nextCharacter_short h0 hShort]
    exact .malformed
  -- every byte that the first one announces is there
  simp only [not_forall, Nat.not_lt] at hShort
  obtain ⟨n, hAnnounced, hLength⟩ := hShort
  obtain ⟨rfl, ha⟩ | ⟨rfl, ha⟩ | ⟨rfl, ha⟩ | ⟨rfl, ha⟩ := announced_cases hAnnounced
  · rw [nextCharacter_one h0 ha]
    split
    · exact .control
    · obtain ⟨c, hEncode, hc⟩ := exists_encode_one ha
      refine .of_encode hEncode ?_ hDrop
      unfold Control
      omega
  · obtain ⟨b, h1⟩ := byteAt_of_lt (by omega : index + 1 < text.length)
    rw [(byteAt_ok h1).2] at hDrop
    rw [nextCharacter_two h0 h1 ha]
    split
    · exact .malformed
    split
    · exact .control
    · obtain ⟨c, hEncode, hc⟩ := exists_encode_two ha (not_not.mp ‹_›)
      refine .of_encode hEncode ?_ hDrop
      unfold Control
      omega
  · obtain ⟨b, h1⟩ := byteAt_of_lt (by omega : index + 1 < text.length)
    obtain ⟨d, h2⟩ := byteAt_of_lt (by omega : index + 2 < text.length)
    rw [(byteAt_ok h1).2, (byteAt_ok h2).2] at hDrop
    by_cases hValid : Completes3 a b d
    · rw [(nextCharacter_three h0 h1 h2 ha).1 hValid]
      obtain ⟨c, hEncode, hc⟩ := exists_encode_three ha hValid
      refine .of_encode hEncode ?_ hDrop
      unfold Control
      omega
    · rw [(nextCharacter_three h0 h1 h2 ha).2 hValid]
      exact .malformed
  · obtain ⟨b, h1⟩ := byteAt_of_lt (by omega : index + 1 < text.length)
    obtain ⟨d, h2⟩ := byteAt_of_lt (by omega : index + 2 < text.length)
    obtain ⟨e, h3⟩ := byteAt_of_lt (by omega : index + 3 < text.length)
    rw [(byteAt_ok h1).2, (byteAt_ok h2).2, (byteAt_ok h3).2] at hDrop
    by_cases hValid : Completes4 a b d e
    · rw [(nextCharacter_four h0 h1 h2 h3 ha).1 hValid]
      obtain ⟨c, hEncode, hc⟩ := exists_encode_four ha hValid
      refine .of_encode hEncode ?_ hDrop
      unfold Control
      omega
    · rw [(nextCharacter_four h0 h1 h2 h3 ha).2 hValid]
      exact .malformed

end

theorem drop_encoded {text rest bytes : Bytes} {index : Nat} (h : text.drop index = bytes ++ rest) :
    text.drop (index + bytes.length) = rest := by
  rw [← List.drop_drop, h, List.drop_left]

theorem encode_ne_nil (c : Char) : utf8EncodeChar c ≠ [] := by
  rcases encode_cases c with ⟨-, _, h, -⟩ | ⟨-, -, _, _, h, -⟩ | ⟨-, -, _, _, _, h, -⟩ |
    ⟨-, _, _, _, _, h, -⟩ <;> rw [h] <;> exact List.cons_ne_nil _ _

theorem printable_nil : Printable [] := ⟨[], nofun, rfl⟩

theorem Printable.cons {c : Char} {rest : Bytes} (hControl : ¬ Control c) (h : Printable rest) :
    Printable (utf8EncodeChar c ++ rest) := by
  obtain ⟨chars, hChars, rfl⟩ := h
  refine ⟨c :: chars, ?_, rfl⟩
  intro c' hMem
  rcases List.mem_cons.mp hMem with rfl | hMem
  · exact hControl
  · exact hChars c' hMem

theorem Printable.uncons {bytes : Bytes} (h : Printable bytes) (hSome : bytes ≠ []) :
    ∃ c rest, ¬ Control c ∧ bytes = utf8EncodeChar c ++ rest ∧ Printable rest := by
  obtain ⟨chars, hChars, rfl⟩ := h
  cases chars with
  | nil => exact absurd rfl hSome
  | cons c chars =>
    exact ⟨c, _, hChars c List.mem_cons_self, rfl, chars,
      fun c' hMem => hChars c' (List.mem_cons_of_mem _ hMem), rfl⟩

theorem scanDisplayText_spec (text : Bytes) (field : String) (rounds index : Nat)
    (hRounds : text.length ≤ index + rounds) :
    (scanDisplayText text field rounds index = .ok () ↔ Printable (text.drop index)) ∧
    ∀ what, scanDisplayText text field rounds index ≠ .error (.outOfRange what) := by
  induction rounds generalizing index with
  | zero =>
    have hEnd : text.drop index = [] := List.drop_eq_nil_of_le hRounds
    rw [hEnd]
    exact ⟨⟨fun _ => printable_nil, fun _ => rfl⟩, fun _ hError => by cases hError⟩
  | succ rounds ih =>
    unfold scanDisplayText
    by_cases hIndex : index < text.length
    · have hLength : ∀ c : Char, text.length ≤ index + (utf8EncodeChar c).length + rounds := by
        intro c
        have hPos := List.length_pos_iff.mpr (encode_ne_nil c)
        omega
      have hRound : Round text field index (nextCharacter text field index) :=
        round_cases hIndex
      rw [if_pos hIndex]
      refine ⟨⟨fun h => ?_, fun h => ?_⟩, fun what h => ?_⟩
      · generalize nextCharacter text field index = next at hRound h
        cases hRound with
        | taken c rest hControl hDrop =>
          rw [hDrop]
          refine .cons hControl ?_
          rw [← drop_encoded hDrop]
          exact (ih _ (hLength c)).1.mp h
        | malformed => cases h
        | control => cases h
      · obtain ⟨c, rest, hControl, hDrop, hRest⟩ :=
          h.uncons (by rw [ne_eq, List.drop_eq_nil_iff]; omega)
        rw [nextCharacter_encoded hControl hDrop]
        rw [← drop_encoded hDrop] at hRest
        exact (ih _ (hLength c)).1.mpr hRest
      · generalize nextCharacter text field index = next at hRound h
        cases hRound with
        | taken c rest hControl hDrop => exact (ih _ (hLength c)).2 what h
        | malformed => cases h
        | control => cases h
    · have hEnd : text.drop index = [] := List.drop_eq_nil_of_le (by omega)
      rw [if_neg hIndex, hEnd]
      exact ⟨⟨fun _ => printable_nil, fun _ => rfl⟩, fun _ hError => by cases hError⟩

theorem validateDisplayText_ok_iff {text : Bytes} {field : String} :
    validateDisplayText text field = .ok () ↔
      text.length ≤ maxVerificationTextSize ∧ Printable text := by
  obtain ⟨hAccepted, -⟩ := scanDisplayText_spec text field text.length 0 (Nat.le_add_left _ _)
  unfold validateDisplayText
  by_cases hSize : text.length > maxVerificationTextSize
  · rw [if_pos hSize]
    exact ⟨nofun, fun h => absurd h.1 (Nat.not_le.mpr hSize)⟩
  · rw [if_neg hSize]
    exact ⟨fun h => ⟨Nat.not_lt.mp hSize, hAccepted.mp h⟩, fun h => hAccepted.mpr h.2⟩

/-- **Display text is printable UTF-8.** Accepted are the encodings, of at most 512 bytes, of
characters that are no controls; and no byte behind the end is read. -/
theorem display_text_printable (text : Bytes) (field : String) :
    (validateDisplayText text field = .ok () ↔ text.length ≤ 512 ∧
      ∃ chars : List Char, (∀ c ∈ chars, ¬ Control c) ∧
        text = chars.flatMap String.utf8EncodeChar) ∧
    ∀ what, validateDisplayText text field ≠ .error (.outOfRange what) := by
  refine ⟨validateDisplayText_ok_iff, ?_⟩
  unfold validateDisplayText
  split
  · exact nofun
  · exact (scanDisplayText_spec text field text.length 0 (Nat.le_add_left _ _)).2

end VAuth.Verifier
