import VAuth.Format.Separable
import VAuth.Store.Envelope

/-!
# The text of a store document

The compact text that `dump` writes for a document of the store determines the document, so there
is a platform that writes every document as that text (`renderPlatform`) and reads it back.
-/

namespace VAuth.Store

open Format

namespace Json

/-! ## Strings -/

/-- The number of bytes that an escaped byte takes, from the first two of them. -/
def escapeLength : Bytes → Nat
  | 92 :: 117 :: _ => 6
  | 92 :: _ => 2
  | _ => 1

/-- The byte that is escaped so. -/
def unescape : Bytes → UInt8
  | [92, 98] => 8
  | [92, 102] => 12
  | [92, 110] => 10
  | [92, 114] => 13
  | [92, 116] => 9
  | [92, b] => b
  | [92, 117, 48, 48, high, low] => (high - 48) * 16 + (if low < 58 then low - 48 else low - 87)
  | [b] => b
  | _ => 0

theorem unescape_escape (b : UInt8) : unescape (escape b) = b := by
  have key : ∀ b : BitVec 8, unescape (escape (UInt8.ofBitVec b)) = UInt8.ofBitVec b := by
    decide +kernel
  exact key b.toBitVec

theorem length_escape (b : UInt8) : (escape b).length = escapeLength (escape b) := by
  have key : ∀ b : BitVec 8, (escape (UInt8.ofBitVec b)).length =
      escapeLength (escape (UInt8.ofBitVec b)) := by decide +kernel
  exact key b.toBitVec

/-- The head of an escaped byte is no quotation mark, and its length shows in its first two
bytes. -/
theorem escape_head (b : UInt8) : (∃ c e, escape b = 92 :: c :: e) ∨
    escape b = [b] ∧ b ≠ 92 ∧ b ≠ 34 := by
  have key : ∀ b : BitVec 8, (2 ≤ (escape (UInt8.ofBitVec b)).length ∧
      (escape (UInt8.ofBitVec b)).head? = some 92) ∨ escape (UInt8.ofBitVec b) = [UInt8.ofBitVec b] ∧
        UInt8.ofBitVec b ≠ 92 ∧ UInt8.ofBitVec b ≠ 34 := by decide +kernel
  rcases key b.toBitVec with ⟨hLong, hHead⟩ | hPlain
  · left
    change 2 ≤ (escape b).length at hLong
    change (escape b).head? = some 92 at hHead
    match hEscape : escape b with
    | [] => simp [hEscape] at hLong
    | [_] => simp [hEscape] at hLong
    | a :: c :: e =>
      rw [hEscape] at hHead
      exact ⟨c, e, by rw [Option.some.inj hHead]⟩
  · exact .inr hPlain

theorem escapeLength_append (b : UInt8) (r : Bytes) :
    escapeLength (escape b ++ r) = (escape b).length := by
  rw [length_escape]
  rcases escape_head b with ⟨c, e, hEscape⟩ | ⟨hEscape, hOther, -⟩
  · rw [hEscape]
    by_cases hLong : c = 117
    · subst hLong
      rfl
    · rw [List.cons_append, List.cons_append, escapeLength.eq_2, escapeLength.eq_2]
      · exact fun _ h => hLong (List.cons.inj h).1
      · exact fun _ h => hLong (List.cons.inj h).1
  · rw [hEscape, List.singleton_append, escapeLength.eq_3, escapeLength.eq_3]
    all_goals intro _ h; exact hOther (List.cons.inj h).1

theorem separable_escape : Separable anything escape := by
  intro a b r s _ _ hEq
  have hLength : (escape a).length = (escape b).length := by
    rw [← escapeLength_append a r, hEq, escapeLength_append b s]
  obtain ⟨hSame, hRest⟩ := List.append_inj hEq hLength
  exact ⟨by rw [← unescape_escape a, hSame, unescape_escape b], hRest⟩

theorem escape_ne_quote (b : UInt8) (r s : Bytes) : escape b ++ r ≠ 34 :: s := by
  rcases escape_head b with ⟨c, e, hEscape⟩ | ⟨hEscape, -, hOther⟩
  · rw [hEscape]
    exact fun h => absurd (List.cons.inj h).1 (by decide)
  · rw [hEscape]
    exact fun h => hOther (List.cons.inj h).1

theorem separable_quote : Separable anything quote := by
  intro a b r s _ _ hEq
  simp only [quote, List.cons_append, List.append_assoc, List.cons.injEq, true_and,
    List.nil_append] at hEq
  induction a generalizing b with
  | nil =>
    cases b with
    | nil => exact ⟨rfl, (List.cons.inj hEq).2⟩
    | cons y b =>
      rw [List.flatMap_cons, List.append_assoc] at hEq
      exact absurd hEq.symm (escape_ne_quote y _ _)
  | cons x a ih =>
    rw [List.flatMap_cons, List.append_assoc] at hEq
    cases b with
    | nil => exact absurd hEq (escape_ne_quote x _ _)
    | cons y b =>
      rw [List.flatMap_cons, List.append_assoc] at hEq
      obtain ⟨rfl, hRest⟩ := separable_escape x y _ _ trivial trivial hEq
      obtain ⟨rfl, rfl⟩ := ih b hRest
      exact ⟨rfl, rfl⟩

/-! ## Numbers -/

/-- A digit in the text of a number. -/
def isDigit (b : UInt8) : Bool := 48 ≤ b ∧ b ≤ 57

def digits (n : Nat) : Bytes := (Nat.toDigits 10 n).map fun c => UInt8.ofNat c.toNat

theorem code_of_mem {n : Nat} {c : Char} (hc : c ∈ Nat.toDigits 10 n) :
    48 ≤ c.toNat ∧ c.toNat ≤ 57 ∧ (UInt8.ofNat c.toNat).toNat = c.toNat := by
  have hDigit := Nat.isDigit_of_mem_toDigits (by decide) (by decide) hc
  obtain ⟨hLow, hHigh⟩ : 48 ≤ c.toNat ∧ c.toNat ≤ 57 := by
    simpa [Char.isDigit, UInt32.le_iff_toNat_le] using hDigit
  refine ⟨hLow, hHigh, ?_⟩
  rw [UInt8.toNat_ofNat']
  omega

theorem isDigit_of_mem {n : Nat} : ∀ b ∈ digits n, isDigit b = true := by
  intro b hb
  obtain ⟨c, hc, rfl⟩ := List.mem_map.mp hb
  obtain ⟨hLow, hHigh, hNat⟩ := code_of_mem hc
  simp only [isDigit, UInt8.le_iff_toNat_le, hNat, decide_eq_true_eq]
  exact ⟨hLow, hHigh⟩

theorem digits_injective : Function.Injective digits := by
  have hBack : ∀ n, (digits n).map (fun b => Char.ofNat b.toNat) = Nat.toDigits 10 n := by
    intro n
    rw [digits, List.map_map]
    conv_rhs => rw [← List.map_id (Nat.toDigits 10 n)]
    refine List.map_congr_left fun c hc => ?_
    simp only [Function.comp_apply, (code_of_mem hc).2.2, Char.ofNat_toNat, id_eq]
  intro a b hEq
  have hSame : Nat.toDigits 10 a = Nat.toDigits 10 b := by rw [← hBack a, hEq, hBack b]
  rw [← @Nat.ofDigitChars_ten_toDigits a, hSame, Nat.ofDigitChars_ten_toDigits]

theorem separable_digits : Separable (StopsAt isDigit) digits :=
  separable_of_stops digits_injective fun _ => isDigit_of_mem

theorem digits_ne (n : Nat) {b : UInt8} (hb : isDigit b = false) (r s : Bytes) :
    digits n ++ r ≠ b :: s := by
  intro hEq
  match hDigits : digits n with
  | [] => exact absurd hDigits (by simp [digits, Nat.toDigits_ne_nil])
  | c :: rest =>
    have hc := isDigit_of_mem c (hDigits ▸ List.mem_cons_self)
    rw [hDigits] at hEq
    rw [(List.cons.inj hEq).1, hb] at hc
    cases hc

theorem decimal_eq (n : Int) :
    decimal n = if n < 0 then 45 :: digits n.natAbs else digits n.natAbs := by
  unfold decimal
  split
  · rfl
  · rfl

theorem separable_decimal : Separable (StopsAt isDigit) decimal := by
  intro a b r s hr hs hEq
  rw [decimal_eq, decimal_eq] at hEq
  by_cases ha : a < 0
  · rw [if_pos ha] at hEq
    by_cases hb : b < 0
    · rw [if_pos hb] at hEq
      obtain ⟨hSame, hRest⟩ := separable_digits _ _ r s hr hs (List.cons.inj hEq).2
      exact ⟨by omega, hRest⟩
    · rw [if_neg hb] at hEq
      exact absurd hEq.symm (digits_ne _ rfl _ _)
  · rw [if_neg ha] at hEq
    by_cases hb : b < 0
    · rw [if_pos hb] at hEq
      exact absurd hEq (digits_ne _ rfl _ _)
    · rw [if_neg hb] at hEq
      obtain ⟨hSame, hRest⟩ := separable_digits _ _ r s hr hs hEq
      exact ⟨by omega, hRest⟩

/-! ## Arrays -/

theorem renderElements_map {α : Type} (write : α → Json) (as : List α) :
    renderElements (as.map write) = as.flatMap fun a => 44 :: (write a).render := by
  induction as with
  | nil => rfl
  | cons a as ih => rw [List.map_cons, renderElements, ih, List.flatMap_cons, List.cons_append]

/-- An array of texts that are told apart by the comma or the bracket after them. -/
theorem separable_arr {α : Type} {D : Bytes → Prop} {write : α → Json}
    (h : Separable D fun a => (write a).render) (hComma : ∀ r, D (44 :: r))
    (hClose : ∀ r, D (93 :: r)) (hHead : ∀ a r s, (write a).render ++ r ≠ 93 :: s) :
    Separable anything fun as : List α => (arr (as.map write)).render := by
  have hSequence := h.sequence hComma hClose (by decide)
  have hText : ∀ a as r, (arr ((a :: as).map write)).render ++ r =
      91 :: ((write a).render ++ (as.flatMap (fun a => 44 :: (write a).render) ++ [93] ++ r)) := by
    intro a as r
    rw [List.map_cons, render, renderElements_map]
    simp only [List.cons_append, List.append_assoc]
  have hNext : ∀ (as : List α) r, D (as.flatMap (fun a => 44 :: (write a).render) ++ [93] ++ r) := by
    intro as r
    cases as with
    | nil => exact hClose r
    | cons a as => exact hComma _
  intro as bs r s _ _ hEq
  cases as with
  | nil =>
    cases bs with
    | nil => exact ⟨rfl, List.append_cancel_left hEq⟩
    | cons b bs =>
      have hEq := hEq.trans (hText b bs s)
      exact absurd (List.cons.inj hEq).2.symm (hHead b _ _)
  | cons a as =>
    have hEq := (hText a as r).symm.trans hEq
    cases bs with
    | nil => exact absurd (List.cons.inj hEq).2 (hHead a _ _)
    | cons b bs =>
      have hEq := hEq.trans (hText b bs s)
      obtain ⟨rfl, hRest⟩ := h a b _ _ (hNext as r) (hNext bs s) (List.cons.inj hEq).2
      obtain ⟨rfl, rfl⟩ := hSequence as bs r s trivial trivial hRest
      exact ⟨rfl, rfl⟩

end Json

open Json

/-! ## Documents of the store -/

theorem stopsAt_comma (r : Bytes) : StopsAt isDigit (44 :: r) := by
  rintro c s ⟨⟩
  rfl

theorem stopsAt_close (r : Bytes) : StopsAt isDigit (93 :: r) := by
  rintro c s ⟨⟩
  rfl

theorem separable_bool : Separable anything fun b : Bool => (Json.bool b).render := by
  intro a b r s _ _ hEq
  cases a <;> cases b
  · exact ⟨rfl, List.append_cancel_left hEq⟩
  · exact absurd (List.cons.inj hEq).1 (by decide)
  · exact absurd (List.cons.inj hEq).1 (by decide)
  · exact ⟨rfl, List.append_cancel_left hEq⟩

theorem separable_byteArray : Separable anything fun bytes => (byteArray bytes).render := by
  refine separable_arr (D := StopsAt isDigit) ?_ stopsAt_comma stopsAt_close ?_
  · exact separable_decimal.comp fun a b h => UInt8.toNat_inj.mp (Int.ofNat.inj h)
  · intro b r s
    simp only [render, decimal_eq]
    rw [if_neg (by omega)]
    exact digits_ne _ rfl _ _

theorem member_inj {α : Type} {D : Bytes → Prop} {write : α → Bytes} (h : Separable D write)
    (hComma : ∀ r, D (44 :: r)) {a b : α} {name r s : Bytes}
    (hEq : write a ++ 44 :: (quote name ++ 58 :: r) = write b ++ 44 :: (quote name ++ 58 :: s)) :
    a = b ∧ r = s := by
  obtain ⟨hSame, hRest⟩ := h a b _ _ (hComma _) (hComma _) hEq
  exact ⟨hSame, (List.cons.inj (List.append_cancel_left (List.cons.inj hRest).2)).2⟩

theorem separable_credentialDocument : Separable anything fun c => (credentialDocument c).render := by
  intro a b r s _ _ hEq
  simp only [credentialDocument, render, renderMembers, List.cons_append, List.append_assoc,
    List.nil_append, List.cons.injEq, true_and, List.append_cancel_left_eq] at hEq
  have hAny : ∀ r, anything (44 :: r : Bytes) := fun _ => trivial
  obtain ⟨hAlg, hEq⟩ := member_inj separable_decimal stopsAt_comma hEq
  obtain ⟨hOrder, hEq⟩ := member_inj separable_decimal stopsAt_comma hEq
  obtain ⟨hDiscoverable, hEq⟩ := member_inj separable_bool hAny hEq
  obtain ⟨hId, hEq⟩ := member_inj separable_quote hAny hEq
  obtain ⟨hOwner, hEq⟩ := member_inj separable_decimal stopsAt_comma hEq
  obtain ⟨hPrivate, hEq⟩ := member_inj separable_byteArray hAny hEq
  obtain ⟨hPublic, hEq⟩ := member_inj separable_byteArray hAny hEq
  obtain ⟨hRp, hEq⟩ := member_inj separable_quote hAny hEq
  obtain ⟨hCount, hEq⟩ := member_inj separable_decimal stopsAt_comma hEq
  obtain ⟨hDisplay, hEq⟩ := member_inj separable_quote hAny hEq
  obtain ⟨hUser, hEq⟩ := member_inj separable_quote hAny hEq
  obtain ⟨hName, hEq⟩ := separable_quote _ _ _ _ trivial trivial hEq
  refine ⟨?_, (List.cons.inj hEq).2⟩
  have hAlg := Int32.toInt_inj.mp hAlg
  have hOrder := UInt64.toNat_inj.mp (Int.ofNat.inj hOrder)
  have hOwner := UInt32.toNat_inj.mp (Int.ofNat.inj hOwner)
  have hCount := UInt32.toNat_inj.mp (Int.ofNat.inj hCount)
  have hId := hexEncode_injective hId
  have hUser := hexEncode_injective hUser
  cases a
  cases b
  simp_all

theorem render_storageDocument_injective {items items' : List (Bytes × StoredCredential)}
    (h : (storageDocument items).render = (storageDocument items').render) :
    storageDocument items = storageDocument items' := by
  have hCredentials := (separable_arr separable_credentialDocument (fun _ => trivial)
    (fun _ => trivial) fun c r s hEq => absurd (List.cons.inj hEq).1 (by decide)).injective trivial
  have hMap : ∀ items : List (Bytes × StoredCredential),
      storageDocument items = .arr ((items.map Prod.snd).map credentialDocument) := by
    intro items
    rw [storageDocument, List.map_map]
    rfl
  rw [hMap, hMap] at h ⊢
  rw [hCredentials h]

open Classical in
/-- The platform that writes every document as its compact text and reads it back. -/
noncomputable def renderPlatform : Platform where
  iterate := fun m => m.toList
  dump := fun json => some json.render
  parse := fun text =>
    if h : ∃ items, (storageDocument items).render = text then some (storageDocument h.choose)
    else none
  encipher := fun nonce aad text => (text, checksum nonce aad text)
  decipher := fun nonce aad text tag => if tag = checksum nonce aad text then some text else none

theorem renderPlatform_lawful : renderPlatform.Lawful where
  iterate_perm := fun m => List.Perm.refl _
  parse_dump := by
    intro items text hDump
    have hExists : ∃ items', (storageDocument items').render = text := ⟨items, Option.some.inj hDump⟩
    simp only [renderPlatform, dif_pos hExists]
    refine congrArg some (render_storageDocument_injective ?_)
    rw [hExists.choose_spec]
    exact (Option.some.inj hDump).symm
  decipher_encipher := fun _ _ _ => if_pos rfl
  cipher_length := fun _ _ _ => rfl
  tag_length := fun _ _ _ => List.length_replicate

end VAuth.Store
