import Mathlib.Logic.Function.Basic

/-!
# Texts that can be told apart from what follows

`Separable D write`: of two texts that agree, each what `write` gives for a value and then some
rest of the kind `D`, the values and the rests agree. A format with this property can be read
back, whatever its reader looks like.
-/

namespace Format

variable {α β γ : Type}

def Separable (D : List β → Prop) (write : α → List β) : Prop :=
  ∀ a b r s, D r → D s → write a ++ r = write b ++ s → a = b ∧ r = s

/-- Any rest. -/
def anything (_ : List β) : Prop := True

/-- A rest that does not go on with such a symbol. -/
def StopsAt (p : β → Bool) (r : List β) : Prop := ∀ c s, r = c :: s → p c = false

variable {write : α → List β} {D : List β → Prop}

theorem Separable.injective (h : Separable D write) (hNil : D []) : Function.Injective write :=
  fun a b hEq => (h a b [] [] hNil hNil (congrArg (· ++ []) hEq)).1

theorem Separable.comp (h : Separable D write) {f : γ → α} (hf : Function.Injective f) :
    Separable D fun c => write (f c) := by
  intro a b r s hr hs hEq
  obtain ⟨hSame, hRest⟩ := h (f a) (f b) r s hr hs hEq
  exact ⟨hf hSame, hRest⟩

/-- Words over a class of symbols end where another symbol follows. -/
theorem separable_of_stops {p : β → Bool} (hInj : Function.Injective write)
    (hAll : ∀ a, ∀ c ∈ write a, p c = true) : Separable (StopsAt p) write := by
  have hTake : ∀ a r, StopsAt p r → (write a ++ r).takeWhile p = write a := by
    intro a r hr
    have hNone : r.takeWhile p = [] := by
      cases r with
      | nil => rfl
      | cons c s => rw [List.takeWhile_cons, hr c s rfl, if_neg Bool.false_ne_true]
    rw [List.takeWhile_append_of_pos (hAll a), hNone, List.append_nil]
  intro a b r s hr hs hEq
  have hSame : write a = write b := by rw [← hTake a r hr, hEq, hTake b s hs]
  rw [hSame] at hEq
  exact ⟨hInj hSame, List.append_cancel_left hEq⟩

theorem Separable.sequence {comma close : β} (h : Separable D write) (hComma : ∀ r, D (comma :: r))
    (hClose : ∀ r, D (close :: r)) (hNe : comma ≠ close) :
    Separable anything fun as : List α => as.flatMap (fun a => comma :: write a) ++ [close] := by
  -- What follows a member begins with a comma or with the closing symbol.
  have hNext : ∀ (as : List α) r, D (as.flatMap (fun a => comma :: write a) ++ close :: r) := by
    intro as r
    cases as with
    | nil => exact hClose r
    | cons a as => exact hComma _
  intro as bs r s _ _ hEq
  simp only [List.append_assoc, List.singleton_append] at hEq
  induction as generalizing bs with
  | nil =>
    cases bs with
    | nil => exact ⟨rfl, (List.cons.inj hEq).2⟩
    | cons b bs => exact absurd (List.cons.inj hEq).1.symm hNe
  | cons a as ih =>
    cases bs with
    | nil => exact absurd (List.cons.inj hEq).1 hNe
    | cons b bs =>
      simp only [List.flatMap_cons, List.cons_append, List.append_assoc] at hEq
      obtain ⟨rfl, hRest⟩ := h a b _ _ (hNext as r) (hNext bs s) (List.cons.inj hEq).2
      obtain ⟨rfl, rfl⟩ := ih bs hRest
      exact ⟨rfl, rfl⟩

end Format
