import Mathlib.Algebra.Order.Ring.Int
import Mathlib.Control.Monad.Basic

/-!
# Exceptions of the daemon

The exception types the modelled functions throw and tell apart in their `catch`
clauses: the ones of `cancellation.hpp`, `CborEncodingError`, and the standard ones with
their texts.
-/

namespace VAuth

abbrev Bytes := List UInt8

/-- `enum class CborEncodingFailure`. -/
inductive CborEncodingFailure where
  | resourceLimit
  | invalidStructure
deriving DecidableEq, Repr

inductive Exn where
  | operationCancelled
  | userActionTimedOut
  | userInteractionCancelled
  | userInteractionUnavailable
  | verificationInfrastructureError
  | cborEncodingError (failure : CborEncodingFailure)
  | verifierConversationError (what : String)
  | verifierProtocolError (what : String)
  | verifierSocketError (what : String)
  | systemError (operation : String)
  | runtimeError (what : String)
  | invalidArgument (what : String)
  | overflowError (what : String)
  | outOfRange (what : String)
  | lengthError (what : String)
  | logicError (what : String)
  | jsonError (what : String)
deriving DecidableEq, Repr

/-- What a successful computation went through. -/
theorem bind_eq_ok {ε α β : Type} {x : Except ε α} {f : α → Except ε β} {b : β} :
    x >>= f = .ok b ↔ ∃ a, x = .ok a ∧ f a = .ok b := by
  cases x with
  | error e => exact ⟨nofun, nofun⟩
  | ok a => exact ⟨fun h => ⟨a, rfl, h⟩, by rintro ⟨_, ⟨⟩, h⟩; exact h⟩

theorem exists_ok_of_isOk {ε α : Type} {x : Except ε α} (h : x.isOk = true) : ∃ a, x = .ok a := by
  cases x with
  | error e => cases h
  | ok a => exact ⟨a, rfl⟩

theorem guard_eq_ok {ε β : Type} {c : Prop} [Decidable c] {e : ε} {rest : PUnit → Except ε β}
    {x : Except ε β} {b : β} :
    (if c then (throw e : Except ε PUnit) >>= rest else x) = .ok b ↔ ¬ c ∧ x = .ok b := by
  by_cases h : c
  · rw [if_pos h]
    exact ⟨nofun, fun hc => absurd h hc.1⟩
  · rw [if_neg h]
    exact ⟨fun hx => ⟨h, hx⟩, fun hx => hx.2⟩

/-- Whatever is thrown is one of these. -/
def Throws {ε α : Type} (S : ε → Prop) (x : Except ε α) : Prop := ∀ e, x = .error e → S e

section Throws

variable {ε α β : Type} {S : ε → Prop} {e : ε}

theorem throws_ok (a : α) : Throws S (.ok a : Except ε α) := nofun

theorem throws_error (h : S e) : Throws S (.error e : Except ε α) := by
  rintro _ ⟨⟩
  exact h

theorem throws_bind {x : Except ε α} {f : α → Except ε β} (hx : Throws S x)
    (hf : ∀ a, Throws S (f a)) : Throws S (x >>= f) := by
  cases x with
  | error e => exact throws_error (hx e rfl)
  | ok a => exact hf a

theorem throws_guard {c : Prop} [Decidable c] {rest : PUnit → Except ε β} {x : Except ε β}
    (he : S e) (hx : Throws S x) :
    Throws S (if c then (throw e : Except ε PUnit) >>= rest else x) := by
  split
  · exact throws_error he
  · exact hx

end Throws

end VAuth
