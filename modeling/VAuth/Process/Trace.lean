import Mathlib.Data.List.Basic

/-!
# Properties of the events of a trace

A trace is a list that grows at its end. `AtEach P` says that every event satisfies `P` after
the events before it.
-/

namespace Proc

variable {α : Type} {P : List α → α → Prop} {trace : List α} {event : α}

def AtEach (P : List α → α → Prop) (trace : List α) : Prop :=
  ∀ past event rest, trace = past ++ event :: rest → P past event

theorem atEach_nil : AtEach P [] := by
  intro past event rest h
  cases past <;> cases h

theorem AtEach.snoc (h : AtEach P trace) (hEvent : P trace event) :
    AtEach P (trace ++ [event]) := by
  intro past e rest hSplit
  rcases List.eq_nil_or_concat rest with rfl | ⟨rest', last, rfl⟩
  · obtain ⟨rfl, hLast⟩ := List.append_inj' hSplit rfl
    exact (List.cons.inj hLast).1 ▸ hEvent
  · rw [List.concat_eq_append, ← List.cons_append, ← List.append_assoc] at hSplit
    exact h past e rest' (List.append_inj' hSplit rfl).1

theorem AtEach.init (h : AtEach P (trace ++ [event])) : AtEach P trace ∧ P trace event := by
  refine ⟨fun past e rest hSplit => ?_, h trace event [] rfl⟩
  refine h past e (rest ++ [event]) ?_
  rw [hSplit, List.append_assoc, List.cons_append]

theorem AtEach.of_mem (h : AtEach P trace) (hMem : event ∈ trace) : ∃ past, P past event := by
  obtain ⟨past, rest, hSplit⟩ := List.append_of_mem hMem
  exact ⟨past, h past event rest hSplit⟩

end Proc
