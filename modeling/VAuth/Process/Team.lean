import Mathlib.Logic.Function.Basic
import VAuth.Process.Run

/-!
# Several processes on one state

A team is a family of processes that share a state and step in any order, among further
parties that change the state as `env` allows. Each member is verified on its own, against
what it relies on; a team whose members promise each other what they rely on keeps all of it
(`Team.wp_steps`).
-/

namespace Proc

variable {σ ι ε κ K : Type} {α : K → Type}

abbrev Team (σ ι ε : Type) (α : K → Type) : Type := (k : K) → Proc σ ι ε (α k)

namespace Team

variable [DecidableEq K]

/-- One member takes a step, or somebody outside of the team does. -/
inductive Step (env : σ → σ → Prop) (admits : K → σ → ι → Prop) :
    Team σ ι ε α × σ → Team σ ι ε α × σ → Prop
  | own {ps : Team σ ι ε α} {s : σ} {i : ι} (k : K) {update : ι → σ → σ}
      {next : ι → σ → Proc σ ι ε (α k)} (hAct : ps k = act update next) (h : admits k s i) :
      Step env admits (ps, s) (Function.update ps k (next i s), update i s)
  | other {ps : Team σ ι ε α} {s s' : σ} (h : env s s') : Step env admits (ps, s) (ps, s')

abbrev Steps (env : σ → σ → Prop) (admits : K → σ → ι → Prop) :
    Team σ ι ε α × σ → Team σ ι ε α × σ → Prop :=
  Relation.ReflTransGen (Step env admits)

variable {env : σ → σ → Prop} {admits : K → σ → ι → Prop} {rely guar : K → σ → σ → Prop}
  {Q : (k : K) → α k → σ → Prop} {E : K → ε → σ → Prop} {ps ps' : Team σ ι ε α} {s s' : σ}

section Rules

variable (hGuar : ∀ j k, j ≠ k → ∀ s s', guar j s s' → rely k s s')
  (hEnv : ∀ k s s', env s s' → rely k s s')
  (h : ∀ k, wp (.among (rely k) (admits k) (guar k)) (Q k) (E k) (ps k) s)
include hGuar hEnv h

/-- At every point of a run the rest of each member still meets its precondition, as of the
last state the member itself saw. -/
theorem wp_steps (hRun : Steps env admits (ps, s) (ps', s')) (k : K) :
    ∃ s₀, wp (.among (rely k) (admits k) (guar k)) (Q k) (E k) (ps' k) s₀ ∧
      Relation.ReflTransGen (rely k) s₀ s' := by
  generalize hc : (ps', s') = c at hRun
  induction hRun generalizing ps' s' k with
  | refl =>
    cases hc
    exact ⟨s, h k, .refl⟩
  | @tail c₁ c₂ _ step ih =>
    obtain ⟨ps₁, s₁⟩ := c₁
    cases step with
    | @own _ _ i j update next hAct hi =>
      cases hc
      obtain ⟨s₀, hwp, hrely⟩ := ih j rfl
      rw [hAct] at hwp
      obtain ⟨hStep, hNext⟩ := hwp _ hrely _ hi
      by_cases hk : k = j
      · subst hk
        rw [Function.update_self]
        exact ⟨_, hNext, .refl⟩
      · obtain ⟨s₁, hOther, hOtherRely⟩ := ih k rfl
        rw [Function.update_of_ne hk]
        exact ⟨s₁, hOther, hOtherRely.tail (hGuar j k (Ne.symm hk) _ _ hStep)⟩
    | other henv =>
      cases hc
      obtain ⟨s₀, hwp, hrely⟩ := ih k rfl
      exact ⟨s₀, hwp, hrely.tail (hEnv k _ _ henv)⟩

/-- A property that every member and the others keep holds at every point of a run. -/
theorem invariant {J : σ → Prop} (hInit : J s) (hKeepEnv : ∀ s s', env s s' → J s → J s')
    (hKeep : ∀ k s s', guar k s s' → J s → J s')
    (hRun : Steps env admits (ps, s) (ps', s')) : J s' := by
  generalize hc : (ps', s') = c at hRun
  induction hRun generalizing ps' s' with
  | refl =>
    cases hc
    exact hInit
  | @tail c₁ c₂ run step ih =>
    obtain ⟨ps₁, s₁⟩ := c₁
    have hJ := ih rfl
    cases step with
    | @own _ _ i j update next hAct hi =>
      cases hc
      obtain ⟨s₀, hwp, hrely⟩ := wp_steps hGuar hEnv h run j
      rw [hAct] at hwp
      exact hKeep j _ _ (hwp _ hrely _ hi).1 hJ
    | other henv =>
      cases hc
      exact hKeepEnv _ _ henv hJ

/-- How a member can have ended: as its weakest precondition says, where what it relies on
keeps that. -/
theorem outcome (hRun : Steps env admits (ps, s) (ps', s')) (k : K)
    (hQ : ∀ a s s', rely k s s' → Q k a s → Q k a s') (a : α k) (hDone : ps' k = done a) :
    Q k a s' := by
  obtain ⟨s₀, hwp, hrely⟩ := wp_steps hGuar hEnv h hRun k
  rw [hDone] at hwp
  exact kept_by_others (hQ a) hrely hwp

end Rules

/-- Follow a script: the named member gets an input, or somebody outside makes the named
move, each time if the check passes. -/
def follow (ok : K → σ → ι → Bool) (move : κ → σ → σ) (okMove : σ → κ → Bool) :
    List ((K × ι) ⊕ κ) → Team σ ι ε α × σ → Option (Team σ ι ε α × σ)
  | [], c => some c
  | .inl (k, i) :: script, (ps, s) =>
    match ps k with
    | act update next =>
      if ok k s i then
        follow ok move okMove script (Function.update ps k (next i s), update i s)
      else none
    | _ => none
  | .inr m :: script, (ps, s) =>
    if okMove s m then follow ok move okMove script (ps, move m s) else none

theorem steps_follow {ok : K → σ → ι → Bool} {move : κ → σ → σ} {okMove : σ → κ → Bool}
    (hInputs : ∀ k s i, ok k s i = true → admits k s i)
    (hMoves : ∀ s m, okMove s m = true → env s (move m s)) (script : List ((K × ι) ⊕ κ))
    {c c' : Team σ ι ε α × σ} (h : follow ok move okMove script c = some c') :
    Steps env admits c c' := by
  induction script generalizing c with
  | nil =>
    cases h
    exact .refl
  | cons m script ih =>
    obtain ⟨ps, s⟩ := c
    cases m with
    | inl own =>
      obtain ⟨k, i⟩ := own
      unfold follow at h
      split at h
      · rename_i update next hAct
        split at h
        · rename_i hOk
          exact .head (.own k hAct (hInputs k s i hOk)) (ih h)
        · cases h
      · cases h
    | inr m =>
      unfold follow at h
      split at h
      · rename_i hOk
        exact .head (.other (hMoves s m hOk)) (ih h)
      · cases h

end Team

end Proc
