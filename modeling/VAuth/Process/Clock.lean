import VAuth.Process.Run

/-!
# Infinite runs and a clock

A process that may be cut has used up the rounds it is followed for. To say that it does end,
its own steps are counted (`clocked`): a run in which something is due after `bound` steps of
the process, and stays due, is verified in the setting `timed`, where nothing may be cut. A
process that gets its turn again and again does end (`Run.ends`), as its weakest precondition
says (`Run.returns`).
-/

namespace Proc

variable {σ ι ε α β : Type}

/-- The process with a count of the steps it has taken. -/
def clocked (p : Proc σ ι ε α) : Proc (σ × Nat) ι ε α :=
  p.zoom Prod.fst (fun s t => (s, t.2 + 1)) id

section Clocked

theorem clocked_bind (p : Proc σ ι ε α) (f : α → Proc σ ι ε β) :
    (p.bind f).clocked = p.clocked.bind fun a => (f a).clocked := by
  induction p with
  | done a => rfl
  | fail e => rfl
  | cut => rfl
  | act update next ih =>
    unfold clocked at ih ⊢
    simp only [Proc.bind, zoom, ih]

theorem clocked_loop (body : β → Proc σ ι ε (β ⊕ α)) (rounds : Nat) (b : β) :
    (loop body rounds b).clocked = loop (fun b => (body b).clocked) rounds b := by
  induction rounds generalizing b with
  | zero => rfl
  | succ rounds ih =>
    rw [loop, clocked_bind, loop]
    congr 1
    funext r
    cases r with
    | inl b' => exact ih b'
    | inr a => rfl

theorem clocked_ofExcept (r : Except ε α) : (ofExcept r : Proc σ ι ε α).clocked = ofExcept r := by
  cases r <;> rfl

end Clocked

/-- The setting of a clocked process among parties that step by `env`: it takes at most `bound`
steps while nothing is due, and is not cut. -/
def Setting.timed (env : σ → σ → Prop) (admits : σ → ι → Prop) (guar : σ → σ → Prop) (bound : Nat)
    (due : σ → Prop) : Setting (σ × Nat) ι where
  rely := fun t t' => Relation.ReflTransGen env t.1 t'.1 ∧ t'.2 = t.2
  admits := fun t i => admits t.1 i ∧ (t.2 < bound ∨ due t.1)
  guar := fun t t' => guar t.1 t'.1
  mayCut := False

section Rules

variable {C : Setting (σ × Nat) ι} {E : ε → σ × Nat → Prop} {t : σ × Nat}

theorem wp_clocked_bind {p : Proc σ ι ε α} {f : α → Proc σ ι ε β} {Q : β → σ × Nat → Prop} :
    wp C Q E (p.bind f).clocked t ↔ wp C (fun a t => wp C Q E (f a).clocked t) E p.clocked t := by
  rw [clocked_bind, wp_bind]

theorem wp_clocked_loop {Q : α → σ × Nat → Prop} {body : β → Proc σ ι ε (β ⊕ α)}
    (inv : Nat → β → σ × Nat → Prop) (hCut : ∀ b t, ¬ inv 0 b t)
    (hBody : ∀ k b t, inv (k + 1) b t → wp C
      (fun r t => r.elim (fun b' => inv k b' t) (fun a => Q a t)) E (body b).clocked t)
    {rounds : Nat} {b : β} (h : inv rounds b t) : wp C Q E (loop body rounds b).clocked t := by
  rw [clocked_loop]
  induction rounds generalizing b t with
  | zero => exact absurd h (hCut b t)
  | succ rounds ih =>
    rw [loop, wp_bind]
    refine wp_mono (hBody rounds b t h) ?_ (fun _ _ he => he)
    intro r t' hr
    cases r with
    | inl b' => exact ih hr
    | inr a => exact hr

end Rules

section Timed

variable {env guar : σ → σ → Prop} {admits : σ → ι → Prop} {bound : Nat} {due : σ → Prop}
  {Q : α → σ × Nat → Prop} {E : ε → σ × Nat → Prop}

/-- One atomic step of a clocked process, in a state that the others keep. -/
theorem wp_clocked_atomically {J : σ → Prop} {f : ι → σ → Except ε α × σ} {s : σ} {n : Nat}
    (hEnv : ∀ s s', env s s' → J s → J s') (hJ : J s)
    (h : ∀ s' i, J s' → admits s' i → (n < bound ∨ due s') → guar s' (f i s').2 ∧
      (∀ a, (f i s').1 = .ok a → Q a ((f i s').2, n + 1)) ∧
      (∀ e, (f i s').1 = .error e → E e ((f i s').2, n + 1))) :
    wp (.timed env admits guar bound due) Q E (atomically f).clocked (s, n) := by
  rintro ⟨s', n'⟩ ⟨hRely, hn⟩ i ⟨hi, hDue⟩
  obtain rfl : n' = n := hn
  obtain ⟨hGuar, hOk, hError⟩ := h s' i (kept_by_others hEnv hRely hJ) hi hDue
  refine ⟨hGuar, ?_⟩
  change wp _ Q E (ofExcept (f i s').1).clocked ((f i s').2, n' + 1)
  rw [clocked_ofExcept, wp_ofExcept]
  exact ⟨hOk, hError⟩

/-- What is known of a process without the clock, with an invariant that its steps and the
others keep. -/
theorem wp_clocked_of_wp {C : Setting σ ι} {J : σ → Prop} {Q : α → σ → Prop} {E : ε → σ → Prop}
    (hRely : ∀ s s', Relation.ReflTransGen env s s' → C.rely s s')
    (hAdmits : ∀ s i, admits s i → C.admits s i) (hGuar : ∀ s s', C.guar s s' → guar s s')
    (hCut : ¬ C.mayCut) (hEnv : ∀ s s', env s s' → J s → J s')
    (hOwn : ∀ s s', C.guar s s' → J s → J s') {p : Proc σ ι ε α} {s : σ} {n : Nat} (hJ : J s)
    (h : wp C Q E p s) :
    wp (.timed env admits guar bound due) (fun a t => Q a t.1 ∧ J t.1 ∧ n ≤ t.2)
      (fun e t => E e t.1) p.clocked (s, n) := by
  induction p generalizing s n with
  | done a => exact ⟨h, hJ, Nat.le_refl n⟩
  | fail e => exact h
  | cut => exact absurd h hCut
  | act update next ih =>
    rintro ⟨s', n'⟩ ⟨hs, hn⟩ i ⟨hi, -⟩
    obtain rfl : n' = n := hn
    obtain ⟨hStep, hNext⟩ := h s' (hRely s s' hs) i (hAdmits s' i hi)
    refine ⟨hGuar _ _ hStep, ?_⟩
    have hJ' : J (update i s') := hOwn _ _ hStep (kept_by_others hEnv hs hJ)
    refine wp_mono (ih i s' hJ' hNext) ?_ (fun _ _ he => he)
    rintro a t ⟨hQ, hKept, hLe⟩
    exact ⟨hQ, hKept, Nat.le_of_succ_le hLe⟩

end Timed

/-! ## Infinite runs -/

/-- The process takes a step. -/
inductive OwnStep (admits : σ → ι → Prop) : Proc σ ι ε α × σ → Proc σ ι ε α × σ → Prop
  | own {update : ι → σ → σ} {next : ι → σ → Proc σ ι ε α} {s : σ} {i : ι}
      (h : admits s i) : OwnStep admits (act update next, s) (next i s, update i s)

def running : Proc σ ι ε α → Bool
  | act _ _ => true
  | _ => false

/-- A run that goes on for ever; where nobody steps, it repeats a configuration. The process gets
its turn as long as it has not ended. -/
structure FairRun (env : σ → σ → Prop) (admits : σ → ι → Prop) (p : Proc σ ι ε α) (s : σ)
    (c : Nat → Proc σ ι ε α × σ) : Prop where
  start : c 0 = (p, s)
  step : ∀ n, c (n + 1) = c n ∨ Step env admits (c n) (c (n + 1))
  fair : ∀ n, (c n).1.running = true → ∃ m, n ≤ m ∧ OwnStep admits (c m) (c (m + 1))

namespace FairRun

variable {env guar : σ → σ → Prop} {admits : σ → ι → Prop} {bound : Nat} {due : σ → Prop}
  {Q : α → σ × Nat → Prop} {E : ε → σ × Nat → Prop} {p : Proc σ ι ε α} {s : σ}
  {c : Nat → Proc σ ι ε α × σ}

variable (h : FairRun env admits p s c)
include h

theorem step_cases (n : Nat) :
    ((c (n + 1)).1 = (c n).1 ∧ ((c (n + 1)).2 = (c n).2 ∨ env (c n).2 (c (n + 1)).2)) ∨
      OwnStep admits (c n) (c (n + 1)) := by
  rcases h.step n with hSame | hStep
  · rw [hSame]
    exact .inl ⟨rfl, .inl rfl⟩
  · generalize c n = c₁ at hStep ⊢
    generalize c (n + 1) = c₂ at hStep ⊢
    cases hStep with
    | own h => exact .inr (.own h)
    | other h => exact .inl ⟨rfl, .inr h⟩

theorem next_step {n : Nat} (hRunning : (c n).1.running = true) :
    ∃ m, (c m).1 = (c n).1 ∧ OwnStep admits (c m) (c (m + 1)) := by
  obtain ⟨m, hm, hOwn⟩ := h.fair n hRunning
  obtain ⟨d, rfl⟩ := Nat.exists_eq_add_of_le hm
  clear hm
  induction d generalizing n with
  | zero => exact ⟨n, rfl, hOwn⟩
  | succ d ih =>
    rcases h.step_cases n with ⟨hSame, -⟩ | hFirst
    · rw [show n + (d + 1) = n + 1 + d by omega] at hOwn
      obtain ⟨m, hm, hNext⟩ := ih (hSame ▸ hRunning) hOwn
      exact ⟨m, hm.trans hSame, hNext⟩
    · exact ⟨n, rfl, hFirst⟩

/-- A process that gets its turn again and again ends. -/
theorem ends : ∃ n, (c n).1.running = false := by
  -- by induction on the process at hand, which its next step makes smaller
  have hFrom : ∀ (q : Proc σ ι ε α) n, (c n).1 = q → ∃ n, (c n).1.running = false := by
    intro q
    induction q with
    | done a => exact fun n hn => ⟨n, by rw [hn]; rfl⟩
    | fail e => exact fun n hn => ⟨n, by rw [hn]; rfl⟩
    | cut => exact fun n hn => ⟨n, by rw [hn]; rfl⟩
    | act update next ih =>
      intro n hn
      obtain ⟨m, hm, hOwn⟩ := h.next_step (n := n) (by rw [hn]; rfl)
      rw [hn] at hm
      generalize hc : c m = c₁ at hm hOwn
      generalize hc' : c (m + 1) = c₂ at hOwn
      cases hOwn with
      | @own update' next' s' i hi =>
        cases hm
        exact ih i s' (m + 1) (by rw [hc'])
  exact hFrom _ 0 rfl

/-- At every point of the run the rest of the process still meets its precondition, as of the
last state it saw, if something is due from `bound` on. -/
theorem wp_at (hDue : due (c bound).2)
    (hEnv : ∀ s s', env s s' → due s → due s') (hGuar : ∀ s s', guar s s' → due s → due s')
    (hwp : wp (.timed env admits guar bound due) Q E p.clocked (s, 0)) (n : Nat) :
    (bound ≤ n → due (c n).2) ∧ ∃ s₀ k, k ≤ n ∧ Relation.ReflTransGen env s₀ (c n).2 ∧
      wp (.timed env admits guar bound due) Q E (c n).1.clocked (s₀, k) := by
  induction n with
  | zero =>
    refine ⟨fun hBound => ?_, s, 0, Nat.le_refl 0, ?_, ?_⟩
    · rw [← Nat.le_zero.mp hBound]
      exact hDue
    · rw [h.start]
    · rw [h.start]
      exact hwp
  | succ n ih =>
    obtain ⟨hDueBefore, s₀, k, hk, hRely, hBefore⟩ := ih
    have hLast : (bound ≤ n → due (c (n + 1)).2) → bound ≤ n + 1 → due (c (n + 1)).2 := by
      intro hKept hBound
      rcases Nat.lt_or_eq_of_le hBound with hLess | rfl
      · exact hKept (Nat.lt_succ_iff.mp hLess)
      · exact hDue
    rcases h.step_cases n with ⟨hSame, hOther⟩ | hOwn
    · rw [hSame]
      refine ⟨hLast fun hBound => ?_, s₀, k, Nat.le_succ_of_le hk, ?_, hBefore⟩
      · rcases hOther with hEq | hStep
        · exact hEq ▸ hDueBefore hBound
        · exact hEnv _ _ hStep (hDueBefore hBound)
      · rcases hOther with hEq | hStep
        · exact hEq ▸ hRely
        · exact hRely.tail hStep
    · have hNow : k < bound ∨ due (c n).2 := by
        rcases Nat.lt_or_ge n bound with hLess | hBound
        · exact .inl (by omega)
        · exact .inr (hDueBefore hBound)
      generalize c n = c₁ at hOwn hRely hBefore hDueBefore hNow
      generalize hc : c (n + 1) = c₂ at hOwn hLast ⊢
      cases hOwn with
      | @own update next s' i hi =>
        obtain ⟨hStep, hNext⟩ := hBefore (s', k) ⟨hRely, rfl⟩ i ⟨hi, hNow⟩
        exact ⟨hLast fun hBound => hGuar _ _ hStep (hDueBefore hBound), _, k + 1,
          Nat.succ_le_succ hk, .refl, hNext⟩

/-- **A fair run of a process that may not fail ends with a result** of its postcondition. -/
theorem returns {R : α → Prop} {F : ε → σ → Prop}
    (hDue : due (c bound).2) (hEnv : ∀ s s', env s s' → due s → due s')
    (hGuar : ∀ s s', guar s s' → due s → due s')
    (hwp : wp (.timed env admits guar bound due) (fun a _ => R a) (fun e t => F e t.1)
      p.clocked (s, 0))
    (hFails : ∀ e n s₀, Relation.ReflTransGen env s₀ (c n).2 → ¬ F e s₀) :
    (∃ n a, (c n).1 = done a ∧ R a) ∧ ∀ n e, (c n).1 ≠ fail e := by
  have hNever : ∀ n e, (c n).1 ≠ fail e := by
    intro n e hFail
    obtain ⟨-, s₀, k, -, hRely, hAt⟩ := h.wp_at hDue hEnv hGuar hwp n
    rw [hFail] at hAt
    exact hFails e n s₀ hRely hAt
  refine ⟨?_, hNever⟩
  obtain ⟨n, hEnded⟩ := h.ends
  obtain ⟨-, s₀, k, -, -, hAt⟩ := h.wp_at hDue hEnv hGuar hwp n
  cases hc : (c n).1 with
  | done a =>
    rw [hc] at hAt
    exact ⟨n, a, hc, hAt⟩
  | fail e => exact absurd hc (hNever n e)
  | cut =>
    rw [hc] at hAt
    exact hAt.elim
  | act update next =>
    rw [hc] at hEnded
    cases hEnded

end FairRun

/-! ## The run along a script -/

section Along

variable {κ : Type} {env : σ → σ → Prop} {admits : σ → ι → Prop} {ok : σ → ι → Bool}
  {move : κ → σ → σ} {okMove : σ → κ → Bool} {script : List (ι ⊕ κ)} {c c' : Proc σ ι ε α × σ}

/-- The configurations along a script, the last one for ever. -/
def along (ok : σ → ι → Bool) (move : κ → σ → σ) (okMove : σ → κ → Bool) (script : List (ι ⊕ κ))
    (c : Proc σ ι ε α × σ) (n : Nat) : Proc σ ι ε α × σ :=
  (follow ok move okMove (script.take n) c).getD c

theorem along_of_le {n : Nat} (hn : script.length ≤ n) :
    along ok move okMove script c n = along ok move okMove script c script.length := by
  unfold along
  rw [List.take_of_length_le hn, List.take_length]

theorem follow_append (xs ys : List (ι ⊕ κ)) (c : Proc σ ι ε α × σ) :
    follow ok move okMove (xs ++ ys) c =
      (follow ok move okMove xs c).bind (follow ok move okMove ys) := by
  induction xs generalizing c with
  | nil => rfl
  | cons m xs ih =>
    obtain ⟨q, s⟩ := c
    cases m with
    | inl i =>
      cases q with
      | act update next =>
        simp only [List.cons_append, follow]
        split
        · exact ih _
        · rfl
      | _ => rfl
    | inr k =>
      simp only [List.cons_append, follow]
      split
      · exact ih _
      · rfl

theorem step_of_follow (hInputs : ∀ s i, ok s i = true → admits s i)
    (hMoves : ∀ s k, okMove s k = true → env s (move k s)) {m : ι ⊕ κ}
    (h : follow ok move okMove [m] c = some c') : Step env admits c c' := by
  obtain ⟨q, s⟩ := c
  cases m with
  | inl i =>
    cases q with
    | act update next =>
      simp only [follow] at h
      split at h
      · rename_i hOk
        cases h
        exact .own (hInputs s i hOk)
      · cases h
    | _ => cases h
  | inr k =>
    simp only [follow] at h
    split at h
    · rename_i hOk
      cases h
      exact .other (hMoves s k hOk)
    · cases h

theorem follow_take (h : follow ok move okMove script c = some c') (n : Nat) :
    follow ok move okMove (script.take n) c = some (along ok move okMove script c n) := by
  rw [← List.take_append_drop n script, follow_append] at h
  obtain ⟨cₙ, hTake, -⟩ := Option.bind_eq_some_iff.mp h
  rw [along, hTake]
  rfl

theorem fairRun_along (hInputs : ∀ s i, ok s i = true → admits s i)
    (hMoves : ∀ s k, okMove s k = true → env s (move k s)) {p : Proc σ ι ε α} {s : σ}
    (h : follow ok move okMove script (p, s) = some c') (hEnded : c'.1.running = false) :
    FairRun env admits p s (along ok move okMove script (p, s)) := by
  have hStep : ∀ n, along ok move okMove script (p, s) (n + 1) = along ok move okMove script (p, s) n ∨
      Step env admits (along ok move okMove script (p, s) n)
        (along ok move okMove script (p, s) (n + 1)) := by
    intro n
    by_cases hn : n < script.length
    · have hNext := follow_take h (n + 1)
      rw [List.take_succ_eq_append_getElem hn, follow_append, follow_take h n] at hNext
      exact .inr (step_of_follow hInputs hMoves hNext)
    · exact .inl ((along_of_le (by omega)).trans (along_of_le (by omega)).symm)
  refine ⟨by simp [along, follow], hStep, ?_⟩
  intro n hRunning
  apply Classical.byContradiction
  intro hNone
  have hSame : ∀ d, (along ok move okMove script (p, s) (n + d)).1 =
      (along ok move okMove script (p, s) n).1 := by
    intro d
    induction d with
    | zero => rfl
    | succ d ih =>
      rw [← ih]
      rcases hStep (n + d) with hStill | hMoved
      · rw [show n + (d + 1) = n + d + 1 from rfl, hStill]
      · rw [show n + (d + 1) = n + d + 1 from rfl]
        generalize hc₁ : along ok move okMove script (p, s) (n + d) = c₁ at hMoved ⊢
        generalize hc₂ : along ok move okMove script (p, s) (n + d + 1) = c₂ at hMoved ⊢
        cases hMoved with
        | own hi =>
          refine absurd ⟨n + d, Nat.le_add_right n d, ?_⟩ hNone
          rw [hc₁, hc₂]
          exact .own hi
        | other _ => rfl
  have hLast : along ok move okMove script (p, s) (n + script.length) = c' := by
    rw [along_of_le (Nat.le_add_left _ _), along, List.take_length, h]
    rfl
  have hEnd := hSame script.length
  rw [hLast] at hEnd
  rw [hEnd, hRunning] at hEnded
  cases hEnded

end Along

end Proc
