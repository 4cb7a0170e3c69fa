import VAuth.Process.Basic

/-!
# Two runs on the same inputs

`Lockstep` relates two processes that take the same inputs, one by one: their states stay related
by `R`, and they end together, with results as `Q` says or with exceptions as `E` says. Neither is
cut. It is to two runs what the weakest precondition is to one.
-/

namespace Proc

variable {σ τ ι ε α α' β β' : Type}

/-- The two processes do as `R`, `Q` and `E` say, on all admitted inputs. -/
inductive Lockstep (admits : ι → Prop) (R : σ → τ → Prop) (Q : α → σ → α' → τ → Prop)
    (E : ε → σ → ε → τ → Prop) : Proc σ ι ε α → σ → Proc τ ι ε α' → τ → Prop
  | done {a : α} {s : σ} {a' : α'} {t : τ} (h : Q a s a' t) :
      Lockstep admits R Q E (.done a) s (.done a') t
  | fail {e e' : ε} {s : σ} {t : τ} (h : E e s e' t) :
      Lockstep admits R Q E (.fail e) s (.fail e') t
  | act {update : ι → σ → σ} {next : ι → σ → Proc σ ι ε α} {update' : ι → τ → τ}
      {next' : ι → τ → Proc τ ι ε α'} {s : σ} {t : τ}
      (hR : ∀ i, admits i → R (update i s) (update' i t))
      (hNext : ∀ i, admits i →
        Lockstep admits R Q E (next i s) (update i s) (next' i t) (update' i t)) :
      Lockstep admits R Q E (.act update next) s (.act update' next') t

/-- The two runs cannot be told apart by their results, and their states are related. -/
def Alike (R : σ → τ → Prop) (a : α) (s : σ) (a' : α) (t : τ) : Prop := a = a' ∧ R s t

variable {admits : ι → Prop} {R : σ → τ → Prop} {Q : α → σ → α' → τ → Prop}
  {E : ε → σ → ε → τ → Prop} {p : Proc σ ι ε α} {p' : Proc τ ι ε α'} {s : σ} {t : τ}

theorem lockstep_mono {Q' : α → σ → α' → τ → Prop} {E' : ε → σ → ε → τ → Prop}
    (h : Lockstep admits R Q E p s p' t) (hQ : ∀ a s a' t, Q a s a' t → Q' a s a' t)
    (hE : ∀ e s e' t, E e s e' t → E' e s e' t) : Lockstep admits R Q' E' p s p' t := by
  induction h with
  | done h => exact .done (hQ _ _ _ _ h)
  | fail h => exact .fail (hE _ _ _ _ h)
  | act hR _ ih => exact .act hR ih

theorem lockstep_bind {Q : β → σ → β' → τ → Prop} {f : α → Proc σ ι ε β} {f' : α' → Proc τ ι ε β'}
    (h : Lockstep admits R (fun a s a' t => Lockstep admits R Q E (f a) s (f' a') t) E p s p' t) :
    Lockstep admits R Q E (p >>= f) s (p' >>= f') t := by
  induction h with
  | done h => exact h
  | fail h => exact .fail h
  | act hR _ ih => exact .act hR ih

theorem lockstep_tryCatch {f : ε → Proc σ ι ε α} {f' : ε → Proc τ ι ε α'}
    (h : Lockstep admits R Q (fun e s e' t => Lockstep admits R Q E (f e) s (f' e') t) p s p' t) :
    Lockstep admits R Q E (tryCatch p f) s (tryCatch p' f') t := by
  induction h with
  | done h => exact .done h
  | fail h => exact h
  | act hR _ ih => exact .act hR ih

theorem lockstep_alike_bind {Q : β → σ → β' → τ → Prop} {p' : Proc τ ι ε α}
    {f : α → Proc σ ι ε β} {f' : α → Proc τ ι ε β'}
    (h : Lockstep admits R (Alike R) (Alike R) p s p' t)
    (hNext : ∀ a s t, R s t → Lockstep admits R Q (Alike R) (f a) s (f' a) t) :
    Lockstep admits R Q (Alike R) (p >>= f) s (p' >>= f') t := by
  refine lockstep_bind (lockstep_mono h ?_ fun _ _ _ _ h => h)
  rintro a s _ t ⟨rfl, hR⟩
  exact hNext a s t hR

/-- Results that are both values or both exceptions. -/
theorem lockstep_ofExcept {result : Except ε α} {result' : Except ε α'}
    (h : (∃ a a', result = .ok a ∧ result' = .ok a' ∧ Q a s a' t) ∨
      ∃ e e', result = .error e ∧ result' = .error e' ∧ E e s e' t) :
    Lockstep admits R Q E (ofExcept result) s (ofExcept result') t := by
  rcases h with ⟨a, a', rfl, rfl, h⟩ | ⟨e, e', rfl, rfl, h⟩
  · exact .done h
  · exact .fail h

variable {f : ι → σ → Except ε α × σ}

theorem lockstep_atomically {f' : ι → τ → Except ε α' × τ}
    (h : ∀ i, admits i → R (f i s).2 (f' i t).2 ∧
      ((∃ a a', (f i s).1 = .ok a ∧ (f' i t).1 = .ok a' ∧ Q a (f i s).2 a' (f' i t).2) ∨
        ∃ e e', (f i s).1 = .error e ∧ (f' i t).1 = .error e' ∧ E e (f i s).2 e' (f' i t).2)) :
    Lockstep admits R Q E (atomically f) s (atomically f') t :=
  .act (fun i hi => (h i hi).1) fun i hi => lockstep_ofExcept (h i hi).2

theorem alike_ofExcept (hR : R s t) (result : Except ε α) :
    Lockstep admits R (Alike R) (Alike R) (ofExcept result) s (ofExcept result) t := by
  cases result with
  | ok a => exact .done ⟨rfl, hR⟩
  | error e => exact .fail ⟨rfl, hR⟩

/-- Steps that give the same result. -/
theorem alike_atomically {f' : ι → τ → Except ε α × τ}
    (h : ∀ i, admits i → (f' i t).1 = (f i s).1 ∧ R (f i s).2 (f' i t).2) :
    Lockstep admits R (Alike R) (Alike R) (atomically f) s (atomically f') t := by
  refine .act (fun i hi => (h i hi).2) fun i hi => ?_
  simp only [(h i hi).1]
  exact alike_ofExcept (h i hi).2 _

theorem alike_observe {f : ι → σ → Except ε α} {f' : ι → τ → Except ε α} (hR : R s t)
    (h : ∀ i, admits i → f' i t = f i s) :
    Lockstep admits R (Alike R) (Alike R) (observe f) s (observe f') t :=
  alike_atomically fun i hi => ⟨h i hi, hR⟩

theorem alike_modify {f : σ → σ} {f' : τ → τ} (hR : R (f s) (f' t)) :
    Lockstep admits R (Alike R) (Alike R) (modify f : Proc σ ι ε Unit) s (modify f') t :=
  alike_atomically fun _ _ => ⟨rfl, hR⟩

theorem lockstep_run (h : Lockstep admits R Q E p s p' t) (hR : R s t) (is : List ι)
    (hInputs : ∀ i ∈ is, admits i) :
    R (run is p s).2 (run is p' t).2 ∧
      Lockstep admits R Q E (run is p s).1 (run is p s).2 (run is p' t).1 (run is p' t).2 := by
  induction is generalizing p p' s t with
  | nil =>
    rw [run_nil, run_nil]
    exact ⟨hR, h⟩
  | cons i is ih =>
    cases h with
    | done h => exact ⟨hR, .done h⟩
    | fail h => exact ⟨hR, .fail h⟩
    | act hStep hNext =>
      have hi := hInputs i List.mem_cons_self
      exact ih (hNext i hi) (hStep i hi) fun j hj => hInputs j (List.mem_cons_of_mem i hj)

/-- Runs that are alike have ended in the same way, or not at all. -/
theorem Lockstep.outcome_eq {p' : Proc τ ι ε α}
    (h : Lockstep admits R (Alike R) (Alike R) p s p' t) : p.outcome? = p'.outcome? := by
  cases h with
  | done h =>
    obtain ⟨rfl, -⟩ := h
    rfl
  | fail h =>
    obtain ⟨rfl, -⟩ := h
    rfl
  | act _ _ => rfl

theorem lockstep_run_stream (h : Lockstep admits R Q E p s p' t) (stream : Nat → ι)
    (hStream : ∀ n, admits (stream n)) :
    ∃ n, (run ((List.range n).map stream) p s).1.outcome?.isSome := by
  induction h generalizing stream with
  | done h => exact ⟨0, rfl⟩
  | fail h => exact ⟨0, rfl⟩
  | act hR _ ih =>
    obtain ⟨n, hEnd⟩ := ih (stream 0) (hStream 0) (fun n => stream (n + 1)) fun n => hStream (n + 1)
    refine ⟨n + 1, ?_⟩
    rw [List.range_succ_eq_map, List.map_cons, List.map_map]
    exact hEnd

end Proc
