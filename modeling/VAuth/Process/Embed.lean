import VAuth.Process.Wp

/-!
# Processes inside a larger state

`embed` runs a process of a part of the state; the rest of the state may decide what the process
gets as its input. Other parties may step meanwhile, as long as they do to that part only what the
process relies on (`wp_embed`); with a lock they leave it alone. `mortal` is a process that can be
killed before each of its steps. A killed process does not clean up; what the system does in its
place is `death`.
-/

namespace Proc

variable {σ τ ι κ ε α : Type}

/-- Run a process of a part of the state, whose inputs may depend on the rest. -/
def embed (get : τ → σ) (set : σ → τ → τ) (view : κ → τ → ι) : Proc σ ι ε α → Proc τ κ ε α
  | done a => done a
  | fail e => fail e
  | cut => cut
  | act update next => act (fun j t => set (update (view j t) (get t)) t)
      fun j t => embed get set view (next (view j t) (get t))

/-- A process that may be killed before each of its steps. -/
def mortal (dies : ι → Bool) (death : σ → σ) : Proc σ ι ε α → Proc σ ι ε α
  | act update next => act (fun i s => if dies i then death s else update i s)
      fun i s => if dies i then cut else mortal dies death (next i s)
  | p => p

section Embed

variable {get : τ → σ} {set : σ → τ → τ} {view : κ → τ → ι} {p : Proc σ ι ε α}

theorem embed_ofExcept (r : Except ε α) : embed get set view (ofExcept r) = ofExcept r := by
  cases r <;> rfl

theorem embed_atomically (f : ι → σ → Except ε α × σ) :
    embed get set view (atomically f) = atomically fun j t =>
      ((f (view j t) (get t)).1, set (f (view j t) (get t)).2 t) := by
  unfold atomically embed
  simp only [embed_ofExcept]

theorem run_atomically (f : ι → σ → Except ε α × σ) (i : ι) (s : σ) :
    run [i] (atomically f) s = (ofExcept (f i s).1, (f i s).2) := by
  show run [] (ofExcept (f i s).1) (f i s).2 = _
  rw [run_nil]

/-- A process whose steps change nothing changes nothing in a larger state. -/
theorem moves_embed (hp : Moves (fun s s' => s' = s) p) (hSet : ∀ t, set (get t) t = t) :
    Moves (fun t t' => t' = t) (embed get set view p) := by
  induction p with
  | done a => trivial
  | fail e => trivial
  | cut => trivial
  | act update next ih =>
    intro j t
    obtain ⟨hSame, hNext⟩ := hp (view j t) (get t)
    refine ⟨?_, ih _ _ hNext⟩
    show set (update (view j t) (get t)) t = t
    rw [hSame]
    exact hSet t

theorem maintains_of_moves {C : Setting σ ι} {J : σ → Prop} (hp : Moves (fun s s' => s' = s) p)
    (hOthers : C.Tolerates J) (hGuar : ∀ s, J s → C.guar s s) (hCut : C.mayCut) :
    Maintains C J p := by
  induction p with
  | done a => exact fun _ h => h
  | fail e => exact fun _ h => h
  | cut => exact fun _ _ => hCut
  | act update next ih =>
    intro s hJ s' hRely i _
    obtain ⟨hSame, hNext⟩ := hp i s'
    have hJ' := hOthers s s' hRely hJ
    rw [hSame]
    exact ⟨hGuar s' hJ', ih i s' hNext s' hJ'⟩

/-- A process does inside a larger state what it does on its part, as long as the others do to that
part only what it relies on. `J` says when they do. -/
theorem wp_embed {C : Setting σ ι} {D : Setting τ κ} {J : τ → Prop} {Q : α → σ → Prop}
    {E : ε → σ → Prop} {t : τ} (hRely : ∀ t u, J t → D.rely t u → C.rely (get t) (get u) ∧ J u)
    (hAdmits : ∀ t j, J t → D.admits t j → C.admits (get t) (view j t))
    (hStep : ∀ t s, J t → C.guar (get t) s → get (set s t) = s ∧ J (set s t) ∧ D.guar t (set s t))
    (hCut : C.mayCut → D.mayCut) (hJ : J t) (h : wp C Q E p (get t)) :
    wp D (fun a u => Q a (get u) ∧ J u) (fun e u => E e (get u) ∧ J u)
      (embed get set view p) t := by
  induction p generalizing t with
  | done a => exact ⟨h, hJ⟩
  | fail e => exact ⟨h, hJ⟩
  | cut => exact hCut h
  | act update next ih =>
    intro u hu j hj
    obtain ⟨hRely', hJ'⟩ := hRely t u hJ hu
    obtain ⟨hGuar, hNext⟩ := h (get u) hRely' (view j u) (hAdmits u j hJ' hj)
    obtain ⟨hGet, hJ'', hGuar'⟩ := hStep u _ hJ' hGuar
    refine ⟨hGuar', ih _ _ hJ'' ?_⟩
    rw [hGet]
    exact hNext

/-- Where nobody else steps, the rest of the state stays as it is. -/
theorem wp_embed_alone {admits : ι → Prop} {admits' : κ → Prop} {Q : α → σ → Prop}
    {E : ε → σ → Prop} {t : τ} (hGet : ∀ s t, get (set s t) = s)
    (hSet : ∀ s s' t, set s' (set s t) = set s' t) (hSelf : set (get t) t = t)
    (hAdmits : ∀ j t, admits' j → admits (view j t))
    (h : wp (.alone admits fun _ => True) Q E p (get t)) :
    wp (.alone admits' fun _ => True) (fun a u => ∃ s, Q a s ∧ u = set s t)
      (fun e u => ∃ s, E e s ∧ u = set s t) (embed get set view p) t := by
  refine wp_mono (wp_embed (J := fun u => ∃ s, u = set s t) (fun _ _ hJ hRely => ?_)
    (fun u j _ hj => hAdmits j u hj) ?_ id ⟨get t, hSelf.symm⟩ h) ?_ ?_
  · cases hRely
    exact ⟨rfl, hJ⟩
  · rintro _ s ⟨s', rfl⟩ _
    rw [hSet]
    exact ⟨hGet s t, ⟨s, rfl⟩, trivial⟩
  · rintro a _ ⟨hQ, s, rfl⟩
    rw [hGet] at hQ
    exact ⟨s, hQ, rfl⟩
  · rintro e _ ⟨hE, s, rfl⟩
    rw [hGet] at hE
    exact ⟨s, hE, rfl⟩

end Embed

/-- A process that promises its death at any time promises what it does until then. -/
theorem wp_mortal {dies : ι → Bool} {death : σ → σ} {C : Setting σ ι} {Q : α → σ → Prop}
    {E : ε → σ → Prop} {p : Proc σ ι ε α} {s : σ} (hDeath : ∀ s, C.guar s (death s))
    (hCut : C.mayCut) (h : wp C Q E p s) : wp C Q E (mortal dies death p) s := by
  induction p generalizing s with
  | done a => exact h
  | fail e => exact h
  | cut => exact h
  | act update next ih =>
    intro s' hs i hi
    obtain ⟨hGuar, hNext⟩ := h s' hs i hi
    cases hDies : dies i with
    | true => simpa only [hDies, if_true, wp_cut] using ⟨hDeath s', hCut⟩
    | false => simpa only [hDies, Bool.false_eq_true, if_false] using ⟨hGuar, ih i s' hNext⟩

/-- A process that is not killed. -/
theorem wp_mortal_alive {dies : ι → Bool} {death : σ → σ} {C : Setting σ ι} {Q : α → σ → Prop}
    {E : ε → σ → Prop} {p : Proc σ ι ε α} {s : σ} (hAlive : ∀ s i, C.admits s i → dies i = false)
    (h : wp C Q E p s) : wp C Q E (mortal dies death p) s := by
  induction p generalizing s with
  | done a => exact h
  | fail e => exact h
  | cut => exact h
  | act update next ih =>
    intro s' hs i hi
    obtain ⟨hGuar, hNext⟩ := h s' hs i hi
    simpa only [hAlive s' i hi, Bool.false_eq_true, if_false] using ⟨hGuar, ih i s' hNext⟩

end Proc
