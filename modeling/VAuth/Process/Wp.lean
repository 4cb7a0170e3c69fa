import VAuth.Process.Basic

/-!
# Weakest preconditions under interference

`wp C Q E p s`: started in `s`, the process `p` ends only in results and states of `Q`
or in exceptions and states of `E`, and every step it takes on the way is one that the
setting `C` guarantees. The setting also says what may happen meanwhile: which changes
other parties make between two steps (`rely`), which inputs the environment chooses
(`admits`), and whether a run may be given up inside a loop (`mayCut`); a process that
may not be cut does end on every stream of inputs (`wp_run_stream`).

The rules follow the constructors of a process (`wp_bind`, `wp_tryCatch`, `wp_loop`,
`wp_zoom`), so that one lemma about a modelled function is enough for its callers. A
process run by a single party is the case `rely := Eq`; there `wp` computes.
-/

namespace Proc

variable {σ τ ι κ ε α β : Type}

/-- What a process may count on and what it promises, step by step. -/
structure Setting (σ ι : Type) where
  rely : σ → σ → Prop
  admits : σ → ι → Prop
  guar : σ → σ → Prop
  mayCut : Prop

/-- A single party on the admitted inputs, with an invariant of the states it passes
through. -/
def Setting.alone (admits : ι → Prop) (inv : σ → Prop) : Setting σ ι where
  rely := Eq
  admits := fun _ i => admits i
  guar := fun _ s' => inv s'
  mayCut := False

def wp (C : Setting σ ι) (Q : α → σ → Prop) (E : ε → σ → Prop) : Proc σ ι ε α → σ → Prop
  | done a, s => Q a s
  | fail e, s => E e s
  | cut, _ => C.mayCut
  | act update next, s => ∀ s', C.rely s s' → ∀ i, C.admits s' i →
      C.guar s' (update i s') ∧ wp C Q E (next i s') (update i s')

variable {C : Setting σ ι} {Q Q' : α → σ → Prop} {E E' : ε → σ → Prop}
  {p : Proc σ ι ε α} {s : σ}

@[simp] theorem wp_done (a : α) : wp C Q E (done a) s ↔ Q a s := Iff.rfl

@[simp] theorem wp_fail (e : ε) : wp C Q E (fail e) s ↔ E e s := Iff.rfl

@[simp] theorem wp_cut : wp C Q E (cut : Proc σ ι ε α) s ↔ C.mayCut := Iff.rfl

theorem wp_mono (h : wp C Q E p s) (hQ : ∀ a s, Q a s → Q' a s) (hE : ∀ e s, E e s → E' e s) :
    wp C Q' E' p s := by
  induction p generalizing s with
  | done a => exact hQ a s h
  | fail e => exact hE e s h
  | cut => exact h
  | act update next ih =>
    intro s' hs i hi
    exact ⟨(h s' hs i hi).1, ih i s' (h s' hs i hi).2⟩

/-- Where everything is promised, nothing has to be known of a process. -/
theorem wp_trivial (hGuar : ∀ s s', C.guar s s') (hCut : C.mayCut) :
    wp C (fun _ _ => True) (fun _ _ => True) p s := by
  induction p generalizing s with
  | done a => trivial
  | fail e => trivial
  | cut => exact hCut
  | act update next ih =>
    intro s' _ i _
    exact ⟨hGuar _ _, ih i s'⟩

/-- Two things known of a process, together. -/
theorem wp_and {C₁ C₂ : Setting σ ι} {Q₁ Q₂ : α → σ → Prop} {E₁ E₂ : ε → σ → Prop}
    (h₁ : wp C₁ Q₁ E₁ p s) (h₂ : wp C₂ Q₂ E₂ p s)
    (hRely : ∀ s s', C.rely s s' → C₁.rely s s' ∧ C₂.rely s s')
    (hAdmits : ∀ s i, C.admits s i → C₁.admits s i ∧ C₂.admits s i)
    (hGuar : ∀ s s', C₁.guar s s' → C₂.guar s s' → C.guar s s') (hCut : C₁.mayCut → C.mayCut) :
    wp C (fun a s => Q₁ a s ∧ Q₂ a s) (fun e s => E₁ e s ∧ E₂ e s) p s := by
  induction p generalizing s with
  | done a => exact ⟨h₁, h₂⟩
  | fail e => exact ⟨h₁, h₂⟩
  | cut => exact hCut h₁
  | act update next ih =>
    intro s' hs i hi
    have hFirst := h₁ s' (hRely s s' hs).1 i (hAdmits s' i hi).1
    have hSecond := h₂ s' (hRely s s' hs).2 i (hAdmits s' i hi).2
    exact ⟨hGuar _ _ hFirst.1 hSecond.1, ih i s' hFirst.2 hSecond.2⟩

theorem wp_bind {f : α → Proc σ ι ε β} {Q : β → σ → Prop} :
    wp C Q E (p.bind f) s ↔ wp C (fun a s => wp C Q E (f a) s) E p s := by
  induction p generalizing s with
  | done a => exact Iff.rfl
  | fail e => exact Iff.rfl
  | cut => exact Iff.rfl
  | act update next ih =>
    simp only [Proc.bind, wp, ih]

/-- The rule for `p`, then for what follows it. -/
theorem wp_seq {f : α → Proc σ ι ε β} {Q' : β → σ → Prop} (h : wp C Q E p s)
    (hQ : ∀ a s, Q a s → wp C Q' E' (f a) s) (hE : ∀ e s, E e s → E' e s) :
    wp C Q' E' (p.bind f) s :=
  wp_bind.mpr (wp_mono h hQ hE)

theorem wp_seq_any {f : α → Proc σ ι ε β} {Q' : β → σ → Prop} (h : wp C Q E p s)
    (hQ : ∀ a s, Q a s → wp C Q' (fun _ _ => True) (f a) s) :
    wp C Q' (fun _ _ => True) (p.bind f) s :=
  wp_seq h hQ (fun _ _ _ => trivial)

theorem wp_tryCatch {handler : ε → Proc σ ι ε α} :
    wp C Q E (p.tryCatch handler) s ↔ wp C Q (fun e s => wp C Q E (handler e) s) p s := by
  induction p generalizing s with
  | done a => exact Iff.rfl
  | fail e => exact Iff.rfl
  | cut => exact Iff.rfl
  | act update next ih =>
    simp only [Proc.tryCatch, wp, ih]

theorem wp_attempt {Q : Except ε α → σ → Prop} :
    wp C Q E p.attempt s ↔ wp C (fun a => Q (.ok a)) (fun e => Q (.error e)) p s := by
  simp only [attempt, wp_tryCatch, wp_bind, wp_done]

theorem wp_ofExcept {r : Except ε α} :
    wp C Q E (ofExcept r) s ↔ (∀ a, r = .ok a → Q a s) ∧ (∀ e, r = .error e → E e s) := by
  cases r <;> simp [ofExcept]

variable {f : ι → σ → Except ε α × σ} {view : σ → τ} {I : τ → Prop}

/-- The rule for one atomic step. -/
theorem wp_atomically : wp C Q E (atomically f) s ↔ ∀ s', C.rely s s' → ∀ i, C.admits s' i →
      C.guar s' (f i s').2 ∧ (∀ a, (f i s').1 = .ok a → Q a (f i s').2) ∧
        (∀ e, (f i s').1 = .error e → E e (f i s').2) := by
  simp only [atomically, wp, wp_ofExcept]

/-- What is known of the results of an atomic step, whatever is known of the states. -/
theorem wp_atomically_result {R : α → Prop} (h : wp C Q E (atomically f) s)
    (hR : ∀ i s a, (f i s).1 = .ok a → R a) :
    wp C (fun a s' => Q a s' ∧ R a) E (atomically f) s := by
  rw [wp_atomically] at h ⊢
  intro s' hs i hi
  obtain ⟨hGuar, hQ, hE⟩ := h s' hs i hi
  exact ⟨hGuar, fun a ha => ⟨hQ a ha, hR i s' a ha⟩, hE⟩

/-- The rule for loops: an invariant of the loop state that every round keeps. -/
theorem wp_loop {body : β → Proc σ ι ε (β ⊕ α)} (inv : β → σ → Prop) (hCut : C.mayCut)
    (hBody : ∀ b s, inv b s →
      wp C (fun r s => r.elim (fun b' => inv b' s) (fun a => Q a s)) E (body b) s)
    (rounds : Nat) {b : β} (h : inv b s) : wp C Q E (loop body rounds b) s := by
  induction rounds generalizing b s with
  | zero => exact hCut
  | succ rounds ih =>
    rw [loop, wp_bind]
    refine wp_mono (hBody b s h) ?_ (fun _ _ he => he)
    rintro (b' | a) s' hr
    · exact ih hr
    · exact hr

/-! ## Processes that maintain a property -/

/-- Whatever the process does, it ends with `I` if it starts with it. -/
def Maintains (C : Setting σ ι) (I : σ → Prop) (p : Proc σ ι ε α) : Prop :=
  ∀ s, I s → wp C (fun _ => I) (fun _ => I) p s

section Maintains

variable {I : σ → Prop}

theorem maintains_done (a : α) : Maintains C I (done a : Proc σ ι ε α) := fun _ h => h

theorem maintains_bind {f : α → Proc σ ι ε β} (hp : Maintains C I p) (hf : ∀ a, Maintains C I (f a)) :
    Maintains C I (p.bind f) :=
  fun s h => wp_seq (hp s h) (fun a s' => hf a s') (fun _ _ h => h)

theorem maintains_tryCatch {handler : ε → Proc σ ι ε α} (hp : Maintains C I p)
    (hHandler : ∀ e, Maintains C I (handler e)) : Maintains C I (p.tryCatch handler) :=
  fun s h => wp_tryCatch.mpr (wp_mono (hp s h) (fun _ _ h => h) (fun e s' => hHandler e s'))

theorem maintains_loop {body : β → Proc σ ι ε (β ⊕ α)} (hCut : C.mayCut)
    (hBody : ∀ b, Maintains C I (body b)) (rounds : Nat) (b : β) :
    Maintains C I (loop body rounds b) := by
  intro s h
  refine wp_loop (fun _ => I) hCut (fun b s' h' => ?_) rounds h
  refine wp_mono (hBody b s' h') ?_ (fun _ _ h => h)
  rintro (b' | a) _ h
  · exact h
  · exact h

end Maintains

/-- A process of a part of the state, when nobody touches the whole: it does what it does
alone, and the rest of the state stays as it was. -/
theorem wp_zoom {get : τ → σ} {set : σ → τ → τ} {view : κ → ι} {D : Setting τ κ} {t : τ}
    (hGet : ∀ s, get (set s t) = s) (hSet : ∀ s s', set s' (set s t) = set s' t)
    (hRely : ∀ s u, D.rely (set s t) u → u = set s t) (hRefl : ∀ s, C.rely s s)
    (hAdmits : ∀ u j, D.admits u j → C.admits (get u) (view j))
    (hGuar : ∀ s s', C.guar s s' → D.guar (set s t) (set s' t)) (hCut : C.mayCut → D.mayCut)
    (h : wp C Q E p s) :
    wp D (fun a u => ∃ s', Q a s' ∧ u = set s' t) (fun e u => ∃ s', E e s' ∧ u = set s' t)
      (zoom get set view p) (set s t) := by
  induction p generalizing s with
  | done a => exact ⟨s, h, rfl⟩
  | fail e => exact ⟨s, h, rfl⟩
  | cut => exact hCut h
  | act update next ih =>
    intro u hu j hj
    obtain rfl := hRely _ _ hu
    have hj' := hAdmits _ j hj
    rw [hGet] at hj'
    obtain ⟨hStep, hNext⟩ := h s (hRefl s) (view j) hj'
    simp only [hGet, hSet]
    exact ⟨hGuar _ _ hStep, ih (view j) s hNext⟩

/-! ## Interference that leaves a view alone

The rules of a setting in which the other parties do not change what `view` shows, and the
promised steps are those that end in `I`. With `view := id` nobody interferes. -/

/-- The others leave the view alone, and a step that ends in `I` is a promised one. -/
structure Setting.Shows (C : Setting σ ι) (view : σ → τ) (I : τ → Prop) : Prop where
  rely : ∀ s s', C.rely s s' → view s' = view s
  guar : ∀ s s', I (view s') → C.guar s s'

theorem Setting.Shows.mono {J : τ → Prop} (hC : C.Shows view J) (h : ∀ t, I t → J t) :
    C.Shows view I where
  rely := hC.rely
  guar := fun s s' hs => hC.guar s s' (h _ hs)

theorem wp_shows_atomically (hC : C.Shows view I)
    (h : ∀ s' i, view s' = view s → C.admits s' i → I (view (f i s').2) ∧
      (∀ a, (f i s').1 = .ok a → Q a (f i s').2) ∧
      (∀ e, (f i s').1 = .error e → E e (f i s').2)) : wp C Q E (atomically f) s := by
  rw [wp_atomically]
  intro s' hs i hi
  obtain ⟨hI, hQ, hE⟩ := h s' i (hC.rely s s' hs) hi
  exact ⟨hC.guar _ _ hI, hQ, hE⟩

theorem wp_shows_observe (hC : C.Shows view I) {f : ι → σ → Except ε α} (hI : I (view s))
    (h : ∀ s' i, view s' = view s → C.admits s' i → (∀ a, f i s' = .ok a → Q a s') ∧
      (∀ e, f i s' = .error e → E e s')) : wp C Q E (observe f) s :=
  wp_shows_atomically hC fun s' i hs hi => ⟨show I (view s') from hs ▸ hI, h s' i hs hi⟩

/-- A process that never changes the view. -/
def Still (view : σ → τ) : Proc σ ι ε α → Prop
  | done _ => True
  | fail _ => True
  | cut => False
  | act update next => ∀ i s, view (update i s) = view s ∧ Still view (next i s)

section Still

variable {view : σ → τ}

theorem still_bind {f : α → Proc σ ι ε β} (hp : Still view p) (hf : ∀ a, Still view (f a)) :
    Still view (p.bind f) := by
  induction p with
  | done a => exact hf a
  | fail e => trivial
  | cut => exact hp
  | act update next ih => exact fun i s => ⟨(hp i s).1, ih i s (hp i s).2⟩

theorem still_tryCatch {handler : ε → Proc σ ι ε α} (hp : Still view p)
    (hHandler : ∀ e, Still view (handler e)) : Still view (p.tryCatch handler) := by
  induction p with
  | done a => trivial
  | fail e => exact hHandler e
  | cut => exact hp
  | act update next ih => exact fun i s => ⟨(hp i s).1, ih i s (hp i s).2⟩

theorem still_ofExcept (r : Except ε α) : Still view (ofExcept r : Proc σ ι ε α) := by
  cases r <;> trivial

theorem still_atomically {f : ι → σ → Except ε α × σ} (h : ∀ i s, view (f i s).2 = view s) :
    Still view (atomically f) :=
  fun i s => ⟨h i s, still_ofExcept _⟩

variable {I : τ → Prop}

theorem wp_still {t : τ} (hC : C.Shows view I) (hI : I t) (hp : Still view p) (hs : view s = t) :
    wp C (fun _ s' => view s' = t) (fun _ s' => view s' = t) p s := by
  induction p generalizing s with
  | done a => exact hs
  | fail e => exact hs
  | cut => exact hp.elim
  | act update next ih =>
    intro s' hRely i hi
    have hStep : view (update i s') = t := ((hp i s').1.trans (hC.rely s s' hRely)).trans hs
    exact ⟨hC.guar _ _ (hStep ▸ hI), ih i s' (hp i s').2 hStep⟩

theorem maintains_of_still (hC : C.Shows view I) (hp : Still view p) :
    Maintains C (fun s => I (view s)) p := fun _ hs =>
  wp_mono (wp_still hC hs hp rfl) (fun _ _ h => h ▸ hs) (fun _ _ h => h ▸ hs)

/-- Past a process that does not change the view. -/
theorem wp_still_bind {t : τ} {f : α → Proc σ ι ε β} {Q : β → σ → Prop} (hC : C.Shows view I)
    (hI : I t) (hp : Still view p) (hs : view s = t) (hE : ∀ e s', view s' = t → E e s')
    (hf : ∀ a s', view s' = t → wp C Q E (f a) s') : wp C Q E (p.bind f) s :=
  wp_seq (wp_still hC hI hp hs) hf hE

end Still

/-- Nobody else steps, and a step that ends in `I` is a promised one. -/
abbrev Setting.Keeps (C : Setting σ ι) (I : σ → Prop) : Prop := C.Shows id I

theorem Setting.Keeps.shows (hC : C.Keeps fun s => I (view s)) : C.Shows view I where
  rely := fun s s' h => congrArg view (hC.rely s s' h)
  guar := hC.guar

section Keeps

variable {I : σ → Prop} (hC : C.Keeps I)
include hC

theorem wp_keeps_atomically {f : ι → σ → Except ε α × σ}
    (h : ∀ i, C.admits s i → I (f i s).2 ∧ (∀ a, (f i s).1 = .ok a → Q a (f i s).2) ∧
      (∀ e, (f i s).1 = .error e → E e (f i s).2)) : wp C Q E (atomically f) s := by
  refine wp_shows_atomically hC fun s' i hs hi => ?_
  obtain rfl : s' = s := hs
  exact h i hi

theorem wp_keeps_observe {f : ι → σ → Except ε α} (hI : I s)
    (h : ∀ i, C.admits s i → (∀ a, f i s = .ok a → Q a s) ∧ (∀ e, f i s = .error e → E e s)) :
    wp C Q E (observe f) s :=
  wp_keeps_atomically hC fun i hi => ⟨hI, h i hi⟩

theorem wp_keeps_read {f : σ → α} (hI : I s) (h : Q (f s) s) : wp C Q E (read f) s := by
  refine wp_keeps_observe hC hI fun i hi => ⟨?_, ?_⟩
  · rintro a ⟨⟩
    exact h
  · rintro e ⟨⟩

theorem wp_keeps_modify {f : σ → σ} {Q : Unit → σ → Prop} (hI : I (f s)) (h : Q () (f s)) :
    wp C Q E (modify f) s := by
  refine wp_keeps_atomically hC fun i hi => ⟨hI, ?_, ?_⟩
  · rintro a ⟨⟩
    exact h
  · rintro e ⟨⟩

end Keeps

/-! ## Interference that keeps an assertion -/

/-- The others keep `J`. -/
def Setting.Tolerates (C : Setting σ ι) (J : σ → Prop) : Prop := ∀ s s', C.rely s s' → J s → J s'

theorem wp_tolerant_atomically {J : σ → Prop} (hC : C.Tolerates J) (hJ : J s)
    (h : ∀ s' i, J s' → C.admits s' i → C.guar s' (f i s').2 ∧
      (∀ a, (f i s').1 = .ok a → Q a (f i s').2) ∧
      (∀ e, (f i s').1 = .error e → E e (f i s').2)) : wp C Q E (atomically f) s := by
  rw [wp_atomically]
  intro s' hs i hi
  exact h s' i (hC s s' hs hJ) hi

/-! ## Processes whose steps are of one kind -/

/-- Every step the process can take, from any state, is one of `G`. -/
def Moves (G : σ → σ → Prop) : Proc σ ι ε α → Prop
  | done _ => True
  | fail _ => True
  | cut => True
  | act update next => ∀ i s, G s (update i s) ∧ Moves G (next i s)

section Moves

variable {G : σ → σ → Prop}

theorem moves_ofExcept (r : Except ε α) : Moves G (ofExcept r : Proc σ ι ε α) := by
  cases r <;> trivial

theorem moves_atomically {f : ι → σ → Except ε α × σ} (h : ∀ i s, G s (f i s).2) :
    Moves G (atomically f) :=
  fun i s => ⟨h i s, moves_ofExcept _⟩

theorem moves_bind {f : α → Proc σ ι ε β} (hp : Moves G p) (hf : ∀ a, Moves G (f a)) :
    Moves G (p.bind f) := by
  induction p with
  | done a => exact hf a
  | fail e => trivial
  | cut => trivial
  | act update next ih => exact fun i s => ⟨(hp i s).1, ih i s (hp i s).2⟩

theorem moves_loop {body : β → Proc σ ι ε (β ⊕ α)} (hBody : ∀ b, Moves G (body b))
    (rounds : Nat) (b : β) : Moves G (loop body rounds b) := by
  induction rounds generalizing b with
  | zero => trivial
  | succ rounds ih =>
    refine moves_bind (hBody b) ?_
    rintro (b' | a)
    · exact ih b'
    · trivial

theorem maintains_zoom_moves {get : τ → σ} {set : σ → τ → τ} {view : κ → ι} {D : Setting τ κ}
    {J : τ → Prop} (hp : Moves G p) (hOthers : D.Tolerates J)
    (hStep : ∀ t s', J t → G (get t) s' → D.guar t (set s' t) ∧ J (set s' t)) (hCut : D.mayCut) :
    Maintains D J (zoom get set view p) := by
  induction p with
  | done a => exact fun _ h => h
  | fail e => exact fun _ h => h
  | cut => exact fun _ _ => hCut
  | act update next ih =>
    intro t hJ t' hRely j _
    obtain ⟨hMove, hNext⟩ := hp (view j) (get t')
    obtain ⟨hGuar, hKept⟩ := hStep t' _ (hOthers t t' hRely hJ) hMove
    exact ⟨hGuar, ih _ _ hNext _ hKept⟩

end Moves

/-! ## A single party

A run of a single party on a stream of inputs ends. -/

section Alone

variable {admits : ι → Prop} {inv : σ → Prop}

theorem keeps_alone : (Setting.alone admits inv : Setting σ ι).Keeps inv where
  rely := fun _ _ h => h.symm
  guar := fun _ _ h => h

@[simp] theorem alone_rely (s s' : σ) :
    (Setting.alone admits inv : Setting σ ι).rely s s' ↔ s = s' := Iff.rfl

@[simp] theorem alone_admits (s : σ) (i : ι) :
    (Setting.alone admits inv).admits s i ↔ admits i := Iff.rfl

@[simp] theorem alone_guar (s s' : σ) :
    (Setting.alone admits inv : Setting σ ι).guar s s' ↔ inv s' := Iff.rfl

theorem wp_alone_act {update : ι → σ → σ} {next : ι → σ → Proc σ ι ε α} :
    wp (.alone admits inv) Q E (act update next) s ↔ ∀ i, admits i →
      inv (update i s) ∧ wp (.alone admits inv) Q E (next i s) (update i s) := by
  simp [wp]

theorem wp_run (h : wp (.alone admits inv) Q E p s) (hs : inv s) (is : List ι)
    (hInputs : ∀ i ∈ is, admits i) :
    inv (run is p s).2 ∧ wp (.alone admits inv) Q E (run is p s).1 (run is p s).2 := by
  induction is generalizing p s with
  | nil =>
    rw [run_nil]
    exact ⟨hs, h⟩
  | cons i is ih =>
    cases p with
    | act update next =>
      obtain ⟨hStep, hNext⟩ := wp_alone_act.mp h i (hInputs i List.mem_cons_self)
      exact ih hNext hStep fun j hj => hInputs j (List.mem_cons_of_mem _ hj)
    | done a => exact ⟨hs, h⟩
    | fail e => exact ⟨hs, h⟩
    | cut => exact ⟨hs, h⟩

/-- On a stream of admitted inputs a process that may not be cut ends, as its weakest
precondition says. -/
theorem wp_run_stream (h : wp (.alone admits inv) Q E p s) (stream : Nat → ι)
    (hStream : ∀ n, admits (stream n)) :
    ∃ n s', (∃ a, run ((List.range n).map stream) p s = (done a, s') ∧ Q a s') ∨
      (∃ e, run ((List.range n).map stream) p s = (fail e, s') ∧ E e s') := by
  induction p generalizing s stream with
  | done a => exact ⟨0, s, .inl ⟨a, rfl, h⟩⟩
  | fail e => exact ⟨0, s, .inr ⟨e, rfl, h⟩⟩
  | cut => exact h.elim
  | act update next ih =>
    obtain ⟨_, hNext⟩ := wp_alone_act.mp h (stream 0) (hStream 0)
    obtain ⟨n, s', hEnd⟩ := ih (stream 0) s hNext (fun n => stream (n + 1))
      (fun n => hStream (n + 1))
    refine ⟨n + 1, s', ?_⟩
    have hRange : (List.range (n + 1)).map stream =
        stream 0 :: (List.range n).map (fun n => stream (n + 1)) := by
      simp [List.range_succ_eq_map, Function.comp_def]
    rw [hRange]
    exact hEnd

end Alone

end Proc
