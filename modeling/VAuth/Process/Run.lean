import VAuth.Process.Wp

/-!
# Runs

`Steps env admits` are the runs of one process among other parties: the process takes
its own steps on admitted inputs, and the others change the state as `env` allows,
in any order. `wp_steps` reads a weakest precondition at every point of a run.

A `Service` is a process image that is started, answers calls one after another and may
crash at any point of any call. What it keeps over a crash is said by `restart`; a ghost
value records what an observer saw (which calls returned, which did not). The rule
`Service.invariant` reduces a property of every reachable configuration to one weakest
precondition for each call.
-/

namespace Proc

variable {σ ι ε α β κ γ : Type}

/-- One step of a process among other parties. -/
inductive Step (env : σ → σ → Prop) (admits : σ → ι → Prop) :
    Proc σ ι ε α × σ → Proc σ ι ε α × σ → Prop
  | own {update : ι → σ → σ} {next : ι → σ → Proc σ ι ε α} {s : σ} {i : ι}
      (h : admits s i) : Step env admits (act update next, s) (next i s, update i s)
  | other {p : Proc σ ι ε α} {s s' : σ} (h : env s s') : Step env admits (p, s) (p, s')

abbrev Steps (env : σ → σ → Prop) (admits : σ → ι → Prop) :
    Proc σ ι ε α × σ → Proc σ ι ε α × σ → Prop :=
  Relation.ReflTransGen (Step env admits)

/-- The setting of a process among parties that step by `env`. -/
def Setting.among (env : σ → σ → Prop) (admits : σ → ι → Prop) (guar : σ → σ → Prop) :
    Setting σ ι where
  rely := Relation.ReflTransGen env
  admits := admits
  guar := guar
  mayCut := True

variable {env guar : σ → σ → Prop} {admits : σ → ι → Prop} {Q : α → σ → Prop}
  {E : ε → σ → Prop} {p p' : Proc σ ι ε α} {s s' : σ}

/-- A process that has not ended tolerates what the others do. -/
theorem wp_act_rely {update : ι → σ → σ} {next : ι → σ → Proc σ ι ε α}
    (h : wp (.among env admits guar) Q E (act update next) s)
    (hs : Relation.ReflTransGen env s s') :
    wp (.among env admits guar) Q E (act update next) s' := by
  intro s'' hs' i hi
  exact h s'' (hs.trans hs') i hi

/-- At every point of a run the rest of the process still meets its precondition, as of
the last state the process itself saw. -/
theorem wp_steps_setting {C : Setting σ ι}
    (hRely : ∀ s s', Relation.ReflTransGen env s s' → C.rely s s')
    (hAdmits : ∀ s i, admits s i → C.admits s i) (h : wp C Q E p s)
    (hRun : Steps env admits (p, s) (p', s')) :
    ∃ s₀, wp C Q E p' s₀ ∧ Relation.ReflTransGen env s₀ s' := by
  generalize hc : (p', s') = c at hRun
  induction hRun generalizing p' s' with
  | refl =>
    cases hc
    exact ⟨s, h, .refl⟩
  | @tail c₁ c₂ _ step ih =>
    obtain ⟨p₁, s₁⟩ := c₁
    obtain ⟨s₀, hwp, hOthers⟩ := ih rfl
    cases step with
    | own hi =>
      cases hc
      exact ⟨_, (hwp _ (hRely _ _ hOthers) _ (hAdmits _ _ hi)).2, .refl⟩
    | other henv =>
      cases hc
      exact ⟨s₀, hwp, hOthers.tail henv⟩

theorem wp_steps (h : wp (.among env admits guar) Q E p s)
    (hRun : Steps env admits (p, s) (p', s')) :
    ∃ s₀, wp (.among env admits guar) Q E p' s₀ ∧ Relation.ReflTransGen env s₀ s' :=
  wp_steps_setting (fun _ _ h => h) (fun _ _ h => h) h hRun

theorem steps_within {F : Proc σ ι ε α → Proc σ ι ε β}
    (hAct : ∀ update next, F (act update next) = act update fun i s => F (next i s))
    (hRun : Steps env admits (p, s) (p', s')) : Steps env admits (F p, s) (F p', s') := by
  generalize hc : (p', s') = c at hRun
  induction hRun generalizing p' s' with
  | refl =>
    cases hc
    exact .refl
  | @tail c₁ c₂ _ step ih =>
    obtain ⟨p₁, s₁⟩ := c₁
    refine .tail (ih rfl) ?_
    cases step with
    | own hi =>
      cases hc
      rw [hAct]
      exact .own hi
    | other henv =>
      cases hc
      exact .other henv

theorem steps_bind (f : α → Proc σ ι ε β) (hRun : Steps env admits (p, s) (p', s')) :
    Steps env admits (p.bind f, s) (p'.bind f, s') :=
  steps_within (F := fun p => p.bind f) (fun _ _ => rfl) hRun

theorem steps_tryCatch (handler : ε → Proc σ ι ε α) (hRun : Steps env admits (p, s) (p', s')) :
    Steps env admits (p.tryCatch handler, s) (p'.tryCatch handler, s') :=
  steps_within (F := fun p => p.tryCatch handler) (fun _ _ => rfl) hRun

theorem steps_run (hAdmits : ∀ s i, admits s i) (is : List ι) (p : Proc σ ι ε α) (s : σ) :
    Steps env admits (p, s) (run is p s) := by
  induction is generalizing p s with
  | nil => rw [run_nil]
  | cons i is ih =>
    cases p with
    | act update next => exact .head (.own (hAdmits s i)) (ih (next i s) (update i s))
    | _ => exact .refl

variable {J : σ → Prop}

/-- A property that the process and the others keep holds at every point of a run. -/
theorem wp_invariant (h : wp (.among env admits guar) Q E p s) (hInit : J s)
    (hEnv : ∀ s s', env s s' → J s → J s') (hGuar : ∀ s s', guar s s' → J s → J s')
    (hRun : Steps env admits (p, s) (p', s')) : J s' := by
  generalize hc : (p', s') = c at hRun
  induction hRun generalizing p' s' with
  | refl =>
    cases hc
    exact hInit
  | @tail c₁ c₂ run step ih =>
    obtain ⟨p₁, s₁⟩ := c₁
    have hJ := ih rfl
    cases step with
    | own hi =>
      cases hc
      obtain ⟨s₀, hwp, hrely⟩ := wp_steps h run
      exact hGuar _ _ (hwp _ hrely _ hi).1 hJ
    | other henv =>
      cases hc
      exact hEnv _ _ henv hJ

theorem kept_by_others (h : ∀ s s', env s s' → J s → J s') (hRely : Relation.ReflTransGen env s s')
    (hJ : J s) : J s' := by
  induction hRely with
  | refl => exact hJ
  | tail _ hStep ih => exact h _ _ hStep ih

theorem tolerates_among (h : ∀ s s', env s s' → J s → J s') :
    (Setting.among env admits guar : Setting σ ι).Tolerates J :=
  fun _ _ hRely hJ => kept_by_others h hRely hJ

/-- How a run can have ended: as the weakest precondition says, where the others keep what it
says. -/
theorem wp_outcome (h : wp (.among env admits guar) Q E p s)
    (hQ : ∀ a s s', env s s' → Q a s → Q a s') (hE : ∀ e s s', env s s' → E e s → E e s')
    (hRun : Steps env admits (p, s) (p', s')) :
    (∀ a, p' = done a → Q a s') ∧ (∀ e, p' = fail e → E e s') := by
  obtain ⟨s₀, hwp, hrely⟩ := wp_steps h hRun
  constructor
  · rintro a rfl
    exact kept_by_others (hQ a) hrely hwp
  · rintro e rfl
    exact kept_by_others (hE e) hrely hwp

/-- Follow a script: the process gets an input, or another party makes the named move, each
time if the check passes. -/
def follow (ok : σ → ι → Bool) (move : κ → σ → σ) (okMove : σ → κ → Bool) :
    List (ι ⊕ κ) → Proc σ ι ε α × σ → Option (Proc σ ι ε α × σ)
  | [], c => some c
  | .inl i :: script, (act update next, s) =>
    if ok s i then follow ok move okMove script (next i s, update i s) else none
  | .inl _ :: _, _ => none
  | .inr k :: script, (q, s) =>
    if okMove s k then follow ok move okMove script (q, move k s) else none

theorem steps_follow {ok : σ → ι → Bool} {move : κ → σ → σ} {okMove : σ → κ → Bool}
    (hInputs : ∀ s i, ok s i = true → admits s i)
    (hMoves : ∀ s k, okMove s k = true → env s (move k s)) (script : List (ι ⊕ κ))
    {c c' : Proc σ ι ε α × σ} (h : follow ok move okMove script c = some c') :
    Steps env admits c c' := by
  induction script generalizing c with
  | nil =>
    cases h
    exact .refl
  | cons m script ih =>
    obtain ⟨q, s⟩ := c
    cases m with
    | inl i =>
      cases q with
      | act update next =>
        unfold follow at h
        split at h
        · rename_i hOk
          exact .head (.own (hInputs s i hOk)) (ih h)
        · cases h
      | done a => cases h
      | fail e => cases h
      | cut => cases h
    | inr k =>
      unfold follow at h
      split at h
      · rename_i hOk
        exact .head (.other (hMoves s k hOk)) (ih h)
      · cases h

/-! ## Services -/

/-- A process image: a first call `boot`, the calls it accepts later on, and what a restart
keeps. `returned`, `failed` and `crashed` say what an observer notes down. -/
structure Service (σ ι ε κ β γ : Type) where
  boot : κ
  call : κ → Proc σ ι ε β
  accepts : κ → Bool := fun _ => true
  restart : σ → σ
  returned : κ → β → σ → γ → γ
  failed : κ → ε → σ → γ → γ
  crashed : κ → σ → γ → γ

namespace Service

/-- Whether the process is running, and in which call. `booting` marks the first call,
whose failure ends the process. -/
inductive Phase (σ ι ε κ β : Type) : Type where
  | down
  | ready
  | busy (booting : Bool) (k : κ) (p : Proc σ ι ε β)

/-- The process runs and waits for a call. -/
def Phase.isReady {σ ι ε κ β : Type} : Phase σ ι ε κ β → Bool
  | .ready => true
  | _ => false

structure Config (σ ι ε κ β γ : Type) where
  phase : Phase σ ι ε κ β
  state : σ
  ghost : γ

inductive Step (S : Service σ ι ε κ β γ) (env : σ → σ → Prop) (admits : σ → ι → Prop) :
    Config σ ι ε κ β γ → Config σ ι ε κ β γ → Prop
  | start {s : σ} {g : γ} : Step S env admits ⟨.down, s, g⟩
      ⟨.busy true S.boot (S.call S.boot), S.restart s, g⟩
  | invoke {s : σ} {g : γ} (k : κ) (h : S.accepts k = true) : Step S env admits ⟨.ready, s, g⟩
      ⟨.busy false k (S.call k), s, g⟩
  | act {b : Bool} {k : κ} {update : ι → σ → σ} {next : ι → σ → Proc σ ι ε β} {s : σ} {g : γ}
      {i : ι} (h : admits s i) : Step S env admits ⟨.busy b k (.act update next), s, g⟩
      ⟨.busy b k (next i s), update i s, g⟩
  | returned {b : Bool} {k : κ} {r : β} {s : σ} {g : γ} :
      Step S env admits ⟨.busy b k (.done r), s, g⟩ ⟨.ready, s, S.returned k r s g⟩
  | failed {b : Bool} {k : κ} {e : ε} {s : σ} {g : γ} :
      Step S env admits ⟨.busy b k (.fail e), s, g⟩
        ⟨if b then .down else .ready, s, S.failed k e s g⟩
  | crash {b : Bool} {k : κ} {p : Proc σ ι ε β} {s : σ} {g : γ} :
      Step S env admits ⟨.busy b k p, s, g⟩ ⟨.down, s, S.crashed k s g⟩
  | stop {s : σ} {g : γ} : Step S env admits ⟨.ready, s, g⟩ ⟨.down, s, g⟩
  | other {φ : Phase σ ι ε κ β} {s s' : σ} {g : γ} (h : env s s') :
      Step S env admits ⟨φ, s, g⟩ ⟨φ, s', g⟩

abbrev Steps (S : Service σ ι ε κ β γ) (env : σ → σ → Prop) (admits : σ → ι → Prop) :
    Config σ ι ε κ β γ → Config σ ι ε κ β γ → Prop :=
  Relation.ReflTransGen (Step S env admits)

/-- An invariant of a service: what holds while it is down and while it is ready, kept by
every call, by a crash inside any call and by the other parties. -/
structure Invariant (S : Service σ ι ε κ β γ) (env : σ → σ → Prop) (admits : σ → ι → Prop)
    (Down Ready : σ → γ → Prop) : Prop where
  boot : ∀ s g, Down s g →
    wp (.among env admits fun _ s' => Down s' (S.crashed S.boot s' g))
      (fun r s' => Ready s' (S.returned S.boot r s' g))
      (fun e s' => Down s' (S.failed S.boot e s' g)) (S.call S.boot) (S.restart s)
  call : ∀ k s g, S.accepts k = true → Ready s g →
    wp (.among env admits fun _ s' => Down s' (S.crashed k s' g))
      (fun r s' => Ready s' (S.returned k r s' g))
      (fun e s' => Ready s' (S.failed k e s' g)) (S.call k) s
  crash_boot : ∀ s g, Down s g → Down (S.restart s) (S.crashed S.boot (S.restart s) g)
  crash_call : ∀ k s g, Ready s g → Down s (S.crashed k s g)
  stop : ∀ s g, Ready s g → Down s g
  env_down : ∀ s s' g, env s s' → Down s g → Down s' g
  env_ready : ∀ s s' g, env s s' → Ready s g → Ready s' g
  env_crashed : ∀ k s s' g, env s s' → Down s (S.crashed k s g) → Down s' (S.crashed k s' g)
  env_returned : ∀ k r s s' g, env s s' → Ready s (S.returned k r s g) →
    Ready s' (S.returned k r s' g)
  env_failed : ∀ k e s s' g, env s s' → Ready s (S.failed k e s g) → Ready s' (S.failed k e s' g)
  env_bootFailed : ∀ k e s s' g, env s s' → Down s (S.failed k e s g) →
    Down s' (S.failed k e s' g)

variable {S : Service σ ι ε κ β γ} {Down Ready : σ → γ → Prop}

/-- What the invariant says of a configuration. -/
def Holds (S : Service σ ι ε κ β γ) (env : σ → σ → Prop) (admits : σ → ι → Prop)
    (Down Ready : σ → γ → Prop) : Config σ ι ε κ β γ → Prop
  | ⟨.down, s, g⟩ => Down s g
  | ⟨.ready, s, g⟩ => Ready s g
  | ⟨.busy booting k p, s, g⟩ => Down s (S.crashed k s g) ∧
      wp (.among env admits fun _ s' => Down s' (S.crashed k s' g))
        (fun r s' => Ready s' (S.returned k r s' g))
        (fun e s' => if booting then Down s' (S.failed k e s' g) else Ready s' (S.failed k e s' g))
        p s

theorem holds_step (hInv : S.Invariant env admits Down Ready) {c c' : Config σ ι ε κ β γ}
    (hStep : Step S env admits c c') (h : Holds S env admits Down Ready c) :
    Holds S env admits Down Ready c' := by
  cases hStep with
  | start => exact ⟨hInv.crash_boot _ _ h, by simpa using hInv.boot _ _ h⟩
  | invoke k hAccepts => exact ⟨hInv.crash_call k _ _ h, by simpa using hInv.call k _ _ hAccepts h⟩
  | act hi => exact h.2 _ .refl _ hi
  | returned => exact h.2
  | @failed b k e s g =>
    cases b with
    | false => simpa [Holds] using h.2
    | true => simpa [Holds] using h.2
  | crash => exact h.1
  | stop => exact hInv.stop _ _ h
  | @other φ s s' g henv =>
    cases φ with
    | down => exact hInv.env_down _ _ _ henv h
    | ready => exact hInv.env_ready _ _ _ henv h
    | busy booting k p =>
      refine ⟨hInv.env_crashed _ _ _ _ henv h.1, ?_⟩
      cases p with
      | done r => exact hInv.env_returned _ _ _ _ _ henv h.2
      | fail e =>
        cases booting with
        | false => simpa using hInv.env_failed _ _ _ _ _ henv (by simpa using h.2)
        | true => simpa using hInv.env_bootFailed _ _ _ _ _ henv (by simpa using h.2)
      | cut => trivial
      | act update next => exact wp_act_rely h.2 (.single henv)

variable {c c' : Config σ ι ε κ β γ}

/-- **The rule for services.** An invariant holds in every reachable configuration. -/
theorem Invariant.holds (hInv : S.Invariant env admits Down Ready)
    (hInit : Holds S env admits Down Ready c) (hRun : Steps S env admits c c') :
    Holds S env admits Down Ready c' := by
  induction hRun with
  | refl => exact hInit
  | tail _ step ih => exact holds_step hInv step ih

/-! ## Runs whose calls are made under a condition -/

/-- Runs in which every call is made where `ok` holds. -/
abbrev StepsWhere (S : Service σ ι ε κ β γ) (env : σ → σ → Prop) (admits : σ → ι → Prop)
    (ok : κ → σ → Prop) : Config σ ι ε κ β γ → Config σ ι ε κ β γ → Prop :=
  Relation.ReflTransGen fun c c' => Step S env admits c c' ∧
    ∀ k s g, c = ⟨.ready, s, g⟩ → c' = ⟨.busy false k (S.call k), s, g⟩ → ok k s

/-- A run without calls meets every condition on them. -/
theorem stepsWhere_uncalled {ok : κ → σ → Prop}
    (hRun : Steps { S with accepts := fun _ => false } env admits c c') :
    StepsWhere S env admits ok c c' := by
  refine Relation.ReflTransGen.mono ?_ _ _ hRun
  intro c₁ c₂ hStep
  cases hStep with
  | invoke _ hAccepts => cases hAccepts
  | start => exact ⟨.start, nofun⟩
  | act hi => exact ⟨.act hi, nofun⟩
  | returned => exact ⟨.returned, nofun⟩
  | failed => exact ⟨.failed, nofun⟩
  | crash => exact ⟨.crash, nofun⟩
  | stop => exact ⟨.stop, nofun⟩
  | @other φ s s' g h =>
    refine ⟨.other h, fun k s₁ g₁ hReady hBusy => ?_⟩
    cases hReady
    cases hBusy

/-- The rule for services whose calls are made under a condition: what a call does is only asked
where the condition holds. -/
theorem Invariant.holdsWhere {ok : κ → σ → Prop}
    (hInv : Invariant { S with accepts := fun _ => false } env admits Down Ready)
    (hCall : ∀ k s g, ok k s → Ready s g →
      wp (.among env admits fun _ s' => Down s' (S.crashed k s' g))
        (fun r s' => Ready s' (S.returned k r s' g))
        (fun e s' => Ready s' (S.failed k e s' g)) (S.call k) s)
    (hInit : Holds S env admits Down Ready c) (hRun : StepsWhere S env admits ok c c') :
    Holds S env admits Down Ready c' := by
  induction hRun with
  | refl => exact hInit
  | @tail c₁ c₂ _ hStep ih =>
    obtain ⟨hStep, hOk⟩ := hStep
    cases hStep with
    | @invoke s g k _ =>
      exact ⟨hInv.crash_call k s g ih, by simpa using hCall k s g (hOk k s g rfl rfl) ih⟩
    | start => exact holds_step hInv .start ih
    | act hi => exact holds_step hInv (.act hi) ih
    | returned => exact holds_step hInv .returned ih
    | failed => exact holds_step hInv .failed ih
    | crash => exact holds_step hInv .crash ih
    | stop => exact holds_step hInv .stop ih
    | other h => exact holds_step hInv (.other h) ih

/-! ## Runs without other parties -/

/-- No other party ever steps. -/
def nobody (_ _ : σ) : Prop := False

theorem eq_of_nobody (h : Relation.ReflTransGen nobody s s') : s' = s := by
  induction h with
  | refl => rfl
  | tail _ hStep _ => exact hStep.elim

theorem keeps_nobody {I : σ → Prop} :
    (Setting.among nobody admits fun _ s' => I s' : Setting σ ι).Keeps I where
  rely := fun _ _ h => eq_of_nobody h
  guar := fun _ _ h => h

theorem steps_call {k : κ} (hAccepts : S.accepts k = true) (hAdmits : ∀ s i, admits s i)
    {is : List ι} {r : β} (hRun : Proc.run is (S.call k) s = (done r, s')) (g : γ) :
    Steps S env admits ⟨.ready, s, g⟩ ⟨.ready, s', S.returned k r s' g⟩ := by
  have hBusy : ∀ (is : List ι) (p : Proc σ ι ε β) (s : σ), Steps S env admits
      ⟨.busy false k p, s, g⟩ ⟨.busy false k (Proc.run is p s).1, (Proc.run is p s).2, g⟩ := by
    intro is
    induction is with
    | nil =>
      intro p s
      rw [run_nil]
    | cons i is ih =>
      intro p s
      cases p with
      | act update next => exact .head (.act (hAdmits s i)) (ih (next i s) (update i s))
      | _ => exact .refl
  have hSteps := hBusy is (S.call k) s
  rw [hRun] at hSteps
  exact .head (.invoke k hAccepts) (hSteps.tail .returned)

/-- Whatever ends has run to its end. -/
theorem wp_ran (p : Proc σ ι ε α) (s : σ) : wp (.among nobody (fun _ _ => True) fun _ _ => True)
      (fun a s' => ∃ is, run is p s = (done a, s')) (fun e s' => ∃ is, run is p s = (fail e, s'))
      p s := by
  induction p generalizing s with
  | done a => exact ⟨[], rfl⟩
  | fail e => exact ⟨[], rfl⟩
  | cut => trivial
  | act update next ih =>
    intro s' hs i _
    obtain rfl := eq_of_nobody hs
    refine ⟨trivial, wp_mono (ih i s' (update i s')) ?_ ?_⟩
    · rintro a s'' ⟨is, hRun⟩
      exact ⟨i :: is, hRun⟩
    · rintro e s'' ⟨is, hRun⟩
      exact ⟨i :: is, hRun⟩

/-- How a list of inputs can end. -/
theorem wp_run_nobody (h : wp (.among nobody (fun _ _ => True) guar) Q E p s) (is : List ι) :
    (∀ a s', run is p s = (done a, s') → Q a s') ∧ ∀ e s', run is p s = (fail e, s') → E e s' := by
  have hRun : Proc.Steps nobody (fun _ _ => True) (p, s) (run is p s) :=
    steps_run (fun _ _ => trivial) is p s
  have hEnd := wp_outcome h (fun _ _ _ hStep => hStep.elim) (fun _ _ _ hStep => hStep.elim) hRun
  constructor
  · intro a s' hDone
    rw [hDone] at hEnd
    exact hEnd.1 a rfl
  · intro e s' hFail
    rw [hFail] at hEnd
    exact hEnd.2 e rfl

theorem Invariant.alone (boot : ∀ s g, Down s g →
      wp (.among nobody admits fun _ s' => Down s' (S.crashed S.boot s' g))
        (fun r s' => Ready s' (S.returned S.boot r s' g))
        (fun e s' => Down s' (S.failed S.boot e s' g)) (S.call S.boot) (S.restart s))
    (call : ∀ k s g, S.accepts k = true → Ready s g →
      wp (.among nobody admits fun _ s' => Down s' (S.crashed k s' g))
        (fun r s' => Ready s' (S.returned k r s' g))
        (fun e s' => Ready s' (S.failed k e s' g)) (S.call k) s)
    (crash_boot : ∀ s g, Down s g → Down (S.restart s) (S.crashed S.boot (S.restart s) g))
    (crash_call : ∀ k s g, Ready s g → Down s (S.crashed k s g))
    (stop : ∀ s g, Ready s g → Down s g) : S.Invariant nobody admits Down Ready where
  boot := boot
  call := call
  crash_boot := crash_boot
  crash_call := crash_call
  stop := stop
  env_down := fun _ _ _ h => h.elim
  env_ready := fun _ _ _ h => h.elim
  env_crashed := fun _ _ _ _ h => h.elim
  env_returned := fun _ _ _ _ _ h => h.elim
  env_failed := fun _ _ _ _ _ h => h.elim
  env_bootFailed := fun _ _ _ _ _ h => h.elim

/-! ## Scripts

A script names the next step of a run, so that a run can be computed. -/

inductive Action (σ ι κ : Type) : Type where
  | start
  | invoke (k : κ)
  | input (i : ι)
  | finish
  | crash
  | stop
  | other (f : σ → σ)

/-- One scripted step; `finish` ends a call that has returned or thrown. -/
def exec1 (S : Service σ ι ε κ β γ) : Action σ ι κ → Config σ ι ε κ β γ → Option (Config σ ι ε κ β γ)
  | .start, ⟨.down, s, g⟩ => some ⟨.busy true S.boot (S.call S.boot), S.restart s, g⟩
  | .invoke k, ⟨.ready, s, g⟩ =>
    if S.accepts k then some ⟨.busy false k (S.call k), s, g⟩ else none
  | .input i, ⟨.busy b k (.act update next), s, g⟩ => some ⟨.busy b k (next i s), update i s, g⟩
  | .finish, ⟨.busy _ k (.done r), s, g⟩ => some ⟨.ready, s, S.returned k r s g⟩
  | .finish, ⟨.busy b k (.fail e), s, g⟩ =>
    some ⟨if b then .down else .ready, s, S.failed k e s g⟩
  | .crash, ⟨.busy _ k _, s, g⟩ => some ⟨.down, s, S.crashed k s g⟩
  | .stop, ⟨.ready, s, g⟩ => some ⟨.down, s, g⟩
  | .other f, ⟨φ, s, g⟩ => some ⟨φ, f s, g⟩
  | _, _ => none

/-- An input passes the check in the state it is fed in. -/
def Action.passes (ok : σ → ι → Bool) : Action σ ι κ → σ → Bool
  | .input i, s => ok s i
  | _, _ => true

/-- Run a script, as long as its inputs pass the check. -/
def exec (S : Service σ ι ε κ β γ) (ok : σ → ι → Bool) : List (Action σ ι κ) →
    Config σ ι ε κ β γ → Option (Config σ ι ε κ β γ)
  | [], c => some c
  | a :: as, c => if a.passes ok c.state then (exec1 S a c).bind (exec S ok as) else none

/-- The input is admitted, or what another party does is allowed. -/
def Action.Allowed (env : σ → σ → Prop) (admits : σ → ι → Prop) : Action σ ι κ → σ → Prop
  | .input i, s => admits s i
  | .other f, s => env s (f s)
  | _, _ => True

/-- The same input `n` times. -/
def feed (n : Nat) (i : ι) : List (Action σ ι κ) := List.replicate n (.input i)

theorem step_exec1 {a : Action σ ι κ} (ha : a.Allowed env admits c.state)
    (h : exec1 S a c = some c') : Step S env admits c c' := by
  obtain ⟨φ, s, g⟩ := c
  cases a with
  | start =>
    cases φ <;> cases h
    exact .start
  | invoke k =>
    cases φ with
    | down => cases h
    | busy b k p => cases h
    | ready =>
      change (if S.accepts k = true then some _ else none) = some c' at h
      by_cases hAccepts : S.accepts k = true
      · rw [if_pos hAccepts] at h
        cases h
        exact .invoke k hAccepts
      · rw [if_neg hAccepts] at h
        cases h
  | input i =>
    cases φ with
    | down => cases h
    | ready => cases h
    | busy b k p =>
      cases p <;> cases h
      exact .act ha
  | finish =>
    cases φ with
    | down => cases h
    | ready => cases h
    | busy b k p =>
      cases p with
      | done r =>
        cases h
        exact .returned
      | fail e =>
        cases h
        exact .failed
      | cut => cases h
      | act update next => cases h
  | crash =>
    cases φ <;> cases h
    exact .crash
  | stop =>
    cases φ <;> cases h
    exact .stop
  | other f =>
    cases h
    exact .other ha

/-- A script that runs through is a run. -/
theorem steps_exec (ok : σ → ι → Bool) (as : List (Action σ ι κ))
    (hInputs : ∀ i, .input i ∈ as → ∀ s, ok s i = true → admits s i)
    (hOthers : ∀ f, .other f ∈ as → ∀ s, env s (f s)) (h : exec S ok as c = some c') :
    Steps S env admits c c' := by
  induction as generalizing c with
  | nil =>
    cases h
    exact .refl
  | cons a as ih =>
    unfold exec at h
    split at h
    · rename_i hPasses
      obtain ⟨c₁, hFirst, hRest⟩ := Option.bind_eq_some_iff.mp h
      have hAllowed : a.Allowed env admits c.state := by
        cases a with
        | input i => exact hInputs i List.mem_cons_self _ hPasses
        | other f => exact hOthers f List.mem_cons_self _
        | _ => trivial
      exact .head (step_exec1 hAllowed hFirst)
        (ih (fun i hi => hInputs i (List.mem_cons_of_mem _ hi))
          (fun f hf => hOthers f (List.mem_cons_of_mem _ hf)) hRest)
    · cases h

/-- Not a step of another party. -/
def Action.isOwn : Action σ ι κ → Bool
  | .other _ => false
  | _ => true

/-- A script without other parties is a run without them. -/
theorem steps_exec_nobody (ok : σ → ι → Bool) (as : List (Action σ ι κ))
    (hInputs : ∀ s i, ok s i = true → admits s i) (hOwn : as.all Action.isOwn = true)
    (h : exec S ok as c = some c') : Steps S nobody admits c c' := by
  refine steps_exec ok as (fun i _ s => hInputs s i) (fun f hf => ?_) h
  exact absurd (List.all_eq_true.mp hOwn _ hf) Bool.false_ne_true

end Service

end Proc
