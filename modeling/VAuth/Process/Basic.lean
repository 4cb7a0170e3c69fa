import Mathlib.Logic.Relation

/-!
# Processes that are interrupted, interfered with and fed by an environment

A process over a state `σ` is a tree of atomic steps. A step reads one input `ι`
chosen by the environment (the outcome of a system call, a message, a clock reading),
updates the state and continues. Between two steps other parties may change the state,
and the process may stop for good; both are properties of the runs of a process
(`Process.Run`), so the tree itself only records what the code does.

A process ends by returning (`done`), by throwing (`fail`), or at `cut`, where an
unbounded loop has used up the number of rounds a run is followed for.
-/

/-- A process over the state `σ` with inputs `ι`, exceptions `ε` and results `α`. -/
inductive Proc (σ ι ε α : Type) : Type where
  | done (a : α)
  | fail (e : ε)
  | cut
  | act (update : ι → σ → σ) (next : ι → σ → Proc σ ι ε α)

namespace Proc

variable {σ τ ι κ ε α β : Type}

/-- Run `p`, then `f` on its result. -/
protected def bind : Proc σ ι ε α → (α → Proc σ ι ε β) → Proc σ ι ε β
  | done a, f => f a
  | fail e, _ => fail e
  | cut, _ => cut
  | act update next, f => act update fun i s => (next i s).bind f

/-- Run `p`; if it throws, run the handler. -/
protected def tryCatch : Proc σ ι ε α → (ε → Proc σ ι ε α) → Proc σ ι ε α
  | done a, _ => done a
  | fail e, handler => handler e
  | cut, _ => cut
  | act update next, handler => act update fun i s => (next i s).tryCatch handler

instance : Monad (Proc σ ι ε) where
  pure := done
  bind := Proc.bind

instance : MonadExcept ε (Proc σ ι ε) where
  throw := fail
  tryCatch := Proc.tryCatch

def ofExcept : Except ε α → Proc σ ι ε α
  | .ok a => done a
  | .error e => fail e

/-- One atomic step: an input and the state give a result, or an exception, and the
new state. -/
def atomically (f : ι → σ → Except ε α × σ) : Proc σ ι ε α :=
  act (fun i s => (f i s).2) fun i s => ofExcept (f i s).1

/-- An atomic step that only looks at the input and the state. -/
def observe (f : ι → σ → Except ε α) : Proc σ ι ε α := atomically fun i s => (f i s, s)

/-- An atomic step that only reads the state. -/
def read (f : σ → α) : Proc σ ι ε α := observe fun _ s => .ok (f s)

/-- An atomic step that only changes the state. -/
def modify (f : σ → σ) : Proc σ ι ε Unit := atomically fun _ s => (.ok (), f s)

/-- Run a process and give back how it ended, so that something can be done in either case. -/
def attempt (p : Proc σ ι ε α) : Proc σ ι ε (Except ε α) :=
  (p.bind fun a => done (.ok a)).tryCatch fun e => done (.error e)

/-- Run a process of a part of the state, given how to read and replace that part. -/
def zoom (get : τ → σ) (set : σ → τ → τ) (view : κ → ι) : Proc σ ι ε α → Proc τ κ ε α
  | done a => done a
  | fail e => fail e
  | cut => cut
  | act update next => act (fun j t => set (update (view j) (get t)) t)
      fun j t => zoom get set view (next (view j) (get t))

/-- At most `rounds` rounds of a loop. A round ends with the next loop state (`inl`) or
with the result of the loop (`inr`). -/
def loop (body : β → Proc σ ι ε (β ⊕ α)) : Nat → β → Proc σ ι ε α
  | 0, _ => cut
  | rounds + 1, b => (body b).bind fun
      | .inl b' => loop body rounds b'
      | .inr a => done a

/-- How a process that takes no further step has ended. -/
def outcome? : Proc σ ι ε α → Option (Except ε α)
  | done a => some (.ok a)
  | fail e => some (.error e)
  | cut => none
  | act _ _ => none

/-- Run a process on the listed inputs. -/
def run : List ι → Proc σ ι ε α → σ → Proc σ ι ε α × σ
  | i :: is, act update next, s => run is (next i s) (update i s)
  | _, p, s => (p, s)

@[simp] theorem pure_eq (a : α) : (pure a : Proc σ ι ε α) = done a := rfl

@[simp] theorem throw_eq (e : ε) : (throw e : Proc σ ι ε α) = fail e := rfl

@[simp] theorem bind_eq (p : Proc σ ι ε α) (f : α → Proc σ ι ε β) : p >>= f = p.bind f := rfl

@[simp] theorem tryCatch_eq (p : Proc σ ι ε α) (h : ε → Proc σ ι ε α) :
    tryCatch p h = p.tryCatch h := rfl

@[simp] theorem done_bind (a : α) (f : α → Proc σ ι ε β) : (done a).bind f = f a := rfl

@[simp] theorem fail_bind (e : ε) (f : α → Proc σ ι ε β) :
    (fail e : Proc σ ι ε α).bind f = fail e := rfl

theorem zoom_bind {get : τ → σ} {set : σ → τ → τ} {view : κ → ι} (p : Proc σ ι ε α)
    (f : α → Proc σ ι ε β) : zoom get set view (p.bind f) =
      (zoom get set view p).bind fun a => zoom get set view (f a) := by
  induction p with
  | done a => rfl
  | fail e => rfl
  | cut => rfl
  | act update next ih => simp only [Proc.bind, zoom, ih]

theorem zoom_atomically {get : τ → σ} {set : σ → τ → τ} {view : κ → ι}
    (f : ι → σ → Except ε α × σ) : zoom get set view (atomically f) =
      atomically fun j t => ((f (view j) (get t)).1, set (f (view j) (get t)).2 t) := by
  simp only [atomically, zoom, act.injEq, true_and]
  funext j t
  cases (f (view j) (get t)).1 <;> rfl

@[simp] theorem run_nil (p : Proc σ ι ε α) (s : σ) : run [] p s = (p, s) := by
  cases p <;> rfl

variable {is : List ι} {p : Proc σ ι ε α}

theorem run_eq_fail {s : σ} {e : ε} (h : (run is p s).1.outcome? = some (.error e)) :
    run is p s = (fail e, (run is p s).2) := by
  generalize run is p s = r at h
  obtain ⟨q, s'⟩ := r
  cases q <;> cases h
  rfl

theorem run_eq_done {s : σ} {a : α} (h : (run is p s).1.outcome? = some (.ok a)) :
    run is p s = (done a, (run is p s).2) := by
  generalize run is p s = r at h
  obtain ⟨q, s'⟩ := r
  cases q <;> cases h
  rfl

theorem run_done_of_any {s : σ} {test : α → Bool}
    (h : (run is p s).1.outcome?.any (fun r => r.toOption.any test) = true) :
    ∃ a, run is p s = (done a, (run is p s).2) ∧ test a = true := by
  obtain ⟨r, hOutcome, hResult⟩ := (Option.any_eq_true _ _).mp h
  obtain ⟨a, ha, hTest⟩ := (Option.any_eq_true _ _).mp hResult
  cases r with
  | error e => cases ha
  | ok b =>
    obtain rfl : b = a := Option.some.inj ha
    exact ⟨b, run_eq_done hOutcome, hTest⟩

end Proc
