import KernelDispatch.Failure

/-!
# Actions that keep their effects when they fail

An action changes a state and may fail; the state at the point of failure is not undone. A step is
an operation that either succeeds or changes nothing, and becomes an action with `Action.step`.
-/

namespace KernelDispatch

/-- A computation on a state that may fail part of the way. -/
def Action (σ α : Type) : Type := σ → Except Failure α × σ

namespace Action

variable {σ τ α β : Type}

/-- The answer of an action and the state after it. -/
def run (x : Action σ α) (s : σ) : Except Failure α × σ := x s

protected def pure (a : α) : Action σ α := fun s => (.ok a, s)

protected def bind (x : Action σ α) (f : α → Action σ β) : Action σ β := fun s =>
  match x s with
  | (.ok a, s') => f a s'
  | (.error e, s') => (.error e, s')

instance : Monad (Action σ) where
  pure := Action.pure
  bind := Action.bind

def fail (e : Failure) : Action σ α := fun s => (.error e, s)

/-- An operation that changes the state only if it succeeds. -/
def step (f : σ → Except Failure (α × σ)) : Action σ α := fun s =>
  match f s with
  | .ok (a, s') => (.ok a, s')
  | .error e => (.error e, s)

/-- A change of the state that is made or fails. -/
def attempt (f : σ → Except Failure σ) : Action σ Unit := step fun s => return ((), ← f s)

def read (f : σ → α) : Action σ α := fun s => (.ok (f s), s)

def check (f : σ → Except Failure α) : Action σ α := fun s => (f s, s)

def update (f : σ → σ) : Action σ Unit := fun s => (.ok (), f s)

def on (get : τ → σ) (set : σ → τ → τ) (x : Action σ α) : Action τ α := fun t =>
  let (answer, s) := x (get t)
  (answer, set s t)

/-- The action, followed by a change of the state if it fails. -/
def onFailure (x : Action σ α) (undo : σ → σ) : Action σ α := fun s =>
  match x s with
  | (.ok a, s') => (.ok a, s')
  | (.error e, s') => (.error e, undo s')

@[simp] theorem run_pure (a : α) (s : σ) : run (pure a) s = (.ok a, s) := rfl

@[simp] theorem run_fail (e : Failure) (s : σ) : run (fail e : Action σ α) s = (.error e, s) := rfl

theorem run_bind (x : Action σ α) (f : α → Action σ β) (s : σ) :
    run (x >>= f) s =
      match run x s with
      | (.ok a, s') => run (f a) s'
      | (.error e, s') => (.error e, s') := rfl

theorem run_step (f : σ → Except Failure (α × σ)) (s : σ) :
    run (step f) s =
      match f s with
      | .ok (a, s') => (.ok a, s')
      | .error e => (.error e, s) := rfl

@[simp] theorem run_read (f : σ → α) (s : σ) : run (read f) s = (.ok (f s), s) := rfl

@[simp] theorem run_check (f : σ → Except Failure α) (s : σ) : run (check f) s = (f s, s) := rfl

@[simp] theorem run_update (f : σ → σ) (s : σ) : run (update f) s = (.ok (), f s) := rfl

theorem run_on (get : τ → σ) (set : σ → τ → τ) (x : Action σ α) (t : τ) :
    run (on get set x) t = ((run x (get t)).1, set (run x (get t)).2 t) := rfl

theorem run_onFailure (x : Action σ α) (undo : σ → σ) (s : σ) :
    run (onFailure x undo) s =
      match run x s with
      | (.ok a, s') => (.ok a, s')
      | (.error e, s') => (.error e, undo s') := rfl

end Action

end KernelDispatch
