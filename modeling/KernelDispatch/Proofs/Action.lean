import KernelDispatch.Action
import Mathlib

/-!
# Triples for actions that may stop

A triple says what holds after an action that started from a known state: one condition if it
answers, another if it stops on the way. The rules follow the ways in which actions are put
together, so that a sequence of operations is followed step by step.
-/

namespace KernelDispatch

section Answers

variable {α β : Type} {x : Except Failure α} {f : α → Except Failure β}

theorem bind_eq_ok_iff {b : β} : (x >>= f) = .ok b ↔ ∃ a, x = .ok a ∧ f a = .ok b := by
  cases x with
  | error e =>
    constructor
    · intro h
      cases h
    · rintro ⟨a, ha, _⟩
      cases ha
  | ok a =>
    constructor
    · intro h
      exact ⟨a, rfl, h⟩
    · rintro ⟨a', ha, h⟩
      cases ha
      exact h

theorem bind_eq_error_iff {e : Failure} :
    (x >>= f) = .error e ↔ x = .error e ∨ ∃ a, x = .ok a ∧ f a = .error e := by
  cases x with
  | error e' =>
    constructor
    · intro h
      cases h
      exact Or.inl rfl
    · rintro (h | ⟨a, ha, _⟩)
      · cases h
        rfl
      · cases ha
  | ok a =>
    constructor
    · intro h
      exact Or.inr ⟨a, rfl, h⟩
    · rintro (h | ⟨a', ha, h⟩)
      · cases h
      · cases ha
        exact h

variable {P : Failure → Prop}

def FailsOnly (P : Failure → Prop) (x : Except Failure α) : Prop := ∀ e, x = .error e → P e

theorem failsOnly_ok (a : α) : FailsOnly P (.ok a) := nofun

theorem failsOnly_error {e : Failure} (h : P e) : FailsOnly P (.error e : Except Failure α) := by
  rintro _ ⟨⟩
  exact h

theorem FailsOnly.bind (hx : FailsOnly P x) (hf : ∀ a, x = .ok a → FailsOnly P (f a)) :
    FailsOnly P (x >>= f) := by
  intro e he
  rcases bind_eq_error_iff.mp he with hfirst | ⟨a, ha, hrest⟩
  · exact hx e hfirst
  · exact hf a ha e hrest

end Answers

namespace Action

variable {σ τ α β : Type}

theorem run_bind_eq_ok_iff {x : Action σ α} {f : α → Action σ β} {s s' : σ} {b : β} :
    (x >>= f).run s = (.ok b, s') ↔
      ∃ a s₁, x.run s = (.ok a, s₁) ∧ (f a).run s₁ = (.ok b, s') := by
  rw [run_bind]
  rcases x.run s with ⟨_ | a, s₁⟩
  · constructor
    · rintro ⟨⟩
    · rintro ⟨a, s₂, ⟨⟩, -⟩
  · constructor
    · intro h
      exact ⟨a, s₁, rfl, h⟩
    · rintro ⟨a', s₂, ⟨⟩, h⟩
      exact h

theorem run_bind_eq_error_iff {x : Action σ α} {f : α → Action σ β} {s s' : σ} {e : Failure} :
    (x >>= f).run s = (.error e, s') ↔
      x.run s = (.error e, s') ∨ ∃ a s₁, x.run s = (.ok a, s₁) ∧ (f a).run s₁ = (.error e, s') := by
  rw [run_bind]
  rcases x.run s with ⟨_ | a, s₁⟩
  · constructor
    · rintro ⟨⟩
      exact Or.inl rfl
    · rintro (⟨⟨⟩⟩ | ⟨a, s₂, ⟨⟩, -⟩)
      rfl
  · constructor
    · intro h
      exact Or.inr ⟨a, s₁, rfl, h⟩
    · rintro (⟨⟨⟩⟩ | ⟨a', s₂, ⟨⟩, h⟩)
      exact h

theorem run_step_eq_ok_iff {f : σ → Except Failure (α × σ)} {s s' : σ} {a : α} :
    (step f).run s = (.ok a, s') ↔ f s = .ok (a, s') := by
  rw [run_step]
  rcases f s with e | ⟨a', s₁⟩
  · constructor
    · rintro ⟨⟩
    · rintro ⟨⟩
  · constructor
    · rintro ⟨⟩
      rfl
    · rintro ⟨⟩
      rfl

theorem run_step_eq_error_iff {f : σ → Except Failure (α × σ)} {s s' : σ} {e : Failure} :
    (step f).run s = (.error e, s') ↔ f s = .error e ∧ s' = s := by
  rw [run_step]
  rcases f s with e' | ⟨a, s₁⟩
  · constructor
    · rintro ⟨⟩
      exact ⟨rfl, rfl⟩
    · rintro ⟨⟨⟩, rfl⟩
      rfl
  · constructor
    · rintro ⟨⟩
    · rintro ⟨⟨⟩, -⟩

theorem run_attempt_eq_ok_iff {f : σ → Except Failure σ} {s s' : σ} {u : Unit} :
    (attempt f).run s = (.ok u, s') ↔ f s = .ok s' := by
  rw [attempt, run_step_eq_ok_iff]
  cases f s with
  | error e => exact ⟨nofun, nofun⟩
  | ok s₁ =>
    constructor
    · rintro ⟨⟩
      rfl
    · rintro ⟨⟩
      rfl

theorem run_attempt_eq_error_iff {f : σ → Except Failure σ} {s s' : σ} {e : Failure} :
    (attempt f).run s = (.error e, s') ↔ f s = .error e ∧ s' = s := by
  rw [attempt, run_step_eq_error_iff]
  cases f s with
  | error e' =>
    constructor
    · rintro ⟨⟨⟩, rfl⟩
      exact ⟨rfl, rfl⟩
    · rintro ⟨⟨⟩, rfl⟩
      exact ⟨rfl, rfl⟩
  | ok s₁ =>
    constructor
    · rintro ⟨⟨⟩, -⟩
    · rintro ⟨⟨⟩, -⟩

theorem run_check_eq_iff {f : σ → Except Failure α} {s s' : σ} {answer : Except Failure α} :
    (check f).run s = (answer, s') ↔ f s = answer ∧ s' = s := by
  rw [run_check, Prod.mk.injEq, eq_comm (a := s)]

theorem run_on_eq_iff {get : τ → σ} {set : σ → τ → τ} {x : Action σ α} {t t' : τ}
    {answer : Except Failure α} :
    (on get set x).run t = (answer, t') ↔ ∃ s, x.run (get t) = (answer, s) ∧ t' = set s t := by
  rw [run_on]
  rcases x.run (get t) with ⟨answer', s⟩
  constructor
  · rintro ⟨⟩
    exact ⟨s, rfl, rfl⟩
  · rintro ⟨s', ⟨⟩, rfl⟩
    rfl

/-- The action succeeds or changes nothing. -/
def Atomic (x : Action σ α) : Prop := ∀ s e s', x.run s = (.error e, s') → s' = s

theorem atomic_fail (e : Failure) : (fail e : Action σ α).Atomic := by
  rintro s e' s' ⟨⟩
  rfl

theorem atomic_step (f : σ → Except Failure (α × σ)) : (step f).Atomic :=
  fun _ _ _ h => (run_step_eq_error_iff.mp h).2

theorem atomic_attempt (f : σ → Except Failure σ) : (attempt f).Atomic := atomic_step _

theorem Atomic.on {get : τ → σ} {set : σ → τ → τ} {x : Action σ α} (hx : x.Atomic)
    (hset : ∀ t, set (get t) t = t) : (on get set x).Atomic := by
  intro t e t' h
  obtain ⟨s, hs, rfl⟩ := run_on_eq_iff.mp h
  rw [hx _ _ _ hs]
  exact hset t

/-- From a state with `pre` the action answers with `post` or stops with `stop`. -/
def Meets (pre : σ → Prop) (x : Action σ α) (post : α → σ → Prop)
    (stop : Failure → σ → Prop) : Prop :=
  ∀ s, pre s →
    match x.run s with
    | (.ok a, s') => post a s'
    | (.error e, s') => stop e s'

variable {pre : σ → Prop} {post : α → σ → Prop} {stop : Failure → σ → Prop}

theorem Meets.run_ok {x : Action σ α} {s s' : σ} {a : α} (hx : Meets pre x post stop) (hs : pre s)
    (h : x.run s = (.ok a, s')) : post a s' := by
  have hmeets := hx s hs
  rwa [h] at hmeets

theorem Meets.run_error {x : Action σ α} {s s' : σ} {e : Failure} (hx : Meets pre x post stop)
    (hs : pre s) (h : x.run s = (.error e, s')) : stop e s' := by
  have hmeets := hx s hs
  rwa [h] at hmeets

theorem Meets.bind {x : Action σ α} {f : α → Action σ β} {last : β → σ → Prop}
    {halt : Failure → σ → Prop} (hx : Meets pre x post halt) (hhalt : ∀ e s, halt e s → stop e s)
    (hf : ∀ a, Meets (post a) (f a) last stop) : Meets pre (x >>= f) last stop := by
  intro s hs
  have hfirst := hx s hs
  rw [run_bind]
  rcases hrun : x.run s with ⟨answer, s'⟩
  rw [hrun] at hfirst
  cases answer with
  | ok a => exact hf a s' hfirst
  | error e => exact hhalt e s' hfirst

theorem meets_bind (mid : α → σ → Prop) {x : Action σ α} {f : α → Action σ β} {last : β → σ → Prop}
    (hx : Meets pre x mid stop) (hf : ∀ a, Meets (mid a) (f a) last stop) :
    Meets pre (x >>= f) last stop :=
  hx.bind (fun _ _ h => h) hf

theorem Meets.weaken {x : Action σ α} {pre' : σ → Prop} {post' : α → σ → Prop}
    {stop' : Failure → σ → Prop} (hx : Meets pre x post stop) (hpre : ∀ s, pre' s → pre s)
    (hpost : ∀ a s, post a s → post' a s) (hstop : ∀ e s, stop e s → stop' e s) :
    Meets pre' x post' stop' := by
  intro s hs
  have hrun := hx s (hpre s hs)
  rcases h : x.run s with ⟨answer, s'⟩
  rw [h] at hrun
  cases answer with
  | ok a => exact hpost a s' hrun
  | error e => exact hstop e s' hrun

theorem Meets.and {x : Action σ α} {post' : α → σ → Prop} {stop' : Failure → σ → Prop}
    (hx : Meets pre x post stop) (hx' : Meets pre x post' stop') :
    Meets pre x (fun a s => post a s ∧ post' a s) (fun e s => stop e s ∧ stop' e s) := by
  intro s hs
  have hrun := hx s hs
  have hrun' := hx' s hs
  rcases h : x.run s with ⟨answer, s'⟩
  rw [h] at hrun hrun'
  cases answer with
  | ok a => exact ⟨hrun, hrun'⟩
  | error e => exact ⟨hrun, hrun'⟩

theorem meets_ok {x : Action σ α} {s₀ s : σ} {a : α} (hrun : x.run s₀ = (.ok a, s))
    (h : post a s) : Meets (· = s₀) x post stop := by
  rintro _ rfl
  rw [hrun]
  exact h

theorem meets_error {x : Action σ α} {s₀ s : σ} {e : Failure} (hrun : x.run s₀ = (.error e, s))
    (h : stop e s) : Meets (· = s₀) x post stop := by
  rintro _ rfl
  rw [hrun]
  exact h

/-- What is known beside the state that an action starts from. -/
theorem meets_at {x : Action σ α} {P : Prop} {s₀ : σ} (hx : P → Meets (· = s₀) x post stop) :
    Meets (fun s => P ∧ s = s₀) x post stop :=
  fun s hs => hx hs.1 s hs.2

theorem meets_some {ι : Type} {x : Action σ α} {P : ι → Prop} {g : ι → σ}
    (hx : ∀ t, P t → Meets (· = g t) x post stop) :
    Meets (fun s => ∃ t, P t ∧ s = g t) x post stop := by
  rintro s ⟨t, ht, hs⟩
  exact hx t ht s hs

theorem meets_pure {a : α} (h : ∀ s, pre s → post a s) : Meets pre (pure a) post stop := h

theorem meets_fail {e : Failure} (h : ∀ s, pre s → stop e s) :
    Meets pre (fail e : Action σ α) post stop := h

theorem meets_check {f : σ → Except Failure α} (hok : ∀ s a, pre s → f s = .ok a → post a s)
    (herror : ∀ s e, pre s → f s = .error e → stop e s) : Meets pre (check f) post stop := by
  intro s hs
  rw [run_check]
  cases hf : f s with
  | ok a => exact hok s a hs hf
  | error e => exact herror s e hs hf

theorem meets_check_bind {s₀ : σ} {c : σ → Except Failure α} {f : α → Action σ β}
    {last : β → σ → Prop} (hstop : ∀ e, c s₀ = .error e → stop e s₀)
    (hrest : ∀ a, c s₀ = .ok a → Meets (· = s₀) (f a) last stop) :
    Meets (· = s₀) (check c >>= f) last stop := by
  apply meets_bind fun a s => c s₀ = .ok a ∧ s = s₀
  · apply meets_check
    · rintro s a rfl ha
      exact ⟨ha, rfl⟩
    · rintro s e rfl he
      exact hstop e he
  · exact fun a => meets_at (hrest a)

theorem meets_passed {s₀ : σ} {c : σ → Except Failure α} {a : α} {f : α → Action σ β}
    {last : β → σ → Prop} (hc : c s₀ = .ok a) (hrest : Meets (· = s₀) (f a) last stop) :
    Meets (· = s₀) (check c >>= f) last stop := by
  apply meets_check_bind
  · intro e he
    rw [hc] at he
    cases he
  · intro a' ha'
    rw [hc] at ha'
    cases ha'
    exact hrest

theorem Atomic.meets {x : Action σ α} (hx : x.Atomic)
    (hok : ∀ s a s', pre s → x.run s = (.ok a, s') → post a s')
    (herror : ∀ s e, pre s → x.run s = (.error e, s) → stop e s) : Meets pre x post stop := by
  intro s hs
  rcases hrun : x.run s with ⟨e | a, s'⟩
  · obtain rfl := hx s e s' hrun
    exact herror s' e hs hrun
  · exact hok s a s' hs hrun

theorem meets_read_bind {s₀ : σ} {g : σ → α} {f : α → Action σ β} {last : β → σ → Prop}
    (hrest : Meets (· = s₀) (f (g s₀)) last stop) : Meets (· = s₀) (read g >>= f) last stop := by
  rintro s rfl
  exact hrest s rfl

theorem meets_update_bind {s₀ : σ} {g : σ → σ} {f : Unit → Action σ β} {last : β → σ → Prop}
    (hrest : Meets (· = g s₀) (f ()) last stop) : Meets (· = s₀) (update g >>= f) last stop := by
  rintro s rfl
  exact hrest (g s) rfl

theorem meets_onFailure {x : Action σ α} {undo : σ → σ}
    (hx : Meets pre x post fun e s => stop e (undo s)) :
    Meets pre (x.onFailure undo) post stop := by
  intro s hs
  have hrun := hx s hs
  rw [run_onFailure]
  rcases h : x.run s with ⟨answer, s'⟩
  rw [h] at hrun
  cases answer with
  | ok a => exact hrun
  | error e => exact hrun

theorem meets_on {get : τ → σ} {set : σ → τ → τ} {x : Action σ α} {whole : τ → Prop}
    {last : α → τ → Prop} {halt : Failure → τ → Prop}
    (hx : ∀ t, whole t → Meets (fun s => s = get t) x (fun a s => last a (set s t))
      fun e s => halt e (set s t)) :
    Meets whole (on get set x) last halt := by
  intro t ht
  have hrun := hx t ht (get t) rfl
  rw [run_on]
  rcases h : x.run (get t) with ⟨answer, s'⟩
  rw [h] at hrun
  cases answer with
  | ok a => exact hrun
  | error e => exact hrun

end Action

end KernelDispatch
