import Mathlib.Data.List.Basic
import Mathlib.Tactic.Common

/-!
# Interleavings

Threads that share a state take turns.  What an action of one of them does to
the state is one function, with a failure for an action that must not happen,
and an interleaving is the list of the actions in the order they happen.  An
action whose thread is not ready for it leaves the state as it is, so every list
is an interleaving.

* `run_invariant` — what every action preserves holds after every interleaving.
* `run_total` — if besides no action fails, no interleaving does.
* `run_error` — an interleaving fails only where an action does.
-/

namespace Schedule

variable {σ α ε β : Type}

/-- The state after some actions. -/
def run (step : α → σ → Except ε σ) (actions : List α) (s : σ) : Except ε σ :=
  actions.foldlM (fun s a => step a s) s

variable {step : α → σ → Except ε σ}

@[simp] theorem run_nil (s : σ) : run step [] s = .ok s := rfl

theorem run_cons (a : α) (actions : List α) (s : σ) :
    run step (a :: actions) s = step a s >>= run step actions := rfl

theorem run_cons_of_ok {a : α} {actions : List α} {s s' : σ} (h : step a s = .ok s') :
    run step (a :: actions) s = run step actions s' := by
  rw [run_cons, h]
  rfl

/-- **Invariants.**  What every action preserves holds after every interleaving. -/
theorem run_invariant {inv : σ → Prop} (hstep : ∀ a s s', inv s → step a s = .ok s' → inv s')
    {actions : List α} {s s' : σ} (hs : inv s) (hrun : run step actions s = .ok s') : inv s' := by
  induction actions generalizing s with
  | nil =>
    cases hrun
    exact hs
  | cons a actions ih =>
    rw [run_cons] at hrun
    cases ha : step a s with
    | error e =>
      rw [ha] at hrun
      cases hrun
    | ok t =>
      rw [ha] at hrun
      exact ih (hstep a s t hs ha) hrun

/-- **Safety and no failure.**  When every action succeeds in every state of the
invariant and preserves it, so does every interleaving. -/
theorem run_total {inv : σ → Prop}
    (hstep : ∀ a s, inv s → ∃ s', step a s = .ok s' ∧ inv s') (actions : List α) {s : σ}
    (hs : inv s) : ∃ s', run step actions s = .ok s' ∧ inv s' := by
  induction actions generalizing s with
  | nil => exact ⟨s, rfl, hs⟩
  | cons a actions ih =>
    obtain ⟨t, ha, ht⟩ := hstep a s hs
    obtain ⟨s', hrun, hs'⟩ := ih ht
    exact ⟨s', (run_cons_of_ok ha).trans hrun, hs'⟩

/-- **Failures.**  An interleaving that fails does so in an action from a state of
the invariant. -/
theorem run_error {inv : σ → Prop} (hstep : ∀ a s s', inv s → step a s = .ok s' → inv s')
    {actions : List α} {s : σ} {e : ε} (hs : inv s) (hrun : run step actions s = .error e) :
    ∃ a t, inv t ∧ step a t = .error e := by
  induction actions generalizing s with
  | nil => cases hrun
  | cons a actions ih =>
    rw [run_cons] at hrun
    cases ha : step a s with
    | error e' =>
      rw [ha] at hrun
      cases hrun
      exact ⟨a, s, hs, ha⟩
    | ok t =>
      rw [ha] at hrun
      exact ih (hstep a s t hs ha) hrun

end Schedule
