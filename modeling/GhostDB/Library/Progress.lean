import Mathlib
import GhostDB.Library.Schedule

/-!
# Progress under fairness

An execution that goes on forever is an infinite sequence of actions none of
which fails.  A fair one takes an action of each of some classes again and
again; which classes those are (a thread gets its turns, a timed wait times out)
is a parameter.  `LeadsTo P Q` says that in every fair execution a state of `P`
is followed by one of `Q`.

* `run_invariant_mem` — what the actions of one interleaving preserve.
* `Execution.run_take` — the states of an execution are those its actions lead
  to, so what is proved of interleavings holds of executions.
* `Execution.keeps_until` — what is kept until something happens.
* `Execution.exists_of_total` — where nothing fails, every sequence of actions is
  one.
* `LeadsTo.ensures` — the rule for one step: every action keeps `P` or reaches
  `Q`, and those of one class reach `Q`.
* `LeadsTo.trans`, `LeadsTo.or`, `LeadsTo.of_exists` — how steps are put together.
* `LeadsTo.of_wellFounded` — steps that lower a rank.
-/

namespace Schedule

variable {σ α ε : Type}

/-- What the actions of an interleaving preserve holds at its end. -/
theorem run_invariant_mem {step : α → σ → Except ε σ} {inv : σ → Prop} {actions : List α}
    (hstep : ∀ a ∈ actions, ∀ s s', inv s → step a s = .ok s' → inv s') {s s' : σ} (hs : inv s)
    (hrun : run step actions s = .ok s') : inv s' := by
  induction actions generalizing s with
  | nil =>
    cases hrun
    exact hs
  | cons a actions ih =>
    rw [run_cons] at hrun
    cases ha : step a s with
    | error e =>
      rw [ha] at hrun
      cases hrun
    | ok t =>
      rw [ha] at hrun
      exact ih (fun b hb => hstep b (List.mem_cons_of_mem a hb))
        (hstep a List.mem_cons_self s t hs ha) hrun

/-- An execution that goes on forever. -/
structure Execution (step : α → σ → Except ε σ) where
  /-- The states. -/
  state : Nat → σ
  /-- The actions. -/
  action : Nat → α
  /-- No action fails. -/
  next : ∀ n, step (action n) (state n) = .ok (state (n + 1))

variable {step : α → σ → Except ε σ}

namespace Execution

/-- Each of some classes of actions has its turn again and again. -/
def Fair (x : Execution step) (classes : Set (Set α)) : Prop :=
  ∀ c ∈ classes, ∀ n, ∃ m, n ≤ m ∧ x.action m ∈ c

/-- What every action preserves before `Q` holds up to there. -/
theorem keeps_until {inv Q : σ → Prop} (x : Execution step)
    (hstep : ∀ a s s', inv s → ¬ Q s → step a s = .ok s' → inv s') {n m : Nat}
    (hn : inv (x.state n)) (hnot : ∀ k, n ≤ k → k < m → ¬ Q (x.state k)) {k : Nat} (hk : n ≤ k)
    (hkm : k ≤ m) : inv (x.state k) := by
  induction k, hk using Nat.le_induction with
  | base => exact hn
  | succ k hk ih =>
    exact hstep _ _ _ (ih (Nat.le_of_succ_le hkm)) (hnot k hk hkm) (x.next k)

/-- **The states of an execution** are where its actions lead. -/
theorem run_take (x : Execution step) (n : Nat) :
    run step ((List.range n).map x.action) (x.state 0) = .ok (x.state n) := by
  induction n with
  | zero => rfl
  | succ n ih =>
    have hlast : run step [x.action n] (x.state n) = .ok (x.state (n + 1)) :=
      (run_cons_of_ok (x.next n)).trans rfl
    rw [List.range_succ, List.map_append, run, List.foldlM_append]
    exact (congrArg (· >>= _) ih).trans hlast

/-- Where no interleaving fails, every sequence of actions is an execution. -/
theorem exists_of_total {s : σ} (htotal : ∀ actions, ∃ t, run step actions s = .ok t)
    (actions : Nat → α) : ∃ x : Execution step, x.state 0 = s ∧ x.action = actions := by
  choose state hstate using fun n => htotal ((List.range n).map actions)
  have hnext : ∀ n, step (actions n) (state n) = .ok (state (n + 1)) := by
    intro n
    have hsucc := hstate (n + 1)
    rw [List.range_succ, List.map_append, run, List.foldlM_append] at hsucc
    have hfirst : List.foldlM (fun s a => step a s) s ((List.range n).map actions) =
        .ok (state n) := hstate n
    rw [hfirst] at hsucc
    cases hact : step (actions n) (state n) with
    | error e =>
      simp [hact, bind, Except.bind] at hsucc
    | ok t =>
      simp only [List.map_cons, List.map_nil, List.foldlM_cons, List.foldlM_nil, hact, bind,
        Except.bind, pure, Except.pure] at hsucc
      rw [Except.ok.inj hsucc]
  exact ⟨⟨state, actions, hnext⟩, (Except.ok.inj (hstate 0)).symm, rfl⟩

end Execution

/-- In every execution fair to these classes, a state of `P` is followed by one
of `Q`. -/
def LeadsTo (step : α → σ → Except ε σ) (classes : Set (Set α)) (P Q : σ → Prop) : Prop :=
  ∀ x : Execution step, x.Fair classes → ∀ n, P (x.state n) → ∃ m, n ≤ m ∧ Q (x.state m)

namespace LeadsTo

variable {classes : Set (Set α)} {P Q R : σ → Prop}

theorem of_imp (h : ∀ s, P s → Q s) : LeadsTo step classes P Q :=
  fun _ _ n hn => ⟨n, le_rfl, h _ hn⟩

/-- **One after the other.** -/
theorem trans (hPQ : LeadsTo step classes P Q) (hQR : LeadsTo step classes Q R) :
    LeadsTo step classes P R := by
  intro x hfair n hn
  obtain ⟨m, hnm, hm⟩ := hPQ x hfair n hn
  obtain ⟨k, hmk, hk⟩ := hQR x hfair m hm
  exact ⟨k, hnm.trans hmk, hk⟩

/-- The first state of `Q`. -/
theorem exists_first (hPQ : LeadsTo step classes P Q) {x : Execution step} (hfair : x.Fair classes)
    {n : Nat} (hn : P (x.state n)) :
    ∃ m, n ≤ m ∧ Q (x.state m) ∧ ∀ k, n ≤ k → k < m → ¬ Q (x.state k) := by
  classical
  have hex := hPQ x hfair n hn
  obtain ⟨hle, hq⟩ := Nat.find_spec hex
  exact ⟨Nat.find hex, hle, hq, fun k hk hkm hqk => Nat.find_min hex hkm ⟨hk, hqk⟩⟩

theorem imp_left (h : ∀ s, P s → Q s) (hQR : LeadsTo step classes Q R) :
    LeadsTo step classes P R :=
  (of_imp h).trans hQR

theorem imp_right (hPQ : LeadsTo step classes P Q) (h : ∀ s, Q s → R s) :
    LeadsTo step classes P R :=
  hPQ.trans (of_imp h)

/-- **Cases.** -/
theorem or (hPR : LeadsTo step classes P R) (hQR : LeadsTo step classes Q R) :
    LeadsTo step classes (fun s => P s ∨ Q s) R := by
  rintro x hfair n (hn | hn)
  · exact hPR x hfair n hn
  · exact hQR x hfair n hn

theorem of_exists {ι : Sort*} {P : ι → σ → Prop} (h : ∀ i, LeadsTo step classes (P i) R) :
    LeadsTo step classes (fun s => ∃ i, P i s) R := by
  rintro x hfair n ⟨i, hn⟩
  exact h i x hfair n hn

/-- **One step.**  Every action keeps `P` or reaches `Q`, and the actions of one
of the classes reach `Q`. -/
theorem ensures {c : Set α} (hc : c ∈ classes)
    (keeps : ∀ a s s', P s → step a s = .ok s' → P s' ∨ Q s')
    (helps : ∀ a ∈ c, ∀ s s', P s → step a s = .ok s' → Q s') :
    LeadsTo step classes P Q := by
  intro x hfair n hn
  by_contra hnever
  have hnot : ∀ m, n ≤ m → ¬ Q (x.state m) := fun m hm hq => hnever ⟨m, hm, hq⟩
  have hkept : ∀ m, n ≤ m → P (x.state m) := by
    intro m hm
    induction m, hm using Nat.le_induction with
    | base => exact hn
    | succ m hm ih =>
      exact (keeps _ _ _ ih (x.next m)).resolve_right (hnot (m + 1) (Nat.le_succ_of_le hm))
  obtain ⟨m, hm, hturn⟩ := hfair c hc n
  exact hnot (m + 1) (Nat.le_succ_of_le hm) (helps _ hturn _ _ (hkept m hm) (x.next m))

/-- **A rank that falls** as long as `Q` is not reached. -/
theorem of_wellFounded {β : Type*} [Preorder β] [WellFoundedLT β] (rank : σ → β)
    (h : ∀ b, LeadsTo step classes (fun s => P s ∧ rank s = b)
      (fun s => Q s ∨ P s ∧ rank s < b)) : LeadsTo step classes P Q := by
  have hall : ∀ b, LeadsTo step classes (fun s => P s ∧ rank s = b) Q := by
    intro b
    induction b using WellFoundedLT.induction with
    | ind b ih =>
      intro x hfair n hn
      obtain ⟨m, hnm, hq | ⟨hp, hlt⟩⟩ := h b x hfair n hn
      · exact ⟨m, hnm, hq⟩
      · obtain ⟨k, hmk, hk⟩ := ih _ hlt x hfair m ⟨hp, rfl⟩
        exact ⟨k, hnm.trans hmk, hk⟩
  exact fun x hfair n hn => hall _ x hfair n ⟨hn, rfl⟩

end LeadsTo

end Schedule
