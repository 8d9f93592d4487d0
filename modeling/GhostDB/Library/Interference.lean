import GhostDB.Library.Prog

/-!
# Programs under interference

A program makes its calls one after another, and between any two of them another
party may change the state.  `Prog.Steps` is an execution of this kind, finished
or not, with the calls made so far; `Prog.calls` are the calls of an execution
nobody interferes with.

* `Steps.of_run`, `Steps.run_eq` — without interference an execution is a run.
* `Steps.cases_bind` — an execution of a sequence is still in its first part, or
  has gone on to its second.
* `Steps.invariant` — what the calls of a program and the other party preserve
  holds at every point of every execution.
* `Steps.simulation` — when the other party's changes do not show in the answers,
  every execution is one without interference.
-/

namespace Prog

variable {S : Sig} {α β σ τ ε : Type}

/-- An execution of a program from a state: the calls made so far, the program
that is left, and the state reached. -/
inductive Steps (h : Handler S σ ε) (env : σ → σ → Prop) :
    Prog S α → σ → List S.Op → Prog S α → σ → Prop
  /-- Nothing has happened. -/
  | refl (p : Prog S α) (s : σ) : Steps h env p s [] p s
  /-- The program makes a call. -/
  | call {o : S.Op} {k : S.Res o → Prog S α} {s s' t : σ} {r : S.Res o} {os : List S.Op}
      {q : Prog S α} (ok : h o s = .ok (r, s')) (rest : Steps h env (k r) s' os q t) :
      Steps h env (.call o k) s (o :: os) q t
  /-- The other party changes the state. -/
  | env {p q : Prog S α} {s s' t : σ} {os : List S.Op} (moves : env s s')
      (rest : Steps h env p s' os q t) : Steps h env p s os q t

/-- The calls a program makes until it ends or fails. -/
def calls (h : Handler S σ ε) : Prog S α → σ → List S.Op
  | .ret _, _ => []
  | .call o k, s => o :: match h o s with
    | .ok x => calls h (k x.1) x.2
    | .error _ => []

section Calls

variable {h : Handler S σ ε}

@[simp] theorem calls_ret (a : α) (s : σ) : calls h (.ret a : Prog S α) s = [] := rfl

theorem calls_call_of_ok {o : S.Op} {k : S.Res o → Prog S α} {s s' : σ} {r : S.Res o}
    (ho : h o s = .ok (r, s')) : calls h (.call o k) s = o :: calls h (k r) s' := by
  rw [calls, ho]

theorem calls_call_of_error {o : S.Op} {k : S.Res o → Prog S α} {s : σ} {e : ε}
    (ho : h o s = .error e) : calls h (.call o k) s = [o] := by
  rw [calls, ho]

theorem calls_op (o : S.Op) (s : σ) : calls h (op o) s = [o] := by
  cases ho : h o s with
  | ok x => exact calls_call_of_ok ho
  | error e => exact calls_call_of_error ho

/-- The calls of a sequence whose first part ends. -/
theorem calls_bind_of_ok {p : Prog S α} {f : α → Prog S β} {s t : σ} {a : α}
    (hp : run h p s = .ok (a, t)) : calls h (p >>= f) s = calls h p s ++ calls h (f a) t := by
  induction p generalizing s with
  | ret b =>
    cases hp
    rfl
  | call o k ih =>
    cases ho : h o s with
    | error e =>
      rw [run_call, ho] at hp
      cases hp
    | ok x =>
      rw [run_call_of_ok ho] at hp
      rw [call_bind, calls_call_of_ok ho, calls_call_of_ok ho, ih _ hp]
      rfl

/-- A program makes its first call. -/
theorem countP_calls_call_pos {w : S.Op → Bool} {o : S.Op} (ho : w o = true)
    (k : S.Res o → Prog S α) (s : σ) : 0 < (calls h (.call o k) s).countP w := by
  rw [calls, List.countP_cons_of_pos ho]
  exact Nat.succ_pos _

/-- A program makes no call it does not contain. -/
theorem countP_calls_of_pure {w : S.Op → Bool} {p : Prog S α} (hp : Pure w p) (s : σ) :
    (calls h p s).countP w = 0 := by
  induction p generalizing s with
  | ret a => rfl
  | call o k ih =>
    cases ho : h o s with
    | error e =>
      rw [calls_call_of_error ho, List.countP_cons_of_neg (by simp [hp.1])]
      rfl
    | ok x =>
      rw [calls_call_of_ok ho, List.countP_cons_of_neg (by simp [hp.1])]
      exact ih _ (hp.2 _) _

end Calls

namespace Steps

variable {h : Handler S σ ε} {env : σ → σ → Prop}

theorem trans {p q r : Prog S α} {s t u : σ} {os os' : List S.Op} (hpq : Steps h env p s os q t)
    (hqr : Steps h env q t os' r u) : Steps h env p s (os ++ os') r u := by
  induction hpq with
  | refl p s => exact hqr
  | call ok rest ih => exact .call ok (ih hqr)
  | env moves rest ih => exact .env moves (ih hqr)

/-! ## Without interference -/

/-- A run is an execution. -/
theorem of_run {p : Prog S α} {s t : σ} {a : α} (hrun : run h p s = .ok (a, t)) :
    Steps h env p s (calls h p s) (.ret a) t := by
  induction p generalizing s with
  | ret b =>
    cases hrun
    exact .refl _ _
  | call o k ih =>
    cases ho : h o s with
    | error e =>
      rw [run_call, ho] at hrun
      cases hrun
    | ok x =>
      rw [run_call_of_ok ho] at hrun
      rw [calls_call_of_ok ho]
      exact .call ho (ih _ hrun)

/-- An execution nobody interferes with is the front of the run. -/
theorem run_eq {p q : Prog S α} {s t : σ} {os : List S.Op}
    (hsteps : Steps h (fun _ _ => False) p s os q t) :
    run h p s = run h q t ∧ calls h p s = os ++ calls h q t := by
  induction hsteps with
  | refl p s => exact ⟨rfl, rfl⟩
  | call ok rest ih =>
    refine ⟨(run_call_of_ok ok).trans ih.1, ?_⟩
    rw [calls_call_of_ok ok, ih.2]
    rfl
  | env moves rest ih => exact moves.elim

/-! ## Sequences -/

/-- **An execution of a sequence** is still in the first part, or the first part
has ended and the second is being executed. -/
theorem cases_bind {p : Prog S α} {f : α → Prog S β} {s t : σ} {os : List S.Op} {q : Prog S β}
    (hsteps : Steps h env (p >>= f) s os q t) :
    (∃ p', q = (p' >>= f) ∧ Steps h env p s os p' t) ∨
      ∃ a u os₁ os₂, os = os₁ ++ os₂ ∧ Steps h env p s os₁ (.ret a) u ∧
        Steps h env (f a) u os₂ q t := by
  generalize hpf : (p >>= f) = pf at hsteps
  induction hsteps generalizing p with
  | refl pf s => exact .inl ⟨p, hpf.symm, .refl _ _⟩
  | @call o k s s' t r os q ok rest ih =>
    cases p with
    | ret a =>
      rw [ret_bind] at hpf
      refine .inr ⟨a, s, [], o :: os, rfl, .refl _ _, ?_⟩
      rw [hpf]
      exact .call ok rest
    | call o' k' =>
      rw [call_bind] at hpf
      cases hpf
      rcases ih rfl with ⟨p', hq, hp⟩ | ⟨a, u, os₁, os₂, rfl, hp, hf⟩
      · exact .inl ⟨p', hq, .call ok hp⟩
      · exact .inr ⟨a, u, o :: os₁, os₂, rfl, .call ok hp, hf⟩
  | env moves rest ih =>
    rcases ih hpf with ⟨p', hq, hp⟩ | ⟨a, u, os₁, os₂, hos, hp, hf⟩
    · exact .inl ⟨p', hq, .env moves hp⟩
    · exact .inr ⟨a, u, os₁, os₂, hos, .env moves hp, hf⟩

/-- The first part of a sequence, executed as part of it. -/
theorem bind {p p' : Prog S α} {s t : σ} {os : List S.Op} (hsteps : Steps h env p s os p' t)
    (f : α → Prog S β) : Steps h env (p >>= f) s os (p' >>= f) t := by
  induction hsteps with
  | refl p s => exact .refl _ _
  | call ok rest ih => exact .call ok ih
  | env moves rest ih => exact .env moves ih

/-! ## Invariants -/

/-- **Invariants.**  What the other party and the calls a program may make
preserve holds at every point of its executions; and it makes no other calls. -/
theorem invariant {w : S.Op → Bool} {I : σ → Prop} (henv : ∀ s s', I s → env s s' → I s')
    (hcall : ∀ o s s' r, w o = false → I s → h o s = .ok (r, s') → I s') {p q : Prog S α}
    {s t : σ} {os : List S.Op} (hsteps : Steps h env p s os q t) (hp : Pure w p) (hs : I s) :
    I t ∧ Pure w q ∧ ∀ o ∈ os, w o = false := by
  induction hsteps with
  | refl p s => exact ⟨hs, hp, by simp⟩
  | call ok rest ih =>
    obtain ⟨ht, hq, hos⟩ := ih (hp.2 _) (hcall _ _ _ _ hp.1 hs ok)
    exact ⟨ht, hq, List.forall_mem_cons.2 ⟨hp.1, hos⟩⟩
  | env moves rest ih => exact ih hp (henv _ _ hs moves)

/-- After the end of a program only the other party acts. -/
theorem of_ret {I : σ → Prop} (henv : ∀ s s', I s → env s s' → I s') {a : α} {q : Prog S α}
    {s t : σ} {os : List S.Op} (hsteps : Steps h env (.ret a) s os q t) (hs : I s) :
    os = [] ∧ q = .ret a ∧ I t := by
  generalize hret : (.ret a : Prog S α) = p at hsteps
  induction hsteps with
  | refl p s => exact ⟨rfl, rfl, hs⟩
  | call ok rest ih => cases hret
  | env moves rest ih => exact ih (henv _ _ hs moves) hret

/-! ## Simulation -/

/-- **Interference that does not show.**  When related states answer every call
alike and stay related, and the other party's changes keep them so, an execution
is one without interference from a related state. -/
theorem simulation {h' : Handler S τ ε} {R : σ → τ → Prop}
    (henv : ∀ s s' u, R s u → env s s' → R s' u)
    (hcall : ∀ o s s' r u, R s u → h o s = .ok (r, s') → ∃ u', h' o u = .ok (r, u') ∧ R s' u')
    {p q : Prog S α} {s t : σ} {u : τ} {os : List S.Op} (hsteps : Steps h env p s os q t)
    (hs : R s u) : ∃ v, Steps h' (fun _ _ => False) p u os q v ∧ R t v := by
  induction hsteps generalizing u with
  | refl p s => exact ⟨u, .refl _ _, hs⟩
  | call ok rest ih =>
    obtain ⟨u', hu, hs'⟩ := hcall _ _ _ _ _ hs ok
    obtain ⟨v, hv, ht⟩ := ih hs'
    exact ⟨v, .call hu hv, ht⟩
  | env moves rest ih => exact ih (henv _ _ _ hs moves)

end Steps

end Prog
