import GhostDB.Library.Interference

/-!
# Proof outlines

Pre- and postconditions of programs under interference.  A predicate the other
party preserves is *stable*; an outline states what holds at every point of a
program's executions and at their end, and outlines are composed along the
program.

* `Outline.bind` — outlines of two parts make one of the sequence.
* `Outline.op`, `Outline.ret` — a single call, and the end.
* `Outline.of_pure` — an invariant of the calls a program may make.
-/

namespace Prog

variable {S : Sig} {α β σ ε : Type}

/-- The other party preserves the predicate. -/
def Stable (env : σ → σ → Prop) (P : σ → Prop) : Prop := ∀ s s', P s → env s s' → P s'

/-- **A proof outline**: from `P` on, `R` holds at every point of every
execution, and `Q` of the answer at its end. -/
def Outline (h : Handler S σ ε) (env : σ → σ → Prop) (P : σ → Prop) (p : Prog S α)
    (R : σ → Prop) (Q : α → σ → Prop) : Prop :=
  ∀ s os q t, P s → Steps h env p s os q t → R t ∧ ∀ a, q = .ret a → Q a t

/-- **Executions of one call**: it is still due, or it has been made. -/
theorem Steps.cases_op {h : Handler S σ ε} {env : σ → σ → Prop} {P : σ → Prop} {o : S.Op}
    {Q : S.Res o → σ → Prop} (hP : Stable env P) (hQ : ∀ r, Stable env (Q r))
    (hcall : ∀ s s' r, P s → h o s = .ok (r, s') → Q r s') {s t : σ} {os : List S.Op}
    {q : Prog S (S.Res o)} (hsteps : Steps h env (op o) s os q t) (hs : P s) :
    (os = [] ∧ q = op o ∧ P t) ∨ ∃ r, os = [o] ∧ q = .ret r ∧ Q r t := by
  generalize hop : op o = p at hsteps
  induction hsteps with
  | refl p s => exact .inl ⟨rfl, rfl, hs⟩
  | call ok rest ih =>
    cases hop
    obtain ⟨hos, hq, ht⟩ := rest.of_ret (hQ _) (hcall _ _ _ hs ok)
    exact .inr ⟨_, by rw [hos], hq, ht⟩
  | env moves rest ih => exact ih (hP _ _ hs moves) hop

/-- Until a call is made only the other party acts. -/
theorem Steps.before_call {h : Handler S σ ε} {env : σ → σ → Prop} {P : σ → Prop} {o : S.Op}
    {k : S.Res o → Prog S α} (hP : Stable env P) {s t : σ} {os : List S.Op} {q : Prog S α}
    (hsteps : Steps h env (.call o k) s os q t) (ho : o ∉ os) (hs : P s) : P t := by
  generalize hcall : (.call o k : Prog S α) = p at hsteps
  induction hsteps with
  | refl p s => exact hs
  | call ok rest ih =>
    cases hcall
    exact absurd (List.mem_cons_self ..) ho
  | env moves rest ih => exact ih ho (hP _ _ hs moves) hcall

namespace Outline

variable {h : Handler S σ ε} {env : σ → σ → Prop} {P P' R R' : σ → Prop}

theorem ret (hP : Stable env P) (a : α) :
    Outline h env P (.ret a : Prog S α) P fun a' t => a' = a ∧ P t := by
  intro s os q t hs hsteps
  obtain ⟨-, rfl, ht⟩ := hsteps.of_ret hP hs
  refine ⟨ht, ?_⟩
  intro a' heq
  cases heq
  exact ⟨rfl, ht⟩

theorem op {o : S.Op} {Q : S.Res o → σ → Prop} (hP : Stable env P) (hQ : ∀ r, Stable env (Q r))
    (hcall : ∀ s s' r, P s → h o s = .ok (r, s') → Q r s') :
    Outline h env P (op o) (fun t => P t ∨ ∃ r, Q r t) Q := by
  intro s os q t hs hsteps
  rcases hsteps.cases_op hP hQ hcall hs with ⟨-, rfl, ht⟩ | ⟨r, -, rfl, ht⟩
  · exact ⟨.inl ht, fun a heq => nomatch heq⟩
  · refine ⟨.inr ⟨r, ht⟩, ?_⟩
    intro a heq
    cases heq
    exact ht

/-- A call that always fails is never got past. -/
theorem of_error {o : S.Op} {k : S.Res o → Prog S α} {Q : α → σ → Prop} (hP : Stable env P)
    (herr : ∀ s, ∃ e, h o s = .error e) : Outline h env P (.call o k) P Q := by
  intro s os q t hs hsteps
  generalize hcall : (.call o k : Prog S α) = p at hsteps
  induction hsteps with
  | refl p s =>
    refine ⟨hs, ?_⟩
    intro a heq
    exact nomatch hcall.trans heq
  | @call o' k' s s' t r os q ok rest ih =>
    cases hcall
    obtain ⟨e, he⟩ := herr s
    exact nomatch he.symm.trans ok
  | env moves rest ih => exact ih (hP _ _ hs moves) hcall

/-- **The outline of a sequence.** -/
theorem bind {p : Prog S α} {f : α → Prog S β} {Q' : α → σ → Prop} {Q : β → σ → Prop}
    (hp : Outline h env P p R Q') (hf : ∀ a, Outline h env (Q' a) (f a) R Q) :
    Outline h env P (p >>= f) R Q := by
  intro s os q t hs hsteps
  rcases hsteps.cases_bind with ⟨p', rfl, hfirst⟩ | ⟨a, u, os₁, os₂, -, hfirst, hsecond⟩
  · obtain ⟨ht, hend⟩ := hp s os p' t hs hfirst
    refine ⟨ht, ?_⟩
    intro b heq
    cases p' with
    | ret a => exact (hf a t [] _ t (hend a rfl) (.refl _ _)).2 b heq
    | call o k => exact nomatch heq
  · exact hf a u os₂ q t ((hp s os₁ _ u hs hfirst).2 a rfl) hsecond

/-- Weaker conclusions from a stronger start. -/
theorem mono {p : Prog S α} {Q Q' : α → σ → Prop} (hp : Outline h env P p R Q)
    (hpre : ∀ s, P' s → P s) (hpoint : ∀ s, R s → R' s) (hpost : ∀ a s, Q a s → Q' a s) :
    Outline h env P' p R' Q' := by
  intro s os q t hs hsteps
  obtain ⟨ht, hend⟩ := hp s os q t (hpre s hs) hsteps
  exact ⟨hpoint t ht, fun a heq => hpost a t (hend a heq)⟩

/-- An invariant of the other party and of the calls the program may make. -/
theorem of_pure {w : S.Op → Bool} (hP : Stable env P)
    (hcall : ∀ o s s' r, w o = false → P s → h o s = .ok (r, s') → P s') {p : Prog S α}
    (hp : Pure w p) : Outline h env P p P fun _ => P := by
  intro s os q t hs hsteps
  have ht := (hsteps.invariant hP hcall hp hs).1
  exact ⟨ht, fun _ _ => ht⟩

end Outline

end Prog
