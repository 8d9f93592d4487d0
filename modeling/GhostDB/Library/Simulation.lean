import GhostDB.Library.Prog

/-!
# Handlers that simulate each other

Two handlers of one signature, over states of different types.  When every call
gets the same answer from both, or the same fault, and leaves related states
related, then so does every program, run to its end or cut off by a crash.

* `Agrees` — two outcomes are the same fault or related results.
* `Handler.Simulates` — the condition on the calls.
* `Handler.Simulates.run`, `Handler.Simulates.cut` — and the two consequences.
-/

/-- The same fault, or related results. -/
inductive Agrees {ε α β : Type} (Q : α → β → Prop) : Except ε α → Except ε β → Prop
  | error (e : ε) : Agrees Q (.error e) (.error e)
  | ok {a : α} {b : β} (h : Q a b) : Agrees Q (.ok a) (.ok b)

namespace Agrees

variable {ε α β γ δ : Type} {Q : α → β → Prop} {Q' : γ → δ → Prop} {x : Except ε α}
  {y : Except ε β}

/-- Related results of the first part are enough for the second to agree. -/
theorem bind {f : α → Except ε γ} {g : β → Except ε δ} (h : Agrees Q x y)
    (hfg : ∀ a b, Q a b → Agrees Q' (f a) (g b)) : Agrees Q' (x.bind f) (y.bind g) := by
  cases h with
  | error e => exact .error e
  | ok hab => exact hfg _ _ hab

theorem of_eq {a : α} {b : β} (hx : x = .ok a) (hy : y = .ok b) (h : Q a b) : Agrees Q x y := by
  subst hx hy
  exact .ok h

/-- What is known of every result of one side may be added. -/
theorem and_left {P : α → Prop} (h : Agrees Q x y) (hx : ∀ a, x = .ok a → P a) :
    Agrees (fun a b => Q a b ∧ P a) x y := by
  cases h with
  | error e => exact .error e
  | ok hab => exact .ok ⟨hab, hx _ rfl⟩

theorem imp {R : α → β → Prop} (h : Agrees Q x y) (hQR : ∀ a b, Q a b → R a b) :
    Agrees R x y := by
  cases h with
  | error e => exact .error e
  | ok hab => exact .ok (hQR _ _ hab)

theorem map {f : α → γ} {g : β → δ} (h : Agrees Q x y) (hfg : ∀ a b, Q a b → Q' (f a) (g b)) :
    Agrees Q' (x.map f) (y.map g) := by
  cases h with
  | error e => exact .error e
  | ok hab => exact .ok (hfg _ _ hab)

theorem map_left {R : γ → β → Prop} {f : α → γ} (h : Agrees Q x y)
    (hf : ∀ a b, Q a b → R (f a) b) : Agrees R (x.map f) y := by
  cases h with
  | error e => exact .error e
  | ok hab => exact .ok (hf _ _ hab)

/-- A result of one side is a result of the other. -/
theorem exists_left {b : β} (h : Agrees Q x y) (hy : y = .ok b) : ∃ a, x = .ok a ∧ Q a b := by
  subst hy
  cases h with
  | ok hab => exact ⟨_, rfl, hab⟩

end Agrees

/-- The same answer, in related states. -/
def SameAnswer {α σ τ : Type} (R : σ → τ → Prop) (x : α × σ) (y : α × τ) : Prop :=
  x.1 = y.1 ∧ R x.2 y.2

/-- The same end of a cut program, in related states. -/
inductive Cut.Same {α σ τ : Type} (R : σ → τ → Prop) : Cut α σ → Cut α τ → Prop
  | done {s : σ} {t : τ} (a : α) (left : Nat) (h : R s t) : Same R (.done a left s) (.done a left t)
  | stopped {s : σ} {t : τ} (h : R s t) : Same R (.stopped s) (.stopped t)

theorem Cut.Same.state {α σ τ : Type} {R : σ → τ → Prop} {c : Cut α σ} {d : Cut α τ}
    (h : Cut.Same R c d) : R c.state d.state := by
  cases h with
  | done a left h => exact h
  | stopped h => exact h

section

variable {S : Sig} {σ τ ε α : Type}

/-- **One handler simulates another** on the calls that are not excluded. -/
def Handler.Simulates (excluded : S.Op → Bool) (R : σ → τ → Prop) (h : Handler S σ ε)
    (g : Handler S τ ε) : Prop :=
  ∀ o s t, excluded o = false → R s t → Agrees (SameAnswer R) (h o s) (g o t)

namespace Handler.Simulates

open Prog

variable {excluded : S.Op → Bool} {R : σ → τ → Prop} {h : Handler S σ ε} {g : Handler S τ ε}
  (hsim : Handler.Simulates excluded R h g)

include hsim in
/-- **Every program runs the same way** against both. -/
theorem run {p : Prog S α} (hp : Pure excluded p) {s : σ} {t : τ} (hst : R s t) :
    Agrees (SameAnswer R) (Prog.run h p s) (Prog.run g p t) := by
  induction p generalizing s t with
  | ret a => exact .ok ⟨rfl, hst⟩
  | call o k ih =>
    rw [run_call, run_call]
    refine (hsim o s t hp.1 hst).bind ?_
    rintro ⟨r, s'⟩ ⟨_, t'⟩ ⟨rfl, hst'⟩
    exact ih r (hp.2 r) hst'

include hsim in
/-- **So it does up to every crash point.** -/
theorem cut {p : Prog S α} (hp : Pure excluded p) (isWrite : S.Op → Bool) (n : Nat) {s : σ} {t : τ}
    (hst : R s t) : Agrees (Cut.Same R) (Prog.cut isWrite h p n s) (Prog.cut isWrite g p n t) := by
  induction p generalizing n s t with
  | ret a => exact .ok (.done a n hst)
  | call o k ih =>
    have hrest : ∀ m, Agrees (Cut.Same R)
        ((h o s).bind fun x => Prog.cut isWrite h (k x.1) m x.2)
        ((g o t).bind fun x => Prog.cut isWrite g (k x.1) m x.2) := by
      intro m
      refine (hsim o s t hp.1 hst).bind ?_
      rintro ⟨r, s'⟩ ⟨_, t'⟩ ⟨rfl, hst'⟩
      exact ih r (hp.2 r) m hst'
    cases hw : isWrite o with
    | false =>
      rw [cut_call_of_read hw, cut_call_of_read hw]
      exact hrest n
    | true =>
      cases n with
      | zero =>
        rw [cut_call_zero hw, cut_call_zero hw]
        exact .ok (.stopped hst)
      | succ n =>
        rw [cut_call_succ hw, cut_call_succ hw]
        exact hrest n

end Handler.Simulates

end
