import Mathlib

/-!
# Programs as trees of calls

A sequential program that talks to shared state through a fixed set of
operations, written once and executed in three ways:

* `Prog.run` — to the end, every call answered at once by a handler;
* `Prog.cut` — until a given number of the calls marked as writes have been
  made, which is what a crash leaves;
* one `call` node at a time, by a transition system that interleaves several
  programs over the same state.

Signatures add up (`Sig.sum`), and a program over one of them is a program over
the sum (`inl`).  `run` and `cut` commute with sequencing (`run_bind`, `cut_bind`), so a fact
about a piece of a program is used as it stands inside a larger one.  The two
loop shapes `firstSome` (search with an early return) and `forUntil` (a loop
left by `break`) flatten when nested (`firstSome_flatMap`, `forUntil_flatMap`).
-/

/-- The operations a program may call, each with the type of its answer. -/
structure Sig where
  /-- The operations. -/
  Op : Type
  /-- What each operation answers. -/
  Res : Op → Type

/-- A program over a signature: finished with a value, or waiting for the answer
to a call. -/
inductive Prog (S : Sig) (α : Type) : Type
  | ret (a : α)
  | call (op : S.Op) (k : S.Res op → Prog S α)

/-- How calls act on the state: an answer and the next state, or a fault. -/
abbrev Handler (S : Sig) (σ ε : Type) := (op : S.Op) → σ → Except ε (S.Res op × σ)

/-- Two signatures side by side. -/
def Sig.sum (S T : Sig) : Sig where
  Op := S.Op ⊕ T.Op
  Res
    | .inl o => S.Res o
    | .inr o => T.Res o

/-- Two handlers over one state, side by side. -/
def Handler.sum {S T : Sig} {σ ε : Type} (h : Handler S σ ε) (h' : Handler T σ ε) :
    Handler (S.sum T) σ ε
  | .inl o, s => h o s
  | .inr o, s => h' o s

/-- What executing a program up to a crash point leaves: it finished with some
writes of the budget left, or it stopped in front of a write. -/
inductive Cut (α σ : Type)
  | done (a : α) (left : Nat) (s : σ)
  | stopped (s : σ)

/-- The state at the crash point. -/
def Cut.state {α σ : Type} : Cut α σ → σ
  | .done _ _ s => s
  | .stopped s => s

namespace Prog

variable {S : Sig} {α β γ σ ε : Type}

/-- Sequencing. -/
def bind : Prog S α → (α → Prog S β) → Prog S β
  | .ret a, f => f a
  | .call op k, f => .call op fun r => bind (k r) f

instance : Monad (Prog S) where
  pure := .ret
  bind := bind

@[simp] theorem pure_eq (a : α) : (pure a : Prog S α) = .ret a := rfl

@[simp] theorem ret_bind (a : α) (f : α → Prog S β) : (.ret a >>= f) = f a := rfl

@[simp] theorem call_bind (op : S.Op) (k : S.Res op → Prog S α) (f : α → Prog S β) :
    (.call op k >>= f) = .call op fun r => k r >>= f := rfl

theorem bind_ret (p : Prog S α) : (p >>= .ret) = p := by
  induction p with
  | ret a => rfl
  | call op k ih => rw [call_bind]; exact congrArg _ (funext ih)

theorem bind_assoc' (p : Prog S α) (f : α → Prog S β) (g : β → Prog S γ) :
    (p >>= f >>= g) = (p >>= fun a => f a >>= g) := by
  induction p with
  | ret a => rfl
  | call op k ih => simp only [call_bind]; exact congrArg _ (funext ih)

instance : LawfulMonad (Prog S) :=
  LawfulMonad.mk' _ (fun p => bind_ret p) (fun _ _ => rfl) bind_assoc'

/-- The program that makes one call and returns its answer. -/
def op (o : S.Op) : Prog S (S.Res o) := .call o .ret

/-! ## Running to the end -/

/-- Run a program to its end. -/
def run (h : Handler S σ ε) : Prog S α → σ → Except ε (α × σ)
  | .ret a, s => .ok (a, s)
  | .call o k, s => (h o s).bind fun x => run h (k x.1) x.2

@[simp] theorem run_ret (h : Handler S σ ε) (a : α) (s : σ) :
    run h (.ret a : Prog S α) s = .ok (a, s) := rfl

theorem run_call (h : Handler S σ ε) (o : S.Op) (k : S.Res o → Prog S α) (s : σ) :
    run h (.call o k) s = (h o s).bind fun x => run h (k x.1) x.2 := rfl

/-- **Running a sequence** is running its first part and then, from the state it
leaves, its second. -/
theorem run_bind (h : Handler S σ ε) (p : Prog S α) (f : α → Prog S β) (s : σ) :
    run h (p >>= f) s = (run h p s).bind fun x => run h (f x.1) x.2 := by
  induction p generalizing s with
  | ret a => rfl
  | call o k ih =>
    rw [call_bind, run_call, run_call]
    cases h o s with
    | error e => rfl
    | ok x => exact ih x.1 x.2

theorem run_bind_of_ok {h : Handler S σ ε} {p : Prog S α} {f : α → Prog S β} {s s' : σ} {a : α}
    (hp : run h p s = .ok (a, s')) : run h (p >>= f) s = run h (f a) s' := by
  rw [run_bind, hp]; rfl

theorem run_bind_of_error {h : Handler S σ ε} {p : Prog S α} {f : α → Prog S β} {s : σ} {e : ε}
    (hp : run h p s = .error e) : run h (p >>= f) s = .error e := by
  rw [run_bind, hp]; rfl

theorem run_call_of_ok {h : Handler S σ ε} {o : S.Op} {k : S.Res o → Prog S α} {s s' : σ}
    {r : S.Res o} (ho : h o s = .ok (r, s')) : run h (.call o k) s = run h (k r) s' := by
  rw [run_call, ho]; rfl

/-- A sequence ends only through the end of its first part. -/
theorem run_bind_eq_ok {h : Handler S σ ε} {p : Prog S α} {f : α → Prog S β} {s : σ}
    {x : β × σ} (hrun : run h (p >>= f) s = .ok x) :
    ∃ a t, run h p s = .ok (a, t) ∧ run h (f a) t = .ok x := by
  cases hp : run h p s with
  | error e =>
    rw [run_bind_of_error hp] at hrun
    cases hrun
  | ok y =>
    rw [run_bind_of_ok hp] at hrun
    exact ⟨y.1, y.2, rfl, hrun⟩

theorem run_op (h : Handler S σ ε) (o : S.Op) (s : σ) : run h (op o) s = h o s := by
  rw [op, run_call]
  cases h o s <;> rfl

/-! ## Programs of one signature inside a sum -/

section Sum

variable {T : Sig}

/-- A program of the left signature. -/
def inl : Prog S α → Prog (S.sum T) α
  | .ret a => .ret a
  | .call o k => .call (.inl o) fun r => inl (k r)

theorem inl_bind (p : Prog S α) (f : α → Prog S β) :
    (inl (p >>= f) : Prog (S.sum T) β) = (inl p >>= fun a => inl (f a)) := by
  induction p with
  | ret a => rfl
  | call o k ih => exact congrArg (Prog.call (S := S.sum T) (.inl o)) (funext ih)

/-- Only the left handler answers it. -/
theorem run_inl (h : Handler S σ ε) (h' : Handler T σ ε) (p : Prog S α) (s : σ) :
    run (h.sum h') (inl p) s = run h p s := by
  induction p generalizing s with
  | ret a => rfl
  | call o k ih =>
    rw [run_call]
    refine (run_call ..).trans ?_
    cases hs : h o s with
    | error e => rw [Handler.sum, hs]; rfl
    | ok x => rw [Handler.sum, hs]; exact ih x.1 x.2

end Sum

/-! ## Running up to a crash -/

/-- Run a program until `n` of its writes have been made and the next one is
due. -/
def cut (isWrite : S.Op → Bool) (h : Handler S σ ε) :
    Prog S α → Nat → σ → Except ε (Cut α σ)
  | .ret a, n, s => .ok (.done a n s)
  | .call o k, n, s =>
    if isWrite o then
      match n with
      | 0 => .ok (.stopped s)
      | n + 1 => (h o s).bind fun x => cut isWrite h (k x.1) n x.2
    else (h o s).bind fun x => cut isWrite h (k x.1) n x.2

variable {w : S.Op → Bool}

@[simp] theorem cut_ret (h : Handler S σ ε) (a : α) (n : Nat) (s : σ) :
    cut w h (.ret a : Prog S α) n s = .ok (.done a n s) := rfl

/-- A call that is not a write is always answered. -/
theorem cut_call_of_read {h : Handler S σ ε} {o : S.Op} {k : S.Res o → Prog S α}
    (ho : w o = false) (n : Nat) (s : σ) :
    cut w h (.call o k) n s = (h o s).bind fun x => cut w h (k x.1) n x.2 := by
  rw [cut.eq_def]; simp [ho]

/-- With no budget left the program stops in front of the write. -/
theorem cut_call_zero {h : Handler S σ ε} {o : S.Op} {k : S.Res o → Prog S α}
    (ho : w o = true) (s : σ) : cut w h (.call o k) 0 s = .ok (.stopped s) := by
  rw [cut.eq_def]; simp [ho]

theorem cut_call_succ {h : Handler S σ ε} {o : S.Op} {k : S.Res o → Prog S α}
    (ho : w o = true) (n : Nat) (s : σ) :
    cut w h (.call o k) (n + 1) s = (h o s).bind fun x => cut w h (k x.1) n x.2 := by
  rw [cut.eq_def]; simp [ho]

/-- Cutting a sequence is cutting its first part and, if that finished, its
second with the writes that are left. -/
theorem cut_bind (h : Handler S σ ε) (p : Prog S α) (f : α → Prog S β) (n : Nat) (s : σ) :
    cut w h (p >>= f) n s = (cut w h p n s).bind fun
      | .done a m s' => cut w h (f a) m s'
      | .stopped s' => .ok (.stopped s') := by
  induction p generalizing n s with
  | ret a => rfl
  | call o k ih =>
    rw [call_bind]
    cases hw : w o with
    | true =>
      cases n with
      | zero => rw [cut_call_zero hw, cut_call_zero hw]; rfl
      | succ n =>
        rw [cut_call_succ hw, cut_call_succ hw]
        cases h o s with
        | error e => rfl
        | ok x => exact ih x.1 n x.2
    | false =>
      rw [cut_call_of_read hw, cut_call_of_read hw]
      cases h o s with
      | error e => rfl
      | ok x => exact ih x.1 n x.2

theorem cut_bind_of_done {h : Handler S σ ε} {p : Prog S α} {f : α → Prog S β} {n m : Nat}
    {s s' : σ} {a : α} (hp : cut w h p n s = .ok (.done a m s')) :
    cut w h (p >>= f) n s = cut w h (f a) m s' := by
  rw [cut_bind, hp]; rfl

theorem cut_bind_of_stopped {h : Handler S σ ε} {p : Prog S α} {f : α → Prog S β} {n : Nat}
    {s s' : σ} (hp : cut w h p n s = .ok (.stopped s')) :
    cut w h (p >>= f) n s = .ok (.stopped s') := by
  rw [cut_bind, hp]; rfl

/-- A write is the next crash point. -/
theorem cut_op_zero {h : Handler S σ ε} {o : S.Op} (ho : w o = true) (s : σ) :
    cut w h (op o) 0 s = .ok (.stopped s) := cut_call_zero ho s

theorem cut_op_succ {h : Handler S σ ε} {o : S.Op} (ho : w o = true) {n : Nat} {s s' : σ}
    {r : S.Res o} (hr : h o s = .ok (r, s')) : cut w h (op o) (n + 1) s = .ok (.done r n s') := by
  rw [op, cut_call_succ ho, hr]
  rfl

/-- A program that ends before its crash point has run to its end. -/
theorem run_of_cut_done {h : Handler S σ ε} {p : Prog S α} {n m : Nat} {s s' : σ} {a : α}
    (hp : cut w h p n s = .ok (.done a m s')) : run h p s = .ok (a, s') := by
  induction p generalizing n s with
  | ret b => cases hp; rfl
  | call o k ih =>
    rw [run_call]
    cases hw : w o with
    | true =>
      cases n with
      | zero => rw [cut_call_zero hw] at hp; cases hp
      | succ n =>
        rw [cut_call_succ hw] at hp
        cases ho : h o s with
        | error e => rw [ho] at hp; cases hp
        | ok x => rw [ho] at hp; exact ih x.1 hp
    | false =>
      rw [cut_call_of_read hw] at hp
      cases ho : h o s with
      | error e => rw [ho] at hp; cases hp
      | ok x => rw [ho] at hp; exact ih x.1 hp

/-- A program none of whose calls is a write. -/
def Pure (w : S.Op → Bool) : Prog S α → Prop
  | .ret _ => True
  | .call o k => w o = false ∧ ∀ r, Pure w (k r)

/-- No crash point lies inside a program that makes no write. -/
theorem cut_of_pure {h : Handler S σ ε} {p : Prog S α} (hp : Pure w p) {n : Nat} {s s' : σ}
    {a : α} (hrun : run h p s = .ok (a, s')) : cut w h p n s = .ok (.done a n s') := by
  induction p generalizing s with
  | ret b => cases hrun; rfl
  | call o k ih =>
    rw [run_call] at hrun
    rw [cut_call_of_read hp.1]
    cases ho : h o s with
    | error e => rw [ho] at hrun; cases hrun
    | ok x => rw [ho] at hrun; exact ih x.1 (hp.2 x.1) hrun

theorem Pure.bind {p : Prog S α} {f : α → Prog S β} (hp : Pure w p) (hf : ∀ a, Pure w (f a)) :
    Pure w (p >>= f) := by
  induction p with
  | ret a => exact hf a
  | call o k ih => exact ⟨hp.1, fun r => ih r (hp.2 r)⟩

theorem Pure.op {o : S.Op} (ho : w o = false) : Pure w (op o) := ⟨ho, fun _ => trivial⟩

/-- No program makes a call there is none of. -/
theorem Pure.of_forall (hw : ∀ o, w o = false) (p : Prog S α) : Pure w p := by
  induction p with
  | ret a => trivial
  | call o k ih => exact ⟨hw o, ih⟩

/-- A program of the left signature makes the calls it made there. -/
theorem Pure.inl {T : Sig} {w : (S.sum T).Op → Bool} {p : Prog S α}
    (hp : Pure (fun o => w (.inl o)) p) : Pure w (p.inl : Prog (S.sum T) α) := by
  induction p with
  | ret a => trivial
  | call o k ih => exact ⟨hp.1, fun r => ih r (hp.2 r)⟩

/-- A program that makes none of some calls makes none of fewer. -/
theorem Pure.mono {w' : S.Op → Bool} {p : Prog S α} (hp : Pure w p)
    (hw : ∀ o, w o = false → w' o = false) : Pure w' p := by
  induction p with
  | ret a => trivial
  | call o k ih => exact ⟨hw o hp.1, fun r => ih r (hp.2 r)⟩

/-- **What the calls of a program preserve** holds after its run. -/
theorem run_invariant {h : Handler S σ ε} {I : σ → Prop}
    (hcall : ∀ o s s' r, w o = false → I s → h o s = .ok (r, s') → I s') {p : Prog S α}
    (hp : Pure w p) {s t : σ} {a : α} (hs : I s) (hrun : run h p s = .ok (a, t)) : I t := by
  induction p generalizing s with
  | ret b =>
    cases hrun
    exact hs
  | call o k ih =>
    cases ho : h o s with
    | error e =>
      rw [run_call, ho] at hrun
      cases hrun
    | ok x =>
      rw [run_call_of_ok ho] at hrun
      exact ih x.1 (hp.2 x.1) (hcall o s x.2 x.1 hp.1 hs ho) hrun

/-! ## What a program returns -/

/-- Whatever the answers, the program returns only such values. -/
def Returns (Q : α → Prop) : Prog S α → Prop
  | .ret a => Q a
  | .call _ k => ∀ r, Returns Q (k r)

/-- The rest of a sequence is entered with what its first part returns. -/
theorem Pure.bind_of_returns {Q : α → Prop} {p : Prog S α} {f : α → Prog S β} (hp : Pure w p)
    (hret : Returns Q p) (hf : ∀ a, Q a → Pure w (f a)) : Pure w (p >>= f) := by
  induction p with
  | ret a => exact hf a hret
  | call o k ih => exact ⟨hp.1, fun r => ih r (hp.2 r) (hret r)⟩

theorem Returns.bind {Q : α → Prop} {Q' : β → Prop} {p : Prog S α} {f : α → Prog S β}
    (hp : Returns Q p) (hf : ∀ a, Q a → Returns Q' (f a)) : Returns Q' (p >>= f) := by
  induction p with
  | ret a => exact hf a hp
  | call o k ih => exact fun r => ih r (hp r)

/-! ## Loops -/

/-- Run `body` on the elements in turn until one of them returns something. -/
def firstSome (body : α → Prog S (Option β)) : List α → Prog S (Option β)
  | [] => .ret none
  | x :: xs => do
    match ← body x with
    | some b => .ret (some b)
    | none => firstSome body xs

/-- Thread an accumulator through the elements until `body` says to stop; the
flag tells whether the loop ran to its end. -/
def forUntil (body : α → β → Prog S (Bool × β)) : List α → β → Prog S (Bool × β)
  | [], b => .ret (true, b)
  | x :: xs, b => do
    let (go, b') ← body x b
    if go then forUntil body xs b' else .ret (false, b')

theorem firstSome_append (body : α → Prog S (Option β)) (xs ys : List α) :
    firstSome body (xs ++ ys) = (do
      match ← firstSome body xs with
      | some b => .ret (some b)
      | none => firstSome body ys) := by
  induction xs with
  | nil => rfl
  | cons x xs ih =>
    simp only [List.cons_append, firstSome, bind_assoc]
    apply congrArg
    funext o
    cases o with
    | none => exact ih
    | some b => rfl

/-- Two nested searches are one search over the pairs. -/
theorem firstSome_flatMap {ι : Type} (f : ι → List α) (body : α → Prog S (Option β))
    (is : List ι) :
    firstSome (fun i => firstSome body (f i)) is = firstSome body (is.flatMap f) := by
  induction is with
  | nil => rfl
  | cons i is ih =>
    rw [List.flatMap_cons, firstSome_append, firstSome, ih]

theorem firstSome_map {ι : Type} (g : ι → α) (body : α → Prog S (Option β)) (is : List ι) :
    firstSome body (is.map g) = firstSome (fun i => body (g i)) is := by
  induction is with
  | nil => rfl
  | cons i is ih => simp only [List.map_cons, firstSome, ih]

/-- A search whose result is transformed is a search with a transformed body. -/
theorem firstSome_bind_map {δ : Type} (g : β → δ) (body : α → Prog S (Option β)) (xs : List α) :
    (firstSome body xs >>= fun o => (.ret (o.map g) : Prog S (Option δ))) =
      firstSome (fun x => body x >>= fun o => .ret (o.map g)) xs := by
  induction xs with
  | nil => rfl
  | cons x xs ih =>
    simp only [firstSome, bind_assoc]
    apply congrArg
    funext o
    cases o with
    | none => exact ih
    | some b => rfl

theorem forUntil_append (body : α → β → Prog S (Bool × β)) (xs ys : List α) (b : β) :
    forUntil body (xs ++ ys) b = (do
      let (go, b') ← forUntil body xs b
      if go then forUntil body ys b' else .ret (false, b')) := by
  induction xs generalizing b with
  | nil => rfl
  | cons x xs ih =>
    simp only [List.cons_append, forUntil, bind_assoc]
    apply congrArg
    funext p
    by_cases hp : p.1 = true
    · rw [if_pos hp, if_pos hp]; exact ih p.2
    · rw [if_neg hp, if_neg hp]; rfl

/-- Two nested loops left by one `break` are one loop over the pairs. -/
theorem forUntil_flatMap {ι : Type} (f : ι → List α) (body : α → β → Prog S (Bool × β))
    (is : List ι) (b : β) :
    forUntil (fun i b => forUntil body (f i) b) is b = forUntil body (is.flatMap f) b := by
  induction is generalizing b with
  | nil => rfl
  | cons i is ih =>
    rw [List.flatMap_cons, forUntil_append, forUntil]
    simp only [ih]

theorem forUntil_map {ι : Type} (g : ι → α) (body : α → β → Prog S (Bool × β)) (is : List ι)
    (b : β) : forUntil body (is.map g) b = forUntil (fun i b => body (g i) b) is b := by
  induction is generalizing b with
  | nil => rfl
  | cons i is ih => simp only [List.map_cons, forUntil, ih]

/-- A search makes the calls of its bodies. -/
theorem Pure.firstSome_of_mem {w : S.Op → Bool} {body : α → Prog S (Option β)} {xs : List α}
    (hbody : ∀ x ∈ xs, Pure w (body x)) : Pure w (firstSome body xs) := by
  induction xs with
  | nil => trivial
  | cons x xs ih =>
    refine Pure.bind (hbody x (List.mem_cons_self ..)) ?_
    intro o
    cases o with
    | none => exact ih fun y hy => hbody y (List.mem_cons_of_mem _ hy)
    | some b => trivial

theorem Pure.firstSome {w : S.Op → Bool} {body : α → Prog S (Option β)}
    (hbody : ∀ x, Pure w (body x)) (xs : List α) : Pure w (firstSome body xs) :=
  Pure.firstSome_of_mem fun x _ => hbody x

/-- So does a loop. -/
theorem Pure.forUntil_of_mem {w : S.Op → Bool} {body : α → β → Prog S (Bool × β)} {xs : List α}
    (hbody : ∀ x ∈ xs, ∀ b, Pure w (body x b)) (b : β) : Pure w (forUntil body xs b) := by
  induction xs generalizing b with
  | nil => trivial
  | cons x xs ih =>
    refine Pure.bind (hbody x (List.mem_cons_self ..) b) ?_
    rintro ⟨go, b'⟩
    cases go with
    | true => exact ih (fun y hy => hbody y (List.mem_cons_of_mem _ hy)) b'
    | false => trivial

theorem Pure.forUntil {w : S.Op → Bool} {body : α → β → Prog S (Bool × β)}
    (hbody : ∀ x b, Pure w (body x b)) (xs : List α) (b : β) : Pure w (forUntil body xs b) :=
  Pure.forUntil_of_mem (fun x _ => hbody x) b

/-- A search finds what one of its bodies returns. -/
theorem Returns.firstSome {Q : β → Prop} {body : α → Prog S (Option β)} {xs : List α}
    (hbody : ∀ x ∈ xs, Returns (fun o => ∀ b ∈ o, Q b) (body x)) :
    Returns (fun o => ∀ b ∈ o, Q b) (firstSome body xs) := by
  induction xs with
  | nil => exact fun b hb => absurd hb (by simp)
  | cons x xs ih =>
    refine (hbody x (List.mem_cons_self ..)).bind ?_
    intro o ho
    cases o with
    | none => exact ih fun y hy => hbody y (List.mem_cons_of_mem _ hy)
    | some b => exact ho

end Prog
