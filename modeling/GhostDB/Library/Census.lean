import Mathlib.Algebra.BigOperators.Group.Finset.Piecewise
import Mathlib.Data.Fintype.Card
import Mathlib.Tactic.Common

/-!
# How many threads are at a place

Finitely many threads, each at some place; `Census.count` is the number of those
at a place of a kind.

* `count_update` — one thread moves.
* `count_congr` — moves within a kind change nothing.
* `count_mono` / `count_lt` — when threads only leave.
* `count_le_card` / `count_pos` — the bounds.
-/

namespace Census

variable {ι τ : Type} [Fintype ι]

/-- The number of threads at a place of the kind `p`. -/
def count (p : τ → Bool) (places : ι → τ) : Nat :=
  (Finset.univ.filter fun i => p (places i) = true).card

variable {p : τ → Bool} {places places' : ι → τ}

theorem count_congr (h : ∀ i, p (places' i) = p (places i)) : count p places' = count p places := by
  simp only [count, h]

/-- Nobody comes to a place of the kind. -/
theorem count_mono (h : ∀ i, p (places' i) = true → p (places i) = true) :
    count p places' ≤ count p places :=
  Finset.card_le_card (Finset.monotone_filter_right _ fun i _ => h i)

/-- Nobody comes, and somebody leaves. -/
theorem count_lt (h : ∀ i, p (places' i) = true → p (places i) = true) {i : ι}
    (hi : p (places i) = true) (hi' : p (places' i) = false) :
    count p places' < count p places := by
  refine Finset.card_lt_card ⟨Finset.monotone_filter_right _ fun i _ => h i, ?_⟩
  intro hsub
  have hmem := hsub (Finset.mem_filter.2 ⟨Finset.mem_univ i, hi⟩)
  rw [(Finset.mem_filter.1 hmem).2] at hi'
  cases hi'

theorem count_le_card : count p places ≤ Fintype.card ι := Finset.card_le_univ _

theorem count_pos_iff : 0 < count p places ↔ ∃ i, p (places i) = true := by
  simp [count, Finset.card_pos, Finset.filter_nonempty_iff]

/-- **One thread moves**: it leaves the count of its old place and joins that of
its new one. -/
theorem count_update [DecidableEq ι] (i : ι) (t : τ) :
    count p (Function.update places i t) + (p (places i)).toNat =
      count p places + (p t).toNat := by
  have hsum : ∀ f : ι → τ, count p f =
      (p (f i)).toNat + ∑ j ∈ Finset.univ.erase i, (p (f j)).toNat := by
    intro f
    rw [Finset.add_sum_erase _ (fun j => (p (f j)).toNat) (Finset.mem_univ i), count,
      Finset.card_filter]
    exact Finset.sum_congr rfl fun j _ => by cases p (f j) <;> rfl
  have hrest : ∑ j ∈ Finset.univ.erase i, (p (Function.update places i t j)).toNat =
      ∑ j ∈ Finset.univ.erase i, (p (places j)).toNat :=
    Finset.sum_congr rfl fun j hj => by rw [Function.update_of_ne (Finset.ne_of_mem_erase hj)]
  rw [hsum, hsum places, hrest, Function.update_self]
  omega

end Census
