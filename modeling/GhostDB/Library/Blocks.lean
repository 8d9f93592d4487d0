import Mathlib.Algebra.BigOperators.Fin

/-!
# Consecutive blocks

Blocks of any sizes laid out one after the other, from 0 on.

* `Blocks.start` — where a block starts.
* `Blocks.bijOn` — numbering the places block by block is a bijection: blocks
  neither overlap nor leave a gap.
-/

namespace Blocks

variable (size : Nat → Nat)

/-- Where block `i` starts: behind all blocks before it. -/
def start (i : Nat) : Nat := ∑ j ∈ Finset.range i, size j

@[simp] theorem start_zero : start size 0 = 0 := rfl

theorem start_succ (i : Nat) : start size (i + 1) = start size i + size i :=
  Finset.sum_range_succ ..

/-- The places of the first `n` blocks: the number of the block, and the place in
it. -/
def places (n : Nat) : Set (Nat × Nat) := {p | p.1 < n ∧ p.2 < size p.1}

/-- The places as a disjoint sum, numbered. -/
def number (n : Nat) : (i : Fin n) × Fin (size i) ≃ Fin (∑ i : Fin n, size i) := finSigmaFinEquiv

theorem number_val {n : Nat} (i : Fin n) (r : Fin (size i)) :
    (number size n ⟨i, r⟩ : Nat) = start size i + r := by
  rw [number, finSigmaFinEquiv_apply, start, ← Fin.sum_univ_eq_sum_range]
  rfl

/-- **The numbering is a bijection** onto the numbers below the start of the next
block. -/
theorem bijOn (n : Nat) :
    Set.BijOn (fun p : Nat × Nat => start size p.1 + p.2) (places size n)
      (Set.Iio (start size n)) := by
  have htotal : ∑ i : Fin n, size i = start size n := Fin.sum_univ_eq_sum_range size n
  refine ⟨?_, ?_, ?_⟩
  · rintro ⟨i, r⟩ ⟨hi, hr⟩
    have hlt := (number size n ⟨⟨i, hi⟩, ⟨r, hr⟩⟩).isLt
    rw [number_val, htotal] at hlt
    exact hlt
  · rintro ⟨i, r⟩ ⟨hi, hr⟩ ⟨i', r'⟩ ⟨hi', hr'⟩ heq
    have hplace : number size n ⟨⟨i, hi⟩, ⟨r, hr⟩⟩ = number size n ⟨⟨i', hi'⟩, ⟨r', hr'⟩⟩ := by
      apply Fin.ext
      rw [number_val, number_val]
      exact heq
    have hsame := (number size n).injective hplace
    obtain rfl : i = i' := congrArg (fun p => (p.1 : Nat)) hsame
    exact congrArg (Prod.mk i) (Nat.add_left_cancel heq)
  · intro k hk
    obtain ⟨⟨i, r⟩, hplace⟩ := (number size n).surjective ⟨k, htotal ▸ hk⟩
    refine ⟨(i, r), ⟨i.isLt, r.isLt⟩, ?_⟩
    show start size i + r = k
    rw [← number_val, hplace]

end Blocks
