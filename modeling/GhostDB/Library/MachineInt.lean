import Mathlib

/-!
# Machine integers that do not overflow

Arithmetic in `int32_t` is arithmetic of the numbers it stands for, as long as
every result along the way stays below `2 ^ 31`.

* `MachineInt.Holds` — the number a machine integer stands for, with one rule for
  each operation.
-/

namespace MachineInt

/-- The machine integer stands for the number. -/
def Holds (x : Int32) (n : Nat) : Prop := x.toInt = n

theorem bmod_eq_self {n : Nat} (h : n < 2 ^ 31) : (n : Int).bmod (2 ^ 32) = n :=
  Int.bmod_eq_of_le (by omega) (by omega)

theorem Holds.ofNat {n : Nat} (h : n < 2 ^ 31) : Holds (Int32.ofNat n) n :=
  Int32.toInt_ofNat_of_lt h

theorem Holds.one : Holds 1 1 := rfl

theorem Holds.two : Holds 2 2 := rfl

variable {x y : Int32} {m n : Nat}

theorem Holds.add (hx : Holds x m) (hy : Holds y n) (h : m + n < 2 ^ 31) :
    Holds (x + y) (m + n) := by
  rw [Holds, Int32.toInt_add, hx, hy, ← Int.natCast_add, bmod_eq_self h]

theorem Holds.mul (hx : Holds x m) (hy : Holds y n) (h : m * n < 2 ^ 31) :
    Holds (x * y) (m * n) := by
  rw [Holds, Int32.toInt_mul, hx, hy, ← Int.natCast_mul, bmod_eq_self h]

/-- Division rounds down like that of the numbers. -/
theorem Holds.div (hx : Holds x m) (hy : Holds y n) : Holds (x / y) (m / n) := by
  have hne : y ≠ -1 := by
    rintro rfl
    exact absurd hy (by show (-1 : Int) ≠ n; omega)
  rw [Holds, Int32.toInt_div_of_ne_right x y hne, hx, hy]
  rfl

end MachineInt
