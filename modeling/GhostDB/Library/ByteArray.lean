import Mathlib

/-!
# Byte buffers and little-endian integers

Buffers are lists of bytes.  `memmove` overwrites a stretch of a buffer,
`slice` reads one, and `toLE` / `ofLE` are the fixed-width little-endian
integers a native program stores by copying their memory.

* `ofLE_toLE` — the integer comes back, modulo the width.
* `slice_append` — a field laid out after a known prefix is read back exactly.
* `block` — the `i`-th block of a file, padded with zeros past its end, and
  `block_overwrite`: writing one whole block changes that block and no other.
-/

namespace Bytes

/-! ## Little-endian integers -/

/-- The `w` low bytes of `n`, least significant first. -/
def toLE : Nat → Nat → List UInt8
  | 0, _ => []
  | w + 1, n => UInt8.ofNat (n % 256) :: toLE w (n / 256)

/-- The integer stored in a little-endian byte list. -/
def ofLE : List UInt8 → Nat
  | [] => 0
  | b :: bs => b.toNat + 256 * ofLE bs

@[simp] theorem length_toLE (w n : Nat) : (toLE w n).length = w := by
  induction w generalizing n with
  | zero => rfl
  | succ w ih => rw [toLE, List.length_cons, ih]

/-- Reading back a stored integer gives its low bytes. -/
theorem ofLE_toLE (w n : Nat) : ofLE (toLE w n) = n % 256 ^ w := by
  induction w generalizing n with
  | zero => simp [toLE, ofLE, Nat.mod_one]
  | succ w ih =>
    have hb : (UInt8.ofNat (n % 256)).toNat = n % 256 := by
      rw [UInt8.toNat_ofNat']
      omega
    rw [toLE, ofLE, ih, hb, pow_succ', Nat.mod_mul]

theorem ofLE_toLE_of_lt {w n : Nat} (h : n < 256 ^ w) : ofLE (toLE w n) = n := by
  rw [ofLE_toLE, Nat.mod_eq_of_lt h]

theorem ofLE_lt (b : List UInt8) : ofLE b < 256 ^ b.length := by
  induction b with
  | nil => exact Nat.one_pos
  | cons x b ih =>
    have hx := x.toNat_lt
    rw [ofLE, List.length_cons, pow_succ]
    omega

/-- Storing what was read gives the bytes back. -/
theorem toLE_ofLE (b : List UInt8) : toLE b.length (ofLE b) = b := by
  induction b with
  | nil => rfl
  | cons x b ih =>
    have hx := x.toNat_lt
    have hlow : (x.toNat + 256 * ofLE b) % 256 = x.toNat := by omega
    have hhigh : (x.toNat + 256 * ofLE b) / 256 = ofLE b := by omega
    rw [List.length_cons, ofLE, toLE, hlow, hhigh, ih, UInt8.ofNat_toNat]

/-! ## Buffers -/

/-- Overwrite the bytes of `dst` from offset `off` on by `src`. -/
def memmove (dst : List UInt8) (off : Nat) (src : List UInt8) : List UInt8 :=
  dst.take off ++ src ++ dst.drop (off + src.length)

/-- The `n` bytes from offset `off` on. -/
def slice (b : List UInt8) (off n : Nat) : List UInt8 := (b.drop off).take n

theorem length_memmove {dst src : List UInt8} {off : Nat} (h : off + src.length ≤ dst.length) :
    (memmove dst off src).length = dst.length := by
  simp only [memmove, List.length_append, List.length_take, List.length_drop]
  omega

/-- What lies up to the end of the moved bytes. -/
theorem take_memmove {dst src : List UInt8} {off n : Nat} (h : off ≤ dst.length)
    (hn : off + src.length = n) : (memmove dst off src).take n = dst.take off ++ src := by
  rw [memmove, ← hn]
  refine List.take_left' ?_
  rw [List.length_append, List.length_take, min_eq_left h]

/-- A buffer whose first part is already filled: the next field goes in place of
the padding. -/
theorem memmove_append_replicate (pre src : List UInt8) {n off : Nat}
    (hoff : pre.length = off) :
    memmove (pre ++ List.replicate n 0) off src =
      (pre ++ src) ++ List.replicate (n - src.length) 0 := by
  subst hoff
  unfold memmove
  rw [List.take_left', List.drop_append, List.drop_eq_nil_of_le (by omega)]
  · simp [List.drop_replicate]
  · rfl

/-- **A field is read back at its offset**, whatever surrounds it. -/
theorem slice_append (pre src post : List UInt8) :
    slice (pre ++ (src ++ post)) pre.length src.length = src := by
  unfold slice
  rw [List.drop_left', List.take_left']
  · rfl
  · rfl

theorem slice_of_eq {b : List UInt8} {off n : Nat} {pre src post : List UInt8}
    (hb : b = pre ++ (src ++ post)) (hoff : pre.length = off) (hn : src.length = n) :
    slice b off n = src := by
  rw [hb, ← hoff, ← hn, slice_append]

theorem length_slice {b : List UInt8} {off n : Nat} (h : off + n ≤ b.length) :
    (slice b off n).length = n := by
  rw [slice, List.length_take, List.length_drop]
  omega

/-- A field and what lies behind it. -/
theorem slice_append_drop (b : List UInt8) (off n : Nat) :
    slice b off n ++ b.drop (off + n) = b.drop off := by
  rw [slice, ← List.drop_drop, List.take_append_drop]

/-- Two fields next to each other. -/
theorem slice_append_slice (b : List UInt8) (off n m : Nat) :
    slice b off n ++ slice b (off + n) m = slice b off (n + m) := by
  rw [slice, slice, slice, ← List.drop_drop, List.take_add]

/-! ## Files as byte lists -/

/-- Write `data` into a file at position `pos`; a gap before `pos` is filled with
zeros. -/
def overwrite (f : List UInt8) (pos : Nat) (data : List UInt8) : List UInt8 :=
  (f ++ List.replicate (pos - f.length) 0).take pos ++ data ++ f.drop (pos + data.length)

@[simp] theorem length_overwrite (f : List UInt8) (pos : Nat) (data : List UInt8) :
    (overwrite f pos data).length = max f.length (pos + data.length) := by
  simp only [overwrite, List.length_append, List.length_take, List.length_replicate,
    List.length_drop]
  omega

/-- Byte by byte: the written stretch holds the data, the rest is unchanged. -/
theorem getD_overwrite (f : List UInt8) (pos : Nat) (data : List UInt8) (i : Nat) :
    (overwrite f pos data).getD i 0 =
      if pos ≤ i ∧ i < pos + data.length then data.getD (i - pos) 0 else f.getD i 0 := by
  have hpre : ((f ++ List.replicate (pos - f.length) 0).take pos).length = pos := by
    simp only [List.length_take, List.length_append, List.length_replicate]
    omega
  simp only [overwrite, List.getD_eq_getElem?_getD, List.append_assoc]
  by_cases h1 : i < pos
  · rw [if_neg (by omega), List.getElem?_append_left (by omega),
      List.getElem?_take_of_lt h1]
    by_cases h2 : i < f.length
    · rw [List.getElem?_append_left h2]
    · rw [List.getElem?_append_right (by omega), List.getElem?_replicate,
        List.getElem?_eq_none (by omega : f.length ≤ i)]
      split <;> rfl
  · rw [List.getElem?_append_right (by omega), hpre]
    by_cases h2 : i < pos + data.length
    · rw [if_pos ⟨by omega, h2⟩, List.getElem?_append_left (by omega)]
    · rw [if_neg (by omega), List.getElem?_append_right (by omega), List.getElem?_drop]
      congr 2
      omega

/-- The `i`-th block of `n` bytes of a file, zero past the end of the file. -/
def block (f : List UInt8) (n i : Nat) : List UInt8 :=
  (List.range n).map fun j => f.getD (i * n + j) 0

@[simp] theorem length_block (f : List UInt8) (n i : Nat) : (block f n i).length = n := by
  simp [block]

theorem block_congr {f g : List UInt8} {n i j : Nat}
    (h : ∀ x < n, f.getD (i * n + x) 0 = g.getD (j * n + x) 0) : block f n i = block g n j :=
  List.map_congr_left fun x hx => h x (List.mem_range.1 hx)

/-- Writing at the end appends. -/
theorem overwrite_end (f data : List UInt8) : overwrite f f.length data = f ++ data := by
  simp [overwrite]

/-- A list is its own block number 0. -/
theorem block_zero_self (b : List UInt8) : block b b.length 0 = b := by
  apply List.ext_getElem (by simp)
  intro i h1 h2
  simp [block, List.getD_eq_getElem?_getD, h2]

/-- Block number 0 is the front of the file, padded with zeros. -/
theorem block_zero (f : List UInt8) (n : Nat) :
    block f n 0 = f.take n ++ List.replicate (n - f.length) 0 := by
  refine List.ext_getElem ?_ ?_
  · simp only [length_block, List.length_append, List.length_take, List.length_replicate]
    omega
  · intro i h1 h2
    simp only [block, List.getElem_map, List.getElem_range, Nat.zero_mul, Nat.zero_add,
      List.getD_eq_getElem?_getD]
    by_cases hi : i < f.length
    · rw [List.getElem_append_left (by rw [List.length_take]; rw [length_block] at h1; omega),
        List.getElem_take, List.getElem?_eq_getElem hi, Option.getD_some]
    · rw [List.getElem_append_right (by rw [List.length_take]; omega), List.getElem_replicate,
        List.getElem?_eq_none (not_lt.1 hi), Option.getD_none]

/-- **Writing a whole block** replaces that block and leaves every other one. -/
theorem block_overwrite (f : List UInt8) {n : Nat} (q p : Nat) {data : List UInt8}
    (hdata : data.length = n) :
    block (overwrite f (q * n) data) n p = if p = q then data else block f n p := by
  by_cases hpq : p = q
  · subst hpq
    rw [if_pos rfl]
    conv_rhs => rw [← block_zero_self data, hdata]
    apply block_congr
    intro x hx
    rw [getD_overwrite, if_pos (by omega)]
    congr 1
    omega
  · rw [if_neg hpq]
    apply block_congr
    intro x hx
    rw [getD_overwrite, if_neg]
    rintro ⟨h1, h2⟩
    rcases Nat.lt_or_gt_of_ne hpq with h | h
    · have hle : (p + 1) * n ≤ q * n := Nat.mul_le_mul_right n h
      rw [Nat.succ_mul] at hle
      omega
    · have hle : (q + 1) * n ≤ p * n := Nat.mul_le_mul_right n h
      rw [Nat.succ_mul] at hle
      omega

/-- A block inside the file is the slice of the file there. -/
theorem slice_eq_block {f : List UInt8} {n i : Nat} (h : i * n + n ≤ f.length) :
    slice f (i * n) n = block f n i := by
  refine List.ext_getElem ?_ ?_
  · simp only [slice, List.length_take, List.length_drop, length_block]
    omega
  · intro j h1 h2
    rw [length_block] at h2
    simp [slice, block, List.getD_eq_getElem?_getD, (by omega : i * n + j < f.length)]

/-- A block past the end of the file is zero. -/
theorem block_eq_zero_of_le {f : List UInt8} {n i : Nat} (h : f.length ≤ i * n) :
    block f n i = List.replicate n 0 := by
  apply List.ext_getElem (by simp)
  intro j h1 h2
  simp [block, List.getD_eq_getElem?_getD, (by omega : f.length ≤ i * n + j)]

theorem block_nil (n i : Nat) : block [] n i = List.replicate n 0 :=
  block_eq_zero_of_le (by simp)

end Bytes
