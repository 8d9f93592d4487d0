import GhostDB.Library.ByteArray

/-!
# File streams with one position and a sticky failure flag

A file opened for reading and writing through one buffered stream: a single
position serves both directions, a read that meets the end of the file sets the
failure flag, and while the flag is set seeking and writing do nothing.

* `read_block` — reading a whole block that lies inside the file returns it and
  keeps the stream good.
* `read_start_short` — reading more than the file holds fails, and a failed
  stream ignores everything (`seekp_of_fail`, `write_of_fail`, `read_of_fail`).
-/

open Bytes

/-- An open stream: the bytes of its file, the position, the failure flag. -/
structure FileStream where
  /-- The contents of the file. -/
  bytes : List UInt8
  /-- The position of the next read or write. -/
  pos : Nat
  /-- Has an operation failed? -/
  fail : Bool
  deriving DecidableEq

namespace FileStream

/-- Open an existing file at its start. -/
def openExisting (bytes : List UInt8) : FileStream := ⟨bytes, 0, false⟩

/-- Open a file with truncation: whatever was there is gone. -/
def openTrunc (_old : Option (List UInt8)) : FileStream := ⟨[], 0, false⟩

/-- Move to a position. -/
def seekp (s : FileStream) (n : Nat) : FileStream := if s.fail then s else { s with pos := n }

/-- Write at the position and move past the data. -/
def write (s : FileStream) (data : List UInt8) : FileStream :=
  if s.fail then s
  else { s with bytes := overwrite s.bytes s.pos data, pos := s.pos + data.length }

/-- Read up to `n` bytes at the position; a short read sets the failure flag. -/
def read (s : FileStream) (n : Nat) : List UInt8 × FileStream :=
  if s.fail then ([], s)
  else
    let data := slice s.bytes s.pos n
    (data, { s with pos := s.pos + data.length, fail := decide (data.length < n) })

@[simp] theorem seekp_bytes (s : FileStream) (n : Nat) : (s.seekp n).bytes = s.bytes := by
  unfold seekp; split <;> rfl

@[simp] theorem seekp_fail (s : FileStream) (n : Nat) : (s.seekp n).fail = s.fail := by
  unfold seekp; split <;> rfl

@[simp] theorem write_fail (s : FileStream) (data : List UInt8) : (s.write data).fail = s.fail := by
  unfold write; split <;> rfl

@[simp] theorem read_bytes (s : FileStream) (n : Nat) : (s.read n).2.bytes = s.bytes := by
  unfold read; split <;> rfl

theorem seekp_pos {s : FileStream} (h : s.fail = false) (n : Nat) : (s.seekp n).pos = n := by
  simp [seekp, h]

theorem write_bytes {s : FileStream} (h : s.fail = false) (data : List UInt8) :
    (s.write data).bytes = overwrite s.bytes s.pos data := by
  simp [write, h]

theorem write_pos {s : FileStream} (h : s.fail = false) (data : List UInt8) :
    (s.write data).pos = s.pos + data.length := by
  simp [write, h]

/-- **Reading a whole block** of the file returns the block and keeps the stream
good. -/
theorem read_block {s : FileStream} (h : s.fail = false) {n i : Nat}
    (hin : i * n + n ≤ s.bytes.length) :
    (s.seekp (i * n)).read n = (block s.bytes n i, { s with pos := i * n + n }) := by
  have hslice : slice s.bytes (i * n) n = block s.bytes n i := slice_eq_block hin
  simp [seekp, read, h, hslice]

/-! ## Failure -/

theorem seekp_of_fail {s : FileStream} (h : s.fail = true) (n : Nat) : s.seekp n = s := by
  rw [seekp, if_pos h]

theorem write_of_fail {s : FileStream} (h : s.fail = true) (data : List UInt8) :
    s.write data = s := by
  rw [write, if_pos h]

theorem read_of_fail {s : FileStream} (h : s.fail = true) (n : Nat) : s.read n = ([], s) := by
  rw [read, if_pos h]

/-- **Reading more than there is** leaves the stream failed at the end of its
file. -/
theorem read_start_short {s : FileStream} (h : s.fail = false) {n : Nat}
    (hshort : s.bytes.length < n) :
    ((s.seekp 0).read n).2 = ⟨s.bytes, s.bytes.length, true⟩ := by
  have hslice : slice s.bytes 0 n = s.bytes := by
    rw [slice, List.drop_zero, List.take_of_length_le hshort.le]
  simp [seekp, read, h, hslice, hshort]

/-- A write never shortens the file. -/
theorem length_le_write (s : FileStream) (data : List UInt8) :
    s.bytes.length ≤ (s.write data).bytes.length := by
  unfold write
  split
  · exact le_refl _
  · rw [length_overwrite]
    exact le_max_left ..

end FileStream
