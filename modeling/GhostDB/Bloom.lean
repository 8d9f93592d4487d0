import GhostDB.Config

/-!
# The bloom filter

`bloom.h` and `bloom.cc`: a filter of `BLOOM_BITS` bits and three 64-bit integer
hashes.  Arithmetic is that of `uint64_t`, and the conversion of an `int32_t`
key sign-extends it.

The one guarantee the store rests on is `couldHasKey_ofKeys`: a key that was set
is never rejected, whatever else was set with it.
-/

namespace GhostDB

/-- `class Bloom`: a `std::bitset<BLOOM_BITS>`. -/
structure Bloom where
  filter : BitVec bloomBits
  deriving DecidableEq, Repr

namespace Bloom

/-- `Bloom()`. -/
def empty : Bloom := ⟨0⟩

instance : Inhabited Bloom := ⟨empty⟩

/-- `Bloom(uint64_t filter)`. -/
def ofUInt64 (filter : UInt64) : Bloom := ⟨filter.toBitVec⟩

/-- `static_cast<uint64_t>(k)` of a key. -/
def toUInt64 (k : Key) : UInt64 := k.toInt64.toUInt64

/-- `Hash1`. -/
def hash1 (k : Key) : Nat :=
  let key := toUInt64 k
  let key := ~~~key + (key <<< (15 : UInt64))
  let key := key ^^^ (key >>> (12 : UInt64))
  let key := key + (key <<< (2 : UInt64))
  let key := key ^^^ (key >>> (4 : UInt64))
  let key := key * 2057
  let key := key ^^^ (key >>> (16 : UInt64))
  key.toNat % bloomBits

/-- `Hash2`. -/
def hash2 (k : Key) : Nat :=
  let key := toUInt64 k
  let key := (key + 0x7ed55d16) + (key <<< (12 : UInt64))
  let key := (key ^^^ 0xc761c23c) ^^^ (key >>> (19 : UInt64))
  let key := (key + 0x165667b1) + (key <<< (5 : UInt64))
  let key := (key + 0xd3a2646c) ^^^ (key <<< (9 : UInt64))
  let key := (key + 0xfd7046c5) + (key <<< (3 : UInt64))
  let key := (key ^^^ 0xb55a4f09) ^^^ (key >>> (16 : UInt64))
  key.toNat % bloomBits

/-- `Hash3`. -/
def hash3 (k : Key) : Nat :=
  let key := toUInt64 k
  let key := (key ^^^ 61) ^^^ (key >>> (16 : UInt64))
  let key := key + (key <<< (3 : UInt64))
  let key := key ^^^ (key >>> (4 : UInt64))
  let key := key * 0x27d4eb2d
  let key := key ^^^ (key >>> (15 : UInt64))
  key.toNat % bloomBits

/-- `filter_.set(i)`. -/
def setBit (b : Bloom) (i : Nat) : Bloom := ⟨b.filter ||| BitVec.twoPow bloomBits i⟩

/-- `filter_.test(i)`. -/
def test (b : Bloom) (i : Nat) : Bool := b.filter.getLsbD i

/-- `SetKey`. -/
def setKey (b : Bloom) (key : Key) : Bloom :=
  ((b.setBit (hash1 key)).setBit (hash2 key)).setBit (hash3 key)

/-- `CouldHasKey`. -/
def couldHasKey (b : Bloom) (key : Key) : Bool :=
  b.test (hash1 key) && b.test (hash2 key) && b.test (hash3 key)

/-- `ToInt`. -/
def toInt (b : Bloom) : UInt64 := UInt64.ofBitVec b.filter

/-- The filter `Run::DumpSSTable` builds: cleared, then every key set in turn. -/
def ofKeys (keys : List Key) : Bloom := keys.foldl setKey empty

/-- The filter survives its trip through a 64-bit integer. -/
@[simp] theorem ofUInt64_toInt (b : Bloom) : ofUInt64 b.toInt = b := rfl

theorem hash1_lt (k : Key) : hash1 k < bloomBits := Nat.mod_lt _ (by decide)

theorem hash2_lt (k : Key) : hash2 k < bloomBits := Nat.mod_lt _ (by decide)

theorem hash3_lt (k : Key) : hash3 k < bloomBits := Nat.mod_lt _ (by decide)

theorem test_setBit (b : Bloom) {i : Nat} (hi : i < bloomBits) (j : Nat) :
    (b.setBit i).test j = (b.test j || decide (i = j)) := by
  simp only [test, setBit, BitVec.getLsbD_or, BitVec.getLsbD_twoPow]
  simp [hi]

theorem test_setKey (b : Bloom) (k : Key) (i : Nat) :
    (b.setKey k).test i =
      (b.test i || decide (hash1 k = i) || decide (hash2 k = i) || decide (hash3 k = i)) := by
  rw [setKey, test_setBit _ (hash3_lt k), test_setBit _ (hash2_lt k), test_setBit _ (hash1_lt k)]

theorem couldHasKey_setKey_self (b : Bloom) (k : Key) : (b.setKey k).couldHasKey k = true := by
  simp [couldHasKey, test_setKey]

/-- Setting another key never takes a key away. -/
theorem couldHasKey_setKey {b : Bloom} {k : Key} (h : b.couldHasKey k = true) (j : Key) :
    (b.setKey j).couldHasKey k = true := by
  simp only [couldHasKey, Bool.and_eq_true] at h
  simp [couldHasKey, test_setKey, h.1.1, h.1.2, h.2]

theorem couldHasKey_foldl {b : Bloom} {k : Key} (h : b.couldHasKey k = true) (keys : List Key) :
    (keys.foldl setKey b).couldHasKey k = true := by
  induction keys generalizing b with
  | nil => exact h
  | cons j keys ih => exact ih (couldHasKey_setKey h j)

/-- **No false negative**: every key the filter was built from passes it. -/
theorem couldHasKey_ofKeys {keys : List Key} {k : Key} (h : k ∈ keys) :
    (ofKeys keys).couldHasKey k = true := by
  obtain ⟨pre, post, rfl⟩ := List.append_of_mem h
  rw [ofKeys, List.foldl_append, List.foldl_cons]
  exact couldHasKey_foldl (couldHasKey_setKey_self _ k) post

end Bloom

end GhostDB
