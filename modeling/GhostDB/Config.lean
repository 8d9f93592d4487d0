import GhostDB.Library.SortedTable

/-!
# Configuration, keys and faults

`common.h`, `consts.h` and `config.h`: the key and value types, the sizes every
other file refers to, and the shape of the level structure.  The level structure
is a record so that the page numbering can be studied for every configuration;
the program is compiled with `config`.
-/

namespace GhostDB

/-- `using Key = int32_t`. -/
abbrev Key := Int32

/-- `using Val = int32_t`. -/
abbrev Val := Int32

/-- Signed comparison makes `int32_t` a linear order. -/
instance linearOrderInt32 : LinearOrder Int32 where
  le_refl := fun _ => Int32.le_refl _
  le_trans := fun _ _ _ => Int32.le_trans
  le_antisymm := fun _ _ => Int32.le_antisymm
  le_total := fun a b => by
    simp only [Int32.le_iff_toInt_le]
    exact le_total a.toInt b.toInt
  lt_iff_le_not_ge := fun a b => by
    simp only [Int32.le_iff_toInt_le, Int32.lt_iff_toInt_lt]
    exact lt_iff_le_not_ge
  toDecidableLE := fun a b => inferInstanceAs (Decidable (a ≤ b))
  toDecidableLT := fun a b => inferInstanceAs (Decidable (a < b))
  toDecidableEq := fun a b => inferInstanceAs (Decidable (a = b))

/-- `MappingType`: one key-value pair. -/
abbrev MappingType := Key × Val

/-- `sstable_t`, a `std::vector` of pairs. -/
abbrev SSTable := List MappingType

/-- `buffer_t`, a `std::map` from keys to values. -/
abbrev BufferMap := SortedMap Key Val

/-! ## Sizes -/

/-- `RECORD_SIZE = sizeof(Key) + sizeof(Val)`. -/
def recordSize : Nat := 8

/-- `PAGE_SIZE`. -/
def pageSize : Nat := 1024

/-- `zero_data`, the page of zeros dumped to clear a page. -/
def zeroData : List UInt8 := List.replicate pageSize 0

@[simp] theorem length_zeroData : zeroData.length = pageSize := List.length_replicate

/-- `TOMBSTOME`, the value a delete writes. -/
def tombstome : Val := Int32.minValue

/-- `PAGE_HEADER_MAGIC`. -/
def pageHeaderMagic : UInt8 := 0xAA

/-- `MAX_BUFFER_SIZE`, the number of keys a memtable holds. -/
def maxBufferSize : Nat := 5

/-- `LOG_BUFFER_SIZE = 6 * sizeof(int32_t)`. -/
def logBufferSize : Nat := 24

/-- `BLOOM_BITS`. -/
def bloomBits : Nat := 64

/-- `MINOR_COMPACTION_LEVEL_NUM`: a minor compaction merges the two uppermost
levels. -/
def minorCompactionLevelNum : Nat := 2

/-- `Page::PAYLOAD_OFFSET`: magic number, pair count, page id and bloom filter. -/
def payloadOffset : Nat := 1 + 4 + 4 + bloomBits / 8

/-! ## The level structure -/

/-- The two numbers of `config.h` the page numbering depends on. -/
structure Config where
  /-- `MAX_LEVEL_NUM`. -/
  maxLevelNum : Nat
  /-- `MAX_RUN_PER_LEVEL`. -/
  maxRunPerLevel : Nat
  deriving DecidableEq, Repr

/-- The configuration the program is compiled with. -/
def config : Config where
  maxLevelNum := 5
  maxRunPerLevel := 1

/-- `MAX_LEVEL_NUM`. -/
def maxLevelNum : Nat := config.maxLevelNum

/-- `MAX_RUN_PER_LEVEL`. -/
def maxRunPerLevel : Nat := config.maxRunPerLevel

/-- `TOTAL_NON_OVERFLOW_PAGES`. -/
def Config.totalNonOverflowPages (c : Config) : Nat :=
  (1 + c.maxLevelNum) * c.maxLevelNum * c.maxRunPerLevel / 2

/-- `TOTAL_NON_OVERFLOW_PAGES` of the compiled configuration. -/
def totalNonOverflowPages : Nat := config.totalNonOverflowPages

/-! ## Faults -/

/-- How an execution can go wrong: an assertion or exception aborts it, or it
runs into undefined behaviour. -/
inductive Fault
  /-- An `assert` does not hold. -/
  | assertFailed
  /-- `reserve` of a negative count throws `std::length_error`. -/
  | lengthError
  /-- `Run::DumpSSTable` moves more bytes into the page buffer than it holds. -/
  | pageOverflow
  /-- A page buffer is read past its end. -/
  | readPastEnd
  /-- A past-the-end iterator is dereferenced or stepped. -/
  | endIterator
  /-- `begin()`, `rbegin()`, `front()` or `back()` of an empty container is
  dereferenced. -/
  | emptyContainer
  /-- The bound the model puts on a `while` loop or a recursion of the source was
  reached. -/
  | outOfFuel
  deriving DecidableEq, Repr

end GhostDB
