import GhostDB.Config
import GhostDB.Library.ByteArray

/-!
# Utilities: page numbers, records, merging

`util.cc`, less the file-system commands.

* `getMaxRun`, `getPageId`, `getLevelRunNo` — the page numbering, for every
  configuration, and for the compiled one.
* `memtableToString` — the record layout of a page's payload.
* `isPageAllZero` — how an empty page is told from a used one.
* `mergeSSTable` — the merge of two sorted tables on which compaction rests.
-/

namespace GhostDB

open Bytes

/-! ## Page numbers -/

namespace Config

/-- `GetMaxRun`. -/
def getMaxRun (c : Config) (level : Nat) : Nat := (level + 1) * c.maxRunPerLevel

/-- `GetPageId`. -/
def getPageId (c : Config) (level run : Nat) : Nat :=
  level * (level + 1) * c.maxRunPerLevel / 2 + run

/-- The search of `GetLevelRunNo`: levels upward, runs upward within a level. -/
def findLevelRun (c : Config) (pageId : Int) : Option (Nat × Nat) :=
  (List.range c.maxLevelNum).findSome? fun level =>
    (List.range (c.getMaxRun level)).findSome? fun run =>
      if (c.getPageId level run : Int) = pageId then some (level, run) else none

/-- `GetLevelRunNo`: called for non-overflow pages only; `none` where the source
returns `false`. -/
def getLevelRunNo (c : Config) (pageId : Int) : Except Fault (Option (Nat × Nat)) :=
  if pageId < c.totalNonOverflowPages then .ok (c.findLevelRun pageId)
  else .error .assertFailed

end Config

/-- `GetMaxRun` of the compiled configuration. -/
def getMaxRun (level : Nat) : Nat := config.getMaxRun level

/-- `GetPageId` of the compiled configuration. -/
def getPageId (level run : Nat) : Nat := config.getPageId level run

/-- `GetLevelRunNo` of the compiled configuration. -/
def getLevelRunNo (pageId : Int) : Except Fault (Option (Nat × Nat)) :=
  config.getLevelRunNo pageId

/-! ## Records -/

/-- The four bytes of an `int32_t`. -/
def int32Bytes (x : Int32) : List UInt8 := toLE 4 x.toUInt32.toNat

/-- `memmove` of four bytes into an `int32_t`. -/
def readInt32 (data : List UInt8) (offset : Nat) : Int32 :=
  (UInt32.ofNat (ofLE (slice data offset 4))).toInt32

/-- The eight bytes of a `uint64_t`. -/
def uint64Bytes (x : UInt64) : List UInt8 := toLE 8 x.toNat

/-- `memmove` of eight bytes into a `uint64_t`. -/
def readUInt64 (data : List UInt8) (offset : Nat) : UInt64 :=
  UInt64.ofNat (ofLE (slice data offset 8))

@[simp] theorem length_int32Bytes (x : Int32) : (int32Bytes x).length = 4 := length_toLE _ _

@[simp] theorem length_uint64Bytes (x : UInt64) : (uint64Bytes x).length = 8 := length_toLE _ _

/-- An `int32_t` written after a known prefix is read back, negative or not. -/
theorem readInt32_of_eq {data : List UInt8} (pre post : List UInt8) {offset : Nat} {x : Int32}
    (hd : data = pre ++ (int32Bytes x ++ post)) (ho : pre.length = offset) :
    readInt32 data offset = x := by
  have hlt : x.toUInt32.toNat < 256 ^ 4 := by
    have := x.toUInt32.toNat_lt
    omega
  rw [readInt32, slice_of_eq hd ho (length_int32Bytes x), int32Bytes, ofLE_toLE_of_lt hlt,
    UInt32.ofNat_toNat, Int32.toInt32_toUInt32]

theorem readUInt64_of_eq {data : List UInt8} (pre post : List UInt8) {offset : Nat} {x : UInt64}
    (hd : data = pre ++ (uint64Bytes x ++ post)) (ho : pre.length = offset) :
    readUInt64 data offset = x := by
  have hlt : x.toNat < 256 ^ 8 := by
    have := x.toNat_lt
    omega
  rw [readUInt64, slice_of_eq hd ho (length_uint64Bytes x), uint64Bytes, ofLE_toLE_of_lt hlt,
    UInt64.ofNat_toNat]

/-- One record: the key, then the value. -/
def recordBytes (kv : MappingType) : List UInt8 := int32Bytes kv.1 ++ int32Bytes kv.2

@[simp] theorem length_recordBytes (kv : MappingType) : (recordBytes kv).length = recordSize := by
  simp [recordBytes, recordSize]

/-- `MemtableToString`: the records in iteration order. -/
def memtableToString (memtable : List MappingType) : List UInt8 := memtable.flatMap recordBytes

@[simp] theorem memtableToString_nil : memtableToString [] = [] := rfl

theorem memtableToString_cons (kv : MappingType) (t : List MappingType) :
    memtableToString (kv :: t) = recordBytes kv ++ memtableToString t := List.flatMap_cons

@[simp] theorem length_memtableToString (t : List MappingType) :
    (memtableToString t).length = recordSize * t.length := by
  induction t with
  | nil => rfl
  | cons kv t ih =>
    rw [memtableToString_cons, List.length_append, ih, length_recordBytes, List.length_cons]
    ring

theorem memtableToString_append (s t : List MappingType) :
    memtableToString (s ++ t) = memtableToString s ++ memtableToString t := List.flatMap_append

/-- `IsPageAllZero`. -/
def isPageAllZero (pageData : List UInt8) : Bool := pageData.all (· == 0)

theorem isPageAllZero_iff {b : List UInt8} :
    isPageAllZero b = true ↔ b = List.replicate b.length 0 := by
  rw [isPageAllZero, List.all_eq_true, List.eq_replicate_iff]
  simp

@[simp] theorem isPageAllZero_replicate (n : Nat) : isPageAllZero (List.replicate n 0) = true := by
  simp [isPageAllZero]

/-! ## Merging -/

/-- `MergeSSTable`: two pointers, the smaller key first.  On equal keys the newer
pair is kept unless the *key* equals `TOMBSTOME`, in which case neither is. -/
def mergeSSTable : SSTable → SSTable → SSTable
  | [], old => old
  | new, [] => new
  | (nk, nv) :: new, (ok, ov) :: old =>
    if nk < ok then (nk, nv) :: mergeSSTable new ((ok, ov) :: old)
    else if ok < nk then (ok, ov) :: mergeSSTable ((nk, nv) :: new) old
    else if nk ≠ tombstome then (nk, nv) :: mergeSSTable new old
    else mergeSSTable new old
termination_by new old => new.length + old.length

end GhostDB
