import GhostDB.Recovery

/-!
# The database

`buffer.cc` and `db.cc`: the memtable in front of the store, and the operations
of a client.

Every operation is a program over `ClientSig`.  `Put` takes a bound on its
recursion and on the loop that dumps the memtable; two rounds are always enough,
which is part of what `put_spec` in `GhostDB.Session` says.

* `Buffer` — the memtable; by its type it never outgrows `MAX_BUFFER_SIZE`.
* `Db.put`, `Db.delete`, `Db.get`, `Db.getRange` — the operations.
* `Db.construct`, `Db.destroy` — the constructor and the destructor.
-/

namespace GhostDB

open Prog SortedTable

/-! ## The memtable -/

/-- `class Buffer`, less its log manager: the memtable never outgrows
`MAX_BUFFER_SIZE`. -/
structure Buffer where
  /-- `kv_`. -/
  kv : BufferMap
  /-- It holds at most `buffer_size_` keys. -/
  size_le : kv.size ≤ maxBufferSize

namespace Buffer

@[ext] theorem ext {a b : Buffer} (h : a.kv = b.kv) : a = b := by
  cases a; cases b; simpa using h

/-- `Buffer(buffer_size, disk_manager)`, and the memtable after `ClearKV`. -/
def empty : Buffer := ⟨SortedMap.empty, Nat.zero_le _⟩

/-- The test of `Buffer::Put`: full, and the key is not in it. -/
def Refuses (b : Buffer) (key : Key) : Prop := b.kv.size = maxBufferSize ∧ b.kv.lookup key = none

instance (b : Buffer) (key : Key) : Decidable (b.Refuses key) := by
  unfold Refuses; infer_instance

/-- `kv_[key] = val`, when there is room. -/
def insert (b : Buffer) (key : Key) (val : Val) (h : ¬ b.Refuses key) : Buffer :=
  ⟨b.kv.insert key val, by
    have hle := b.size_le
    rw [SortedMap.size_insert]
    split
    next hnone =>
      have hne : b.kv.size ≠ maxBufferSize := fun heq => h ⟨heq, hnone⟩
      omega
    next => exact hle⟩

/-- `Buffer::Put`; `none` where the source returns `false`. -/
def put (b : Buffer) (key : Key) (val : Val) : Prog ClientSig (Option Buffer) :=
  if h : b.Refuses key then return none
  else do
    onStore (appendLogRecord key val)
    return some (b.insert key val h)

/-- `Buffer::Get`: `none` when the key is not in the memtable, `some none` when
it is deleted there. -/
def get (b : Buffer) (key : Key) : Option (Option Val) :=
  (b.kv.lookup key).map fun val => if val = tombstome then none else some val

/-- The loop of `GetRange`: the upper iterator is moved on by one if it can be,
then the pairs from the lower one up to it are read. -/
def rangeLoop (it1 it2 : SSTable) : Except Fault SSTable := do
  let it2 ← if it2 ≠ [] then next Fault.endIterator it2 else pure it2
  readTo Fault.endIterator it2 it1

/-- `Buffer::GetRange`. -/
def getRange (b : Buffer) (key1 key2 : Key) (res : BufferMap) : Prog ClientSig BufferMap :=
  if ¬ key1 ≤ key2 then abort .assertFailed
  else
    match b.kv.entries.head?, b.kv.entries.getLast? with
    | some kv1, some kv2 =>
      if kv1.1 > key2 ∨ kv2.1 < key1 then return res
      else do
        let it1 := lowerBound key1 b.kv.entries
        let it2 := lowerBound key2 b.kv.entries
        let slice ← orAbort (rangeLoop it1 it2)
        return slice.foldl (fun res kv => res.insert kv.1 kv.2) res
    | _, _ => abort .emptyContainer

end Buffer

/-! ## The operations -/

namespace Db

/-- `GhostDB::Put`. -/
def put : Nat → Buffer → Key → Val → Prog ClientSig Buffer
  | 0, _, _, _ => abort .outOfFuel
  | fuel + 1, buffer, key, val => do
    match ← buffer.put key val with
    | some buffer => return buffer
    | none =>
      onStore flushWAL
      dumpLoop (fuel + 1) buffer.kv
      onStore clearLog
      -- `ClearKV`, then `Put(key, val)` again
      put fuel Buffer.empty key val

/-- `GhostDB::Delete`. -/
def delete (fuel : Nat) (buffer : Buffer) (key : Key) : Prog ClientSig Buffer :=
  put fuel buffer key tombstome

/-- `std::pair`'s order. -/
def pairLt (p q : MappingType) : Bool := p.1 < q.1 ∨ (p.1 = q.1 ∧ p.2 < q.2)

/-- `std::lower_bound(memtable.begin(), memtable.end(), target)`: the pairs from
the first one not below the target. -/
def lowerBoundPair (memtable : SSTable) (target : MappingType) : SSTable :=
  memtable.dropWhile fun p => pairLt p target

/-- What `Get` does with one run: `none` to go on, `some none` for a deleted
key. -/
def searchRun (key : Key) (levelNo runNo : Nat) : Prog ClientSig (Option (Option Val)) := do
  match ← onStore (SSTableManager.loadSSTable levelNo runNo) with
  | none => return none
  | some (bloomFilter, memtable) =>
    if bloomFilter.couldHasKey key then
      match lowerBoundPair memtable (key, tombstome) with
      | [] => abort .endIterator
      | it :: _ =>
        if it.1 = key then return some (if it.2 = tombstome then none else some it.2)
        else return none
    else return none

/-- The runs of a level from right to left. -/
def runsDown (levelNo : Nat) : List Nat := (List.range ((levelNo + 1) * maxRunPerLevel)).reverse

/-- `GhostDB::Get`; `none` where the source returns `false`. -/
def get (buffer : Buffer) (key : Key) : Prog ClientSig (Option Val) := do
  match buffer.get key with
  | some val => return val
  | none =>
    let found ← firstSome (fun levelNo =>
      firstSome (fun runNo => searchRun key levelNo runNo) (runsDown levelNo))
      (List.range maxLevelNum)
    return found.getD none

/-- What `GetRange` does with one run. -/
def rangeRun (key1 key2 : Key) (levelNo runNo : Nat) (res : BufferMap) :
    Prog ClientSig (Bool × BufferMap) := do
  match ← onStore (SSTableManager.loadSSTable levelNo runNo) with
  | none => return (true, res)
  | some (_, memtable) =>
    match memtable.head?, memtable.getLast? with
    | some kv1, some kv2 =>
      if kv1.1 > key2 ∨ kv2.1 < key1 then return (true, res)
      else
        let it1 := lowerBoundPair memtable (key1, tombstome)
        let it2 := lowerBoundPair memtable (key2, tombstome)
        let slice ← orAbort (Buffer.rangeLoop it1 it2)
        return (true, slice.foldl
          (fun res kv => if res.lookup kv.1 = none then res.insert kv.1 kv.2 else res) res)
    | _, _ => abort .emptyContainer

/-- `GhostDB::GetRange`. -/
def getRange (buffer : Buffer) (key1 key2 : Key) (res : BufferMap) : Prog ClientSig BufferMap :=
  if ¬ key1 ≤ key2 then abort .assertFailed
  else do
    let res ← buffer.getRange key1 key2 res
    let (_, res) ← forUntil (fun levelNo res =>
      forUntil (fun runNo res => rangeRun key1 key2 levelNo runNo res) (runsDown levelNo) res)
      (List.range maxLevelNum) res
    return res

/-! ## Construction and destruction -/

/-- `GhostDB()`: the directory, the disk manager, the runs, recovery, the
memtable. -/
def construct (fuel : Nat) (files : Files) : Except Fault (Buffer × World) := do
  let files := initDirectory files
  let store ← SSTableManager.construct (Store.init (DiskManager.init files))
  let w ← RecoveryManager.performRecover fuel { store := store, flushed := [] }
  return (Buffer.empty, w)

/-- `~GhostDB()`, then the destructors of its parts in reverse order of their
declaration: the compaction manager asks for a major compaction and stops its
thread, the log manager flushes and stops its own. -/
def destroy (fuel : Nat) (buffer : Buffer) : Prog ClientSig Unit := do
  onStore flushWAL
  dumpLoop fuel buffer.kv
  onStore clearLog
  requestMajorCompaction
  disableCompaction
  onStore stopFlushThread

/-- A `Put` that ends within its bound ends within a larger one. -/
theorem run_put_succ {key : Key} {val : Val} {x : Buffer × World} (fuel : Nat) :
    ∀ {buffer : Buffer} {w : World}, run World.handle (put fuel buffer key val) w = .ok x →
      run World.handle (put (fuel + 1) buffer key val) w = .ok x := by
  induction fuel with
  | zero =>
    intro buffer w hrun
    cases hrun
  | succ fuel ih =>
    intro buffer w hrun
    obtain ⟨placed, w₁, hplace, hrest⟩ := run_bind_eq_ok hrun
    refine Eq.trans (run_bind_of_ok hplace) ?_
    cases placed with
    | some buffer => exact hrest
    | none =>
      obtain ⟨_, w₂, hflush, hrest⟩ := run_bind_eq_ok hrest
      obtain ⟨_, w₃, hdump, hrest⟩ := run_bind_eq_ok hrest
      obtain ⟨_, w₄, hclear, hagain⟩ := run_bind_eq_ok hrest
      refine Eq.trans (run_bind_of_ok hflush) ?_
      refine Eq.trans (run_bind_of_ok (run_dumpLoop_succ _ hdump)) ?_
      exact Eq.trans (run_bind_of_ok hclear) (ih hagain)

end Db

end GhostDB
