import GhostDB.LogManager
import GhostDB.SSTablePage
import GhostDB.Library.Prog

/-!
# Runs, levels and the SSTable manager

`run.cc`, `level.cc` and `sstable_manager.cc`.  A run is one page of `sstable.db`
and a flag telling whether it is used; the levels are vectors of runs, level `l`
holding `(l + 1) * MAX_RUN_PER_LEVEL` of them.

Everything behind the memtable is one `Store`: the disk manager, the runs and
the log manager.  Its operations are the calls of the classes above it
(`StoreOp`), each made under the latch of the run it concerns and making at most
one disk write, so `StoreOp` is also the granularity at which threads interleave
and crashes strike.
-/

namespace GhostDB

/-- `class Run`, less its level and run number, its latch and its disk manager. -/
structure Run where
  /-- `is_empty_`: is there no corresponding SSTable? -/
  isEmpty : Bool
  /-- `kv_num_`. -/
  kvNum : Int32
  /-- `bloom_filter_`. -/
  bloomFilter : Bloom
  deriving DecidableEq

/-- The disk, the runs of all levels by level and run number, and the log
manager. -/
structure Store where
  /-- The disk manager all parts share. -/
  disk : DiskManager
  /-- `levels_[level]->runs_[run]`. -/
  runs : Nat → Nat → Run
  /-- The log manager of the memtable. -/
  log : LogManager

namespace Store

/-- Replace one run. -/
def setRun (s : Store) (level run : Nat) (r : Run) : Store :=
  { s with runs := fun l k => if l = level ∧ k = run then r else s.runs l k }

/-- The parts of a database before its runs are read. -/
def init (disk : DiskManager) : Store where
  disk := disk
  runs := fun _ _ => { isEmpty := true, kvNum := 0, bloomFilter := Bloom.empty }
  log := LogManager.init

/-- A store over three new files. -/
def empty : Store := Store.init (DiskManager.init ⟨none, none, none⟩)

end Store

/-! ## Runs -/

namespace Run

/-- `Run(level, run, disk_manager)`: the run is empty if its page is all zero. -/
def construct (s : Store) (level run : Nat) : Except Fault Store := do
  if ¬ (level < maxLevelNum ∧ run < getMaxRun level) then throw .assertFailed
  let (data, disk) := s.disk.readDb zeroData (getPageId level run)
  let (isEmpty, _) ← (SSTablePage.ofData data).parsePageData
  let r : Run := { isEmpty := isEmpty, kvNum := 0, bloomFilter := Bloom.empty }
  return { s with disk := disk }.setRun level run r

/-- `Run::ClearSSTable`. -/
def clearSSTable (s : Store) (level run : Nat) : Except Fault Store :=
  if (s.runs level run).isEmpty then .error .assertFailed
  else
    let s := s.setRun level run { s.runs level run with isEmpty := true }
    .ok { s with disk := s.disk.writeDb zeroData pageSize (getPageId level run) }

/-- `Run::DumpSSTable`, into the run's page or into the temporary file. -/
def dumpSSTable (s : Store) (level run : Nat) (memtable : List MappingType)
    (forTempTable : Bool) : Except Fault Store := do
  let page ← pageData level run memtable
  let r : Run :=
    { isEmpty := false, kvNum := Int32.ofNat memtable.length, bloomFilter := bloomOf memtable }
  let s := s.setRun level run r
  if forTempTable then
    return { s with disk := s.disk.writeDbTemp page pageSize }
  else
    return { s with disk := s.disk.writeDb page pageSize (getPageId level run) }

/-- `Run::LoadSSTable`; `none` where the source leaves its outputs untouched. -/
def loadSSTable (s : Store) (level run : Nat) :
    Except Fault (Option (Bloom × SSTable) × Store) :=
  if (s.runs level run).isEmpty then .ok (none, s)
  else do
    let (data, disk) := s.disk.readDb zeroData (getPageId level run)
    let (_, page) ← (SSTablePage.ofData data).parsePageData
    return (some (page.bloomFilter, page.memtable), { s with disk := disk })

end Run

/-! ## The page of a run -/

/-- **What a run writes for a memtable that fits a page.** -/
theorem Run.dumpSSTable_eq (s : Store) (level run : Nat) {memtable : List MappingType}
    (h : FitsPage memtable) (forTempTable : Bool) :
    ∃ s', Run.dumpSSTable s level run memtable forTempTable = .ok s' ∧
      s'.disk = (if forTempTable then
          s.disk.writeDbTemp (pageImage level run memtable) pageSize
        else
          s.disk.writeDb (pageImage level run memtable) pageSize (getPageId level run)) ∧
      (s'.runs level run).bloomFilter = bloomOf memtable := by
  unfold Run.dumpSSTable
  rw [pageData_eq h]
  cases forTempTable with
  | true => exact ⟨_, rfl, rfl, by simp [Store.setRun]⟩
  | false => exact ⟨_, rfl, rfl, by simp [Store.setRun]⟩

/-- **Page decoding undoes page encoding.**  The page `Run::DumpSSTable` writes
for a memtable of at most 125 pairs is not all zero; `ParsePageData` recovers the
pair count, the page id, the level and the run, the pairs in order and the
filter of the run; and this filter rejects no key of the memtable. -/
theorem page_round_trip {level run : Nat} (hr : ValidRun level run)
    {memtable : List MappingType} (hlen : memtable.length ≤ 125) (s : Store)
    (forTempTable : Bool) :
    ∃ s' page p, Run.dumpSSTable s level run memtable forTempTable = .ok s' ∧
      s'.disk = (if forTempTable then s.disk.writeDbTemp page pageSize
        else s.disk.writeDb page pageSize (getPageId level run)) ∧
      page.length = pageSize ∧ isPageAllZero page = false ∧
      (SSTablePage.ofData page).parsePageData = .ok (false, p) ∧
      p.kvNum.toInt = memtable.length ∧ p.pageId.toInt = getPageId level run ∧
      p.level = level ∧ p.run = run ∧ p.memtable = memtable ∧
      p.bloomFilter = (s'.runs level run).bloomFilter ∧
      (∀ kv ∈ memtable, p.bloomFilter.couldHasKey kv.1 = true) ∧
      ∀ key, p.bloomFilter.couldHasKey key = false → memtable.lookup key = none := by
  have hfit : FitsPage memtable := fitsPage_iff.2 hlen
  obtain ⟨s', hdump, hdisk, hfilter⟩ := Run.dumpSSTable_eq s level run hfit forTempTable
  have hkept : ∀ kv ∈ memtable, (bloomOf memtable).couldHasKey kv.1 = true := by
    intro kv hkv
    exact Bloom.couldHasKey_ofKeys (List.mem_map_of_mem hkv)
  refine ⟨s', pageImage level run memtable, SSTablePage.parsed level run memtable, hdump, hdisk,
    length_pageImage hfit level run, SSTablePage.isPageAllZero_pageImage level run memtable,
    SSTablePage.parsePageData_pageImage hr hfit, ?_, ?_, rfl, rfl, rfl, hfilter.symm, hkept, ?_⟩
  · show (Int32.ofNat memtable.length).toInt = memtable.length
    exact Int32.toInt_ofNat_of_lt (by omega)
  · show (Int32.ofNat (getPageId level run)).toInt = getPageId level run
    have hlt := (getLevelRunNo_getPageId hr).1
    have htotal : totalNonOverflowPages = 15 := by decide
    exact Int32.toInt_ofNat_of_lt (by omega)
  · intro key hreject
    apply SortedTable.lookup_eq_none_of_forall_ne
    rintro kv hkv rfl
    have hreject' : (bloomOf memtable).couldHasKey kv.1 = false := hreject
    rw [hkept kv hkv] at hreject'
    cases hreject'

/-- A negative key, a tombstone and the largest value survive in the last run. -/
theorem page_round_trip_three : ValidRun 4 4 ∧
    ∃ s' page p, Run.dumpSSTable .empty 4 4 [(-7, 1), (0, tombstome), (5, 2147483647)] false =
        .ok s' ∧
      s'.disk = Store.empty.disk.writeDb page pageSize 14 ∧
      (SSTablePage.ofData page).parsePageData = .ok (false, p) ∧
      p.memtable = [(-7, 1), (0, tombstome), (5, 2147483647)] := by
  have hr : ValidRun 4 4 := by decide
  have hlen : ([(-7, 1), (0, tombstome), (5, 2147483647)] : SSTable).length ≤ 125 := by decide
  obtain ⟨s', page, p, hdump, hdisk, -, -, hparse, -, -, -, -, hpairs, -⟩ :=
    page_round_trip hr hlen .empty false
  exact ⟨hr, s', page, p, hdump, hdisk, hparse, hpairs⟩

/-! ## Levels -/

namespace Level

/-- `Level::ClearSSTable`. -/
def clearSSTable (s : Store) (level run : Nat) : Except Fault Store :=
  if (s.runs level run).isEmpty then .error .assertFailed else Run.clearSSTable s level run

/-- `Level::DumpSSTable<buffer_t>`: a flushed memtable goes into an empty run. -/
def dumpBuffer (s : Store) (level run : Nat) (memtable : BufferMap) : Except Fault Store :=
  if (s.runs level run).isEmpty then Run.dumpSSTable s level run memtable.entries false
  else .error .assertFailed

/-- `Level::DumpSSTable<sstable_t>`. -/
def dumpSSTable (s : Store) (level run : Nat) (memtable : SSTable) (forTempTable : Bool) :
    Except Fault Store :=
  Run.dumpSSTable s level run memtable forTempTable

/-- `Level::LoadSSTable`; `none` where the source returns `false`. -/
def loadSSTable (s : Store) (level run : Nat) :
    Except Fault (Option (Bloom × SSTable) × Store) :=
  if (s.runs level run).isEmpty then .ok (none, s) else Run.loadSSTable s level run

end Level

/-! ## The calls -/

/-- The calls the rest of the program makes to the SSTable manager, the log
manager and the disk manager. -/
inductive StoreOp
  /-- `SSTableManager::IsEmpty`. -/
  | isEmpty (level run : Nat)
  /-- `SSTableManager::LoadSSTable`. -/
  | loadSSTable (level run : Nat)
  /-- `SSTableManager::ClearSSTable`. -/
  | clearSSTable (level run : Nat)
  /-- `levels_[level]->DumpSSTable(run, memtable)` of a flushed memtable. -/
  | dumpBuffer (level run : Nat) (memtable : BufferMap)
  /-- `SSTableManager::DumpSSTable(level, run, memtable)`. -/
  | dumpSSTable (level run : Nat) (memtable : SSTable)
  /-- `SSTableManager::DumpTempSSTable`. -/
  | dumpTempSSTable (memtable : SSTable)
  /-- `SSTableManager::ClearTempSSTable`. -/
  | clearTempSSTable
  /-- `LogManager::AppendLogRecord`. -/
  | appendLogRecord (key : Key) (val : Val)
  /-- `Buffer::FlushWAL`. -/
  | flushWAL
  /-- `disk_manager_->WriteLog(zero_data, PAGE_SIZE, true)`. -/
  | clearLog
  /-- `LogManager::StopFlushThread`. -/
  | stopFlushThread

/-- The store's calls and their answers. -/
def StoreSig : Sig where
  Op := StoreOp
  Res
    | .isEmpty _ _ => Bool
    | .loadSSTable _ _ => Option (Bloom × SSTable)
    | _ => Unit

namespace Store

/-- What a call does to the store. -/
def handle : Handler StoreSig Store Fault
  | .isEmpty level run, s => .ok ((s.runs level run).isEmpty, s)
  | .loadSSTable level run, s => Level.loadSSTable s level run
  | .clearSSTable level run, s => (Level.clearSSTable s level run).map fun s => ((), s)
  | .dumpBuffer level run memtable, s =>
    (Level.dumpBuffer s level run memtable).map fun s => ((), s)
  | .dumpSSTable level run memtable, s =>
    (Level.dumpSSTable s level run memtable false).map fun s => ((), s)
  | .dumpTempSSTable memtable, s =>
    -- through level MAX_LEVEL_NUM - 1, run 0
    (Level.dumpSSTable s (maxLevelNum - 1) 0 memtable true).map fun s => ((), s)
  | .clearTempSSTable, s => .ok ((), { s with disk := s.disk.writeDbTemp zeroData pageSize })
  | .appendLogRecord key val, s =>
    (s.log.appendLogRecord s.disk key val).map fun r => ((), { s with log := r.1, disk := r.2 })
  | .flushWAL, s =>
    (s.log.flush s.disk).map fun r => ((), { s with log := r.1, disk := r.2 })
  | .clearLog, s => .ok ((), { s with disk := s.disk.writeLog zeroData pageSize true })
  | .stopFlushThread, s =>
    (s.log.stopFlushThread s.disk).map fun r => ((), { s with log := r.1, disk := r.2 })

end Store

/-- Does the call write to disk?  (`appendLogRecord` may, when the log buffer is
full.) -/
def StoreOp.isWrite : StoreOp → Bool
  | .isEmpty _ _ => false
  | .loadSSTable _ _ => false
  | _ => true

/-! ## The calls as programs -/

namespace SSTableManager

/-- `IsEmpty(level_no, run_no)`. -/
def isEmpty (level run : Nat) : Prog StoreSig Bool := Prog.op (S := StoreSig) (.isEmpty level run)

/-- `LoadSSTable(level_no, run_no, filter, memtable)`. -/
def loadSSTable (level run : Nat) : Prog StoreSig (Option (Bloom × SSTable)) :=
  Prog.op (S := StoreSig) (.loadSSTable level run)

/-- `ClearSSTable(level_no, run_no)`. -/
def clearSSTable (level run : Nat) : Prog StoreSig Unit :=
  Prog.op (S := StoreSig) (.clearSSTable level run)

/-- `DumpSSTable(level_no, run_no, memtable)`. -/
def dumpTable (level run : Nat) (memtable : SSTable) : Prog StoreSig Unit :=
  Prog.op (S := StoreSig) (.dumpSSTable level run memtable)

/-- `DumpTempSSTable(memtable)`. -/
def dumpTempSSTable (memtable : SSTable) : Prog StoreSig Unit :=
  Prog.op (S := StoreSig) (.dumpTempSSTable memtable)

/-- `ClearTempSSTable()`. -/
def clearTempSSTable : Prog StoreSig Unit := Prog.op (S := StoreSig) .clearTempSSTable

theorem run_isEmpty (s : Store) (level run : Nat) :
    Prog.run Store.handle (isEmpty level run) s = .ok ((s.runs level run).isEmpty, s) :=
  Prog.run_op ..

theorem run_loadSSTable (s : Store) (level run : Nat) :
    Prog.run Store.handle (loadSSTable level run) s = Level.loadSSTable s level run :=
  Prog.run_op ..

end SSTableManager

/-! ## Construction -/

/-- `SSTableManager(disk_manager)`: the runs of every level, built from their
pages. -/
def SSTableManager.construct (s : Store) : Except Fault Store :=
  ((List.range maxLevelNum).flatMap fun level =>
    (List.range (getMaxRun level)).map fun run => (level, run)).foldlM
      (fun s p => Run.construct s p.1 p.2) s

/-! ## The order in which runs fill up -/

/-- Fill order: levels from the bottom (`MAX_LEVEL_NUM - 1`) to the top, runs
from left to right. -/
def fillOrder : List (Nat × Nat) :=
  (List.range maxLevelNum).reverse.flatMap fun level =>
    (List.range (getMaxRun level)).map fun run => (level, run)

/-- The `i`-th run in fill order. -/
def fillPos (i : Nat) : Nat × Nat := fillOrder.getD i (0, 0)

/-- The page id of the `i`-th run in fill order. -/
def fillPage (i : Nat) : Nat := getPageId (fillPos i).1 (fillPos i).2

theorem totalNonOverflowPages_eq : totalNonOverflowPages = 15 := by decide

/-- Every position of the fill order is a run of the level structure. -/
theorem validRun_fillPos {i : Nat} (h : i < totalNonOverflowPages) :
    ValidRun (fillPos i).1 (fillPos i).2 := by
  have hall : ∀ i < 15, ValidRun (fillPos i).1 (fillPos i).2 := by decide
  exact hall i h

/-- Different positions have different pages. -/
theorem fillPage_inj {i j : Nat} (hi : i < totalNonOverflowPages) (hj : j < totalNonOverflowPages)
    (h : fillPage i = fillPage j) : i = j := by
  have hall : ∀ i < 15, ∀ j < 15, fillPage i = fillPage j → i = j := by decide
  exact hall i hi j hj h

theorem fillPos_inj {i j : Nat} (hi : i < totalNonOverflowPages) (hj : j < totalNonOverflowPages)
    (h : fillPos i = fillPos j) : i = j := by
  refine fillPage_inj hi hj ?_
  rw [fillPage, fillPage, h]

/-- Every run of the level structure has a position. -/
theorem exists_fillPos {level run : Nat} (h : ValidRun level run) :
    ∃ i < totalNonOverflowPages, fillPos i = (level, run) := by
  have hall : ∀ level < 5, ∀ run < 5, ValidRun level run → ∃ i < 15, fillPos i = (level, run) := by
    decide
  exact hall level h.bounds.1 run h.bounds.2 h

end GhostDB
