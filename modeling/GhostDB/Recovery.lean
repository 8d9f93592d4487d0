import GhostDB.Layout

/-!
# Recovery

`recovery_manager.cc`: `RecoverSSTable`, which runs when the temporary page is
not clear, and `RecoverWAL`, which runs when the log is not.

* `recoverSSTable_spec` — what the first one really does: the call
  `WriteDb(data, page_id)` is the overload that writes `page_id` bytes to the
  temporary file, so `sstable.db` stays as it is and the temporary page is
  cleared.
* `readLoop_of_zero`, `readLoop_of_ne_zero` — what the second one really does:
  both reads of the loop are at the start of the page, so it either stops after
  two rounds with the key 0 or never.
* `recoverBuffer_eq_iff` — when the recovered memtable is the logged one.
* `recoverWAL_iff` — and so what `RecoverWAL` dumps into a store that has an
  empty run.
-/

namespace GhostDB

open Prog Bytes SortedTable

namespace RecoveryManager

/-! ## The recovery manager -/

/-- `RecoverSSTable`. -/
def recoverSSTable (s : Store) : Except Fault Store := do
  let (data, disk) := s.disk.readDbTemp zeroData
  let (empty, page) ← (SSTablePage.ofData data).parsePageData
  if empty then return { s with disk := disk }
  let size := page.pageId.toInt.toNat
  if size > pageSize then throw .readPastEnd
  -- `WriteDb(const char *, int)`: `page_id` is the number of bytes
  let disk := disk.writeDbTemp data size
  return { s with disk := disk.writeDbTemp zeroData pageSize }

/-- The loop of `RecoverWAL`.  Its `offset` moves, but both reads are at the
start of the page. -/
def readLoop (pageData : List UInt8) : Nat → Bool → BufferMap → Except Fault BufferMap
  | 0, _, _ => .error .outOfFuel
  | fuel + 1, hasMetZero, buffer =>
    let key := readInt32 pageData 0
    let val := readInt32 pageData 0
    if key = 0 ∧ val = 0 then
      if hasMetZero then .ok buffer
      else readLoop pageData fuel true (buffer.insert key val)
    else if hasMetZero then readLoop pageData fuel false ((buffer.insert 0 0).insert key val)
    else readLoop pageData fuel false (buffer.insert key val)

/-- The first half of `RecoverWAL`: the memtable to dump, `none` when the log is
empty. -/
def recoverBuffer (fuel : Nat) (d : DiskManager) :
    Except Fault (Option BufferMap × DiskManager) := do
  let (pageData, d) := d.readLog zeroData pageSize
  if isPageAllZero pageData then return (none, d)
  let buffer ← readLoop pageData fuel false SortedMap.empty
  return (some buffer, d)

/-- `RecoverWAL`. -/
def recoverWAL (fuel : Nat) (w : World) : Except Fault World := do
  let (recovered, disk) ← recoverBuffer fuel w.store.disk
  let w := { w with store := { w.store with disk := disk } }
  match recovered with
  | none => return w
  | some buffer =>
    let (_, w) ← run World.handle (do dumpLoop fuel buffer; onStore clearLog) w
    return w

/-- `PerformRecover`. -/
def performRecover (fuel : Nat) (w : World) : Except Fault World := do
  let s ← recoverSSTable w.store
  recoverWAL fuel { w with store := s }

/-! ## RecoverSSTable -/

/-- With a clear temporary page there is nothing to recover. -/
theorem recoverSSTable_clear {s : Store} {slots : Slots} (h : Rep s slots)
    (ht : pageAt s.disk.tempIo 0 = zeroData) :
    ∃ s', recoverSSTable s = .ok s' ∧ Rep s' slots ∧ StoreFrame s s' ∧
      pageAt s'.disk.tempIo 0 = zeroData := by
  obtain ⟨p, hread⟩ := readDbTemp_spec h.temp
  rw [ht] at hread
  refine ⟨{ s with disk := { s.disk with tempIo := { s.disk.tempIo with pos := p } } }, ?_,
    ⟨h.db, h.temp.setPos p, h.slot⟩, ⟨rfl, rfl, fun _ _ => rfl⟩, ht⟩
  rw [recoverSSTable, hread]
  simp only [parsePageData_zero, Bind.bind, Except.bind, pure, Except.pure, if_true]

/-- Writing less than a page at the start of a nonempty paged file keeps it
paged. -/
theorem pagedFile_writeDbTemp_le {d : DiskManager} (h : PagedFile d.tempIo)
    (hne : d.tempIo.bytes ≠ []) (data : List UInt8) {size : Nat} (hsize : size ≤ pageSize) :
    PagedFile (d.writeDbTemp data size).tempIo := by
  unfold DiskManager.writeDbTemp
  split
  next => exact h
  next =>
    have hpage : pageSize ≤ d.tempIo.bytes.length := by
      have hpos := List.length_pos_iff.2 hne
      have hin : 0 * pageSize + pageSize ≤ d.tempIo.bytes.length := h.page_le (by omega)
      omega
    refine ⟨by simp [h.good], ?_⟩
    rw [FileStream.write_bytes (by simp [h.good]), length_overwrite, FileStream.seekp_pos h.good,
      FileStream.seekp_bytes, List.length_take, max_eq_left (by omega)]
    exact h.aligned

/-- **`RecoverSSTable` restores nothing**: `sstable.db` keeps its view, whatever
table the temporary page holds, and the temporary page is cleared. -/
theorem recoverSSTable_spec {s : Store} {slots : Slots} (h : Rep s slots) {level run : Nat}
    (hr : ValidRun level run) {t : SSTable} (ht : FitsPage t)
    (htemp : pageAt s.disk.tempIo 0 = pageImage level run t) :
    ∃ s', recoverSSTable s = .ok s' ∧ Rep s' slots ∧ StoreFrame s s' ∧
      pageAt s'.disk.tempIo 0 = zeroData := by
  obtain ⟨p, hread⟩ := readDbTemp_spec h.temp
  rw [htemp] at hread
  have hparse := SSTablePage.parsePageData_pageImage hr ht
  have hid := (getLevelRunNo_getPageId hr).1
  rw [totalNonOverflowPages_eq] at hid
  have hsize : (SSTablePage.parsed level run t).pageId.toInt.toNat ≤ pageSize := by
    rw [SSTablePage.parsed, Int32.toInt_ofNat_of_lt (by omega), Int.toNat_natCast, pageSize]
    omega
  have hne : s.disk.tempIo.bytes ≠ [] := by
    intro hnil
    have hz := SSTablePage.isPageAllZero_pageImage level run t
    rw [← htemp, pageAt, hnil, block_nil, isPageAllZero_replicate] at hz
    cases hz
  have hpaged := pagedFile_writeDbTemp_le (d := { s.disk with
    tempIo := { s.disk.tempIo with pos := p } }) (h.temp.setPos p) hne (pageImage level run t) hsize
  refine ⟨{ s with disk := DiskManager.writeDbTemp _ zeroData pageSize }, ?_,
    ⟨?_, pagedFile_writeDbTemp hpaged length_zeroData, ?_⟩, ⟨rfl, ?_, ?_⟩,
    pageAt_writeDbTemp hpaged length_zeroData⟩
  · rw [recoverSSTable, hread]
    simp only [hparse, Bind.bind, Except.bind, pure, Except.pure, Bool.false_eq_true, if_false]
    rw [if_neg (not_lt.2 hsize)]
  · simpa using h.db
  · intro i hi
    have hslot := h.slot i hi
    unfold SlotRep at hslot ⊢
    simpa using hslot
  · simp
  · intro j hj
    simp

/-! ## RecoverWAL -/

/-- The page `RecoverWAL` reads is the first of the log file, zero past its
end. -/
theorem readLog_spec {d : DiskManager} (h : d.logIo.fail = false) :
    (d.readLog zeroData pageSize).1 = pageAt d.logIo 0 := by
  rw [pageAt, block_zero]
  unfold DiskManager.readLog DiskManager.getFileSize
  split
  next hz => rw [List.length_eq_zero_iff.1 hz]; rfl
  next =>
    have hread : ((d.logIo.seekp 0).read pageSize).1 = d.logIo.bytes.take pageSize := by
      simp [FileStream.read, FileStream.seekp, h, slice]
    have hdrop : zeroData.drop (min pageSize d.logIo.bytes.length) =
        List.replicate (pageSize - d.logIo.bytes.length) 0 := by
      rw [zeroData, List.drop_replicate]
      congr 1
      omega
    simp only [DiskManager.readFileImpl, hread, memmove, List.take_zero, List.nil_append,
      Nat.zero_add, List.length_take, hdrop]

/-- The first page of the log file holds `bs`, wherever its stream stands. -/
structure LogPage (io : FileStream) (bs : List UInt8) : Prop where
  /-- No operation on it has failed. -/
  good : io.fail = false
  /-- Byte by byte; zero from the end of `bs` on. -/
  page : ∀ i < pageSize, io.bytes.getD i 0 = bs.getD i 0

/-- Opening the files again shows what the log held. -/
theorem logPage_reopen {d : DiskManager} {bs : List UInt8} (h : LogHolds d.logIo bs) :
    LogPage d.reopen.logIo bs := ⟨rfl, h.page⟩

theorem pageAt_of_logPage {io : FileStream} {bs : List UInt8} (h : LogPage io bs)
    (hlen : bs.length ≤ pageSize) :
    pageAt io 0 = bs ++ List.replicate (pageSize - bs.length) 0 := by
  have hcongr : block io.bytes pageSize 0 = block bs pageSize 0 := by
    apply block_congr
    intro i hi
    rw [Nat.zero_mul, Nat.zero_add]
    exact h.page i hi
  rw [pageAt, hcongr, block_zero, List.take_of_length_le hlen]

/-- With the key 0 in front the loop stops after two rounds: the second round
finds the same record again. -/
theorem readLoop_of_zero {pageData : List UInt8} (h : readInt32 pageData 0 = 0) (fuel : Nat) :
    readLoop pageData (fuel + 2) false SortedMap.empty = .ok (SortedMap.empty.insert 0 0) := by
  simp [readLoop, h]

/-- With another key in front the loop never ends. -/
theorem readLoop_of_ne_zero {pageData : List UInt8} (h : readInt32 pageData 0 ≠ 0) (fuel : Nat)
    (buffer : BufferMap) : readLoop pageData fuel false buffer = .error .outOfFuel := by
  induction fuel generalizing buffer with
  | zero => rfl
  | succ fuel ih =>
    have hno : ¬ (readInt32 pageData 0 = 0 ∧ readInt32 pageData 0 = 0) := fun hh => h hh.1
    rw [readLoop, if_neg hno]
    exact ih _

/-- Whatever the loop returns is `{0: 0}`, after two rounds. -/
theorem readLoop_eq_ok {pageData : List UInt8} {fuel : Nat} {buffer : BufferMap}
    (ok : readLoop pageData fuel false SortedMap.empty = .ok buffer) :
    2 ≤ fuel ∧ buffer = SortedMap.empty.insert 0 0 := by
  by_cases hzero : readInt32 pageData 0 = 0
  · match fuel with
    | 0 => cases ok
    | 1 => simp [readLoop, hzero] at ok
    | fuel + 2 =>
      rw [readLoop_of_zero hzero] at ok
      cases ok
      exact ⟨Nat.le_add_left 2 fuel, rfl⟩
  · rw [readLoop_of_ne_zero hzero] at ok
    cases ok

/-! ## The logged memtable -/

/-- The last-write-wins map of a sequence of records. -/
def lastWrites (recs : List MappingType) : BufferMap :=
  recs.foldl (fun m r => m.insert r.1 r.2) SortedMap.empty

theorem lastWrites_concat (recs : List MappingType) (r : MappingType) :
    lastWrites (recs ++ [r]) = (lastWrites recs).insert r.1 r.2 := by
  rw [lastWrites, List.foldl_concat, lastWrites]

/-- The keys of the map are the keys of the records. -/
theorem lookup_lastWrites_eq_none_iff {recs : List MappingType} {k : Key} :
    (lastWrites recs).lookup k = none ↔ ∀ r ∈ recs, r.1 ≠ k := by
  induction recs using List.reverseRecOn with
  | nil => simp [lastWrites]
  | append_singleton recs q ih =>
    rw [lastWrites_concat, SortedMap.lookup_insert]
    by_cases hk : k = q.1
    · rw [if_pos hk]
      constructor
      · intro h
        cases h
      · intro h
        exact absurd hk.symm (h q (by simp))
    · rw [if_neg hk, ih]
      simp only [List.mem_append, List.mem_singleton, or_imp, forall_and, forall_eq]
      exact ⟨fun h => ⟨h, Ne.symm hk⟩, fun h => h.1⟩

/-- **When the last-write-wins map is the one the loop returns**: every key is 0
and so is the last value. -/
theorem lastWrites_eq_iff {recs : List MappingType} (hne : recs ≠ []) :
    lastWrites recs = SortedMap.empty.insert 0 0 ↔
      (∀ r ∈ recs, r.1 = 0) ∧ recs.getLast? = some (0, 0) := by
  obtain ⟨pre, last, rfl⟩ : ∃ pre last, recs = pre ++ [last] :=
    ⟨_, _, (List.dropLast_append_getLast hne).symm⟩
  rw [List.getLast?_concat]
  constructor
  · intro heq
    have hkeys : ∀ r ∈ pre ++ [last], r.1 = 0 := by
      intro r hr
      by_contra hk
      have hnone : (lastWrites (pre ++ [last])).lookup r.1 = none := by
        rw [heq, SortedMap.lookup_insert, if_neg hk, SortedMap.lookup_empty]
      exact lookup_lastWrites_eq_none_iff.1 hnone r hr rfl
    have hlast : last.1 = 0 := hkeys last (by simp)
    have hval := congrArg (fun m => SortedMap.lookup m 0) heq
    simp only [lastWrites_concat, SortedMap.lookup_insert, hlast, if_true, Option.some.injEq]
      at hval
    exact ⟨hkeys, congrArg some (Prod.ext hlast hval)⟩
  · rintro ⟨hkeys, hlast⟩
    apply SortedMap.ext_lookup
    intro k
    rw [lastWrites_concat, Option.some.inj hlast, SortedMap.lookup_insert, SortedMap.lookup_insert]
    by_cases hk : k = 0
    · rw [if_pos hk, if_pos hk]
    · rw [if_neg hk, if_neg hk, SortedMap.lookup_empty, lookup_lastWrites_eq_none_iff]
      intro r hr
      rw [hkeys r (List.mem_append_left _ hr)]
      exact Ne.symm hk

/-! ## The recovered memtable -/

theorem int32Bytes_zero : int32Bytes 0 = List.replicate 4 0 := by decide

/-- A number whose bytes are all zero is 0. -/
theorem isPageAllZero_int32Bytes_iff {x : Int32} : isPageAllZero (int32Bytes x) = true ↔ x = 0 := by
  constructor
  · intro h
    have hbytes : int32Bytes x = int32Bytes 0 := by
      rw [isPageAllZero_iff, length_int32Bytes] at h
      rw [h, int32Bytes_zero]
    have hread : ∀ y : Int32, readInt32 (int32Bytes y) 0 = y :=
      fun y => readInt32_of_eq [] [] (by simp) rfl
    rw [← hread x, hbytes, hread 0]
  · rintro rfl
    rw [int32Bytes_zero]
    exact isPageAllZero_replicate 4

theorem isPageAllZero_append (a b : List UInt8) :
    isPageAllZero (a ++ b) = (isPageAllZero a && isPageAllZero b) := List.all_append

/-- The records of a log are all zero bytes exactly when each is `<0, 0>`. -/
theorem isPageAllZero_records_iff {recs : List MappingType} :
    isPageAllZero (memtableToString recs) = true ↔ ∀ r ∈ recs, r = (0, 0) := by
  induction recs with
  | nil => simp [isPageAllZero]
  | cons r rs ih =>
    rw [memtableToString_cons, recordBytes, isPageAllZero_append, isPageAllZero_append,
      Bool.and_eq_true, Bool.and_eq_true, isPageAllZero_int32Bytes_iff,
      isPageAllZero_int32Bytes_iff, ih, List.forall_mem_cons, Prod.ext_iff]

/-- The logs the loop gets right: every key is 0, the last record is `<0, 0>` and
another one is not. -/
def ReadBack (recs : List MappingType) : Prop :=
  (∀ r ∈ recs, r.1 = 0) ∧ recs.getLast? = some (0, 0) ∧ ∃ r ∈ recs, r ≠ (0, 0)

section Recover

variable {d : DiskManager} {recs : List MappingType}

/-- What `recoverBuffer` does with a log that holds some records. -/
theorem recoverBuffer_eq (h : LogPage d.logIo (memtableToString recs)) (hne : recs ≠ [])
    (hfit : recordSize * recs.length ≤ pageSize) :
    ∃ page, readInt32 page 0 = (recs.head hne).1 ∧ ∀ fuel,
      (recoverBuffer fuel d).map Prod.fst =
        if ∀ r ∈ recs, r = (0, 0) then .ok none
        else (readLoop page fuel false SortedMap.empty).map some := by
  have hlen : (memtableToString recs).length ≤ pageSize := by
    rw [length_memtableToString]
    exact hfit
  have hpage := pageAt_of_logPage h hlen
  have hlog := readLog_spec h.good
  refine ⟨pageAt d.logIo 0, ?_, ?_⟩
  · obtain ⟨r, rs, rfl⟩ := List.exists_cons_of_ne_nil hne
    refine readInt32_of_eq [] (int32Bytes r.2 ++ (memtableToString rs ++
      List.replicate (pageSize - (memtableToString (r :: rs)).length) 0)) ?_ rfl
    rw [hpage, memtableToString_cons, recordBytes]
    simp only [List.append_assoc, List.nil_append, List.head_cons]
  · intro fuel
    have hzero : isPageAllZero (pageAt d.logIo 0) = true ↔ ∀ r ∈ recs, r = (0, 0) := by
      rw [hpage, isPageAllZero_append, isPageAllZero_replicate, Bool.and_true,
        isPageAllZero_records_iff]
    rw [recoverBuffer]
    simp only [hlog]
    by_cases hall : ∀ r ∈ recs, r = (0, 0)
    · rw [if_pos (hzero.2 hall), if_pos hall]
      rfl
    · rw [if_neg (fun hz => hall (hzero.1 hz)), if_neg hall]
      cases readLoop (pageAt d.logIo 0) fuel false SortedMap.empty <;> rfl

/-- **When the recovered memtable is the logged one**, for a log that holds the
records. -/
theorem recoverBuffer_eq_iff (h : LogPage d.logIo (memtableToString recs)) (hne : recs ≠ [])
    (hfit : recordSize * recs.length ≤ pageSize) :
    (∃ fuel d', recoverBuffer fuel d = .ok (some (lastWrites recs), d')) ↔ ReadBack recs := by
  obtain ⟨page, hhead, heq⟩ := recoverBuffer_eq h hne hfit
  have hmap : (∃ fuel d', recoverBuffer fuel d = .ok (some (lastWrites recs), d')) ↔
      ∃ fuel, (recoverBuffer fuel d).map Prod.fst = .ok (some (lastWrites recs)) := by
    apply exists_congr
    intro fuel
    cases recoverBuffer fuel d with
    | error e => simp [Except.map]
    | ok x => obtain ⟨m, d'⟩ := x; simp [Except.map]
  rw [hmap, ReadBack]
  simp only [heq]
  by_cases hall : ∀ r ∈ recs, r = (0, 0)
  · have hno : ¬ ∃ r ∈ recs, r ≠ (0, 0) := by
      rintro ⟨r, hr, hrne⟩
      exact hrne (hall r hr)
    simp only [if_pos hall, hno, and_false, iff_false]
    rintro ⟨fuel, hfuel⟩
    cases hfuel
  · have hsome : ∃ r ∈ recs, r ≠ (0, 0) := by
      push Not at hall
      exact hall
    simp only [if_neg hall, hsome, and_true]
    by_cases hzero : (recs.head hne).1 = 0
    · rw [← lastWrites_eq_iff hne]
      constructor
      · rintro ⟨fuel, hfuel⟩
        cases hloop : readLoop page fuel false SortedMap.empty with
        | error e =>
          rw [hloop] at hfuel
          cases hfuel
        | ok buffer =>
          rw [hloop] at hfuel
          cases hfuel
          exact (readLoop_eq_ok hloop).2
      · intro hlast
        refine ⟨2, ?_⟩
        rw [readLoop_of_zero (hhead.trans hzero), hlast]
        rfl
    · constructor
      · rintro ⟨fuel, hfuel⟩
        rw [readLoop_of_ne_zero (fun hk => hzero (hhead.symm.trans hk))] at hfuel
        cases hfuel
      · rintro ⟨hkeys, -⟩
        exact absurd (hkeys _ (List.head_mem hne)) hzero

end Recover

/-! ## The recovered run -/

/-- Reading the log leaves the other files alone. -/
theorem readLog_frame (d : DiskManager) (page : List UInt8) (size : Nat) :
    (d.readLog page size).2.dbIo = d.dbIo ∧ (d.readLog page size).2.tempIo = d.tempIo := by
  unfold DiskManager.readLog
  split <;> exact ⟨rfl, rfl⟩

/-- A memtable that is handed on is `{0: 0}`. -/
theorem recoverBuffer_some {fuel : Nat} {d d' : DiskManager} {m : BufferMap}
    (ok : recoverBuffer fuel d = .ok (some m, d')) :
    2 ≤ fuel ∧ m = SortedMap.empty.insert 0 0 ∧ d'.dbIo = d.dbIo ∧ d'.tempIo = d.tempIo := by
  obtain ⟨hdb, htemp⟩ := readLog_frame d zeroData pageSize
  unfold recoverBuffer at ok
  dsimp only at ok
  split at ok
  · cases ok
  · cases hloop : readLoop (d.readLog zeroData pageSize).1 fuel false SortedMap.empty with
    | error e =>
      rw [hloop] at ok
      cases ok
    | ok buffer =>
      rw [hloop] at ok
      cases ok
      obtain ⟨hfuel, hm⟩ := readLoop_eq_ok hloop
      exact ⟨hfuel, hm, hdb, htemp⟩

section RecoverWAL

variable {w : World} {cs : List RunContent} (hrep : Rep w.store (Slots.ofList cs))
  (hlen : cs.length < totalNonOverflowPages) {fuel : Nat}

include hrep hlen in
/-- With an empty run the loop that dumps what was recovered ends. -/
theorem recoverWAL_of_some {m : BufferMap} {d : DiskManager}
    (ok : recoverBuffer fuel w.store.disk = .ok (some m, d)) :
    ∃ w', recoverWAL fuel w = .ok w' ∧ w'.flushed = w.flushed ++ [m] := by
  obtain ⟨hfuel, rfl, hdb, htemp⟩ := recoverBuffer_some ok
  obtain ⟨fuel, rfl⟩ := Nat.exists_eq_add_of_le' hfuel
  have hframe : RunFrame w.store { w.store with disk := d } := ⟨rfl, hdb, htemp⟩
  set v : World := { w with store := { w.store with disk := d } }
  set m : BufferMap := SortedMap.empty.insert 0 0
  obtain ⟨s', hdump, -⟩ :=
    dumpSSTable_spec (w := v) (m := m) (hframe.rep hrep) hlen (by decide)
  have hloop : run World.handle (dumpLoop (fuel + 2) m) v = .ok ((), ⟨s', w.flushed ++ [m]⟩) := by
    rw [dumpLoop, run_bind_of_ok hdump]
    rfl
  obtain ⟨w', hclear, hflushed⟩ : ∃ w', run World.handle
      (do dumpLoop (fuel + 2) m; onStore clearLog) v = .ok ((), w') ∧
        w'.flushed = w.flushed ++ [m] :=
    ⟨⟨{ s' with disk := s'.disk.writeLog zeroData pageSize true }, w.flushed ++ [m] ++ []⟩,
      (run_bind_of_ok hloop).trans rfl, List.append_nil _⟩
  refine ⟨w', ?_, hflushed⟩
  rw [recoverWAL, ok]
  change (run World.handle (do dumpLoop (fuel + 2) m; onStore clearLog) v >>= fun x =>
    Except.ok x.2) = _
  rw [hclear]
  rfl

include hrep hlen in
/-- **What `RecoverWAL` dumps** over a store with an empty run is what
`recoverBuffer` hands it. -/
theorem recoverWAL_iff (m : BufferMap) :
    (∃ w', recoverWAL fuel w = .ok w' ∧ w'.flushed = w.flushed ++ [m]) ↔
      ∃ d, recoverBuffer fuel w.store.disk = .ok (some m, d) := by
  constructor
  · rintro ⟨w', hrun, hflushed⟩
    cases hbuffer : recoverBuffer fuel w.store.disk with
    | error e =>
      rw [recoverWAL, hbuffer] at hrun
      cases hrun
    | ok x =>
      obtain ⟨recovered, d⟩ := x
      cases recovered with
      | none =>
        rw [recoverWAL, hbuffer] at hrun
        cases hrun
        simp at hflushed
      | some m' =>
        obtain ⟨w'', hrun', hflushed'⟩ := recoverWAL_of_some hrep hlen hbuffer
        cases hrun.symm.trans hrun'
        have hlast := List.append_cancel_left (hflushed.symm.trans hflushed')
        rw [List.cons.injEq] at hlast
        exact ⟨d, by rw [hlast.1]⟩
  · rintro ⟨d, ok⟩
    exact recoverWAL_of_some hrep hlen ok

end RecoverWAL

/-! ## Write, crash, recover -/

theorem logState_empty : LogState Store.empty [] :=
  ⟨LogManager.ok_init, [], LogHolds.empty, rfl⟩

/-- **What recovery makes of a log.**  Records appended and flushed since the log
was last clear are recovered as their last-write-wins map exactly when the loop
gets them right; and with an empty run to take it, `RecoverWAL` over the files
opened again ends with exactly that map dumped, on the same condition. -/
theorem recovers_lastWrites_iff {s : Store} (hs : LogState s []) (recs : List MappingType)
    (hne : recs ≠ []) (hfit : recordSize * (recs.length + 2) ≤ pageSize) :
    ∃ s', run Store.handle (logRecords recs) s = .ok ((), s') ∧
      ((∃ fuel d', recoverBuffer fuel s'.disk.reopen = .ok (some (lastWrites recs), d')) ↔
        ReadBack recs) ∧
      ∀ cs, Rep s (Slots.ofList cs) → cs.length < totalNonOverflowPages → ∀ flushed,
        ∃ s₁, SSTableManager.construct (Store.init s'.disk.reopen) = .ok s₁ ∧
          ((∃ fuel w, recoverWAL fuel ⟨s₁, flushed⟩ = .ok w ∧
            w.flushed = flushed ++ [lastWrites recs]) ↔ ReadBack recs) := by
  obtain ⟨s', hrun, hholds, hframe⟩ := logRecords_state recs hs
  rw [List.nil_append] at hholds
  have hle : recordSize * recs.length ≤ pageSize :=
    (Nat.mul_le_mul_left _ (Nat.le_add_right _ 2)).trans hfit
  have hpage := logPage_reopen hholds
  refine ⟨s', hrun, recoverBuffer_eq_iff hpage hne hle, ?_⟩
  intro cs hrep hlen flushed
  obtain ⟨s₁, hconstruct, hrep₁, hsame, -⟩ :=
    construct_spec (s := Store.init s'.disk.reopen) (hframe.rep hrep).pagesHold
  refine ⟨s₁, hconstruct, ?_⟩
  have hpage₁ : LogPage s₁.disk.logIo (memtableToString recs) := by
    rw [hsame.logIo]
    exact hpage
  have hdumped : ∀ fuel, (∃ w, recoverWAL fuel ⟨s₁, flushed⟩ = .ok w ∧
      w.flushed = flushed ++ [lastWrites recs]) ↔
        ∃ d', recoverBuffer fuel s₁.disk = .ok (some (lastWrites recs), d') :=
    fun fuel => recoverWAL_iff (w := ⟨s₁, flushed⟩) hrep₁ hlen (lastWrites recs)
  rw [exists_congr hdumped]
  exact recoverBuffer_eq_iff hpage₁ hne hle

/-- A log the recovery does read back. -/
theorem recovers_zero_after_five :
    ∃ s' s₁ fuel w, run Store.handle (logRecords [(0, 5), (0, 0)]) Store.empty = .ok ((), s') ∧
      (∃ fuel d', recoverBuffer fuel s'.disk.reopen =
        .ok (some (lastWrites [(0, 5), (0, 0)]), d')) ∧
      SSTableManager.construct (Store.init s'.disk.reopen) = .ok s₁ ∧
      recoverWAL fuel ⟨s₁, []⟩ = .ok w ∧ w.flushed = [lastWrites [(0, 5), (0, 0)]] := by
  have hread : ReadBack [(0, 5), (0, 0)] := ⟨by simp, rfl, (0, 5), by simp, by decide⟩
  obtain ⟨s', hrun, hbuffer, hdumped⟩ :=
    recovers_lastWrites_iff logState_empty [(0, 5), (0, 0)] (by simp) (by decide)
  obtain ⟨s₁, hconstruct, hiff⟩ := hdumped [] (rep_empty.congr fun _ _ => rfl) (by decide) []
  obtain ⟨fuel, w, hrecover, hflushed⟩ := hiff.2 hread
  exact ⟨s', s₁, fuel, w, hrun, hbuffer.2 hread, hconstruct, hrecover, hflushed⟩

/-- **One record with another key is enough** for recovery never to end. -/
theorem recovery_of_one_record_never_ends :
    ∃ s', run Store.handle (logRecords [(1, 7)]) Store.empty = .ok ((), s') ∧
      ∀ fuel, recoverBuffer fuel s'.disk.reopen = .error .outOfFuel := by
  obtain ⟨s', hrun, hholds, -⟩ := logRecords_state [(1, 7)] logState_empty
  rw [List.nil_append] at hholds
  obtain ⟨page, hhead, heq⟩ :=
    recoverBuffer_eq (logPage_reopen hholds) (List.cons_ne_nil _ _) (by decide)
  have hkey : readInt32 page 0 ≠ 0 := by
    rw [hhead]
    decide
  refine ⟨s', hrun, ?_⟩
  intro fuel
  have hfst := heq fuel
  have hne : ¬ ∀ r ∈ [((1 : Key), (7 : Val))], r = (0, 0) := by simp
  rw [if_neg hne, readLoop_of_ne_zero hkey] at hfst
  cases hr : recoverBuffer fuel s'.disk.reopen with
  | error e => rw [hr] at hfst; injection hfst with he; rw [he]
  | ok x => rw [hr] at hfst; cases hfst

end RecoveryManager

end GhostDB
