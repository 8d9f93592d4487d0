import GhostDB.Library.Simulation
import GhostDB.FlushInterference

/-!
# Files and pages refine tables

What the store is for, without its files: a machine whose state says of every run
that it is clear or holds a table.  The calls of the store are the calls of this
machine, for every program, in every state, up to every crash.

* `TableMachine` — the machine; `TableMachine.handle` — its calls.
* `Store.Shows` — what a store has to do with it.
* `handle_simulates`, `handleClient_simulates` — one lemma for all the calls.
* `life_refines_tables` — every sequence of calls on a database, range reads
  included, gets the machine's answers and faults.
* `crash_refines_tables` — and a restart after a crash of any program of the
  store shows what the machine keeps.
-/

namespace GhostDB

open Prog

/-! ## The machine -/

/-- What a run is. -/
inductive RunState
  /-- Empty. -/
  | clear
  /-- Holds a table. -/
  | holds (t : SSTable)
  /-- Used, by its flag, but with a page that is clear. -/
  | marked
  deriving DecidableEq

/-- The runs by level and run number, and the table in the temporary file. -/
structure TableMachine where
  /-- What every run is. -/
  runs : Nat → Nat → RunState
  /-- The temporary table. -/
  temp : Option SSTable

namespace TableMachine

/-- Nothing is stored. -/
def empty : TableMachine := ⟨fun _ _ => .clear, none⟩

/-- Change one run. -/
def set (m : TableMachine) (level run : Nat) (x : RunState) : TableMachine :=
  { m with runs := fun l k => if l = level ∧ k = run then x else m.runs l k }

/-- A table written to a run; there is a limit to its size. -/
def dump (m : TableMachine) (level run : Nat) (t : SSTable) : Except Fault TableMachine :=
  if FitsPage t then .ok (m.set level run (.holds t)) else .error .pageOverflow

/-- What `LoadSSTable` returns; a page that is clear parses to no pairs. -/
def load (m : TableMachine) (level run : Nat) : Option (Bloom × SSTable) :=
  match m.runs level run with
  | .clear => none
  | .holds t => some (bloomOf t, t)
  | .marked => some (Bloom.empty, [])

/-- A run after a table was written through it to the temporary file. -/
def mark : RunState → RunState
  | .clear => .marked
  | x => x

/-- **The calls.**  Those on the log change nothing here. -/
def handle : Handler StoreSig TableMachine Fault
  | .isEmpty level run, m => .ok (decide (m.runs level run = .clear), m)
  | .loadSSTable level run, m => .ok (m.load level run, m)
  | .clearSSTable level run, m =>
    if m.runs level run = .clear then .error .assertFailed else .ok ((), m.set level run .clear)
  | .dumpBuffer level run memtable, m =>
    if m.runs level run = .clear then
      (m.dump level run memtable.entries).map fun m => ((), m)
    else .error .assertFailed
  | .dumpSSTable level run memtable, m => (m.dump level run memtable).map fun m => ((), m)
  | .dumpTempSSTable memtable, m =>
    if FitsPage memtable then
      -- the run it is written through counts as used from then on
      .ok ((), { m.set (maxLevelNum - 1) 0 (mark (m.runs (maxLevelNum - 1) 0)) with
        temp := some memtable })
    else .error .pageOverflow
  | .clearTempSSTable, m => .ok ((), { m with temp := none })
  | .appendLogRecord _ _, m => .ok ((), m)
  | .flushWAL, m => .ok ((), m)
  | .clearLog, m => .ok ((), m)
  | .stopFlushThread, m => .ok ((), m)

/-- A restart: flags are set by the pages, and the temporary table is dropped. -/
def restart (m : TableMachine) : TableMachine where
  runs := fun level run => if m.runs level run = .marked then .clear else m.runs level run
  temp := none

/-- A client of the machine. -/
def handleClient : Handler ClientSig TableMachine Fault
  | .inl o, m => handle o m
  | .inr (.request kind), m => (run handle (launch kind) m).map fun x => ((), x.2)
  | .inr .disable, m => .ok ((), m)
  | .inr (.fault f), _ => .error f

end TableMachine

/-! ## What a store shows -/

/-- The flag and the page of a run of which this is true. -/
def RunState.Shown (level run : Nat) (isEmpty : Bool) (page : List UInt8) : RunState → Prop
  | clear => isEmpty = true ∧ page = zeroData
  | holds t => isEmpty = false ∧ page = pageImage level run t ∧ FitsPage t
  | marked => isEmpty = false ∧ page = zeroData

/-- The temporary page. -/
def tempPage : Option SSTable → List UInt8
  | none => zeroData
  | some t => pageImage (maxLevelNum - 1) 0 t

/-- **The store shows the machine's state.** -/
structure Store.Shows (s : Store) (m : TableMachine) : Prop where
  /-- `sstable.db` is made of whole pages and its stream works. -/
  db : PagedFile s.disk.dbIo
  /-- So is `sstable.temp`. -/
  temp : PagedFile s.disk.tempIo
  /-- Flags and pages. -/
  runs : ∀ level run, ValidRun level run → (m.runs level run).Shown level run
    (s.runs level run).isEmpty (pageAt s.disk.dbIo (getPageId level run))
  /-- The temporary page. -/
  page : pageAt s.disk.tempIo 0 = tempPage m.temp
  /-- The temporary table fits one. -/
  fits : ∀ t ∈ m.temp, FitsPage t

/-- A new store shows the empty machine. -/
theorem shows_empty : Store.empty.Shows TableMachine.empty :=
  ⟨PagedFile.empty, PagedFile.empty, fun _ _ _ => ⟨rfl, Bytes.block_nil ..⟩, Bytes.block_nil ..,
    by simp [TableMachine.empty]⟩

/-- Does the call name a run the level structure does not have? -/
def StoreOp.isOutside : StoreOp → Bool
  | .isEmpty level run => !decide (ValidRun level run)
  | .loadSSTable level run => !decide (ValidRun level run)
  | .clearSSTable level run => !decide (ValidRun level run)
  | .dumpBuffer level run _ => !decide (ValidRun level run)
  | .dumpSSTable level run _ => !decide (ValidRun level run)
  | _ => false

/-! ## One call -/

namespace Store.Shows

variable {s : Store} {m : TableMachine} (h : s.Shows m)

include h in
/-- One run and its page are written. -/
theorem setRun {level run : Nat} (hr : ValidRun level run) {r : Run} {data : List UInt8}
    (hdata : data.length = pageSize) {x : RunState} (hx : x.Shown level run r.isEmpty data) :
    Store.Shows { s.setRun level run r with
      disk := s.disk.writeDb data pageSize (getPageId level run) } (m.set level run x) := by
  refine ⟨pagedFile_writeDb h.db hdata _, by simpa using h.temp, ?_, ?_, h.fits⟩
  swap
  · rw [writeDb_tempIo]
    exact h.page
  intro l k hlk
  have hpage := pageAt_writeDb h.db hdata (getPageId level run) (getPageId l k)
  by_cases heq : (l, k) = (level, run)
  · cases heq
    simpa [TableMachine.set, Store.setRun, hpage] using hx
  · have hne : ¬ (l = level ∧ k = run) := fun hh => heq (by rw [hh.1, hh.2])
    rw [if_neg fun hid => heq (getPageId_inj hlk hr hid)] at hpage
    simpa [TableMachine.set, Store.setRun, hne, hpage] using h.runs l k hlk

include h in
/-- `IsEmpty` reads the machine's run. -/
theorem isEmpty {level run : Nat} (hr : ValidRun level run) :
    (s.runs level run).isEmpty = decide (m.runs level run = .clear) := by
  have hrun := h.runs level run hr
  cases hx : m.runs level run with
  | clear => rw [hx] at hrun; exact hrun.1
  | holds t => rw [hx] at hrun; exact hrun.1
  | marked => rw [hx] at hrun; exact hrun.1

include h in
/-- Reading moves a position. -/
theorem withPos (p : Nat) : (s.withPos p).Shows m :=
  ⟨h.db.setPos p, h.temp, h.runs, h.page, h.fits⟩

include h in
/-- `LoadSSTable` parses what the machine's run holds. -/
theorem loadSSTable {level run : Nat} (hr : ValidRun level run) :
    ∃ p, Level.loadSSTable s level run = .ok (m.load level run, s.withPos p) := by
  have hrun := h.runs level run hr
  have hflag := h.isEmpty hr
  obtain ⟨p, hread⟩ := readDb_spec h.db (getPageId level run)
  rw [Level.loadSSTable, Run.loadSSTable, TableMachine.load, hflag]
  cases hx : m.runs level run with
  | clear => exact ⟨s.disk.dbIo.pos, rfl⟩
  | holds t =>
    rw [hx] at hrun
    rw [hrun.2.1] at hread
    refine ⟨p, ?_⟩
    rw [if_neg (by simp), if_neg (by simp), hread]
    simp only [SSTablePage.parsePageData_pageImage hr hrun.2.2, Bind.bind, Except.bind]
    rfl
  | marked =>
    rw [hx] at hrun
    rw [hrun.2] at hread
    refine ⟨p, ?_⟩
    rw [if_neg (by simp), if_neg (by simp), hread]
    simp only [parsePageData_zero, Bind.bind, Except.bind]
    rfl

include h in
/-- `Run::DumpSSTable` writes the machine's table. -/
theorem dumpSSTable {level run : Nat} (hr : ValidRun level run) (t : SSTable) :
    Agrees Store.Shows (Run.dumpSSTable s level run t false) (m.dump level run t) := by
  unfold Run.dumpSSTable TableMachine.dump
  by_cases ht : FitsPage t
  · rw [pageData_eq ht, if_pos ht]
    exact .ok (h.setRun hr (length_pageImage ht _ _) ⟨rfl, rfl, ht⟩)
  · rw [pageData_overflow ht, if_neg ht]
    exact .error _

include h in
/-- `DumpTempSSTable` writes the temporary page and marks a run. -/
theorem dumpTempSSTable {t : SSTable} (ht : FitsPage t) :
    ∃ s', Run.dumpSSTable s (maxLevelNum - 1) 0 t true = .ok s' ∧
      s'.Shows { m.set (maxLevelNum - 1) 0 (TableMachine.mark (m.runs (maxLevelNum - 1) 0)) with
        temp := some t } := by
  have hlen := length_pageImage ht (maxLevelNum - 1) 0
  rw [Run.dumpSSTable, pageData_eq ht]
  refine ⟨_, rfl, by simpa using h.db, pagedFile_writeDbTemp h.temp hlen, ?_,
    pageAt_writeDbTemp h.temp hlen, ?_⟩
  · intro l k hlk
    have hold := h.runs l k hlk
    by_cases hrun : l = maxLevelNum - 1 ∧ k = 0
    · obtain ⟨rfl, rfl⟩ := hrun
      cases hx : m.runs (maxLevelNum - 1) 0 with
      | clear =>
        rw [hx] at hold
        simpa [TableMachine.set, TableMachine.mark, Store.setRun, RunState.Shown] using hold.2
      | holds t =>
        rw [hx] at hold
        simpa [TableMachine.set, TableMachine.mark, Store.setRun, RunState.Shown] using hold.2
      | marked =>
        rw [hx] at hold
        simpa [TableMachine.set, TableMachine.mark, Store.setRun, RunState.Shown] using hold.2
    · simpa [TableMachine.set, Store.setRun, hrun] using hold
  · intro u hu
    cases hu
    exact ht

end Store.Shows

/-- The calls on the log show nothing. -/
theorem Store.Shows.of_runFrame {s s' : Store} {m : TableMachine} (h : s.Shows m)
    (hf : RunFrame s s') : s'.Shows m := by
  refine ⟨?_, ?_, ?_, ?_, h.fits⟩
  · rw [hf.dbIo]
    exact h.db
  · rw [hf.tempIo]
    exact h.temp
  · rw [hf.runs, hf.dbIo]
    exact h.runs
  · rw [hf.tempIo]
    exact h.page

/-- **Every call is the machine's.** -/
theorem Store.Shows.handle {s : Store} {m : TableMachine} (h : s.Shows m)
    (hlog : ∃ bs, LogState s bs) {o : StoreOp} (ho : o.isOutside = false) :
    Agrees (SameAnswer Store.Shows) (Store.handle o s) (TableMachine.handle o m) := by
  obtain ⟨bs, hbs⟩ := hlog
  cases o with
  | isEmpty level run =>
    have hr : ValidRun level run := by simpa [StoreOp.isOutside] using ho
    exact .ok ⟨h.isEmpty hr, h⟩
  | loadSSTable level run =>
    have hr : ValidRun level run := by simpa [StoreOp.isOutside] using ho
    obtain ⟨p, hload⟩ := h.loadSSTable hr
    rw [Store.handle, hload]
    exact .ok ⟨rfl, h.withPos p⟩
  | clearSSTable level run =>
    have hr : ValidRun level run := by simpa [StoreOp.isOutside] using ho
    rw [Store.handle, TableMachine.handle, Level.clearSSTable, Run.clearSSTable, h.isEmpty hr]
    by_cases hx : m.runs level run = .clear
    · rw [if_pos hx, if_pos (decide_eq_true hx)]
      exact .error _
    · have hno : ¬ decide (m.runs level run = .clear) = true := by simpa using hx
      rw [if_neg hx, if_neg hno, if_neg hno]
      exact .ok ⟨rfl, h.setRun hr length_zeroData ⟨rfl, rfl⟩⟩
  | dumpBuffer level run memtable =>
    have hr : ValidRun level run := by simpa [StoreOp.isOutside] using ho
    rw [Store.handle, TableMachine.handle, Level.dumpBuffer, h.isEmpty hr]
    by_cases hx : m.runs level run = .clear
    · rw [if_pos hx, if_pos (decide_eq_true hx)]
      exact (h.dumpSSTable hr memtable.entries).map fun _ _ hs => ⟨rfl, hs⟩
    · rw [if_neg hx, if_neg (by simpa using hx)]
      exact .error _
  | dumpSSTable level run memtable =>
    have hr : ValidRun level run := by simpa [StoreOp.isOutside] using ho
    exact (h.dumpSSTable hr memtable).map fun _ _ hs => ⟨rfl, hs⟩
  | dumpTempSSTable memtable =>
    rw [Store.handle, TableMachine.handle, Level.dumpSSTable]
    by_cases ht : FitsPage memtable
    · obtain ⟨s', hdump, hs'⟩ := h.dumpTempSSTable ht
      rw [if_pos ht, hdump]
      exact .ok ⟨rfl, hs'⟩
    · rw [if_neg ht, run_dump_overflow s _ _ ht]
      exact .error _
  | clearTempSSTable =>
    refine .ok ⟨rfl, ?_, pagedFile_writeDbTemp h.temp length_zeroData, ?_,
      pageAt_writeDbTemp h.temp length_zeroData, by simp⟩
    · rw [writeDbTemp_dbIo]
      exact h.db
    · rw [writeDbTemp_dbIo]
      exact h.runs
  | appendLogRecord key val =>
    obtain ⟨s', hrun, -, hframe⟩ := appendLogRecord_state hbs key val
    exact .of_eq ((run_op ..).symm.trans hrun) rfl ⟨rfl, h.of_runFrame hframe⟩
  | flushWAL =>
    obtain ⟨s', hrun, -, -, hframe⟩ := flushWAL_state hbs
    exact .of_eq ((run_op ..).symm.trans hrun) rfl ⟨rfl, h.of_runFrame hframe⟩
  | clearLog =>
    obtain ⟨s', hrun, -, hframe⟩ := clearLog_state hbs
    exact .of_eq ((run_op ..).symm.trans hrun) rfl ⟨rfl, h.of_runFrame hframe⟩
  | stopFlushThread =>
    obtain ⟨s', hrun, -, hframe⟩ := stopFlushThread_state hbs
    exact .of_eq ((run_op ..).symm.trans hrun) rfl ⟨rfl, h.of_runFrame hframe⟩

/-- A store with its log at rest. -/
def Store.ShowsAtRest (s : Store) (m : TableMachine) : Prop := s.Shows m ∧ ∃ bs, LogState s bs

/-- The log stays at rest in every call. -/
theorem logState_of_storeHandle {o : StoreOp} {s s' : Store} {r : StoreSig.Res o}
    (h : ∃ bs, LogState s bs) (ok : Store.handle o s = .ok (r, s')) : ∃ bs, LogState s' bs := by
  cases ho : o.isLog with
  | true => exact logState_of_handle_log ho h ok
  | false =>
    obtain ⟨bs, hbs⟩ := h
    obtain ⟨hlog, hio⟩ := log_of_handle ho ok
    exact ⟨bs, hbs.congr hlog hio⟩

/-- **The store simulates the machine.** -/
theorem handle_simulates : Handler.Simulates (S := StoreSig) StoreOp.isOutside Store.ShowsAtRest
    Store.handle TableMachine.handle := by
  intro o s m ho h
  refine ((h.1.handle h.2 ho).and_left fun x hx => logState_of_storeHandle h.2 hx).imp ?_
  rintro x y ⟨⟨hanswer, hshows⟩, hlog⟩
  exact ⟨hanswer, hshows, hlog⟩

/-! ## Programs that stay inside the level structure -/

/-- Does the call name a run the level structure does not have? -/
def ClientSig.isOutside : ClientSig.Op → Bool
  | .inl o => StoreOp.isOutside o
  | .inr _ => false

theorem inside_onStore {α : Type} {p : Prog StoreSig α} (hp : Pure StoreOp.isOutside p) :
    Pure ClientSig.isOutside (onStore p) := Pure.inl hp

/-- A call on a position of the fill order. -/
theorem inside_isEmpty {i : Nat} (hi : i < totalNonOverflowPages) :
    Pure StoreOp.isOutside (SSTableManager.isEmpty (fillPos i).1 (fillPos i).2) :=
  ⟨by simp [StoreOp.isOutside, validRun_fillPos hi], fun _ => trivial⟩

theorem inside_loadSSTable {level run : Nat} (hr : ValidRun level run) :
    Pure StoreOp.isOutside (SSTableManager.loadSSTable level run) :=
  ⟨by simp [StoreOp.isOutside, hr], fun _ => trivial⟩

/-- The double loop of a compaction. -/
theorem inside_forRuns {β : Type} {startLevelNo : Nat} (h : startLevelNo < maxLevelNum)
    {body : Nat → Nat → β → Prog StoreSig (Bool × β)}
    (hbody : ∀ i < totalNonOverflowPages, ∀ b,
      Pure StoreOp.isOutside (body (fillPos i).1 (fillPos i).2 b)) (b : β) :
    Pure StoreOp.isOutside (forRuns startLevelNo body b) := by
  rw [forRuns_eq h]
  refine Pure.forUntil_of_mem ?_ b
  intro i hi b
  have hbase := basePos_lt h
  have hlt := (List.mem_range'_1.1 hi).2
  exact hbody i (by omega) b

/-- A compaction. -/
theorem inside_launch (kind : CompactionKind) : Pure StoreOp.isOutside (launch kind) := by
  have hstart := kind.startLevel_lt
  have htarget : ValidRun kind.startLevel 0 := by cases kind <;> decide
  rw [launch_eq]
  refine Pure.bind (inside_forRuns hstart ?_ _) fun x => ?_
  · intro i hi memtable
    refine Pure.bind (inside_isEmpty hi) fun empty => ?_
    cases empty with
    | true => trivial
    | false => exact Pure.bind (inside_loadSSTable (validRun_fillPos hi)) fun _ => trivial
  · dsimp only
    split
    · trivial
    · refine Pure.bind (Pure.op rfl) fun _ => Pure.bind (inside_forRuns hstart ?_ _) fun _ =>
        Pure.bind (Pure.op ?_) fun _ => Pure.op rfl
      · intro i hi _
        refine Pure.bind (inside_isEmpty hi) fun empty => ?_
        cases empty with
        | true => trivial
        | false =>
          exact ⟨by simp [StoreOp.isOutside, validRun_fillPos hi], fun _ => trivial⟩
      · simp [StoreOp.isOutside, htarget]

/-- The dump of a memtable goes to a run that was found. -/
theorem inside_dumpSSTable (m : BufferMap) :
    Pure StoreOp.isOutside (SSTableManager.dumpSSTable m) := by
  have hprobe : ∀ i ∈ List.range' 0 totalNonOverflowPages, i < totalNonOverflowPages := by
    intro i hi
    have hlt := (List.mem_range'_1.1 hi).2
    omega
  unfold SSTableManager.dumpSSTable
  rw [getAvaiRun_eq]
  refine Pure.bind_of_returns (Q := fun o => ∀ p ∈ o, ValidRun p.1 p.2) ?_ ?_ ?_
  · refine Pure.firstSome_of_mem fun i hi => ?_
    refine Pure.bind (inside_isEmpty (hprobe i hi)) fun empty => ?_
    cases empty <;> trivial
  · refine Returns.firstSome fun i hi empty => ?_
    cases empty with
    | true =>
      intro p hp
      cases hp
      exact validRun_fillPos (hprobe i hi)
    | false => exact fun p hp => absurd hp (by simp)
  · intro o ho
    cases o with
    | none => trivial
    | some p => exact ⟨by simp [StoreOp.isOutside, ho p rfl], fun _ => trivial⟩

theorem inside_dumpLoop (m : BufferMap) (fuel : Nat) :
    Pure ClientSig.isOutside (dumpLoop fuel m) := by
  induction fuel with
  | zero => exact ⟨rfl, fun r => nomatch r⟩
  | succ fuel ih =>
    refine Pure.bind (inside_onStore (inside_dumpSSTable m)) fun done => ?_
    cases done with
    | true => trivial
    | false => exact ⟨rfl, fun _ => ih⟩

/-- `Put`. -/
theorem inside_put (key : Key) (val : Val) (fuel : Nat) :
    ∀ b, Pure ClientSig.isOutside (Db.put fuel b key val) := by
  induction fuel with
  | zero => exact fun b => ⟨rfl, fun r => nomatch r⟩
  | succ fuel ih =>
    intro b
    refine Pure.bind ?_ fun placed => ?_
    · unfold Buffer.put
      split
      · trivial
      · exact ⟨rfl, fun _ => trivial⟩
    · cases placed with
      | some b => trivial
      | none =>
        exact Pure.bind (inside_onStore (Pure.op rfl)) fun _ =>
          Pure.bind (inside_dumpLoop _ _) fun _ =>
          Pure.bind (inside_onStore (Pure.op rfl)) fun _ => ih _

/-- The loops of the two reads go through the level structure. -/
theorem validRun_of_runsDown {levelNo runNo : Nat} (hlevel : levelNo ∈ List.range maxLevelNum)
    (hrun : runNo ∈ Db.runsDown levelNo) : ValidRun levelNo runNo := by
  refine ⟨List.mem_range.1 hlevel, ?_⟩
  have hlt := List.mem_range.1 (List.mem_reverse.1 hrun)
  exact hlt

/-- `Get`. -/
theorem inside_get (b : Buffer) (key : Key) : Pure ClientSig.isOutside (Db.get b key) := by
  unfold Db.get
  cases b.get key with
  | some val => trivial
  | none =>
    refine Pure.bind (Pure.firstSome_of_mem fun levelNo hlevel => Pure.firstSome_of_mem
      fun runNo hrun => ?_) fun _ => trivial
    refine Pure.bind (inside_onStore (inside_loadSSTable (validRun_of_runsDown hlevel hrun)))
      fun loaded => ?_
    cases loaded with
    | none => trivial
    | some x =>
      dsimp only
      split
      · split
        · exact ⟨rfl, fun r => nomatch r⟩
        · split <;> trivial
      · trivial

/-- `GetRange`. -/
theorem inside_getRange (b : Buffer) (key1 key2 : Key) (res : BufferMap) :
    Pure ClientSig.isOutside (Db.getRange b key1 key2 res) := by
  have hfault : ∀ {α : Type} (f : Fault),
      Pure ClientSig.isOutside (abort f : Prog ClientSig α) := fun f => ⟨rfl, fun r => nomatch r⟩
  have horAbort : ∀ {α : Type} (x : Except Fault α), Pure ClientSig.isOutside (orAbort x) := by
    intro α x
    cases x with
    | ok a => trivial
    | error f => exact hfault f
  unfold Db.getRange
  split
  · exact hfault _
  · refine Pure.bind ?_ fun res => Pure.bind (Pure.forUntil_of_mem (fun levelNo hlevel res =>
      Pure.forUntil_of_mem (fun runNo hrun res => ?_) _) _) fun _ => trivial
    · unfold Buffer.getRange
      split
      · exact hfault _
      · split
        · split
          · trivial
          · exact Pure.bind (horAbort _) fun _ => trivial
        · exact hfault _
    · refine Pure.bind (inside_onStore (inside_loadSSTable (validRun_of_runsDown hlevel hrun)))
        fun loaded => ?_
      cases loaded with
      | none => trivial
      | some x =>
        dsimp only
        split
        · split
          · trivial
          · exact Pure.bind (horAbort _) fun _ => trivial
        · exact hfault _

/-- The destructor. -/
theorem inside_destroy (fuel : Nat) (b : Buffer) :
    Pure ClientSig.isOutside (Db.destroy fuel b) :=
  Pure.bind (inside_onStore (Pure.op rfl)) fun _ => Pure.bind (inside_dumpLoop _ _) fun _ =>
    Pure.bind (inside_onStore (Pure.op rfl)) fun _ => Pure.bind (Pure.op rfl) fun _ =>
    Pure.bind (Pure.op rfl) fun _ => inside_onStore (Pure.op rfl)

/-! ## Clients -/

/-- **A database simulates a client of the machine**: a request runs the same
compaction on both. -/
theorem handleClient_simulates : Handler.Simulates (S := ClientSig) ClientSig.isOutside
    (fun w m => w.store.ShowsAtRest m) World.handle TableMachine.handleClient := by
  intro o w m ho h
  match o, ho with
  | .inl o, ho =>
    refine (handle_simulates o w.store m ho h).map_left ?_
    rintro ⟨r, s'⟩ ⟨_, m'⟩ ⟨rfl, hs'⟩
    exact ⟨rfl, hs'⟩
  | .inr (.request kind), _ =>
    refine (handle_simulates.run (inside_launch kind) h).map ?_
    rintro ⟨_, s'⟩ ⟨_, m'⟩ ⟨-, hs'⟩
    exact ⟨rfl, hs'⟩
  | .inr .disable, _ => exact .ok ⟨rfl, h⟩
  | .inr (.fault f), _ => exact .error f

/-- What a store without a temporary table looks like through a view. -/
def TableMachine.slots (m : TableMachine) : Slots := fun i =>
  match m.runs (fillPos i).1 (fillPos i).2 with
  | .holds t => some (RunContent.ofTable i t)
  | _ => none

/-- **A restart shows what the machine keeps**: a run that was only marked is
empty again, and the temporary table is gone. -/
theorem Store.Shows.restart {s : Store} {m : TableMachine} (h : s.Shows m) :
    ∃ s', GhostDB.restart s = .ok s' ∧ s'.Shows m.restart := by
  have hpages : PagesHold (Store.init s.disk.reopen).disk m.slots := by
    refine ⟨h.db.reopen, h.temp.reopen, ?_⟩
    intro i hi
    have hrun := h.runs _ _ (validRun_fillPos hi)
    unfold TableMachine.slots
    cases hx : m.runs (fillPos i).1 (fillPos i).2 with
    | clear => rw [hx] at hrun; exact hrun.2
    | holds t =>
      rw [hx] at hrun
      exact ⟨hrun.2.1, RunContent.decodes_ofTable hi hrun.2.2⟩
    | marked => rw [hx] at hrun; exact hrun.2
  obtain ⟨s₁, hconstruct, hrep₁, -, htemp₁⟩ := construct_spec hpages
  have hpage : pageAt s₁.disk.tempIo 0 = tempPage m.temp := by
    rw [htemp₁]
    exact h.page
  obtain ⟨s', hrecover, hrep', hclear⟩ : ∃ s', RecoveryManager.recoverSSTable s₁ = .ok s' ∧
      Rep s' m.slots ∧ pageAt s'.disk.tempIo 0 = zeroData := by
    cases ht : m.temp with
    | none =>
      rw [ht] at hpage
      obtain ⟨s', hok, hrep', -, hclear⟩ := RecoveryManager.recoverSSTable_clear hrep₁ hpage
      exact ⟨s', hok, hrep', hclear⟩
    | some t =>
      rw [ht] at hpage
      obtain ⟨s', hok, hrep', -, hclear⟩ :=
        RecoveryManager.recoverSSTable_spec hrep₁ (by decide) (h.fits t ht) hpage
      exact ⟨s', hok, hrep', hclear⟩
  refine ⟨s', ?_, hrep'.db, hrep'.temp, ?_, hclear, by simp [TableMachine.restart]⟩
  · rw [GhostDB.restart, hconstruct]
    exact hrecover
  · intro level run hr
    obtain ⟨i, hi, hpos⟩ := exists_fillPos hr
    have hslot := hrep'.slot i hi
    have hold := h.runs _ _ (validRun_fillPos hi)
    rw [TableMachine.slots, hpos] at hslot
    rw [hpos] at hold
    unfold TableMachine.restart
    cases hx : m.runs level run with
    | clear =>
      rw [hx] at hslot
      rw [SlotRep, fillPage, hpos] at hslot
      simpa [hx, RunState.Shown] using hslot
    | holds t =>
      rw [hx] at hslot hold
      rw [SlotRep, fillPage, hpos] at hslot
      have hpage := hslot.2.1
      rw [RunContent.ofTable, hpos] at hpage
      simpa [hx] using ⟨hslot.1, hpage, hold.2.2⟩
    | marked =>
      rw [hx] at hslot
      rw [SlotRep, fillPage, hpos] at hslot
      simpa [hx, RunState.Shown] using hslot

/-! ## Whole lives and crashes -/

/-- A call of a client, range reads included. -/
inductive DbCall
  | put (key : Key) (val : Val)
  | delete (key : Key)
  | get (key : Key)
  | getRange (key1 key2 : Key)
  deriving DecidableEq, Repr

/-- What it returns. -/
inductive DbReply
  | done
  | found (val : Option Val)
  | range (res : BufferMap)

/-- The call on a database with memtable `b`. -/
def DbCall.prog (fuel : Nat) (b : Buffer) : DbCall → Prog ClientSig (Buffer × DbReply)
  | .put key val => do
    let b ← Db.put fuel b key val
    return (b, .done)
  | .delete key => do
    let b ← Db.delete fuel b key
    return (b, .done)
  | .get key => do
    let val ← Db.get b key
    return (b, .found val)
  | .getRange key1 key2 => do
    let res ← Db.getRange b key1 key2 SortedMap.empty
    return (b, .range res)

/-- The calls in turn and then the destructor, with the answers in order. -/
def lifeOf (fuel : Nat) : List DbCall → Buffer → Prog ClientSig (List DbReply)
  | [], b => do
    Db.destroy fuel b
    return []
  | c :: calls, b => do
    let (b, reply) ← c.prog fuel b
    let replies ← lifeOf fuel calls b
    return reply :: replies

theorem inside_lifeOf (fuel : Nat) (calls : List DbCall) :
    ∀ b, Pure ClientSig.isOutside (lifeOf fuel calls b) := by
  induction calls with
  | nil => exact fun b => Pure.bind (inside_destroy fuel b) fun _ => trivial
  | cons c calls ih =>
    intro b
    refine Pure.bind ?_ fun x => Pure.bind (ih x.1) fun _ => trivial
    cases c with
    | put key val => exact Pure.bind (inside_put key val fuel b) fun _ => trivial
    | delete key => exact Pure.bind (inside_put key tombstome fuel b) fun _ => trivial
    | get key => exact Pure.bind (inside_get b key) fun _ => trivial
    | getRange key1 key2 => exact Pure.bind (inside_getRange b key1 key2 _) fun _ => trivial

/-- The constructor's store shows the empty machine. -/
theorem shows_construct (fuel : Nat) (files : Files) :
    ∃ w₀, Db.construct fuel files = .ok (Buffer.empty, w₀) ∧
      w₀.store.ShowsAtRest TableMachine.empty := by
  obtain ⟨w₀, hok, hw, hflushed⟩ := construct_new fuel files
  have hrep := hw.rep
  rw [hflushed] at hrep
  refine ⟨w₀, hok, ⟨hrep.db, hrep.temp, ?_, hw.temp, by simp [TableMachine.empty]⟩, hw.log⟩
  intro level run hr
  obtain ⟨i, hi, hpos⟩ := exists_fillPos hr
  have hslot := hrep.slot i hi
  rw [show Slots.ofList (contents (layout [])) i = none from rfl, SlotRep, fillPage, hpos] at hslot
  exact hslot

/-- **A database over files is a database over tables**: over its whole life,
whatever is called, every answer is the machine's, and so is every fault. -/
theorem life_refines_tables (fuel₀ fuel : Nat) (files : Files) (calls : List DbCall) :
    ∃ w₀, Db.construct fuel₀ files = .ok (Buffer.empty, w₀) ∧
      Agrees (SameAnswer fun w m => w.store.ShowsAtRest m)
        (run World.handle (lifeOf fuel calls Buffer.empty) w₀)
        (run TableMachine.handleClient (lifeOf fuel calls Buffer.empty) TableMachine.empty) := by
  obtain ⟨w₀, hok, hshows⟩ := shows_construct fuel₀ files
  exact ⟨w₀, hok, handleClient_simulates.run (inside_lifeOf fuel calls _) hshows⟩

/-- **A crash loses what the machine loses.**  Cut any program of the store off
in front of any of its writes: the machine cut off there is in the state the
store shows, and a restart of the store shows a restart of the machine. -/
theorem crash_refines_tables {α : Type} {p : Prog StoreSig α} (hp : Pure StoreOp.isOutside p)
    {s : Store} {m : TableMachine} (h : s.ShowsAtRest m) (n : Nat) :
    Agrees (fun c d => Cut.Same Store.ShowsAtRest c d ∧
        ∃ s', restart c.state = .ok s' ∧ s'.Shows d.state.restart)
      (cut StoreOp.isWrite Store.handle p n s) (cut StoreOp.isWrite TableMachine.handle p n m) := by
  refine (handle_simulates.cut hp StoreOp.isWrite n h).imp ?_
  intro c d hcut
  exact ⟨hcut, hcut.state.1.restart⟩

/-- Writing the temporary table marks a run that is empty; a restart forgets
it. -/
theorem crash_refines_tables_marked : ∃ crashed s',
    cut StoreOp.isWrite Store.handle (do
      SSTableManager.dumpTempSSTable [(1, 10), (2, 20)]
      SSTableManager.clearTempSSTable) 1 Store.empty = .ok (.stopped crashed) ∧
    (crashed.runs 4 0).isEmpty = false ∧ restart crashed = .ok s' ∧
    (s'.runs 4 0).isEmpty = true := by
  have hagrees := crash_refines_tables (p := do
      SSTableManager.dumpTempSSTable [(1, 10), (2, 20)]
      SSTableManager.clearTempSSTable) (Pure.bind (Pure.op rfl) fun _ => Pure.op rfl)
    ⟨shows_empty, [], RecoveryManager.logState_empty⟩ 1
  obtain ⟨c, hcut, hsame, s', hrestart, hshows⟩ := hagrees.exists_left rfl
  cases hsame with
  | stopped h =>
    exact ⟨_, s', hcut, h.1.isEmpty (by decide), hrestart, hshows.isEmpty (by decide)⟩

end GhostDB
