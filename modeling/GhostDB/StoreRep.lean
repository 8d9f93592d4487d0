import GhostDB.SSTableManager

/-!
# What a store holds

The abstract view of a store is, for every position of the fill order, either
nothing or the contents of a run: its page, the filter and the pairs the page
decodes to.  `Rep s slots` says that the store `s` represents such a view: the
flags agree with the pages and every used page decodes.  Each call then has one
lemma saying how it changes the view (`load_spec`, `clear_spec`, `dump_spec`,
`dumpTemp_spec`, `clearTemp_spec`), and nothing above this file looks at bytes.
-/

namespace GhostDB

open Bytes

/-- The contents of a used run. -/
structure RunContent where
  /-- The bytes of its page. -/
  page : List UInt8
  /-- The bloom filter the page decodes to. -/
  filter : Bloom
  /-- The pairs the page decodes to. -/
  pairs : SSTable
  deriving DecidableEq

namespace RunContent

/-- The page decodes to the filter and the pairs. -/
def Decodes (c : RunContent) : Prop :=
  ∃ p, (SSTablePage.ofData c.page).parsePageData = .ok (false, p) ∧
    p.bloomFilter = c.filter ∧ p.memtable = c.pairs

/-- What `Run::DumpSSTable` leaves in the `i`-th run. -/
def ofTable (i : Nat) (t : SSTable) : RunContent where
  page := pageImage (fillPos i).1 (fillPos i).2 t
  filter := bloomOf t
  pairs := t

@[simp] theorem ofTable_pairs (i : Nat) (t : SSTable) : (ofTable i t).pairs = t := rfl

theorem decodes_ofTable {i : Nat} (hi : i < totalNonOverflowPages) {t : SSTable}
    (h : FitsPage t) : (ofTable i t).Decodes :=
  ⟨_, SSTablePage.parsePageData_pageImage (validRun_fillPos hi) h, rfl, rfl⟩

/-- A page that decodes is not a page of zeros. -/
theorem Decodes.not_zero {c : RunContent} (h : c.Decodes) : isPageAllZero c.page = false := by
  obtain ⟨p, hp, -, -⟩ := h
  cases hz : isPageAllZero c.page with
  | false => rfl
  | true =>
    have hd : (SSTablePage.ofData c.page).data = c.page := rfl
    rw [SSTablePage.parsePageData, hd, if_pos hz] at hp
    cases hp

end RunContent

/-- A view of a store: the contents of the runs in fill order. -/
abbrev Slots := Nat → Option RunContent

/-- The `i`-th run of the store holds exactly what the view says. -/
def SlotRep (s : Store) (i : Nat) : Option RunContent → Prop
  | none => (s.runs (fillPos i).1 (fillPos i).2).isEmpty = true ∧
      pageAt s.disk.dbIo (fillPage i) = zeroData
  | some c => (s.runs (fillPos i).1 (fillPos i).2).isEmpty = false ∧
      pageAt s.disk.dbIo (fillPage i) = c.page ∧ c.Decodes

/-- **The store represents the view.** -/
structure Rep (s : Store) (slots : Slots) : Prop where
  /-- `sstable.db` is made of whole pages and its stream works. -/
  db : PagedFile s.disk.dbIo
  /-- So is `sstable.temp`. -/
  temp : PagedFile s.disk.tempIo
  /-- Flags and pages agree with the view. -/
  slot : ∀ i < totalNonOverflowPages, SlotRep s i (slots i)

theorem SlotRep.isEmpty {s : Store} {i : Nat} {o : Option RunContent} (h : SlotRep s i o) :
    (s.runs (fillPos i).1 (fillPos i).2).isEmpty = o.isNone := by
  cases o with
  | none => exact h.1
  | some c => exact h.1

theorem SlotRep.page {s : Store} {i : Nat} {c : RunContent} (h : SlotRep s i (some c)) :
    pageAt s.disk.dbIo (fillPage i) = c.page := h.2.1

/-- A run's page is all zero exactly when the view has nothing there. -/
theorem SlotRep.isPageAllZero {s : Store} {i : Nat} {o : Option RunContent} (h : SlotRep s i o) :
    GhostDB.isPageAllZero (pageAt s.disk.dbIo (fillPage i)) = o.isNone := by
  cases o with
  | none => rw [h.2, zeroData]; exact isPageAllZero_replicate _
  | some c => rw [h.2.1]; exact h.2.2.not_zero

theorem Rep.congr {s : Store} {slots slots' : Slots} (h : Rep s slots)
    (hs : ∀ i < totalNonOverflowPages, slots i = slots' i) : Rep s slots' :=
  ⟨h.db, h.temp, fun i hi => hs i hi ▸ h.slot i hi⟩

/-! ## Reading moves only the position -/

namespace Store

/-- The store with the stream of `sstable.db` at another position. -/
def withPos (s : Store) (p : Nat) : Store :=
  { s with disk := { s.disk with dbIo := { s.disk.dbIo with pos := p } } }

@[simp] theorem withPos_withPos (s : Store) (p q : Nat) : (s.withPos p).withPos q = s.withPos q :=
  rfl

@[simp] theorem withPos_runs (s : Store) (p : Nat) : (s.withPos p).runs = s.runs := rfl

@[simp] theorem withPos_log (s : Store) (p : Nat) : (s.withPos p).log = s.log := rfl

@[simp] theorem withPos_logIo (s : Store) (p : Nat) : (s.withPos p).disk.logIo = s.disk.logIo := rfl

@[simp] theorem withPos_tempIo (s : Store) (p : Nat) : (s.withPos p).disk.tempIo = s.disk.tempIo :=
  rfl

end Store

theorem Rep.withPos {s : Store} {slots : Slots} (h : Rep s slots) (p : Nat) :
    Rep (s.withPos p) slots :=
  ⟨h.db.setPos p, h.temp, h.slot⟩

/-! ## Frames -/

/-- What the calls on runs leave alone. -/
structure StoreFrame (s s' : Store) : Prop where
  /-- The log buffers. -/
  log : s'.log = s.log
  /-- The stream of `memtable.log`. -/
  logIo : s'.disk.logIo = s.disk.logIo
  /-- The pages of `sstable.db` that belong to no run. -/
  rest : ∀ j, totalNonOverflowPages ≤ j → pageAt s'.disk.dbIo j = pageAt s.disk.dbIo j

theorem StoreFrame.refl (s : Store) : StoreFrame s s := ⟨rfl, rfl, fun _ _ => rfl⟩

theorem StoreFrame.trans {s t u : Store} (h : StoreFrame s t) (h' : StoreFrame t u) :
    StoreFrame s u :=
  ⟨h'.log.trans h.log, h'.logIo.trans h.logIo, fun j hj => (h'.rest j hj).trans (h.rest j hj)⟩

theorem StoreFrame.withPos (s : Store) (p : Nat) : StoreFrame s (s.withPos p) :=
  ⟨rfl, rfl, fun _ _ => rfl⟩

/-- The pages of `sstable.db` that belong to no run are clear. -/
def NoStrayPages (s : Store) : Prop :=
  ∀ j, totalNonOverflowPages ≤ j → pageAt s.disk.dbIo j = zeroData

theorem StoreFrame.noStrayPages {s s' : Store} (hf : StoreFrame s s') (h : NoStrayPages s) :
    NoStrayPages s' := fun j hj => (hf.rest j hj).trans (h j hj)

/-- Writing the page of a run leaves the pages behind those of the runs alone. -/
theorem pageAt_writeDb_rest {d : DiskManager} (h : PagedFile d.dbIo) {data : List UInt8}
    (hdata : data.length = pageSize) {i j : Nat} (hi : i < totalNonOverflowPages)
    (hj : totalNonOverflowPages ≤ j) :
    pageAt (d.writeDb data pageSize (fillPage i)).dbIo j = pageAt d.dbIo j := by
  have hlt := (getLevelRunNo_getPageId (validRun_fillPos hi)).1
  have hne : j ≠ fillPage i := by
    rw [fillPage]
    omega
  rw [pageAt_writeDb h hdata, if_neg hne]

/-! ## Updating a run -/

@[simp] theorem Store.setRun_disk (s : Store) (l k : Nat) (r : Run) :
    (s.setRun l k r).disk = s.disk := rfl

@[simp] theorem Store.setRun_log (s : Store) (l k : Nat) (r : Run) :
    (s.setRun l k r).log = s.log := rfl

theorem Store.setRun_runs_self (s : Store) (l k : Nat) (r : Run) :
    (s.setRun l k r).runs l k = r := by
  simp [setRun]

theorem Store.setRun_runs_of_ne (s : Store) {l k l' k' : Nat} (r : Run)
    (h : (l', k') ≠ (l, k)) : (s.setRun l k r).runs l' k' = s.runs l' k' := by
  have hne : ¬ (l' = l ∧ k' = k) := fun hh => h (by rw [hh.1, hh.2])
  simp [setRun, hne]

/-- A store that differs from `s` in the run at position `i` and its page only. -/
theorem rep_update {s s' : Store} {slots : Slots} (h : Rep s slots) {i : Nat}
    (hi : i < totalNonOverflowPages) {r : Run} {data : List UInt8}
    (hdata : data.length = pageSize) {o : Option RunContent}
    (hruns : s'.runs = (s.setRun (fillPos i).1 (fillPos i).2 r).runs)
    (hdisk : s'.disk.dbIo = (s.disk.writeDb data pageSize (fillPage i)).dbIo)
    (htemp : PagedFile s'.disk.tempIo)
    (ho : match o with
      | none => r.isEmpty = true ∧ data = zeroData
      | some c => r.isEmpty = false ∧ data = c.page ∧ c.Decodes) :
    Rep s' (Function.update slots i o) := by
  refine ⟨?_, htemp, ?_⟩
  · rw [hdisk]
    exact pagedFile_writeDb h.db hdata _
  · intro j hj
    have hpage : pageAt s'.disk.dbIo (fillPage j) =
        if fillPage j = fillPage i then data else pageAt s.disk.dbIo (fillPage j) := by
      rw [hdisk]
      exact pageAt_writeDb h.db hdata _ _
    by_cases hji : j = i
    · subst hji
      rw [if_pos rfl] at hpage
      rw [Function.update_self]
      cases o with
      | none =>
        refine ⟨?_, hpage.trans ho.2⟩
        rw [hruns, Store.setRun_runs_self]
        exact ho.1
      | some c =>
        refine ⟨?_, hpage.trans ho.2.1, ho.2.2⟩
        rw [hruns, Store.setRun_runs_self]
        exact ho.1
    · have hpos : ((fillPos j).1, (fillPos j).2) ≠ ((fillPos i).1, (fillPos i).2) :=
        fun heq => hji (fillPos_inj hj hi heq)
      rw [if_neg fun heq => hji (fillPage_inj hj hi heq)] at hpage
      rw [Function.update_of_ne hji]
      have hold := h.slot j hj
      unfold SlotRep at hold ⊢
      rw [hpage, hruns, Store.setRun_runs_of_ne s r hpos]
      exact hold

/-! ## The calls -/

/-- `IsEmpty` reads the view. -/
theorem isEmpty_spec {s : Store} {slots : Slots} (h : Rep s slots) {i : Nat}
    (hi : i < totalNonOverflowPages) :
    Prog.run Store.handle (SSTableManager.isEmpty (fillPos i).1 (fillPos i).2) s =
      .ok ((slots i).isNone, s) := by
  rw [SSTableManager.run_isEmpty, (h.slot i hi).isEmpty]

/-- Reading a flag is no crash point. -/
theorem cut_isEmpty {s : Store} {slots : Slots} (h : Rep s slots) {i : Nat}
    (hi : i < totalNonOverflowPages) (n : Nat) :
    Prog.cut StoreOp.isWrite Store.handle (SSTableManager.isEmpty (fillPos i).1 (fillPos i).2) n s =
      .ok (.done (slots i).isNone n s) := by
  have hpure : Prog.Pure StoreOp.isWrite (SSTableManager.isEmpty (fillPos i).1 (fillPos i).2) :=
    ⟨rfl, fun _ => trivial⟩
  exact Prog.cut_of_pure hpure (isEmpty_spec h hi)

/-- `LoadSSTable` of a used run returns what its page decodes to. -/
theorem load_spec {s : Store} {slots : Slots} (h : Rep s slots) {i : Nat}
    (hi : i < totalNonOverflowPages) {c : RunContent} (hc : slots i = some c) :
    ∃ p, Prog.run Store.handle (SSTableManager.loadSSTable (fillPos i).1 (fillPos i).2) s =
      .ok (some (c.filter, c.pairs), s.withPos p) := by
  have hslot := h.slot i hi
  rw [hc] at hslot
  obtain ⟨hempty, hpage, p, hparse, hfilter, hpairs⟩ := hslot
  obtain ⟨q, hread⟩ := readDb_spec h.db (fillPage i)
  refine ⟨q, ?_⟩
  rw [SSTableManager.run_loadSSTable, Level.loadSSTable, if_neg (by simp [hempty]),
    Run.loadSSTable, if_neg (by simp [hempty])]
  rw [fillPage] at hread hpage
  simp only [hread, hpage, hparse, bind, Except.bind, pure, Except.pure, hfilter, hpairs]
  rfl

/-- `LoadSSTable` of an empty run returns `false`. -/
theorem load_none {s : Store} {slots : Slots} (h : Rep s slots) {i : Nat}
    (hi : i < totalNonOverflowPages) (hc : slots i = none) :
    Prog.run Store.handle (SSTableManager.loadSSTable (fillPos i).1 (fillPos i).2) s =
      .ok (none, s) := by
  have hempty := (h.slot i hi).isEmpty
  rw [hc] at hempty
  rw [SSTableManager.run_loadSSTable, Level.loadSSTable, if_pos (by simpa using hempty)]

/-- `ClearSSTable` empties a used run. -/
theorem clear_spec {s : Store} {slots : Slots} (h : Rep s slots) {i : Nat}
    (hi : i < totalNonOverflowPages) (hc : slots i ≠ none) :
    ∃ s', s.handle (.clearSSTable (fillPos i).1 (fillPos i).2) = .ok ((), s') ∧
      Rep s' (Function.update slots i none) ∧ StoreFrame s s' ∧
      s'.disk.tempIo = s.disk.tempIo := by
  have hempty : (s.runs (fillPos i).1 (fillPos i).2).isEmpty = false := by
    obtain ⟨c, hc⟩ := Option.ne_none_iff_exists'.1 hc
    rw [(h.slot i hi).isEmpty, hc]
    rfl
  rw [Store.handle, Level.clearSSTable, if_neg (by simp [hempty]), Run.clearSSTable,
    if_neg (by simp [hempty])]
  refine ⟨_, rfl, ?_, ⟨rfl, ?_, ?_⟩, ?_⟩
  · exact rep_update h hi length_zeroData rfl rfl (by simpa using h.temp) ⟨rfl, rfl⟩
  · simp
  · intro j hj
    exact pageAt_writeDb_rest h.db length_zeroData hi hj
  · simp

/-- Dumping a memtable into a run replaces its contents. -/
theorem run_dump_spec {s : Store} {slots : Slots} (h : Rep s slots) {i : Nat}
    (hi : i < totalNonOverflowPages) {t : SSTable} (ht : FitsPage t) :
    ∃ s', Run.dumpSSTable s (fillPos i).1 (fillPos i).2 t false = .ok s' ∧
      Rep s' (Function.update slots i (some (RunContent.ofTable i t))) ∧ StoreFrame s s' ∧
      s'.disk.tempIo = s.disk.tempIo := by
  rw [Run.dumpSSTable, pageData_eq ht]
  refine ⟨_, rfl, ?_, ⟨rfl, ?_, ?_⟩, ?_⟩
  · exact rep_update h hi (length_pageImage ht _ _) rfl rfl (by simpa using h.temp)
      ⟨rfl, rfl, RunContent.decodes_ofTable hi ht⟩
  · simp
  · intro j hj
    exact pageAt_writeDb_rest h.db (length_pageImage ht _ _) hi hj
  · simp

theorem run_dump_overflow (s : Store) (level run : Nat) {t : SSTable} (ht : ¬ FitsPage t)
    (forTemp : Bool) : Run.dumpSSTable s level run t forTemp = .error .pageOverflow := by
  rw [Run.dumpSSTable, pageData_overflow ht]
  rfl

/-- `SSTableManager::DumpSSTable(level, run, memtable)`. -/
theorem dump_spec {s : Store} {slots : Slots} (h : Rep s slots) {i : Nat}
    (hi : i < totalNonOverflowPages) {t : SSTable} (ht : FitsPage t) :
    ∃ s', s.handle (.dumpSSTable (fillPos i).1 (fillPos i).2 t) = .ok ((), s') ∧
      Rep s' (Function.update slots i (some (RunContent.ofTable i t))) ∧ StoreFrame s s' ∧
      s'.disk.tempIo = s.disk.tempIo := by
  obtain ⟨s', heq, hrep⟩ := run_dump_spec h hi ht
  refine ⟨s', ?_, hrep⟩
  rw [Store.handle, Level.dumpSSTable, heq]
  rfl

/-- A flushed memtable goes into an empty run. -/
theorem dumpBuffer_spec {s : Store} {slots : Slots} (h : Rep s slots) {i : Nat}
    (hi : i < totalNonOverflowPages) (hc : slots i = none) {m : BufferMap}
    (hm : FitsPage m.entries) :
    ∃ s', s.handle (.dumpBuffer (fillPos i).1 (fillPos i).2 m) = .ok ((), s') ∧
      Rep s' (Function.update slots i (some (RunContent.ofTable i m.entries))) ∧ StoreFrame s s' ∧
      s'.disk.tempIo = s.disk.tempIo := by
  have hempty := (h.slot i hi).isEmpty
  rw [hc] at hempty
  obtain ⟨s', heq, hrep⟩ := run_dump_spec h hi hm
  refine ⟨s', ?_, hrep⟩
  rw [Store.handle, Level.dumpBuffer, if_pos (by simpa using hempty), heq]
  rfl

/-- The run the temporary table is written through is the first of the fill
order. -/
theorem fillPos_zero : fillPos 0 = (maxLevelNum - 1, 0) := by decide

/-- `DumpTempSSTable` writes the temporary page; when the run it goes through is
in use the view is unchanged. -/
theorem dumpTemp_spec {s : Store} {slots : Slots} (h : Rep s slots) (h0 : slots 0 ≠ none)
    {t : SSTable} (ht : FitsPage t) :
    ∃ s', s.handle (.dumpTempSSTable t) = .ok ((), s') ∧ Rep s' slots ∧ StoreFrame s s' ∧
      pageAt s'.disk.tempIo 0 = pageImage (maxLevelNum - 1) 0 t := by
  have hlen := length_pageImage ht (maxLevelNum - 1) 0
  rw [Store.handle, Level.dumpSSTable, Run.dumpSSTable, pageData_eq ht]
  refine ⟨_, rfl, ⟨?_, ?_, ?_⟩, ⟨rfl, ?_, ?_⟩, ?_⟩
  · simpa using h.db
  · exact pagedFile_writeDbTemp h.temp hlen
  · intro j hj
    have hold := h.slot j hj
    by_cases hj0 : j = 0
    · subst hj0
      obtain ⟨c, hc⟩ := Option.ne_none_iff_exists'.1 h0
      rw [hc] at hold ⊢
      refine ⟨?_, by simpa using hold.2.1, hold.2.2⟩
      simp [fillPos_zero, Store.setRun]
    · have hpos : ((fillPos j).1, (fillPos j).2) ≠ (maxLevelNum - 1, 0) := by
        rw [← fillPos_zero]
        exact fun heq => hj0 (fillPos_inj hj (by decide) heq)
      unfold SlotRep at hold ⊢
      simp only [writeDbTemp_dbIo, Store.setRun_disk]
      rw [Store.setRun_runs_of_ne s _ hpos]
      exact hold
  · simp
  · intro j hj
    simp
  · exact pageAt_writeDbTemp h.temp hlen

/-- `ClearTempSSTable` zeroes the temporary page. -/
theorem clearTemp_spec {s : Store} {slots : Slots} (h : Rep s slots) :
    ∃ s', s.handle .clearTempSSTable = .ok ((), s') ∧ Rep s' slots ∧ StoreFrame s s' ∧
      pageAt s'.disk.tempIo 0 = zeroData := by
  rw [Store.handle]
  refine ⟨_, rfl, ⟨?_, pagedFile_writeDbTemp h.temp length_zeroData, ?_⟩, ⟨rfl, by simp, by simp⟩,
    pageAt_writeDbTemp h.temp length_zeroData⟩
  · simpa using h.db
  · intro j hj
    have hold := h.slot j hj
    unfold SlotRep at hold ⊢
    simpa using hold

/-- A store over new files holds nothing. -/
theorem rep_empty : Rep Store.empty fun _ => none :=
  ⟨PagedFile.empty, PagedFile.empty, fun _ _ => ⟨rfl, block_nil ..⟩⟩

/-! ## Rebuilding the runs -/

/-- The pages of the two SSTable files hold a view. -/
structure PagesHold (d : DiskManager) (slots : Slots) : Prop where
  /-- `sstable.db` is in working order. -/
  db : PagedFile d.dbIo
  /-- So is `sstable.temp`. -/
  temp : PagedFile d.tempIo
  /-- Every page is clear or decodes, as the view says. -/
  page : ∀ i < totalNonOverflowPages, match slots i with
    | none => pageAt d.dbIo (fillPage i) = zeroData
    | some c => pageAt d.dbIo (fillPage i) = c.page ∧ c.Decodes

/-- What a store leaves behind on disk. -/
theorem Rep.pagesHold {s : Store} {slots : Slots} (h : Rep s slots) :
    PagesHold s.disk.reopen slots := by
  refine ⟨h.db.reopen, h.temp.reopen, ?_⟩
  intro i hi
  have hslot := h.slot i hi
  cases hc : slots i with
  | none => rw [hc] at hslot; exact hslot.2
  | some c => rw [hc] at hslot; exact hslot.2

theorem parsePageData_zero : (SSTablePage.ofData zeroData).parsePageData =
    .ok (true, SSTablePage.ofData zeroData) := by
  have hz : isPageAllZero (SSTablePage.ofData zeroData).data = true := isPageAllZero_replicate _
  rw [SSTablePage.parsePageData, if_pos hz]

/-- Constructing a run reads its page and sets its flag by it. -/
theorem run_construct_spec {s : Store} {slots : Slots} (h : PagesHold s.disk slots) {i : Nat}
    (hi : i < totalNonOverflowPages) :
    ∃ p r, Run.construct s (fillPos i).1 (fillPos i).2 =
        .ok ((s.withPos p).setRun (fillPos i).1 (fillPos i).2 r) ∧
      r.isEmpty = (slots i).isNone := by
  obtain ⟨p, hread⟩ := readDb_spec h.db (fillPage i)
  have hparse : ∃ q, (SSTablePage.ofData (pageAt s.disk.dbIo (fillPage i))).parsePageData =
      .ok ((slots i).isNone, q) := by
    have hpage := h.page i hi
    cases hc : slots i with
    | none =>
      rw [hc] at hpage
      exact ⟨_, by rw [hpage, parsePageData_zero]; rfl⟩
    | some c =>
      rw [hc] at hpage
      obtain ⟨q, hq, -⟩ := hpage.2
      exact ⟨q, by rw [hpage.1, hq]; rfl⟩
  obtain ⟨q, hq⟩ := hparse
  refine ⟨p, { isEmpty := (slots i).isNone, kvNum := 0, bloomFilter := Bloom.empty }, ?_, rfl⟩
  have hvalid : ¬ ¬ ((fillPos i).1 < maxLevelNum ∧ (fillPos i).2 < getMaxRun (fillPos i).1) :=
    not_not.2 (validRun_fillPos hi)
  rw [fillPage] at hread hq
  rw [Run.construct, if_neg hvalid]
  simp only [hread, hq, bind, Except.bind, pure, Except.pure]
  rfl

/-- Constructing the runs of a list of positions sets the flags of exactly
these. -/
theorem foldlM_construct {slots : Slots} (ps : List (Nat × Nat))
    (hps : ∀ p ∈ ps, ValidRun p.1 p.2) :
    ∀ s : Store, PagesHold s.disk slots →
    ∃ s', ps.foldlM (fun s p => Run.construct s p.1 p.2) s = Except.ok s' ∧
      PagesHold s'.disk slots ∧ StoreFrame s s' ∧ s'.disk.tempIo = s.disk.tempIo ∧
      ∀ i < totalNonOverflowPages, (s'.runs (fillPos i).1 (fillPos i).2).isEmpty =
        if fillPos i ∈ ps then (slots i).isNone
        else (s.runs (fillPos i).1 (fillPos i).2).isEmpty := by
  induction ps with
  | nil =>
    intro s h
    exact ⟨s, rfl, h, StoreFrame.refl s, rfl, by simp⟩
  | cons p ps ih =>
    intro s h
    obtain ⟨j, hj, hjp⟩ := exists_fillPos (hps p (List.mem_cons_self ..))
    obtain ⟨q, r, hrun, hempty⟩ := run_construct_spec h hj
    rw [hjp] at hrun
    have hpages : PagesHold ((s.withPos q).setRun p.1 p.2 r).disk slots :=
      ⟨h.db.setPos q, h.temp, h.page⟩
    obtain ⟨s', hfold, hpages', hframe, htemp, hflags⟩ :=
      ih (fun p' hp' => hps p' (List.mem_cons_of_mem _ hp')) _ hpages
    refine ⟨s', ?_, hpages', ⟨hframe.log, hframe.logIo, hframe.rest⟩, htemp, ?_⟩
    · rw [List.foldlM_cons, hrun]
      exact hfold
    · intro i hi
      rw [hflags i hi]
      by_cases hip : fillPos i = p
      · have hij : i = j := fillPos_inj hi hj (hip.trans hjp.symm)
        rw [hip, Store.setRun_runs_self, hempty, ← hij]
        simp
      · have hpos : ((fillPos i).1, (fillPos i).2) ≠ (p.1, p.2) := hip
        rw [Store.setRun_runs_of_ne _ _ hpos, Store.withPos_runs]
        simp [hip]

/-- **Rebuilding the runs** from the pages gives a store that holds the view the
pages hold. -/
theorem construct_spec {s : Store} {slots : Slots} (h : PagesHold s.disk slots) :
    ∃ s', SSTableManager.construct s = .ok s' ∧ Rep s' slots ∧ StoreFrame s s' ∧
      s'.disk.tempIo = s.disk.tempIo := by
  have hvalid : ∀ p ∈ (List.range maxLevelNum).flatMap fun level =>
      (List.range (getMaxRun level)).map fun run => (level, run), ValidRun p.1 p.2 := by decide
  have hall : ∀ i < 15, fillPos i ∈ (List.range maxLevelNum).flatMap fun level =>
      (List.range (getMaxRun level)).map fun run => (level, run) := by decide
  obtain ⟨s', hfold, hpages, hframe, htemp, hflags⟩ := foldlM_construct _ hvalid s h
  refine ⟨s', hfold, ⟨hpages.db, hpages.temp, ?_⟩, hframe, htemp⟩
  intro i hi
  have hflag := hflags i hi
  have hpage := hpages.page i hi
  rw [if_pos (hall i hi)] at hflag
  cases hc : slots i with
  | none => rw [hc] at hflag hpage; exact ⟨hflag, hpage⟩
  | some c => rw [hc] at hflag hpage; exact ⟨hflag, hpage⟩

end GhostDB
