import GhostDB.CrashRecovery

/-!
# Compaction preserves the store

`LaunchCompactionImpl` run to its end, in any store whose flags and pages agree
and whose used runs come first in the fill order, whatever its history.

* `Store.Tidy` — such a store; `Store.Tidy.rep` reads a view of it.
* `Store.mergedFrom` — the table a compaction computes.
* `compaction_preserves_store` — lookups stay, the levels below the start level
  stay, and the store is such a store again.
-/

namespace GhostDB

open Prog SortedTable

/-! ## Stores in order -/

namespace Store

/-- A store in order. -/
structure Tidy (s : Store) : Prop where
  /-- `sstable.db` is made of whole pages and its stream works. -/
  db : PagedFile s.disk.dbIo
  /-- So is `sstable.temp`. -/
  temp : PagedFile s.disk.tempIo
  /-- `is_empty_` agrees with the page on disk. -/
  flags : ∀ level run, ValidRun level run → (s.runs level run).isEmpty =
    isPageAllZero (pageAt s.disk.dbIo (getPageId level run))
  /-- The nonempty runs come first in the fill order. -/
  front : ∃ n ≤ totalNonOverflowPages, ∀ i < totalNonOverflowPages,
    (s.runs (fillPos i).1 (fillPos i).2).isEmpty = false ↔ i < n
  /-- Every nonempty run decodes to strictly increasing keys. -/
  decodes : ∀ level run, ValidRun level run → (s.runs level run).isEmpty = false →
    ∃ p, (SSTablePage.ofData (pageAt s.disk.dbIo (getPageId level run))).parsePageData =
      .ok (false, p) ∧ Sorted p.memtable

/-- The table a compaction from the start level computes: the merge of the used
runs from there on, oldest first. -/
def mergedFrom (s : Store) (startLevelNo : Nat) : SSTable :=
  foldMerge ((List.range' (basePos startLevelNo)
    (totalNonOverflowPages - basePos startLevelNo)).filterMap s.loaded)

end Store

/-- A page of zeros is `zero_data`. -/
theorem pageAt_eq_zeroData {io : FileStream} {pageId : Nat}
    (h : isPageAllZero (pageAt io pageId) = true) : pageAt io pageId = zeroData := by
  rw [isPageAllZero_iff, length_pageAt] at h
  exact h

/-- What a nonempty run holds. -/
theorem slotRep_of_parse {s : Store} {i : Nat} {p : SSTablePage}
    (hflag : (s.runs (fillPos i).1 (fillPos i).2).isEmpty = false)
    (hparse : (SSTablePage.ofData (pageAt s.disk.dbIo (fillPage i))).parsePageData =
      .ok (false, p)) :
    SlotRep s i (some ⟨pageAt s.disk.dbIo (fillPage i), p.bloomFilter, p.memtable⟩) := by
  refine ⟨hflag, ?_, p, ?_, rfl, rfl⟩
  · dsimp only
  · dsimp only
    exact hparse

/-- **A store in order has a view**: its used runs, each sorted. -/
theorem Store.Tidy.rep {s : Store} (h : s.Tidy) :
    ∃ cs : List RunContent, cs.length ≤ totalNonOverflowPages ∧ Rep s (Slots.ofList cs) ∧
      ∀ c ∈ cs, Sorted c.pairs := by
  obtain ⟨n, hn, hfront⟩ := h.front
  have hused : ∀ i : Fin n, ∃ c : RunContent, SlotRep s i (some c) ∧ Sorted c.pairs := by
    intro i
    have hi : (i : Nat) < totalNonOverflowPages := lt_of_lt_of_le i.isLt hn
    have hflag := (hfront i hi).2 i.isLt
    obtain ⟨p, hparse, hsorted⟩ := h.decodes _ _ (validRun_fillPos hi) hflag
    rw [← fillPage] at hparse
    exact ⟨_, slotRep_of_parse hflag hparse, hsorted⟩
  choose content hcontent using hused
  refine ⟨List.ofFn content, by simpa using hn, ⟨h.db, h.temp, ?_⟩, ?_⟩
  · intro i hi
    by_cases hin : i < n
    · rw [Slots.ofList, List.getElem?_ofFn, dif_pos hin]
      exact (hcontent ⟨i, hin⟩).1
    · rw [Slots.ofList, List.getElem?_ofFn, dif_neg hin]
      have hflag : (s.runs (fillPos i).1 (fillPos i).2).isEmpty = true := by
        rw [← Bool.not_eq_false, hfront i hi]
        exact hin
      refine ⟨hflag, pageAt_eq_zeroData ?_⟩
      rw [fillPage, ← h.flags _ _ (validRun_fillPos hi), hflag]
  · intro c hc
    obtain ⟨i, rfl⟩ := (List.mem_ofFn ..).1 hc
    exact (hcontent i).2

/-- A store with such a view is in order. -/
theorem Store.Tidy.of_rep {s : Store} {cs : List RunContent} (h : Rep s (Slots.ofList cs))
    (hlen : cs.length ≤ totalNonOverflowPages) (hsorted : ∀ c ∈ cs, Sorted c.pairs) :
    s.Tidy where
  db := h.db
  temp := h.temp
  flags := by
    intro level run hr
    obtain ⟨i, hi, hpos⟩ := exists_fillPos hr
    have hslot := h.slot i hi
    have hflag := hslot.isEmpty
    rw [← hslot.isPageAllZero, fillPage, hpos] at hflag
    exact hflag
  front := by
    refine ⟨cs.length, hlen, ?_⟩
    intro i hi
    rw [(h.slot i hi).isEmpty, Slots.ofList, Option.isNone_eq_false_iff]
    simp
  decodes := by
    intro level run hr hflag
    obtain ⟨i, hi, hpos⟩ := exists_fillPos hr
    have hslot := h.slot i hi
    by_cases hlt : i < cs.length
    · rw [Slots.ofList_of_lt hlt] at hslot
      obtain ⟨-, hpage, p, hparse, -, hpairs⟩ := hslot
      rw [fillPage, hpos] at hpage
      refine ⟨p, by rw [hpage]; exact hparse, ?_⟩
      rw [hpairs]
      exact hsorted _ (List.getElem_mem hlt)
    · rw [Slots.ofList_of_le (not_lt.1 hlt)] at hslot
      have hempty := hslot.1
      rw [hpos] at hempty
      rw [hempty] at hflag
      cases hflag

/-! ## The view after a compaction -/

section View

variable {s : Store} {cs : List RunContent} (h : Rep s (Slots.ofList cs))
  (hlen : cs.length ≤ totalNonOverflowPages)

include h hlen in
/-- The merged table in terms of the view. -/
theorem mergedFrom_eq (startLevelNo : Nat) : s.mergedFrom startLevelNo =
    compacted cs startLevelNo := by
  have hloaded : (List.range' (basePos startLevelNo)
        (totalNonOverflowPages - basePos startLevelNo)).filterMap s.loaded =
      (List.range' (basePos startLevelNo)
        (totalNonOverflowPages - basePos startLevelNo)).filterMap
        fun i => (cs[i]?).map RunContent.pairs := by
    apply List.filterMap_congr
    intro i hi
    have hlt := (List.mem_range'_1.1 hi).2
    have hbase := basePos_le startLevelNo
    exact loaded_eq h (by omega)
  rw [Store.mergedFrom, hloaded, filterMap_range', compacted, List.take_of_length_le]
  rw [List.length_drop]
  omega

include h hlen in
theorem newestLookup_eq (key : Key) :
    s.newestLookup key = newest (cs.map RunContent.pairs) key := by
  rw [Store.newestLookup, tables_ofList h hlen]

end View

/-- The runs of the levels below the start level are those in front of its first
run. -/
theorem lt_basePos_of_level {startLevelNo : Nat} (hstart : startLevelNo < maxLevelNum) {i : Nat}
    (hi : i < totalNonOverflowPages) (hlevel : startLevelNo < (fillPos i).1) :
    i < basePos startLevelNo := by
  have hall : ∀ level < maxLevelNum, ∀ j < totalNonOverflowPages,
      level < (fillPos j).1 → j < basePos level := by decide
  exact hall startLevelNo hstart i hi hlevel

/-- Two stores with the same view of a run have the same flag and page there. -/
theorem SlotRep.same {s s' : Store} {i : Nat} {o : Option RunContent} (h : SlotRep s i o)
    (h' : SlotRep s' i o) :
    (s'.runs (fillPos i).1 (fillPos i).2).isEmpty =
        (s.runs (fillPos i).1 (fillPos i).2).isEmpty ∧
      pageAt s'.disk.dbIo (fillPage i) = pageAt s.disk.dbIo (fillPage i) := by
  refine ⟨by rw [h.isEmpty, h'.isEmpty], ?_⟩
  cases o with
  | none => rw [h.2, h'.2]
  | some c => rw [h.page, h'.page]

section AfterCompaction

variable {cs : List RunContent} {startLevelNo : Nat}

/-- What was compacted once is not compacted further. -/
theorem compacted_afterCompaction (hbase : basePos startLevelNo ≤ cs.length) :
    compacted (afterCompaction cs startLevelNo) startLevelNo = compacted cs startLevelNo := by
  have hfront : (cs.take (basePos startLevelNo)).length = basePos startLevelNo := by
    rw [List.length_take]
    omega
  rw [compacted, afterCompaction, List.drop_left' hfront]
  exact foldMerge_singleton _

theorem sorted_afterCompaction (hsorted : ∀ c ∈ cs, Sorted c.pairs) (startLevelNo : Nat) :
    ∀ c ∈ afterCompaction cs startLevelNo, Sorted c.pairs := by
  intro c hc
  rcases List.mem_append.1 hc with hc | hc
  · exact hsorted c (List.mem_of_mem_take hc)
  · rw [List.mem_singleton.1 hc, RunContent.ofTable_pairs, compacted]
    apply sorted_foldMerge
    intro t ht
    obtain ⟨c', hc', rfl⟩ := List.mem_map.1 ht
    exact hsorted c' (List.mem_of_mem_drop hc')

/-- The runs in front of those compacted are what they were. -/
theorem ofList_afterCompaction_of_lt (hbase : basePos startLevelNo ≤ cs.length) {i : Nat}
    (hi : i < basePos startLevelNo) :
    Slots.ofList (afterCompaction cs startLevelNo) i = Slots.ofList cs i := by
  have hlt : i < (cs.take (basePos startLevelNo)).length := by
    rw [List.length_take]
    omega
  rw [Slots.ofList, Slots.ofList, afterCompaction, List.getElem?_append_left hlt,
    List.getElem?_take_of_lt hi]

end AfterCompaction

/-! ## The whole compaction -/

/-- **Compaction preserves the store.**  From every start level and in every
store in order whose merged table fits its page: the newest value of every key
but `INT32_MIN` stays, tombstones included; the flags and pages of the levels
below stay; the store is in order again, with a merged table that fits; and with
at most one pair to merge only the position of a stream moves. -/
theorem compaction_preserves_store {s : Store} (h : s.Tidy) {startLevelNo : Nat}
    (hstart : startLevelNo < maxLevelNum) (hfits : (s.mergedFrom startLevelNo).length ≤ 125) :
    ∃ s', run Store.handle (launchCompactionImpl startLevelNo) s = .ok ((), s') ∧
      (∀ key, key ≠ tombstome → s'.newestLookup key = s.newestLookup key) ∧
      (∀ level run, ValidRun level run → startLevelNo < level →
        (s'.runs level run).isEmpty = (s.runs level run).isEmpty ∧
          pageAt s'.disk.dbIo (getPageId level run) = pageAt s.disk.dbIo (getPageId level run)) ∧
      s'.Tidy ∧ (s'.mergedFrom startLevelNo).length ≤ 125 ∧
      ((s.mergedFrom startLevelNo).length ≤ 1 → ∃ p, s' = s.withPos p) := by
  obtain ⟨cs, hlen, hrep, hsorted⟩ := h.rep
  rw [mergedFrom_eq hrep hlen] at hfits ⊢
  by_cases hsize : (compacted cs startLevelNo).length ≤ 1
  · obtain ⟨p, hrun⟩ := launchCompactionImpl_small hrep hlen hstart hsize
    have hrep' : Rep (s.withPos p) (Slots.ofList cs) := hrep.withPos p
    refine ⟨s.withPos p, hrun, ?_, fun _ _ _ _ => ⟨rfl, rfl⟩, .of_rep hrep' hlen hsorted, ?_,
      fun _ => ⟨p, rfl⟩⟩
    · intro key _
      rw [newestLookup_eq hrep' hlen, newestLookup_eq hrep hlen]
    · rw [mergedFrom_eq hrep' hlen]
      exact hfits
  · have hmore : 1 < (compacted cs startLevelNo).length := not_le.1 hsize
    obtain ⟨s', hrun, hrep', -, -⟩ :=
      launchCompactionImpl_spec hrep hlen hstart hmore (fitsPage_iff.2 hfits)
    have hbase : basePos startLevelNo < cs.length := basePos_lt_length hmore
    have hlen' : (afterCompaction cs startLevelNo).length ≤ totalNonOverflowPages :=
      (length_afterCompaction_le hbase).trans hlen
    have hsorted' : ∀ c ∈ afterCompaction cs startLevelNo, Sorted c.pairs :=
      sorted_afterCompaction hsorted startLevelNo
    refine ⟨s', hrun, ?_, ?_, .of_rep hrep' hlen' hsorted', ?_, fun hsmall => absurd hsmall hsize⟩
    · intro key hkey
      rw [newestLookup_eq hrep' hlen', newestLookup_eq hrep hlen]
      exact newest_afterCompaction hsorted startLevelNo hkey
    · intro level run hr hlevel
      obtain ⟨i, hi, hpos⟩ := exists_fillPos hr
      have hlt : i < basePos startLevelNo := by
        apply lt_basePos_of_level hstart hi
        rw [hpos]
        exact hlevel
      have hslot' := hrep'.slot i hi
      rw [ofList_afterCompaction_of_lt hbase.le hlt] at hslot'
      have hsame := (hrep.slot i hi).same hslot'
      rw [fillPage, hpos] at hsame
      exact hsame
    · rw [mergedFrom_eq hrep' hlen', compacted_afterCompaction hbase.le]
      exact hfits

/-- Any tables that fit their pages are those of some store. -/
theorem exists_rep_tables (ts : List SSTable) (hlen : ts.length ≤ totalNonOverflowPages)
    (hfits : ∀ t ∈ ts, FitsPage t) : ∃ s, Rep s (Slots.ofList (ts.mapIdx RunContent.ofTable)) := by
  induction ts using List.reverseRecOn with
  | nil => exact ⟨Store.empty, rep_empty.congr fun _ _ => rfl⟩
  | append_singleton ts t ih =>
    rw [List.length_append, List.length_singleton] at hlen
    obtain ⟨s, hrep⟩ := ih (by omega) fun t' ht' => hfits t' (List.mem_append_left _ ht')
    have hroom : (ts.mapIdx RunContent.ofTable).length < totalNonOverflowPages := by
      rw [List.length_mapIdx]
      omega
    obtain ⟨s', -, hrep'⟩ := rep_nextRun hrep hroom (hfits t (by simp))
    rw [List.length_mapIdx, ← List.mapIdx_concat] at hrep'
    exact ⟨s', hrep'⟩

/-- A full bottom level, and above it two runs with a key in common: the key is
live in the bottom level and in the older run, and deleted in the newer one. -/
def twoLevels : List SSTable :=
  [[(1, 1)], [(2, 2)], [(3, 3)], [(4, 4)], [(5, 5)], [(1, 10), (2, 20)], [(1, tombstome), (6, 60)]]

/-- The two runs are merged, and the bottom level stays. -/
theorem compaction_preserves_twoLevels :
    ∃ s s', s.tables = twoLevels ∧ s.Tidy ∧ 3 < maxLevelNum ∧
      s.mergedFrom 3 = [(1, tombstome), (2, 20), (6, 60)] ∧
      run Store.handle (launchCompactionImpl 3) s = .ok ((), s') ∧
      (∀ key, key ≠ tombstome → s'.newestLookup key = s.newestLookup key) ∧
      s'.newestLookup 1 = some tombstome ∧
      (∀ run < 5, pageAt s'.disk.dbIo (getPageId 4 run) = pageAt s.disk.dbIo (getPageId 4 run)) ∧
      s'.Tidy := by
  obtain ⟨s, hrep⟩ := exists_rep_tables twoLevels (by decide) (by decide)
  have hlen : (twoLevels.mapIdx RunContent.ofTable).length ≤ totalNonOverflowPages := by decide
  have htidy : s.Tidy := .of_rep hrep hlen (by decide +kernel)
  have htables : s.tables = twoLevels := (tables_ofList hrep hlen).trans (by decide +kernel)
  have hmerged : s.mergedFrom 3 = [(1, tombstome), (2, 20), (6, 60)] :=
    (mergedFrom_eq hrep hlen 3).trans (by decide +kernel)
  have hfits : (s.mergedFrom 3).length ≤ 125 := by
    rw [hmerged]
    decide
  obtain ⟨s', hrun, hlookup, hbelow, htidy', -⟩ :=
    compaction_preserves_store htidy (by decide) hfits
  have hone : s'.newestLookup 1 = some tombstome := by
    rw [hlookup 1 (by decide), Store.newestLookup, htables]
    decide
  refine ⟨s, s', htables, htidy, by decide, hmerged, hrun, hlookup, hone, ?_, htidy'⟩
  intro run hr
  exact (hbelow 4 run ⟨by decide, hr⟩ (by decide)).2

end GhostDB
