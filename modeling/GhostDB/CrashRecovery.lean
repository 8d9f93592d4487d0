import GhostDB.Recovery

/-!
# A crash during a compaction

The store is cut off between two disk writes of `LaunchCompactionImpl`, its
files survive, the runs are rebuilt from them and `RecoverSSTable` runs.  Since
`RecoverSSTable` restores nothing, what is left are the runs not cleared yet.

* `Store.newestLookup` — the newest-first lookup of a store.
* `restart_spec` — a restart keeps the view.
* `crash_keeps_lookups_iff` — at which crash points every lookup survives.
* `crash_loses_a_run` — one run, cleared and not yet rewritten, is gone.
-/

namespace GhostDB

open Prog SortedTable

/-! ## Newest-first lookups -/

namespace Store

/-- The table `LoadSSTable` returns for the `i`-th run, `none` for an empty
one. -/
def loaded (s : Store) (i : Nat) : Option SSTable :=
  match Level.loadSSTable s (fillPos i).1 (fillPos i).2 with
  | .ok (some (_, sstableKv), _) => some sstableKv
  | _ => none

/-- The tables of the used runs, oldest first. -/
def tables (s : Store) : List SSTable :=
  (List.range totalNonOverflowPages).filterMap s.loaded

/-- The newest value of a key in the runs. -/
def newestLookup (s : Store) (key : Key) : Option Val := newest s.tables key

end Store

theorem loaded_eq {s : Store} {slots : Slots} (h : Rep s slots) {i : Nat}
    (hi : i < totalNonOverflowPages) : s.loaded i = (slots i).map RunContent.pairs := by
  cases hc : slots i with
  | none =>
    have hload := load_none h hi hc
    rw [SSTableManager.run_loadSSTable] at hload
    rw [Store.loaded, hload]
    rfl
  | some c =>
    obtain ⟨p, hload⟩ := load_spec h hi hc
    rw [SSTableManager.run_loadSSTable] at hload
    rw [Store.loaded, hload]
    rfl

/-- The used positions of a stretch of the fill order. -/
theorem filterMap_range' (cs : List RunContent) (n : Nat) :
    ∀ b, (List.range' b n).filterMap (fun i => (cs[i]?).map RunContent.pairs) =
      ((cs.drop b).take n).map RunContent.pairs := by
  induction n with
  | zero => intro b; rfl
  | succ n ih =>
    intro b
    rw [List.range'_succ]
    by_cases hlt : b < cs.length
    · rw [List.filterMap_cons, List.getElem?_eq_getElem hlt, ih, List.drop_eq_getElem_cons hlt]
      rfl
    · have hnil : ∀ m, cs.drop (b + m) = [] := fun m => List.drop_eq_nil_of_le (by omega)
      rw [List.filterMap_cons, List.getElem?_eq_none (not_lt.1 hlt), ih, hnil 1]
      have h0 := hnil 0
      rw [Nat.add_zero] at h0
      rw [h0, List.take_nil, List.take_nil]
      rfl

/-- The tables of a store some of whose runs are cleared. -/
theorem tables_cleared {s : Store} {cs : List RunContent} {a b : Nat}
    (h : Rep s (Slots.cleared cs a b)) (hlen : cs.length ≤ totalNonOverflowPages) (hab : a ≤ b)
    (hb : b ≤ totalNonOverflowPages) :
    s.tables = (cs.take a ++ cs.drop b).map RunContent.pairs := by
  obtain ⟨d, rfl⟩ : ∃ d, b = a + d := ⟨b - a, by omega⟩
  obtain ⟨e, he⟩ : ∃ e, totalNonOverflowPages = a + d + e :=
    ⟨totalNonOverflowPages - (a + d), by omega⟩
  have hslot : ∀ i < totalNonOverflowPages, s.loaded i =
      if a ≤ i ∧ i < a + d then none else (cs[i]?).map RunContent.pairs := by
    intro i hi
    rw [loaded_eq h hi, Slots.cleared]
    split <;> rfl
  have hfront : (List.range' 0 a).filterMap s.loaded = (cs.take a).map RunContent.pairs := by
    rw [← List.drop_zero (l := cs), ← filterMap_range']
    apply List.filterMap_congr
    intro i hi
    have hlt := (List.mem_range'_1.1 hi).2
    rw [hslot i (by omega), if_neg (by omega)]
  have hmiddle : (List.range' a d).filterMap s.loaded = [] := by
    rw [List.filterMap_eq_nil_iff]
    intro i hi
    have hin := List.mem_range'_1.1 hi
    rw [hslot i (by omega), if_pos hin]
  have hback : (List.range' (a + d) e).filterMap s.loaded =
      (cs.drop (a + d)).map RunContent.pairs := by
    have htake : (cs.drop (a + d)).take e = cs.drop (a + d) :=
      List.take_of_length_le (by rw [List.length_drop]; omega)
    rw [← htake, ← filterMap_range']
    apply List.filterMap_congr
    intro i hi
    have hin := List.mem_range'_1.1 hi
    rw [hslot i (by omega), if_neg (by omega)]
  rw [Store.tables, List.range_eq_range', he, ← List.range'_append_1, ← List.range'_append_1,
    Nat.zero_add, Nat.zero_add, List.filterMap_append, List.filterMap_append, hfront, hmiddle,
    hback, List.append_nil, List.map_append]

/-- The tables of a store whose used runs form a prefix of the fill order. -/
theorem tables_ofList {s : Store} {cs : List RunContent} (h : Rep s (Slots.ofList cs))
    (hlen : cs.length ≤ totalNonOverflowPages) : s.tables = cs.map RunContent.pairs := by
  rw [← Slots.cleared_self cs 0] at h
  have htables := tables_cleared h hlen le_rfl (Nat.zero_le _)
  rwa [List.take_zero, List.drop_zero, List.nil_append] at htables

/-! ## Restarting on the files a crash leaves -/

/-- Rebuild the runs from the files, then run `RecoverSSTable`. -/
def restart (s : Store) : Except Fault Store := do
  let s ← SSTableManager.construct (Store.init s.disk.reopen)
  RecoveryManager.recoverSSTable s

/-- **A restart keeps the view**, with a table in the temporary page or
without. -/
theorem restart_spec {s : Store} {slots : Slots} (h : Rep s slots) {level run : Nat}
    (hr : ValidRun level run) {t : SSTable} (ht : FitsPage t)
    (htemp : pageAt s.disk.tempIo 0 = pageImage level run t) :
    ∃ s', restart s = .ok s' ∧ Rep s' slots ∧ pageAt s'.disk.tempIo 0 = zeroData := by
  obtain ⟨s₁, hconstruct, hrep₁, -, htemp₁⟩ :=
    construct_spec (s := Store.init s.disk.reopen) h.pagesHold
  have hpage : pageAt s₁.disk.tempIo 0 = pageImage level run t := by
    rw [htemp₁]
    exact htemp
  obtain ⟨s', hrecover, hrep', -, hclear⟩ :=
    RecoveryManager.recoverSSTable_spec hrep₁ hr ht hpage
  refine ⟨s', ?_, hrep', hclear⟩
  rw [restart, hconstruct]
  exact hrecover

/-! ## Which crash points keep every lookup -/

/-- The level a compaction starts at. -/
def CompactionKind.startLevel : CompactionKind → Nat
  | .minor => minorCompactionLevelNum - 1
  | .major => maxLevelNum - 1

theorem launch_eq (kind : CompactionKind) :
    launch kind = launchCompactionImpl kind.startLevel := by
  cases kind <;> rfl

theorem CompactionKind.startLevel_lt (kind : CompactionKind) : kind.startLevel < maxLevelNum := by
  cases kind <;> decide

/-- Of three stretches of runs the middle one is lost: the lookup of a key
survives if it is found in the newer ones, or not in the lost ones, or with the
same value in the older ones. -/
theorem newest_drop_middle_iff (below lost kept : List SSTable) (k : Key) :
    newest (below ++ kept) k = newest (below ++ (lost ++ kept)) k ↔
      (newest lost k ≠ none → newest kept k ≠ none ∨ newest below k = newest lost k) := by
  rw [newest_append, newest_append, newest_append]
  cases newest kept k with
  | some v => simp
  | none =>
    cases newest lost k with
    | some v => simp
    | none => simp

/-- A merge in place of the runs it merges keeps every lookup. -/
theorem newest_afterCompaction {cs : List RunContent} (hsorted : ∀ c ∈ cs, Sorted c.pairs)
    (startLevelNo : Nat) {k : Key} (hk : k ≠ tombstome) :
    newest ((afterCompaction cs startLevelNo).map RunContent.pairs) k =
      newest (cs.map RunContent.pairs) k := by
  have htables : ∀ t ∈ (cs.drop (basePos startLevelNo)).map RunContent.pairs, Sorted t := by
    intro t ht
    obtain ⟨c, hc, rfl⟩ := List.mem_map.1 ht
    exact hsorted c (List.mem_of_mem_drop hc)
  conv_rhs => rw [← List.take_append_drop (basePos startLevelNo) cs]
  rw [afterCompaction, List.map_append, List.map_append, newest_append, newest_append,
    List.map_singleton, newest_singleton, RunContent.ofTable_pairs, compacted,
    lookup_foldMerge htables hk]

/-- The tables of the compacted runs already cleared when `n` writes are
made. -/
def clearedTables (cs : List RunContent) (startLevelNo n : Nat) : List SSTable :=
  ((cs.drop (basePos startLevelNo)).take (n - 1)).map RunContent.pairs

/-- The tables of the compacted runs not cleared yet. -/
def uncleared (cs : List RunContent) (startLevelNo n : Nat) : List SSTable :=
  (cs.drop (basePos startLevelNo + (n - 1))).map RunContent.pairs

/-- The tables of the runs below the start level. -/
def belowTables (cs : List RunContent) (startLevelNo : Nat) : List SSTable :=
  (cs.take (basePos startLevelNo)).map RunContent.pairs

/-- **What a crash and a restart leave**, at any point between two writes. -/
theorem crash_restart_spec {s : Store} {cs : List RunContent} (hrep : Rep s (Slots.ofList cs))
    (hlen : cs.length ≤ totalNonOverflowPages) (kind : CompactionKind)
    (hlow : 1 < (compacted cs kind.startLevel).length)
    (hfits : FitsPage (compacted cs kind.startLevel)) {n : Nat} (hpos : 1 ≤ n)
    (hn : n ≤ cs.length - basePos kind.startLevel + 2) :
    ∃ crashed s', cut StoreOp.isWrite Store.handle (launch kind) n s = .ok (.stopped crashed) ∧
      restart crashed = .ok s' ∧ Rep s' (crashView cs kind.startLevel n) := by
  obtain ⟨crashed, hcut, hrep₁, -, htemp⟩ :=
    launchCompactionImpl_cut hrep hlen kind.startLevel_lt hlow hfits hpos hn
  obtain ⟨s', hrestart, hrep', -⟩ := restart_spec hrep₁ (by decide) hfits htemp
  exact ⟨crashed, s', by rw [launch_eq, hcut], hrestart, hrep'⟩

/-- **At which crash points every lookup survives**: when the merged run is
written, or when every key of a cleared run is found in a run that is still
there. -/
theorem crash_keeps_lookups_iff {s : Store} {cs : List RunContent} (hrep : Rep s (Slots.ofList cs))
    (hlen : cs.length ≤ totalNonOverflowPages) (hsorted : ∀ c ∈ cs, Sorted c.pairs)
    (kind : CompactionKind) (hlow : 2 ≤ (compacted cs kind.startLevel).length)
    (hhigh : (compacted cs kind.startLevel).length ≤ 125) {n : Nat} (hpos : 1 ≤ n)
    (hn : n ≤ cs.length - basePos kind.startLevel + 2) :
    ∃ crashed s', cut StoreOp.isWrite Store.handle (launch kind) n s = .ok (.stopped crashed) ∧
      restart crashed = .ok s' ∧
      ((∀ k, k ≠ tombstome → s'.newestLookup k = s.newestLookup k) ↔
        (n = cs.length - basePos kind.startLevel + 2 ∨
          ∀ k, k ≠ tombstome → newest (clearedTables cs kind.startLevel n) k ≠ none →
            newest (uncleared cs kind.startLevel n) k ≠ none ∨
              newest (belowTables cs kind.startLevel) k =
                newest (clearedTables cs kind.startLevel n) k)) := by
  have hfits : FitsPage (compacted cs kind.startLevel) := fitsPage_iff.2 hhigh
  have hbase : basePos kind.startLevel < cs.length := basePos_lt_length (by omega)
  obtain ⟨crashed, s', hcut, hrestart, hrep'⟩ :=
    crash_restart_spec hrep hlen kind (by omega) hfits hpos hn
  refine ⟨crashed, s', hcut, hrestart, ?_⟩
  rw [crashView] at hrep'
  by_cases hend : n ≤ cs.length - basePos kind.startLevel + 1
  · rw [if_pos hend] at hrep'
    have hafter := tables_cleared hrep' hlen (Nat.le_add_right _ _) (by omega)
    have hbefore : s.tables = belowTables cs kind.startLevel ++
        (clearedTables cs kind.startLevel n ++ uncleared cs kind.startLevel n) := by
      rw [tables_ofList hrep hlen, belowTables, clearedTables, uncleared, ← List.map_append,
        ← List.drop_drop, List.take_append_drop, ← List.map_append, List.take_append_drop]
    have hne : n ≠ cs.length - basePos kind.startLevel + 2 := by omega
    rw [or_iff_right hne]
    refine forall_congr' fun k => forall_congr' fun _ => ?_
    rw [Store.newestLookup, Store.newestLookup, hafter, hbefore, List.map_append]
    exact newest_drop_middle_iff _ _ _ k
  · rw [if_neg hend] at hrep'
    have hlast : n = cs.length - basePos kind.startLevel + 2 := by omega
    refine iff_of_true ?_ (.inl hlast)
    intro k hk
    have hlen' : (afterCompaction cs kind.startLevel).length ≤ totalNonOverflowPages :=
      (length_afterCompaction_le hbase).trans hlen
    rw [Store.newestLookup, Store.newestLookup, tables_ofList hrep' hlen', tables_ofList hrep hlen]
    exact newest_afterCompaction hsorted _ hk

/-! ## A run that is lost -/

/-- A table dumped into the next run. -/
theorem rep_nextRun {s : Store} {cs : List RunContent} (h : Rep s (Slots.ofList cs))
    (hlen : cs.length < totalNonOverflowPages) {t : SSTable} (ht : FitsPage t) :
    ∃ s', Run.dumpSSTable s (fillPos cs.length).1 (fillPos cs.length).2 t false = .ok s' ∧
      Rep s' (Slots.ofList (cs ++ [RunContent.ofTable cs.length t])) := by
  obtain ⟨s', hdump, hrep, -⟩ := run_dump_spec h hlen ht
  rw [Slots.update_ofList] at hrep
  exact ⟨s', hdump, hrep⟩

/-- A table in the first run of an otherwise empty store. -/
theorem rep_oneRun {t : SSTable} (ht : FitsPage t) :
    ∃ s, Run.dumpSSTable Store.empty (maxLevelNum - 1) 0 t false = .ok s ∧
      Rep s (Slots.ofList [RunContent.ofTable 0 t]) := by
  have hempty : Rep Store.empty (Slots.ofList []) := rep_empty.congr fun _ _ => rfl
  exact rep_nextRun hempty (by decide) ht

/-- **Cleared and still there**: the first run is cleared by the time of the
crash, and the second one holds its keys. -/
theorem crash_keeps_lookups_twoRuns :
    ∃ s₁ s, Run.dumpSSTable Store.empty (maxLevelNum - 1) 0 [(1, 10), (2, 20)] false = .ok s₁ ∧
      Run.dumpSSTable s₁ (maxLevelNum - 1) 1 [(1, 11), (2, 21), (3, 31)] false = .ok s ∧
      ∃ crashed s', cut StoreOp.isWrite Store.handle (launch .major) 2 s = .ok (.stopped crashed) ∧
        restart crashed = .ok s' ∧
        ∀ k, k ≠ tombstome → s'.newestLookup k = s.newestLookup k := by
  obtain ⟨s₁, hfirst, hrep₁⟩ := rep_oneRun (t := [(1, 10), (2, 20)]) (by decide)
  obtain ⟨s, hsecond, hrep⟩ := rep_nextRun hrep₁ (by decide) (t := [(1, 11), (2, 21), (3, 31)])
    (by decide)
  obtain ⟨crashed, s', hcut, hrestart, hiff⟩ := crash_keeps_lookups_iff hrep (by decide)
    (by simp [Sorted]) .major (by decide +kernel) (by decide +kernel) (n := 2) (by decide)
    (by decide)
  refine ⟨s₁, s, hfirst, hsecond, crashed, s', hcut, hrestart, hiff.2 (.inr ?_)⟩
  intro k _ hcleared
  refine .inl ?_
  have hkey : k = 1 ∨ k = 2 := by
    by_contra hne
    push Not at hne
    refine hcleared ?_
    show newest [[(1, 10), (2, 20)]] k = none
    rw [newest_singleton, lookup_cons_eq, if_neg hne.1, lookup_cons_eq, if_neg hne.2,
      List.lookup_nil]
  rcases hkey with rfl | rfl
  · decide
  · decide

/-- **A run that is cleared and not yet rewritten is gone**, although its pairs
are in the temporary page. -/
theorem crash_loses_a_run :
    ∃ s, Run.dumpSSTable Store.empty (maxLevelNum - 1) 0 [(1, 10), (2, 20)] false = .ok s ∧
      ∃ crashed s', cut StoreOp.isWrite Store.handle (launch .major) 2 s = .ok (.stopped crashed) ∧
        restart crashed = .ok s' ∧ s.newestLookup 1 = some 10 ∧ s'.newestLookup 1 = none := by
  obtain ⟨s, hdump, hrep⟩ := rep_oneRun (t := [(1, 10), (2, 20)]) (by decide)
  obtain ⟨crashed, s', hcut, hrestart, hrep'⟩ := crash_restart_spec hrep (by decide) .major
    (by decide +kernel) (by decide +kernel) (n := 2) (by decide) (by decide)
  refine ⟨s, hdump, crashed, s', hcut, hrestart, ?_, ?_⟩
  · rw [Store.newestLookup, tables_ofList hrep (by decide)]
    decide
  · have htables := tables_cleared (a := 0) (b := 1) hrep' (by decide) (by decide) (by decide)
    rw [Store.newestLookup, htables]
    decide

end GhostDB
