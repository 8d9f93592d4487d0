import GhostDB.Refinement

/-!
# Shutting a database down

`~GhostDB` flushes the memtable and asks for a major compaction, which merges
every used run into the first one.

* `destroy_spec`, `destroy_overflow` — what it leaves, and when it overflows a
  page.
* `pages_hold_iff` — for which sequences of writes every table dumped up to the
  end of the shutdown fits its page.
* `shutdown_leaves_one_run` — what is left is one run with the last write of
  every key.
-/

namespace GhostDB

open Prog SortedTable

/-! ## The size of the last merge -/

/-- Merging groups first does not change the keys other than `INT32_MIN`. -/
theorem distinctKeys_groups (gs : List (List BufferMap)) :
    distinctKeys (gs.map mergeAll) = distinctKeys (gs.flatten.map SortedMap.entries) := by
  ext k
  rw [mem_distinctKeys, mem_distinctKeys]
  constructor
  · rintro ⟨t, ht, hk⟩
    obtain ⟨g, hg, rfl⟩ := List.mem_map.1 ht
    rw [mergeAll, plainKeys_foldMerge sorted_entries, mem_distinctKeys] at hk
    obtain ⟨s, hs, hk⟩ := hk
    obtain ⟨m, hm, rfl⟩ := List.mem_map.1 hs
    exact ⟨m.entries, List.mem_map_of_mem (List.mem_flatten.2 ⟨g, hg, hm⟩), hk⟩
  · rintro ⟨t, ht, hk⟩
    obtain ⟨m, hm, rfl⟩ := List.mem_map.1 ht
    obtain ⟨g, hg, hmg⟩ := List.mem_flatten.1 hm
    refine ⟨mergeAll g, List.mem_map_of_mem hg, ?_⟩
    rw [mergeAll, plainKeys_foldMerge sorted_entries, mem_distinctKeys]
    exact ⟨m.entries, List.mem_map_of_mem hmg, hk⟩

/-- Nor the parity that decides over `INT32_MIN`. -/
theorem minCount_groups (gs : List (List BufferMap)) :
    minCount (gs.map mergeAll) % 2 = minCount (gs.flatten.map SortedMap.entries) % 2 := by
  induction gs with
  | nil => rfl
  | cons g gs ih =>
    have hg : holdsMin (mergeAll g) = decide (minCount (g.map SortedMap.entries) % 2 = 1) :=
      holdsMin_foldMerge sorted_entries
    unfold minCount at ih hg ⊢
    rw [List.map_cons, List.countP_cons, hg, List.flatten_cons, List.map_append,
      List.countP_append]
    by_cases hodd : List.countP holdsMin (g.map SortedMap.entries) % 2 = 1
    · simp only [hodd, decide_true, if_true]
      omega
    · simp only [hodd, decide_false, Bool.false_eq_true, if_false]
      omega

/-- The table a major compaction computes from the history `ms`. -/
def lastTable (ms : List BufferMap) : SSTable :=
  compacted (contents (layout ms)) (maxLevelNum - 1)

theorem lastTable_eq (ms : List BufferMap) :
    lastTable ms = foldMerge ((layout ms).map mergeAll) := by
  have hbase : basePos (maxLevelNum - 1) = 0 := by decide
  rw [lastTable, compacted, hbase, List.drop_zero, map_pairs_contents]

theorem sorted_runs (ms : List BufferMap) : ∀ t ∈ (layout ms).map mergeAll, Sorted t := by
  intro t ht
  obtain ⟨g, -, rfl⟩ := List.mem_map.1 ht
  exact sorted_mergeAll g

theorem sorted_lastTable (ms : List BufferMap) : Sorted (lastTable ms) := by
  rw [lastTable_eq]
  exact sorted_foldMerge (sorted_runs ms)

/-- **The size of the last table.** -/
theorem length_lastTable (ms : List BufferMap) :
    (lastTable ms).length = mergedSize (ms.map SortedMap.entries) := by
  rw [lastTable_eq, length_foldMerge (sorted_runs ms), mergedSize, mergedSize,
    distinctKeys_groups, minCount_groups, flatten_layout]

/-- The last table answers like the history, newest first. -/
theorem lookup_lastTable (ms : List BufferMap) {key : Key} (hk : key ≠ tombstome) :
    (lastTable ms).lookup key = newest (ms.map SortedMap.entries) key := by
  have hnewest := newest_contents (layout ms) hk
  rw [map_pairs_contents, flatten_layout] at hnewest
  rw [lastTable_eq, lookup_foldMerge (sorted_runs ms) hk, hnewest]

/-- It holds `INT32_MIN` when an odd number of memtables did. -/
theorem holdsMin_lastTable (ms : List BufferMap) :
    holdsMin (lastTable ms) = decide (minCount (ms.map SortedMap.entries) % 2 = 1) := by
  rw [lastTable_eq, holdsMin_foldMerge (sorted_runs ms), minCount_groups, flatten_layout]

/-! ## The destructor -/

/-- What a shutdown leaves of the flush history `ms`. -/
def afterShutdown (ms : List BufferMap) : List RunContent :=
  if mergedSize (ms.map SortedMap.entries) ≤ 1 then contents (layout ms)
  else [RunContent.ofTable 0 (lastTable ms)]

/-- The major compaction of a shutdown. -/
theorem run_major_spec {w : World} (hw : Holds w)
    (hfits : mergedSize (w.flushed.map SortedMap.entries) ≤ 125) :
    ∃ s', run World.handle requestMajorCompaction w = .ok ((), ⟨s', w.flushed⟩) ∧
      Rep s' (Slots.ofList (afterShutdown w.flushed)) ∧ StoreFrame w.store s' ∧
      pageAt s'.disk.tempIo 0 = zeroData := by
  have hstart : maxLevelNum - 1 < maxLevelNum := by decide
  have hlen := length_lastTable w.flushed
  rw [lastTable] at hlen
  rw [afterShutdown]
  split
  next hsmall =>
    obtain ⟨p, hrun⟩ := launchCompactionImpl_small hw.rep
      (length_contents_layout _) hstart (by omega)
    refine ⟨w.store.withPos p, ?_, hw.rep.withPos p, StoreFrame.withPos _ p, hw.temp⟩
    refine (World.run_request .major w).trans ?_
    rw [launch, launchMajorCompaction, hrun]
    rfl
  next hlarge =>
    obtain ⟨s', hrun, hrep, hframe, htemp⟩ := launchCompactionImpl_spec hw.rep
      (length_contents_layout _) hstart (by omega) (fitsPage_iff.2 (by omega))
    refine ⟨s', ?_, hrep, hframe, htemp⟩
    refine (World.run_request .major w).trans ?_
    rw [launch, launchMajorCompaction, hrun]
    rfl

section Destroy

variable {w : World} {b : Buffer} (hw : Holds w)
  (hfull : ∀ m ∈ w.flushed, m.size = maxBufferSize)

include hw hfull in
/-- **A shutdown whose merges fit** ends with the runs of `afterShutdown`. -/
theorem destroy_spec (hno : ¬ Overflows w.flushed)
    (hfits : mergedSize ((w.flushed ++ [b.kv]).map SortedMap.entries) ≤ 125) (fuel : Nat) :
    ∃ s', run World.handle (Db.destroy (fuel + 2) b) w = .ok ((), ⟨s', w.flushed ++ [b.kv]⟩) ∧
      Rep s' (Slots.ofList (afterShutdown (w.flushed ++ [b.kv]))) ∧
      pageAt s'.disk.tempIo 0 = zeroData ∧ NoStrayPages s' := by
  obtain ⟨s₁, hflush, hw₁⟩ := hw.flushWAL
  obtain ⟨s₂, hdump, hw₂, -⟩ := dumpLoop_spec hw₁ hfull b.fitsPage hno fuel
  obtain ⟨s₃, hclear, hw₃⟩ := hw₂.clearLog
  obtain ⟨s₄, hmajor, hrep, hframe, htemp⟩ := run_major_spec hw₃ hfits
  obtain ⟨bs, hlog⟩ := hframe.logState hw₃.log
  obtain ⟨s', hstop, -, hstopFrame⟩ := stopFlushThread_state hlog
  have hstopRun : run World.handle (onStore stopFlushThread) ⟨s₄, w.flushed ++ [b.kv]⟩ =
      .ok ((), ⟨s', w.flushed ++ [b.kv]⟩) := by
    rw [World.run_onStore_of_pure (p := stopFlushThread) ⟨rfl, fun _ => trivial⟩, hstop]
    rfl
  refine ⟨s', ?_, hstopFrame.rep hrep, ?_, hstopFrame.noStrayPages (hframe.noStrayPages hw₃.stray)⟩
  · rw [Db.destroy]
    refine (run_bind_of_ok hflush).trans ?_
    refine (run_bind_of_ok hdump).trans ?_
    refine (run_bind_of_ok hclear).trans ?_
    refine (run_bind_of_ok hmajor).trans ?_
    exact (run_bind_of_ok (run_op ..)).trans hstopRun
  · rw [hstopFrame.tempIo]
    exact htemp

include hw hfull in
/-- **A shutdown one of whose merges does not fit** overflows a page. -/
theorem destroy_overflow (ho : Overflows w.flushed ∨
    125 < mergedSize ((w.flushed ++ [b.kv]).map SortedMap.entries)) (fuel : Nat) :
    run World.handle (Db.destroy (fuel + 2) b) w = .error .pageOverflow := by
  obtain ⟨s₁, hflush, hw₁⟩ := hw.flushWAL
  rw [Db.destroy]
  refine (run_bind_of_ok hflush).trans ?_
  by_cases hover : Overflows w.flushed
  · exact run_bind_of_error (dumpLoop_overflow hw₁ hover (fuel + 1))
  · have hlarge := ho.resolve_left hover
    obtain ⟨s₂, hdump, hw₂, -⟩ := dumpLoop_spec hw₁ hfull b.fitsPage hover fuel
    obtain ⟨s₃, hclear, hw₃⟩ := hw₂.clearLog
    have hfits : ¬ FitsPage (compacted (contents (layout (w.flushed ++ [b.kv])))
        (maxLevelNum - 1)) := by
      have hlen := length_lastTable (w.flushed ++ [b.kv])
      rw [lastTable] at hlen
      rw [fitsPage_iff]
      omega
    have hmajor : run World.handle requestMajorCompaction ⟨s₃, w.flushed ++ [b.kv]⟩ =
        .error .pageOverflow := by
      refine (World.run_request .major _).trans ?_
      rw [launch, launchMajorCompaction, launchCompactionImpl_overflow hw₃.rep
        (length_contents_layout _) (by decide) hfits]
      rfl
    refine (run_bind_of_ok hdump).trans ?_
    refine (run_bind_of_ok hclear).trans ?_
    exact run_bind_of_error hmajor

end Destroy

/-! ## When every page holds its table -/

/-- A sequence of writes on a new database, then its destruction. -/
def lifetime (fuel : Nat) (us : List Update) : Prog ClientSig Unit := do
  let b ← updates fuel us
  Db.destroy fuel b

/-- The memtables flushed over a whole lifetime, the last one by the
destructor. -/
def flushesOf (us : List Update) : List BufferMap :=
  (splitWrites (us.map Update.write)).1 ++ [(splitWrites (us.map Update.write)).2.kv]

theorem overflows_iff {ms : List BufferMap} :
    Overflows ms ↔ 15 ≤ ms.length ∧ ms.length % 2 = 1 ∧
      125 < mergedSize ((ms.drop 12).map SortedMap.entries) := by
  rw [Overflows, layout_full_iff, fitsPage_iff, length_mergeAll, minorBase_eq, and_assoc]
  constructor
  · rintro ⟨h1, h2, h3⟩
    exact ⟨h1, h2, not_le.1 h3⟩
  · rintro ⟨h1, h2, h3⟩
    exact ⟨h1, h2, not_le.2 h3⟩

/-- **Every dumped table fits its page, or one overflows it**: which one is
decided by the flush history. -/
theorem lifetime_spec {w₀ : World} (h₀ : At [] w₀ Buffer.empty) (fuel : Nat) (us : List Update) :
    (¬ OverflowsIn (flushesOf us) ∧ mergedSize ((flushesOf us).map SortedMap.entries) ≤ 125 ∧
      ∃ s', run World.handle (lifetime (fuel + 2) us) w₀ = .ok ((), ⟨s', flushesOf us⟩) ∧
        Rep s' (Slots.ofList (afterShutdown (flushesOf us))) ∧
        pageAt s'.disk.tempIo 0 = zeroData ∧ NoStrayPages s') ∨
    (¬ (¬ OverflowsIn (flushesOf us) ∧ mergedSize ((flushesOf us).map SortedMap.entries) ≤ 125) ∧
      run World.handle (lifetime (fuel + 2) us) w₀ = .error .pageOverflow) := by
  rcases updates_spec h₀ fuel us with ⟨hover, hrun⟩ | ⟨hno, b, w, hrun, hat⟩
  · refine .inr ⟨fun h => h.1 ((overflowsIn_concat _ _).2 (.inl hover)), run_bind_of_error hrun⟩
  · have hsplit : flushesOf us = w.flushed ++ [b.kv] := by
      rw [flushesOf, ← hat.split]
    have hno' : ¬ OverflowsIn w.flushed := by
      rw [← hat.split] at hno
      exact hno
    rw [hsplit, overflowsIn_concat]
    by_cases hfine : ¬ Overflows w.flushed ∧
        mergedSize ((w.flushed ++ [b.kv]).map SortedMap.entries) ≤ 125
    · obtain ⟨s', hdestroy, hspec⟩ := destroy_spec (b := b) hat.holds hat.full hfine.1 hfine.2 fuel
      refine .inl ⟨?_, hfine.2, s', (run_bind_of_ok hrun).trans hdestroy, hspec⟩
      rintro (h | h)
      · exact hno' h
      · exact hfine.1 h
    · refine .inr ⟨fun h => hfine ⟨fun hh => h.1 (.inr hh), h.2⟩, ?_⟩
      refine (run_bind_of_ok hrun).trans (destroy_overflow hat.holds hat.full ?_ fuel)
      by_contra hcon
      push Not at hcon
      exact hfine hcon

/-- Up to fifteen memtables with at most 125 keys overflow nothing. -/
theorem lifetime_ne_overflow {w₀ : World} (h₀ : At [] w₀ Buffer.empty) (fuel : Nat)
    {us : List Update} (hlen : (flushesOf us).length ≤ 15)
    (hsize : mergedSize ((flushesOf us).map SortedMap.entries) ≤ 125) :
    run World.handle (lifetime (fuel + 2) us) w₀ ≠ .error .pageOverflow := by
  rcases lifetime_spec h₀ fuel us with ⟨-, -, s', hrun, -⟩ | ⟨hno, -⟩
  · rw [hrun]
    simp
  · exact absurd ⟨not_overflowsIn_of_length_le hlen, hsize⟩ hno

/-- **One-page capacity.**  In the whole life of a database every table fits its
page if and only if no minor compaction covers more than 125 keys and neither
does the last, major one. -/
theorem pages_hold_iff (fuel : Nat) (files : Files) (us : List Update) :
    ∃ w₀, Db.construct fuel files = .ok (Buffer.empty, w₀) ∧
      (run World.handle (lifetime (fuel + 2) us) w₀ ≠ .error .pageOverflow ↔
        mergedSize ((flushesOf us).map SortedMap.entries) ≤ 125 ∧
        ∀ j < (flushesOf us).length, 15 ≤ j → j % 2 = 1 →
          mergedSize ((((flushesOf us).take j).drop 12).map SortedMap.entries) ≤ 125) := by
  obtain ⟨w₀, hconstruct, hat⟩ := construct_at fuel files
  refine ⟨w₀, hconstruct, ?_⟩
  have hiff : ¬ OverflowsIn (flushesOf us) ↔
      ∀ j < (flushesOf us).length, 15 ≤ j → j % 2 = 1 →
        mergedSize ((((flushesOf us).take j).drop 12).map SortedMap.entries) ≤ 125 := by
    rw [OverflowsIn]
    push Not
    refine forall_congr' fun j => forall_congr' fun hj => ?_
    rw [overflows_iff, List.length_take, min_eq_left hj.le]
    push Not
    rfl
  rw [← hiff, and_comm]
  rcases lifetime_spec hat fuel us with ⟨hno, hfits, s', hrun, -⟩ | ⟨hno, hrun⟩
  · rw [hrun]
    exact iff_of_true (by simp) ⟨hno, hfits⟩
  · rw [hrun]
    exact iff_of_false (by simp) hno

/-! ## Enough distinct keys overflow a page -/

theorem lastWrite_eq_none_iff {ws : List MappingType} {key : Key} :
    lastWrite ws key = none ↔ ∀ r ∈ ws, r.1 ≠ key := by
  rw [← not_iff_not, ← ne_eq, lastWrite, lookup_ne_none_iff]
  simp

/-- The tables flushed over a lifetime answer with the last write. -/
theorem newest_flushesOf (us : List Update) (key : Key) :
    newest ((flushesOf us).map SortedMap.entries) key = lastWrite (us.map Update.write) key := by
  rw [← newest_splitWrites, tablesOf, flushesOf, List.map_append, List.map_singleton]

/-- Every key written other than `INT32_MIN` is counted. -/
theorem mem_distinctKeys_flushesOf (us : List Update) (key : Key) :
    key ∈ distinctKeys ((flushesOf us).map SortedMap.entries) ↔
      key ≠ tombstome ∧ ∃ u ∈ us, u.write.1 = key := by
  have hwritten : lastWrite (us.map Update.write) key ≠ none ↔ ∃ u ∈ us, u.write.1 = key := by
    rw [ne_eq, lastWrite_eq_none_iff]
    simp
  have hheld : newest ((flushesOf us).map SortedMap.entries) key ≠ none ↔
      ∃ t ∈ (flushesOf us).map SortedMap.entries, t.lookup key ≠ none := by
    rw [ne_eq, newest_eq_none_iff]
    push Not
    rfl
  rw [← hwritten, ← newest_flushesOf, hheld, mem_distinctKeys]
  simp only [mem_plainKeys]
  constructor
  · rintro ⟨t, ht, hk, hlookup⟩
    exact ⟨hk, t, ht, hlookup⟩
  · rintro ⟨hk, t, ht, hlookup⟩
    exact ⟨t, ht, hk, hlookup⟩

/-- A history of writes to `n` different keys has at least `n` keys. -/
theorem le_mergedSize_of_keys {us : List Update} {n : Nat} (hn : n < 2 ^ 31)
    (hkeys : ∀ i < n, ∃ u ∈ us, u.write.1 = Int32.ofNat i) :
    n ≤ mergedSize ((flushesOf us).map SortedMap.entries) := by
  have hint : ∀ i < n, (Int32.ofNat i).toInt = i := fun i hi =>
    Int32.toInt_ofNat_of_lt (by omega)
  have hsub : (Finset.range n).image Int32.ofNat ⊆
      distinctKeys ((flushesOf us).map SortedMap.entries) := by
    intro k hk
    obtain ⟨i, hi, rfl⟩ := Finset.mem_image.1 hk
    have hi' := Finset.mem_range.1 hi
    have hne : Int32.ofNat i ≠ tombstome := by
      intro heq
      have htoInt := congrArg Int32.toInt heq
      rw [hint i hi', tombstome, Int32.toInt_minValue] at htoInt
      omega
    exact (mem_distinctKeys_flushesOf us (Int32.ofNat i)).2 ⟨hne, hkeys i hi'⟩
  have hinj : Set.InjOn Int32.ofNat (Finset.range n) := by
    intro i hi j hj heq
    have htoInt := congrArg Int32.toInt heq
    rw [hint i (by simpa using hi), hint j (by simpa using hj)] at htoInt
    exact_mod_cast htoInt
  have hcard := Finset.card_le_card hsub
  rw [Finset.card_image_of_injOn hinj, Finset.card_range] at hcard
  rw [mergedSize]
  omega

/-- The keys `0, 1, ..., 125`, each put once. -/
def manyPuts : List Update :=
  (List.range 126).map fun i => .put (Int32.ofNat i) 1

theorem lt_mergedSize_manyPuts :
    125 < mergedSize ((flushesOf manyPuts).map SortedMap.entries) := by
  apply le_mergedSize_of_keys (by norm_num)
  intro i hi
  exact ⟨.put (Int32.ofNat i) 1, List.mem_map.2 ⟨i, List.mem_range.2 hi, rfl⟩, rfl⟩

/-- **126 keys are too many**: the major compaction of the shutdown overflows
its page. -/
theorem manyPuts_overflow :
    ∃ w₀, Db.construct 0 ⟨none, none, none⟩ = .ok (Buffer.empty, w₀) ∧
      run World.handle (lifetime 2 manyPuts) w₀ = .error .pageOverflow := by
  obtain ⟨w₀, hconstruct, hat⟩ := construct_at 0 ⟨none, none, none⟩
  refine ⟨w₀, hconstruct, ?_⟩
  rcases lifetime_spec hat 0 manyPuts with ⟨-, hfits, -⟩ | ⟨-, hrun⟩
  · exact absurd hfits (not_le.2 lt_mergedSize_manyPuts)
  · exact hrun

/-! ## What a shutdown leaves -/

/-- When nothing was flushed before the shutdown there is nothing to merge, and
otherwise there is: the store is left with the last table alone. -/
theorem afterShutdown_eq {ms : List BufferMap} (hfull : ∀ m ∈ ms, m.size = maxBufferSize)
    (m : BufferMap) :
    afterShutdown (ms ++ [m]) = [RunContent.ofTable 0 (lastTable (ms ++ [m]))] := by
  rw [afterShutdown]
  split
  next hsmall =>
    -- a full memtable among the flushed ones would make the merge larger
    have hnil : ms = [] := by
      apply List.eq_nil_iff_forall_not_mem.2
      intro m' hm'
      have hlarge : 1 < (mergeAll (ms ++ [m])).length := by
        refine one_lt_length_mergeAll (List.mem_append_left _ hm') ?_
        rw [hfull m' hm']
        decide
      rw [length_mergeAll] at hlarge
      omega
    have hlast : lastTable [m] = m.entries := by
      rw [lastTable_eq, layout, List.foldl_cons, List.foldl_nil, flushStep, if_pos (by decide),
        List.nil_append, List.map_singleton, foldMerge_singleton, mergeAll_singleton]
    rw [hnil, List.nil_append, hlast, layout, List.foldl_cons, List.foldl_nil, flushStep,
      if_pos (by decide), List.nil_append, ← List.nil_append [[m]], contents_concat,
      mergeAll_singleton]
    rfl
  next => rfl

/-- The last-write-wins map answers with the last write. -/
theorem lookup_lastWrites (ws : List MappingType) (key : Key) :
    (RecoveryManager.lastWrites ws).lookup key = lastWrite ws key := by
  induction ws using List.reverseRecOn with
  | nil => rfl
  | append_singleton ws r ih =>
    rw [RecoveryManager.lastWrites_concat, SortedMap.lookup_insert, lastWrite_concat, ih]

/-- **When `INT32_MIN` is never written** the last table is the last-write-wins
map of the writes. -/
theorem lastTable_flushesOf {us : List Update} (hmin : ∀ u ∈ us, u.write.1 ≠ tombstome) :
    lastTable (flushesOf us) = (RecoveryManager.lastWrites (us.map Update.write)).entries := by
  have hunwritten : newest ((flushesOf us).map SortedMap.entries) tombstome = none := by
    rw [newest_flushesOf, lastWrite_eq_none_iff]
    simpa using hmin
  apply ext_lookup (sorted_lastTable _) (SortedMap.sorted _)
  intro key
  have hlookup : (RecoveryManager.lastWrites (us.map Update.write)).entries.lookup key =
      newest ((flushesOf us).map SortedMap.entries) key := by
    rw [newest_flushesOf]
    exact lookup_lastWrites _ key
  rw [hlookup]
  by_cases hk : key = tombstome
  · have hcount : minCount ((flushesOf us).map SortedMap.entries) = 0 := by
      rw [minCount, List.countP_eq_zero]
      intro t ht hheld
      exact holdsMin_iff.1 hheld (newest_eq_none_iff.1 hunwritten t ht)
    have hnot : ¬ holdsMin (lastTable (flushesOf us)) = true := by
      rw [holdsMin_lastTable, hcount]
      decide
    rw [holdsMin_iff, not_not] at hnot
    rw [hk, hnot, hunwritten]
  · exact lookup_lastTable _ hk

/-- The pages of the runs are the first of `sstable.db`. -/
theorem exists_fillPage {j : Nat} (hj : j < totalNonOverflowPages) :
    ∃ i < totalNonOverflowPages, fillPage i = j := by
  revert j
  decide

/-- The pages that are not zero are those of the used runs. -/
theorem pageAt_ne_zero_iff {s : Store} {cs : List RunContent} (h : Rep s (Slots.ofList cs))
    (hstray : NoStrayPages s) (hlen : cs.length ≤ totalNonOverflowPages) (j : Nat) :
    pageAt s.disk.dbIo j ≠ zeroData ↔ ∃ i < cs.length, fillPage i = j := by
  constructor
  · intro hj
    rcases lt_or_ge j totalNonOverflowPages with hlt | hge
    · obtain ⟨i, hi, rfl⟩ := exists_fillPage hlt
      refine ⟨i, ?_, rfl⟩
      by_contra hout
      have hempty := h.slot i hi
      rw [Slots.ofList_of_le (not_lt.1 hout)] at hempty
      exact hj hempty.2
    · exact absurd (hstray j hge) hj
  · rintro ⟨i, hi, rfl⟩ hj
    have hslot := h.slot i (hi.trans_le hlen)
    rw [Slots.ofList_of_lt hi] at hslot
    have hused := hslot.isPageAllZero
    rw [hj, zeroData, isPageAllZero_replicate] at hused
    cases hused

/-- **Shutdown keeps everything in one run.**  After any writes on a new
database, `INT32_MIN` not among the keys, and a shutdown, unless a page
overflows: the one page that is not zero is that of the first run, and it holds
the last write of every key, in order of the keys. -/
theorem shutdown_leaves_one_run (fuel : Nat) (files : Files) (us : List Update)
    (hmin : ∀ u ∈ us, u.write.1 ≠ tombstome) :
    ∃ w₀, Db.construct fuel files = .ok (Buffer.empty, w₀) ∧
      (run World.handle (lifetime (fuel + 2) us) w₀ = .error .pageOverflow ∨
        ∃ w, run World.handle (lifetime (fuel + 2) us) w₀ = .ok ((), w) ∧
          (∀ j, pageAt w.store.disk.dbIo j ≠ zeroData ↔ j = getPageId (maxLevelNum - 1) 0) ∧
          pageAt w.store.disk.dbIo (getPageId (maxLevelNum - 1) 0) =
            pageImage (maxLevelNum - 1) 0
              (RecoveryManager.lastWrites (us.map Update.write)).entries ∧
          decodedPairs (pageAt w.store.disk.dbIo (getPageId (maxLevelNum - 1) 0)) =
            some (RecoveryManager.lastWrites (us.map Update.write)).entries ∧
          pageAt w.store.disk.tempIo 0 = zeroData) := by
  obtain ⟨w₀, hconstruct, hat⟩ := construct_at fuel files
  refine ⟨w₀, hconstruct, ?_⟩
  rcases lifetime_spec hat fuel us with ⟨-, -, s', hrun, hrep, htemp, hstray⟩ | ⟨-, hrun⟩
  swap
  · exact .inl hrun
  rw [flushesOf, afterShutdown_eq fun m hm => size_of_mem_splitWrites hm, ← flushesOf,
    lastTable_flushesOf hmin] at hrep
  set table := (RecoveryManager.lastWrites (us.map Update.write)).entries
  have hzero : fillPage 0 = getPageId (maxLevelNum - 1) 0 := by decide
  have hone : 1 ≤ totalNonOverflowPages := by decide
  have hslot := hrep.slot 0 hone
  rw [Slots.ofList_of_lt Nat.zero_lt_one] at hslot
  have hpage : pageAt s'.disk.dbIo (getPageId (maxLevelNum - 1) 0) =
      pageImage (maxLevelNum - 1) 0 table := hzero ▸ hslot.page
  have hdecodes : decodedPairs (pageAt s'.disk.dbIo (getPageId (maxLevelNum - 1) 0)) =
      some table := by
    rw [← hzero, hslot.page]
    exact hslot.2.2.decodedPairs
  refine .inr ⟨_, hrun, ?_, hpage, hdecodes, htemp⟩
  intro j
  rw [pageAt_ne_zero_iff hrep hstray hone, ← hzero]
  simp [eq_comm]

/-- Six keys, two of which are written again once the first five are flushed. -/
def sixKeys : List Update :=
  [.put 1 10, .put 2 20, .put 3 30, .put 4 40, .put 5 50, .put 6 60, .put 1 11, .delete 2]

/-- The page holds the second value of one key and the tombstone of the other,
over what was flushed before. -/
theorem shutdown_leaves_six_keys :
    (∀ u ∈ sixKeys, u.write.1 ≠ tombstome) ∧ (flushesOf sixKeys).length = 2 ∧
    ∃ w₀ w, Db.construct 0 ⟨none, none, none⟩ = .ok (Buffer.empty, w₀) ∧
      run World.handle (lifetime 2 sixKeys) w₀ = .ok ((), w) ∧
      (∀ j, pageAt w.store.disk.dbIo j ≠ zeroData ↔ j = 10) ∧
      decodedPairs (pageAt w.store.disk.dbIo 10) =
        some [(1, 11), (2, tombstome), (3, 30), (4, 40), (5, 50), (6, 60)] ∧
      pageAt w.store.disk.tempIo 0 = zeroData := by
  have hkeys : ∀ u ∈ sixKeys, u.write.1 ≠ tombstome := by decide
  have hlen : (flushesOf sixKeys).length = 2 := by decide
  refine ⟨hkeys, hlen, ?_⟩
  obtain ⟨w₀, hconstruct, hspec⟩ := shutdown_leaves_one_run 0 ⟨none, none, none⟩ _ hkeys
  obtain ⟨w₁, hagain, hat⟩ := construct_at 0 ⟨none, none, none⟩
  cases hconstruct.symm.trans hagain
  rcases hspec with herr | ⟨w, hrun, hpages, -, hdecoded, htemp⟩
  · exact absurd herr (lifetime_ne_overflow hat 0 (by rw [hlen]; decide) (by decide +kernel))
  · exact ⟨w₀, w, hconstruct, hrun, hpages, hdecoded, htemp⟩

end GhostDB
