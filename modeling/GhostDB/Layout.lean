import GhostDB.WriteAheadLog

/-!
# Which memtables share a run

The abstract machine of the store knows nothing of pages: its state is the list
of used runs in fill order, each with the flushed memtables it was merged from,
and its one transition is the flush of a memtable, preceded by a minor
compaction when every run is used.

* `layout_shape`, `flatten_layout` — the runs partition the flush history into
  consecutive intervals, and only the run a minor compaction writes to has more
  than one memtable.
* `layout_full_iff` — when a flush has to compact first.
* `Holds` — a store is in the state the machine computes from its history.
* `dumpLoop_spec`, `dumpLoop_overflow` — the loop that dumps a memtable refines
  the machine, or overflows a page exactly when the machine's merge does not fit
  one.
-/

namespace GhostDB

open Prog SortedTable

/-! ## The machine -/

/-- The merge of memtables, oldest first. -/
def mergeAll (ms : List BufferMap) : SSTable := foldMerge (ms.map SortedMap.entries)

/-- The position of the run a minor compaction writes to. -/
def minorBase : Nat := basePos (minorCompactionLevelNum - 1)

theorem minorBase_eq : minorBase = 12 := by decide

/-- A minor compaction: the runs from `minorBase` on become one. -/
def minorCompact (parts : List (List BufferMap)) : List (List BufferMap) :=
  parts.take minorBase ++ [(parts.drop minorBase).flatten]

/-- A flush: into the next run, if need be after a minor compaction. -/
def flushStep (parts : List (List BufferMap)) (m : BufferMap) : List (List BufferMap) :=
  if parts.length < totalNonOverflowPages then parts ++ [[m]] else minorCompact parts ++ [[m]]

/-- **The layout** after flushing `ms`: for every used run its memtables. -/
def layout (ms : List BufferMap) : List (List BufferMap) := ms.foldl flushStep []

/-- The contents of the runs of a layout. -/
def contents (parts : List (List BufferMap)) : List RunContent :=
  parts.mapIdx fun i p => RunContent.ofTable i (mergeAll p)

@[simp] theorem layout_nil : layout [] = [] := rfl

theorem layout_concat (ms : List BufferMap) (m : BufferMap) :
    layout (ms ++ [m]) = flushStep (layout ms) m := by
  rw [layout, List.foldl_concat, layout]

@[simp] theorem length_contents (parts : List (List BufferMap)) :
    (contents parts).length = parts.length := List.length_mapIdx

theorem contents_concat (parts : List (List BufferMap)) (p : List BufferMap) :
    contents (parts ++ [p]) =
      contents parts ++ [RunContent.ofTable parts.length (mergeAll p)] :=
  List.mapIdx_concat

theorem map_pairs_contents (parts : List (List BufferMap)) :
    (contents parts).map RunContent.pairs = parts.map mergeAll := by
  apply List.ext_getElem?
  intro i
  cases hp : parts[i]? <;> simp [contents, hp]

theorem contents_take (parts : List (List BufferMap)) (n : Nat) :
    (contents parts).take n = contents (parts.take n) := by
  apply List.ext_getElem?
  intro i
  by_cases hi : i < n
  · simp [contents, List.getElem?_take_of_lt hi]
  · simp [contents, List.getElem?_take_eq_none (not_lt.1 hi)]

/-! ## The shape of a layout -/

/-- What every layout looks like. -/
structure Shape (parts : List (List BufferMap)) : Prop where
  /-- There are enough runs. -/
  length_le : parts.length ≤ totalNonOverflowPages
  /-- No used run is without memtables. -/
  nonempty : ∀ p ∈ parts, p ≠ []
  /-- Only one run holds more than one memtable. -/
  single : ∀ i p, parts[i]? = some p → i ≠ minorBase → ∃ m, p = [m]

theorem shape_nil : Shape [] := ⟨Nat.zero_le _, by simp, by simp⟩

theorem Shape.concat {parts : List (List BufferMap)} (h : Shape parts)
    (hlen : parts.length < totalNonOverflowPages) (m : BufferMap) : Shape (parts ++ [[m]]) := by
  refine ⟨by simpa using hlen, ?_, ?_⟩
  · intro p hp
    rcases List.mem_append.1 hp with hp | hp
    · exact h.nonempty p hp
    · rw [List.mem_singleton.1 hp]; simp
  · intro i p hp hi
    rcases lt_trichotomy i parts.length with hlt | heq | hgt
    · rw [List.getElem?_append_left hlt] at hp
      exact h.single i p hp hi
    · rw [heq, List.getElem?_concat_length] at hp
      exact ⟨m, (Option.some.inj hp).symm⟩
    · rw [List.getElem?_eq_none (by simpa using hgt)] at hp
      cases hp

theorem length_minorCompact {parts : List (List BufferMap)} (h : minorBase ≤ parts.length) :
    (minorCompact parts).length = minorBase + 1 := by
  rw [minorCompact, List.length_append, List.length_take, List.length_singleton]
  omega

theorem Shape.minorCompact {parts : List (List BufferMap)} (h : Shape parts)
    (hlen : minorBase < parts.length) : Shape (minorCompact parts) := by
  have htake : (parts.take minorBase).length = minorBase := by
    rw [List.length_take]; omega
  refine ⟨?_, ?_, ?_⟩
  · rw [length_minorCompact hlen.le]; decide
  · intro p hp
    rcases List.mem_append.1 hp with hp | hp
    · exact h.nonempty p (List.mem_of_mem_take hp)
    · rw [List.mem_singleton.1 hp, List.drop_eq_getElem_cons hlen, List.flatten_cons]
      have hne := h.nonempty _ (List.getElem_mem hlen)
      simp [hne]
  · intro i p hp hi
    rcases lt_trichotomy i minorBase with hlt | heq | hgt
    · rw [GhostDB.minorCompact, List.getElem?_append_left (by omega),
        List.getElem?_take_of_lt hlt] at hp
      exact h.single i p hp hi
    · exact absurd heq hi
    · rw [List.getElem?_eq_none (by rw [length_minorCompact hlen.le]; omega)] at hp
      cases hp

/-- **Every layout has the shape**, whatever was flushed. -/
theorem layout_shape (ms : List BufferMap) : Shape (layout ms) := by
  induction ms using List.reverseRecOn with
  | nil => exact shape_nil
  | append_singleton ms m ih =>
    rw [layout_concat, flushStep]
    by_cases hlt : (layout ms).length < totalNonOverflowPages
    · rw [if_pos hlt]
      exact ih.concat hlt m
    · have hlen : minorBase < (layout ms).length := by
        rw [minorBase_eq]
        rw [totalNonOverflowPages_eq] at hlt
        omega
      rw [if_neg hlt]
      refine (ih.minorCompact hlen).concat ?_ m
      rw [length_minorCompact hlen.le]
      decide

/-- **No flush is lost, repeated or moved**: the memtables of the runs, in fill
order, are the flush history. -/
theorem flatten_layout (ms : List BufferMap) : (layout ms).flatten = ms := by
  induction ms using List.reverseRecOn with
  | nil => rfl
  | append_singleton ms m ih =>
    rw [layout_concat, flushStep]
    by_cases hlt : (layout ms).length < totalNonOverflowPages
    · rw [if_pos hlt, List.flatten_append, ih]
      rfl
    · have hcompact : (minorCompact (layout ms)).flatten = ms := by
        rw [minorCompact, List.flatten_append, List.flatten_singleton, ← List.flatten_append,
          List.take_append_drop, ih]
      rw [if_neg hlt, List.flatten_append, hcompact]
      rfl

/-- How many runs are used. -/
theorem length_layout (ms : List BufferMap) :
    (layout ms).length = if ms.length ≤ 15 then ms.length else 14 + ms.length % 2 := by
  induction ms using List.reverseRecOn with
  | nil => rfl
  | append_singleton ms m ih =>
    rw [layout_concat, flushStep, totalNonOverflowPages_eq, List.length_append,
      List.length_singleton]
    by_cases hlt : (layout ms).length < 15
    · rw [if_pos hlt, List.length_append, List.length_singleton]
      rw [ih] at hlt ⊢
      split_ifs at hlt ⊢ <;> omega
    · have hbase : minorBase ≤ (layout ms).length := by
        rw [minorBase_eq]
        omega
      rw [if_neg hlt, List.length_append, List.length_singleton, length_minorCompact hbase,
        minorBase_eq]
      rw [ih] at hlt
      split_ifs at hlt ⊢ <;> omega

/-- **When a flush has to compact first**: every run is used after fifteen
memtables and after every second one from there on. -/
theorem layout_full_iff (ms : List BufferMap) :
    (layout ms).length = totalNonOverflowPages ↔ 15 ≤ ms.length ∧ ms.length % 2 = 1 := by
  rw [totalNonOverflowPages_eq, length_layout]
  split_ifs <;> omega

/-- Runs of one memtable each hold as many memtables as there are runs. -/
theorem length_flatten_of_singles {ps : List (List BufferMap)} (h : ∀ p ∈ ps, ∃ m, p = [m]) :
    ps.flatten.length = ps.length := by
  induction ps with
  | nil => rfl
  | cons p ps ih =>
    obtain ⟨m, rfl⟩ := h p (List.mem_cons_self ..)
    rw [List.flatten_cons, List.length_append, ih fun q hq => h q (List.mem_cons_of_mem _ hq),
      List.length_singleton, List.length_cons, Nat.add_comm]

/-- The memtables a minor compaction merges are all but the first twelve. -/
theorem flatten_drop_layout (ms : List BufferMap) :
    ((layout ms).drop minorBase).flatten = ms.drop minorBase := by
  have hshape := layout_shape ms
  have hsplit : ((layout ms).take minorBase).flatten ++ ((layout ms).drop minorBase).flatten =
      ms := by
    rw [← List.flatten_append, List.take_append_drop, flatten_layout]
  have hfront : ((layout ms).take minorBase).flatten.length = min minorBase (layout ms).length := by
    rw [length_flatten_of_singles, List.length_take]
    intro p hp
    obtain ⟨i, hi, rfl⟩ := List.mem_iff_getElem.1 hp
    rw [List.length_take] at hi
    rw [List.getElem_take]
    exact hshape.single i _ (List.getElem?_eq_getElem (by omega)) (by omega)
  rcases le_total minorBase (layout ms).length with hle | hle
  · rw [min_eq_left hle] at hfront
    have hdrop := congrArg (List.drop minorBase) hsplit
    rwa [List.drop_left' hfront] at hdrop
  · rw [List.drop_eq_nil_of_le hle] at hsplit ⊢
    rw [List.flatten_nil, List.append_nil] at hsplit
    rw [hsplit] at hfront
    rw [List.flatten_nil, List.drop_eq_nil_of_le (by omega)]

/-! ## The tables behind a layout -/

/-- Memtables have their keys in order. -/
theorem sorted_entries {ms : List BufferMap} : ∀ t ∈ ms.map SortedMap.entries, Sorted t := by
  intro t ht
  obtain ⟨m, -, rfl⟩ := List.mem_map.1 ht
  exact m.sorted

theorem sorted_mergeAll (ms : List BufferMap) : Sorted (mergeAll ms) :=
  sorted_foldMerge sorted_entries

@[simp] theorem mergeAll_singleton (m : BufferMap) : mergeAll [m] = m.entries :=
  foldMerge_singleton m.entries

theorem length_mergeAll (ms : List BufferMap) :
    (mergeAll ms).length = mergedSize (ms.map SortedMap.entries) :=
  length_foldMerge sorted_entries

/-- **The runs of a layout answer like the memtables flushed**, newest first. -/
theorem newest_contents (parts : List (List BufferMap)) {k : Key} (hk : k ≠ tombstome) :
    newest ((contents parts).map RunContent.pairs) k =
      newest (parts.flatten.map SortedMap.entries) k := by
  have hgroups := newest_map_of_groups foldMerge k (parts.map (List.map SortedMap.entries)) (by
    intro g hg
    obtain ⟨p, -, rfl⟩ := List.mem_map.1 hg
    exact lookup_foldMerge sorted_entries hk)
  rw [List.map_map, ← List.map_flatten] at hgroups
  rw [map_pairs_contents]
  exact hgroups

/-- The table a minor compaction computes is the merge of the memtables it
covers. -/
theorem compacted_minor {parts : List (List BufferMap)} (h : Shape parts) :
    compacted (contents parts) (minorCompactionLevelNum - 1) =
      mergeAll (parts.drop minorBase).flatten := by
  have hpairs : ((contents parts).drop minorBase).map RunContent.pairs =
      (parts.drop minorBase).map mergeAll := by
    rw [List.map_drop, map_pairs_contents, List.map_drop]
  refine (congrArg foldMerge hpairs).trans ?_
  cases hd : parts.drop minorBase with
  | nil => rfl
  | cons p ps =>
    have hsingles : ps.map mergeAll = ps.flatten.map SortedMap.entries := by
      have hall : ∀ q ∈ ps, ∃ m, q = [m] := by
        intro q hq
        obtain ⟨j, hj, rfl⟩ := List.mem_iff_getElem.1 hq
        refine h.single (minorBase + (j + 1)) _ ?_ (by omega)
        rw [← List.getElem?_drop, hd, List.getElem?_cons_succ, List.getElem?_eq_getElem hj]
      clear hd
      induction ps with
      | nil => rfl
      | cons q qs ih =>
        obtain ⟨m, rfl⟩ := hall q (List.mem_cons_self ..)
        rw [List.map_cons, mergeAll_singleton, ih fun r hr => hall r (List.mem_cons_of_mem _ hr)]
        rfl
    rw [List.map_cons, hsingles, mergeAll, foldMerge_cons_foldMerge, List.flatten_cons, mergeAll,
      List.map_append]

theorem afterCompaction_minor {parts : List (List BufferMap)} (h : Shape parts)
    (hlen : minorBase ≤ parts.length) :
    afterCompaction (contents parts) (minorCompactionLevelNum - 1) =
      contents (minorCompact parts) := by
  have htake : (parts.take minorBase).length = minorBase := by
    rw [List.length_take]
    omega
  rw [afterCompaction, compacted_minor h, minorCompact, contents_concat, htake, ← contents_take]
  rfl

/-- A merge that covers a memtable of three keys has something to write. -/
theorem one_lt_length_mergeAll {ms : List BufferMap} {m : BufferMap} (hm : m ∈ ms)
    (hsize : 3 ≤ m.size) : 1 < (mergeAll ms).length := by
  have hsub : plainKeys m.entries ⊆ distinctKeys (ms.map SortedMap.entries) := by
    intro k hk
    exact mem_distinctKeys.2 ⟨m.entries, List.mem_map_of_mem hm, hk⟩
  have hcard := Finset.card_le_card hsub
  have hlen : m.size = _ := length_eq_card m.sorted
  have hmin := Bool.toNat_le (holdsMin m.entries)
  rw [length_mergeAll, mergedSize]
  omega

/-! ## The machine and the store -/

/-- **The store is in the state the machine computes** from its flush history. -/
structure Holds (w : World) : Prop where
  /-- The runs hold the layout of the history. -/
  rep : Rep w.store (Slots.ofList (contents (layout w.flushed)))
  /-- The temporary page is clear. -/
  temp : pageAt w.store.disk.tempIo 0 = zeroData
  /-- The log is at rest. -/
  log : ∃ bs, LogState w.store bs
  /-- `sstable.db` has no other pages in use. -/
  stray : NoStrayPages w.store

/-- The flush of one more memtable must compact first, and the merge does not
fit a page. -/
def Overflows (ms : List BufferMap) : Prop :=
  (layout ms).length = totalNonOverflowPages ∧ ¬ FitsPage (mergeAll (ms.drop minorBase))

theorem length_contents_layout (ms : List BufferMap) :
    (contents (layout ms)).length ≤ totalNonOverflowPages := by
  rw [length_contents]
  exact (layout_shape _).length_le

section Flush

variable {w : World} {cs : List RunContent} {m : BufferMap}

/-- Dumping a memtable while a run is available. -/
theorem dumpSSTable_spec (hrep : Rep w.store (Slots.ofList cs))
    (hlen : cs.length < totalNonOverflowPages) (hm : FitsPage m.entries) :
    ∃ s', run World.handle (onStore (SSTableManager.dumpSSTable m)) w =
        .ok (true, ⟨s', w.flushed ++ [m]⟩) ∧
      Rep s' (Slots.ofList (cs ++ [RunContent.ofTable cs.length m.entries])) ∧
      StoreFrame w.store s' ∧ s'.disk.tempIo = w.store.disk.tempIo := by
  obtain ⟨s', hdump, hrep', hframe, htemp⟩ :=
    dumpBuffer_spec hrep hlen (Slots.ofList_of_le le_rfl) hm
  rw [Slots.update_ofList] at hrep'
  have hfind : run World.handleStore SSTableManager.getAvaiRun w =
      .ok (some (fillPos cs.length), w) := by
    rw [← World.run_onStore, World.run_onStore_of_pure (pure_getAvaiRun fun _ _ => rfl),
      run_getAvaiRun hrep,
      if_pos hlen]
    rfl
  refine ⟨s', ?_, hrep', hframe, htemp⟩
  have hcall : World.handleStore (.dumpBuffer (fillPos cs.length).1 (fillPos cs.length).2 m) w =
      .ok ((), ⟨s', w.flushed ++ [m]⟩) := by
    unfold World.handleStore
    rw [hdump]
    rfl
  rw [World.run_onStore, SSTableManager.dumpSSTable, run_bind_of_ok hfind]
  exact run_bind_of_ok ((run_op ..).trans hcall)

/-- Dumping a memtable while every run is used. -/
theorem dumpSSTable_full (hrep : Rep w.store (Slots.ofList cs))
    (hlen : totalNonOverflowPages ≤ cs.length) :
    run World.handle (onStore (SSTableManager.dumpSSTable m)) w = .ok (false, w) := by
  have hfind : run World.handleStore SSTableManager.getAvaiRun w = .ok (none, w) := by
    rw [← World.run_onStore, World.run_onStore_of_pure (pure_getAvaiRun fun _ _ => rfl),
      run_getAvaiRun hrep,
      if_neg (by omega)]
    rfl
  rw [World.run_onStore, SSTableManager.dumpSSTable, run_bind_of_ok hfind]
  rfl

variable (hw : Holds w) (hfull : ∀ m' ∈ w.flushed, m'.size = maxBufferSize)

include hw in
/-- With a run available the first round of the loop is the last. -/
theorem dumpLoop_of_lt (hm : FitsPage m.entries)
    (hlt : (layout w.flushed).length < totalNonOverflowPages) (fuel : Nat) :
    ∃ s', run World.handle (dumpLoop (fuel + 1) m) w = .ok ((), ⟨s', w.flushed ++ [m]⟩) ∧
      Holds ⟨s', w.flushed ++ [m]⟩ ∧ StoreFrame w.store s' := by
  obtain ⟨s', hdump, hrep, hframe, htemp⟩ := dumpSSTable_spec hw.rep (by simpa using hlt) hm
  refine ⟨s', ?_, ⟨?_, ?_, ?_, hframe.noStrayPages hw.stray⟩, hframe⟩
  · rw [dumpLoop, run_bind_of_ok hdump]
    rfl
  · rw [layout_concat, flushStep, if_pos hlt, contents_concat, mergeAll_singleton]
    rwa [length_contents] at hrep
  · rw [htemp]
    exact hw.temp
  · exact hframe.logState hw.log

include hw hfull in
/-- The minor compaction the loop asks for when every run is used. -/
theorem run_minor_of_full (hge : (layout w.flushed).length = totalNonOverflowPages)
    (hfits : FitsPage (mergeAll (w.flushed.drop minorBase))) :
    ∃ s', run World.handle requestMinorCompaction w = .ok ((), ⟨s', w.flushed⟩) ∧
      Rep s' (Slots.ofList (contents (minorCompact (layout w.flushed)))) ∧
      StoreFrame w.store s' ∧ pageAt s'.disk.tempIo 0 = zeroData := by
  have hshape := layout_shape w.flushed
  have hbase : minorBase ≤ (layout w.flushed).length := by rw [hge]; decide
  have hcompacted := compacted_minor hshape
  rw [flatten_drop_layout] at hcompacted
  have hsize :
      1 < (compacted (contents (layout w.flushed)) (minorCompactionLevelNum - 1)).length := by
    have hlen := ((layout_full_iff _).1 hge).1
    have hlt : minorBase < w.flushed.length := by
      rw [minorBase_eq]
      omega
    have hmem : w.flushed[minorBase] ∈ w.flushed.drop minorBase := by
      rw [List.drop_eq_getElem_cons hlt]
      exact List.mem_cons_self ..
    rw [hcompacted]
    refine one_lt_length_mergeAll hmem ?_
    rw [hfull _ (List.mem_of_mem_drop hmem)]
    decide
  have hstart : minorCompactionLevelNum - 1 < maxLevelNum := by decide
  obtain ⟨s', hrun, hrep, hframe, htemp⟩ :=
    launchCompactionImpl_spec hw.rep (length_contents_layout _) hstart hsize (by rwa [hcompacted])
  rw [afterCompaction_minor hshape hbase] at hrep
  refine ⟨s', ?_, hrep, hframe, htemp⟩
  refine (World.run_request .minor w).trans ?_
  rw [launch, launchMinorCompaction, hrun]
  rfl

include hw hfull in
/-- **Flushing a memtable refines the machine**: unless the merge it needs
overflows, the loop ends after at most one compaction with the memtable in the
run the machine says. -/
theorem dumpLoop_spec (hm : FitsPage m.entries) (hno : ¬ Overflows w.flushed) (fuel : Nat) :
    ∃ s', run World.handle (dumpLoop (fuel + 2) m) w = .ok ((), ⟨s', w.flushed ++ [m]⟩) ∧
      Holds ⟨s', w.flushed ++ [m]⟩ ∧ StoreFrame w.store s' := by
  rcases (layout_shape w.flushed).length_le.lt_or_eq with hlt | hge
  · exact dumpLoop_of_lt hw hm hlt (fuel + 1)
  · have hfits : FitsPage (mergeAll (w.flushed.drop minorBase)) := by
      by_contra hfits
      exact hno ⟨hge, hfits⟩
    have hbase : minorBase ≤ (layout w.flushed).length := by rw [hge]; decide
    obtain ⟨s₁, hminor, hrep₁, hframe₁, htemp₁⟩ := run_minor_of_full hw hfull hge hfits
    have hlen₁ : (contents (minorCompact (layout w.flushed))).length < totalNonOverflowPages := by
      rw [length_contents, length_minorCompact hbase]
      decide
    obtain ⟨s', hdump, hrep, hframe, htemp⟩ :=
      dumpSSTable_spec (w := ⟨s₁, w.flushed⟩) hrep₁ hlen₁ hm
    refine ⟨s', ?_, ⟨?_, ?_, ?_, (hframe₁.trans hframe).noStrayPages hw.stray⟩,
      hframe₁.trans hframe⟩
    · have hno_run : run World.handle (onStore (SSTableManager.dumpSSTable m)) w = .ok (false, w) :=
        dumpSSTable_full hw.rep (by rw [length_contents, hge])
      rw [dumpLoop, run_bind_of_ok hno_run]
      refine (run_bind_of_ok hminor).trans ?_
      rw [dumpLoop, run_bind_of_ok hdump]
      rfl
    · rw [layout_concat, flushStep, if_neg (by omega), contents_concat, mergeAll_singleton]
      rwa [length_contents] at hrep
    · rw [htemp]
      exact htemp₁
    · exact (hframe₁.trans hframe).logState hw.log

include hw in
/-- **When the merge does not fit its page** the loop overflows it. -/
theorem dumpLoop_overflow (ho : Overflows w.flushed) (fuel : Nat) :
    run World.handle (dumpLoop (fuel + 1) m) w = .error .pageOverflow := by
  obtain ⟨hge, hfits⟩ := ho
  have hshape := layout_shape w.flushed
  have hcompacted := compacted_minor hshape
  rw [flatten_drop_layout] at hcompacted
  have hminor : run World.handle requestMinorCompaction w = .error .pageOverflow := by
    refine (World.run_request .minor w).trans ?_
    rw [launch, launchMinorCompaction, launchCompactionImpl_overflow hw.rep
      (length_contents_layout _) (by decide) (by rwa [hcompacted])]
    rfl
  have hno_run : run World.handle (onStore (SSTableManager.dumpSSTable m)) w = .ok (false, w) :=
    dumpSSTable_full hw.rep (by rw [length_contents, hge])
  rw [dumpLoop, run_bind_of_ok hno_run]
  exact run_bind_of_error hminor

end Flush

end GhostDB
