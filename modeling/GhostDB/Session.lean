import GhostDB.Db

/-!
# A client's session

What a sequence of calls on a database does, in terms of the memtables its
writes are cut into.

* `bufferStep`, `splitWrites` — the rule by which writes fill memtables.
* `put_spec` — `Put` follows the rule and keeps the store in the state the
  machine of `GhostDB.Layout` computes, or overflows a page.
* `get_spec` — `Get` answers from the memtable and the memtables flushed, newest
  first, or runs past the end of a table.
* `construct_new` — a new database is empty.
-/

namespace GhostDB

open Prog SortedTable

/-! ## Cutting writes into memtables -/

theorem Buffer.not_refuses_empty (key : Key) : ¬ Buffer.empty.Refuses key :=
  fun h => absurd h.1 (by decide)

/-- One write: into the memtable, or, when that is full, into a new one after
the old one is flushed. -/
def bufferStep (st : List BufferMap × Buffer) (r : MappingType) : List BufferMap × Buffer :=
  if h : st.2.Refuses r.1 then
    (st.1 ++ [st.2.kv], Buffer.empty.insert r.1 r.2 (Buffer.not_refuses_empty r.1))
  else (st.1, st.2.insert r.1 r.2 h)

/-- The memtables flushed by a sequence of writes, and the one being filled. -/
def splitWrites (ws : List MappingType) : List BufferMap × Buffer :=
  ws.foldl bufferStep ([], Buffer.empty)

theorem splitWrites_concat (ws : List MappingType) (r : MappingType) :
    splitWrites (ws ++ [r]) = bufferStep (splitWrites ws) r := by
  rw [splitWrites, List.foldl_concat, splitWrites]

/-- The last value written under a key. -/
def lastWrite (ws : List MappingType) (key : Key) : Option Val := ws.reverse.lookup key

theorem lastWrite_concat (ws : List MappingType) (r : MappingType) (key : Key) :
    lastWrite (ws ++ [r]) key = if key = r.1 then some r.2 else lastWrite ws key := by
  rw [lastWrite, List.reverse_concat, lookup_cons_eq, lastWrite]

/-- All tables of a split, oldest first, the memtable last. -/
def tablesOf (st : List BufferMap × Buffer) : List SSTable :=
  st.1.map SortedMap.entries ++ [st.2.kv.entries]

theorem newest_tablesOf (st : List BufferMap × Buffer) (key : Key) :
    newest (tablesOf st) key =
      (st.2.kv.lookup key).or (newest (st.1.map SortedMap.entries) key) := by
  rw [tablesOf, newest_append, newest_singleton]
  rfl

/-- One write changes the newest value of its key and of no other. -/
theorem newest_bufferStep (st : List BufferMap × Buffer) (r : MappingType) (key : Key) :
    newest (tablesOf (bufferStep st r)) key =
      if key = r.1 then some r.2 else newest (tablesOf st) key := by
  rw [newest_tablesOf, newest_tablesOf, bufferStep]
  split
  next h =>
    simp only [Buffer.insert, SortedMap.lookup_insert]
    by_cases hk : key = r.1
    · rw [if_pos hk, if_pos hk]
      rfl
    · rw [if_neg hk, if_neg hk, List.map_append, newest_append, List.map_singleton,
        newest_singleton]
      rfl
  next h =>
    simp only [Buffer.insert, SortedMap.lookup_insert]
    by_cases hk : key = r.1
    · rw [if_pos hk, if_pos hk]
      rfl
    · rw [if_neg hk, if_neg hk]

/-- **No write is lost in the cut**: the newest value of a key in the memtables
is the last one written. -/
theorem newest_splitWrites (ws : List MappingType) (key : Key) :
    newest (tablesOf (splitWrites ws)) key = lastWrite ws key := by
  induction ws using List.reverseRecOn with
  | nil => rfl
  | append_singleton ws r ih =>
    rw [splitWrites_concat, newest_bufferStep, ih, lastWrite_concat]

/-- Every flushed memtable was full. -/
theorem size_of_mem_splitWrites {ws : List MappingType} {m : BufferMap}
    (h : m ∈ (splitWrites ws).1) : m.size = maxBufferSize := by
  induction ws using List.reverseRecOn with
  | nil => cases h
  | append_singleton ws r ih =>
    rw [splitWrites_concat, bufferStep] at h
    split at h
    next hr =>
      rcases List.mem_append.1 h with hm | hm
      · exact ih hm
      · rw [List.mem_singleton.1 hm]
        exact hr.1
    next => exact ih h

/-! ## Calls that only touch the log -/

/-- A call on the log keeps the store in the machine's state. -/
theorem Holds.log_call {w : World} (hw : Holds w) {p : Prog StoreSig Unit}
    (hp : Pure StoreOp.isFlush p)
    (hrun : ∀ s bs, LogState s bs →
      ∃ s' bs', run Store.handle p s = .ok ((), s') ∧ LogState s' bs' ∧ RunFrame s s') :
    ∃ s', run World.handle (onStore p) w = .ok ((), ⟨s', w.flushed⟩) ∧
      Holds ⟨s', w.flushed⟩ := by
  obtain ⟨bs, hlog⟩ := hw.log
  obtain ⟨s', bs', hok, hlog', hframe⟩ := hrun w.store bs hlog
  refine ⟨s', ?_, ⟨hframe.rep hw.rep, ?_, ⟨bs', hlog'⟩, hframe.noStrayPages hw.stray⟩⟩
  · rw [World.run_onStore_of_pure hp, hok]
    rfl
  · rw [hframe.tempIo]
    exact hw.temp

theorem Holds.appendLogRecord {w : World} (hw : Holds w) (key : Key) (val : Val) :
    ∃ s', run World.handle (onStore (GhostDB.appendLogRecord key val)) w =
        .ok ((), ⟨s', w.flushed⟩) ∧ Holds ⟨s', w.flushed⟩ := by
  refine hw.log_call ⟨rfl, fun _ => trivial⟩ ?_
  intro s bs h
  obtain ⟨s', hrun, hlog, hframe⟩ := appendLogRecord_state h key val
  exact ⟨s', _, hrun, hlog, hframe⟩

theorem Holds.flushWAL {w : World} (hw : Holds w) :
    ∃ s', run World.handle (onStore GhostDB.flushWAL) w = .ok ((), ⟨s', w.flushed⟩) ∧
      Holds ⟨s', w.flushed⟩ := by
  refine hw.log_call ⟨rfl, fun _ => trivial⟩ ?_
  intro s bs h
  obtain ⟨s', hrun, hlog, -, hframe⟩ := flushWAL_state h
  exact ⟨s', _, hrun, hlog, hframe⟩

theorem Holds.clearLog {w : World} (hw : Holds w) :
    ∃ s', run World.handle (onStore GhostDB.clearLog) w = .ok ((), ⟨s', w.flushed⟩) ∧
      Holds ⟨s', w.flushed⟩ := by
  refine hw.log_call ⟨rfl, fun _ => trivial⟩ ?_
  intro s bs h
  obtain ⟨s', hrun, hlog, hframe⟩ := clearLog_state h
  exact ⟨s', _, hrun, hlog, hframe⟩

/-! ## Put -/

theorem Buffer.fitsPage (b : Buffer) : FitsPage b.kv.entries := by
  have hle : b.kv.entries.length ≤ 5 := b.size_le
  exact fitsPage_iff.2 (by omega)

section Put

variable {w : World} (hw : Holds w) (hfull : ∀ m ∈ w.flushed, m.size = maxBufferSize)

include hw in
/-- A write the memtable has room for. -/
theorem put_of_room (b : Buffer) {r : MappingType} (h : ¬ b.Refuses r.1) (fuel : Nat) :
    ∃ s', run World.handle (Db.put (fuel + 1) b r.1 r.2) w =
        .ok (b.insert r.1 r.2 h, ⟨s', w.flushed⟩) ∧ Holds ⟨s', w.flushed⟩ := by
  obtain ⟨s', hrun, hw'⟩ := hw.appendLogRecord r.1 r.2
  have hput : run World.handle (b.put r.1 r.2) w =
      .ok (some (b.insert r.1 r.2 h), ⟨s', w.flushed⟩) := by
    rw [Buffer.put, dif_neg h, run_bind_of_ok hrun]
    rfl
  refine ⟨s', ?_, hw'⟩
  rw [Db.put, run_bind_of_ok hput]
  rfl

include hw hfull in
/-- **A write that flushes the memtable first**: it ends after one flush, in the
state the machine computes. -/
theorem put_flush_spec (b : Buffer) {r : MappingType} (h : b.Refuses r.1)
    (hno : ¬ Overflows w.flushed) (fuel : Nat) :
    ∃ s', run World.handle (Db.put (fuel + 2) b r.1 r.2) w =
        .ok (Buffer.empty.insert r.1 r.2 (Buffer.not_refuses_empty r.1),
          ⟨s', w.flushed ++ [b.kv]⟩) ∧ Holds ⟨s', w.flushed ++ [b.kv]⟩ := by
  have hput : run World.handle (b.put r.1 r.2) w = .ok (none, w) := by
    rw [Buffer.put, dif_pos h]
    rfl
  obtain ⟨s₁, hflush, hw₁⟩ := hw.flushWAL
  obtain ⟨s₂, hdump, hw₂, -⟩ := dumpLoop_spec hw₁ hfull b.fitsPage hno fuel
  obtain ⟨s₃, hclear, hw₃⟩ := hw₂.clearLog
  obtain ⟨s', hagain, hw'⟩ := put_of_room hw₃ Buffer.empty (Buffer.not_refuses_empty r.1) fuel
  refine ⟨s', ?_, hw'⟩
  rw [Db.put, run_bind_of_ok hput]
  refine (run_bind_of_ok hflush).trans ?_
  refine (run_bind_of_ok hdump).trans ?_
  exact (run_bind_of_ok hclear).trans hagain

include hw in
/-- **A write whose flush needs a compaction that does not fit** overflows a
page. -/
theorem put_overflow (b : Buffer) {r : MappingType} (h : b.Refuses r.1) (ho : Overflows w.flushed)
    (fuel : Nat) :
    run World.handle (Db.put (fuel + 1) b r.1 r.2) w = .error .pageOverflow := by
  have hput : run World.handle (b.put r.1 r.2) w = .ok (none, w) := by
    rw [Buffer.put, dif_pos h]
    rfl
  obtain ⟨s₁, hflush, hw₁⟩ := hw.flushWAL
  have hdump : run World.handle (dumpLoop (fuel + 1) b.kv) ⟨s₁, w.flushed⟩ =
      .error .pageOverflow := dumpLoop_overflow hw₁ ho fuel
  rw [Db.put, run_bind_of_ok hput]
  refine (run_bind_of_ok hflush).trans ?_
  exact run_bind_of_error hdump

include hw hfull in
/-- **`Put` refines the rule**: it overflows a page exactly when it has to flush
and the flush has to merge too much, and otherwise ends in the state the rule
and the machine compute. -/
theorem put_spec (b : Buffer) (r : MappingType) (fuel : Nat) :
    (b.Refuses r.1 ∧ Overflows w.flushed ∧
      run World.handle (Db.put (fuel + 2) b r.1 r.2) w = .error .pageOverflow) ∨
    (¬ (b.Refuses r.1 ∧ Overflows w.flushed) ∧
      ∃ s', run World.handle (Db.put (fuel + 2) b r.1 r.2) w =
          .ok ((bufferStep (w.flushed, b) r).2, ⟨s', (bufferStep (w.flushed, b) r).1⟩) ∧
        Holds ⟨s', (bufferStep (w.flushed, b) r).1⟩) := by
  by_cases h : b.Refuses r.1
  · by_cases ho : Overflows w.flushed
    · exact .inl ⟨h, ho, put_overflow hw b h ho (fuel + 1)⟩
    · refine .inr ⟨fun hh => ho hh.2, ?_⟩
      rw [bufferStep, dif_pos h]
      exact put_flush_spec hw hfull b h ho fuel
  · refine .inr ⟨fun hh => h hh.1, ?_⟩
    rw [bufferStep, dif_neg h]
    exact put_of_room hw b h (fuel + 1)

end Put

/-! ## Get -/

/-- A value as a client sees it. -/
def visible (val : Val) : Option Val := if val = tombstome then none else some val

/-- The search of `Get` through the contents of the used runs, newest first. -/
def scan (key : Key) : List RunContent → Except Fault (Option (Option Val))
  | [] => .ok none
  | c :: older =>
    if c.filter.couldHasKey key then
      match Db.lowerBoundPair c.pairs (key, tombstome) with
      | [] => .error .endIterator
      | it :: _ => if it.1 = key then .ok (some (visible it.2)) else scan key older
    else scan key older

/-- `TOMBSTOME` is the smallest value, so the search goes by the key. -/
theorem lowerBoundPair_eq (t : SSTable) (key : Key) :
    Db.lowerBoundPair t (key, tombstome) = lowerBound key t := by
  have hpair : (fun p => Db.pairLt p (key, tombstome)) =
      fun p : MappingType => decide (p.1 < key) := by
    funext p
    have hmin : ¬ p.2 < tombstome := by
      rw [Int32.lt_iff_toInt_lt, tombstome, Int32.toInt_minValue]
      have hle := Int32.le_toInt p.2
      omega
    simp [Db.pairLt, hmin]
  rw [Db.lowerBoundPair, hpair, lowerBound]

section Search

variable {w : World} {cs : List RunContent}

theorem pure_loadSSTable (level run : Nat) :
    Pure StoreOp.isFlush (SSTableManager.loadSSTable level run) := ⟨rfl, fun _ => trivial⟩

/-- Loading an empty run. -/
theorem run_load_empty (hrep : Rep w.store (Slots.ofList cs)) {i : Nat}
    (hi : i < totalNonOverflowPages) (hge : cs.length ≤ i) :
    run World.handle (onStore (SSTableManager.loadSSTable (fillPos i).1 (fillPos i).2)) w =
      .ok (none, w) := by
  rw [World.run_onStore_of_pure (pure_loadSSTable _ _),
    load_none hrep hi (Slots.ofList_of_le hge)]
  rfl

/-- Loading a used run. -/
theorem run_load_used (hrep : Rep w.store (Slots.ofList cs)) {i : Nat}
    (hi : i < totalNonOverflowPages) (hlt : i < cs.length) :
    ∃ p, run World.handle
        (onStore (SSTableManager.loadSSTable (fillPos i).1 (fillPos i).2)) w =
      .ok (some (cs[i].filter, cs[i].pairs), ⟨w.store.withPos p, w.flushed⟩) := by
  obtain ⟨p, hload⟩ := load_spec hrep hi (Slots.ofList_of_lt hlt)
  refine ⟨p, ?_⟩
  rw [World.run_onStore_of_pure (pure_loadSSTable _ _), hload]
  rfl

/-- Searching an empty run. -/
theorem run_searchRun_empty (hrep : Rep w.store (Slots.ofList cs)) {i : Nat}
    (hi : i < totalNonOverflowPages) (hge : cs.length ≤ i) (key : Key) :
    run World.handle (Db.searchRun key (fillPos i).1 (fillPos i).2) w = .ok (none, w) := by
  rw [Db.searchRun, run_bind_of_ok (run_load_empty hrep hi hge)]
  rfl

/-- Searching a used run is one step of `scan`. -/
theorem run_searchRun_used (hrep : Rep w.store (Slots.ofList cs)) {i : Nat}
    (hi : i < totalNonOverflowPages) (hlt : i < cs.length) (key : Key) :
    ∃ p, run World.handle (Db.searchRun key (fillPos i).1 (fillPos i).2) w =
      (scan key [cs[i]]).map fun o => (o, ⟨w.store.withPos p, w.flushed⟩) := by
  obtain ⟨p, hload⟩ := run_load_used hrep hi hlt
  refine ⟨p, ?_⟩
  rw [Db.searchRun, run_bind_of_ok hload]
  simp only [scan]
  by_cases hcould : cs[i].filter.couldHasKey key = true
  · rw [if_pos hcould, if_pos hcould]
    cases Db.lowerBoundPair cs[i].pairs (key, tombstome) with
    | nil => rfl
    | cons it rest =>
      simp only
      by_cases hit : it.1 = key
      · rw [if_pos hit, if_pos hit]
        rfl
      · rw [if_neg hit, if_neg hit]
        rfl
  · rw [if_neg hcould, if_neg hcould]
    rfl

/-- The first step of a search decides, or the rest of it does. -/
theorem scan_cons (key : Key) (c : RunContent) (older : List RunContent) :
    scan key (c :: older) = (scan key [c]).bind fun o =>
      match o with
      | some found => .ok (some found)
      | none => scan key older := by
  simp only [scan]
  split
  next =>
    split
    next => rfl
    next => split <;> rfl
  next => rfl

/-- **The search of `Get`** over the first `n` positions. -/
theorem run_scan (n : Nat) : ∀ (w : World), Rep w.store (Slots.ofList cs) →
    n ≤ totalNonOverflowPages → ∀ key, ∃ p, run World.handle
      (firstSome (fun i => Db.searchRun key (fillPos i).1 (fillPos i).2) (List.range n).reverse) w =
      (scan key (cs.take n).reverse).map fun o => (o, ⟨w.store.withPos p, w.flushed⟩) := by
  induction n with
  | zero =>
    intro w hrep hn key
    exact ⟨w.store.disk.dbIo.pos, rfl⟩
  | succ n ih =>
    intro w hrep hn key
    rw [List.range_succ, List.reverse_concat, firstSome]
    by_cases hlt : n < cs.length
    · obtain ⟨p, hstep⟩ := run_searchRun_used hrep hn hlt key
      have htake : (cs.take (n + 1)).reverse = cs[n] :: (cs.take n).reverse := by
        rw [List.take_succ_eq_append_getElem hlt, List.reverse_concat]
      rw [htake, scan_cons]
      cases hscan : scan key [cs[n]] with
      | error e =>
        rw [hscan] at hstep
        exact ⟨0, run_bind_of_error hstep⟩
      | ok o =>
        rw [hscan] at hstep
        cases o with
        | some found => exact ⟨p, run_bind_of_ok hstep⟩
        | none =>
          obtain ⟨q, hrest⟩ := ih ⟨w.store.withPos p, w.flushed⟩ (hrep.withPos p) (by omega) key
          exact ⟨q, (run_bind_of_ok hstep).trans hrest⟩
    · have hge := not_lt.1 hlt
      obtain ⟨p, hrest⟩ := ih w hrep (by omega) key
      refine ⟨p, ?_⟩
      rw [run_bind_of_ok (run_searchRun_empty hrep hn hge key), List.take_of_length_le (by omega)]
      rw [List.take_of_length_le hge] at hrest
      exact hrest

/-- Levels from the top, the runs of each from right to left: the fill order from
its end. -/
theorem runsDown_order :
    (List.range maxLevelNum).flatMap (fun levelNo =>
      (Db.runsDown levelNo).map fun runNo => (levelNo, runNo)) =
    (List.range totalNonOverflowPages).reverse.map fillPos := by decide

/-- The double loop of `Get` goes through the fill order from its end. -/
theorem get_loop_eq (key : Key) :
    (firstSome (fun levelNo => firstSome (fun runNo => Db.searchRun key levelNo runNo)
      (Db.runsDown levelNo)) (List.range maxLevelNum)) =
    firstSome (fun i => Db.searchRun key (fillPos i).1 (fillPos i).2)
      (List.range totalNonOverflowPages).reverse := by
  have hlevel : ∀ levelNo, firstSome (fun runNo => Db.searchRun key levelNo runNo)
      (Db.runsDown levelNo) = firstSome (fun p : Nat × Nat => Db.searchRun key p.1 p.2)
        ((Db.runsDown levelNo).map fun runNo => (levelNo, runNo)) := by
    intro levelNo
    rw [firstSome_map]
  simp only [hlevel]
  rw [firstSome_flatMap, runsDown_order, firstSome_map]

end Search

/-- A run whose pairs are in order and whose filter was built from them. -/
def Honest (c : RunContent) : Prop := Sorted c.pairs ∧ c.filter = bloomOf c.pairs

/-- The runs of a layout are. -/
theorem honest_contents (parts : List (List BufferMap)) : ∀ c ∈ contents parts, Honest c := by
  intro c hc
  obtain ⟨i, hi, rfl⟩ := List.mem_mapIdx.1 hc
  exact ⟨sorted_mergeAll _, rfl⟩

/-- The filter of a run never hides one of its keys. -/
theorem Honest.lookup_eq_none {c : RunContent} (h : Honest c) {key : Key}
    (hno : c.filter.couldHasKey key = false) : c.pairs.lookup key = none := by
  by_contra hsome
  obtain ⟨q, hq, rfl⟩ := lookup_ne_none_iff.1 hsome
  have hcould : c.filter.couldHasKey q.1 = true := by
    rw [h.2]
    exact Bloom.couldHasKey_ofKeys (List.mem_map_of_mem hq)
  rw [hcould] at hno
  cases hno

/-- **The search finds the newest value**, unless it runs past the end of a
table. -/
theorem scan_spec {cs : List RunContent} (h : ∀ c ∈ cs, Honest c) (key : Key) :
    scan key cs.reverse = .error .endIterator ∨
      scan key cs.reverse = .ok ((newest (cs.map RunContent.pairs) key).map visible) := by
  induction cs using List.reverseRecOn with
  | nil => exact .inr rfl
  | append_singleton cs c ih =>
    have hc := h c (by simp)
    have holder := ih fun c' hc' => h c' (by simp [hc'])
    rw [List.reverse_concat, scan, List.map_append, List.map_singleton, newest_append,
      newest_singleton]
    by_cases hcould : c.filter.couldHasKey key = true
    · rw [if_pos hcould, lowerBoundPair_eq]
      cases hlb : lowerBound key c.pairs with
      | nil => exact .inl rfl
      | cons it rest =>
        have hlookup := lookup_of_lowerBound_cons hc.1 hlb
        by_cases hit : it.1 = key
        · rw [if_pos hit] at hlookup
          simp only [if_pos hit, hlookup]
          exact .inr rfl
        · rw [if_neg hit] at hlookup
          simp only [if_neg hit, hlookup]
          exact holder
    · rw [if_neg hcould, hc.lookup_eq_none (by simpa using hcould)]
      exact holder

/-- Reading keeps the store in its state. -/
theorem Holds.withPos {w : World} (hw : Holds w) (p : Nat) :
    Holds ⟨w.store.withPos p, w.flushed⟩ :=
  ⟨hw.rep.withPos p, hw.temp, (StoreFrame.withPos w.store p).logState hw.log, hw.stray⟩

/-- `Get` in terms of the memtable and the search. -/
theorem run_get {w : World} (hw : Holds w) (b : Buffer) (key : Key) :
    ∃ p, run World.handle (Db.get b key) w =
      match b.get key with
      | some val => .ok (val, w)
      | none => (scan key (contents (layout w.flushed)).reverse).map fun found =>
          (found.getD none, ⟨w.store.withPos p, w.flushed⟩) := by
  obtain ⟨p, hscan⟩ := run_scan totalNonOverflowPages w hw.rep le_rfl key
  rw [List.take_of_length_le (length_contents_layout _)] at hscan
  refine ⟨p, ?_⟩
  rw [Db.get]
  cases b.get key with
  | some val => rfl
  | none =>
    simp only
    rw [get_loop_eq]
    cases hs : scan key (contents (layout w.flushed)).reverse with
    | error e =>
      rw [hs] at hscan
      exact run_bind_of_error hscan
    | ok found =>
      rw [hs] at hscan
      exact run_bind_of_ok hscan

/-- **`Get` answers with the newest value**, as a client sees it, and leaves the
store in its state. -/
theorem get_spec {w : World} (hw : Holds w) (b : Buffer) {key : Key} (hk : key ≠ tombstome) :
    run World.handle (Db.get b key) w = .error .endIterator ∨
      ∃ s', run World.handle (Db.get b key) w =
          .ok ((newest (tablesOf (w.flushed, b)) key).bind visible, ⟨s', w.flushed⟩) ∧
        Holds ⟨s', w.flushed⟩ := by
  obtain ⟨p, hrun⟩ := run_get hw b key
  have hnewest := newest_contents (layout w.flushed) hk
  rw [flatten_layout] at hnewest
  have hholds := hw.withPos p
  rw [hrun, newest_tablesOf]
  cases hb : b.kv.lookup key with
  | some val =>
    refine .inr ⟨w.store, ?_, hw⟩
    rw [Buffer.get, hb]
    rfl
  | none =>
    have hget : b.get key = none := by
      rw [Buffer.get, hb]
      rfl
    rw [hget]
    rcases scan_spec (honest_contents (layout w.flushed)) key with herr | hok
    · rw [herr]
      exact .inl rfl
    · rw [hok, hnewest]
      refine .inr ⟨w.store.withPos p, ?_, hholds⟩
      cases newest (w.flushed.map SortedMap.entries) key <;> rfl

/-! ## A new database -/

/-- The log file of a new database is empty, so there is nothing to recover. -/
theorem recoverWAL_empty {w : World} (h : w.store.disk.logIo.bytes = []) (fuel : Nat) :
    RecoveryManager.recoverWAL fuel w = .ok w := by
  have hread : w.store.disk.readLog zeroData pageSize = (zeroData, w.store.disk) := by
    rw [DiskManager.readLog, DiskManager.getFileSize, h, if_pos List.length_nil]
  have hzero : isPageAllZero zeroData = true := isPageAllZero_replicate _
  rw [RecoveryManager.recoverWAL, RecoveryManager.recoverBuffer, hread]
  simp only [hzero, if_true]
  rfl

/-- What the constructor makes, with its log. -/
theorem construct_fresh (fuel : Nat) (files : Files) :
    ∃ w, Db.construct fuel files = .ok (Buffer.empty, w) ∧ Holds w ∧ w.flushed = [] ∧
      w.store.log = LogManager.init ∧ w.store.disk.logIo = FileStream.openExisting [] := by
  have hpages : PagesHold Store.empty.disk fun _ => none :=
    ⟨PagedFile.empty, PagedFile.empty, fun _ _ => Bytes.block_nil ..⟩
  obtain ⟨s₁, hconstruct, hrep₁, hframe₁, htemp₁⟩ := construct_spec hpages
  have hclear : pageAt s₁.disk.tempIo 0 = zeroData := by
    rw [htemp₁]
    exact Bytes.block_nil ..
  obtain ⟨s₂, hrecover, hrep₂, hframe₂, htemp₂⟩ :=
    RecoveryManager.recoverSSTable_clear hrep₁ hclear
  have hframe := hframe₁.trans hframe₂
  have hlog : s₂.disk.logIo.bytes = [] := by
    rw [hframe.logIo]
    rfl
  have hstray : NoStrayPages Store.empty := fun _ _ => Bytes.block_nil ..
  refine ⟨⟨s₂, []⟩, ?_, ⟨hrep₂.congr fun _ _ => rfl, htemp₂, ?_, hframe.noStrayPages hstray⟩, rfl,
    hframe.log, hframe.logIo⟩
  · rw [Db.construct]
    refine (congrArg (· >>= _) hconstruct).trans ?_
    simp only [RecoveryManager.performRecover, hrecover, Bind.bind, Except.bind,
      recoverWAL_empty (w := ⟨s₂, []⟩) hlog]
    rfl
  · exact hframe.logState ⟨[], RecoveryManager.logState_empty⟩

/-- **A new database is empty**, whatever was in the directory before. -/
theorem construct_new (fuel : Nat) (files : Files) :
    ∃ w, Db.construct fuel files = .ok (Buffer.empty, w) ∧ Holds w ∧ w.flushed = [] := by
  obtain ⟨w, hok, hw, hflushed, -⟩ := construct_fresh fuel files
  exact ⟨w, hok, hw, hflushed⟩

end GhostDB
