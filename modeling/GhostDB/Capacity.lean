import GhostDB.Shutdown
import GhostDB.RangeBounds

/-!
# How much a database holds

A minor compaction merges the topmost two levels only, into one page.  So the
first twelve memtables stay where they were flushed until the shutdown, all the
later ones share three runs, and there is an end to what a database can take.

* `shareOf`, `layout_eq` — which memtables a run holds, in closed form.
* `pages_of_reachable` — and so what every page of a reachable state is.
* `count_compactions` — how many minor compactions some writes ask for.
* `distinct_keys_complete_iff` — a database takes 200 keys, and no more.
-/

namespace GhostDB

open Prog SortedTable

/-! ## Where a memtable lives -/

/-- How many of `n` flushed memtables are in the run that minor compactions write
to, if it is used. -/
def mergedCount (n : Nat) : Nat := max 1 (n - 13 - n % 2)

/-- Lists of one element each are what they hold, taken one by one. -/
theorem map_singleton_of_singles {ps : List (List BufferMap)} (h : ∀ p ∈ ps, ∃ m, p = [m]) :
    ps = ps.flatten.map fun m => [m] := by
  induction ps with
  | nil => rfl
  | cons p ps ih =>
    obtain ⟨m, rfl⟩ := h p (List.mem_cons_self ..)
    rw [List.flatten_cons, List.singleton_append, List.map_cons,
      ← ih fun q hq => h q (List.mem_cons_of_mem _ hq)]

/-- **Where every memtable lives**, once more than twelve were flushed: the first
twelve have a run each, the last one or two as well, and the others share one. -/
theorem layout_eq {ms : List BufferMap} (h : minorBase < ms.length) :
    layout ms = (ms.take minorBase).map (fun m => [m]) ++
      [(ms.drop minorBase).take (mergedCount ms.length)] ++
      (ms.drop (minorBase + mergedCount ms.length)).map fun m => [m] := by
  have hshape := layout_shape ms
  have hflat := flatten_layout ms
  have hlen := length_layout ms
  have hbase := minorBase_eq
  have hin : minorBase < (layout ms).length := by
    rw [hlen]
    split_ifs <;> omega
  -- the layout around the run of the minor compactions
  obtain ⟨front, mid, back, heq, hfront⟩ : ∃ front mid back,
      layout ms = front ++ [mid] ++ back ∧ front.length = minorBase := by
    refine ⟨(layout ms).take minorBase, (layout ms)[minorBase], (layout ms).drop (minorBase + 1),
      ?_, ?_⟩
    · rw [List.append_assoc, List.singleton_append, ← List.drop_eq_getElem_cons hin,
        List.take_append_drop]
    · rw [List.length_take]
      omega
  have hsingle : ∀ i p, (layout ms)[i]? = some p → i ≠ minorBase → ∃ m, p = [m] := hshape.single
  have hfrontSingles : ∀ p ∈ front, ∃ m, p = [m] := by
    intro p hp
    obtain ⟨i, hi, rfl⟩ := List.mem_iff_getElem.1 hp
    refine hsingle i _ ?_ (by omega)
    rw [heq, List.append_assoc, List.getElem?_append_left hi, List.getElem?_eq_getElem hi]
  have hbackSingles : ∀ p ∈ back, ∃ m, p = [m] := by
    intro p hp
    obtain ⟨i, hi, rfl⟩ := List.mem_iff_getElem.1 hp
    refine hsingle (minorBase + 1 + i) _ ?_ (by omega)
    rw [heq, List.getElem?_append_right (by simp; omega), List.length_append, hfront,
      List.length_singleton, Nat.add_sub_cancel_left, List.getElem?_eq_getElem hi]
  -- the history, cut at the same places
  have hhistory : front.flatten ++ mid ++ back.flatten = ms := by
    rw [← hflat, heq]
    simp
  have hfrontLen : front.flatten.length = minorBase := by
    rw [length_flatten_of_singles hfrontSingles, hfront]
  have hbackLen : back.flatten.length + minorBase + 1 = (layout ms).length := by
    rw [length_flatten_of_singles hbackSingles, heq]
    simp
    omega
  have hmid : mid.length = mergedCount ms.length := by
    have htotal := congrArg List.length hhistory
    rw [List.length_append, List.length_append, hfrontLen] at htotal
    rw [hlen] at hbackLen
    unfold mergedCount
    split_ifs at hbackLen <;> omega
  have htake : ms.take minorBase = front.flatten := by
    rw [← hhistory, List.append_assoc, List.take_left' hfrontLen]
  have hdrop : ms.drop minorBase = mid ++ back.flatten := by
    rw [← hhistory, List.append_assoc, List.drop_left' hfrontLen]
  rw [← List.drop_drop, hdrop, htake, List.take_left' hmid, List.drop_left' hmid,
    ← map_singleton_of_singles hfrontSingles, ← map_singleton_of_singles hbackSingles, heq]

/-- The memtables of the `i`-th run after flushing `ms`. -/
def shareOf (ms : List BufferMap) (i : Nat) : List BufferMap :=
  if i < minorBase then (ms.drop i).take 1
  else if i = minorBase then (ms.drop minorBase).take (mergedCount ms.length)
  else (ms.drop (i - 1 + mergedCount ms.length)).take 1

/-- A list by its elements, each as a list of at most one. -/
theorem getElem?_map_singleton (ms : List BufferMap) (i : Nat) :
    (ms.map fun m => [m])[i]? =
      if (ms.drop i).take 1 = [] then none else some ((ms.drop i).take 1) := by
  rw [List.getElem?_map]
  rcases Nat.lt_or_ge i ms.length with hlt | hge
  · have htake : (ms.drop i).take 1 = [ms[i]] := by
      rw [List.drop_eq_getElem_cons hlt]
      rfl
    rw [htake, List.getElem?_eq_getElem hlt]
    rfl
  · rw [List.drop_eq_nil_of_le hge, List.getElem?_eq_none hge]
    rfl

/-- Up to twelve memtables have a run each. -/
theorem layout_of_le {ms : List BufferMap} (h : ms.length ≤ minorBase) :
    layout ms = ms.map fun m => [m] := by
  have hbase := minorBase_eq
  have hlen := length_layout ms
  have hsingles : ∀ p ∈ layout ms, ∃ m, p = [m] := by
    intro p hp
    obtain ⟨i, hi, rfl⟩ := List.mem_iff_getElem.1 hp
    refine (layout_shape ms).single i _ (List.getElem?_eq_getElem hi) ?_
    split_ifs at hlen <;> omega
  have hmap := map_singleton_of_singles hsingles
  rwa [flatten_layout] at hmap

/-- **Which memtables a run holds**, for any history. -/
theorem layout_getElem? (ms : List BufferMap) (i : Nat) :
    (layout ms)[i]? = if shareOf ms i = [] then none else some (shareOf ms i) := by
  unfold shareOf
  rcases Nat.lt_or_ge minorBase ms.length with hlt | hge
  · rw [layout_eq hlt]
    have hfront : ((ms.take minorBase).map fun m => [m]).length = minorBase := by
      rw [List.length_map, List.length_take]
      omega
    rcases lt_trichotomy i minorBase with hi | hi | hi
    · rw [if_pos hi, List.append_assoc, List.getElem?_append_left (by omega),
        getElem?_map_singleton, List.drop_take, List.take_take,
        min_eq_left (show 1 ≤ minorBase - i by omega)]
    · have hne : (ms.drop minorBase).take (mergedCount ms.length) ≠ [] := by
        rw [List.drop_eq_getElem_cons hlt, mergedCount, ← Nat.succ_pred_eq_of_pos
          (lt_of_lt_of_le Nat.zero_lt_one (le_max_left 1 _)), List.take_succ_cons]
        exact List.cons_ne_nil _ _
      subst hi
      rw [if_neg (lt_irrefl _), if_pos rfl, if_neg hne, List.append_assoc,
        List.getElem?_append_right (by omega), hfront, Nat.sub_self]
      rfl
    · have hindex : minorBase + mergedCount ms.length + (i - (minorBase + 1)) =
          i - 1 + mergedCount ms.length := by omega
      rw [if_neg hi.not_gt, if_neg hi.ne',
        List.getElem?_append_right (by rw [List.length_append, hfront]; simpa using hi),
        List.length_append, hfront, List.length_singleton, getElem?_map_singleton,
        List.drop_drop, hindex]
  · rw [layout_of_le hge, getElem?_map_singleton]
    by_cases hi : i < minorBase
    · rw [if_pos hi]
    · have hdrop : ∀ k, minorBase ≤ k → ms.drop k = [] := fun k hk =>
        List.drop_eq_nil_of_le (hge.trans hk)
      have hback : minorBase ≤ i - 1 + mergedCount ms.length := by
        unfold mergedCount
        omega
      simp only [if_neg hi, hdrop i (not_lt.1 hi), hdrop _ le_rfl, hdrop _ hback, List.take_nil,
        ite_self]

/-- **What every page is.**  In a reachable state the page of a run is that of
the merge of its share of the flushed memtables, its flag says whether there are
any, and every other page of `sstable.db` is clear. -/
theorem pages_of_reachable {w : World} {b : Buffer} (h : Db.Reachable w b) :
    (∀ i < totalNonOverflowPages,
      (w.store.runs (fillPos i).1 (fillPos i).2).isEmpty = decide (shareOf w.flushed i = []) ∧
      pageAt w.store.disk.dbIo (fillPage i) = if shareOf w.flushed i = [] then zeroData else
        pageImage (fillPos i).1 (fillPos i).2 (mergeAll (shareOf w.flushed i))) ∧
    ∀ j, totalNonOverflowPages ≤ j → pageAt w.store.disk.dbIo j = zeroData := by
  obtain ⟨ws, hat⟩ := h.at
  refine ⟨?_, hat.holds.stray⟩
  intro i hi
  have hslot := hat.holds.rep.slot i hi
  have hview : Slots.ofList (contents (layout w.flushed)) i =
      if shareOf w.flushed i = [] then none
      else some (RunContent.ofTable i (mergeAll (shareOf w.flushed i))) := by
    show (contents (layout w.flushed))[i]? = _
    rw [contents, List.getElem?_mapIdx, layout_getElem?]
    split <;> rfl
  rw [hview] at hslot
  by_cases hshare : shareOf w.flushed i = []
  · rw [if_pos hshare] at hslot ⊢
    exact ⟨by rw [hslot.1, decide_eq_true hshare], hslot.2⟩
  · rw [if_neg hshare] at hslot ⊢
    exact ⟨by rw [hslot.1, decide_eq_false hshare], hslot.2.1⟩

/-- A merge writes no more pairs than it reads. -/
theorem length_mergeSSTable_le (new old : SSTable) :
    (mergeSSTable new old).length ≤ new.length + old.length := by
  fun_induction mergeSSTable new old <;> simp only [List.length_cons, List.length_nil] at * <;>
    omega

theorem length_mergeAll_le (ms : List BufferMap) (h : ∀ m ∈ ms, m.size ≤ maxBufferSize) :
    (mergeAll ms).length ≤ maxBufferSize * ms.length := by
  induction ms using List.reverseRecOn with
  | nil => exact Nat.zero_le _
  | append_singleton ms m ih =>
    have hm : m.entries.length ≤ maxBufferSize := h m (by simp)
    have hms := ih fun m' hm' => h m' (by simp [hm'])
    have hmerge := length_mergeSSTable_le m.entries (mergeAll ms)
    rw [mergeAll, List.map_append, List.map_singleton, foldMerge_concat, List.length_append,
      List.length_singleton, Nat.mul_succ]
    rw [mergeAll] at hms hmerge
    omega

/-- Forty memtables must be flushed before one overflows. -/
theorem not_overflowsIn_of_length {ms : List BufferMap} (h : ∀ m ∈ ms, m.size ≤ maxBufferSize)
    (hlen : ms.length < 40) : ¬ OverflowsIn ms := by
  rintro ⟨j, hj, hfull, hfits⟩
  have hodd := (layout_full_iff _).1 hfull
  have hmerged := length_mergeAll_le ((ms.take j).drop minorBase) fun m hm =>
    h m (List.mem_of_mem_take (List.mem_of_mem_drop hm))
  have hbase := minorBase_eq
  rw [List.length_drop, List.length_take, show maxBufferSize = 5 from rfl] at hmerged
  rw [List.length_take] at hodd
  refine hfits (fitsPage_iff.2 ?_)
  omega

/-- The first writes that need a compaction. -/
theorem putsTo_sixteen : ∃ w₀ b w, Db.construct 0 ⟨none, none, none⟩ = .ok (Buffer.empty, w₀) ∧
    run World.handle (updates 2 (putsTo 81)) w₀ = .ok (b, w) ∧
    w.flushed = (splitWrites ((putsTo 81).map Update.write)).1 := by
  obtain ⟨w₀, ok, hat₀⟩ := construct_at 0 ⟨none, none, none⟩
  rcases updates_spec hat₀ 0 (putsTo 81) with ⟨hover, -⟩ | ⟨-, b, w, hrun, hat⟩
  · refine absurd hover (not_overflowsIn_of_length (fun m hm => (size_of_mem_splitWrites hm).le) ?_)
    decide +kernel
  · exact ⟨w₀, b, w, ok, hrun, congrArg Prod.fst hat.split⟩

/-- The run of the minor compactions holds fifteen keys by then. -/
theorem pages_of_reachable_sixteen : ∃ w₀ b w,
    Db.construct 0 ⟨none, none, none⟩ = .ok (Buffer.empty, w₀) ∧
    run World.handle (updates 2 (putsTo 81)) w₀ = .ok (b, w) ∧
    pageAt w.store.disk.dbIo (fillPage minorBase) =
      pageImage (fillPos minorBase).1 (fillPos minorBase).2
        ((List.range' 60 15).map fun i => (Int32.ofNat i, 0)) := by
  obtain ⟨w₀, b, w, ok, hrun, hflushed⟩ := putsTo_sixteen
  have hpage := ((pages_of_reachable ((Db.Reachable.construct ok).updates 2 _ hrun)).1 minorBase
    (by decide)).2
  have hshare : shareOf w.flushed minorBase ≠ [] := by
    rw [hflushed]
    decide +kernel
  have hmerged : mergeAll (shareOf w.flushed minorBase) =
      (List.range' 60 15).map fun i => (Int32.ofNat i, 0) := by
    rw [hflushed]
    decide +kernel
  rw [if_neg hshare, hmerged] at hpage
  exact ⟨w₀, b, w, ok, hrun, hpage⟩

/-! ## Counting the compactions -/

section Count

variable {w : World} {b : Buffer} (hw : Holds w)
  (hfull : ∀ m ∈ w.flushed, m.size = maxBufferSize) (hno : ¬ Overflows w.flushed)

include hw hfull hno in
/-- The loop requests a compaction exactly when every run is used. -/
theorem countP_calls_dumpLoop_eq {m : BufferMap} (hm : FitsPage m.entries) (fuel : Nat) :
    (calls World.handle (dumpLoop (fuel + 2) m) w).countP ClientSig.isMinor =
      if (layout w.flushed).length = totalNonOverflowPages then 1 else 0 := by
  split_ifs with hge
  · refine le_antisymm (countP_calls_dumpLoop hw hfull hm hno fuel) ?_
    have hdump : run World.handle (onStore (SSTableManager.dumpSSTable m)) w = .ok (false, w) :=
      dumpSSTable_full hw.rep (by rw [length_contents, hge])
    rw [dumpLoop, calls_bind_of_ok hdump, List.countP_append]
    -- the request is the first call after the dump that found no run
    exact Nat.le_add_left_of_le (countP_calls_call_pos (S := ClientSig)
      (o := .inr (.request .minor)) rfl (fun _ => dumpLoop (fuel + 1) m) w)
  · have hlt := lt_of_le_of_ne (layout_shape w.flushed).length_le hge
    exact countP_calls_dumpLoop_of_lt hw.rep (by rwa [length_contents]) hm _

include hw hfull hno in
/-- So does a write that has to flush. -/
theorem countP_calls_put_eq (key : Key) (val : Val) (fuel : Nat) :
    (calls World.handle (Db.put (fuel + 2) b key val) w).countP ClientSig.isMinor =
      if b.Refuses key ∧ (layout w.flushed).length = totalNonOverflowPages then 1 else 0 := by
  by_cases h : b.Refuses key
  · obtain ⟨s₁, hflush, hw₁⟩ := hw.flushWAL
    obtain ⟨s₂, hdump, hw₂, -⟩ := dumpLoop_spec hw₁ hfull b.fitsPage hno fuel
    obtain ⟨s₃, hclear, hw₃⟩ := hw₂.clearLog
    have hloop := countP_calls_dumpLoop_eq hw₁ hfull hno b.fitsPage fuel
    have hroom : Pure ClientSig.isMinor (Db.put (fuel + 1) Buffer.empty key val) :=
      pure_put_of_room (Buffer.not_refuses_empty key) fuel
    have hagain := countP_calls_of_pure (h := World.handle) hroom ⟨s₃, w.flushed ++ [b.kv]⟩
    rw [Db.put, Buffer.put, dif_pos h]
    show (calls World.handle (onStore flushWAL >>= fun _ => dumpLoop (fuel + 2) b.kv >>= fun _ =>
      onStore clearLog >>= fun _ => Db.put (fuel + 1) Buffer.empty key val) w).countP
      ClientSig.isMinor = _
    rw [calls_bind_of_ok hflush, calls_bind_of_ok hdump, calls_bind_of_ok hclear]
    simp only [List.countP_append, countP_calls_onStore, hagain, hloop, h, true_and,
      Nat.zero_add, Nat.add_zero]
  · rw [countP_calls_of_pure (pure_put_of_room h (fuel + 1)), if_neg fun hh => h hh.1]

end Count

/-- How many memtables a write flushes. -/
theorem length_bufferStep (st : List BufferMap × Buffer) (r : MappingType) :
    (bufferStep st r).1.length = st.1.length + if st.2.Refuses r.1 then 1 else 0 := by
  unfold bufferStep
  split <;> simp

/-- One compaction for every second memtable flushed after the first fourteen. -/
theorem countP_calls_updates {w₀ : World} (h₀ : At [] w₀ Buffer.empty) (fuel : Nat)
    (us : List Update) : ∀ {b : Buffer} {w : World},
      run World.handle (updates (fuel + 2) us) w₀ = .ok (b, w) →
      (calls World.handle (updates (fuel + 2) us) w₀).countP ClientSig.isMinor =
        (w.flushed.length - 14) / 2 := by
  induction us using List.reverseRecOn with
  | nil =>
    intro b w hrun
    cases hrun
    have hflushed : w₀.flushed = [] := congrArg Prod.fst h₀.split
    rw [hflushed]
    rfl
  | append_singleton us u ih =>
    intro b w hrun
    rcases updates_spec h₀ fuel us with ⟨-, herror⟩ | ⟨-, b₁, w₁, hok, hat⟩
    · rw [updates_concat, run_bind_of_error herror] at hrun
      cases hrun
    rw [updates_concat, calls_bind_of_ok hok, List.countP_append, ih hok]
    rw [updates_concat, run_bind_of_ok hok] at hrun
    rcases hat.update u fuel with ⟨-, -, herror⟩ | ⟨hno, b₂, w₂, hlast, hat'⟩
    · rw [herror] at hrun
      cases hrun
    cases hlast.symm.trans hrun
    have hflushed : w.flushed = (bufferStep (w₁.flushed, b₁) u.write).1 := by
      rw [hat.split, ← splitWrites_concat, ← hat'.split]
    rw [hflushed, length_bufferStep, u.prog_eq]
    by_cases hrefuses : b₁.Refuses u.write.1
    · have hfull := layout_full_iff w₁.flushed
      rw [countP_calls_put_eq hat.holds hat.full (fun ho => hno ⟨hrefuses, ho⟩)]
      simp only [hrefuses, true_and, if_true, hfull]
      split_ifs <;> omega
    · rw [countP_calls_of_pure (pure_put_of_room hrefuses (fuel + 1)), if_neg hrefuses]
      rfl

/-! ## The keys of the memtables -/

theorem distinctKeys_append (ss ts : List SSTable) :
    distinctKeys (ss ++ ts) = distinctKeys ss ∪ distinctKeys ts := by
  ext k
  simp only [Finset.mem_union, mem_distinctKeys, List.mem_append, or_and_right, exists_or]

theorem card_plainKeys_le (t : SSTable) : (plainKeys t).card ≤ t.length := by
  refine Finset.card_erase_le.trans ((List.toFinset_card_le _).trans ?_)
  rw [List.length_map]

/-- Memtables hold five keys each at most. -/
theorem card_distinctKeys_le (ms : List BufferMap) (h : ∀ m ∈ ms, m.size ≤ maxBufferSize) :
    (distinctKeys (ms.map SortedMap.entries)).card ≤ maxBufferSize * ms.length := by
  induction ms with
  | nil => simp [distinctKeys]
  | cons m ms ih =>
    have hm : (distinctKeys [m.entries]).card ≤ maxBufferSize := by
      rw [distinctKeys, List.foldl_cons, List.foldl_nil, Finset.union_empty]
      exact (card_plainKeys_le _).trans (h m (List.mem_cons_self ..))
    have hms := ih fun m' hm' => h m' (List.mem_cons_of_mem _ hm')
    have hunion := Finset.card_union_le (distinctKeys [m.entries])
      (distinctKeys (ms.map SortedMap.entries))
    rw [← distinctKeys_append, List.singleton_append] at hunion
    rw [List.map_cons, List.length_cons, Nat.mul_succ]
    omega

/-- **No key is lost in the cut**: the memtables hold the keys written. -/
theorem distinctKeys_splitWrites (ws : List MappingType) :
    distinctKeys (tablesOf (splitWrites ws)) = plainKeys ws := by
  ext k
  have hnewest := newest_splitWrites ws k
  have hsome : (∃ t ∈ tablesOf (splitWrites ws), t.lookup k ≠ none) ↔ ws.lookup k ≠ none := by
    have hreverse : lastWrite ws k ≠ none ↔ ws.lookup k ≠ none := by
      rw [lastWrite, lookup_ne_none_iff, lookup_ne_none_iff]
      simp only [List.mem_reverse]
    rw [← hreverse, ← hnewest, Ne, newest_eq_none_iff]
    push Not
    rfl
  rw [mem_distinctKeys, mem_plainKeys, ← hsome]
  simp only [mem_plainKeys, and_left_comm, exists_and_left]

/-- Every flush takes five writes, besides those in the memtable. -/
theorem length_splitWrites (ws : List MappingType) :
    maxBufferSize * (splitWrites ws).1.length + (splitWrites ws).2.kv.size ≤ ws.length := by
  induction ws using List.reverseRecOn with
  | nil => simp [splitWrites, Buffer.empty]
  | append_singleton ws r ih =>
    rw [splitWrites_concat, bufferStep]
    split
    next h =>
      have hnew : (Buffer.empty.kv.insert r.1 r.2).size = 1 := rfl
      have hsize : (splitWrites ws).2.kv.size = maxBufferSize := h.1
      simp only [Buffer.insert, hnew, List.length_append, List.length_singleton, Nat.mul_succ]
      omega
    next h =>
      have hinsert := SortedMap.size_insert (splitWrites ws).2.kv r.1 r.2
      simp only [Buffer.insert, List.length_append, List.length_singleton]
      split_ifs at hinsert <;> omega

/-- A write is in the memtable it leaves. -/
theorem size_splitWrites {ws : List MappingType} (h : ws ≠ []) :
    (splitWrites ws).2.kv.size ≠ 0 := by
  cases ws using List.reverseRecOn with
  | nil => exact absurd rfl h
  | append_singleton ws r =>
    rw [splitWrites_concat]
    exact size_bufferStep _ r

/-! ## 200 keys -/

/-- Without an overflow the memtables flushed hold 195 keys at most: sixty in the
first twelve runs, 125 in the page of the last compaction, ten flushed since. -/
theorem card_distinctKeys_of_not_overflowsIn {ms : List BufferMap}
    (h : ∀ m ∈ ms, m.size ≤ maxBufferSize) (hno : ¬ OverflowsIn ms) :
    (distinctKeys (ms.map SortedMap.entries)).card ≤ 195 := by
  have hsize : maxBufferSize = 5 := rfl
  have hbase := minorBase_eq
  rcases Nat.lt_or_ge ms.length 40 with hlt | hge
  · have hcard := card_distinctKeys_le ms h
    rw [hsize] at hcard
    omega
  · -- the last flush that had to compact
    obtain ⟨j, hj, hodd, hlast⟩ : ∃ j < ms.length, j % 2 = 1 ∧ ms.length ≤ j + 2 :=
      ⟨ms.length - 1 - ms.length % 2, by omega, by omega, by omega⟩
    have htake : (ms.take j).length = j := by
      rw [List.length_take]
      omega
    have hfull : (layout (ms.take j)).length = totalNonOverflowPages :=
      (layout_full_iff _).2 (by rw [htake]; omega)
    have hfits : (mergeAll ((ms.take j).drop minorBase)).length ≤ 125 :=
      fitsPage_iff.1 (by_contra fun hfits => hno ⟨j, hj, hfull, hfits⟩)
    rw [length_mergeAll, mergedSize] at hfits
    have hfront := card_distinctKeys_le ((ms.take j).take minorBase) fun m hm =>
      h m (List.mem_of_mem_take (List.mem_of_mem_take hm))
    have hback := card_distinctKeys_le (ms.drop j) fun m hm => h m (List.mem_of_mem_drop hm)
    rw [List.length_take, htake, hsize] at hfront
    rw [List.length_drop, hsize] at hback
    have hunion : distinctKeys (ms.map SortedMap.entries) =
        distinctKeys (((ms.take j).take minorBase).map SortedMap.entries) ∪
          distinctKeys (((ms.take j).drop minorBase).map SortedMap.entries) ∪
          distinctKeys ((ms.drop j).map SortedMap.entries) := by
      rw [← distinctKeys_append, ← List.map_append, List.take_append_drop, ← distinctKeys_append,
        ← List.map_append, List.take_append_drop]
    rw [hunion]
    refine (Finset.card_union_le _ _).trans ?_
    have hinner := Finset.card_union_le
      (distinctKeys (((ms.take j).take minorBase).map SortedMap.entries))
      (distinctKeys (((ms.take j).drop minorBase).map SortedMap.entries))
    omega

section Capacity

variable {fuel₀ : Nat} {files : Files} {w₀ : World}
  (ok : Db.construct fuel₀ files = .ok (Buffer.empty, w₀))

include ok in
theorem At.of_construct : At [] w₀ Buffer.empty := by
  obtain ⟨w, hok, hat⟩ := construct_at fuel₀ files
  cases hok.symm.trans ok
  exact hat

include ok in
/-- **How many compactions some writes ask for**: one for every second memtable
flushed after the first fourteen, and no other, whatever the keys. -/
theorem count_compactions (fuel : Nat) {us : List Update} {b : Buffer} {w : World}
    (hrun : run World.handle (updates (fuel + 2) us) w₀ = .ok (b, w)) :
    (calls World.handle (updates (fuel + 2) us) w₀).countP ClientSig.isMinor =
      (w.flushed.length - 14) / 2 :=
  countP_calls_updates (At.of_construct ok) fuel us hrun

/-- The sixteenth memtable is flushed after a compaction. -/
theorem count_compactions_sixteen : ∃ w₀ b w,
    Db.construct 0 ⟨none, none, none⟩ = .ok (Buffer.empty, w₀) ∧
    run World.handle (updates 2 (putsTo 81)) w₀ = .ok (b, w) ∧
    (calls World.handle (updates 2 (putsTo 81)) w₀).countP ClientSig.isMinor = 1 := by
  obtain ⟨w₀, b, w, ok, hrun, hflushed⟩ := putsTo_sixteen
  have hcount := count_compactions ok 0 hrun
  have hlen : w.flushed.length = 16 := by
    rw [hflushed]
    decide +kernel
  rw [hlen] at hcount
  exact ⟨w₀, b, w, ok, hrun, hcount⟩

include ok in
/-- **What fits**: any 200 writes complete, and writes to more than 200 keys,
deletions counted, overflow a page. -/
theorem writes_fit (fuel : Nat) (us : List Update) :
    (us.length ≤ 200 → ∃ b w, run World.handle (updates (fuel + 2) us) w₀ = .ok (b, w)) ∧
    (200 < (plainKeys (us.map Update.write)).card →
      run World.handle (updates (fuel + 2) us) w₀ = .error .pageOverflow) := by
  have hfull : ∀ m ∈ (splitWrites (us.map Update.write)).1, m.size ≤ maxBufferSize :=
    fun m hm => (size_of_mem_splitWrites hm).le
  have hspec := updates_spec (At.of_construct ok) fuel us
  constructor
  · intro hlen
    rcases hspec with ⟨hover, -⟩ | ⟨-, b, w, hrun, -⟩
    · refine absurd hover (not_overflowsIn_of_length hfull ?_)
      by_contra hge
      have hcut := length_splitWrites (us.map Update.write)
      rw [List.length_map, show maxBufferSize = 5 from rfl] at hcut
      have hne : us.map Update.write ≠ [] := fun hnil => hge (by rw [hnil]; decide)
      have hlast := size_splitWrites hne
      omega
    · exact ⟨b, w, hrun⟩
  · intro hcard
    rcases hspec with ⟨-, herror⟩ | ⟨hno, -⟩
    · exact herror
    · have hflushed := card_distinctKeys_of_not_overflowsIn hfull hno
      have hlast := card_distinctKeys_le ([(splitWrites (us.map Update.write)).2.kv])
        fun m hm => List.mem_singleton.1 hm ▸ (splitWrites (us.map Update.write)).2.size_le
      rw [List.length_singleton, show maxBufferSize = 5 from rfl] at hlast
      rw [← distinctKeys_splitWrites, tablesOf, distinctKeys_append] at hcard
      have hunion := Finset.card_union_le
        (distinctKeys ((splitWrites (us.map Update.write)).1.map SortedMap.entries))
        (distinctKeys [(splitWrites (us.map Update.write)).2.kv.entries])
      rw [List.map_singleton] at hlast
      omega

include ok in
/-- **A database takes 200 keys, and no more.** -/
theorem distinct_keys_complete_iff (fuel : Nat) {us : List Update}
    (hkeys : (us.map fun u => u.write.1).Nodup) (hmin : tombstome ∉ us.map fun u => u.write.1) :
    (∃ b w, run World.handle (updates (fuel + 2) us) w₀ = .ok (b, w)) ↔ us.length ≤ 200 := by
  constructor
  · rintro ⟨b, w, hrun⟩
    by_contra hlen
    have hcard : (plainKeys (us.map Update.write)).card = us.length := by
      rw [plainKeys, List.map_map]
      show ((us.map fun u => u.write.1).toFinset.erase tombstome).card = us.length
      rw [Finset.erase_eq_of_notMem (by simpa using hmin), List.toFinset_card_of_nodup hkeys,
        List.length_map]
    cases hrun.symm.trans ((writes_fit ok fuel us).2 (by omega))
  · exact (writes_fit ok fuel us).1

end Capacity

theorem keys_putsTo {n : Nat} (hn : n ≤ 201) :
    ((putsTo n).map fun u => u.write.1).Nodup ∧
      tombstome ∉ (putsTo n).map fun u => u.write.1 := by
  have htoInt : ∀ i < n, (Int32.ofNat i).toInt = i := fun i hi =>
    Int32.toInt_ofNat_of_lt (by omega)
  rw [putsTo, List.map_map]
  constructor
  · refine List.Nodup.map_on ?_ List.nodup_range
    intro i hi j hj heq
    have hkey : Int32.ofNat i = Int32.ofNat j := heq
    have hint := htoInt i (List.mem_range.1 hi)
    rw [hkey, htoInt j (List.mem_range.1 hj)] at hint
    omega
  · intro hmem
    obtain ⟨i, hi, heq⟩ := List.mem_map.1 hmem
    have hkey : Int32.ofNat i = tombstome := heq
    have hint := htoInt i (List.mem_range.1 hi)
    rw [hkey, tombstome, Int32.toInt_minValue] at hint
    omega

/-- The keys `0, ..., 199` fit, and one more does not. -/
theorem distinct_keys_complete_200 : ∃ w₀,
    Db.construct 0 ⟨none, none, none⟩ = .ok (Buffer.empty, w₀) ∧
    (∃ b w, run World.handle (updates 2 (putsTo 200)) w₀ = .ok (b, w)) ∧
    ¬ ∃ b w, run World.handle (updates 2 (putsTo 201)) w₀ = .ok (b, w) := by
  obtain ⟨w₀, ok, -⟩ := construct_at 0 ⟨none, none, none⟩
  have hlen : ∀ n, (putsTo n).length = n := fun n => by
    rw [putsTo, List.length_map, List.length_range]
  obtain ⟨hkeys, hmin⟩ := keys_putsTo (n := 200) (by decide)
  obtain ⟨hmore, hminMore⟩ := keys_putsTo (n := 201) le_rfl
  refine ⟨w₀, ok, (distinct_keys_complete_iff ok 0 hkeys hmin).2 (hlen 200).le, ?_⟩
  intro hrun
  have hle := (distinct_keys_complete_iff ok 0 hmore hminMore).1 hrun
  rw [hlen] at hle
  omega

end GhostDB
