import GhostDB.Completion

/-!
# Point lookups in bounds

`Get` reads the pair `lower_bound` stops at without comparing it with
`memtable.end()`, although `GetRange` makes the comparison.

* `RunsPastEnd` — when the search through the runs reads past an end.
* `get_in_bounds_iff` — and `Get` does exactly then.
* `get_reads_past_end` — five keys are enough.
-/

namespace GhostDB

open Prog SortedTable

/-- The search for `key` reaches a table whose filter accepts the key and whose
keys are all smaller, no newer table holding the key. -/
def RunsPastEnd (tables : List SSTable) (key : Key) : Prop :=
  ∃ older t newer, tables = older ++ t :: newer ∧ (bloomOf t).couldHasKey key = true ∧
    (∀ kv ∈ t, kv.1 < key) ∧ ∀ t' ∈ newer, t'.lookup key = none

/-- The condition of `GhostDB.Restart`, read off the tables. -/
theorem pastEnd_iff {cs : List RunContent} (h : ∀ c ∈ cs, Honest c) (key : Key) :
    PastEnd cs key ↔ RunsPastEnd (cs.map RunContent.pairs) key := by
  constructor
  · rintro ⟨older, c, newer, rfl, hcould, hbelow, hnewer⟩
    have hc := (h c (by simp)).2
    refine ⟨older.map RunContent.pairs, c.pairs, newer.map RunContent.pairs, by simp, ?_, hbelow,
      ?_⟩
    · rwa [← hc]
    · intro t ht
      obtain ⟨c', hc', rfl⟩ := List.mem_map.1 ht
      exact hnewer c' hc'
  · rintro ⟨older, t, newer, heq, hcould, hbelow, hnewer⟩
    obtain ⟨olderRuns, rest, rfl, rfl, hrest⟩ := List.map_eq_append_iff.1 heq
    obtain ⟨c, newerRuns, rfl, rfl, rfl⟩ := List.map_eq_cons_iff.1 hrest
    have hc := (h c (by simp)).2
    refine ⟨olderRuns, c, newerRuns, rfl, ?_, hbelow, ?_⟩
    · rwa [hc]
    · intro c' hc'
      exact hnewer c'.pairs (List.mem_map_of_mem hc')

/-- **When `Get` fails** in the state after some writes. -/
theorem At.get_error_iff_runs {ws : List MappingType} {w : World} {b : Buffer} (h : At ws w b)
    (key : Key) : run World.handle (Db.get b key) w = .error .endIterator ↔
      b.kv.lookup key = none ∧ RunsPastEnd w.store.tables key := by
  rw [h.get_error_iff, ReadsPastEnd, ← h.split, pastEnd_iff (honest_contents _),
    ← tables_ofList h.holds.rep (length_contents_layout _)]

/-- **Point lookups in bounds.**  In every reachable state `Get` dereferences no
end iterator, except for a key that is not in the memtable and that the filter
of some run accepts although all its keys are smaller, no newer run holding the
key. -/
theorem get_in_bounds_iff {w : World} {b : Buffer} (h : Db.Reachable w b) (key : Key) :
    run World.handle (Db.get b key) w ≠ .error .endIterator ↔
      ¬ (b.kv.lookup key = none ∧ RunsPastEnd w.store.tables key) := by
  obtain ⟨ws, hat⟩ := h.at
  rw [Ne, hat.get_error_iff_runs]

/-! ## Five keys -/

/-- The keys `1, ..., 6`: the sixth write flushes the others. -/
def sixPuts : List Update := [.put 1 1, .put 2 2, .put 3 3, .put 4 4, .put 5 5, .put 6 6]

/-- One run and a memtable. -/
theorem sixPuts_spec : ∃ w₀ b w, Db.construct 0 ⟨none, none, none⟩ = .ok (Buffer.empty, w₀) ∧
    run World.handle (updates 2 sixPuts) w₀ = .ok (b, w) ∧ Db.Reachable w b ∧
    b.kv.entries = [(6, 6)] ∧ w.store.tables = [[(1, 1), (2, 2), (3, 3), (4, 4), (5, 5)]] := by
  obtain ⟨w₀, b, w, hok, hrun, hreach, hat⟩ :=
    exists_updates 0 ⟨none, none, none⟩ sixPuts (by decide)
  obtain ⟨hflushed, hb⟩ := Prod.mk.injEq .. ▸ hat.split
  refine ⟨w₀, b, w, hok, hrun, hreach, ?_, ?_⟩
  · rw [hb]
    decide
  · have hone : w.flushed = [⟨[(1, 1), (2, 2), (3, 3), (4, 4), (5, 5)], by decide⟩] := by
      rw [hflushed]
      decide
    rw [tables_ofList hat.holds.rep (length_contents_layout _), map_pairs_contents, hone]
    show [mergeAll [_]] = _
    rw [mergeAll_singleton]

/-- A key of the run is found in it. -/
theorem get_in_bounds_stored : ∃ w₀ b w,
    Db.construct 0 ⟨none, none, none⟩ = .ok (Buffer.empty, w₀) ∧
    run World.handle (updates 2 sixPuts) w₀ = .ok (b, w) ∧
    run World.handle (Db.get b 3) w ≠ .error .endIterator := by
  obtain ⟨w₀, b, w, hok, hrun, hreach, -, htables⟩ := sixPuts_spec
  refine ⟨w₀, b, w, hok, hrun, (get_in_bounds_iff hreach 3).2 ?_⟩
  rintro ⟨-, older, t, newer, heq, -, hbelow, -⟩
  rw [htables] at heq
  rcases List.append_eq_singleton_iff.1 heq.symm with ⟨-, hrun⟩ | ⟨-, hnil⟩
  · rw [(List.cons.inj hrun).1] at hbelow
    exact absurd (hbelow (5, 5) (by simp)) (by decide)
  · exact nomatch hnil

/-- **Five keys are enough**: the filter of the keys `1, ..., 5` accepts 174. -/
theorem get_reads_past_end : ∃ w₀ b w,
    Db.construct 0 ⟨none, none, none⟩ = .ok (Buffer.empty, w₀) ∧
    run World.handle (updates 2 sixPuts) w₀ = .ok (b, w) ∧ Db.Reachable w b ∧
    run World.handle (Db.get b 174) w = .error .endIterator := by
  obtain ⟨w₀, b, w, hok, hrun, hreach, hb, htables⟩ := sixPuts_spec
  obtain ⟨ws, hat⟩ := hreach.at
  refine ⟨w₀, b, w, hok, hrun, hreach, (hat.get_error_iff_runs 174).2 ⟨?_, ?_⟩⟩
  · rw [SortedMap.lookup, hb]
    decide
  · rw [htables]
    exact ⟨[], _, [], rfl, by decide +kernel, by simp, by simp⟩

end GhostDB
