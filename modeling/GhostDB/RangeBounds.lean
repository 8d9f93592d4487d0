import GhostDB.RangeReads

/-!
# Range reads in bounds

`Buffer::GetRange` dereferences `begin()` and `rbegin()` of the memtable without
asking whether it has any; `GhostDB::GetRange` takes `front()` and `back()` of a
run only after `LoadSSTable` has said that there is one.

* `InBounds` — the outcomes without an access out of bounds.
* `At.size_ne_zero_iff` — only a database nobody has written to has an empty
  memtable.
* `range_in_bounds_iff` — range reads stay in bounds exactly on the others.
* `range_reads_empty_buffer` — so not on a new one.
-/

namespace GhostDB

open Prog SortedTable

/-- No `begin()`, `rbegin()`, `front()` or `back()` of an empty container was
dereferenced, and no past-the-end iterator stepped or dereferenced. -/
def InBounds {α : Type} (outcome : Except Fault α) : Prop :=
  outcome ≠ .error .emptyContainer ∧ outcome ≠ .error .endIterator

theorem inBounds_ok {α : Type} (a : α) : InBounds (.ok a) := by
  constructor <;> simp

theorem not_inBounds_empty {α : Type} : ¬ InBounds (.error .emptyContainer : Except Fault α) :=
  fun h => h.1 rfl

/-- A loop whose upper iterator is behind its lower one is an access out of
bounds. -/
theorem rangeLoop_of_behind {it1 it2 : SSTable} (h : it1.length + 1 < it2.length) :
    Buffer.rangeLoop it1 it2 = .error .endIterator := by
  cases it2 with
  | nil => simp at h
  | cons kv rest =>
    have hlt : it1.length < rest.length := Nat.lt_of_succ_lt_succ h
    exact readTo_of_lt _ hlt

/-! ## An empty memtable -/

/-- After the first write the memtable is never empty again: a `Put` that
flushes it goes on to insert its own pair. -/
theorem size_bufferStep (st : List BufferMap × Buffer) (r : MappingType) :
    (bufferStep st r).2.kv.size ≠ 0 := by
  have hinsert : ∀ (b : Buffer) (hroom : ¬ b.Refuses r.1),
      (b.insert r.1 r.2 hroom).kv.size ≠ 0 := by
    intro b hroom hzero
    have hnil : (b.kv.insert r.1 r.2).entries = [] := List.length_eq_zero_iff.1 hzero
    have hlook := SortedMap.lookup_insert b.kv r.1 r.2 r.1
    rw [if_pos rfl, SortedMap.lookup, hnil] at hlook
    cases hlook
  unfold bufferStep
  split
  · exact hinsert _ (Buffer.not_refuses_empty r.1)
  next hroom => exact hinsert _ hroom

/-- Only a database nobody has written to has an empty memtable. -/
theorem At.size_ne_zero_iff {ws : List MappingType} {w : World} {b : Buffer} (h : At ws w b) :
    b.kv.size ≠ 0 ↔ ws ≠ [] := by
  have hb : b = (splitWrites ws).2 := congrArg Prod.snd h.split
  rw [hb]
  cases ws using List.reverseRecOn with
  | nil => simp [splitWrites, Buffer.empty]
  | append_singleton ws r =>
    rw [splitWrites_concat]
    exact iff_of_true (size_bufferStep _ r) (by simp)

section Empty

variable {b : Buffer} {key1 key2 : Key} (hzero : b.kv.size = 0) (hk : key1 ≤ key2)
  (res : BufferMap) (w : World)

include hzero hk

theorem run_buffer_getRange_empty :
    run World.handle (b.getRange key1 key2 res) w = .error .emptyContainer := by
  have hnil : b.kv.entries = [] := List.length_eq_zero_iff.1 hzero
  rw [Buffer.getRange, if_neg (not_not.2 hk), hnil]
  rfl

/-- The runs are not even reached. -/
theorem run_getRange_empty :
    run World.handle (Db.getRange b key1 key2 res) w = .error .emptyContainer := by
  rw [Db.getRange, if_neg (not_not.2 hk)]
  exact run_bind_of_error (run_buffer_getRange_empty hzero hk res w)

end Empty

/-! ## Every state -/

/-- **Range reads in bounds.**  In every reachable state and for every range the
two `GetRange` stay in bounds, unless the memtable is empty; then both read the
pairs it does not have. -/
theorem range_in_bounds_iff {w : World} {b : Buffer} (h : Db.Reachable w b) {key1 key2 : Key}
    (hk : key1 ≤ key2) (res : BufferMap) :
    (InBounds (run World.handle (b.getRange key1 key2 res) w) ↔ b.kv.size ≠ 0) ∧
      (InBounds (run World.handle (Db.getRange b key1 key2 res) w) ↔ b.kv.size ≠ 0) := by
  obtain ⟨ws, hat⟩ := h.at
  by_cases hzero : b.kv.size = 0
  · rw [run_buffer_getRange_empty hzero hk, run_getRange_empty hzero hk]
    exact ⟨iff_of_false not_inBounds_empty (not_not.2 hzero),
      iff_of_false not_inBounds_empty (not_not.2 hzero)⟩
  · obtain ⟨p, hrun⟩ := run_getRange hat.holds hat.full hzero hk res
    rw [run_buffer_getRange hzero hk, hrun]
    exact ⟨iff_of_true (inBounds_ok _) hzero, iff_of_true (inBounds_ok _) hzero⟩

/-- Once two keys are in, a range between them is read in bounds. -/
theorem range_in_bounds_twoPuts : ∃ w₀ b w,
    Db.construct 0 ⟨none, none, none⟩ = .ok (Buffer.empty, w₀) ∧
    run World.handle (updates 2 twoPuts) w₀ = .ok (b, w) ∧
    InBounds (run World.handle (Db.getRange b 2 4 SortedMap.empty) w) := by
  obtain ⟨w₀, b, w, hok, hrun, hreach, hb, -⟩ := twoPuts_spec
  have hsize : b.kv.size ≠ 0 := by
    rw [SortedMap.size, hb]
    decide
  have hiff := range_in_bounds_iff hreach (show (2 : Key) ≤ 4 by decide) SortedMap.empty
  exact ⟨w₀, b, w, hok, hrun, hiff.2.2 hsize⟩

/-- **A new database has nothing to dereference**: `GetRange(1, 2)` before any
`Put`. -/
theorem range_reads_empty_buffer : ∃ w₀,
    Db.construct 0 ⟨none, none, none⟩ = .ok (Buffer.empty, w₀) ∧ Db.Reachable w₀ Buffer.empty ∧
    run World.handle (Buffer.empty.getRange 1 2 SortedMap.empty) w₀ = .error .emptyContainer ∧
    run World.handle (Db.getRange Buffer.empty 1 2 SortedMap.empty) w₀ =
      .error .emptyContainer := by
  obtain ⟨w₀, hok, -⟩ := construct_at 0 ⟨none, none, none⟩
  have hk : (1 : Key) ≤ 2 := by decide
  exact ⟨w₀, hok, .construct hok, run_buffer_getRange_empty rfl hk _ _,
    run_getRange_empty rfl hk _ _⟩

end GhostDB
