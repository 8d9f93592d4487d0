import GhostDB.Shutdown

/-!
# Opening a database again

A database is destroyed and a new one constructed over the files it left.

* `PastEnd`, `scan_error_iff` — when the search of `Get` runs past the end of a
  table.
* `reopened` — the new database is empty, whatever the old one left on disk.
* `get_after_restart_iff` — for which keys `Get` answers as before.
-/

namespace GhostDB

open Prog SortedTable

/-! ## Reading past the end of a table -/

/-- The search for `key` reaches a run whose filter lets the key through and
whose keys are all smaller, no newer run holding the key. -/
def PastEnd (cs : List RunContent) (key : Key) : Prop :=
  ∃ older c newer, cs = older ++ c :: newer ∧ c.filter.couldHasKey key = true ∧
    (∀ kv ∈ c.pairs, kv.1 < key) ∧ ∀ c' ∈ newer, c'.pairs.lookup key = none

theorem not_pastEnd_nil (key : Key) : ¬ PastEnd [] key := by
  rintro ⟨older, c, newer, heq, -⟩
  simp at heq

/-- The newest run, or an older one once the newest does not hold the key. -/
theorem pastEnd_concat (cs : List RunContent) (c : RunContent) (key : Key) :
    PastEnd (cs ++ [c]) key ↔
      (c.filter.couldHasKey key = true ∧ ∀ kv ∈ c.pairs, kv.1 < key) ∨
        (c.pairs.lookup key = none ∧ PastEnd cs key) := by
  constructor
  · rintro ⟨older, d, newer, heq, hcould, hbelow, hnewer⟩
    rcases newer.eq_nil_or_concat with rfl | ⟨newer, e, rfl⟩
    · obtain ⟨-, hd⟩ := List.append_inj' heq rfl
      rw [List.cons.injEq] at hd
      rw [hd.1]
      exact .inl ⟨hcould, hbelow⟩
    · rw [List.concat_eq_append] at heq hnewer
      rw [← List.cons_append, ← List.append_assoc] at heq
      obtain ⟨hcs, he⟩ := List.append_inj' heq rfl
      rw [List.cons.injEq] at he
      rw [he.1]
      refine .inr ⟨hnewer e (by simp), older, d, newer, hcs, hcould, hbelow, ?_⟩
      intro c' hc'
      exact hnewer c' (List.mem_append_left _ hc')
  · rintro (⟨hcould, hbelow⟩ | ⟨hnone, older, d, newer, rfl, hcould, hbelow, hnewer⟩)
    · exact ⟨cs, c, [], rfl, hcould, hbelow, by simp⟩
    · refine ⟨older, d, newer ++ [c], by simp, hcould, hbelow, ?_⟩
      intro c' hc'
      rcases List.mem_append.1 hc' with hc' | hc'
      · exact hnewer c' hc'
      · rw [List.mem_singleton.1 hc']
        exact hnone

/-- **The search fails exactly there.** -/
theorem scan_error_iff {cs : List RunContent} (h : ∀ c ∈ cs, Honest c) (key : Key) :
    scan key cs.reverse = .error .endIterator ↔ PastEnd cs key := by
  induction cs using List.reverseRecOn with
  | nil => simp [scan, not_pastEnd_nil]
  | append_singleton cs c ih =>
    have hc := h c (by simp)
    have holder := ih fun c' hc' => h c' (by simp [hc'])
    rw [List.reverse_concat, scan, pastEnd_concat, ← holder]
    by_cases hcould : c.filter.couldHasKey key = true
    · rw [if_pos hcould, lowerBoundPair_eq, ← lowerBound_eq_nil_iff]
      cases hlb : lowerBound key c.pairs with
      | nil => simp [hcould]
      | cons it rest =>
        have hlookup := lookup_of_lowerBound_cons hc.1 hlb
        by_cases hit : it.1 = key
        · rw [if_pos hit] at hlookup
          simp [hit, hlookup]
        · rw [if_neg hit] at hlookup
          simp [hit, hlookup]
    · rw [if_neg hcould, hc.lookup_eq_none (by simpa using hcould)]
      simp [hcould]

/-- After the writes `ws`, `Get(key)` reads past the end of a table: the key is
not in the memtable, and the search through the runs gets there. -/
def ReadsPastEnd (ws : List MappingType) (key : Key) : Prop :=
  (splitWrites ws).2.kv.lookup key = none ∧
    PastEnd (contents (layout (splitWrites ws).1)) key

theorem not_readsPastEnd_nil (key : Key) : ¬ ReadsPastEnd [] key :=
  fun h => not_pastEnd_nil key h.2

namespace At

variable {ws : List MappingType} {w : World} {b : Buffer}

theorem get_error_iff (h : At ws w b) (key : Key) :
    run World.handle (Db.get b key) w = .error .endIterator ↔ ReadsPastEnd ws key := by
  obtain ⟨p, hrun⟩ := run_get h.holds b key
  rw [hrun, ReadsPastEnd, ← h.split, Buffer.get]
  cases b.kv.lookup key with
  | some val => simp
  | none =>
    rw [← scan_error_iff (honest_contents _)]
    cases scan key (contents (layout w.flushed)).reverse <;> simp [Except.map]

/-- **What `Get` answers**, without the store it leaves. -/
theorem get_answer (h : At ws w b) {key : Key} (hk : key ≠ tombstome) :
    (ReadsPastEnd ws key ∧
      (run World.handle (Db.get b key) w).map Prod.fst = .error .endIterator) ∨
    (¬ ReadsPastEnd ws key ∧ (run World.handle (Db.get b key) w).map Prod.fst =
      .ok ((lastWrite ws key).bind visible)) := by
  rcases h.get key with herr | ⟨val, w', hrun, -, hval⟩
  · refine .inl ⟨(h.get_error_iff key).1 herr, ?_⟩
    rw [herr]
    rfl
  · refine .inr ⟨?_, ?_⟩
    · rw [← h.get_error_iff key, hrun]
      simp
    · rw [hrun, hval hk]
      rfl

end At

/-! ## The new database -/

/-- **A database opened again is empty.**  After any writes and a shutdown,
unless a page overflows, the constructor makes a database in the state after no
writes: it clears the directory first. -/
theorem reopened {w₀ : World} (h₀ : At [] w₀ Buffer.empty) (fuel : Nat) (us : List Update) :
    run World.handle (lifetime (fuel + 2) us) w₀ = .error .pageOverflow ∨
      ∃ b w w' w₁, run World.handle (updates (fuel + 2) us) w₀ = .ok (b, w) ∧
        At (us.map Update.write) w b ∧
        run World.handle (Db.destroy (fuel + 2) b) w = .ok ((), w') ∧
        Db.construct fuel w'.store.disk.close = .ok (Buffer.empty, w₁) ∧
        At [] w₁ Buffer.empty := by
  rcases updates_spec h₀ fuel us with ⟨-, hrun⟩ | ⟨-, b, w, hrun, hat⟩
  · exact .inl (run_bind_of_error hrun)
  · by_cases hfits : ¬ Overflows w.flushed ∧
        mergedSize ((w.flushed ++ [b.kv]).map SortedMap.entries) ≤ 125
    · obtain ⟨s', hdestroy, -⟩ := destroy_spec hat.holds hat.full hfits.1 hfits.2 fuel
      obtain ⟨w₁, hconstruct, hat₁⟩ := construct_at fuel s'.disk.close
      exact .inr ⟨b, w, _, w₁, hrun, hat, hdestroy, hconstruct, hat₁⟩
    · refine .inl ((run_bind_of_ok hrun).trans (destroy_overflow hat.holds hat.full ?_ fuel))
      by_contra hcon
      push Not at hcon
      exact hfits hcon

/-- **What survives a restart.**  After any writes on a new database, a shutdown
and a new construction over the files left, unless a page overflows: `Get(key)`
answers as it did before the shutdown exactly when the key was not live and the
old `Get` did not read past the end of a table. -/
theorem get_after_restart_iff (fuel : Nat) (files : Files) (us : List Update) {key : Key}
    (hk : key ≠ tombstome) :
    ∃ w₀, Db.construct fuel files = .ok (Buffer.empty, w₀) ∧
      (run World.handle (lifetime (fuel + 2) us) w₀ = .error .pageOverflow ∨
        ∃ b w w' w₁, run World.handle (updates (fuel + 2) us) w₀ = .ok (b, w) ∧
          run World.handle (Db.destroy (fuel + 2) b) w = .ok ((), w') ∧
          Db.construct fuel w'.store.disk.close = .ok (Buffer.empty, w₁) ∧
          ((run World.handle (Db.get Buffer.empty key) w₁).map Prod.fst =
              (run World.handle (Db.get b key) w).map Prod.fst ↔
            (lastWrite (us.map Update.write) key).bind visible = none ∧
              ¬ ReadsPastEnd (us.map Update.write) key)) := by
  obtain ⟨w₀, hconstruct, hat₀⟩ := construct_at fuel files
  refine ⟨w₀, hconstruct, ?_⟩
  rcases reopened hat₀ fuel us with herr | ⟨b, w, w', w₁, hrun, hat, hdestroy, hagain, hat₁⟩
  · exact .inl herr
  · refine .inr ⟨b, w, w', w₁, hrun, hdestroy, hagain, ?_⟩
    have hnew : (run World.handle (Db.get Buffer.empty key) w₁).map Prod.fst = .ok none := by
      rcases hat₁.get_answer hk with ⟨hpast, -⟩ | ⟨-, hok⟩
      · exact absurd hpast (not_readsPastEnd_nil key)
      · exact hok
    rw [hnew]
    rcases hat.get_answer hk with ⟨hpast, herr⟩ | ⟨hpast, hok⟩
    · rw [herr]
      simp [hpast]
    · rw [hok]
      simp [hpast, eq_comm]

/-- Six writes, one of them a deletion: the first five keys are flushed before
the shutdown. -/
def deleteTwo : List Update :=
  [.put 1 10, .delete 2, .put 3 30, .put 4 40, .put 5 50, .put 6 60]

/-- A key whose tombstone was flushed is as absent after the restart as before. -/
theorem deleted_key_after_restart :
    (2 : Key) ≠ tombstome ∧
    ∃ w₀ b w w' w₁, Db.construct 0 ⟨none, none, none⟩ = .ok (Buffer.empty, w₀) ∧
      run World.handle (updates 2 deleteTwo) w₀ = .ok (b, w) ∧
      run World.handle (Db.destroy 2 b) w = .ok ((), w') ∧
      Db.construct 0 w'.store.disk.close = .ok (Buffer.empty, w₁) ∧
      (run World.handle (Db.get Buffer.empty 2) w₁).map Prod.fst =
        (run World.handle (Db.get b 2) w).map Prod.fst := by
  refine ⟨by decide, ?_⟩
  obtain ⟨w₀, hconstruct, hspec⟩ :=
    get_after_restart_iff 0 ⟨none, none, none⟩ deleteTwo (show (2 : Key) ≠ tombstome by decide)
  obtain ⟨w₂, hagain, hat⟩ := construct_at 0 ⟨none, none, none⟩
  cases hconstruct.symm.trans hagain
  rcases hspec with herr | ⟨b, w, w', w₁, hrun, hdestroy, hagain, hiff⟩
  · exact absurd herr (lifetime_ne_overflow hat 0 (by decide) (by decide +kernel))
  · refine ⟨w₀, b, w, w', w₁, hconstruct, hrun, hdestroy, hagain, hiff.2 ⟨by decide, ?_⟩⟩
    rintro ⟨-, hpast⟩
    -- the one run holds keys above 2
    have hrun : contents (layout (splitWrites (deleteTwo.map Update.write)).1) =
        [] ++ [RunContent.ofTable 0 [(1, 10), (2, tombstome), (3, 30), (4, 40), (5, 50)]] := by
      decide +kernel
    rw [hrun, pastEnd_concat] at hpast
    rcases hpast with ⟨-, hbelow⟩ | ⟨-, hnil⟩
    · exact absurd (hbelow (3, 30) (by simp)) (by decide)
    · exact not_pastEnd_nil 2 hnil

/-- **One written key is lost by a restart**: it is read back before the
shutdown and absent afterwards. -/
theorem restart_loses_a_key :
    ∃ w₀ b w w' w₁, Db.construct 0 ⟨none, none, none⟩ = .ok (Buffer.empty, w₀) ∧
      run World.handle (updates 2 [.put 1 10]) w₀ = .ok (b, w) ∧
      run World.handle (Db.destroy 2 b) w = .ok ((), w') ∧
      Db.construct 0 w'.store.disk.close = .ok (Buffer.empty, w₁) ∧
      (run World.handle (Db.get b 1) w).map Prod.fst = .ok (some 10) ∧
      (run World.handle (Db.get Buffer.empty 1) w₁).map Prod.fst = .ok none := by
  have hk : (1 : Key) ≠ tombstome := by decide
  obtain ⟨w₀, hconstruct, hat₀⟩ := construct_at 0 ⟨none, none, none⟩
  rcases reopened hat₀ 0 [.put 1 10] with herr | ⟨b, w, w', w₁, hrun, hat, hdestroy, hagain, hat₁⟩
  · exact absurd herr (lifetime_ne_overflow hat₀ 0 (by decide) (by decide))
  · refine ⟨w₀, b, w, w', w₁, hconstruct, hrun, hdestroy, hagain, ?_, ?_⟩
    · rcases hat.get_answer hk with ⟨hpast, -⟩ | ⟨-, hok⟩
      · exact absurd hpast.2 (not_pastEnd_nil 1)
      · exact hok
    · rcases hat₁.get_answer hk with ⟨hpast, -⟩ | ⟨-, hok⟩
      · exact absurd hpast (not_readsPastEnd_nil 1)
      · exact hok

end GhostDB
