import GhostDB.Util

/-!
# What a merge keeps

`MergeSSTable` keeps sortedness (`sorted_mergeSSTable`) and, for every key other
than `INT32_MIN`, is newest-wins (`lookup_mergeSSTable`).  The key `INT32_MIN`
is the one the equal-key branch singles out: it survives a merge exactly when
one of the two tables holds it and the other does not (`holdsMin_mergeSSTable`),
so a merge is newest-wins for every key unless both do
(`merge_newest_wins_iff`).

Folding merges over an age-ordered list of tables (`foldMerge`) therefore keeps
the newest-first lookups (`lookup_foldMerge`), and its size is known exactly
from the tables alone: the distinct keys other than `INT32_MIN`, plus one if an
odd number of the tables hold `INT32_MIN` (`length_foldMerge`).
-/

namespace GhostDB

open SortedTable

theorem mergeSSTable_nil_right (new : SSTable) : mergeSSTable new [] = new := by
  cases new <;> rw [mergeSSTable]
  simp

/-- Every pair of a merge comes from one of the two tables. -/
theorem mem_mergeSSTable {new old : SSTable} {p : MappingType} (h : p ∈ mergeSSTable new old) :
    p ∈ new ∨ p ∈ old := by
  fun_induction mergeSSTable new old with
  | case1 old => exact Or.inr h
  | case2 new hnew => exact Or.inl h
  | case3 nk nv new ok ov old hlt ih =>
    rcases List.mem_cons.1 h with rfl | h
    · exact Or.inl (List.mem_cons_self ..)
    · exact (ih h).imp (List.mem_cons_of_mem _) id
  | case4 nk nv new ok ov old hge hlt ih =>
    rcases List.mem_cons.1 h with rfl | h
    · exact Or.inr (List.mem_cons_self ..)
    · exact (ih h).imp id (List.mem_cons_of_mem _)
  | case5 nk nv new ok ov old hge hle hmin ih =>
    rcases List.mem_cons.1 h with rfl | h
    · exact Or.inl (List.mem_cons_self ..)
    · exact (ih h).imp (List.mem_cons_of_mem _) (List.mem_cons_of_mem _)
  | case6 nk nv new ok ov old hge hle hmin ih =>
    exact (ih h).imp (List.mem_cons_of_mem _) (List.mem_cons_of_mem _)

/-- **A merge of sorted tables is sorted.** -/
theorem sorted_mergeSSTable {new old : SSTable} (hn : Sorted new) (ho : Sorted old) :
    Sorted (mergeSSTable new old) := by
  fun_induction mergeSSTable new old with
  | case1 old => exact ho
  | case2 new hnew => exact hn
  | case3 nk nv new ok ov old hlt ih =>
    rw [sorted_cons] at hn ⊢
    refine ⟨?_, ih hn.2 ho⟩
    intro q hq
    rcases mem_mergeSSTable hq with hq | hq
    · exact hn.1 q hq
    · rcases List.mem_cons.1 hq with rfl | hq
      · exact hlt
      · exact lt_trans hlt ((sorted_cons.1 ho).1 q hq)
  | case4 nk nv new ok ov old hge hlt ih =>
    rw [sorted_cons] at ho ⊢
    refine ⟨?_, ih hn ho.2⟩
    intro q hq
    rcases mem_mergeSSTable hq with hq | hq
    · rcases List.mem_cons.1 hq with rfl | hq
      · exact hlt
      · exact lt_trans hlt ((sorted_cons.1 hn).1 q hq)
    · exact ho.1 q hq
  | case5 nk nv new ok ov old hge hle hmin ih =>
    have heq : ok = nk := le_antisymm (not_lt.1 hge) (not_lt.1 hle)
    rw [sorted_cons] at hn ho ⊢
    refine ⟨?_, ih hn.2 ho.2⟩
    intro q hq
    rcases mem_mergeSSTable hq with hq | hq
    · exact hn.1 q hq
    · exact heq ▸ ho.1 q hq
  | case6 nk nv new ok ov old hge hle hmin ih => exact ih hn.tail ho.tail

/-- A key that is not in a table is not in its tail. -/
theorem lookup_tail_eq_none {p : MappingType} {t : SSTable} {k : Key}
    (h : (p :: t).lookup k = none) : t.lookup k = none := by
  rw [lookup_cons_eq] at h
  split at h
  · cases h
  · exact h

/-- **Newest wins**, for every key but the one the merge singles out, and for
that one too unless both tables hold it. -/
theorem lookup_mergeSSTable_of_once {new old : SSTable} (hn : Sorted new) (ho : Sorted old)
    {k : Key} (hk : k ≠ tombstome ∨ new.lookup k = none ∨ old.lookup k = none) :
    (mergeSSTable new old).lookup k = (new.lookup k).or (old.lookup k) := by
  fun_induction mergeSSTable new old with
  | case1 old => simp
  | case2 new hnew => simp
  | case3 nk nv new ok ov old hlt ih =>
    rw [lookup_cons_eq, lookup_cons_eq nk,
      ih hn.tail ho (hk.imp_right (Or.imp_left lookup_tail_eq_none))]
    by_cases h : k = nk <;> simp [h]
  | case4 nk nv new ok ov old hge hlt ih =>
    rw [lookup_cons_eq, ih hn ho.tail (hk.imp_right (Or.imp_right lookup_tail_eq_none)),
      lookup_cons_eq ok]
    by_cases h : k = ok
    · -- the newer table starts above `ok`, so it cannot hold it
      have hno : ((nk, nv) :: new).lookup k = none := by
        apply lookup_eq_none_of_forall_ne
        intro q hq
        rcases List.mem_cons.1 hq with rfl | hq
        · exact h ▸ ne_of_gt hlt
        · exact h ▸ ne_of_gt (lt_trans hlt ((sorted_cons.1 hn).1 q hq))
      rw [hno]
      simp [h]
    · simp [h]
  | case5 nk nv new ok ov old hge hle hmin ih =>
    have heq : ok = nk := le_antisymm (not_lt.1 hge) (not_lt.1 hle)
    have htails := hk.imp_right (Or.imp lookup_tail_eq_none lookup_tail_eq_none)
    rw [lookup_cons_eq, lookup_cons_eq nk, lookup_cons_eq ok, ih hn.tail ho.tail htails, heq]
    by_cases h : k = nk <;> simp [h]
  | case6 nk nv new ok ov old hge hle hmin ih =>
    have heq : ok = nk := le_antisymm (not_lt.1 hge) (not_lt.1 hle)
    -- both tables start with the key that is dropped, so it is not `k`
    have hnk : k ≠ nk := by
      rintro rfl
      rcases hk with hk | hk | hk
      · exact hk (not_not.1 hmin)
      · simp at hk
      · simp [heq] at hk
    have htails := hk.imp_right (Or.imp lookup_tail_eq_none lookup_tail_eq_none)
    rw [lookup_cons_eq nk, lookup_cons_eq ok, ih hn.tail ho.tail htails, heq]
    simp [hnk]

theorem lookup_mergeSSTable {new old : SSTable} (hn : Sorted new) (ho : Sorted old) {k : Key}
    (hk : k ≠ tombstome) :
    (mergeSSTable new old).lookup k = (new.lookup k).or (old.lookup k) :=
  lookup_mergeSSTable_of_once hn ho (.inl hk)

/-! ## The key the merge singles out -/

/-- Does the table hold the key `INT32_MIN`?  In a sorted table it can only come
first. -/
def holdsMin (t : SSTable) : Bool := t.any fun p => p.1 = tombstome

/-- The keys of a table other than `INT32_MIN`. -/
def plainKeys (t : SSTable) : Finset Key := (t.map Prod.fst).toFinset.erase tombstome

theorem mem_plainKeys {t : SSTable} {k : Key} :
    k ∈ plainKeys t ↔ k ≠ tombstome ∧ t.lookup k ≠ none := by
  rw [lookup_ne_none_iff]
  simp [plainKeys]

theorem holdsMin_iff {t : SSTable} : holdsMin t = true ↔ t.lookup tombstome ≠ none := by
  rw [lookup_ne_none_iff]
  simp [holdsMin]

theorem tombstome_le (k : Key) : tombstome ≤ k := Int32.minValue_le k

/-- Past its first pair a sorted table does not hold the smallest key. -/
theorem holdsMin_tail {p : MappingType} {t : SSTable} (h : Sorted (p :: t)) :
    holdsMin t = false := by
  rw [holdsMin, List.any_eq_false]
  intro q hq
  simpa using ne_of_gt (lt_of_le_of_lt (tombstome_le p.1) ((sorted_cons.1 h).1 q hq))

theorem holdsMin_cons {p : MappingType} {t : SSTable} (h : Sorted (p :: t)) :
    holdsMin (p :: t) = decide (p.1 = tombstome) := by
  have ht := holdsMin_tail h
  rw [holdsMin] at ht ⊢
  rw [List.any_cons, ht, Bool.or_false]

/-- **`INT32_MIN` survives a merge only alone**: exactly one of the tables holds
it. -/
theorem holdsMin_mergeSSTable {new old : SSTable} (hn : Sorted new) (ho : Sorted old) :
    holdsMin (mergeSSTable new old) = xor (holdsMin new) (holdsMin old) := by
  fun_induction mergeSSTable new old with
  | case1 old => simp [holdsMin]
  | case2 new hnew => simp [holdsMin]
  | case3 nk nv new ok ov old hlt ih =>
    have hold : holdsMin ((ok, ov) :: old) = false := by
      rw [holdsMin_cons ho]
      simpa using ne_of_gt (lt_of_le_of_lt (tombstome_le nk) hlt)
    have hrest : holdsMin (mergeSSTable new ((ok, ov) :: old)) = false := by
      rw [ih hn.tail ho, hold, holdsMin_tail hn]; rfl
    rw [holdsMin_cons hn, hold, Bool.xor_false]
    rw [holdsMin] at hrest ⊢
    rw [List.any_cons, hrest, Bool.or_false]
  | case4 nk nv new ok ov old hge hlt ih =>
    have hnew : holdsMin ((nk, nv) :: new) = false := by
      rw [holdsMin_cons hn]
      simpa using ne_of_gt (lt_of_le_of_lt (tombstome_le ok) hlt)
    have hrest : holdsMin (mergeSSTable ((nk, nv) :: new) old) = false := by
      rw [ih hn ho.tail, hnew, holdsMin_tail ho]; rfl
    rw [holdsMin_cons ho, hnew, Bool.false_xor]
    rw [holdsMin] at hrest ⊢
    rw [List.any_cons, hrest, Bool.or_false]
  | case5 nk nv new ok ov old hge hle hmin ih =>
    have heq : ok = nk := le_antisymm (not_lt.1 hge) (not_lt.1 hle)
    have hrest : holdsMin (mergeSSTable new old) = false := by
      rw [ih hn.tail ho.tail, holdsMin_tail hn, holdsMin_tail ho]; rfl
    rw [holdsMin_cons hn, holdsMin_cons ho, heq, Bool.xor_self]
    rw [holdsMin] at hrest ⊢
    rw [List.any_cons, hrest]
    simpa using hmin
  | case6 nk nv new ok ov old hge hle hmin ih =>
    have heq : ok = nk := le_antisymm (not_lt.1 hge) (not_lt.1 hle)
    rw [ih hn.tail ho.tail, holdsMin_tail hn, holdsMin_tail ho, holdsMin_cons hn,
      holdsMin_cons ho, heq, Bool.xor_self, Bool.xor_self]

/-- **When a merge is newest-wins for every key**: unless both tables hold the
key `INT32_MIN`, which the equal-key branch then drops. -/
theorem merge_newest_wins_iff {new old : SSTable} (hn : Sorted new) (ho : Sorted old) :
    (Sorted (mergeSSTable new old) ∧
      ∀ k, (mergeSSTable new old).lookup k = (new.lookup k).or (old.lookup k)) ↔
    ¬ (new.lookup Int32.minValue ≠ none ∧ old.lookup Int32.minValue ≠ none) := by
  constructor
  · rintro ⟨-, hlookup⟩ ⟨hnew, hold⟩
    have hdropped : holdsMin (mergeSSTable new old) = false := by
      rw [holdsMin_mergeSSTable hn ho, holdsMin_iff.2 hnew, holdsMin_iff.2 hold]
      rfl
    have hkept : holdsMin (mergeSSTable new old) = true := by
      rw [holdsMin_iff]
      show (mergeSSTable new old).lookup Int32.minValue ≠ none
      rw [hlookup]
      cases h : new.lookup Int32.minValue with
      | none => exact absurd h hnew
      | some v => simp
    rw [hdropped] at hkept
    cases hkept
  · intro honce
    refine ⟨sorted_mergeSSTable hn ho, ?_⟩
    intro k
    apply lookup_mergeSSTable_of_once hn ho
    by_cases hk : k = tombstome
    · subst hk
      rw [not_and_or, not_not, not_not] at honce
      exact .inr honce
    · exact .inl hk

/-- The newer value of 1 and the tombstone of 2 survive. -/
theorem merge_newest_wins_two :
    Sorted (mergeSSTable [(1, 10)] [(1, 20), (2, tombstome)]) ∧
      ∀ k, (mergeSSTable [(1, 10)] [(1, 20), (2, tombstome)]).lookup k =
        (([(1, 10)] : SSTable).lookup k).or (([(1, 20), (2, tombstome)] : SSTable).lookup k) :=
  (merge_newest_wins_iff (by decide) (by decide)).2 (by decide)

/-- **A key in both tables is lost** when it is `INT32_MIN`. -/
theorem merge_drops_min :
    Sorted ([(Int32.minValue, 1)] : SSTable) ∧ Sorted ([(Int32.minValue, 2)] : SSTable) ∧
      ¬ ∀ k, (mergeSSTable [(Int32.minValue, 1)] [(Int32.minValue, 2)]).lookup k =
        (([(Int32.minValue, 1)] : SSTable).lookup k).or
          (([(Int32.minValue, 2)] : SSTable).lookup k) := by
  refine ⟨by decide, by decide, ?_⟩
  intro h
  have hmin := h Int32.minValue
  rw [mergeSSTable] at hmin
  simp [mergeSSTable, tombstome] at hmin

/-- A merge loses no key but possibly `INT32_MIN`, and invents none. -/
theorem plainKeys_mergeSSTable {new old : SSTable} (hn : Sorted new) (ho : Sorted old) :
    plainKeys (mergeSSTable new old) = plainKeys new ∪ plainKeys old := by
  ext k
  rw [Finset.mem_union, mem_plainKeys, mem_plainKeys, mem_plainKeys]
  by_cases hk : k = tombstome
  · simp [hk]
  · rw [lookup_mergeSSTable hn ho hk]
    simp only [ne_eq, hk, not_false_eq_true, true_and, Option.or_eq_none_iff]
    tauto

/-- The size of a sorted table, counted by its keys. -/
theorem length_eq_card {t : SSTable} (h : Sorted t) :
    t.length = (plainKeys t).card + (holdsMin t).toNat := by
  have hcard : t.length = (t.map Prod.fst).toFinset.card := by
    rw [List.toFinset_card_of_nodup h.keys_nodup, List.length_map]
  rw [hcard, plainKeys]
  cases hm : holdsMin t with
  | true =>
    have hmem : tombstome ∈ (t.map Prod.fst).toFinset := by
      obtain ⟨q, hq, hqk⟩ := lookup_ne_none_iff.1 (holdsMin_iff.1 hm)
      exact List.mem_toFinset.2 (List.mem_map.2 ⟨q, hq, hqk⟩)
    rw [Finset.card_erase_of_mem hmem]
    have := Finset.card_pos.2 ⟨_, hmem⟩
    simp only [Bool.toNat_true]
    omega
  | false =>
    have hmem : tombstome ∉ (t.map Prod.fst).toFinset := by
      intro hmem
      obtain ⟨q, hq, hqk⟩ := List.mem_map.1 (List.mem_toFinset.1 hmem)
      have : holdsMin t = true := holdsMin_iff.2 (lookup_ne_none_iff.2 ⟨q, hq, hqk⟩)
      simp [hm] at this
    rw [Finset.erase_eq_of_notMem hmem]
    simp

/-! ## Folding merges over tables in age order -/

/-- The table compaction builds from tables ordered from oldest to newest: the
left fold of `MergeSSTable` from the empty table. -/
def foldMerge (ts : List SSTable) : SSTable := ts.foldl (fun acc t => mergeSSTable t acc) []

@[simp] theorem foldMerge_nil : foldMerge [] = [] := rfl

@[simp] theorem foldMerge_singleton (t : SSTable) : foldMerge [t] = t :=
  mergeSSTable_nil_right t

theorem foldMerge_concat (ts : List SSTable) (t : SSTable) :
    foldMerge (ts ++ [t]) = mergeSSTable t (foldMerge ts) := by
  simp [foldMerge, List.foldl_append]

/-- A table that is itself a fold may be unfolded in front of newer tables. -/
theorem foldMerge_cons_foldMerge (ss ts : List SSTable) :
    foldMerge (foldMerge ss :: ts) = foldMerge (ss ++ ts) := by
  rw [foldMerge, List.foldl_cons, mergeSSTable_nil_right, foldMerge, foldMerge,
    List.foldl_append]

theorem sorted_foldMerge {ts : List SSTable} (h : ∀ t ∈ ts, Sorted t) : Sorted (foldMerge ts) :=
  sorted_foldl_merge mergeSSTable (fun _ _ => sorted_mergeSSTable) h sorted_nil

/-- **A fold of merges answers like the newest-first search** through the tables
it was built from. -/
theorem lookup_foldMerge {ts : List SSTable} (h : ∀ t ∈ ts, Sorted t) {k : Key}
    (hk : k ≠ tombstome) : (foldMerge ts).lookup k = newest ts k := by
  have hlookup := lookup_foldl_merge mergeSSTable k (fun _ _ => sorted_mergeSSTable)
    (fun _ _ hn ho => lookup_mergeSSTable hn ho hk) h sorted_nil
  rw [foldMerge, hlookup, List.lookup_nil, Option.or_none]

/-- The keys other than `INT32_MIN` of a list of tables. -/
def distinctKeys (ts : List SSTable) : Finset Key := ts.foldl (fun acc t => plainKeys t ∪ acc) ∅

theorem mem_foldl_union {ts : List SSTable} {acc : Finset Key} {k : Key} :
    k ∈ ts.foldl (fun acc t => plainKeys t ∪ acc) acc ↔
      k ∈ acc ∨ ∃ t ∈ ts, k ∈ plainKeys t := by
  induction ts generalizing acc with
  | nil => simp
  | cons t ts ih =>
    rw [List.foldl_cons, ih, Finset.mem_union]
    simp only [List.mem_cons, exists_eq_or_imp]
    tauto

theorem mem_distinctKeys {ts : List SSTable} {k : Key} :
    k ∈ distinctKeys ts ↔ ∃ t ∈ ts, k ∈ plainKeys t := by
  rw [distinctKeys, mem_foldl_union]
  simp

/-- How many of the tables hold `INT32_MIN`. -/
def minCount (ts : List SSTable) : Nat := ts.countP holdsMin

/-- The size of the merge of the tables: their distinct keys, `INT32_MIN`
counting only when an odd number of them hold it. -/
def mergedSize (ts : List SSTable) : Nat := (distinctKeys ts).card + minCount ts % 2

theorem plainKeys_foldMerge {ts : List SSTable} (h : ∀ t ∈ ts, Sorted t) :
    plainKeys (foldMerge ts) = distinctKeys ts := by
  induction ts using List.reverseRecOn with
  | nil => rfl
  | append_singleton ts t ih =>
    have hts : ∀ s ∈ ts, Sorted s := fun s hs => h s (by simp [hs])
    rw [foldMerge_concat, plainKeys_mergeSSTable (h t (by simp)) (sorted_foldMerge hts), ih hts,
      distinctKeys, distinctKeys, List.foldl_append]
    rfl

theorem holdsMin_foldMerge {ts : List SSTable} (h : ∀ t ∈ ts, Sorted t) :
    holdsMin (foldMerge ts) = decide (minCount ts % 2 = 1) := by
  induction ts using List.reverseRecOn with
  | nil => rfl
  | append_singleton ts t ih =>
    have hts : ∀ s ∈ ts, Sorted s := fun s hs => h s (by simp [hs])
    rw [foldMerge_concat, holdsMin_mergeSSTable (h t (by simp)) (sorted_foldMerge hts), ih hts,
      minCount, minCount, List.countP_append, List.countP_singleton]
    cases holdsMin t with
    | true => by_cases hc : ts.countP holdsMin % 2 = 1 <;> simp [hc] <;> omega
    | false => simp

/-- **The exact size of a compaction's result.** -/
theorem length_foldMerge {ts : List SSTable} (h : ∀ t ∈ ts, Sorted t) :
    (foldMerge ts).length = mergedSize ts := by
  rw [length_eq_card (sorted_foldMerge h), plainKeys_foldMerge h, holdsMin_foldMerge h, mergedSize]
  rcases Nat.mod_two_eq_zero_or_one (minCount ts) with hm | hm <;> simp [hm]

end GhostDB
