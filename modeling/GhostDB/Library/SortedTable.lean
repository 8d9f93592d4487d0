import Mathlib

/-!
# Tables sorted by key

A **table** is a list of key-value pairs; it is *sorted* when its keys strictly
increase.  This is the shape of an ordered map walked from begin to end, and of
a run of a log-structured store.  The file collects what such stores need:

* `lookup_eq_some_iff` / `ext_lookup` — in a sorted table a key has at most one
  value, so the table is determined by its lookups.
* `insert` — the update of an ordered map, with `lookup_insert` and
  `sorted_insert`.
* `SortedMap` — a table that carries its sortedness: the ordered map itself.
* `next` / `readTo` — an iterator is the suffix it has left to read, and
  `readTo_append` / `readTo_of_lt` say when a loop between two of them ends.
* `lowerBound` — the suffix a lower-bound search stops at, with the two facts a
  point lookup needs (`lookup_of_lowerBound_cons`, `lowerBound_eq_nil_iff`) and
  the two a range needs (`lowerBound_eq_append`, `exists_range_split`).
* `newest` — the newest-first lookup over a list of tables ordered by age, and
  `lookup_foldl_merge`: any merge that prefers its newer argument folds an age
  ordered list into one table with the same lookups.
-/

namespace SortedTable

variable {K V : Type} [LinearOrder K]

/-- The keys strictly increase along the table. -/
def Sorted (t : List (K × V)) : Prop := t.Pairwise fun a b => a.1 < b.1

instance (t : List (K × V)) : Decidable (Sorted t) := by unfold Sorted; infer_instance

@[simp] theorem sorted_nil : Sorted ([] : List (K × V)) := List.Pairwise.nil

@[simp] theorem sorted_singleton (p : K × V) : Sorted [p] := List.pairwise_singleton _ _

theorem sorted_cons {p : K × V} {t : List (K × V)} :
    Sorted (p :: t) ↔ (∀ q ∈ t, p.1 < q.1) ∧ Sorted t := List.pairwise_cons

theorem Sorted.tail {p : K × V} {t : List (K × V)} (h : Sorted (p :: t)) : Sorted t :=
  (sorted_cons.1 h).2

theorem Sorted.keys_nodup {t : List (K × V)} (h : Sorted t) : (t.map Prod.fst).Nodup := by
  rw [List.Nodup, List.pairwise_map]
  exact h.imp fun hlt => ne_of_lt hlt

theorem Sorted.sublist {s t : List (K × V)} (h : Sorted t) (hs : s.Sublist t) : Sorted s :=
  List.Pairwise.sublist hs h

theorem Sorted.head_le {t : List (K × V)} (h : Sorted t) {p : K × V} (hp : t.head? = some p) :
    ∀ q ∈ t, p.1 ≤ q.1 := by
  obtain ⟨rest, rfl⟩ := List.head?_eq_some_iff.1 hp
  intro q hq
  rcases List.mem_cons.1 hq with rfl | hq
  · exact le_rfl
  · exact ((sorted_cons.1 h).1 q hq).le

theorem Sorted.le_getLast {t : List (K × V)} (h : Sorted t) {p : K × V}
    (hp : t.getLast? = some p) : ∀ q ∈ t, q.1 ≤ p.1 := by
  obtain ⟨front, rfl⟩ := List.getLast?_eq_some_iff.1 hp
  intro q hq
  rcases List.mem_append.1 hq with hq | hq
  · exact ((List.pairwise_append.1 h).2.2 q hq p (List.mem_singleton_self p)).le
  · rw [List.mem_singleton.1 hq]

/-! ## Lookups -/

theorem lookup_cons_eq (a : K) (v : V) (t : List (K × V)) (k : K) :
    ((a, v) :: t).lookup k = if k = a then some v else t.lookup k := by
  rw [List.lookup_cons]
  by_cases h : k = a
  · simp [h]
  · rw [beq_eq_false_iff_ne.2 h, if_neg h]

theorem lookup_eq_none_of_forall_ne {t : List (K × V)} {k : K} (h : ∀ q ∈ t, q.1 ≠ k) :
    t.lookup k = none := by
  rw [List.lookup_eq_none_iff]
  intro q hq
  simpa using fun hk => h q hq hk.symm

theorem lookup_ne_none_iff {t : List (K × V)} {k : K} :
    t.lookup k ≠ none ↔ ∃ q ∈ t, q.1 = k := by
  constructor
  · intro h
    by_contra hno
    push Not at hno
    exact h (lookup_eq_none_of_forall_ne hno)
  · rintro ⟨q, hq, rfl⟩ hnone
    rw [List.lookup_eq_none_iff] at hnone
    simpa using hnone q hq

/-- **A sorted table holds one value per key**: the first match is the only
one. -/
theorem lookup_eq_some_iff {t : List (K × V)} (h : Sorted t) {k : K} {v : V} :
    t.lookup k = some v ↔ (k, v) ∈ t := by
  induction t with
  | nil => simp
  | cons p t ih =>
    obtain ⟨a, w⟩ := p
    rw [sorted_cons] at h
    rw [lookup_cons_eq, List.mem_cons, ← ih h.2]
    by_cases hk : k = a
    · subst hk
      have hno : t.lookup k = none :=
        lookup_eq_none_of_forall_ne fun q hq => ne_of_gt (h.1 q hq)
      simp [hno, eq_comm]
    · simp [hk]

/-- **Sorted tables with the same lookups are the same table.** -/
theorem ext_lookup {s t : List (K × V)} (hs : Sorted s) (ht : Sorted t)
    (h : ∀ k, s.lookup k = t.lookup k) : s = t := by
  have hmem : ∀ p, p ∈ s ↔ p ∈ t := by
    rintro ⟨k, v⟩
    rw [← lookup_eq_some_iff hs, ← lookup_eq_some_iff ht, h k]
  have hperm : s.Perm t :=
    (List.perm_ext_iff_of_nodup hs.keys_nodup.of_map ht.keys_nodup.of_map).2 hmem
  exact hperm.eq_of_pairwise (fun a b _ _ hab hba => absurd hab (lt_asymm hba)) hs ht

/-! ## The update of an ordered map -/

/-- Set the value of a key, keeping the order: `m[k] = v`. -/
def insert (k : K) (v : V) : List (K × V) → List (K × V)
  | [] => [(k, v)]
  | (a, w) :: t =>
    if k < a then (k, v) :: (a, w) :: t
    else if a < k then (a, w) :: insert k v t
    else (k, v) :: t

theorem lookup_insert (k : K) (v : V) (t : List (K × V)) (j : K) :
    (insert k v t).lookup j = if j = k then some v else t.lookup j := by
  induction t with
  | nil => rw [insert, lookup_cons_eq]
  | cons p t ih =>
    obtain ⟨a, w⟩ := p
    unfold insert
    by_cases h1 : k < a
    · rw [if_pos h1, lookup_cons_eq]
    · rw [if_neg h1]
      by_cases h2 : a < k
      · rw [if_pos h2, lookup_cons_eq, lookup_cons_eq, ih]
        by_cases hj : j = a
        · subst hj
          simp [ne_of_lt h2]
        · simp [hj]
      · have hak : a = k := le_antisymm (not_lt.1 h1) (not_lt.1 h2)
        subst hak
        rw [if_neg h2, lookup_cons_eq, lookup_cons_eq]
        by_cases hj : j = a <;> simp [hj]

theorem mem_insert {k : K} {v : V} {t : List (K × V)} {p : K × V} (h : p ∈ insert k v t) :
    p = (k, v) ∨ p ∈ t := by
  induction t with
  | nil => simp only [insert, List.mem_singleton] at h; exact Or.inl h
  | cons q t ih =>
    obtain ⟨a, w⟩ := q
    unfold insert at h
    by_cases h1 : k < a
    · rw [if_pos h1, List.mem_cons] at h
      exact h
    · rw [if_neg h1] at h
      by_cases h2 : a < k
      · rw [if_pos h2, List.mem_cons] at h
        rcases h with rfl | h
        · exact Or.inr (List.mem_cons_self ..)
        · exact (ih h).imp id (List.mem_cons_of_mem _)
      · rw [if_neg h2, List.mem_cons] at h
        exact h.imp id (List.mem_cons_of_mem _)

theorem sorted_insert {k : K} {v : V} {t : List (K × V)} (h : Sorted t) :
    Sorted (insert k v t) := by
  induction t with
  | nil => exact sorted_singleton _
  | cons p t ih =>
    obtain ⟨a, w⟩ := p
    rw [sorted_cons] at h
    unfold insert
    by_cases h1 : k < a
    · rw [if_pos h1, sorted_cons, sorted_cons]
      refine ⟨?_, h⟩
      intro q hq
      rcases List.mem_cons.1 hq with rfl | hq
      · exact h1
      · exact lt_trans h1 (h.1 q hq)
    · rw [if_neg h1]
      by_cases h2 : a < k
      · rw [if_pos h2, sorted_cons]
        refine ⟨?_, ih h.2⟩
        intro q hq
        rcases mem_insert hq with rfl | hq
        · exact h2
        · exact h.1 q hq
      · have hak : a = k := le_antisymm (not_lt.1 h1) (not_lt.1 h2)
        rw [if_neg h2, sorted_cons]
        exact ⟨fun q hq => hak ▸ h.1 q hq, h.2⟩

/-- Updating a key that is present keeps the number of pairs. -/
theorem length_insert_of_mem {k : K} {v : V} {t : List (K × V)} (hs : Sorted t)
    (h : t.lookup k ≠ none) : (insert k v t).length = t.length := by
  induction t with
  | nil => exact absurd rfl h
  | cons p t ih =>
    obtain ⟨a, w⟩ := p
    rw [sorted_cons] at hs
    unfold insert
    rw [lookup_cons_eq] at h
    by_cases h1 : k < a
    · rw [if_neg (ne_of_lt h1)] at h
      obtain ⟨q, hq, rfl⟩ := lookup_ne_none_iff.1 h
      exact absurd (hs.1 q hq) (lt_asymm h1)
    · rw [if_neg h1]
      by_cases h2 : a < k
      · rw [if_neg (ne_of_gt h2)] at h
        rw [if_pos h2, List.length_cons, List.length_cons, ih hs.2 h]
      · rw [if_neg h2, List.length_cons, List.length_cons]

/-- Setting a key that is absent adds one pair. -/
theorem length_insert_of_not_mem {k : K} {v : V} {t : List (K × V)}
    (h : t.lookup k = none) : (insert k v t).length = t.length + 1 := by
  induction t with
  | nil => rfl
  | cons p t ih =>
    obtain ⟨a, w⟩ := p
    rw [lookup_cons_eq] at h
    have hka : k ≠ a := by intro hk; simp [hk] at h
    rw [if_neg hka] at h
    unfold insert
    by_cases h1 : k < a
    · rw [if_pos h1]; rfl
    · have h2 : a < k := lt_of_le_of_ne (not_lt.1 h1) hka.symm
      rw [if_neg h1, if_pos h2, List.length_cons, List.length_cons, ih h]

end SortedTable

/-- An ordered map: a sorted table carrying its sortedness. -/
structure SortedMap (K V : Type) [LinearOrder K] where
  /-- The pairs in the order of iteration. -/
  entries : List (K × V)
  /-- The keys strictly increase. -/
  sorted : SortedTable.Sorted entries

namespace SortedMap

variable {K V : Type} [LinearOrder K]

instance [DecidableEq V] : DecidableEq (SortedMap K V) := fun a b =>
  decidable_of_iff (a.entries = b.entries) (by cases a; cases b; simp)

/-- The empty map. -/
def empty : SortedMap K V := ⟨[], SortedTable.sorted_nil⟩

instance : Inhabited (SortedMap K V) := ⟨empty⟩

/-- The number of keys. -/
def size (m : SortedMap K V) : Nat := m.entries.length

/-- The value stored under a key. -/
def lookup (m : SortedMap K V) (k : K) : Option V := m.entries.lookup k

/-- `m[k] = v`. -/
def insert (m : SortedMap K V) (k : K) (v : V) : SortedMap K V :=
  ⟨SortedTable.insert k v m.entries, SortedTable.sorted_insert m.sorted⟩

@[simp] theorem entries_empty : (empty : SortedMap K V).entries = [] := rfl

@[simp] theorem lookup_empty (k : K) : (empty : SortedMap K V).lookup k = none := rfl

@[simp] theorem size_empty : (empty : SortedMap K V).size = 0 := rfl

theorem lookup_insert (m : SortedMap K V) (k : K) (v : V) (j : K) :
    (m.insert k v).lookup j = if j = k then some v else m.lookup j :=
  SortedTable.lookup_insert k v m.entries j

theorem size_insert (m : SortedMap K V) (k : K) (v : V) :
    (m.insert k v).size = if m.lookup k = none then m.size + 1 else m.size := by
  by_cases h : m.lookup k = none
  · rw [if_pos h]; exact SortedTable.length_insert_of_not_mem h
  · rw [if_neg h]; exact SortedTable.length_insert_of_mem m.sorted h

/-- Setting the pairs of a sorted table one after another. -/
theorem lookup_foldl_insert {t : List (K × V)} (h : SortedTable.Sorted t) (m : SortedMap K V)
    (k : K) : (t.foldl (fun m p => m.insert p.1 p.2) m).lookup k =
      (t.lookup k).or (m.lookup k) := by
  induction t generalizing m with
  | nil => rfl
  | cons p t ih =>
    obtain ⟨a, v⟩ := p
    rw [SortedTable.sorted_cons] at h
    rw [List.foldl_cons, ih h.2, lookup_insert, SortedTable.lookup_cons_eq]
    by_cases hk : k = a
    · have hnone : t.lookup k = none :=
        SortedTable.lookup_eq_none_of_forall_ne fun q hq => hk ▸ ne_of_gt (h.1 q hq)
      simp [hk ▸ hnone, hk]
    · simp [hk]

/-- **A map is its lookups.** -/
theorem ext_lookup {m n : SortedMap K V} (h : ∀ k, m.lookup k = n.lookup k) : m = n := by
  cases m with
  | mk s hs =>
    cases n with
    | mk t ht => congr 1; exact SortedTable.ext_lookup hs ht h

end SortedMap

namespace SortedTable

/-! ## Iterators -/

section Iterators

variable {ε α : Type} (fault : ε)

/-- `++it`: there is nothing after the end. -/
def next : List α → Except ε (List α)
  | [] => .error fault
  | _ :: it => .ok it

/-- `for (; it != it2; ++it)`: the elements read.  A loop that does not meet its
upper iterator reads past the end. -/
def readTo (it2 : List α) : List α → Except ε (List α)
  | [] => if it2 = [] then .ok [] else .error fault
  | x :: it =>
    if (x :: it).length = it2.length then .ok []
    else (x :: ·) <$> readTo it2 it

/-- A loop up to an iterator that lies ahead reads what lies between. -/
theorem readTo_append (xs it2 : List α) : readTo fault it2 (xs ++ it2) = .ok xs := by
  induction xs with
  | nil => cases it2 <;> simp [readTo]
  | cons x xs ih =>
    have hne : (x :: (xs ++ it2)).length ≠ it2.length := by
      simp only [List.length_cons, List.length_append]
      omega
    rw [List.cons_append, readTo, if_neg hne, ih]
    rfl

/-- A loop up to an iterator that lies behind runs past the end. -/
theorem readTo_of_lt {it it2 : List α} (h : it.length < it2.length) :
    readTo fault it2 it = .error fault := by
  induction it with
  | nil =>
    have hne : it2 ≠ [] := List.ne_nil_of_length_pos h
    rw [readTo, if_neg hne]
  | cons x it ih =>
    rw [readTo, if_neg (ne_of_lt h), ih (Nat.lt_of_succ_lt h)]
    rfl

end Iterators

variable {K V : Type} [LinearOrder K]

/-! ## Lower bound -/

/-- What a lower-bound search for `k` leaves: the pairs from the first key not
below `k` on, empty when the search runs to the end. -/
def lowerBound (k : K) (t : List (K × V)) : List (K × V) := t.dropWhile fun p => p.1 < k

/-- The search stops on the key exactly when the table holds it. -/
theorem lookup_of_lowerBound_cons {k : K} {t : List (K × V)} (h : Sorted t) {p : K × V}
    {rest : List (K × V)} (hlb : lowerBound k t = p :: rest) :
    t.lookup k = if p.1 = k then some p.2 else none := by
  induction t with
  | nil => simp [lowerBound] at hlb
  | cons q t ih =>
    obtain ⟨a, w⟩ := q
    rw [sorted_cons] at h
    rw [lookup_cons_eq]
    by_cases hak : a < k
    · rw [lowerBound, List.dropWhile_cons, if_pos (by simpa using hak)] at hlb
      rw [if_neg (ne_of_gt hak), ih h.2 hlb]
    · rw [lowerBound, List.dropWhile_cons, if_neg (by simpa using hak)] at hlb
      obtain ⟨rfl, rfl⟩ := List.cons.inj hlb
      by_cases hk : a = k
      · simp [hk]
      · have hka : k < a := lt_of_le_of_ne (not_lt.1 hak) (Ne.symm hk)
        rw [if_neg (Ne.symm hk), if_neg hk]
        exact lookup_eq_none_of_forall_ne fun q hq => ne_of_gt (lt_trans hka (h.1 q hq))

/-- The search runs to the end exactly when every key is below the target. -/
theorem lowerBound_eq_nil_iff {k : K} {t : List (K × V)} :
    lowerBound k t = [] ↔ ∀ p ∈ t, p.1 < k := by
  simp [lowerBound, List.dropWhile_eq_nil_iff]

/-- What the search leaves is not below the target. -/
theorem le_of_mem_lowerBound {k : K} {t : List (K × V)} (h : Sorted t) {p : K × V}
    (hp : p ∈ lowerBound k t) : k ≤ p.1 := by
  induction t with
  | nil => simp [lowerBound] at hp
  | cons q t ih =>
    rw [sorted_cons] at h
    by_cases hq : q.1 < k
    · rw [lowerBound, List.dropWhile_cons, if_pos (by simpa using hq)] at hp
      exact ih h.2 hp
    · rw [lowerBound, List.dropWhile_cons, if_neg (by simpa using hq)] at hp
      rcases List.mem_cons.1 hp with rfl | hp
      · exact not_lt.1 hq
      · exact (not_lt.1 hq).trans (h.1 p hp).le

/-- A second search for a larger key can start where the first one stopped. -/
theorem lowerBound_lowerBound {k1 k2 : K} (hk : k1 ≤ k2) (t : List (K × V)) :
    lowerBound k2 (lowerBound k1 t) = lowerBound k2 t := by
  induction t with
  | nil => rfl
  | cons p t ih =>
    by_cases hp : p.1 < k1
    · simpa [lowerBound, List.dropWhile_cons, hp, hp.trans_le hk] using ih
    · simp [lowerBound, List.dropWhile_cons, hp]

/-- The search for the upper end of a range stops at or after the one for its
lower end. -/
theorem lowerBound_eq_append {k1 k2 : K} (hk : k1 ≤ k2) (t : List (K × V)) :
    lowerBound k1 t = ((lowerBound k1 t).takeWhile fun p => p.1 < k2) ++ lowerBound k2 t := by
  rw [← lowerBound_lowerBound hk]
  exact List.takeWhile_append_dropWhile.symm

/-- **A range cuts a sorted table in three**: what the search for its lower end
steps over, what lies before its upper end, and what the search for that
leaves. -/
theorem exists_range_split {t : List (K × V)} (h : Sorted t) {k1 k2 : K} (hk : k1 ≤ k2) :
    ∃ below within, t = below ++ lowerBound k1 t ∧
      lowerBound k1 t = within ++ lowerBound k2 t ∧ (∀ p ∈ below, p.1 < k1) ∧
      ∀ p ∈ within, k1 ≤ p.1 ∧ p.1 < k2 := by
  refine ⟨t.takeWhile fun p => p.1 < k1, (lowerBound k1 t).takeWhile fun p => p.1 < k2, ?_,
    lowerBound_eq_append hk t, ?_, ?_⟩
  · exact List.takeWhile_append_dropWhile.symm
  · intro p hp
    simpa using List.mem_takeWhile_imp hp
  · intro p hp
    refine ⟨le_of_mem_lowerBound h (List.takeWhile_subset _ hp), ?_⟩
    simpa using List.mem_takeWhile_imp hp

/-! ## Age-ordered lists of tables -/

/-- The newest value of a key in a list of tables ordered from oldest to
newest. -/
def newest (ts : List (List (K × V))) (k : K) : Option V :=
  ts.foldl (fun older t => (t.lookup k).or older) none

omit [LinearOrder K] in
theorem foldl_or_eq (f : List (K × V) → Option V) (ts : List (List (K × V))) (o : Option V) :
    ts.foldl (fun older t => (f t).or older) o =
      (ts.foldl (fun older t => (f t).or older) none).or o := by
  induction ts generalizing o with
  | nil => simp
  | cons t ts ih =>
    rw [List.foldl_cons, List.foldl_cons, ih, ih ((f t).or none)]
    cases f t <;> simp

@[simp] theorem newest_nil (k : K) : newest ([] : List (List (K × V))) k = none := rfl

theorem newest_append (ss ts : List (List (K × V))) (k : K) :
    newest (ss ++ ts) k = (newest ts k).or (newest ss k) := by
  rw [newest, List.foldl_append, foldl_or_eq (fun t => t.lookup k)]
  rfl

@[simp] theorem newest_singleton (t : List (K × V)) (k : K) : newest [t] k = t.lookup k := by
  simp [newest]

theorem newest_cons (t : List (K × V)) (ts : List (List (K × V))) (k : K) :
    newest (t :: ts) k = (newest ts k).or (t.lookup k) := by
  rw [← List.singleton_append, newest_append, newest_singleton]

theorem newest_eq_none_iff {ts : List (List (K × V))} {k : K} :
    newest ts k = none ↔ ∀ t ∈ ts, t.lookup k = none := by
  induction ts with
  | nil => simp
  | cons t ts ih => rw [newest_cons, Option.or_eq_none_iff, ih]; simp [and_comm]

/-- Changing tables where they are not looked at. -/
theorem newest_map_congr {f : List (K × V) → List (K × V)} {ts : List (List (K × V))} {k : K}
    (h : ∀ t ∈ ts, (f t).lookup k = t.lookup k) : newest (ts.map f) k = newest ts k := by
  induction ts with
  | nil => rfl
  | cons t ts ih =>
    rw [List.map_cons, newest_cons, newest_cons, h t (List.mem_cons_self ..),
      ih fun t' ht' => h t' (List.mem_cons_of_mem _ ht')]

/-- Replacing every group of consecutive tables by one table with the group's
lookups keeps the lookups of the whole. -/
theorem newest_map_of_groups (fold : List (List (K × V)) → List (K × V)) (k : K)
    (gs : List (List (List (K × V))))
    (h : ∀ g ∈ gs, (fold g).lookup k = newest g k) :
    newest (gs.map fold) k = newest gs.flatten k := by
  induction gs with
  | nil => rfl
  | cons g gs ih =>
    rw [List.map_cons, newest_cons, List.flatten_cons, newest_append,
      ih fun g' hg' => h g' (List.mem_cons_of_mem _ hg'), h g (List.mem_cons_self ..)]

section Merge

variable (merge : List (K × V) → List (K × V) → List (K × V))

/-- A left fold of a merge that keeps sortedness is sorted. -/
theorem sorted_foldl_merge
    (hsorted : ∀ new old, Sorted new → Sorted old → Sorted (merge new old))
    {ts : List (List (K × V))} (hts : ∀ t ∈ ts, Sorted t) {acc : List (K × V)}
    (hacc : Sorted acc) : Sorted (ts.foldl (fun acc t => merge t acc) acc) := by
  induction ts generalizing acc with
  | nil => exact hacc
  | cons t ts ih =>
    exact ih (fun t' ht' => hts t' (List.mem_cons_of_mem _ ht'))
      (hsorted t acc (hts t (List.mem_cons_self ..)) hacc)

/-- **Folding a newest-wins merge over an age-ordered list keeps its
lookups.** -/
theorem lookup_foldl_merge (k : K)
    (hsorted : ∀ new old, Sorted new → Sorted old → Sorted (merge new old))
    (hlookup : ∀ new old, Sorted new → Sorted old →
      (merge new old).lookup k = (new.lookup k).or (old.lookup k))
    {ts : List (List (K × V))} (hts : ∀ t ∈ ts, Sorted t) {acc : List (K × V)}
    (hacc : Sorted acc) :
    (ts.foldl (fun acc t => merge t acc) acc).lookup k = (newest ts k).or (acc.lookup k) := by
  induction ts generalizing acc with
  | nil => simp
  | cons t ts ih =>
    have ht := hts t (List.mem_cons_self ..)
    rw [List.foldl_cons, ih (fun t' ht' => hts t' (List.mem_cons_of_mem _ ht'))
      (hsorted t acc ht hacc), hlookup t acc ht hacc, newest_cons, Option.or_assoc]

end Merge

end SortedTable
