import GhostDB.LookupBounds

/-!
# Range reads

`GetRange` takes a slice of the memtable and of every run and lets the newest
version of a key win.  Each slice ends one pair too late when the source does not
hold `key2` itself.

* `rangeLoop_eq` — the loop over a source ends, and what it reads.
* `rangePart` — what one source contributes, `lookup_rangePart` within the
  range and `rangePart_within_iff` outside.
* `getRange_spec` — the result of a range read, for every key.
* `range_complete` — it misses nothing.
* `range_sound_iff` — and when it returns nothing it should not.
-/

namespace GhostDB

open Prog SortedTable

/-! ## One source -/

/-- What the loop of `GetRange` reads of a table: the range, and the pair the
upper search stops at. -/
def rangeSlice (key1 key2 : Key) (t : SSTable) : SSTable :=
  ((lowerBound key1 t).takeWhile fun kv => kv.1 < key2) ++ (lowerBound key2 t).take 1

/-- The pairs one source contributes to a range read. -/
def rangePart (key1 key2 : Key) (t : SSTable) : SSTable :=
  match t.head?, t.getLast? with
  | some kv1, some kv2 =>
    if kv1.1 > key2 ∨ kv2.1 < key1 then [] else rangeSlice key1 key2 t
  | _, _ => []

/-- The slice runs past `key2`: the source has keys on both sides of it and not
the key itself. -/
def Overruns (key2 : Key) (t : SSTable) : Prop :=
  t.lookup key2 = none ∧ (∃ kv ∈ t, kv.1 < key2) ∧ ∃ kv ∈ t, key2 < kv.1

section Slice

variable {key1 key2 : Key} {t : SSTable}

/-- **The loop ends**: the upper iterator is never behind the lower one. -/
theorem rangeLoop_eq (hk : key1 ≤ key2) (t : SSTable) :
    Buffer.rangeLoop (lowerBound key1 t) (lowerBound key2 t) = .ok (rangeSlice key1 key2 t) := by
  have hsplit := lowerBound_eq_append hk t
  unfold Buffer.rangeLoop rangeSlice
  generalize ((lowerBound key1 t).takeWhile fun kv => kv.1 < key2) = within at hsplit ⊢
  rw [hsplit]
  cases lowerBound key2 t with
  | nil =>
    rw [List.take_nil, List.append_nil]
    exact (congrArg _ (List.append_nil within).symm).trans (readTo_append _ within [])
  | cons kv rest =>
    have happ : within ++ kv :: rest = (within ++ [kv]) ++ rest := by simp
    rw [happ]
    exact readTo_append _ (within ++ [kv]) rest

theorem rangeSlice_eq {within : SSTable} (hk : key1 ≤ key2)
    (hwithin : lowerBound key1 t = within ++ lowerBound key2 t) :
    rangeSlice key1 key2 t = within ++ (lowerBound key2 t).take 1 := by
  have hsplit := (lowerBound_eq_append hk t).symm.trans hwithin
  rw [rangeSlice, List.append_cancel_right hsplit]

variable (h : Sorted t) (hk : key1 ≤ key2)

include h hk in
/-- **Within the range** the slice answers like the source. -/
theorem lookup_rangeSlice {key : Key} (hlow : key1 ≤ key) (hhigh : key ≤ key2) :
    (rangeSlice key1 key2 t).lookup key = t.lookup key := by
  obtain ⟨below, within, hbelow, hwithin, hlt, -⟩ := exists_range_split h hk
  have hnone : below.lookup key = none :=
    lookup_eq_none_of_forall_ne fun p hp => ne_of_lt ((hlt p hp).trans_le hlow)
  have habove : ((lowerBound key2 t).take 1).lookup key = (lowerBound key2 t).lookup key := by
    have hsorted : Sorted (lowerBound key2 t) := h.sublist (List.dropWhile_sublist _)
    cases hcases : lowerBound key2 t with
    | nil => rfl
    | cons p rest =>
      have hp : key2 ≤ p.1 := le_of_mem_lowerBound h (hcases ▸ List.mem_cons_self ..)
      rw [hcases, sorted_cons] at hsorted
      have hrest : rest.lookup key = none := lookup_eq_none_of_forall_ne fun q hq =>
        ne_of_gt ((hhigh.trans hp).trans_lt (hsorted.1 q hq))
      show ([p] : SSTable).lookup key = ([p] ++ rest).lookup key
      rw [List.lookup_append, hrest, Option.or_none]
  have ht : t = below ++ (within ++ lowerBound key2 t) := by rw [← hwithin, ← hbelow]
  rw [rangeSlice_eq hk hwithin, List.lookup_append, habove, ← List.lookup_append]
  conv_rhs => rw [ht, List.lookup_append, hnone]
  rfl

include h hk in
/-- **Outside the range** the slice has the pair it ran on to, if there is
one. -/
theorem rangeSlice_within_iff (hlow : ∃ kv ∈ t, kv.1 ≤ key2) :
    (∀ kv ∈ rangeSlice key1 key2 t, key1 ≤ kv.1 ∧ kv.1 ≤ key2) ↔ ¬ Overruns key2 t := by
  obtain ⟨below, within, hbelow, hwithin, -, hin⟩ := exists_range_split h hk
  rw [rangeSlice_eq hk hwithin]
  constructor
  · rintro hall ⟨hnone, -, kv, hkv, habove⟩
    cases hcases : lowerBound key2 t with
    | nil => exact lt_asymm habove (lowerBound_eq_nil_iff.1 hcases kv hkv)
    | cons p rest =>
      have hp : key2 ≤ p.1 := le_of_mem_lowerBound h (hcases ▸ List.mem_cons_self ..)
      have heq : p.1 = key2 := le_antisymm (hall p (by simp [hcases])).2 hp
      rw [lookup_of_lowerBound_cons h hcases, if_pos heq] at hnone
      exact nomatch hnone
  · intro hno kv hkv
    rcases List.mem_append.1 hkv with hkv | hkv
    · exact ⟨(hin kv hkv).1, (hin kv hkv).2.le⟩
    · cases hcases : lowerBound key2 t with
      | nil => simp [hcases] at hkv
      | cons p rest =>
        obtain rfl : kv = p := by simpa [hcases] using hkv
        have hp : key2 ≤ kv.1 := le_of_mem_lowerBound h (hcases ▸ List.mem_cons_self ..)
        refine ⟨hk.trans hp, ?_⟩
        by_contra hgt
        have hne : kv.1 ≠ key2 := fun heq => hgt heq.le
        have hnone : t.lookup key2 = none := by
          rw [lookup_of_lowerBound_cons h hcases, if_neg hne]
        obtain ⟨q, hq, hle⟩ := hlow
        have hqne : q.1 ≠ key2 := fun heq => lookup_ne_none_iff.2 ⟨q, hq, heq⟩ hnone
        refine hno ⟨hnone, ⟨q, hq, lt_of_le_of_ne hle hqne⟩, kv, ?_, not_le.1 hgt⟩
        exact (List.dropWhile_sublist _).subset (hcases ▸ List.mem_cons_self ..)

variable (key1 key2) in
/-- A source whose keys are all on one side of the range contributes nothing. -/
theorem rangePart_eq (h : Sorted t) :
    (rangePart key1 key2 t = [] ∧ ((∀ kv ∈ t, key2 < kv.1) ∨ ∀ kv ∈ t, kv.1 < key1)) ∨
      (rangePart key1 key2 t = rangeSlice key1 key2 t ∧ ∃ kv ∈ t, kv.1 ≤ key2) := by
  unfold rangePart
  cases hhead : t.head? with
  | none => exact .inl ⟨rfl, .inl (by simp [List.head?_eq_none_iff.1 hhead])⟩
  | some kv1 =>
    cases hlast : t.getLast? with
    | none => exact .inl ⟨rfl, .inl (by simp [List.getLast?_eq_none_iff.1 hlast])⟩
    | some kv2 =>
      dsimp only
      split
      next hskip =>
        refine .inl ⟨rfl, hskip.imp ?_ ?_⟩
        · intro hgt kv hkv
          exact hgt.trans_le (h.head_le hhead kv hkv)
        · intro hlt kv hkv
          exact (h.le_getLast hlast kv hkv).trans_lt hlt
      next hkeep =>
        exact .inr ⟨rfl, kv1, List.mem_of_head? hhead, not_lt.1 fun hgt => hkeep (.inl hgt)⟩

include h hk in
theorem lookup_rangePart {key : Key} (hlow : key1 ≤ key) (hhigh : key ≤ key2) :
    (rangePart key1 key2 t).lookup key = t.lookup key := by
  rcases rangePart_eq key1 key2 h with ⟨hnil, hside⟩ | ⟨hslice, -⟩
  · rw [hnil]
    refine (lookup_eq_none_of_forall_ne fun kv hkv => ?_).symm
    rcases hside with habove | hbelow
    · exact ne_of_gt (hhigh.trans_lt (habove kv hkv))
    · exact ne_of_lt ((hbelow kv hkv).trans_le hlow)
  · rw [hslice, lookup_rangeSlice h hk hlow hhigh]

include h hk in
theorem rangePart_within_iff :
    (∀ kv ∈ rangePart key1 key2 t, key1 ≤ kv.1 ∧ kv.1 ≤ key2) ↔ ¬ Overruns key2 t := by
  rcases rangePart_eq key1 key2 h with ⟨hnil, hside⟩ | ⟨hslice, hlow⟩
  · rw [hnil]
    refine iff_of_true (by simp) ?_
    rintro ⟨-, ⟨p, hp, hpk⟩, q, hq, hqk⟩
    rcases hside with habove | hbelow
    · exact lt_asymm hpk (habove p hp)
    · exact lt_asymm hqk ((hbelow q hq).trans_le hk)
  · rw [hslice, rangeSlice_within_iff h hk hlow]

end Slice

/-- A table with pairs has a first and a last one. -/
theorem exists_ends {t : SSTable} (hne : t ≠ []) :
    ∃ kv1 kv2, t.head? = some kv1 ∧ t.getLast? = some kv2 := by
  obtain ⟨kv1, hhead⟩ := Option.ne_none_iff_exists'.1 (mt List.head?_eq_none_iff.1 hne)
  obtain ⟨kv2, hlast⟩ := Option.ne_none_iff_exists'.1 (mt List.getLast?_eq_none_iff.1 hne)
  exact ⟨kv1, kv2, hhead, hlast⟩

/-! ## Collecting from the sources -/

/-- Add the pairs of a run whose keys the result does not have. -/
def addAbsent (res : BufferMap) (t : SSTable) : BufferMap :=
  t.foldl (fun res kv => if res.lookup kv.1 = none then res.insert kv.1 kv.2 else res) res

theorem lookup_addAbsent (t : SSTable) (res : BufferMap) (key : Key) :
    (addAbsent res t).lookup key = (res.lookup key).or (t.lookup key) := by
  induction t generalizing res with
  | nil => simp [addAbsent]
  | cons p t ih =>
    obtain ⟨a, v⟩ := p
    have hstep : addAbsent res ((a, v) :: t) =
        addAbsent (if res.lookup a = none then res.insert a v else res) t := rfl
    rw [hstep, ih, lookup_cons_eq]
    by_cases hnone : res.lookup a = none
    · rw [if_pos hnone, SortedMap.lookup_insert]
      by_cases hk : key = a
      · simp [hk, hnone]
      · simp [hk]
    · rw [if_neg hnone]
      by_cases hk : key = a
      · obtain ⟨x, hx⟩ := Option.ne_none_iff_exists'.1 hnone
        simp [hk, hx]
      · simp [hk]

/-- First come, first kept: the newest version of a key wins. -/
theorem lookup_foldl_addAbsent (f : SSTable → SSTable) (ts : List SSTable) (res : BufferMap)
    (key : Key) : (ts.reverse.foldl (fun res t => addAbsent res (f t)) res).lookup key =
      (res.lookup key).or (newest (ts.map f) key) := by
  induction ts using List.reverseRecOn generalizing res with
  | nil => simp
  | append_singleton ts t ih =>
    rw [List.reverse_concat, List.foldl_cons, ih, lookup_addAbsent, List.map_append,
      newest_append, Option.or_assoc]
    simp

section Runs

variable {w : World} {cs : List RunContent} {key1 key2 : Key}

/-- An empty run adds nothing. -/
theorem run_rangeRun_empty (hrep : Rep w.store (Slots.ofList cs)) {i : Nat}
    (hi : i < totalNonOverflowPages) (hge : cs.length ≤ i) (res : BufferMap) :
    run World.handle (Db.rangeRun key1 key2 (fillPos i).1 (fillPos i).2 res) w =
      .ok ((true, res), w) := by
  rw [Db.rangeRun, run_bind_of_ok (run_load_empty hrep hi hge)]
  rfl

/-- A used run adds its part of the range. -/
theorem run_rangeRun_used (hk : key1 ≤ key2) (hrep : Rep w.store (Slots.ofList cs)) {i : Nat}
    (hi : i < totalNonOverflowPages) (hlt : i < cs.length) (hne : cs[i].pairs ≠ [])
    (res : BufferMap) :
    ∃ p, run World.handle (Db.rangeRun key1 key2 (fillPos i).1 (fillPos i).2 res) w =
      .ok ((true, addAbsent res (rangePart key1 key2 cs[i].pairs)),
        ⟨w.store.withPos p, w.flushed⟩) := by
  obtain ⟨p, hload⟩ := run_load_used hrep hi hlt
  refine ⟨p, ?_⟩
  rw [Db.rangeRun, run_bind_of_ok hload]
  dsimp only
  obtain ⟨kv1, kv2, hhead, hlast⟩ := exists_ends hne
  rw [rangePart, hhead, hlast]
  dsimp only
  split
  · rfl
  · simp only [lowerBoundPair_eq, rangeLoop_eq hk]
    rfl

/-- **The loop of `GetRange`** over the first `n` positions. -/
theorem run_ranges (hk : key1 ≤ key2) (hne : ∀ c ∈ cs, c.pairs ≠ []) (n : Nat) :
    ∀ (w : World) (res : BufferMap), Rep w.store (Slots.ofList cs) → n ≤ totalNonOverflowPages →
      ∃ p, run World.handle
        (forUntil (fun i res => Db.rangeRun key1 key2 (fillPos i).1 (fillPos i).2 res)
          (List.range n).reverse res) w =
        .ok ((true, ((cs.take n).map RunContent.pairs).reverse.foldl
          (fun res t => addAbsent res (rangePart key1 key2 t)) res),
          ⟨w.store.withPos p, w.flushed⟩) := by
  induction n with
  | zero =>
    intro w res hrep hn
    exact ⟨w.store.disk.dbIo.pos, rfl⟩
  | succ n ih =>
    intro w res hrep hn
    rw [List.range_succ, List.reverse_concat, forUntil]
    by_cases hlt : n < cs.length
    · obtain ⟨p, hstep⟩ := run_rangeRun_used hk hrep hn hlt
        (hne _ (List.getElem_mem hlt)) res
      obtain ⟨q, hrest⟩ := ih ⟨w.store.withPos p, w.flushed⟩ _ (hrep.withPos p) (by omega)
      refine ⟨q, ?_⟩
      rw [run_bind_of_ok hstep, List.take_succ_eq_append_getElem hlt, List.map_append,
        List.map_singleton, List.reverse_concat, List.foldl_cons]
      exact hrest
    · have hge := not_lt.1 hlt
      obtain ⟨p, hrest⟩ := ih w res hrep (by omega)
      refine ⟨p, ?_⟩
      rw [run_bind_of_ok (run_rangeRun_empty hrep hn hge res), List.take_of_length_le (by omega)]
      rw [List.take_of_length_le hge] at hrest
      exact hrest

/-- The double loop of `GetRange` goes through the fill order from its end. -/
theorem getRange_loop_eq (res : BufferMap) :
    (forUntil (fun levelNo res =>
      forUntil (fun runNo res => Db.rangeRun key1 key2 levelNo runNo res)
        (Db.runsDown levelNo) res) (List.range maxLevelNum) res) =
    forUntil (fun i res => Db.rangeRun key1 key2 (fillPos i).1 (fillPos i).2 res)
      (List.range totalNonOverflowPages).reverse res := by
  have hlevel : ∀ levelNo (res : BufferMap),
      forUntil (fun runNo res => Db.rangeRun key1 key2 levelNo runNo res) (Db.runsDown levelNo)
        res = forUntil (fun (p : Nat × Nat) res => Db.rangeRun key1 key2 p.1 p.2 res)
          ((Db.runsDown levelNo).map fun runNo => (levelNo, runNo)) res := by
    intro levelNo res
    rw [forUntil_map]
  simp only [hlevel]
  rw [forUntil_flatMap, runsDown_order, forUntil_map]

end Runs

/-! ## The whole read -/

/-- The part of the memtable. -/
theorem run_buffer_getRange {w : World} {b : Buffer} {key1 key2 : Key} (hne : b.kv.size ≠ 0)
    (hk : key1 ≤ key2) (res : BufferMap) :
    run World.handle (b.getRange key1 key2 res) w =
      .ok ((rangePart key1 key2 b.kv.entries).foldl (fun res kv => res.insert kv.1 kv.2) res,
        w) := by
  have hne : b.kv.entries ≠ [] := fun hnil => hne (by rw [SortedMap.size, hnil, List.length_nil])
  obtain ⟨kv1, kv2, hhead, hlast⟩ := exists_ends hne
  rw [Buffer.getRange, if_neg (not_not.2 hk), rangePart, hhead, hlast]
  dsimp only
  split
  · rfl
  · simp only [rangeLoop_eq hk]
    rfl

theorem sorted_rangePart {key1 key2 : Key} {t : SSTable} (hk : key1 ≤ key2) (h : Sorted t) :
    Sorted (rangePart key1 key2 t) := by
  rcases rangePart_eq key1 key2 h with ⟨hnil, -⟩ | ⟨hslice, -⟩
  · rw [hnil]
    exact sorted_nil
  · have hsub : (rangeSlice key1 key2 t).Sublist (lowerBound key1 t) := by
      rw [lowerBound_eq_append hk t]
      exact (List.take_sublist _ _).append_left _
    rw [hslice]
    exact h.sublist (hsub.trans (List.dropWhile_sublist _))

/-- No run of a layout of full memtables is without pairs. -/
theorem pairs_ne_nil {ms : List BufferMap} (hfull : ∀ m ∈ ms, m.size = maxBufferSize) :
    ∀ c ∈ contents (layout ms), c.pairs ≠ [] := by
  intro c hc
  obtain ⟨i, hi, rfl⟩ := List.mem_mapIdx.1 hc
  have hmem : (layout ms)[i] ∈ layout ms := List.getElem_mem hi
  obtain ⟨m, hm⟩ := List.exists_mem_of_ne_nil _ ((layout_shape ms).nonempty _ hmem)
  have hflat : m ∈ ms := by
    rw [← flatten_layout ms]
    exact List.mem_flatten.2 ⟨_, hmem, hm⟩
  have hlen := one_lt_length_mergeAll hm (by rw [hfull m hflat]; decide)
  exact List.ne_nil_of_length_pos (Nat.lt_of_succ_lt hlen)

/-- **A range read ends**: the runs add their parts to what the memtable
gives. -/
theorem run_getRange {w : World} (hw : Holds w)
    (hfull : ∀ m ∈ w.flushed, m.size = maxBufferSize) {b : Buffer} (hne : b.kv.size ≠ 0)
    {key1 key2 : Key} (hk : key1 ≤ key2) (res : BufferMap) :
    ∃ p, run World.handle (Db.getRange b key1 key2 res) w =
      .ok (w.store.tables.reverse.foldl (fun res t => addAbsent res (rangePart key1 key2 t))
        ((rangePart key1 key2 b.kv.entries).foldl (fun res kv => res.insert kv.1 kv.2) res),
        ⟨w.store.withPos p, w.flushed⟩) := by
  have hlen := length_contents_layout w.flushed
  obtain ⟨p, hloop⟩ := run_ranges hk (pairs_ne_nil hfull) totalNonOverflowPages w
    ((rangePart key1 key2 b.kv.entries).foldl (fun res kv => res.insert kv.1 kv.2) res)
    hw.rep le_rfl
  rw [List.take_of_length_le hlen, ← tables_ofList hw.rep hlen] at hloop
  refine ⟨p, ?_⟩
  rw [Db.getRange, if_neg (not_not.2 hk), run_bind_of_ok (run_buffer_getRange hne hk res),
    getRange_loop_eq, run_bind_of_ok hloop]
  rfl

/-- **The result of a range read**: for every key the newest version among the
parts of the sources. -/
theorem getRange_spec {w : World} (hw : Holds w)
    (hfull : ∀ m ∈ w.flushed, m.size = maxBufferSize) {b : Buffer} (hne : b.kv.size ≠ 0)
    {key1 key2 : Key} (hk : key1 ≤ key2) :
    ∃ res p, run World.handle (Db.getRange b key1 key2 SortedMap.empty) w =
        .ok (res, ⟨w.store.withPos p, w.flushed⟩) ∧
      ∀ key, res.lookup key =
        newest ((w.store.tables ++ [b.kv.entries]).map (rangePart key1 key2)) key := by
  obtain ⟨p, hrun⟩ := run_getRange hw hfull hne hk SortedMap.empty
  refine ⟨_, p, hrun, ?_⟩
  intro key
  rw [lookup_foldl_addAbsent, SortedMap.lookup_foldl_insert (sorted_rangePart hk b.kv.sorted),
    SortedMap.lookup_empty, Option.or_none, List.map_append, List.map_singleton, newest_append,
    newest_singleton]

/-! ## What is stored, and what `Get` makes of it -/

namespace At

variable {ws : List MappingType} {w w' : World} {b : Buffer}

theorem tables_eq (h : At ws w b) :
    w.store.tables = (contents (layout w.flushed)).map RunContent.pairs :=
  tables_ofList h.holds.rep (length_contents_layout _)

/-- Every source of a read is in order. -/
theorem sorted_sources (h : At ws w b) : ∀ t ∈ w.store.tables ++ [b.kv.entries], Sorted t := by
  intro t ht
  rcases List.mem_append.1 ht with ht | ht
  · rw [h.tables_eq] at ht
    obtain ⟨c, hc, rfl⟩ := List.mem_map.1 ht
    exact (honest_contents _ c hc).1
  · rw [List.mem_singleton.1 ht]
    exact b.kv.sorted

/-- What a finished `Get` found. -/
theorem found_eq (h : At ws w b) {key : Key} {found : Option Val}
    (hrun : run World.handle (Db.get b key) w = .ok (found, w')) :
    found = ((b.kv.lookup key).or (w.store.newestLookup key)).bind visible := by
  obtain ⟨p, hget⟩ := run_get h.holds b key
  rw [hrun, Buffer.get] at hget
  rw [Store.newestLookup, h.tables_eq]
  cases hb : b.kv.lookup key with
  | some val =>
    rw [hb] at hget
    cases hget
    rfl
  | none =>
    rw [hb] at hget
    rcases scan_spec (honest_contents (layout w.flushed)) key with hscan | hscan
    · rw [hscan] at hget
      cases hget
    · rw [hscan] at hget
      cases hget
      rw [Option.none_or]
      cases newest ((contents (layout w.flushed)).map RunContent.pairs) key <;> rfl

/-- Within the range the result is what is stored. -/
theorem newest_rangePart (h : At ws w b) {key1 key2 key : Key} (hk : key1 ≤ key2)
    (hlow : key1 ≤ key) (hhigh : key ≤ key2) :
    newest ((w.store.tables ++ [b.kv.entries]).map (rangePart key1 key2)) key =
      (b.kv.lookup key).or (w.store.newestLookup key) := by
  rw [newest_map_congr fun t ht => lookup_rangePart (h.sorted_sources t ht) hk hlow hhigh,
    newest_append, newest_singleton]
  rfl

/-- A range read ends; what it finds comes from the parts of the sources, and
within the range it is what is stored. -/
theorem getRange (h : At ws w b) (hne : b.kv.size ≠ 0) {key1 key2 : Key} (hk : key1 ≤ key2) :
    ∃ res w', run World.handle (Db.getRange b key1 key2 SortedMap.empty) w = .ok (res, w') ∧
      (∀ key, res.lookup key =
        newest ((w.store.tables ++ [b.kv.entries]).map (rangePart key1 key2)) key) ∧
      ∀ key, key1 ≤ key → key ≤ key2 →
        res.lookup key = (b.kv.lookup key).or (w.store.newestLookup key) := by
  obtain ⟨res, p, hrun, hres⟩ := getRange_spec h.holds h.full hne hk
  refine ⟨res, _, hrun, hres, ?_⟩
  intro key hlow hhigh
  rw [hres, h.newest_rangePart hk hlow hhigh]

end At

theorem visible_eq_some {val val' : Val} :
    visible val = some val' ↔ val = val' ∧ val' ≠ tombstome := by
  unfold visible
  split
  next h => simp [h, eq_comm]
  next h =>
    constructor
    · intro heq
      cases heq
      exact ⟨rfl, h⟩
    · rintro ⟨rfl, -⟩
      rfl

/-- **Range reads miss nothing and are never stale.**  From every reachable
state with a nonempty memtable `GetRange` ends, and for every key of the range
its result holds the newest version stored, in the memtable or a run, and none
if there is none; so it agrees with `Get`, where that ends. -/
theorem range_complete {w : World} {b : Buffer} (h : Db.Reachable w b) (hne : b.kv.size ≠ 0)
    {key1 key2 : Key} (hk : key1 ≤ key2) :
    ∃ res w', run World.handle (Db.getRange b key1 key2 SortedMap.empty) w = .ok (res, w') ∧
      ∀ key, key1 ≤ key → key ≤ key2 →
        (res.lookup key ≠ none ↔
          b.kv.lookup key ≠ none ∨ ∃ t ∈ w.store.tables, t.lookup key ≠ none) ∧
        res.lookup key = (b.kv.lookup key).or (w.store.newestLookup key) ∧
        ∀ found w'', run World.handle (Db.get b key) w = .ok (found, w'') →
          ∀ val, found = some val ↔ res.lookup key = some val ∧ val ≠ tombstome := by
  obtain ⟨ws, hat⟩ := h.at
  obtain ⟨res, w', hrun, -, hinside⟩ := hat.getRange hne hk
  refine ⟨res, w', hrun, ?_⟩
  intro key hlow hhigh
  have hstored := hinside key hlow hhigh
  refine ⟨?_, hstored, ?_⟩
  · have hnone : w.store.newestLookup key = none ↔ ∀ t ∈ w.store.tables, t.lookup key = none :=
      newest_eq_none_iff
    rw [hstored, Ne, Option.or_eq_none_iff, hnone, not_and_or]
    push Not
    rfl
  · intro found w'' hget val
    rw [hat.found_eq hget, ← hstored]
    cases res.lookup key with
    | none => simp
    | some val' => simp [visible_eq_some]

/-- A range over a run and the memtable. -/
theorem range_complete_sixPuts : ∃ w₀ b w res w',
    Db.construct 0 ⟨none, none, none⟩ = .ok (Buffer.empty, w₀) ∧
    run World.handle (updates 2 sixPuts) w₀ = .ok (b, w) ∧
    run World.handle (Db.getRange b 2 6 SortedMap.empty) w = .ok (res, w') ∧
    res.lookup 3 = some 3 ∧ res.lookup 6 = some 6 := by
  obtain ⟨w₀, b, w, hok, hrun, hreach, hb, htables⟩ := sixPuts_spec
  obtain ⟨res, w', hrange, hres⟩ := range_complete hreach (by rw [SortedMap.size, hb]; decide)
    (show (2 : Key) ≤ 6 by decide)
  refine ⟨w₀, b, w, res, w', hok, hrun, hrange, ?_, ?_⟩
  · rw [(hres 3 (by decide) (by decide)).2.1, SortedMap.lookup, hb, Store.newestLookup, htables]
    decide
  · rw [(hres 6 (by decide) (by decide)).2.1, SortedMap.lookup, hb]
    rfl

/-- A read of the part of a source ends up in the result, and nothing else
does. -/
theorem exists_part_of_newest {ts : List SSTable} {f : SSTable → SSTable} {key : Key} :
    newest (ts.map f) key ≠ none ↔ ∃ t ∈ ts, ∃ kv ∈ f t, kv.1 = key := by
  simp only [Ne, newest_eq_none_iff, List.forall_mem_map, not_forall, exists_prop]
  simp only [← ne_eq, lookup_ne_none_iff]

/-- **When range reads return nothing they should not**: when no slice runs past
`key2`, and no key of the range is stored whose newest version is a tombstone or
that makes `Get` read past the end of a table. -/
theorem range_sound_iff {w : World} {b : Buffer} (h : Db.Reachable w b) (hne : b.kv.size ≠ 0)
    {key1 key2 : Key} (hk : key1 ≤ key2) :
    ∃ res w', run World.handle (Db.getRange b key1 key2 SortedMap.empty) w = .ok (res, w') ∧
      ((∀ key val, res.lookup key = some val → (key1 ≤ key ∧ key ≤ key2) ∧
          ∃ w'', run World.handle (Db.get b key) w = .ok (some val, w'')) ↔
        (∀ t ∈ w.store.tables ++ [b.kv.entries], ¬ Overruns key2 t) ∧
        ∀ key, key1 ≤ key → key ≤ key2 →
          ∀ val, (b.kv.lookup key).or (w.store.newestLookup key) = some val →
            val ≠ tombstome ∧ ¬ (b.kv.lookup key = none ∧ RunsPastEnd w.store.tables key)) := by
  obtain ⟨ws, hat⟩ := h.at
  obtain ⟨res, w', hrun, hres, hstored⟩ := hat.getRange hne hk
  refine ⟨res, w', hrun, ?_, ?_⟩
  · intro hsound
    refine ⟨?_, ?_⟩
    · intro t ht
      rw [← rangePart_within_iff (hat.sorted_sources t ht) hk]
      intro kv hkv
      have hmem : res.lookup kv.1 ≠ none := by
        rw [hres]
        exact exists_part_of_newest.2 ⟨t, ht, kv, hkv, rfl⟩
      obtain ⟨val, hval⟩ := Option.ne_none_iff_exists'.1 hmem
      exact (hsound kv.1 val hval).1
    · intro key hlow hhigh val hval
      obtain ⟨-, w'', hget⟩ := hsound key val ((hstored key hlow hhigh).trans hval)
      refine ⟨?_, ?_⟩
      · have hfound := hat.found_eq hget
        rw [hval, Option.bind_some] at hfound
        exact (visible_eq_some.1 hfound.symm).2
      · rw [← hat.get_error_iff_runs, hget]
        exact fun herr => nomatch herr
  · rintro ⟨hover, hlive⟩ key val hval
    have hmem : newest ((w.store.tables ++ [b.kv.entries]).map (rangePart key1 key2)) key ≠
        none := by
      rw [← hres, hval]
      exact Option.some_ne_none val
    obtain ⟨t, ht, kv, hkv, rfl⟩ := exists_part_of_newest.1 hmem
    have hin := (rangePart_within_iff (hat.sorted_sources t ht) hk).2 (hover t ht) kv hkv
    rw [hstored _ hin.1 hin.2] at hval
    obtain ⟨hne, hpast⟩ := hlive kv.1 hin.1 hin.2 val hval
    refine ⟨hin, ?_⟩
    rcases hat.get kv.1 with herr | ⟨found, w'', hget, -⟩
    · exact absurd ((hat.get_error_iff_runs kv.1).1 herr) hpast
    · refine ⟨w'', ?_⟩
      rw [hget, hat.found_eq hget, hval, Option.bind_some, visible, if_neg hne]

/-! ## Two keys -/

/-- Two keys in the memtable. -/
def twoPuts : List Update := [.put 1 1, .put 5 5]

/-- Nothing but a memtable. -/
theorem twoPuts_spec : ∃ w₀ b w, Db.construct 0 ⟨none, none, none⟩ = .ok (Buffer.empty, w₀) ∧
    run World.handle (updates 2 twoPuts) w₀ = .ok (b, w) ∧ Db.Reachable w b ∧
    b.kv.entries = [(1, 1), (5, 5)] ∧ w.store.tables = [] := by
  obtain ⟨w₀, b, w, hok, hrun, hreach, hat⟩ :=
    exists_updates 0 ⟨none, none, none⟩ twoPuts (by decide)
  obtain ⟨hflushed, hb⟩ := Prod.mk.injEq .. ▸ hat.split
  refine ⟨w₀, b, w, hok, hrun, hreach, ?_, ?_⟩
  · rw [hb]
    decide
  · rw [hat.tables_eq, hflushed]
    rfl

/-- A range between two stored keys returns these. -/
theorem range_sound_twoPuts : ∃ w₀ b w res w',
    Db.construct 0 ⟨none, none, none⟩ = .ok (Buffer.empty, w₀) ∧
    run World.handle (updates 2 twoPuts) w₀ = .ok (b, w) ∧
    run World.handle (Db.getRange b 1 5 SortedMap.empty) w = .ok (res, w') ∧
    ∀ key val, res.lookup key = some val → ((1 : Key) ≤ key ∧ key ≤ (5 : Key)) ∧
      ∃ w'', run World.handle (Db.get b key) w = .ok (some val, w'') := by
  obtain ⟨w₀, b, w, hok, hrun, hreach, hb, htables⟩ := twoPuts_spec
  obtain ⟨res, w', hrange, hsound⟩ := range_sound_iff hreach (by rw [SortedMap.size, hb]; decide)
    (show (1 : Key) ≤ 5 by decide)
  refine ⟨w₀, b, w, res, w', hok, hrun, hrange, hsound.2 ⟨?_, ?_⟩⟩
  · rw [htables, hb]
    rintro t ht ⟨hnone, -⟩
    rw [List.nil_append, List.mem_singleton] at ht
    rw [ht] at hnone
    exact absurd hnone (by decide)
  · intro key hlow hhigh val hval
    have hnone : w.store.newestLookup key = none := by
      rw [Store.newestLookup, htables]
      rfl
    rw [hnone, Option.or_none] at hval
    have hmem : (key, val) ∈ b.kv.entries := (lookup_eq_some_iff b.kv.sorted).1 hval
    have hval' : val = 1 ∨ val = 5 := by
      rw [hb] at hmem
      simp only [List.mem_cons, List.not_mem_nil, or_false, Prod.mk.injEq] at hmem
      exact hmem.imp And.right And.right
    refine ⟨?_, fun hpast => by simp [hval] at hpast⟩
    rcases hval' with rfl | rfl <;> decide

/-- **A range read runs on past its end**: the keys 1 and 5 are stored, the range
from 1 to 3 is read, and key 5 is in the result. -/
theorem range_returns_key_outside : ∃ w₀ b w res w',
    Db.construct 0 ⟨none, none, none⟩ = .ok (Buffer.empty, w₀) ∧
    run World.handle (updates 2 twoPuts) w₀ = .ok (b, w) ∧ Db.Reachable w b ∧ b.kv.size ≠ 0 ∧
    run World.handle (Db.getRange b 1 3 SortedMap.empty) w = .ok (res, w') ∧
    res.lookup 5 = some 5 ∧ ¬ (5 : Key) ≤ 3 := by
  obtain ⟨w₀, b, w, hok, hrun, hreach, hb, htables⟩ := twoPuts_spec
  obtain ⟨ws, hat⟩ := hreach.at
  have hsize : b.kv.size ≠ 0 := by
    rw [SortedMap.size, hb]
    decide
  obtain ⟨res, p, hrange, hres⟩ := getRange_spec hat.holds hat.full hsize
    (show (1 : Key) ≤ 3 by decide)
  refine ⟨w₀, b, w, res, _, hok, hrun, hreach, hsize, hrange, ?_, by decide⟩
  rw [hres, htables, hb]
  decide

end GhostDB
