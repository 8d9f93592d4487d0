import GhostDB.Session

/-!
# The database is a map

Sequences of calls by one client on a new database.

* `At` — the state after some writes: the store is where the machine of
  `GhostDB.Layout` says, and the memtable and the flush history are the cut of
  the writes.
* `updates_spec` — a sequence of writes ends in that state, or overflows a page
  at a flush that can be read off the cut.
* `session_refines_map` — every answer is that of a map from keys to their last
  written value.
* `runs_partition_history` — the used runs are a prefix of the fill order and
  hold consecutive stretches of the flush history, merged.
-/

namespace GhostDB

open Prog SortedTable

/-! ## Calls -/

/-- A call that writes. -/
inductive Update
  | put (key : Key) (val : Val)
  | delete (key : Key)
  deriving DecidableEq, Repr

namespace Update

/-- The call on a database with memtable `b`. -/
def prog (fuel : Nat) (b : Buffer) : Update → Prog ClientSig Buffer
  | .put key val => Db.put fuel b key val
  | .delete key => Db.delete fuel b key

/-- The pair the call writes. -/
def write : Update → MappingType
  | .put key val => (key, val)
  | .delete key => (key, tombstome)

theorem prog_eq (fuel : Nat) (b : Buffer) (u : Update) :
    u.prog fuel b = Db.put fuel b u.write.1 u.write.2 := by
  cases u <;> rfl

end Update

/-- A call of a client. -/
inductive Call
  | update (u : Update)
  | get (key : Key)
  deriving DecidableEq, Repr

/-- What a call returns. -/
inductive Reply
  /-- `Put` and `Delete` return `true`. -/
  | done
  /-- `Get`: `true` with a value, or `false`. -/
  | found (val : Option Val)
  deriving DecidableEq, Repr

/-- The call on a database with memtable `b`. -/
def Call.prog (fuel : Nat) (b : Buffer) : Call → Prog ClientSig (Buffer × Reply)
  | .update u => do
    let b ← u.prog fuel b
    return (b, .done)
  | .get key => do
    let val ← Db.get b key
    return (b, .found val)

/-- The writes among some calls. -/
def writesOf (calls : List Call) : List MappingType :=
  calls.filterMap fun
    | .update u => some u.write
    | .get _ => none

/-- A sequence of writes on a new database. -/
def updates (fuel : Nat) (us : List Update) : Prog ClientSig Buffer :=
  us.foldlM (fun b u => u.prog fuel b) Buffer.empty

/-- A sequence of calls on a new database, with the answers in order. -/
def session (fuel : Nat) (calls : List Call) : Prog ClientSig (Buffer × List Reply) :=
  calls.foldlM (fun st c => do
    let r ← c.prog fuel st.1
    return (r.1, st.2 ++ [r.2])) (Buffer.empty, [])

theorem updates_concat (fuel : Nat) (us : List Update) (u : Update) :
    updates fuel (us ++ [u]) = updates fuel us >>= fun b => u.prog fuel b := by
  rw [updates, List.foldlM_append, updates]
  simp only [List.foldlM_cons, List.foldlM_nil, bind_pure]

theorem session_concat (fuel : Nat) (calls : List Call) (c : Call) :
    session fuel (calls ++ [c]) = session fuel calls >>= fun st =>
      c.prog fuel st.1 >>= fun r => pure (r.1, st.2 ++ [r.2]) := by
  rw [session, List.foldlM_append, session]
  simp only [List.foldlM_cons, List.foldlM_nil, bind_pure]

/-! ## The state after some writes -/

/-- The state of a database after the writes `ws`. -/
structure At (ws : List MappingType) (w : World) (b : Buffer) : Prop where
  /-- The store holds the layout of the flush history. -/
  holds : Holds w
  /-- History and memtable are the cut of the writes. -/
  split : (w.flushed, b) = splitWrites ws

namespace At

variable {ws : List MappingType} {w : World} {b : Buffer}

theorem full (h : At ws w b) : ∀ m ∈ w.flushed, m.size = maxBufferSize := by
  intro m hm
  have hfst : w.flushed = (splitWrites ws).1 := congrArg Prod.fst h.split
  rw [hfst] at hm
  exact size_of_mem_splitWrites hm

/-- The newest value of a key is the last one written. -/
theorem newest_eq (h : At ws w b) (key : Key) :
    newest (tablesOf (w.flushed, b)) key = lastWrite ws key := by
  rw [h.split, newest_splitWrites]

/-- **One more write.** -/
theorem update (h : At ws w b) (u : Update) (fuel : Nat) :
    (b.Refuses u.write.1 ∧ Overflows w.flushed ∧
      run World.handle (u.prog (fuel + 2) b) w = .error .pageOverflow) ∨
    (¬ (b.Refuses u.write.1 ∧ Overflows w.flushed) ∧
      ∃ b' w', run World.handle (u.prog (fuel + 2) b) w = .ok (b', w') ∧
        At (ws ++ [u.write]) w' b') := by
  rw [u.prog_eq]
  rcases put_spec h.holds h.full b u.write fuel with hover | ⟨hno, s', hrun, hholds⟩
  · exact .inl hover
  · refine .inr ⟨hno, _, _, hrun, hholds, ?_⟩
    rw [splitWrites_concat, ← h.split]

/-- **One more read.** -/
theorem get (h : At ws w b) (key : Key) :
    run World.handle (Db.get b key) w = .error .endIterator ∨
      ∃ val w', run World.handle (Db.get b key) w = .ok (val, w') ∧ At ws w' b ∧
        (key ≠ tombstome → val = (lastWrite ws key).bind visible) := by
  by_cases hk : key = tombstome
  · obtain ⟨p, hrun⟩ := run_get h.holds b key
    rw [hrun]
    cases b.get key with
    | some val => exact .inr ⟨val, w, rfl, h, fun hne => absurd hk hne⟩
    | none =>
      rcases scan_spec (honest_contents (layout w.flushed)) key with herr | hok
      · rw [herr]
        exact .inl rfl
      · rw [hok]
        exact .inr ⟨_, _, rfl, ⟨h.holds.withPos p, h.split⟩, fun hne => absurd hk hne⟩
  · rcases get_spec h.holds b hk with herr | ⟨s', hrun, hholds⟩
    · exact .inl herr
    · refine .inr ⟨_, _, hrun, ⟨hholds, h.split⟩, ?_⟩
      intro _
      rw [h.newest_eq]

end At

/-- A new database is in the state after no writes. -/
theorem construct_at (fuel : Nat) (files : Files) :
    ∃ w, Db.construct fuel files = .ok (Buffer.empty, w) ∧ At [] w Buffer.empty := by
  obtain ⟨w, hrun, hholds, hflushed⟩ := construct_new fuel files
  refine ⟨w, hrun, hholds, ?_⟩
  rw [hflushed]
  rfl

/-! ## Sequences of writes -/

/-- Some flush of the history has to merge more than a page holds. -/
def OverflowsIn (ms : List BufferMap) : Prop := ∃ j < ms.length, Overflows (ms.take j)

theorem not_overflowsIn_nil : ¬ OverflowsIn [] := by
  rintro ⟨j, hj, -⟩
  exact absurd hj (Nat.not_lt_zero j)

/-- As long as there are empty runs nothing has to be merged. -/
theorem not_overflowsIn_of_length_le {ms : List BufferMap} (hlen : ms.length ≤ 15) :
    ¬ OverflowsIn ms := by
  rintro ⟨j, hj, hfull, -⟩
  rw [layout_full_iff, List.length_take] at hfull
  omega

theorem overflowsIn_concat (ms : List BufferMap) (m : BufferMap) :
    OverflowsIn (ms ++ [m]) ↔ OverflowsIn ms ∨ Overflows ms := by
  have htake : ∀ j ≤ ms.length, (ms ++ [m]).take j = ms.take j := fun j hj =>
    List.take_append_of_le_length hj
  constructor
  · rintro ⟨j, hj, hover⟩
    rw [List.length_append, List.length_singleton] at hj
    rw [htake j (by omega)] at hover
    rcases (show j ≤ ms.length by omega).lt_or_eq with hlt | heq
    · exact .inl ⟨j, hlt, hover⟩
    · rw [heq, List.take_length] at hover
      exact .inr hover
  · rintro (⟨j, hj, hover⟩ | hover)
    · refine ⟨j, by simp; omega, ?_⟩
      rwa [htake j hj.le]
    · refine ⟨ms.length, by simp, ?_⟩
      rwa [htake _ le_rfl, List.take_length]

/-- One more write adds an overflow exactly when it has to flush into one. -/
theorem overflowsIn_bufferStep (st : List BufferMap × Buffer) (r : MappingType) :
    OverflowsIn (bufferStep st r).1 ↔ OverflowsIn st.1 ∨ (st.2.Refuses r.1 ∧ Overflows st.1) := by
  rw [bufferStep]
  split
  next h =>
    rw [overflowsIn_concat]
    simp [h]
  next h => simp [h]

/-- **A sequence of writes** ends in the state after them, or overflows a page
when its cut has such a flush. -/
theorem updates_spec {w₀ : World} (h₀ : At [] w₀ Buffer.empty) (fuel : Nat) (us : List Update) :
    (OverflowsIn (splitWrites (us.map Update.write)).1 ∧
      run World.handle (updates (fuel + 2) us) w₀ = .error .pageOverflow) ∨
    (¬ OverflowsIn (splitWrites (us.map Update.write)).1 ∧
      ∃ b w, run World.handle (updates (fuel + 2) us) w₀ = .ok (b, w) ∧
        At (us.map Update.write) w b) := by
  induction us using List.reverseRecOn with
  | nil => exact .inr ⟨not_overflowsIn_nil, Buffer.empty, w₀, rfl, h₀⟩
  | append_singleton us u ih =>
    rw [updates_concat, List.map_append, List.map_singleton, splitWrites_concat,
      overflowsIn_bufferStep]
    rcases ih with ⟨hover, hrun⟩ | ⟨hno, b, w, hrun, hat⟩
    · exact .inl ⟨.inl hover, run_bind_of_error hrun⟩
    · rw [run_bind_of_ok hrun, ← hat.split]
      rcases hat.update u fuel with ⟨hrefuses, hover, herr⟩ | ⟨hok, b', w', hrun', hat'⟩
      · exact .inl ⟨.inr ⟨hrefuses, hover⟩, herr⟩
      · refine .inr ⟨?_, b', w', hrun', hat'⟩
        rintro (hover | hover)
        · rw [← hat.split] at hno
          exact hno hover
        · exact hok hover

/-! ## Sessions -/

theorem writesOf_concat (calls : List Call) (c : Call) :
    writesOf (calls ++ [c]) = writesOf calls ++ writesOf [c] := List.filterMap_append

/-- The answers so far: each `Get` of a key other than `INT32_MIN` was told the
last write before it. -/
def AnswersMap (calls : List Call) (replies : List Reply) : Prop :=
  replies.length = calls.length ∧ ∀ i key, calls[i]? = some (Call.get key) → key ≠ tombstome →
    replies[i]? = some (Reply.found ((lastWrite (writesOf (calls.take i)) key).bind visible))

/-- One more call with its answer. -/
theorem AnswersMap.concat {calls : List Call} {replies : List Reply} (h : AnswersMap calls replies)
    {c : Call} {r : Reply} (hr : ∀ key, c = Call.get key → key ≠ tombstome →
      r = Reply.found ((lastWrite (writesOf calls) key).bind visible)) :
    AnswersMap (calls ++ [c]) (replies ++ [r]) := by
  refine ⟨by simp [h.1], ?_⟩
  intro i key hi hk
  rcases lt_trichotomy i calls.length with hlt | heq | hgt
  · rw [List.getElem?_append_left hlt] at hi
    rw [List.getElem?_append_left (by rw [h.1]; exact hlt),
      List.take_append_of_le_length hlt.le]
    exact h.2 i key hi hk
  · rw [heq, List.getElem?_concat_length] at hi
    rw [heq, List.take_left, ← h.1, List.getElem?_concat_length]
    exact congrArg some (hr key (Option.some.inj hi) hk)
  · rw [List.getElem?_eq_none (by simpa using hgt)] at hi
    cases hi

/-- A session on a new database answers like a map, unless it overflows a page
or reads past the end of a table. -/
theorem session_spec {w₀ : World} (h₀ : At [] w₀ Buffer.empty) (fuel : Nat) (calls : List Call) :
    run World.handle (session (fuel + 2) calls) w₀ = .error .pageOverflow ∨
    run World.handle (session (fuel + 2) calls) w₀ = .error .endIterator ∨
    ∃ b replies w, run World.handle (session (fuel + 2) calls) w₀ = .ok ((b, replies), w) ∧
      At (writesOf calls) w b ∧ AnswersMap calls replies := by
  induction calls using List.reverseRecOn with
  | nil => exact .inr (.inr ⟨Buffer.empty, [], w₀, rfl, h₀, rfl, by simp⟩)
  | append_singleton calls c ih =>
    rw [session_concat]
    rcases ih with herr | herr | ⟨b, replies, w, hrun, hat, hmap⟩
    · exact .inl (run_bind_of_error herr)
    · exact .inr (.inl (run_bind_of_error herr))
    · rw [run_bind_of_ok hrun]
      cases c with
      | update u =>
        rcases hat.update u fuel with ⟨-, -, herr⟩ | ⟨-, b', w', hrun', hat'⟩
        · exact .inl (run_bind_of_error (run_bind_of_error herr))
        · have hcall : run World.handle ((Call.update u).prog (fuel + 2) b) w =
              .ok ((b', .done), w') := (run_bind_of_ok hrun').trans rfl
          refine .inr (.inr ⟨b', replies ++ [.done], w', (run_bind_of_ok hcall).trans rfl, ?_, ?_⟩)
          · rw [writesOf_concat]
            exact hat'
          · exact hmap.concat fun key hc => by cases hc
      | get key =>
        rcases hat.get key with herr | ⟨val, w', hrun', hat', hval⟩
        · exact .inr (.inl (run_bind_of_error (run_bind_of_error herr)))
        · have hcall : run World.handle ((Call.get key).prog (fuel + 2) b) w =
              .ok ((b, .found val), w') := (run_bind_of_ok hrun').trans rfl
          refine .inr (.inr
            ⟨b, replies ++ [.found val], w', (run_bind_of_ok hcall).trans rfl, ?_, ?_⟩)
          · rw [writesOf_concat]
            simpa [writesOf] using hat'
          · apply hmap.concat
            intro key' hc hk
            cases hc
            rw [hval hk]

/-- **The database refines a finite map.**  In every session on a new database
that neither overflows a page nor reads past the end of a table, every `Get` of
a key other than `INT32_MIN` answers with the last write before it. -/
theorem session_refines_map (fuel : Nat) (files : Files) (calls : List Call) :
    ∃ w₀, Db.construct fuel files = .ok (Buffer.empty, w₀) ∧
      (run World.handle (session (fuel + 2) calls) w₀ = .error .pageOverflow ∨
        run World.handle (session (fuel + 2) calls) w₀ = .error .endIterator ∨
        ∃ b replies w, run World.handle (session (fuel + 2) calls) w₀ = .ok ((b, replies), w) ∧
          replies.length = calls.length ∧
          ∀ i key, calls[i]? = some (Call.get key) → key ≠ tombstome →
            replies[i]? =
              some (Reply.found ((lastWrite (writesOf (calls.take i)) key).bind visible))) := by
  obtain ⟨w₀, hconstruct, hat⟩ := construct_at fuel files
  refine ⟨w₀, hconstruct, ?_⟩
  rcases session_spec hat fuel calls with herr | herr | ⟨b, replies, w, hrun, -, hmap⟩
  · exact .inl herr
  · exact .inr (.inl herr)
  · exact .inr (.inr ⟨b, replies, w, hrun, hmap⟩)

/-! ## Runs and history -/

/-- The pairs a page decodes to, `none` for a page of zeros. -/
def decodedPairs (page : List UInt8) : Option SSTable :=
  match (SSTablePage.ofData page).parsePageData with
  | .ok (false, p) => some p.memtable
  | _ => none

theorem RunContent.Decodes.decodedPairs {c : RunContent} (h : c.Decodes) :
    GhostDB.decodedPairs c.page = some c.pairs := by
  obtain ⟨p, hp, -, hpairs⟩ := h
  rw [GhostDB.decodedPairs, hp, ← hpairs]

/-- **Run layout and age order.**  After any writes on a new database that do
not overflow a page, flags and pages agree, the used runs are a prefix of the
fill order, and they hold consecutive stretches of the flush history, each
merged from its oldest memtable on. -/
theorem runs_partition_history (fuel : Nat) (files : Files) (us : List Update) :
    ∃ w₀, Db.construct fuel files = .ok (Buffer.empty, w₀) ∧
      (run World.handle (updates (fuel + 2) us) w₀ = .error .pageOverflow ∨
        ∃ b w, run World.handle (updates (fuel + 2) us) w₀ = .ok (b, w) ∧
          (∀ i < totalNonOverflowPages, (w.store.runs (fillPos i).1 (fillPos i).2).isEmpty =
            isPageAllZero (pageAt w.store.disk.dbIo (fillPage i))) ∧
          ∃ parts : List (List BufferMap), parts.flatten = w.flushed ∧ (∀ p ∈ parts, p ≠ []) ∧
            parts.length ≤ totalNonOverflowPages ∧
            (∀ i < totalNonOverflowPages,
              (w.store.runs (fillPos i).1 (fillPos i).2).isEmpty = false ↔ i < parts.length) ∧
            ∀ i p, parts[i]? = some p →
              decodedPairs (pageAt w.store.disk.dbIo (fillPage i)) =
                some (p.foldl (fun acc m => mergeSSTable m.entries acc) [])) := by
  obtain ⟨w₀, hconstruct, hat⟩ := construct_at fuel files
  refine ⟨w₀, hconstruct, ?_⟩
  rcases updates_spec hat fuel us with ⟨-, herr⟩ | ⟨-, b, w, hrun, hat'⟩
  · exact .inl herr
  · have hrep := hat'.holds.rep
    have hshape := layout_shape w.flushed
    refine .inr ⟨b, w, hrun, ?_, layout w.flushed, flatten_layout _, hshape.nonempty,
      hshape.length_le, ?_, ?_⟩
    · intro i hi
      rw [(hrep.slot i hi).isEmpty, (hrep.slot i hi).isPageAllZero]
    · intro i hi
      rw [(hrep.slot i hi).isEmpty]
      by_cases hlt : i < (layout w.flushed).length
      · rw [Slots.ofList_of_lt (by rwa [length_contents])]
        simp [hlt]
      · rw [Slots.ofList_of_le (by rw [length_contents]; exact not_lt.1 hlt)]
        simp [hlt]
    · intro i p hp
      have hlt : i < (layout w.flushed).length := (List.getElem?_eq_some_iff.1 hp).1
      have hcontent : Slots.ofList (contents (layout w.flushed)) i =
          some (RunContent.ofTable i (mergeAll p)) := by
        simp [Slots.ofList, contents, hp]
      have hslot := hrep.slot i (hlt.trans_le hshape.length_le)
      rw [hcontent] at hslot
      rw [hslot.2.1, hslot.2.2.decodedPairs, RunContent.ofTable_pairs, mergeAll, foldMerge,
        List.foldl_map]

end GhostDB
