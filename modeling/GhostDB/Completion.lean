import GhostDB.Reachable

/-!
# Every write completes

`while (!DumpSSTable(memtable)) RequestMinorCompaction()` spins forever if a
compaction frees no run, which `LaunchCompactionImpl` allows when it has at most
one pair to write.  From a reachable state it always has more.

* `Store.MinorFits` — the page limit, for the one table a write may merge.
* `countP_calls_dumpLoop` — the loop asks for at most one compaction.
* `put_completes` — `Put` ends with the key in the memtable.
-/

namespace GhostDB

open Prog SortedTable

/-! ## The page limit -/

/-- If every run is used, the table a minor compaction merges fits a page. -/
def Store.MinorFits (s : Store) : Prop :=
  (∀ i < totalNonOverflowPages, (s.runs (fillPos i).1 (fillPos i).2).isEmpty = false) →
    FitsPage (s.mergedFrom (minorCompactionLevelNum - 1))

/-- The flags of a store whose used runs come first. -/
theorem Rep.isEmpty_ofList {s : Store} {cs : List RunContent} (h : Rep s (Slots.ofList cs))
    {i : Nat} (hi : i < totalNonOverflowPages) :
    (s.runs (fillPos i).1 (fillPos i).2).isEmpty = false ↔ i < cs.length := by
  rw [(h.slot i hi).isEmpty]
  rcases Nat.lt_or_ge i cs.length with hlt | hge
  · simp [Slots.ofList_of_lt hlt, hlt]
  · simp [Slots.ofList_of_le hge, Nat.not_lt.2 hge]

/-- What the limit says about the flush history. -/
theorem Holds.minorFits_iff {w : World} (hw : Holds w) :
    w.store.MinorFits ↔ ¬ Overflows w.flushed := by
  have hlen := length_contents_layout w.flushed
  have hused : (∀ i < totalNonOverflowPages,
      (w.store.runs (fillPos i).1 (fillPos i).2).isEmpty = false) ↔
      (layout w.flushed).length = totalNonOverflowPages := by
    rw [length_contents] at hlen
    constructor
    · intro hall
      by_contra hne
      have hlt : (layout w.flushed).length < totalNonOverflowPages := by omega
      have hi := (hw.rep.isEmpty_ofList hlt).1 (hall _ hlt)
      rw [length_contents] at hi
      omega
    · intro heq i hi
      rw [hw.rep.isEmpty_ofList hi, length_contents]
      omega
  have hmerged : w.store.mergedFrom (minorCompactionLevelNum - 1) =
      mergeAll (w.flushed.drop minorBase) := by
    rw [mergedFrom_eq hw.rep hlen, compacted_minor (layout_shape _), flatten_drop_layout]
  rw [Store.MinorFits, hused, hmerged, Overflows, not_and_not_right]

/-! ## Counting compactions -/

/-- Is it a request for a minor compaction? -/
def ClientSig.isMinor : ClientSig.Op → Bool
  | .inr (.request .minor) => true
  | _ => false

/-- The store's calls request nothing. -/
theorem countP_calls_onStore {α : Type} (p : Prog StoreSig α) (w : World) :
    (calls World.handle (onStore p) w).countP ClientSig.isMinor = 0 :=
  countP_calls_of_pure (Pure.inl (Pure.of_forall (fun _ => rfl) p)) w

section DumpLoop

variable {w : World} {m : BufferMap}

/-- With a run available the loop requests nothing. -/
theorem countP_calls_dumpLoop_of_lt {cs : List RunContent}
    (hrep : Rep w.store (Slots.ofList cs)) (hlen : cs.length < totalNonOverflowPages)
    (hm : FitsPage m.entries) (fuel : Nat) :
    (calls World.handle (dumpLoop (fuel + 1) m) w).countP ClientSig.isMinor = 0 := by
  obtain ⟨s', hdump, -⟩ := dumpSSTable_spec hrep hlen hm
  rw [dumpLoop, calls_bind_of_ok hdump, List.countP_append, countP_calls_onStore]
  rfl

/-- **At most one compaction.**  When every run is used the loop requests one,
and then finds a run. -/
theorem countP_calls_dumpLoop (hw : Holds w) (hfull : ∀ m' ∈ w.flushed, m'.size = maxBufferSize)
    (hm : FitsPage m.entries) (hno : ¬ Overflows w.flushed) (fuel : Nat) :
    (calls World.handle (dumpLoop (fuel + 2) m) w).countP ClientSig.isMinor ≤ 1 := by
  rcases (layout_shape w.flushed).length_le.lt_or_eq with hlt | hge
  · exact (countP_calls_dumpLoop_of_lt hw.rep (by rwa [length_contents]) hm _).le.trans
      (Nat.zero_le 1)
  · have hdump : run World.handle (onStore (SSTableManager.dumpSSTable m)) w = .ok (false, w) :=
      dumpSSTable_full hw.rep (by rw [length_contents, hge])
    obtain ⟨s₁, hminor, hrep₁, -⟩ :=
      run_minor_of_full hw hfull hge (by_contra fun hfits => hno ⟨hge, hfits⟩)
    have hrequest : calls World.handle requestMinorCompaction w = [.inr (.request .minor)] :=
      calls_op _ w
    have hlen₁ : (contents (minorCompact (layout w.flushed))).length < totalNonOverflowPages := by
      rw [length_contents, length_minorCompact (by rw [hge]; decide)]
      decide
    have hrest := countP_calls_dumpLoop_of_lt (w := ⟨s₁, w.flushed⟩) hrep₁ hlen₁ hm fuel
    rw [dumpLoop, calls_bind_of_ok hdump, List.countP_append, countP_calls_onStore, Nat.zero_add]
    show (calls World.handle (requestMinorCompaction >>= fun _ => dumpLoop (fuel + 1) m) w).countP
      ClientSig.isMinor ≤ 1
    rw [calls_bind_of_ok hminor, hrequest, List.countP_append, hrest]
    exact Nat.le_refl 1

end DumpLoop

/-! ## Put and the destructor -/

/-- A write the memtable has room for requests nothing. -/
theorem pure_put_of_room {b : Buffer} {key : Key} {val : Val} (h : ¬ b.Refuses key) (fuel : Nat) :
    Pure ClientSig.isMinor (Db.put (fuel + 1) b key val) := by
  rw [Db.put, Buffer.put, dif_neg h, bind_assoc']
  exact Pure.bind (Pure.inl (Pure.of_forall (fun _ => rfl) _)) fun _ => trivial

section Calls

variable {w : World} {b : Buffer} (hw : Holds w)
  (hfull : ∀ m ∈ w.flushed, m.size = maxBufferSize) (hno : ¬ Overflows w.flushed)

include hw hfull hno in
theorem countP_calls_put (key : Key) (val : Val) (fuel : Nat) :
    (calls World.handle (Db.put (fuel + 2) b key val) w).countP ClientSig.isMinor ≤ 1 := by
  by_cases h : b.Refuses key
  · obtain ⟨s₁, hflush, hw₁⟩ := hw.flushWAL
    obtain ⟨s₂, hdump, hw₂, -⟩ := dumpLoop_spec hw₁ hfull b.fitsPage hno fuel
    obtain ⟨s₃, hclear, hw₃⟩ := hw₂.clearLog
    have hloop := countP_calls_dumpLoop hw₁ hfull b.fitsPage hno fuel
    have hroom : Pure ClientSig.isMinor (Db.put (fuel + 1) Buffer.empty key val) :=
      pure_put_of_room (Buffer.not_refuses_empty key) fuel
    have hagain := countP_calls_of_pure (h := World.handle) hroom ⟨s₃, w.flushed ++ [b.kv]⟩
    rw [Db.put, Buffer.put, dif_pos h]
    show (calls World.handle (onStore flushWAL >>= fun _ => dumpLoop (fuel + 2) b.kv >>= fun _ =>
      onStore clearLog >>= fun _ => Db.put (fuel + 1) Buffer.empty key val) w).countP
      ClientSig.isMinor ≤ 1
    rw [calls_bind_of_ok hflush, calls_bind_of_ok hdump, calls_bind_of_ok hclear]
    simp only [List.countP_append, countP_calls_onStore, hagain]
    omega
  · rw [countP_calls_of_pure (pure_put_of_room h (fuel + 1))]
    exact Nat.zero_le 1

include hw hfull hno in
theorem countP_calls_destroy (fuel : Nat) :
    (calls World.handle (Db.destroy (fuel + 2) b) w).countP ClientSig.isMinor ≤ 1 := by
  obtain ⟨s₁, hflush, hw₁⟩ := hw.flushWAL
  obtain ⟨s₂, hdump, hw₂, -⟩ := dumpLoop_spec hw₁ hfull b.fitsPage hno fuel
  have hloop := countP_calls_dumpLoop hw₁ hfull b.fitsPage hno fuel
  have hrest : Pure ClientSig.isMinor (do
      onStore clearLog; requestMajorCompaction; disableCompaction; onStore stopFlushThread) :=
    Pure.bind (Pure.inl (Pure.of_forall (fun _ => rfl) _)) fun _ =>
      ⟨rfl, fun _ => ⟨rfl, fun _ => Pure.inl (Pure.of_forall (fun _ => rfl) _)⟩⟩
  rw [Db.destroy, calls_bind_of_ok hflush, calls_bind_of_ok hdump]
  simp only [List.countP_append, countP_calls_onStore]
  rw [countP_calls_of_pure hrest]
  omega

end Calls

/-- **Every write completes.**  From every reachable state within the page limit
`Put` asks for at most one compaction, dumps the memtable once if it has to, and
returns with the key in the memtable; and the loop of the destructor ends the
same way. -/
theorem put_completes {w : World} {b : Buffer} (h : Db.Reachable w b) (hfits : w.store.MinorFits)
    (key : Key) (val : Val) (fuel : Nat) :
    (∃ b' w', run World.handle (Db.put (fuel + 2) b key val) w = .ok (b', w') ∧
      b'.kv.lookup key = some val ∧ b'.kv.size ≤ maxBufferSize ∧
      w'.flushed = if b.Refuses key then w.flushed ++ [b.kv] else w.flushed) ∧
    (calls World.handle (Db.put (fuel + 2) b key val) w).countP ClientSig.isMinor ≤ 1 ∧
    (∃ w', run World.handle (do onStore flushWAL; dumpLoop (fuel + 2) b.kv) w = .ok ((), w') ∧
      w'.flushed = w.flushed ++ [b.kv]) ∧
    (calls World.handle (Db.destroy (fuel + 2) b) w).countP ClientSig.isMinor ≤ 1 := by
  obtain ⟨ws, hat⟩ := h.at
  have hno := hat.holds.minorFits_iff.1 hfits
  refine ⟨?_, countP_calls_put hat.holds hat.full hno key val fuel, ?_,
    countP_calls_destroy hat.holds hat.full hno fuel⟩
  · rcases put_spec hat.holds hat.full b (key, val) fuel with ⟨_, ho, _⟩ | ⟨_, s', hrun, -⟩
    · exact absurd ho hno
    · refine ⟨_, _, hrun, ?_, (bufferStep (w.flushed, b) (key, val)).2.size_le, ?_⟩
      · unfold bufferStep
        split <;> simp [Buffer.insert, SortedMap.lookup_insert]
      · unfold bufferStep
        split <;> rfl
  · obtain ⟨s₁, hflush, hw₁⟩ := hat.holds.flushWAL
    obtain ⟨s₂, hdump, -⟩ := dumpLoop_spec hw₁ hat.full b.fitsPage hno fuel
    exact ⟨_, (run_bind_of_ok hflush).trans hdump, rfl⟩

/-- `n` writes, to the keys `0, 1, ...`. -/
def putsTo (n : Nat) : List Update := (List.range n).map fun i => .put (Int32.ofNat i) 0

/-- **A full database**: every run is used and the memtable is full, so the write
has to dump it and the dump has to compact. -/
theorem put_completes_full : ∃ w₀ b w,
    Db.construct 0 ⟨none, none, none⟩ = .ok (Buffer.empty, w₀) ∧
    run World.handle (updates 2 (putsTo 80)) w₀ = .ok (b, w) ∧
    (∀ i < totalNonOverflowPages, (w.store.runs (fillPos i).1 (fillPos i).2).isEmpty = false) ∧
    w.store.MinorFits ∧ b.Refuses 80 ∧
    (∃ b' w', run World.handle (Db.put 2 b 80 0) w = .ok (b', w') ∧
      b'.kv.lookup 80 = some 0 ∧ b'.kv.size ≤ maxBufferSize ∧ w'.flushed = w.flushed ++ [b.kv]) ∧
    (calls World.handle (Db.put 2 b 80 0) w).countP ClientSig.isMinor ≤ 1 ∧
    (∃ w', run World.handle (do onStore flushWAL; dumpLoop 2 b.kv) w = .ok ((), w') ∧
      w'.flushed = w.flushed ++ [b.kv]) ∧
    (calls World.handle (Db.destroy 2 b) w).countP ClientSig.isMinor ≤ 1 := by
  obtain ⟨w₀, b, w, ok, hrun, hreach, hat⟩ :=
    exists_updates 0 ⟨none, none, none⟩ (putsTo 80) (by decide +kernel)
  have hflushed : w.flushed = (splitWrites ((putsTo 80).map Update.write)).1 :=
    congrArg Prod.fst hat.split
  have hb : b = (splitWrites ((putsTo 80).map Update.write)).2 := congrArg Prod.snd hat.split
  have hused : ∀ i < totalNonOverflowPages,
      (w.store.runs (fillPos i).1 (fillPos i).2).isEmpty = false := by
    intro i hi
    have hlen : (layout w.flushed).length = totalNonOverflowPages := by
      rw [layout_full_iff, hflushed]
      decide +kernel
    rwa [hat.holds.rep.isEmpty_ofList hi, length_contents, hlen]
  have hfits : w.store.MinorFits := by
    rw [hat.holds.minorFits_iff]
    rintro ⟨-, hlarge⟩
    refine hlarge (fitsPage_iff.2 ?_)
    rw [hflushed]
    decide +kernel
  have hrefuses : b.Refuses 80 := by
    rw [hb]
    decide +kernel
  obtain ⟨⟨b', w', hput, hlookup, hsize, hdumped⟩, hcount, hloop, hdestroy⟩ :=
    put_completes hreach hfits 80 0 0
  rw [if_pos hrefuses] at hdumped
  exact ⟨w₀, b, w, ok, hrun, hused, hfits, hrefuses, ⟨b', w', hput, hlookup, hsize, hdumped⟩,
    hcount, hloop, hdestroy⟩

end GhostDB
