import GhostDB.LogContents
import GhostDB.RangeReads

/-!
# The write-ahead order

What could be rebuilt from the disk at any moment: the records of the log file
laid over the pages of the runs.

* `Store.logged` — what was written to the log file since its last clear.
* `Store.diskLookup` — the newest-first lookup over the pages.
* `flush_outline` — the two while a memtable is flushed.
* `write_ahead_order` — replaying the log gives the memtable, and from
  `FlushWAL` on the disk alone lacks no earlier write.
-/

namespace GhostDB

open Prog SortedTable Bytes

/-! ## What is on disk -/

namespace Store

/-- What `WriteLog` wrote since the last clear: a clear leaves the stream at the
start of the file, and every other write moves it on. -/
def logged (s : Store) : List UInt8 := s.disk.logIo.bytes.take s.disk.logIo.pos

/-- The tables the pages of the runs decode to, oldest first. -/
def diskTables (s : Store) : List SSTable :=
  (List.range totalNonOverflowPages).filterMap fun i =>
    decodedPairs (pageAt s.disk.dbIo (fillPage i))

/-- The newest value of a key in the pages of the runs. -/
def diskLookup (s : Store) (key : Key) : Option Val := newest s.diskTables key

end Store

theorem decodedPairs_zeroData : decodedPairs zeroData = none := by
  have hzero : isPageAllZero (SSTablePage.ofData zeroData).data = true :=
    isPageAllZero_replicate pageSize
  rw [decodedPairs, SSTablePage.parsePageData, if_pos hzero]

/-- Flags and pages agree, so loading the runs gives the tables of the pages. -/
theorem diskTables_eq {s : Store} {slots : Slots} (h : Rep s slots) : s.diskTables = s.tables := by
  apply List.filterMap_congr
  intro i hi
  have hslot := h.slot i (List.mem_range.1 hi)
  rw [loaded_eq h (List.mem_range.1 hi)]
  cases hc : slots i with
  | none =>
    rw [hc] at hslot
    exact (congrArg decodedPairs hslot.2).trans decodedPairs_zeroData
  | some c =>
    rw [hc] at hslot
    rw [hslot.page, hslot.2.2.decodedPairs]
    rfl

/-- Records in front of other bytes. -/
theorem parseRecords_append {xs : List UInt8} (h : recordSize ∣ xs.length) (ys : List UInt8) :
    parseRecords (xs ++ ys) = parseRecords xs ++ parseRecords ys := by
  fun_induction parseRecords xs with
  | case1 xs hshort =>
    have hnil : xs = [] := List.eq_nil_of_length_eq_zero (Nat.eq_zero_of_dvd_of_lt h hshort)
    rw [hnil, List.nil_append, List.nil_append]
  | case2 xs hlong ih =>
    have hslice : ∀ off, off + 4 ≤ xs.length → readInt32 (xs ++ ys) off = readInt32 xs off := by
      intro off hoff
      rw [readInt32, readInt32, slice, slice, List.drop_append_of_le_length (by omega),
        List.take_append_of_le_length (by rw [List.length_drop]; omega)]
    have hle : recordSize ≤ xs.length := not_lt.1 hlong
    have height : 8 ≤ xs.length := hle
    have hrest := ih (by rw [List.length_drop]; exact Nat.dvd_sub h (dvd_refl _))
    rw [parseRecords, if_neg (by rw [List.length_append, recordSize]; omega),
      hslice 0 (by omega), hslice 4 (by omega), List.drop_append_of_le_length hle, hrest]
    rfl

section Replay

variable {bounded : Prop} {recs : List MappingType} {s : Store}

theorem LogFile.logged {bs : List UInt8} (h : LogFile s.disk.logIo bs) : s.logged = bs := by
  rw [Store.logged, h.pos, h.written]

/-- The records of file and buffer. -/
theorem Logged.parse (h : Logged bounded recs s) :
    parseRecords s.logged ++ parseRecords s.log.pending = recs := by
  obtain ⟨written, hfile, hbytes⟩ := h.bytes
  have hlen := congrArg List.length hbytes
  rw [List.length_append, length_memtableToString, h.ok.length_pending] at hlen
  have haligned : recordSize ∣ written.length :=
    (Nat.dvd_add_left h.ok.whole).1 (hlen ▸ Nat.dvd_mul_right _ _)
  rw [hfile.logged, ← parseRecords_append haligned, hbytes, parseRecords_memtableToString]

/-- The records of the file alone. -/
theorem OnDisk.parse (h : OnDisk bounded recs s) : parseRecords s.logged = recs := by
  rw [h.file.logged, parseRecords_memtableToString]

end Replay

/-! ## Dumping a memtable under interference -/

section Dump

variable {bounded : Prop} {recs : List MappingType} {cs : List RunContent} {m : BufferMap}

/-- The log holds the records and the runs hold `cs`. -/
def Stage (bounded : Prop) (recs : List MappingType) (cs : List RunContent) (w : World) : Prop :=
  OnDisk bounded recs w.store ∧ Rep w.store (Slots.ofList cs)

theorem stable_stage (bounded : Prop) (recs : List MappingType) (cs : List RunContent) :
    Stable World.flushThread (Stage bounded recs cs) := by
  rintro w w' ⟨hlog, hrep⟩ hflush
  refine ⟨stable_onDisk bounded recs w w' hlog hflush, ?_⟩
  obtain ⟨log, rfl, -⟩ := World.flushThread_eq hlog.ok hflush
  exact hrep.withLog _ _

/-- Looking for a run. -/
theorem getAvaiRun_outline (hlen : cs.length < totalNonOverflowPages) :
    Outline World.handle World.flushThread (Stage bounded recs cs)
      (onStore SSTableManager.getAvaiRun) (Stage bounded recs cs)
      (fun found w => found = some (fillPos cs.length) ∧ Stage bounded recs cs w) := by
  intro w ops q w' h hsteps
  have hpoint : Stage bounded recs cs w' := by
    refine (Outline.of_pure (w := ClientSig.isWrite) (stable_stage bounded recs cs) ?_
      (Pure.inl (pure_getAvaiRun fun _ _ => rfl)) w ops q w' h hsteps).1
    rintro o v v' r ho ⟨hlog, hrep⟩ ok
    obtain ⟨p, rfl⟩ := handle_of_read ho hrep.db ok
    exact ⟨hlog.congr rfl rfl, hrep.withPos p⟩
  refine ⟨hpoint, ?_⟩
  rintro found rfl
  refine ⟨?_, hpoint⟩
  obtain ⟨v, hrun, -⟩ := Interleaved.run_eq hsteps h.1.ok
  rw [World.run_onStore_of_pure (pure_getAvaiRun fun _ _ => rfl), run_getAvaiRun h.2,
    if_pos hlen] at hrun
  cases hrun
  rfl

/-- The runs after one more. -/
def withRun (cs : List RunContent) (m : BufferMap) : List RunContent :=
  cs ++ [RunContent.ofTable cs.length m.entries]

/-- Writing the run. -/
theorem dumpBuffer_outline (hlen : cs.length < totalNonOverflowPages) (hm : FitsPage m.entries) :
    Outline World.handle World.flushThread (Stage bounded recs cs)
      (onStore (op (S := StoreSig)
        (.dumpBuffer (fillPos cs.length).1 (fillPos cs.length).2 m)))
      (fun w => Stage bounded recs cs w ∨ Stage bounded recs (withRun cs m) w)
      (fun _ => Stage bounded recs (withRun cs m)) := by
  refine call_outline (stable_stage bounded recs cs) (stable_stage bounded recs _) ?_
  rintro w s' u ⟨hlog, hrep⟩ hs
  obtain ⟨s₁, hdump, hrep₁, hframe, -⟩ :=
    dumpBuffer_spec hrep hlen (Slots.ofList_of_le le_rfl) hm
  cases hdump.symm.trans hs
  rw [Slots.update_ofList] at hrep₁
  exact ⟨hlog.congr hframe.log hframe.logIo, hrep₁⟩

/-- One round of the loop. -/
theorem dumpSSTable_outline (hlen : cs.length < totalNonOverflowPages) (hm : FitsPage m.entries) :
    Outline World.handle World.flushThread (Stage bounded recs cs)
      (onStore (SSTableManager.dumpSSTable m))
      (fun w => Stage bounded recs cs w ∨ Stage bounded recs (withRun cs m) w)
      (fun done w => done = true ∧ Stage bounded recs (withRun cs m) w) := by
  rw [SSTableManager.dumpSSTable, onStore, inl_bind]
  refine ((getAvaiRun_outline hlen).mono (fun _ h => h) (fun _ h => .inl h)
    (fun _ _ h => h)).bind fun found => ?_
  rintro w ops q w' ⟨rfl, h⟩ hsteps
  have hret : Outline World.handle World.flushThread (Stage bounded recs (withRun cs m))
      (.ret true) (fun w => Stage bounded recs cs w ∨ Stage bounded recs (withRun cs m) w)
      (fun done w => done = true ∧ Stage bounded recs (withRun cs m) w) :=
    (Outline.ret (stable_stage bounded recs (withRun cs m)) true).mono (fun _ h => h)
      (fun _ h => .inr h) (fun _ _ h => h)
  exact ((dumpBuffer_outline hlen hm).bind fun _ => hret) w ops q w' h hsteps

/-- **Dumping a memtable while a run is empty**: the run is written or not. -/
theorem dump_outline (hlen : cs.length < totalNonOverflowPages) (hm : FitsPage m.entries)
    (fuel : Nat) :
    Outline World.handle World.flushThread (Stage bounded recs cs) (dumpLoop (fuel + 1) m)
      (fun w => Stage bounded recs cs w ∨ Stage bounded recs (withRun cs m) w)
      (fun _ => Stage bounded recs (withRun cs m)) := by
  rw [dumpLoop]
  refine (dumpSSTable_outline hlen hm).bind fun done => ?_
  rintro w ops q w' ⟨rfl, h⟩ hsteps
  obtain ⟨-, rfl, hend⟩ := hsteps.of_ret (stable_stage bounded recs (withRun cs m)) h
  exact ⟨.inr hend, fun _ _ => hend⟩

/-- Clearing the log behind it. -/
theorem clear_outline (recs : List MappingType) (cs : List RunContent) :
    Outline World.handle World.flushThread (Stage False recs cs) (onStore clearLog)
      (fun w => Stage False recs cs w ∨ Stage False [] cs w) (fun _ => Stage False [] cs) := by
  refine call_outline (stable_stage False recs cs) (stable_stage False [] cs) ?_
  rintro w s' u ⟨hlog, hrep⟩ hs
  have hframe : RunFrame w.store s' := by
    cases hs
    exact ⟨rfl, by simp, by simp⟩
  exact ⟨hlog.clearLog False.elim hs, hframe.rep hrep⟩

/-- **The flush of a memtable** behind `FlushWAL`. -/
theorem flush_outline (recs : List MappingType) (hlen : cs.length < totalNonOverflowPages)
    (hm : FitsPage m.entries) (fuel : Nat) :
    Outline World.handle World.flushThread (Stage False recs cs)
      (dumpLoop (fuel + 1) m >>= fun _ => onStore clearLog)
      (fun w => Stage False recs cs w ∨ Stage False recs (withRun cs m) w ∨
        Stage False [] (withRun cs m) w)
      (fun _ => Stage False [] (withRun cs m)) := by
  refine ((dump_outline hlen hm fuel).mono (fun _ h => h) (fun _ h => h.imp_right .inl)
    (fun _ _ h => h)).bind fun _ => ?_
  exact (clear_outline recs (withRun cs m)).mono (fun _ h => h) (fun _ h => .inr h)
    (fun _ _ h => h)

end Dump

/-! ## The points of a flush -/

/-- A write that has to flush, in two parts. -/
theorem put_eq_flush {b : Buffer} {key : Key} (h : b.Refuses key) (val : Val) (fuel : Nat) :
    Db.put (fuel + 1) b key val =
      (onStore flushWAL >>= fun _ => dumpLoop (fuel + 1) b.kv >>= fun _ => onStore clearLog) >>=
        fun _ => Db.put fuel Buffer.empty key val := by
  rw [Db.put, Buffer.put, dif_pos h]
  simp only [bind_assoc']
  rfl

section Points

variable {ws : List MappingType} {w w' : World} {b : Buffer} {key : Key} {val : Val} {fuel : Nat}
  {ops : List ClientSig.Op} {q : Prog ClientSig Buffer} {cs : List RunContent}
  {recs : List MappingType}

/-- In front of `FlushWAL`. -/
def Ready (recs : List MappingType) (cs : List RunContent) (w : World) : Prop :=
  Logged False recs w.store ∧ Rep w.store (Slots.ofList cs)

theorem stable_ready (recs : List MappingType) (cs : List RunContent) :
    Stable World.flushThread (Ready recs cs) := by
  rintro w w' ⟨hlog, hrep⟩ hflush
  refine ⟨stable_logged False recs w w' hlog hflush, ?_⟩
  obtain ⟨log, rfl, -⟩ := World.flushThread_eq hlog.ok hflush
  exact hrep.withLog _ _

theorem Ready.flushWAL {w w' : World} (h : Ready recs cs w) {r : ClientSig.Res (.inl .flushWAL)}
    (ok : World.handle (.inl .flushWAL) w = .ok (r, w')) : Stage False recs cs w' := by
  obtain ⟨hlog, hrep⟩ := h
  obtain ⟨s', hs, rfl⟩ := World.handle_inl_eq_ok ok
  obtain ⟨r, log, logIo, hs', -⟩ := handle_log (o := .flushWAL) rfl hlog.ok
  cases hs'.symm.trans hs
  exact ⟨hlog.flushWAL hs, hrep.withLog log logIo⟩

/-- `FlushWAL` is still due, or it has brought the log to the file. -/
theorem flushWAL_points {q : Prog ClientSig Unit} (h : Ready recs cs w)
    (hsteps : Interleaved (onStore flushWAL) w ops q w') :
    (ops = [] ∧ q = onStore flushWAL) ∨ Stage False recs cs w' := by
  rcases Steps.cases_op (stable_ready recs cs) (fun _ => stable_stage False recs cs)
    (fun _ _ _ h ok => h.flushWAL ok) hsteps h with ⟨hnil, hq, -⟩ | ⟨-, -, -, hstage⟩
  · exact .inl ⟨hnil, hq⟩
  · exact .inr hstage

/-- The whole flush ends with the run written and the log clear. -/
theorem flush_end (h : Ready recs cs w) (hlen : cs.length < totalNonOverflowPages) {u : Unit}
    (hsteps : Interleaved (onStore flushWAL >>= fun _ => dumpLoop (fuel + 1) b.kv >>= fun _ =>
      onStore clearLog) w ops (.ret u) w') : Stage False [] (withRun cs b.kv) w' := by
  have hwal : Outline World.handle World.flushThread (Ready recs cs) (onStore flushWAL)
      (fun _ => True) (fun _ => Stage False recs cs) := by
    intro v os p v' hv hsteps
    refine ⟨trivial, ?_⟩
    rintro u rfl
    exact (flushWAL_points hv hsteps).resolve_left fun hdue => nomatch hdue.2
  have hwhole := hwal.bind fun _ => (flush_outline recs hlen b.fitsPage fuel).mono (fun _ h => h)
    (fun _ _ => trivial) (fun _ _ h => h)
  exact (hwhole w ops _ w' h hsteps).2 u rfl

/-- **From `FlushWAL` on**, until the record of the write itself is appended, the
log holds the old memtable, or its run is written, or both. -/
theorem flush_points (h : Ready recs cs w) (hlen : cs.length < totalNonOverflowPages)
    (href : b.Refuses key) (hsteps : Interleaved (Db.put fuel b key val) w ops q w')
    (hflushed : (.inl .flushWAL : ClientSig.Op) ∈ ops)
    (hbefore : (.inl (.appendLogRecord key val) : ClientSig.Op) ∉ ops) :
    Stage False recs cs w' ∨ Stage False recs (withRun cs b.kv) w' ∨
      Stage False [] (withRun cs b.kv) w' := by
  cases fuel with
  | zero =>
    have hpure : Pure ClientSig.isLog (Db.put 0 b key val) := ⟨rfl, fun r => nomatch r⟩
    have hno := (Steps.invariant (I := fun _ => True) (fun _ _ _ _ => trivial)
      (fun _ _ _ _ _ _ _ => trivial) hsteps hpure trivial).2.2 _ hflushed
    exact nomatch hno
  | succ fuel =>
    rw [put_eq_flush href] at hsteps
    rcases Steps.cases_bind hsteps with ⟨p, -, hflush⟩ | ⟨a, u, os₁, os₂, rfl, hflush, hagain⟩
    · rcases Steps.cases_bind hflush with ⟨p', -, hwal⟩ | ⟨a, u, os₁, os₂, rfl, hwal, hrest⟩
      · rcases flushWAL_points h hwal with ⟨rfl, -⟩ | hstage
        · exact nomatch hflushed
        · exact .inl hstage
      · have hstage := (flushWAL_points h hwal).resolve_left fun hdue => nomatch hdue.2
        exact (flush_outline recs hlen b.fitsPage fuel u os₂ p w' hstage hrest).1
    · refine .inr (.inr ?_)
      have hstage := flush_end h hlen hflush
      cases fuel with
      | zero =>
        have hnone : Outline World.handle World.flushThread (Stage False [] (withRun cs b.kv))
            (Db.put 0 Buffer.empty key val) (Stage False [] (withRun cs b.kv)) fun _ _ => True :=
          Outline.of_error (stable_stage False [] _) fun s => ⟨.outOfFuel, rfl⟩
        exact (hnone u os₂ q w' hstage hagain).1
      | succ fuel =>
        rw [Db.put, Buffer.put, dif_neg (Buffer.not_refuses_empty key), bind_assoc'] at hagain
        exact Steps.before_call (stable_stage False [] _) hagain
          (fun hmem => hbefore (List.mem_append_right _ hmem)) hstage

end Points

/-! ## What the disk alone gives back -/

/-- The tables of a stage, read from disk. -/
theorem Stage.diskLookup {bounded : Prop} {recs : List MappingType} {cs : List RunContent}
    {w : World} (h : Stage bounded recs cs w) (hlen : cs.length ≤ totalNonOverflowPages)
    (key : Key) : w.store.diskLookup key = newest (cs.map RunContent.pairs) key := by
  rw [Store.diskLookup, diskTables_eq h.2, tables_ofList h.2 hlen]

/-- **Write-ahead order.**  In every reachable state the records of the log file
and then those of the log buffer, replayed, are the memtable.  And at every
point of a `Put` that flushes the memtable into an empty run, from `FlushWAL` on
and until the record of the write itself is appended, the records of the file
laid over the pages of the runs answer like the database did before the
write. -/
theorem write_ahead_order {w : World} {b : Buffer} (h : Db.Reachable w b) :
    RecoveryManager.lastWrites
        (parseRecords w.store.logged ++ parseRecords w.store.log.pending) = b.kv ∧
    ∀ {fuel : Nat} {key : Key} {val : Val} {ops : List ClientSig.Op} {q : Prog ClientSig Buffer}
      {w' : World}, b.Refuses key →
      (∃ i < totalNonOverflowPages,
        (w.store.runs (fillPos i).1 (fillPos i).2).isEmpty = true) →
      Interleaved (Db.put fuel b key val) w ops q w' →
      (.inl .flushWAL : ClientSig.Op) ∈ ops →
      (.inl (.appendLogRecord key val) : ClientSig.Op) ∉ ops →
      ∀ k, ((RecoveryManager.lastWrites (parseRecords w'.store.logged)).lookup k).or
          (w'.store.diskLookup k) = (b.kv.lookup k).or (w.store.newestLookup k) := by
  obtain ⟨ws, hat⟩ := h.loggedAt
  have hb : b.kv = (splitWrites ws).2.kv := congrArg (fun st => st.2.kv) hat.split
  have hreplay : RecoveryManager.lastWrites (currentWrites ws) = b.kv := by
    rw [hb, lastWrites_currentWrites]
  refine ⟨by rw [hat.logged.parse, hreplay], ?_⟩
  rintro fuel key val ops q w' href ⟨i, hi, hempty⟩ hsteps hflushed hbefore k
  have hlen : (contents (layout w.flushed)).length < totalNonOverflowPages := by
    have hused := (hat.holds.rep.isEmpty_ofList hi).not.1 (by simp [hempty])
    omega
  have hready : Ready (currentWrites ws) (contents (layout w.flushed)) w :=
    ⟨hat.logged, hat.holds.rep⟩
  have hnewest : w.store.newestLookup k =
      newest ((contents (layout w.flushed)).map RunContent.pairs) k := by
    rw [Store.newestLookup, hat.toAt.tables_eq]
  have hwith : newest ((withRun (contents (layout w.flushed)) b.kv).map RunContent.pairs) k =
      (b.kv.lookup k).or (w.store.newestLookup k) := by
    rw [withRun, List.map_append, newest_append, hnewest, List.map_singleton, newest_singleton]
    rfl
  have hlen' : (withRun (contents (layout w.flushed)) b.kv).length ≤ totalNonOverflowPages := by
    rw [withRun, List.length_append]
    exact hlen
  rcases flush_points hready hlen href hsteps hflushed hbefore with hstage | hstage | hstage
  · rw [hstage.1.parse, hreplay, hstage.diskLookup hlen.le, hnewest]
  · rw [hstage.1.parse, hreplay, hstage.diskLookup hlen', hwith]
    cases b.kv.lookup k <;> rfl
  · rw [hstage.1.parse, hstage.diskLookup hlen', hwith]
    rfl

/-- A full memtable and every run empty: after the `FlushWAL` of the sixth write
the disk alone answers like the database before it. -/
theorem write_ahead_order_fivePuts : ∃ w₀ b w q w',
    Db.construct 0 ⟨none, none, none⟩ = .ok (Buffer.empty, w₀) ∧
    run World.handle (updates 2 (sixPuts.take 5)) w₀ = .ok (b, w) ∧
    Interleaved (Db.put 2 b 6 6) w [.inl .flushWAL] q w' ∧
    ∀ k, ((RecoveryManager.lastWrites (parseRecords w'.store.logged)).lookup k).or
      (w'.store.diskLookup k) = (b.kv.lookup k).or (w.store.newestLookup k) := by
  obtain ⟨w₀, b, w, hok, hrun, hreach, hat⟩ :=
    exists_updates 0 ⟨none, none, none⟩ (sixPuts.take 5) (by decide)
  obtain ⟨hflushed, hb⟩ := Prod.mk.injEq .. ▸ hat.split
  have href : b.Refuses 6 := by
    rw [hb]
    decide
  have hempty : (w.store.runs (fillPos 0).1 (fillPos 0).2).isEmpty = true := by
    have hused := (hat.holds.rep.isEmpty_ofList (show 0 < totalNonOverflowPages by decide)).not
    rw [hflushed] at hused
    simpa using hused.2 (by decide)
  obtain ⟨u, log, logIo, hs, -⟩ := handle_log (o := .flushWAL) rfl hat.log
  have hcall : World.handle (.inl .flushWAL) w =
      .ok (u, ⟨w.store.withLog log logIo, w.flushed ++ flushedBy .flushWAL⟩) := by
    show (Store.handle .flushWAL w.store).map _ = _
    rw [hs]
    rfl
  have hsteps : ∃ q, Interleaved (Db.put 2 b 6 6) w [.inl .flushWAL] q
      ⟨w.store.withLog log logIo, w.flushed ++ flushedBy .flushWAL⟩ := by
    rw [put_eq_flush href]
    exact ⟨_, .call hcall (.refl _ _)⟩
  obtain ⟨q, hsteps⟩ := hsteps
  exact ⟨w₀, b, w, q, _, hok, hrun, hsteps,
    (write_ahead_order hreach).2 href ⟨0, by decide, hempty⟩ hsteps (List.mem_singleton_self _)
      fun hmem => nomatch List.mem_singleton.1 hmem⟩

end GhostDB
