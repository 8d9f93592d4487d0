import GhostDB.Client

/-!
# The write-ahead log of a single client

What the log file and the log buffer hold together after a client's calls.

* `LogHolds` — the first page of `memtable.log` holds given bytes, zeros behind
  them, and the stream stands at their end.
* `LogState` — file and buffer together hold given bytes.
* `appendLogRecord_state`, `flushWAL_state`, `clearLog_state`,
  `stopFlushThread_state` — one lemma for each call; none of them touches a run
  (`RunFrame`).
* `logRecords_state` — a whole sequence of records, appended and flushed.
-/

namespace GhostDB

open Prog Bytes

/-! ## Frames -/

/-- The calls on the log leave the runs alone. -/
structure RunFrame (s s' : Store) : Prop where
  /-- The runs. -/
  runs : s'.runs = s.runs
  /-- The stream of `sstable.db`. -/
  dbIo : s'.disk.dbIo = s.disk.dbIo
  /-- The stream of `sstable.temp`. -/
  tempIo : s'.disk.tempIo = s.disk.tempIo

theorem RunFrame.refl (s : Store) : RunFrame s s := ⟨rfl, rfl, rfl⟩

theorem RunFrame.trans {s t u : Store} (h : RunFrame s t) (h' : RunFrame t u) : RunFrame s u :=
  ⟨h'.runs.trans h.runs, h'.dbIo.trans h.dbIo, h'.tempIo.trans h.tempIo⟩

theorem RunFrame.rep {s s' : Store} (hf : RunFrame s s') {slots : Slots} (h : Rep s slots) :
    Rep s' slots := by
  refine ⟨by rw [hf.dbIo]; exact h.db, by rw [hf.tempIo]; exact h.temp, ?_⟩
  intro i hi
  have hslot := h.slot i hi
  unfold SlotRep at hslot ⊢
  rw [hf.runs, hf.dbIo]
  exact hslot

theorem RunFrame.noStrayPages {s s' : Store} (hf : RunFrame s s') (h : NoStrayPages s) :
    NoStrayPages s' := by
  unfold NoStrayPages
  rw [hf.dbIo]
  exact h

/-! ## The log file -/

/-- The first page of the log file holds `bs`, and the next write goes behind
it. -/
structure LogHolds (io : FileStream) (bs : List UInt8) : Prop where
  /-- No operation on it has failed. -/
  good : io.fail = false
  /-- The stream stands at the end of `bs`. -/
  pos : io.pos = bs.length
  /-- Byte by byte; zero from the end of `bs` on. -/
  page : ∀ i < pageSize, io.bytes.getD i 0 = bs.getD i 0

theorem LogHolds.empty : LogHolds (FileStream.openExisting []) [] := ⟨rfl, rfl, fun _ _ => rfl⟩

/-- Writing behind what the file holds. -/
theorem LogHolds.write {io : FileStream} {bs : List UInt8} (h : LogHolds io bs)
    (data : List UInt8) : LogHolds (io.write data) (bs ++ data) := by
  refine ⟨by simp [h.good], ?_, ?_⟩
  · rw [FileStream.write_pos h.good, h.pos, List.length_append]
  · intro i hi
    rw [FileStream.write_bytes h.good, getD_overwrite, h.pos, h.page i hi]
    simp only [List.getD_eq_getElem?_getD]
    by_cases hlt : i < bs.length
    · rw [if_neg (by omega), List.getElem?_append_left hlt]
    · rw [List.getElem?_append_right (not_lt.1 hlt)]
      by_cases hin : i < bs.length + data.length
      · rw [if_pos ⟨not_lt.1 hlt, hin⟩]
      · rw [if_neg (by omega), List.getElem?_eq_none (not_lt.1 hlt),
          List.getElem?_eq_none (by omega)]

/-- The bytes handed to `WriteLog` end up behind what the file holds. -/
theorem LogHolds.writeLog {d : DiskManager} {bs : List UInt8} (h : LogHolds d.logIo bs)
    (data : List UInt8) : LogHolds (d.writeLog data data.length false).logIo (bs ++ data) := by
  unfold DiskManager.writeLog
  split
  next hz => rw [List.length_eq_zero_iff.1 hz, List.append_nil]; exact h
  next => simpa using h.write data

/-- Clearing the log leaves it empty. -/
theorem LogHolds.clear {d : DiskManager} {bs : List UInt8} (h : LogHolds d.logIo bs) :
    LogHolds (d.writeLog zeroData pageSize true).logIo [] := by
  have hpos : pageSize ≠ 0 := by decide
  have hgood : (d.logIo.seekp 0).fail = false := by simp [h.good]
  have htake : zeroData.take pageSize = zeroData := List.take_of_length_le length_zeroData.le
  unfold DiskManager.writeLog
  simp only [if_neg hpos, if_true, htake]
  refine ⟨by simp [h.good], ?_, ?_⟩
  · rw [FileStream.seekp_pos (by simp [h.good])]
    rfl
  · intro i hi
    rw [FileStream.seekp_bytes, FileStream.write_bytes hgood, getD_overwrite,
      FileStream.seekp_pos h.good, length_zeroData, if_pos ⟨Nat.zero_le _, by omega⟩, zeroData]
    simp only [List.getD_eq_getElem?_getD, List.getElem?_replicate, List.getElem?_nil,
      Option.getD_none]
    split <;> rfl

/-! ## File and buffer together -/

/-- The log manager is at rest, and the file followed by the log buffer holds
`bs`. -/
def LogState (s : Store) (bs : List UInt8) : Prop :=
  s.log.Ok ∧ ∃ written, LogHolds s.disk.logIo written ∧ written ++ s.log.pending = bs

/-- The calls on the runs keep it. -/
theorem StoreFrame.logState {s s' : Store} (hf : StoreFrame s s') (h : ∃ bs, LogState s bs) :
    ∃ bs, LogState s' bs := by
  obtain ⟨bs, hok, written, hfile, hbytes⟩ := h
  refine ⟨bs, by rw [hf.log]; exact hok, written, by rw [hf.logIo]; exact hfile, ?_⟩
  rw [hf.log]
  exact hbytes

section Calls

variable {s : Store} {bs : List UInt8}

/-- `AppendLogRecord` adds one record. -/
theorem appendLogRecord_state (h : LogState s bs) (key : Key) (val : Val) :
    ∃ s', run Store.handle (appendLogRecord key val) s = .ok ((), s') ∧
      LogState s' (bs ++ recordBytes (key, val)) ∧ RunFrame s s' := by
  obtain ⟨hok, written, hfile, rfl⟩ := h
  obtain ⟨lm, flushed, happend, hok', hbytes⟩ :=
    LogManager.appendLogRecord_spec hok s.disk key val
  refine ⟨{ s with log := lm, disk := s.disk.writeLog flushed flushed.length false }, ?_,
    ⟨hok', written ++ flushed, hfile.writeLog flushed, ?_⟩, ⟨rfl, by simp, by simp⟩⟩
  · refine (run_op ..).trans ?_
    rw [Store.handle, happend]
    rfl
  · rw [List.append_assoc, hbytes, List.append_assoc]

/-- `FlushWAL` brings everything to the file. -/
theorem flushWAL_state (h : LogState s bs) :
    ∃ s', run Store.handle flushWAL s = .ok ((), s') ∧ LogState s' bs ∧
      LogHolds s'.disk.logIo bs ∧ RunFrame s s' := by
  obtain ⟨hok, written, hfile, rfl⟩ := h
  obtain ⟨lm, hflush, hok', hz⟩ := LogManager.flush_spec hok s.disk
  have hholds := hfile.writeLog s.log.pending
  refine ⟨{ s with log := lm, disk := s.disk.writeLog s.log.pending s.log.pending.length false },
    ?_, ⟨hok', _, hholds, ?_⟩, hholds, ⟨rfl, by simp, by simp⟩⟩
  · refine (run_op ..).trans ?_
    rw [Store.handle, hflush]
    rfl
  · simp only [LogManager.pending_of_size_zero hz, List.append_nil]

/-- Clearing the log file; what is still buffered stays. -/
theorem clearLog_state (h : LogState s bs) :
    ∃ s', run Store.handle clearLog s = .ok ((), s') ∧ LogState s' s.log.pending ∧
      RunFrame s s' := by
  obtain ⟨hok, written, hfile, rfl⟩ := h
  exact ⟨_, (run_op ..).trans rfl, ⟨hok, [], hfile.clear, rfl⟩, ⟨rfl, by simp, by simp⟩⟩

/-- `StopFlushThread` passes its checks. -/
theorem stopFlushThread_state (h : LogState s bs) :
    ∃ s', run Store.handle stopFlushThread s = .ok ((), s') ∧ LogState s' bs ∧
      RunFrame s s' := by
  obtain ⟨hok, written, hfile, rfl⟩ := h
  obtain ⟨lm, hstop, hok', hz⟩ := LogManager.stopFlushThread_spec hok s.disk
  refine ⟨{ s with log := lm, disk := s.disk.writeLog s.log.pending s.log.pending.length false },
    ?_, ⟨hok', _, hfile.writeLog s.log.pending, ?_⟩, ⟨rfl, by simp, by simp⟩⟩
  · refine (run_op ..).trans ?_
    rw [Store.handle, hstop]
    rfl
  · simp only [LogManager.pending_of_size_zero hz, List.append_nil]

end Calls

/-! ## A sequence of records -/

/-- Append records in order, then flush. -/
def logRecords : List MappingType → Prog StoreSig Unit
  | [] => flushWAL
  | r :: rs => do
    appendLogRecord r.1 r.2
    logRecords rs

/-- **The log file holds the records in order.** -/
theorem logRecords_state (recs : List MappingType) {s : Store} {bs : List UInt8}
    (h : LogState s bs) :
    ∃ s', run Store.handle (logRecords recs) s = .ok ((), s') ∧
      LogHolds s'.disk.logIo (bs ++ memtableToString recs) ∧ RunFrame s s' := by
  induction recs generalizing s bs with
  | nil =>
    obtain ⟨s', hrun, -, hholds, hframe⟩ := flushWAL_state h
    refine ⟨s', hrun, ?_, hframe⟩
    rwa [memtableToString_nil, List.append_nil]
  | cons r rs ih =>
    obtain ⟨s₁, hrun₁, hstate₁, hframe₁⟩ := appendLogRecord_state h r.1 r.2
    obtain ⟨s', hrun, hholds, hframe⟩ := ih hstate₁
    refine ⟨s', (run_bind_of_ok hrun₁).trans hrun, ?_, hframe₁.trans hframe⟩
    rwa [memtableToString_cons, ← List.append_assoc]

end GhostDB
