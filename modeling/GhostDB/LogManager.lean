import GhostDB.DiskManager

/-!
# The write-ahead log buffer

`log_manager.h` and `log_manager.cc`.  The log manager keeps two buffers of
`LOG_BUFFER_SIZE` bytes, one being appended to and one being written to disk,
and a flush thread that swaps them.  Every section of the source that holds
`latch_` is one function here: `raiseFlush`, `flushSection` (one iteration of
`RunFlushThread` after its wait) and `appendRecord` (the tail of
`AppendLogRecord` after its wait).  The interleavings of these sections are the
subject of `GhostDB.LogConcurrency`; here `appendLogRecord` and `flush` are the
calls a single client makes, with the flush thread answering.
-/

namespace GhostDB

open Bytes

/-- `class LogManager`, less its latch and condition variables. -/
structure LogManager where
  /-- `request_flush_`. -/
  requestFlush : Bool
  /-- `log_buffer_size_`. -/
  logBufferSize : Nat
  /-- `flush_buffer_size_`. -/
  flushBufferSize : Nat
  /-- `log_buffer_`: records are appended here. -/
  logBuffer : List UInt8
  /-- `flush_buffer_`: written to disk by the flush thread. -/
  flushBuffer : List UInt8
  deriving DecidableEq

namespace LogManager

/-- `LogManager()`; the buffers' initial contents are never read. -/
def init : LogManager where
  requestFlush := false
  logBufferSize := 0
  flushBufferSize := 0
  logBuffer := List.replicate GhostDB.logBufferSize 0
  flushBuffer := List.replicate GhostDB.logBufferSize 0

/-- The test of `AppendLogRecord`: the buffer cannot take one more record. -/
def Full (lm : LogManager) : Prop := lm.logBufferSize + recordSize ≥ GhostDB.logBufferSize

instance (lm : LogManager) : Decidable lm.Full := by unfold Full; infer_instance

/-- `request_flush_ = true`. -/
def raiseFlush (lm : LogManager) : LogManager := { lm with requestFlush := true }

/-- One iteration of `RunFlushThread` from the end of its wait to the release of
the latch: swap the buffers if there is something to write, write it, and answer
the request. -/
def flushSection (lm : LogManager) (d : DiskManager) : Except Fault (LogManager × DiskManager) :=
  if lm.flushBufferSize ≠ 0 then .error .assertFailed
  else if lm.logBufferSize > 0 then
    let swapped : LogManager :=
      { lm with
        logBufferSize := lm.flushBufferSize
        flushBufferSize := lm.logBufferSize
        logBuffer := lm.flushBuffer
        flushBuffer := lm.logBuffer }
    let d := d.writeLog swapped.flushBuffer swapped.flushBufferSize false
    .ok ({ swapped with flushBufferSize := 0, requestFlush := false }, d)
  else .ok ({ lm with requestFlush := false }, d)

/-- The tail of `AppendLogRecord`: copy the key and the value behind what is
buffered. -/
def appendRecord (lm : LogManager) (key : Key) (val : Val) : LogManager :=
  let lm : LogManager :=
    { lm with
      logBuffer := memmove lm.logBuffer lm.logBufferSize (int32Bytes key)
      logBufferSize := lm.logBufferSize + 4 }
  { lm with
    logBuffer := memmove lm.logBuffer lm.logBufferSize (int32Bytes val)
    logBufferSize := lm.logBufferSize + 4 }

/-- `AppendLogRecord` of a single client: when the buffer is full it asks for a
flush and waits for the flush thread to make room. -/
def appendLogRecord (lm : LogManager) (d : DiskManager) (key : Key) (val : Val) :
    Except Fault (LogManager × DiskManager) :=
  if lm.Full then do
    let (lm, d) ← lm.raiseFlush.flushSection d
    return (lm.appendRecord key val, d)
  else .ok (lm.appendRecord key val, d)

/-- `Flush` of a single client: request, wait for the flush thread. -/
def flush (lm : LogManager) (d : DiskManager) : Except Fault (LogManager × DiskManager) :=
  lm.raiseFlush.flushSection d

/-- `StopFlushThread`: a last flush, then both buffers must be empty. -/
def stopFlushThread (lm : LogManager) (d : DiskManager) :
    Except Fault (LogManager × DiskManager) := do
  let (lm, d) ← lm.flush d
  if lm.logBufferSize ≠ 0 then throw .assertFailed
  if lm.flushBufferSize ≠ 0 then throw .assertFailed
  return (lm, d)

/-- The bytes appended and not yet written: `log_buffer_[0, log_buffer_size_)`. -/
def pending (lm : LogManager) : List UInt8 := lm.logBuffer.take lm.logBufferSize

/-- What holds of the log manager whenever its latch is free. -/
structure Ok (lm : LogManager) : Prop where
  /-- The flush buffer is drained. -/
  flushed : lm.flushBufferSize = 0
  /-- The buffered bytes are whole records. -/
  whole : recordSize ∣ lm.logBufferSize
  /-- They leave room in the buffer. -/
  room : lm.logBufferSize < GhostDB.logBufferSize
  /-- The buffers keep their size. -/
  logLength : lm.logBuffer.length = GhostDB.logBufferSize
  /-- The buffers keep their size. -/
  flushLength : lm.flushBuffer.length = GhostDB.logBufferSize

theorem ok_init : init.Ok := ⟨rfl, by decide, by decide, by decide, by decide⟩

@[simp] theorem pending_init : init.pending = [] := rfl

theorem Ok.raiseFlush {lm : LogManager} (h : lm.Ok) : lm.raiseFlush.Ok :=
  ⟨h.flushed, h.whole, h.room, h.logLength, h.flushLength⟩

@[simp] theorem pending_raiseFlush (lm : LogManager) : lm.raiseFlush.pending = lm.pending := rfl

theorem Ok.length_pending {lm : LogManager} (h : lm.Ok) :
    lm.pending.length = lm.logBufferSize := by
  have hroom := h.room
  rw [pending, List.length_take, h.logLength]
  omega

/-- A buffer that is not full takes one more record. -/
theorem room_of_not_full {lm : LogManager} (hf : ¬ lm.Full) :
    lm.logBufferSize + recordSize < GhostDB.logBufferSize := not_le.1 hf

/-- **One flush section** empties the buffer and hands its bytes to the log
file. -/
theorem flushSection_spec {lm : LogManager} (h : lm.Ok) (d : DiskManager) :
    ∃ lm', lm.flushSection d = .ok (lm', d.writeLog lm.pending lm.pending.length false) ∧
      lm'.Ok ∧ lm'.logBufferSize = 0 ∧ lm'.requestFlush = false := by
  have hroom := h.room
  unfold flushSection
  rw [if_neg (by simp [h.flushed]), h.length_pending]
  by_cases hpos : lm.logBufferSize > 0
  · rw [if_pos hpos]
    have htake : (lm.logBuffer.take lm.logBufferSize).take lm.logBufferSize =
        lm.logBuffer.take lm.logBufferSize := by simp
    refine ⟨{ lm with
      logBufferSize := lm.flushBufferSize
      flushBufferSize := 0
      requestFlush := false
      logBuffer := lm.flushBuffer
      flushBuffer := lm.logBuffer }, ?_, ?_, h.flushed, rfl⟩
    · simp only [DiskManager.writeLog, pending, htake]
    · exact ⟨rfl, by simp [h.flushed], by simp [h.flushed, GhostDB.logBufferSize], h.flushLength,
        h.logLength⟩
  · rw [if_neg hpos]
    have hz : lm.logBufferSize = 0 := by omega
    refine ⟨{ lm with requestFlush := false }, ?_,
      ⟨h.flushed, h.whole, h.room, h.logLength, h.flushLength⟩, hz, rfl⟩
    simp [DiskManager.writeLog, hz]

theorem pending_of_size_zero {lm : LogManager} (h : lm.logBufferSize = 0) : lm.pending = [] := by
  simp [pending, h]

/-- **Appending one record** into a buffer with room adds its bytes behind what
is pending and stays inside the buffer. -/
theorem appendRecord_spec {lm : LogManager} (h : lm.Ok) (hf : ¬ lm.Full) (key : Key) (val : Val) :
    (lm.appendRecord key val).Ok ∧
      (lm.appendRecord key val).pending = lm.pending ++ recordBytes (key, val) ∧
      (lm.appendRecord key val).logBufferSize = lm.logBufferSize + recordSize ∧
      (lm.appendRecord key val).requestFlush = lm.requestFlush := by
  have hroom := room_of_not_full hf
  have hlen := h.logLength
  simp only [recordSize, GhostDB.logBufferSize] at hroom hlen
  have hlen1 : (memmove lm.logBuffer lm.logBufferSize (int32Bytes key)).length = 24 := by
    rw [length_memmove (by simp; omega), hlen]
  have hlen2 : (memmove (memmove lm.logBuffer lm.logBufferSize (int32Bytes key))
      (lm.logBufferSize + 4) (int32Bytes val)).length = 24 := by
    rw [length_memmove (by simp; omega), hlen1]
  refine ⟨⟨h.flushed, ?_, ?_, hlen2, h.flushLength⟩, ?_, ?_, rfl⟩
  · have hdvd := h.whole
    simp only [appendRecord, recordSize] at hdvd ⊢
    omega
  · simp only [appendRecord, GhostDB.logBufferSize]
    omega
  · simp only [appendRecord, pending, recordBytes]
    rw [take_memmove (by omega) (by simp), take_memmove (by omega) (by simp), List.append_assoc]
  · simp only [appendRecord, recordSize]

/-- After a flush section there is room for a record. -/
theorem not_full_of_size_zero {lm : LogManager} (h : lm.logBufferSize = 0) : ¬ lm.Full := by
  simp [Full, h, recordSize, GhostDB.logBufferSize]

/-- `Flush` empties the buffer into the log file. -/
theorem flush_spec {lm : LogManager} (h : lm.Ok) (d : DiskManager) :
    ∃ lm', lm.flush d = .ok (lm', d.writeLog lm.pending lm.pending.length false) ∧
      lm'.Ok ∧ lm'.logBufferSize = 0 := by
  obtain ⟨lm', heq, hok, hz, _⟩ := flushSection_spec h.raiseFlush d
  exact ⟨lm', heq, hok, hz⟩

/-- `AppendLogRecord` keeps every byte in order: what reaches the file and what
stays pending is what was pending before followed by the new record. -/
theorem appendLogRecord_spec {lm : LogManager} (h : lm.Ok) (d : DiskManager) (key : Key)
    (val : Val) :
    ∃ lm' written, lm.appendLogRecord d key val =
        .ok (lm', d.writeLog written written.length false) ∧ lm'.Ok ∧
      written ++ lm'.pending = lm.pending ++ recordBytes (key, val) := by
  unfold appendLogRecord
  by_cases hf : lm.Full
  · obtain ⟨lm', heq, hok, hz, _⟩ := flushSection_spec h.raiseFlush d
    have hspec := appendRecord_spec hok (not_full_of_size_zero hz) key val
    refine ⟨lm'.appendRecord key val, lm.pending, ?_, hspec.1, ?_⟩
    · rw [if_pos hf, heq]; rfl
    · rw [hspec.2.1, pending_of_size_zero hz, List.nil_append]
  · have hspec := appendRecord_spec h hf key val
    refine ⟨lm.appendRecord key val, [], ?_, hspec.1, hspec.2.1⟩
    rw [if_neg hf]
    simp [DiskManager.writeLog]

/-- After a last flush nothing is buffered, so the checks of `StopFlushThread`
pass. -/
theorem stopFlushThread_spec {lm : LogManager} (h : lm.Ok) (d : DiskManager) :
    ∃ lm', lm.stopFlushThread d = .ok (lm', d.writeLog lm.pending lm.pending.length false) ∧
      lm'.Ok ∧ lm'.logBufferSize = 0 := by
  obtain ⟨lm', heq, hok, hz⟩ := flush_spec h d
  refine ⟨lm', ?_, hok, hz⟩
  rw [stopFlushThread, heq]
  simp [bind, Except.bind, hz, hok.flushed, pure, Except.pure]

end LogManager

end GhostDB
