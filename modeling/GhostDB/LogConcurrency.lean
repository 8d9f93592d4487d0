import GhostDB.LogManager
import GhostDB.Library.Schedule

/-!
# The log manager and its threads

Any number of clients call `AppendLogRecord` and `Flush` while the flush thread
runs its loop.  Every section that holds `latch_` is one action; a wait on a
condition variable ends one action, and the end of the wait is another, which
may come at any time: after a notification, after a timeout, or for no reason.
The test of the thread's loop is left out: `enable_logging_` is true until the
destructor.

* `LogSystem.step` — the actions; `step_turn` — what they can do.
* `LogSystem.Inv` — what holds whenever the latch is free.
* `records_kept_in_order` — no record is lost or moved, and a `Flush` returns
  only when every record appended before it is in the file.
-/

namespace GhostDB

/-- Where a client is. -/
inductive LogClient
  /-- Outside the log manager. -/
  | idle
  /-- In the wait of `AppendLogRecord(key, val)`. -/
  | waitRoom (key : Key) (val : Val)
  /-- In the wait of `Flush`.  The number is not part of the program: it counts
  the records appended before the call. -/
  | waitFlush (before : Nat)
  deriving DecidableEq

/-- Where the flush thread is. -/
inductive FlushThread
  /-- Before an iteration of its loop. -/
  | loop
  /-- In `wait_for`. -/
  | waiting
  deriving DecidableEq

/-- The log manager, its files and its threads. -/
structure LogSystem (ι : Type) where
  /-- The buffers and the request flag. -/
  log : LogManager
  /-- The files. -/
  disk : DiskManager
  /-- The flush thread. -/
  thread : FlushThread
  /-- The clients. -/
  clients : ι → LogClient
  /-- The records appended so far, in order; not part of the program. -/
  appended : List MappingType

/-- What happens next. -/
inductive LogAction (ι : Type)
  /-- A client calls `AppendLogRecord(key, val)`. -/
  | append (i : ι) (key : Key) (val : Val)
  /-- A client calls `Flush`. -/
  | flush (i : ι)
  /-- A client's wait is interrupted. -/
  | wake (i : ι)
  /-- The flush thread goes on; its wait is over if it timed out. -/
  | flushThread (timeout : Bool)

namespace LogSystem

variable {ι : Type} [DecidableEq ι]

/-- A log manager over a new `DiskManager`. -/
def start (files : Files) : LogSystem ι where
  log := LogManager.init
  disk := DiskManager.init files
  thread := .loop
  clients := fun _ => .idle
  appended := []

/-- The end of `AppendLogRecord`. -/
def append (s : LogSystem ι) (i : ι) (key : Key) (val : Val) : LogSystem ι :=
  { s with
    log := s.log.appendRecord key val
    clients := Function.update s.clients i .idle
    appended := s.appended ++ [(key, val)] }

/-- The end of an iteration of the flush thread. -/
def flushSection (s : LogSystem ι) : Except Fault (LogSystem ι) := do
  let (log, disk) ← s.log.flushSection s.disk
  return { s with log := log, disk := disk, thread := .loop }

/-- One action.  A client that is elsewhere cannot take it. -/
def step : LogAction ι → LogSystem ι → Except Fault (LogSystem ι)
  | .append i key val, s =>
    match s.clients i with
    | .idle =>
      if s.log.Full then
        .ok { s with
          log := s.log.raiseFlush
          clients := Function.update s.clients i (.waitRoom key val) }
      else .ok (s.append i key val)
    | _ => .ok s
  | .flush i, s =>
    match s.clients i with
    | .idle =>
      .ok { s with
        log := s.log.raiseFlush
        clients := Function.update s.clients i (.waitFlush s.appended.length) }
    | _ => .ok s
  | .wake i, s =>
    match s.clients i with
    | .idle => .ok s
    | .waitRoom key val => if s.log.Full then .ok s else .ok (s.append i key val)
    | .waitFlush _ =>
      if s.log.requestFlush then .ok s
      else .ok { s with clients := Function.update s.clients i .idle }
  | .flushThread timeout, s =>
    match s.thread with
    | .loop => if s.log.requestFlush then s.flushSection else .ok { s with thread := .waiting }
    | .waiting => if s.log.requestFlush ∨ timeout then s.flushSection else .ok s

/-! ## What an action can do -/

/-- The effects of the actions, with what each of them relies on. -/
inductive Turn (s : LogSystem ι) : LogSystem ι → Prop
  /-- Nothing. -/
  | stay : Turn s s
  /-- `AppendLogRecord` finds the buffer full. -/
  | waitRoom (i : ι) (key : Key) (val : Val) : Turn s { s with
      log := s.log.raiseFlush
      clients := Function.update s.clients i (.waitRoom key val) }
  /-- `AppendLogRecord` has room. -/
  | append (i : ι) (key : Key) (val : Val) (room : ¬ s.log.Full) : Turn s (s.append i key val)
  /-- `Flush` raises its request. -/
  | waitFlush (i : ι) : Turn s { s with
      log := s.log.raiseFlush
      clients := Function.update s.clients i (.waitFlush s.appended.length) }
  /-- `Flush` returns. -/
  | flushed (i : ι) (before : Nat) (waits : s.clients i = .waitFlush before)
      (answered : s.log.requestFlush = false) :
      Turn s { s with clients := Function.update s.clients i .idle }
  /-- The flush thread goes to wait. -/
  | threadWaits : Turn s { s with thread := .waiting }
  /-- The flush thread runs an iteration. -/
  | flushThread (s' : LogSystem ι) (ok : s.flushSection = .ok s') : Turn s s'

/-- **Inversion of `step`**: an action has one of these effects, and it fails
only where an iteration of the flush thread does. -/
theorem step_turn {s : LogSystem ι} (hsection : ∃ s', s.flushSection = .ok s')
    (a : LogAction ι) : ∃ s', step a s = .ok s' ∧ Turn s s' := by
  obtain ⟨t, ht⟩ := hsection
  cases a with
  | append i key val =>
    cases hc : s.clients i with
    | idle =>
      by_cases hf : s.log.Full
      · exact ⟨_, by simp only [step, hc, if_pos hf], .waitRoom i key val⟩
      · exact ⟨_, by simp only [step, hc, if_neg hf], .append i key val hf⟩
    | waitRoom _ _ => exact ⟨s, by simp only [step, hc], .stay⟩
    | waitFlush _ => exact ⟨s, by simp only [step, hc], .stay⟩
  | flush i =>
    cases hc : s.clients i with
    | idle => exact ⟨_, by simp only [step, hc], .waitFlush i⟩
    | waitRoom _ _ => exact ⟨s, by simp only [step, hc], .stay⟩
    | waitFlush _ => exact ⟨s, by simp only [step, hc], .stay⟩
  | wake i =>
    cases hc : s.clients i with
    | idle => exact ⟨s, by simp only [step, hc], .stay⟩
    | waitRoom key val =>
      by_cases hf : s.log.Full
      · exact ⟨s, by simp only [step, hc, if_pos hf], .stay⟩
      · exact ⟨_, by simp only [step, hc, if_neg hf], .append i key val hf⟩
    | waitFlush before =>
      by_cases hr : s.log.requestFlush = true
      · exact ⟨s, by simp only [step, hc, if_pos hr], .stay⟩
      · exact ⟨_, by simp only [step, hc, if_neg hr],
          .flushed i before hc (Bool.eq_false_iff.2 hr)⟩
  | flushThread timeout =>
    cases hthread : s.thread with
    | loop =>
      by_cases hr : s.log.requestFlush = true
      · exact ⟨t, by simp only [step, hthread, if_pos hr, ht], .flushThread t ht⟩
      · exact ⟨_, by simp only [step, hthread, if_neg hr], .threadWaits⟩
    | waiting =>
      by_cases hr : s.log.requestFlush = true ∨ timeout = true
      · exact ⟨t, by simp only [step, hthread, if_pos hr, ht], .flushThread t ht⟩
      · exact ⟨s, by simp only [step, hthread, if_neg hr], .stay⟩

/-! ## What holds whenever the latch is free -/

/-- **The invariant.** -/
structure Inv (s : LogSystem ι) : Prop where
  /-- The buffers are at rest. -/
  ok : s.log.Ok
  /-- The stream of `memtable.log` works. -/
  good : s.disk.logIo.fail = false
  /-- It stands at the end of the file. -/
  pos : s.disk.logIo.pos = s.disk.logIo.bytes.length
  /-- File and buffer hold the records appended, in order. -/
  bytes : s.disk.logIo.bytes ++ s.log.pending = memtableToString s.appended
  /-- Whoever waits for a flush has its records in the file, or its request is
  still up. -/
  served : ∀ i before, s.clients i = .waitFlush before → before ≤ s.appended.length ∧
    (s.log.requestFlush = true ∨ recordSize * before ≤ s.disk.logIo.bytes.length)

omit [DecidableEq ι] in
theorem inv_start (files : Files) : (start files : LogSystem ι).Inv where
  ok := LogManager.ok_init
  good := rfl
  pos := rfl
  bytes := rfl
  served := by
    intro i before h
    cases h

/-- Writing at the end of the file appends to it. -/
theorem writeLog_at_end {d : DiskManager} (hgood : d.logIo.fail = false)
    (hpos : d.logIo.pos = d.logIo.bytes.length) (data : List UInt8) :
    (d.writeLog data data.length false).logIo =
      ⟨d.logIo.bytes ++ data, d.logIo.bytes.length + data.length, false⟩ := by
  unfold DiskManager.writeLog
  split
  next hz =>
    rw [List.length_eq_zero_iff.1 hz, List.append_nil, List.length_nil, Nat.add_zero, ← hpos,
      ← hgood]
  next =>
    simp only [Bool.false_eq_true, if_false, List.take_length, FileStream.write, hgood, hpos,
      Bytes.overwrite_end]

omit [DecidableEq ι] in
/-- **One iteration of the flush thread** succeeds, writes what is pending
behind the file, and leaves the clients and the history alone. -/
theorem Inv.flushSection_spec {s : LogSystem ι} (h : s.Inv) :
    ∃ s', s.flushSection = .ok s' ∧ s'.log.Ok ∧ s'.log.pending = [] ∧
      s'.disk.logIo = ⟨memtableToString s.appended, (memtableToString s.appended).length, false⟩ ∧
      s'.clients = s.clients ∧ s'.appended = s.appended := by
  obtain ⟨log, hflush, hok, hsize, -⟩ := LogManager.flushSection_spec h.ok s.disk
  have hwrite := writeLog_at_end h.good h.pos s.log.pending
  rw [← List.length_append, h.bytes] at hwrite
  refine ⟨{ s with
    log := log
    disk := s.disk.writeLog s.log.pending s.log.pending.length false
    thread := .loop }, ?_, hok, LogManager.pending_of_size_zero hsize, hwrite, rfl, rfl⟩
  rw [flushSection, hflush]
  rfl

/-- One client goes elsewhere, the others stay. -/
theorem clients_update {s : LogSystem ι} {i j : ι} {c : LogClient} {before : Nat}
    (h : Function.update s.clients i c j = .waitFlush before) :
    c = .waitFlush before ∨ s.clients j = .waitFlush before := by
  by_cases hj : j = i
  · subst hj
    rw [Function.update_self] at h
    exact .inl h
  · rw [Function.update_of_ne hj] at h
    exact .inr h

/-- Appending a record where there is room. -/
theorem Inv.append {s : LogSystem ι} (h : s.Inv) (hf : ¬ s.log.Full) (i : ι) (key : Key)
    (val : Val) : (s.append i key val).Inv := by
  obtain ⟨hok, hpending, -, hrequest⟩ := LogManager.appendRecord_spec h.ok hf key val
  refine ⟨hok, h.good, h.pos, ?_, ?_⟩
  · have hrecord : memtableToString [(key, val)] = recordBytes (key, val) := by
      rw [memtableToString_cons, memtableToString_nil, List.append_nil]
    calc s.disk.logIo.bytes ++ (s.log.appendRecord key val).pending
        = (s.disk.logIo.bytes ++ s.log.pending) ++ recordBytes (key, val) := by
          rw [hpending, List.append_assoc]
      _ = memtableToString (s.appended ++ [(key, val)]) := by
          rw [h.bytes, memtableToString_append, hrecord]
  · intro j before hj
    rcases clients_update hj with hc | hj
    · cases hc
    · obtain ⟨hle, hserved⟩ := h.served j before hj
      refine ⟨?_, ?_⟩
      · show before ≤ (s.appended ++ [(key, val)]).length
        rw [List.length_append]
        omega
      · show (s.log.appendRecord key val).requestFlush = true ∨ _
        rw [hrequest]
        exact hserved

/-- **Every effect keeps the invariant.** -/
theorem Inv.turn {s s' : LogSystem ι} (h : s.Inv) (ht : Turn s s') : s'.Inv := by
  cases ht with
  | stay => exact h
  | waitRoom i key val =>
    refine ⟨h.ok.raiseFlush, h.good, h.pos, h.bytes, ?_⟩
    intro j before hj
    rcases clients_update hj with hc | hj
    · cases hc
    · exact ⟨(h.served j before hj).1, .inl rfl⟩
  | append i key val room => exact h.append room i key val
  | waitFlush i =>
    refine ⟨h.ok.raiseFlush, h.good, h.pos, h.bytes, ?_⟩
    intro j before hj
    rcases clients_update hj with hc | hj
    · cases hc
      exact ⟨le_rfl, .inl rfl⟩
    · exact ⟨(h.served j before hj).1, .inl rfl⟩
  | flushed i before waits answered =>
    refine ⟨h.ok, h.good, h.pos, h.bytes, ?_⟩
    intro j before hj
    rcases clients_update hj with hc | hj
    · cases hc
    · exact h.served j before hj
  | threadWaits => exact ⟨h.ok, h.good, h.pos, h.bytes, h.served⟩
  | flushThread s' ok =>
    obtain ⟨t, hsection, hok, hpending, hfile, hclients, happended⟩ := h.flushSection_spec
    obtain rfl : s' = t := Except.ok.inj (ok.symm.trans hsection)
    refine ⟨hok, by rw [hfile], by rw [hfile], ?_, ?_⟩
    · rw [hfile, hpending, List.append_nil, happended]
    · intro j before hj
      rw [hclients] at hj
      rw [hfile, happended, length_memtableToString]
      have hle := (h.served j before hj).1
      exact ⟨hle, .inr (Nat.mul_le_mul_left _ hle)⟩

/-- **Every action succeeds and keeps the invariant.** -/
theorem Inv.step {s : LogSystem ι} (h : s.Inv) (a : LogAction ι) :
    ∃ s', LogSystem.step a s = .ok s' ∧ Turn s s' ∧ s'.Inv := by
  obtain ⟨t, hsection, -⟩ := h.flushSection_spec
  obtain ⟨s', hok, hturn⟩ := step_turn ⟨t, hsection⟩ a
  exact ⟨s', hok, hturn, h.turn hturn⟩

/-! ## Every interleaving -/

omit [DecidableEq ι] in
/-- The file holds every record that fits into its length. -/
theorem Inv.take_prefix {s : LogSystem ι} (h : s.Inv) {before : Nat}
    (hlen : recordSize * before ≤ s.disk.logIo.bytes.length) :
    memtableToString (s.appended.take before) <+: s.disk.logIo.bytes := by
  have hall : memtableToString (s.appended.take before) <+: memtableToString s.appended := by
    conv_rhs => rw [← List.take_append_drop before s.appended, memtableToString_append]
    exact List.prefix_append ..
  refine List.prefix_of_prefix_length_le hall ?_ ?_
  · rw [← h.bytes]
    exact List.prefix_append ..
  · refine le_trans ?_ hlen
    rw [length_memtableToString, List.length_take]
    exact Nat.mul_le_mul_left _ (min_le_left ..)

/-- A record is appended only where there is room for it. -/
theorem Inv.room {s s' : LogSystem ι} (h : s.Inv) {a : LogAction ι}
    (hstep : LogSystem.step a s = .ok s') (hmore : s.appended.length < s'.appended.length) :
    s.log.logBufferSize + recordSize < GhostDB.logBufferSize := by
  obtain ⟨t, hok, hturn, -⟩ := h.step a
  obtain rfl : s' = t := Except.ok.inj (hstep.symm.trans hok)
  cases hturn with
  | append i key val room => exact LogManager.room_of_not_full room
  | flushThread _ ok =>
    obtain ⟨u, hsection, -, -, -, -, happended⟩ := h.flushSection_spec
    obtain rfl : s' = u := Except.ok.inj (ok.symm.trans hsection)
    rw [happended] at hmore
    exact absurd hmore (lt_irrefl _)
  | _ => exact absurd hmore (lt_irrefl _)

/-- A `Flush` that returns has its records in the file. -/
theorem Inv.flush_returns {s s' : LogSystem ι} (h : s.Inv) {i : ι} {before : Nat}
    (hwaits : s.clients i = .waitFlush before) (hstep : LogSystem.step (.wake i) s = .ok s')
    (hidle : s'.clients i = .idle) :
    memtableToString (s'.appended.take before) <+: s'.disk.logIo.bytes := by
  simp only [LogSystem.step, hwaits] at hstep
  by_cases hr : s.log.requestFlush = true
  · rw [if_pos hr] at hstep
    cases hstep
    rw [hwaits] at hidle
    cases hidle
  · rw [if_neg hr] at hstep
    cases hstep
    exact h.take_prefix ((h.served i before hwaits).2.resolve_left hr)

/-- **No lost or reordered log record.**  Whatever the clients and the flush
thread do in whatever order, no assertion fails, and whenever the latch is free:
file and buffer hold the records appended, in order; the flush buffer is
drained; the log buffer holds whole records, with room left, and takes another
one only within its bounds; and a `Flush` that returns has every record appended
before it in the file. -/
theorem records_kept_in_order (files : Files) (schedule : List (LogAction ι)) :
    ∃ s, Schedule.run step schedule (start files) = .ok s ∧
      s.disk.logIo.bytes ++ s.log.pending = memtableToString s.appended ∧
      s.log.flushBufferSize = 0 ∧
      recordSize ∣ s.log.logBufferSize ∧ s.log.logBufferSize < GhostDB.logBufferSize ∧
      (∀ a s', step a s = .ok s' → s.appended.length < s'.appended.length →
        s.log.logBufferSize + recordSize < GhostDB.logBufferSize) ∧
      ∀ i before s', s.clients i = .waitFlush before → step (.wake i) s = .ok s' →
        s'.clients i = .idle →
        memtableToString (s'.appended.take before) <+: s'.disk.logIo.bytes := by
  have hstep : ∀ a (s : LogSystem ι), s.Inv → ∃ s', step a s = .ok s' ∧ s'.Inv := by
    intro a s h
    obtain ⟨s', hok, -, hinv⟩ := h.step a
    exact ⟨s', hok, hinv⟩
  obtain ⟨s, hrun, hinv⟩ := Schedule.run_total hstep schedule (inv_start files)
  exact ⟨s, hrun, hinv.bytes, hinv.ok.flushed, hinv.ok.whole, hinv.ok.room,
    fun a s' => hinv.room, fun i before s' => hinv.flush_returns⟩

end LogSystem

end GhostDB
