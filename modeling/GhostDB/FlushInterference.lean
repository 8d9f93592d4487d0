import GhostDB.Preservation
import GhostDB.Restart
import GhostDB.Library.Interference

/-!
# The flush thread at any time

`RunFlushThread` wakes up on its own, every `LOG_TIMEOUT` if nothing else, so an
iteration of its loop may come between any two calls a client makes.  It touches
nothing but the log.

* `World.flushThread` — one iteration.
* `Interleaved` — a client's program and the flush thread, taking turns.
* `Interleaved.simulates` — the thread never shows: every execution is one
  without it, up to the log.
* `Interleaved.logState` — and it keeps the log at rest.
-/

namespace GhostDB

open Prog SortedTable

/-! ## Calls on the log -/

/-- Is it a call on the log? -/
def StoreOp.isLog : StoreOp → Bool
  | .appendLogRecord _ _ => true
  | .flushWAL => true
  | .clearLog => true
  | .stopFlushThread => true
  | _ => false

/-- Is it a call on the log? -/
def ClientSig.isLog : ClientSig.Op → Bool
  | .inl o => StoreOp.isLog o
  | .inr _ => false

/-- The store with another log. -/
def Store.withLog (s : Store) (log : LogManager) (logIo : FileStream) : Store :=
  { s with log := log, disk := { s.disk with logIo := logIo } }

namespace Store

@[simp] theorem withLog_log (s : Store) (log : LogManager) (logIo : FileStream) :
    (s.withLog log logIo).log = log := rfl

@[simp] theorem withLog_logIo (s : Store) (log : LogManager) (logIo : FileStream) :
    (s.withLog log logIo).disk.logIo = logIo := rfl

@[simp] theorem withLog_withLog (s : Store) (log log' : LogManager) (logIo logIo' : FileStream) :
    (s.withLog log logIo).withLog log' logIo' = s.withLog log' logIo' := rfl

/-- The store is its own copy with its own log. -/
theorem withLog_self (s : Store) : s.withLog s.log s.disk.logIo = s := rfl

end Store

/-- What the runs hold does not depend on the log. -/
theorem Rep.withLog {s : Store} {slots : Slots} (h : Rep s slots) (log : LogManager)
    (logIo : FileStream) : Rep (s.withLog log logIo) slots :=
  ⟨h.db, h.temp, h.slot⟩

section Disk

variable (d : DiskManager) (logIo : FileStream)

theorem readDb_withLogIo (page : List UInt8) (pageId : Nat) :
    ({ d with logIo := logIo } : DiskManager).readDb page pageId =
      ((d.readDb page pageId).1, { (d.readDb page pageId).2 with logIo := logIo }) := by
  unfold DiskManager.readDb
  dsimp only
  split <;> rfl

theorem writeDb_withLogIo (data : List UInt8) (size pageId : Nat) :
    ({ d with logIo := logIo } : DiskManager).writeDb data size pageId =
      { d.writeDb data size pageId with logIo := logIo } := by
  unfold DiskManager.writeDb
  split <;> rfl

theorem writeDbTemp_withLogIo (data : List UInt8) (size : Nat) :
    ({ d with logIo := logIo } : DiskManager).writeDbTemp data size =
      { d.writeDbTemp data size with logIo := logIo } := by
  unfold DiskManager.writeDbTemp
  split <;> rfl

theorem writeLog_eq (data : List UInt8) (size : Nat) (isDelete : Bool) :
    d.writeLog data size isDelete =
      { d with logIo := (d.writeLog data size isDelete).logIo } := by
  unfold DiskManager.writeLog
  split <;> rfl

end Disk

section WithLog

variable (s : Store) (log : LogManager) (logIo : FileStream)

theorem dumpSSTable_withLog (level run : Nat) (memtable : List MappingType)
    (forTempTable : Bool) :
    Run.dumpSSTable (s.withLog log logIo) level run memtable forTempTable =
      (Run.dumpSSTable s level run memtable forTempTable).map fun s =>
        s.withLog log logIo := by
  unfold Run.dumpSSTable
  cases pageData level run memtable with
  | error e => rfl
  | ok page =>
    cases forTempTable with
    | true =>
      show Except.ok _ = Except.ok _
      rw [Store.setRun, Store.withLog, writeDbTemp_withLogIo]
      rfl
    | false =>
      show Except.ok _ = Except.ok _
      rw [Store.setRun, Store.withLog, writeDb_withLogIo]
      rfl

/-- **Calls that are not on the log** do not depend on it, and leave it alone. -/
theorem handle_withLog {o : StoreOp} (ho : o.isLog = false) :
    Store.handle o (s.withLog log logIo) =
      (Store.handle o s).map fun x => (x.1, x.2.withLog log logIo) := by
  cases o with
  | isEmpty level run => rfl
  | loadSSTable level run =>
    show Level.loadSSTable (s.withLog log logIo) level run = (Level.loadSSTable s level run).map _
    unfold Level.loadSSTable Run.loadSSTable
    have hruns : (s.withLog log logIo).runs = s.runs := rfl
    have hdisk : (s.withLog log logIo).disk = { s.disk with logIo := logIo } := rfl
    rw [hruns, hdisk, readDb_withLogIo]
    generalize s.disk.readDb zeroData (getPageId level run) = loaded
    obtain ⟨data, disk⟩ := loaded
    cases (s.runs level run).isEmpty with
    | true => rfl
    | false =>
      show Except.bind _ _ = Except.map _ (Except.bind _ _)
      cases (SSTablePage.ofData data).parsePageData <;> rfl
  | clearSSTable level run =>
    show (Level.clearSSTable (s.withLog log logIo) level run).map _ =
      ((Level.clearSSTable s level run).map _).map _
    unfold Level.clearSSTable Run.clearSSTable
    have hruns : (s.withLog log logIo).runs = s.runs := rfl
    rw [hruns]
    cases (s.runs level run).isEmpty with
    | true => rfl
    | false =>
      show Except.ok _ = Except.ok _
      rw [Store.setRun, Store.withLog, writeDb_withLogIo]
      rfl
  | dumpBuffer level run memtable =>
    show (Level.dumpBuffer (s.withLog log logIo) level run memtable).map _ =
      ((Level.dumpBuffer s level run memtable).map _).map _
    unfold Level.dumpBuffer
    have hruns : (s.withLog log logIo).runs = s.runs := rfl
    rw [hruns, dumpSSTable_withLog]
    cases (s.runs level run).isEmpty with
    | true => cases Run.dumpSSTable s level run memtable.entries false <;> rfl
    | false => rfl
  | dumpSSTable level run memtable =>
    show (Run.dumpSSTable (s.withLog log logIo) level run memtable false).map _ =
      ((Run.dumpSSTable s level run memtable false).map _).map _
    rw [dumpSSTable_withLog]
    cases Run.dumpSSTable s level run memtable false <;> rfl
  | dumpTempSSTable memtable =>
    show (Run.dumpSSTable (s.withLog log logIo) (maxLevelNum - 1) 0 memtable true).map _ =
      ((Run.dumpSSTable s (maxLevelNum - 1) 0 memtable true).map _).map _
    rw [dumpSSTable_withLog]
    cases Run.dumpSSTable s (maxLevelNum - 1) 0 memtable true <;> rfl
  | clearTempSSTable =>
    show Except.ok _ = Except.ok _
    rw [Store.withLog, writeDbTemp_withLogIo]
    rfl
  | appendLogRecord key val => cases ho
  | flushWAL => cases ho
  | clearLog => cases ho
  | stopFlushThread => cases ho

/-- So do programs that make no other calls. -/
theorem run_withLog {α : Type} {p : Prog StoreSig α} (hp : Pure StoreOp.isLog p) :
    run Store.handle p (s.withLog log logIo) =
      (run Store.handle p s).map fun x => (x.1, x.2.withLog log logIo) := by
  induction p generalizing s with
  | ret a => rfl
  | call o k ih =>
    rw [run_call, run_call, handle_withLog s log logIo hp.1]
    cases Store.handle o s with
    | error e => rfl
    | ok x => exact ih x.1 x.2 (hp.2 x.1)

end WithLog

section LogKept

variable {s s' : Store}

/-- A call that is not on the log leaves it alone. -/
theorem log_of_handle {o : StoreOp} {r : StoreSig.Res o} (ho : o.isLog = false)
    (ok : Store.handle o s = .ok (r, s')) :
    s'.log = s.log ∧ s'.disk.logIo = s.disk.logIo := by
  have hself := handle_withLog s s.log s.disk.logIo ho
  rw [Store.withLog_self, ok] at hself
  have heq : s' = s'.withLog s.log s.disk.logIo := congrArg Prod.snd (Except.ok.inj hself)
  constructor
  · rw [heq]
    rfl
  · rw [heq]
    rfl

theorem log_of_run {α : Type} {p : Prog StoreSig α} {a : α} (hp : Pure StoreOp.isLog p)
    (ok : run Store.handle p s = .ok (a, s')) :
    s'.log = s.log ∧ s'.disk.logIo = s.disk.logIo := by
  have hself := run_withLog s s.log s.disk.logIo hp
  rw [Store.withLog_self, ok] at hself
  have heq : s' = s'.withLog s.log s.disk.logIo := congrArg Prod.snd (Except.ok.inj hself)
  constructor
  · rw [heq]
    rfl
  · rw [heq]
    rfl

end LogKept

theorem pure_forRuns {β : Type} {w : StoreOp → Bool}
    {body : Nat → Nat → β → Prog StoreSig (Bool × β)}
    (hbody : ∀ levelNo runNo b, Pure w (body levelNo runNo b)) (startLevelNo : Nat) (b : β) :
    Pure w (forRuns startLevelNo body b) := by
  apply Pure.forUntil
  intro levelNo b'
  apply Pure.forUntil
  intro runNo b''
  exact hbody levelNo runNo b''

/-- A compaction makes no call on the log. -/
theorem pure_launch (kind : CompactionKind) : Pure StoreOp.isLog (launch kind) := by
  have himpl : ∀ startLevelNo, Pure StoreOp.isLog (launchCompactionImpl startLevelNo) := by
    intro startLevelNo
    refine Pure.bind (pure_forRuns ?_ _ _) ?_
    · intro levelNo runNo memtable
      refine Pure.bind ⟨rfl, fun _ => trivial⟩ ?_
      intro empty
      cases empty with
      | true => trivial
      | false => exact ⟨rfl, fun _ => trivial⟩
    · rintro ⟨go, memtable⟩
      dsimp only
      split
      · trivial
      · refine Pure.bind ⟨rfl, fun _ => trivial⟩ fun _ =>
          Pure.bind (pure_forRuns ?_ _ _) fun _ => ?_
        · intro levelNo runNo u
          refine Pure.bind ⟨rfl, fun _ => trivial⟩ ?_
          intro empty
          cases empty with
          | true => trivial
          | false => exact ⟨rfl, fun _ => trivial⟩
        · exact ⟨rfl, fun _ => ⟨rfl, fun _ => trivial⟩⟩
  rw [launch_eq]
  exact himpl _

/-- **Calls on the log** always succeed, change nothing else and leave it at
rest. -/
theorem handle_log {o : StoreOp} (ho : o.isLog = true) {s : Store} (h : s.log.Ok) :
    ∃ r log logIo, Store.handle o s = .ok (r, s.withLog log logIo) ∧ log.Ok := by
  cases o with
  | appendLogRecord key val =>
    obtain ⟨log, written, happend, hok, -⟩ := LogManager.appendLogRecord_spec h s.disk key val
    refine ⟨(), log, (s.disk.writeLog written written.length false).logIo, ?_, hok⟩
    show (s.log.appendLogRecord s.disk key val).map _ = _
    rw [happend, writeLog_eq]
    rfl
  | flushWAL =>
    obtain ⟨log, hflush, hok, -⟩ := LogManager.flush_spec h s.disk
    refine ⟨(), log, (s.disk.writeLog s.log.pending s.log.pending.length false).logIo, ?_, hok⟩
    show (s.log.flush s.disk).map _ = _
    rw [hflush, writeLog_eq]
    rfl
  | clearLog =>
    refine ⟨(), s.log, (s.disk.writeLog zeroData pageSize true).logIo, ?_, h⟩
    show Except.ok ((), { s with disk := s.disk.writeLog zeroData pageSize true }) = _
    rw [writeLog_eq]
    rfl
  | stopFlushThread =>
    obtain ⟨log, hstop, hok, -⟩ := LogManager.stopFlushThread_spec h s.disk
    refine ⟨(), log, (s.disk.writeLog s.log.pending s.log.pending.length false).logIo, ?_, hok⟩
    show (s.log.stopFlushThread s.disk).map _ = _
    rw [hstop, writeLog_eq]
    rfl
  | _ => cases ho

/-! ## The flush thread -/

/-- The world with another log. -/
def World.withLog (w : World) (log : LogManager) (logIo : FileStream) : World :=
  { w with store := w.store.withLog log logIo }

/-- **One iteration of the flush thread.** -/
def World.flushThread (w w' : World) : Prop :=
  ∃ log disk, w.store.log.flushSection w.store.disk = .ok (log, disk) ∧
    w' = { w with store := { w.store with log := log, disk := disk } }

/-- A client's program and the flush thread, taking turns: the calls the client
made so far, what is left of its program, and the world reached. -/
def Interleaved {α : Type} (p : Prog ClientSig α) (w : World) (ops : List ClientSig.Op)
    (q : Prog ClientSig α) (w' : World) : Prop :=
  Steps World.handle World.flushThread p w ops q w'

/-- An iteration writes what is pending and changes nothing but the log. -/
theorem World.flushThread_eq {w w' : World} (h : w.store.log.Ok) (hflush : w.flushThread w') :
    ∃ log : LogManager, w' = w.withLog log
        (w.store.disk.writeLog w.store.log.pending w.store.log.pending.length false).logIo ∧
      log.Ok ∧ log.pending = [] := by
  obtain ⟨log, disk, hsection, rfl⟩ := hflush
  obtain ⟨log', hsection', hok, hsize, -⟩ := LogManager.flushSection_spec h w.store.disk
  rw [hsection'] at hsection
  cases hsection
  refine ⟨log, ?_, hok, LogManager.pending_of_size_zero hsize⟩
  rw [writeLog_eq]
  rfl

/-! ## It never shows -/

/-- Two worlds that differ in their logs at most, which are at rest. -/
def World.SameRuns (w v : World) : Prop :=
  w.store.log.Ok ∧ ∃ log logIo, v = w.withLog log logIo ∧ log.Ok

namespace World.SameRuns

variable {w w' v : World}

theorem refl (h : w.store.log.Ok) : w.SameRuns w := ⟨h, _, _, rfl, h⟩

theorem flushThread (h : w.SameRuns v) (hflush : w.flushThread w') : w'.SameRuns v := by
  obtain ⟨hw, log, logIo, rfl, hv⟩ := h
  obtain ⟨log', rfl, hok, -⟩ := World.flushThread_eq hw hflush
  exact ⟨hok, log, logIo, rfl, hv⟩

/-- **Every call answers alike** and keeps the worlds alike. -/
theorem handle (h : w.SameRuns v) {o : ClientSig.Op} {r : ClientSig.Res o}
    (ok : World.handle o w = .ok (r, w')) :
    ∃ v', World.handle o v = .ok (r, v') ∧ w'.SameRuns v' := by
  obtain ⟨hw, log, logIo, rfl, hv⟩ := h
  match o, r, ok with
  | .inl o, r, ok =>
    obtain ⟨s', hs, rfl⟩ := World.handle_inl_eq_ok ok
    cases ho : o.isLog with
    | false =>
      refine ⟨⟨s'.withLog log logIo, w.flushed ++ flushedBy o⟩, ?_, ?_, log, logIo, rfl, hv⟩
      · show (Store.handle o (w.store.withLog log logIo)).map _ = _
        rw [handle_withLog _ _ _ ho, hs]
        rfl
      · show s'.log.Ok
        rw [(log_of_handle ho hs).1]
        exact hw
    | true =>
      obtain ⟨r₁, log₁, logIo₁, h₁, hok₁⟩ := handle_log ho hw
      obtain ⟨r₂, log₂, logIo₂, h₂, hok₂⟩ := handle_log (s := w.store.withLog log logIo) ho hv
      rw [hs] at h₁
      cases h₁
      have hunit : r₂ = r := by
        cases o <;> first | rfl | cases ho
      refine ⟨⟨w.store.withLog log₂ logIo₂, w.flushed ++ flushedBy o⟩, ?_, hok₁, log₂, logIo₂,
        rfl, hok₂⟩
      show (Store.handle o (w.store.withLog log logIo)).map _ = _
      rw [h₂, hunit]
      rfl
  | .inr (.request kind), r, ok =>
    obtain ⟨s', hs, rfl⟩ := World.handle_request_eq_ok ok
    refine ⟨⟨s'.withLog log logIo, w.flushed⟩, ?_, ?_, log, logIo, rfl, hv⟩
    · show (run Store.handle (launch kind) (w.store.withLog log logIo)).map _ = _
      rw [run_withLog _ _ _ (pure_launch kind), hs]
      rfl
    · show s'.log.Ok
      rw [(log_of_run (pure_launch kind) hs).1]
      exact hw
  | .inr .disable, r, ok =>
    cases ok
    exact ⟨w.withLog log logIo, rfl, hw, log, logIo, rfl, hv⟩
  | .inr (.fault f), r, ok => cases ok

end World.SameRuns

/-- **The flush thread never shows.**  Every execution in which it takes turns
with a client makes the same calls with the same answers as one without it, and
ends in the same world up to the log. -/
theorem Interleaved.simulates {α : Type} {p q : Prog ClientSig α} {w w' : World}
    {ops : List ClientSig.Op} (hsteps : Interleaved p w ops q w') (h : w.store.log.Ok) :
    ∃ v, Steps World.handle (fun _ _ => False) p w ops q v ∧ w'.SameRuns v :=
  Steps.simulation (fun _ _ _ hs hflush => hs.flushThread hflush)
    (fun _ _ _ _ _ hs ok => hs.handle ok) hsteps (.refl h)

/-- The answer of a finished execution. -/
theorem Interleaved.run_eq {α : Type} {p : Prog ClientSig α} {a : α} {w w' : World}
    {ops : List ClientSig.Op} (hsteps : Interleaved p w ops (.ret a) w') (h : w.store.log.Ok) :
    ∃ v, run World.handle p w = .ok (a, v) ∧ w'.SameRuns v := by
  obtain ⟨v, hv, hsame⟩ := hsteps.simulates h
  exact ⟨v, hv.run_eq.1, hsame⟩

/-! ## The log stays at rest -/

/-- What a log holds does not depend on the rest of the store. -/
theorem LogState.congr {s s' : Store} {bs : List UInt8} (h : LogState s bs)
    (hlog : s'.log = s.log) (hio : s'.disk.logIo = s.disk.logIo) : LogState s' bs := by
  obtain ⟨hok, written, hholds, hbytes⟩ := h
  refine ⟨by rw [hlog]; exact hok, written, by rw [hio]; exact hholds, ?_⟩
  rw [hlog]
  exact hbytes

/-- Every call on the log keeps it in order. -/
theorem logState_of_handle_log {o : StoreOp} (ho : o.isLog = true) {s s' : Store}
    {r : StoreSig.Res o} (h : ∃ bs, LogState s bs) (ok : Store.handle o s = .ok (r, s')) :
    ∃ bs, LogState s' bs := by
  obtain ⟨bs, hbs⟩ := h
  cases o with
  | appendLogRecord key val =>
    obtain ⟨t, hrun, ht, -⟩ := appendLogRecord_state hbs key val
    have heq := ok.symm.trans ((run_op ..).symm.trans hrun)
    cases heq
    exact ⟨_, ht⟩
  | flushWAL =>
    obtain ⟨t, hrun, ht, -⟩ := flushWAL_state hbs
    have heq := ok.symm.trans ((run_op ..).symm.trans hrun)
    cases heq
    exact ⟨_, ht⟩
  | clearLog =>
    obtain ⟨t, hrun, ht, -⟩ := clearLog_state hbs
    have heq := ok.symm.trans ((run_op ..).symm.trans hrun)
    cases heq
    exact ⟨_, ht⟩
  | stopFlushThread =>
    obtain ⟨t, hrun, ht, -⟩ := stopFlushThread_state hbs
    have heq := ok.symm.trans ((run_op ..).symm.trans hrun)
    cases heq
    exact ⟨_, ht⟩
  | _ => cases ho

/-- Calls that are not on the log leave it alone, requests included. -/
theorem World.log_of_handle {o : ClientSig.Op} (ho : ClientSig.isLog o = false) {w w' : World}
    {r : ClientSig.Res o} (ok : World.handle o w = .ok (r, w')) :
    w'.store.log = w.store.log ∧ w'.store.disk.logIo = w.store.disk.logIo := by
  match o, r, ho, ok with
  | .inl o, r, ho, ok =>
    obtain ⟨s', hs, rfl⟩ := World.handle_inl_eq_ok ok
    exact GhostDB.log_of_handle ho hs
  | .inr (.request kind), r, ho, ok =>
    obtain ⟨s', hs, rfl⟩ := World.handle_request_eq_ok ok
    exact log_of_run (pure_launch kind) hs
  | .inr .disable, r, ho, ok =>
    cases ok
    exact ⟨rfl, rfl⟩
  | .inr (.fault f), r, ho, ok => cases ok

/-- So does every other call. -/
theorem logState_of_handle {o : ClientSig.Op} {w w' : World} {r : ClientSig.Res o}
    (h : ∃ bs, LogState w.store bs) (ok : World.handle o w = .ok (r, w')) :
    ∃ bs, LogState w'.store bs := by
  cases ho : ClientSig.isLog o with
  | false =>
    obtain ⟨bs, hbs⟩ := h
    obtain ⟨hlog, hio⟩ := World.log_of_handle ho ok
    exact ⟨bs, hbs.congr hlog hio⟩
  | true =>
    match o, r, ho, ok with
    | .inl o, r, ho, ok =>
      obtain ⟨s', hs, rfl⟩ := World.handle_inl_eq_ok ok
      exact logState_of_handle_log ho h hs

/-- An iteration of the flush thread moves what is pending to the file. -/
theorem logState_of_flushThread {w w' : World} (h : ∃ bs, LogState w.store bs)
    (hflush : w.flushThread w') : ∃ bs, LogState w'.store bs := by
  obtain ⟨bs, hok, written, hholds, hbytes⟩ := h
  obtain ⟨log, rfl, hok', hpending⟩ := World.flushThread_eq hok hflush
  refine ⟨bs, hok', written ++ w.store.log.pending, hholds.writeLog _, ?_⟩
  show written ++ w.store.log.pending ++ log.pending = bs
  rw [hpending, List.append_nil, hbytes]

/-- **The log stays at rest** at every point of every execution. -/
theorem Interleaved.logState {α : Type} {p q : Prog ClientSig α} {w w' : World}
    {ops : List ClientSig.Op} (hsteps : Interleaved p w ops q w')
    (h : ∃ bs, LogState w.store bs) : ∃ bs, LogState w'.store bs :=
  (Steps.invariant (fun _ _ hs hflush => logState_of_flushThread hs hflush)
    (fun _ _ _ _ _ hs ok => logState_of_handle hs ok) hsteps
    (Pure.of_forall (fun _ => rfl) p) h).1

end GhostDB
