import GhostDB.Process

/-!
# The managers in step with their client

What holds of the process of one client whatever the order of its actions.

* `LogSync`, `CompactionSync` — the invariants of the two managers: a flag is up
  exactly while the client waits for it and was not notified, and a thread that
  waits without a notification has nothing to do.
* `LogSync.blocks_iff`, `CompactionSync.up_iff` — a wait of the client is over
  exactly when it was notified.
* `Process.Sync.turn` — every effect keeps both.
-/

namespace GhostDB

open Prog

/-! ## The log manager in step with its client -/

/-- What the client does with the log manager. -/
inductive AtLog
  | away
  | waits (what : LogWait) (notified : Bool)
  | joins

/-- What the client does with the log manager. -/
@[simp] def ProcessClient.atLog {α : Type} : ProcessClient α → AtLog
  | waitLog what _ notified => .waits what notified
  | joinFlush _ => .joins
  | _ => .away

/-- `append_cv_.notify_all()`. -/
def AtLog.notify : AtLog → AtLog
  | waits what _ => waits what true
  | c => c

/-- **The invariant of the log manager.** -/
structure LogSync (log : LogManager) (enable : Bool) (thread : FlushPoint) (c : AtLog) : Prop where
  /-- The buffers are at rest. -/
  ok : log.Ok
  /-- The flag is up exactly while the client waits and was not notified. -/
  up : log.requestFlush = true ↔ ∃ what, c = .waits what false
  /-- Until then there is no room. -/
  full : ∀ key val, c = .waits (.room key val) false → log.Full
  /-- Behind the notification the buffer is empty. -/
  empty : ∀ what, c = .waits what true → log.logBufferSize = 0
  /-- It still is while the client waits for the end of the thread. -/
  drained : c = .joins → log.logBufferSize = 0
  /-- The thread waits without a notification only when no flag is up. -/
  noticed : thread = .waiting false → log.requestFlush = false
  /-- The thread ends only when it is told to. -/
  exits : thread = .exited → enable = false
  /-- It is told to before the client waits for it. -/
  joins : c = .joins → enable = false
  /-- From there on the client waits for the thread, or the thread is gone. -/
  gone : enable = false → c = .joins ∨ thread = .exited

namespace LogSync

variable {log : LogManager} {enable : Bool} {thread : FlushPoint} {c : AtLog}

theorem start (hok : log.Ok) (hdown : log.requestFlush = false) :
    LogSync log true .test .away where
  ok := hok
  up := by simp [hdown]
  full := by simp
  empty := by simp
  drained := by simp
  noticed := by simp
  exits := by simp
  joins := by simp
  gone := by simp

/-- No flag is up unless the client waits. -/
theorem down_of_ne (h : LogSync log enable thread c) (hc : ∀ what, c ≠ .waits what false) :
    log.requestFlush = false := by
  rw [← Bool.not_eq_true, h.up]
  rintro ⟨what, hwaits⟩
  exact hc what hwaits

theorem blocks_of_waits {what : LogWait} (h : LogSync log enable thread (.waits what false)) :
    what.Blocks log := by
  cases what with
  | room key val => exact h.full key val rfl
  | flush => exact h.up.2 ⟨_, rfl⟩
  | stop => exact h.up.2 ⟨_, rfl⟩

theorem not_blocks_of_notified {what : LogWait}
    (h : LogSync log enable thread (.waits what true)) : ¬ what.Blocks log := by
  have hdown := h.down_of_ne (by simp)
  cases what with
  | room key val => exact LogManager.not_full_of_size_zero (h.empty _ rfl)
  | flush => simp [LogWait.Blocks, hdown]
  | stop => simp [LogWait.Blocks, hdown]

/-- **A wait is over exactly when the client was notified**: no other wakeup
lets it through. -/
theorem blocks_iff {what : LogWait} {notified : Bool}
    (h : LogSync log enable thread (.waits what notified)) :
    what.Blocks log ↔ notified = false := by
  cases notified with
  | true => simpa using h.not_blocks_of_notified
  | false => simpa using h.blocks_of_waits

/-- **The client leaves** the log manager, a record behind what was buffered or
not. -/
theorem leave {log' : LogManager} (h : LogSync log enable thread c)
    (hc : ∀ what, c ≠ .waits what false) (hjoins : c = .joins → thread = .exited)
    (hok : log'.Ok) (hflag : log'.requestFlush = log.requestFlush) :
    LogSync log' enable thread .away where
  ok := hok
  up := by simp [hflag, h.down_of_ne hc]
  full := by simp
  empty := by simp
  drained := by simp
  noticed := fun _ => hflag.trans (h.down_of_ne hc)
  exits := h.exits
  joins := by simp
  gone := fun henable => .inr ((h.gone henable).elim hjoins id)

/-- **The client asks** and notifies the thread. -/
theorem ask (h : LogSync log enable thread .away) {what : LogWait} (hasks : what.Asks log) :
    LogSync log.raiseFlush enable thread.notify (.waits what false) where
  ok := h.ok.raiseFlush
  up := by simp [LogManager.raiseFlush]
  full := by
    rintro key val ⟨⟩
    exact hasks
  empty := by simp
  drained := by simp
  noticed := by cases thread <;> simp [FlushPoint.notify]
  exits := by
    intro hexited
    apply h.exits
    cases thread <;> simp_all [FlushPoint.notify]
  joins := by simp
  gone := by
    intro henable
    rcases h.gone henable with haway | hexited
    · cases haway
    · simp [hexited, FlushPoint.notify]

/-- **`StopFlushThread` goes on** behind its flush: the thread is told to end. -/
theorem stop {what : LogWait} (h : LogSync log enable thread (.waits what true)) :
    LogSync log false thread .joins where
  ok := h.ok
  up := by simp [h.down_of_ne]
  full := by simp
  empty := by simp
  drained := fun _ => h.empty what rfl
  noticed := h.noticed
  exits := fun _ => rfl
  joins := fun _ => rfl
  gone := fun _ => .inl rfl

/-- **The thread tests** whether to go on. -/
theorem test (h : LogSync log enable thread c) :
    LogSync log enable (if enable then .lock else .exited) c where
  ok := h.ok
  up := h.up
  full := h.full
  empty := h.empty
  drained := h.drained
  noticed := by cases enable <;> simp
  exits := by cases enable <;> simp
  joins := h.joins
  gone := by
    intro henable
    simp [henable]

/-- **The thread waits** when no flag is up. -/
theorem wait (h : LogSync log enable thread c) (hhere : thread ≠ .exited)
    (hdown : log.requestFlush = false) : LogSync log enable (.waiting false) c where
  ok := h.ok
  up := h.up
  full := h.full
  empty := h.empty
  drained := h.drained
  noticed := fun _ => hdown
  exits := by simp
  joins := h.joins
  gone := fun henable => .inl ((h.gone henable).resolve_right hhere)

/-- **A section of the thread** takes the flag down, empties the buffer and
notifies the client. -/
theorem flushSection {log' : LogManager} (h : LogSync log enable thread c)
    (hhere : thread ≠ .exited) (hok : log'.Ok) (hsize : log'.logBufferSize = 0)
    (hdown : log'.requestFlush = false) : LogSync log' enable .test c.notify where
  ok := hok
  up := by cases c <;> simp [AtLog.notify, hdown]
  full := by cases c <;> simp [AtLog.notify]
  empty := fun _ _ => hsize
  drained := fun _ => hsize
  noticed := by simp
  exits := by simp
  joins := by
    intro hjoins
    apply h.joins
    cases c <;> simp_all [AtLog.notify]
  gone := by
    intro henable
    rw [(h.gone henable).resolve_right hhere]
    exact .inl rfl

end LogSync

/-! ## The compaction manager in step with its client -/

/-- What the client does with the compaction manager. -/
inductive AtCompaction
  | away
  | waits (kind : CompactionKind) (notified : Bool)
  | joins

/-- What the client does with the compaction manager. -/
@[simp] def ProcessClient.atCompaction {α : Type} : ProcessClient α → AtCompaction
  | waitCompaction kind _ notified => .waits kind notified
  | joinCompaction _ => .joins
  | _ => .away

/-- `wait_compaction_cv_.notify_all()`. -/
def AtCompaction.notify : AtCompaction → AtCompaction
  | waits kind _ => waits kind true
  | c => c

/-- **The invariant of the compaction manager.** -/
structure CompactionSync (requested : CompactionKind → Bool) (enable : Bool)
    (thread : CompactionPoint) (c : AtCompaction) : Prop where
  /-- A flag is up exactly while the client waits for it and was not notified. -/
  up : ∀ kind, requested kind = true ↔ c = .waits kind false
  /-- A compaction under way is one whose flag is up. -/
  asked : ∀ kind p, thread = .compacting kind p → requested kind = true
  /-- A compaction makes no call on the log. -/
  pure : ∀ kind p, thread = .compacting kind p → Pure StoreOp.isLog p
  /-- The thread waits without a notification only when no flag is up. -/
  noticed : thread = .waiting false → ∀ kind, requested kind = false
  /-- The thread ends only when it is told to. -/
  exits : thread = .exited → enable = false
  /-- It is told to before the client waits for it. -/
  joins : c = .joins → enable = false
  /-- From there on the client waits for the thread, or the thread is gone. -/
  gone : enable = false → c = .joins ∨ thread = .exited

namespace CompactionSync

variable {requested : CompactionKind → Bool} {enable : Bool} {thread : CompactionPoint}
  {c : AtCompaction}

theorem start (hflags : ∀ kind, requested kind = false) :
    CompactionSync requested true .test .away where
  up := by simp [hflags]
  asked := by simp
  pure := by simp
  noticed := by simp
  exits := by simp
  joins := by simp
  gone := by simp

/-- No flag is up unless the client waits. -/
theorem down_of_ne (h : CompactionSync requested enable thread c)
    (hc : ∀ kind, c ≠ .waits kind false) (kind : CompactionKind) : requested kind = false := by
  rw [← Bool.not_eq_true, h.up]
  exact hc kind

/-- No compaction is under way then. -/
theorem not_compacting (h : CompactionSync requested enable thread c)
    (hc : ∀ kind, c ≠ .waits kind false) (kind : CompactionKind) (p : Prog StoreSig Unit) :
    thread ≠ .compacting kind p := by
  intro hthread
  have hup := h.asked kind p hthread
  rw [h.down_of_ne hc kind] at hup
  cases hup

/-- **A wait is over exactly when the client was notified.** -/
theorem up_iff {kind : CompactionKind} {notified : Bool}
    (h : CompactionSync requested enable thread (.waits kind notified)) :
    requested kind = true ↔ notified = false := by
  rw [h.up kind]
  simp

/-- **The client leaves** the compaction manager. -/
theorem leave (h : CompactionSync requested enable thread c)
    (hc : ∀ kind, c ≠ .waits kind false) (hjoins : c = .joins → thread = .exited) :
    CompactionSync requested enable thread .away where
  up := by simp [h.down_of_ne hc]
  asked := h.asked
  pure := h.pure
  noticed := h.noticed
  exits := h.exits
  joins := by simp
  gone := fun henable => .inr ((h.gone henable).elim hjoins id)

/-- **The client asks** and notifies the thread. -/
theorem ask (h : CompactionSync requested enable thread .away) (kind : CompactionKind) :
    CompactionSync (Function.update requested kind true) enable thread.notify
      (.waits kind false) where
  up := by
    intro kind'
    by_cases hkind : kind' = kind
    · simp [hkind]
    · rw [Function.update_of_ne hkind, h.up kind']
      simpa using fun heq => hkind heq.symm
  asked := by
    intro kind' p hthread
    have hne := h.not_compacting (by simp) kind' p
    cases thread <;> simp_all [CompactionPoint.notify]
  pure := by
    intro kind' p hthread
    have hne := h.not_compacting (by simp) kind' p
    cases thread <;> simp_all [CompactionPoint.notify]
  noticed := by cases thread <;> simp [CompactionPoint.notify]
  exits := by
    intro hexited
    apply h.exits
    cases thread <;> simp_all [CompactionPoint.notify]
  joins := by simp
  gone := by
    intro henable
    rcases h.gone henable with haway | hexited
    · cases haway
    · simp [hexited, CompactionPoint.notify]

/-- **The client stops the thread.** -/
theorem disable (h : CompactionSync requested enable thread .away) :
    CompactionSync requested false thread .joins where
  up := by simp [h.down_of_ne]
  asked := h.asked
  pure := h.pure
  noticed := h.noticed
  exits := fun _ => rfl
  joins := fun _ => rfl
  gone := fun _ => .inl rfl

/-- **The thread tests** whether to go on. -/
theorem test (h : CompactionSync requested enable thread c) :
    CompactionSync requested enable (if enable then .lock else .exited) c where
  up := h.up
  asked := by cases enable <;> simp
  pure := by cases enable <;> simp
  noticed := by cases enable <;> simp
  exits := by cases enable <;> simp
  joins := h.joins
  gone := by
    intro henable
    simp [henable]

/-- **The thread waits** when no flag is up. -/
theorem wait (h : CompactionSync requested enable thread c) (hhere : thread ≠ .exited)
    (hdown : ∀ kind, requested kind = false) :
    CompactionSync requested enable (.waiting false) c where
  up := h.up
  asked := by simp
  pure := by simp
  noticed := fun _ => hdown
  exits := by simp
  joins := h.joins
  gone := fun henable => .inl ((h.gone henable).resolve_right hhere)

/-- **The thread is back at its test**: it notifies the client, no flag being
up. -/
theorem answer {requested' : CompactionKind → Bool}
    (h : CompactionSync requested enable thread c) (hhere : thread ≠ .exited)
    (hdown : ∀ kind, requested' kind = false) :
    CompactionSync requested' enable .test c.notify where
  up := by cases c <;> simp [AtCompaction.notify, hdown]
  asked := by simp
  pure := by simp
  noticed := by simp
  exits := by simp
  joins := by
    intro hjoins
    apply h.joins
    cases c <;> simp_all [AtCompaction.notify]
  gone := by
    intro henable
    rw [(h.gone henable).resolve_right hhere]
    exact .inl rfl

/-- **A compaction starts** or goes on. -/
theorem compact (h : CompactionSync requested enable thread c) (hhere : thread ≠ .exited)
    {kind : CompactionKind} (hup : requested kind = true) {p : Prog StoreSig Unit}
    (hp : Pure StoreOp.isLog p) : CompactionSync requested enable (.compacting kind p) c where
  up := h.up
  asked := by
    rintro kind' p' ⟨⟩
    exact hup
  pure := by
    rintro kind' p' ⟨⟩
    exact hp
  noticed := by simp
  exits := by simp
  joins := h.joins
  gone := fun henable => .inl ((h.gone henable).resolve_right hhere)

end CompactionSync

/-! ## Both of them -/

namespace Process

variable {α : Type}

/-- **The invariant.** -/
structure Sync (s : Process α) : Prop where
  /-- Of the log manager. -/
  log : LogSync s.log s.enableLogging s.flush s.client.atLog
  /-- Of the compaction manager. -/
  compaction : CompactionSync s.requested s.enableCompaction s.compaction s.client.atCompaction

@[simp] theorem atLog_notifyLog (c : ProcessClient α) : c.notifyLog.atLog = c.atLog.notify := by
  cases c <;> rfl

@[simp] theorem atCompaction_notifyLog (c : ProcessClient α) :
    c.notifyLog.atCompaction = c.atCompaction := by
  cases c <;> rfl

@[simp] theorem atLog_notifyCompaction (c : ProcessClient α) :
    c.notifyCompaction.atLog = c.atLog := by
  cases c <;> rfl

@[simp] theorem atCompaction_notifyCompaction (c : ProcessClient α) :
    c.notifyCompaction.atCompaction = c.atCompaction.notify := by
  cases c <;> rfl

theorem down_of_chosen {s : Process α} (h : s.chosen = none) (kind : CompactionKind) :
    s.requested kind = false := by
  rw [chosen] at h
  split at h
  next => cases h
  next hmajor =>
    split at h
    next => cases h
    next hminor =>
      cases kind with
      | major => simpa using hmajor
      | minor => simpa using hminor

theorem up_of_chosen {s : Process α} {kind : CompactionKind} (h : s.chosen = some kind) :
    s.requested kind = true := by
  rw [chosen] at h
  split at h
  next hmajor => cases h; exact hmajor
  next =>
    split at h
    next hminor => cases h; exact hminor
    next => cases h

/-- A call that does not wait leaves the log manager alone. -/
theorem log_of_plain {o : StoreOp} (plain : ∀ what : LogWait, o ≠ what.op) {w w' : World}
    {r : StoreSig.Res o} (ok : World.handleStore o w = .ok (r, w')) :
    w'.store.log = w.store.log := by
  obtain ⟨s', hs, rfl⟩ := World.handle_inl_eq_ok ok
  cases ho : o.isLog with
  | false => exact (log_of_handle ho hs).1
  | true =>
    cases o with
    | appendLogRecord key val => exact absurd rfl (plain (.room key val))
    | flushWAL => exact absurd rfl (plain .flush)
    | stopFlushThread => exact absurd rfl (plain .stop)
    | clearLog => cases hs; rfl
    | _ => cases ho

/-- What a section of the flush thread does. -/
theorem flushSection_eq {s t : Process α} (hok : s.log.Ok) (h : s.flushSection = .ok t) :
    ∃ log : LogManager, log.Ok ∧ log.logBufferSize = 0 ∧ log.requestFlush = false ∧
      t = { s with
        world := s.world.withLog log
          (s.world.store.disk.writeLog s.log.pending s.log.pending.length false).logIo
        flush := .test
        client := s.client.notifyLog } := by
  obtain ⟨log, hsection, hok', hsize, hdown⟩ := LogManager.flushSection_spec hok s.world.store.disk
  refine ⟨log, hok', hsize, hdown, ?_⟩
  rw [flushSection, hsection] at h
  cases h
  rw [World.withLog, Store.withLog, ← writeLog_eq]

/-- It never fails. -/
theorem flushSection_ok {s : Process α} (hok : s.log.Ok) : ∃ t, s.flushSection = .ok t := by
  obtain ⟨log, hsection, -⟩ := LogManager.flushSection_spec hok s.world.store.disk
  rw [flushSection, hsection]
  exact ⟨_, rfl⟩

theorem Sync.log_of {s : Process α} (h : s.Sync) {c : ProcessClient α} {p : AtLog}
    (hc : s.client = c) (hp : c.atLog = p) : LogSync s.log s.enableLogging s.flush p := by
  rw [← hp, ← hc]
  exact h.log

theorem Sync.compaction_of {s : Process α} (h : s.Sync) {c : ProcessClient α} {p : AtCompaction}
    (hc : s.client = c) (hp : c.atCompaction = p) :
    CompactionSync s.requested s.enableCompaction s.compaction p := by
  rw [← hp, ← hc]
  exact h.compaction

/-- The end of a compaction takes every flag down that can be up. -/
theorem finishNow_down {s : Process α} (h : s.Sync) {kind : CompactionKind}
    {p : Prog StoreSig Unit} (runs : s.compaction = .compacting kind p) (kind' : CompactionKind) :
    (s.finishNow kind).requested kind' = false := by
  cases kind with
  | major => rfl
  | minor =>
    show Function.update s.requested .minor false kind' = false
    by_cases hkind : kind' = .minor
    · rw [hkind, Function.update_self]
    · rw [Function.update_of_ne hkind, ← Bool.not_eq_true, h.compaction.up kind']
      rw [(h.compaction.up .minor).1 (h.compaction.asked _ _ runs)]
      simpa using fun heq => hkind heq.symm

/-- **What a call on the log does behind its wait** keeps the invariant. -/
theorem sync_answered {s : Process α} {what : LogWait} {k : Unit → Prog ClientSig α}
    (hlog : LogSync s.log s.enableLogging s.flush (.waits what true))
    (hcompaction : CompactionSync s.requested s.enableCompaction s.compaction .away) :
    (s.answered k what).Sync := by
  cases what with
  | room key val =>
    have hspec := LogManager.appendRecord_spec hlog.ok hlog.not_blocks_of_notified key val
    exact ⟨hlog.leave (by simp) (by simp) hspec.1 hspec.2.2.2, hcompaction⟩
  | flush => exact ⟨hlog.leave (by simp) (by simp) hlog.ok rfl, hcompaction⟩
  | stop => exact ⟨hlog.stop, hcompaction⟩

/-- **Every effect keeps the invariant.** -/
theorem Sync.turn {s t : Process α} (h : s.Sync) (ht : Turn s t) : t.Sync := by
  cases ht with
  | stay => exact h
  | @call o k r world runs plain ok =>
    have hlog := log_of_plain plain ok
    refine ⟨(h.log_of runs rfl).leave (by simp) (by simp) ?_ (congrArg _ hlog),
      h.compaction_of runs rfl⟩
    show world.store.log.Ok
    rw [hlog]
    exact h.log.ok
  | @append key val k runs room =>
    have hspec := LogManager.appendRecord_spec h.log.ok room key val
    exact ⟨(h.log_of runs rfl).leave (by simp) (by simp) hspec.1 hspec.2.2.2,
      h.compaction_of runs rfl⟩
  | ask runs asks => exact ⟨(h.log_of runs rfl).ask asks, h.compaction_of runs rfl⟩
  | @waitOn what k notified waits blocks =>
    have hlog := h.log_of waits rfl
    rw [hlog.blocks_iff.1 blocks] at hlog
    exact ⟨hlog, h.compaction_of waits rfl⟩
  | @answer what k notified waits free =>
    have hlog := h.log_of waits rfl
    have hnotified : notified = true := by simpa using mt hlog.blocks_iff.2 free
    rw [hnotified] at hlog
    exact sync_answered hlog (h.compaction_of waits rfl)
  | joinFlush joins gone =>
    exact ⟨(h.log_of joins rfl).leave (by simp) (fun _ => gone) h.log.ok rfl,
      h.compaction_of joins rfl⟩
  | request runs free => exact ⟨h.log_of runs rfl, (h.compaction_of runs rfl).ask _⟩
  | requestOn waits up =>
    have hcompaction := h.compaction_of waits rfl
    rw [hcompaction.up_iff.1 up] at hcompaction
    exact ⟨h.log_of waits rfl, hcompaction⟩
  | returns waits free down =>
    have hcompaction := h.compaction_of waits rfl
    refine ⟨h.log_of waits rfl, hcompaction.leave ?_ (by simp)⟩
    rintro kind' ⟨⟩
    rw [hcompaction.up_iff.2 rfl] at down
    cases down
  | disable runs => exact ⟨h.log_of runs rfl, (h.compaction_of runs rfl).disable⟩
  | joinCompaction joins gone =>
    exact ⟨h.log_of joins rfl, (h.compaction_of joins rfl).leave (by simp) fun _ => gone⟩
  | flushTest tests => exact ⟨h.log.test, h.compaction⟩
  | flushWait here down => exact ⟨h.log.wait here down, h.compaction⟩
  | flushSection here ok =>
    obtain ⟨log, hok, hsize, hdown, rfl⟩ := flushSection_eq h.log.ok ok
    refine ⟨?_, ?_⟩
    · rw [atLog_notifyLog]
      exact h.log.flushSection here hok hsize hdown
    · rw [atCompaction_notifyLog]
      exact h.compaction
  | compactionTest tests => exact ⟨h.log, h.compaction.test⟩
  | compactionWait here free down => exact ⟨h.log, h.compaction.wait here (down_of_chosen down)⟩
  | compactionLoop here free down =>
    refine ⟨?_, ?_⟩
    · rw [atLog_notifyCompaction]
      exact h.log
    · rw [atCompaction_notifyCompaction]
      exact h.compaction.answer here (down_of_chosen down)
  | launch here free up =>
    exact ⟨h.log, h.compaction.compact here (up_of_chosen up) (pure_launch _)⟩
  | @compact kind o k r store runs ok =>
    have hpure := h.compaction.pure _ _ runs
    refine ⟨?_, h.compaction.compact (by simp [runs]) (h.compaction.asked _ _ runs) (hpure.2 _)⟩
    show LogSync store.log _ _ _
    rw [(log_of_handle hpure.1 ok).1]
    exact h.log
  | finish runs =>
    refine ⟨?_, ?_⟩
    · show LogSync s.log _ _ s.client.notifyCompaction.atLog
      rw [atLog_notifyCompaction]
      exact h.log
    · show CompactionSync _ _ _ s.client.notifyCompaction.atCompaction
      rw [atCompaction_notifyCompaction]
      exact h.compaction.answer (by simp [runs]) (finishNow_down h runs)

end Process

end GhostDB
