import GhostDB.CompactionOverlap
import GhostDB.FlushInterference

/-!
# The whole process of one client

A client, the flush thread of its log manager and the compaction thread, with
the condition variables they wait on.  A section that holds a latch is one
action, but for a compaction, which holds its latch over many.  A wait releases
its latch; it is over when the condition variable was notified, when the wait
times out (the threads' own waits do), or for no reason, and then its condition
is looked at again.  The test of `enable_logging_` or `enable_compaction_` and
the section behind it are two actions, since no latch joins them.

* `Process.step` — the actions.
* `step_turn` — what an action can do.

What holds of such a process whatever the order of its actions is the subject of
`GhostDB.ProcessSync`, that it gets on of `GhostDB.ProcessProgress`.
-/

namespace GhostDB

open Prog

/-! ## Where the threads are -/

/-- What a client waits for on `append_cv_`. -/
inductive LogWait
  /-- The wait of `AppendLogRecord(key, val)`: room for the record. -/
  | room (key : Key) (val : Val)
  /-- The wait of `Flush()`: its request is answered. -/
  | flush
  /-- The same in the `Flush()` of `StopFlushThread()`. -/
  | stop
  deriving DecidableEq

namespace LogWait

/-- Does the call have to ask for a flush?  `Flush()` always does. -/
def Asks (what : LogWait) (log : LogManager) : Prop :=
  match what with
  | room _ _ => log.Full
  | _ => True

/-- Does the wait go on? -/
def Blocks (what : LogWait) (log : LogManager) : Prop :=
  match what with
  | room _ _ => log.Full
  | _ => log.requestFlush = true

/-- The three calls that may wait. -/
def op : LogWait → StoreOp
  | room key val => .appendLogRecord key val
  | flush => .flushWAL
  | stop => .stopFlushThread

/-- A program that makes such a call. -/
def prog {α : Type} (k : Unit → Prog ClientSig α) : LogWait → Prog ClientSig α
  | room key val => onStore (appendLogRecord key val) >>= k
  | flush => onStore flushWAL >>= k
  | stop => onStore stopFlushThread >>= k

instance (what : LogWait) (log : LogManager) : Decidable (what.Asks log) := by
  unfold Asks; cases what <;> infer_instance

instance (what : LogWait) (log : LogManager) : Decidable (what.Blocks log) := by
  unfold Blocks; cases what <;> infer_instance

end LogWait

/-- Where the client is. -/
inductive ProcessClient (α : Type)
  /-- In its own code, with the rest of its program. -/
  | running (p : Prog ClientSig α)
  /-- In a wait on `append_cv_`, notified or not. -/
  | waitLog (what : LogWait) (k : Unit → Prog ClientSig α) (notified : Bool)
  /-- In `flush_future_.get()`. -/
  | joinFlush (k : Unit → Prog ClientSig α)
  /-- In a wait on `wait_compaction_cv_`, notified or not. -/
  | waitCompaction (kind : CompactionKind) (k : Unit → Prog ClientSig α) (notified : Bool)
  /-- In `compaction_future_.get()`. -/
  | joinCompaction (k : Unit → Prog ClientSig α)

/-- Where the flush thread is. -/
inductive FlushPoint
  /-- Before the test of `enable_logging_`. -/
  | test
  /-- Behind it, before the section that holds the latch. -/
  | lock
  /-- In `flush_cv_.wait_for`, notified or not. -/
  | waiting (notified : Bool)
  /-- Behind its loop. -/
  | exited
  deriving DecidableEq

/-- Where the compaction thread is. -/
inductive CompactionPoint
  /-- Before the test of `enable_compaction_`. -/
  | test
  /-- Behind it, before the section that holds the latch. -/
  | lock
  /-- In `compaction_cv_.wait_for`, notified or not. -/
  | waiting (notified : Bool)
  /-- In `LaunchMinorCompaction` or `LaunchMajorCompaction`, with the rest of it. -/
  | compacting (kind : CompactionKind) (p : Prog StoreSig Unit)
  /-- Behind its loop. -/
  | exited

/-- `append_cv_.notify_all()`. -/
def ProcessClient.notifyLog {α : Type} : ProcessClient α → ProcessClient α
  | waitLog what k _ => waitLog what k true
  | c => c

/-- `wait_compaction_cv_.notify_all()`. -/
def ProcessClient.notifyCompaction {α : Type} : ProcessClient α → ProcessClient α
  | waitCompaction kind k _ => waitCompaction kind k true
  | c => c

/-- `flush_cv_.notify_one()`. -/
def FlushPoint.notify : FlushPoint → FlushPoint
  | waiting _ => waiting true
  | t => t

/-- `compaction_cv_.notify_one()`. -/
def CompactionPoint.notify : CompactionPoint → CompactionPoint
  | waiting _ => waiting true
  | t => t

/-- A client, its two managers and their threads. -/
structure Process (α : Type) where
  /-- The store, `request_flush_` in its log manager. -/
  world : World
  /-- `enable_logging_`. -/
  enableLogging : Bool
  /-- The flush thread. -/
  flush : FlushPoint
  /-- `request_minor_compaction_` and `request_major_compaction_`. -/
  requested : CompactionKind → Bool
  /-- `enable_compaction_`. -/
  enableCompaction : Bool
  /-- The compaction thread. -/
  compaction : CompactionPoint
  /-- The client. -/
  client : ProcessClient α

/-- Why a wait may be over. -/
inductive Wake
  /-- The condition variable was notified. -/
  | notified
  /-- For no reason. -/
  | spurious
  /-- The wait timed out. -/
  | timeout
  deriving DecidableEq

/-- What happens next; who waits says why its wait would be over. -/
inductive ProcessAction
  /-- The client goes on; its waits have no timeout. -/
  | client (spurious : Bool)
  /-- The flush thread goes on. -/
  | flush (wake : Wake)
  /-- The compaction thread goes on. -/
  | compaction (wake : Wake)

namespace Process

variable {α : Type}

/-! ## The actions -/

/-- A new process; the two compaction flags are not initialised. -/
def start (world : World) (requested : CompactionKind → Bool) (p : Prog ClientSig α) :
    Process α where
  world := world
  enableLogging := true
  flush := .test
  requested := requested
  enableCompaction := true
  compaction := .test
  client := .running p

/-- The log manager. -/
def log (s : Process α) : LogManager := s.world.store.log

/-- The store with another log manager. -/
def setLog (s : Process α) (log : LogManager) : Process α :=
  { s with world := { s.world with store := { s.world.store with log := log } } }

/-- Does the compaction thread hold its latch between two actions? -/
def latched (s : Process α) : Bool :=
  match s.compaction with
  | .compacting _ _ => true
  | _ => false

/-- The compaction asked for; a major one owns precedence. -/
def chosen (s : Process α) : Option CompactionKind :=
  if s.requested .major then some .major
  else if s.requested .minor then some .minor
  else none

/-- What a call on the log does behind its wait. -/
def answered (s : Process α) (k : Unit → Prog ClientSig α) : LogWait → Process α
  | .room key val => { s.setLog (s.log.appendRecord key val) with client := .running (k ()) }
  | .flush => { s with client := .running (k ()) }
  | .stop => { s with enableLogging := false, client := .joinFlush k }

/-- What it does if it has to wait. -/
def asked (s : Process α) (what : LogWait) (k : Unit → Prog ClientSig α) : Process α :=
  { s.setLog s.log.raiseFlush with
    flush := s.flush.notify
    client := .waitLog what k false }

/-- A call on the log, up to its wait if there is one. -/
def logCall (s : Process α) (what : LogWait) (k : Unit → Prog ClientSig α) : Process α :=
  if what.Asks s.log then s.asked what k else s.answered k what

/-- A call to the store.  Three of them wait for the flush thread. -/
def callTurn (s : Process α) :
    (o : StoreOp) → (StoreSig.Res o → Prog ClientSig α) → Except Fault (Process α)
  | .appendLogRecord key val, k => .ok (s.logCall (.room key val) k)
  | .flushWAL, k => .ok (s.logCall .flush k)
  | .stopFlushThread, k => .ok (s.logCall .stop k)
  | o, k => (World.handleStore o s.world).map fun x =>
    { s with world := x.2, client := .running (k x.1) }

/-- An action of the client. -/
def clientTurn (spurious : Bool) (s : Process α) : Except Fault (Process α) :=
  match s.client with
  | .running (.ret _) => .ok s
  | .running (.call (.inl o) k) => s.callTurn o k
  | .running (.call (.inr (.request kind)) k) =>
    if s.latched then .ok s
    else .ok { s with
      requested := Function.update s.requested kind true
      compaction := s.compaction.notify
      client := .waitCompaction kind k false }
  | .running (.call (.inr .disable) k) =>
    .ok { s with enableCompaction := false, client := .joinCompaction k }
  | .running (.call (.inr (.fault f)) _) => .error f
  | .waitLog what k notified =>
    if notified || spurious then
      if what.Blocks s.log then .ok { s with client := .waitLog what k false }
      else .ok (s.answered k what)
    else .ok s
  | .joinFlush k =>
    match s.flush with
    | .exited =>
      if s.log.logBufferSize ≠ 0 then .error .assertFailed
      else if s.log.flushBufferSize ≠ 0 then .error .assertFailed
      else .ok { s with client := .running (k ()) }
    | _ => .ok s
  | .waitCompaction kind k notified =>
    if s.latched then .ok s
    else if notified || spurious then
      if s.requested kind then .ok { s with client := .waitCompaction kind k false }
      else .ok { s with client := .running (k ()) }
    else .ok s
  | .joinCompaction k =>
    match s.compaction with
    | .exited => .ok { s with client := .running (k ()) }
    | _ => .ok s

/-- The flush thread from the end of its wait to the release of the latch. -/
def flushSection (s : Process α) : Except Fault (Process α) :=
  (s.log.flushSection s.world.store.disk).map fun x =>
    { s with
      world := { s.world with store := { s.world.store with log := x.1, disk := x.2 } }
      flush := .test
      client := s.client.notifyLog }

/-- The condition of the flush thread's wait is looked at. -/
def flushLook (s : Process α) : Except Fault (Process α) :=
  if s.log.requestFlush then s.flushSection else .ok { s with flush := .waiting false }

/-- An action of the flush thread. -/
def flushTurn (wake : Wake) (s : Process α) : Except Fault (Process α) :=
  match s.flush with
  | .test => .ok { s with flush := if s.enableLogging then .lock else .exited }
  | .lock => s.flushLook
  | .waiting notified =>
    match wake with
    | .timeout => s.flushSection
    | .spurious => s.flushLook
    | .notified => if notified then s.flushLook else .ok s
  | .exited => .ok s

/-- The end of a compaction: the flags go down, `notify_all`, the latch is
released. -/
def finishNow (s : Process α) (kind : CompactionKind) : Process α :=
  { s with
    requested :=
      match kind with
      | .major => fun _ => false
      | .minor => Function.update s.requested .minor false
    compaction := .test
    client := s.client.notifyCompaction }

/-- The compaction thread behind its wait: launch what is asked for, or else do
as `idle` says. -/
def compactionLook (s : Process α) (idle : Process α) : Process α :=
  match s.chosen with
  | some kind => { s with compaction := .compacting kind (launch kind) }
  | none => idle

/-- An action of the compaction thread. -/
def compactionTurn (wake : Wake) (s : Process α) : Except Fault (Process α) :=
  match s.compaction with
  | .test => .ok { s with compaction := if s.enableCompaction then .lock else .exited }
  | .lock => .ok (s.compactionLook { s with compaction := .waiting false })
  | .waiting notified =>
    match wake with
    | .timeout =>
      .ok (s.compactionLook { s with compaction := .test, client := s.client.notifyCompaction })
    | .spurious => .ok (s.compactionLook { s with compaction := .waiting false })
    | .notified =>
      .ok (if notified then s.compactionLook { s with compaction := .waiting false } else s)
  | .compacting kind (.call o k) =>
    (Store.handle o s.world.store).map fun x =>
      { s with world := { s.world with store := x.2 }, compaction := .compacting kind (k x.1) }
  | .compacting kind (.ret _) => .ok (s.finishNow kind)
  | .exited => .ok s

/-- One action. -/
def step (a : ProcessAction) (s : Process α) : Except Fault (Process α) :=
  match a with
  | .client spurious => s.clientTurn spurious
  | .flush wake => s.flushTurn wake
  | .compaction wake => s.compactionTurn wake

/-! ## What an action can do -/

/-- The effects of the actions, with what each of them relies on. -/
inductive Turn (s : Process α) : Process α → Prop
  /-- Nothing. -/
  | stay : Turn s s
  /-- The client makes a call to the store. -/
  | call {o : StoreOp} {k : StoreSig.Res o → Prog ClientSig α} {r : StoreSig.Res o}
      {world : World} (runs : s.client = .running (.call (S := ClientSig) (.inl o) k))
      (plain : ∀ what : LogWait, o ≠ what.op) (ok : World.handleStore o s.world = .ok (r, world)) :
      Turn s { s with world := world, client := .running (k r) }
  /-- The client makes a call on the log that needs no wait. -/
  | append {key : Key} {val : Val} {k : Unit → Prog ClientSig α}
      (runs : s.client = .running ((LogWait.room key val).prog k)) (room : ¬ s.log.Full) :
      Turn s (s.answered k (.room key val))
  /-- The client asks the flush thread and waits. -/
  | ask {what : LogWait} {k : Unit → Prog ClientSig α} (runs : s.client = .running (what.prog k))
      (asks : what.Asks s.log) : Turn s (s.asked what k)
  /-- The client looks up and waits on. -/
  | waitOn {what : LogWait} {k : Unit → Prog ClientSig α} {notified : Bool}
      (waits : s.client = .waitLog what k notified) (blocks : what.Blocks s.log) :
      Turn s { s with client := .waitLog what k false }
  /-- The wait is over. -/
  | answer {what : LogWait} {k : Unit → Prog ClientSig α} {notified : Bool}
      (waits : s.client = .waitLog what k notified) (free : ¬ what.Blocks s.log) :
      Turn s (s.answered k what)
  /-- The flush thread is gone. -/
  | joinFlush {k : Unit → Prog ClientSig α} (joins : s.client = .joinFlush k)
      (gone : s.flush = .exited) : Turn s { s with client := .running (k ()) }
  /-- The client asks for a compaction and waits. -/
  | request {kind : CompactionKind} {k : Unit → Prog ClientSig α}
      (runs : s.client = .running (.call (S := ClientSig) (.inr (.request kind)) k))
      (free : s.latched = false) :
      Turn s { s with
        requested := Function.update s.requested kind true
        compaction := s.compaction.notify
        client := .waitCompaction kind k false }
  /-- The client looks up and waits on. -/
  | requestOn {kind : CompactionKind} {k : Unit → Prog ClientSig α} {notified : Bool}
      (waits : s.client = .waitCompaction kind k notified) (up : s.requested kind = true) :
      Turn s { s with client := .waitCompaction kind k false }
  /-- The request returns. -/
  | returns {kind : CompactionKind} {k : Unit → Prog ClientSig α} {notified : Bool}
      (waits : s.client = .waitCompaction kind k notified) (free : s.latched = false)
      (down : s.requested kind = false) : Turn s { s with client := .running (k ()) }
  /-- The client stops the compaction thread. -/
  | disable {k : Unit → Prog ClientSig α}
      (runs : s.client = .running (.call (S := ClientSig) (.inr .disable) k)) :
      Turn s { s with enableCompaction := false, client := .joinCompaction k }
  /-- The compaction thread is gone. -/
  | joinCompaction {k : Unit → Prog ClientSig α} (joins : s.client = .joinCompaction k)
      (gone : s.compaction = .exited) : Turn s { s with client := .running (k ()) }
  /-- The flush thread tests whether to go on. -/
  | flushTest (tests : s.flush = .test) :
      Turn s { s with flush := if s.enableLogging then .lock else .exited }
  /-- The flush thread finds nothing to do. -/
  | flushWait (here : s.flush ≠ .exited) (down : s.log.requestFlush = false) :
      Turn s { s with flush := .waiting false }
  /-- The flush thread runs a section. -/
  | flushSection {t : Process α} (here : s.flush ≠ .exited) (ok : s.flushSection = .ok t) :
      Turn s t
  /-- The compaction thread tests whether to go on. -/
  | compactionTest (tests : s.compaction = .test) :
      Turn s { s with compaction := if s.enableCompaction then .lock else .exited }
  /-- The compaction thread finds nothing to do. -/
  | compactionWait (here : s.compaction ≠ .exited) (free : s.latched = false)
      (down : s.chosen = none) : Turn s { s with compaction := .waiting false }
  /-- The same after a timeout. -/
  | compactionLoop (here : s.compaction ≠ .exited) (free : s.latched = false)
      (down : s.chosen = none) :
      Turn s { s with compaction := .test, client := s.client.notifyCompaction }
  /-- The compaction thread starts a compaction. -/
  | launch {kind : CompactionKind} (here : s.compaction ≠ .exited) (free : s.latched = false)
      (up : s.chosen = some kind) : Turn s { s with compaction := .compacting kind (launch kind) }
  /-- The compaction makes a call to the store. -/
  | compact {kind : CompactionKind} {o : StoreOp} {k : StoreSig.Res o → Prog StoreSig Unit}
      {r : StoreSig.Res o} {store : Store}
      (runs : s.compaction = .compacting kind (.call (S := StoreSig) o k))
      (ok : Store.handle o s.world.store = .ok (r, store)) :
      Turn s { s with
        world := { s.world with store := store }
        compaction := .compacting kind (k r) }
  /-- The compaction is done. -/
  | finish {kind : CompactionKind} (runs : s.compaction = .compacting kind (.ret ())) :
      Turn s (s.finishNow kind)

theorem latched_of_eq {s : Process α} {t : CompactionPoint} (h : s.compaction = t)
    (ht : ∀ kind p, t ≠ .compacting kind p) : s.latched = false := by
  rw [latched, h]
  cases t with
  | compacting kind p => exact absurd rfl (ht kind p)
  | _ => rfl

/-- **Inversion of a call to the store.** -/
theorem callTurn_turn {s t : Process α} {o : StoreOp} {k : StoreSig.Res o → Prog ClientSig α}
    (runs : s.client = .running (.call (S := ClientSig) (.inl o) k))
    (h : s.callTurn o k = .ok t) : Turn s t := by
  have hlog : ∀ (what : LogWait) (k' : Unit → Prog ClientSig α),
      s.client = .running (what.prog k') → s.logCall what k' = t → Turn s t := by
    intro what k' hruns hcall
    rw [logCall] at hcall
    split at hcall
    next hasks =>
      cases hcall
      exact .ask hruns hasks
    next hasks =>
      cases hcall
      cases what with
      | room key val => exact .append hruns hasks
      | flush => exact absurd trivial hasks
      | stop => exact absurd trivial hasks
  have hplain : (∀ what : LogWait, o ≠ what.op) →
      (World.handleStore o s.world).map (fun x =>
        ({ s with world := x.2, client := .running (k x.1) } : Process α)) = .ok t → Turn s t := by
    intro plain hcall
    cases ho : World.handleStore o s.world with
    | error e =>
      rw [ho] at hcall
      cases hcall
    | ok x =>
      rw [ho] at hcall
      cases hcall
      exact .call runs plain ho
  cases o with
  | appendLogRecord key val => exact hlog (.room key val) k runs (Except.ok.inj h)
  | flushWAL => exact hlog .flush k runs (Except.ok.inj h)
  | stopFlushThread => exact hlog .stop k runs (Except.ok.inj h)
  | _ => exact hplain (by intro what; cases what <;> simp [LogWait.op]) h

/-- **Inversion of the client's action.** -/
theorem clientTurn_turn {s t : Process α} {spurious : Bool}
    (h : s.clientTurn spurious = .ok t) : Turn s t := by
  unfold clientTurn at h
  split at h
  next => cases h; exact .stay
  next o k hruns => exact callTurn_turn hruns h
  next kind k hruns =>
    split at h
    next => cases h; exact .stay
    next hfree => cases h; exact .request hruns (by simpa using hfree)
  next k hruns => cases h; exact .disable hruns
  next => cases h
  next what k notified hwaits =>
    split at h
    next =>
      split at h
      next hblocks => cases h; exact .waitOn hwaits hblocks
      next hfree => cases h; exact .answer hwaits hfree
    next => cases h; exact .stay
  next k hjoins =>
    split at h
    next hgone =>
      split at h
      next => cases h
      next =>
        split at h
        next => cases h
        next => cases h; exact .joinFlush hjoins hgone
    next => cases h; exact .stay
  next kind k notified hwaits =>
    split at h
    next => cases h; exact .stay
    next hfree =>
      split at h
      next =>
        split at h
        next hup => cases h; exact .requestOn hwaits hup
        next hdown =>
          cases h
          exact .returns hwaits (by simpa using hfree) (by simpa using hdown)
      next => cases h; exact .stay
  next k hjoins =>
    split at h
    next hgone => cases h; exact .joinCompaction hjoins hgone
    next => cases h; exact .stay

/-- **Inversion of the flush thread's action.** -/
theorem flushTurn_turn {s t : Process α} {wake : Wake} (h : s.flushTurn wake = .ok t) :
    Turn s t := by
  have hlook : s.flush ≠ .exited → s.flushLook = .ok t → Turn s t := by
    intro hhere hl
    rw [flushLook] at hl
    split at hl
    next => exact .flushSection hhere hl
    next hdown => cases hl; exact .flushWait hhere (by simpa using hdown)
  unfold flushTurn at h
  split at h
  next htest => cases h; exact .flushTest htest
  next hlock => exact hlook (by simp [hlock]) h
  next notified hwaiting =>
    have hhere : s.flush ≠ .exited := by simp [hwaiting]
    cases wake with
    | timeout => exact .flushSection hhere h
    | spurious => exact hlook hhere h
    | notified =>
      cases notified with
      | true => exact hlook hhere h
      | false => cases h; exact .stay
  next => cases h; exact .stay

/-- **Inversion of the compaction thread's action.** -/
theorem compactionTurn_turn {s t : Process α} {wake : Wake} (h : s.compactionTurn wake = .ok t) :
    Turn s t := by
  have hlook : ∀ idle, s.compaction ≠ .exited → s.latched = false →
      (s.chosen = none → Turn s idle) → s.compactionLook idle = t → Turn s t := by
    intro idle hhere hfree hidle hl
    rw [compactionLook] at hl
    split at hl
    next kind hup => cases hl; exact .launch hhere hfree hup
    next hdown => cases hl; exact hidle hdown
  unfold compactionTurn at h
  split at h
  next htest => cases h; exact .compactionTest htest
  next hlock =>
    have hhere : s.compaction ≠ .exited := by simp [hlock]
    have hfree := latched_of_eq hlock (by simp)
    exact hlook _ hhere hfree (.compactionWait hhere hfree) (Except.ok.inj h)
  next notified hwaiting =>
    have hhere : s.compaction ≠ .exited := by simp [hwaiting]
    have hfree := latched_of_eq hwaiting (by simp)
    cases wake with
    | timeout => exact hlook _ hhere hfree (.compactionLoop hhere hfree) (Except.ok.inj h)
    | spurious => exact hlook _ hhere hfree (.compactionWait hhere hfree) (Except.ok.inj h)
    | notified =>
      cases notified with
      | true => exact hlook _ hhere hfree (.compactionWait hhere hfree) (Except.ok.inj h)
      | false => cases h; exact .stay
  next kind o k hruns =>
    cases ho : Store.handle o s.world.store with
    | error e => rw [ho] at h; cases h
    | ok x =>
      rw [ho] at h
      cases h
      exact .compact hruns ho
  next kind u hruns => cases h; exact .finish hruns
  next => cases h; exact .stay

/-- **Inversion of `step`.** -/
theorem step_turn {s t : Process α} {a : ProcessAction} (h : step a s = .ok t) : Turn s t := by
  cases a with
  | client spurious => exact clientTurn_turn h
  | flush wake => exact flushTurn_turn h
  | compaction wake => exact compactionTurn_turn h

end Process

end GhostDB
