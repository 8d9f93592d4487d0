import GhostDB.ProcessSync

/-!
# The process agrees with the sequential client

Whatever the order in which a client, the flush thread and the compaction thread
act, the client gets what it would get alone, every call and request answered at
once.

* `Alike` — the same result and the same runs, the logs aside.
* `Process.outcome` — what is left to happen, executed sequentially;
  `Process.Sync.turn_outcome` — no action changes it.
* `process_agrees` — every interleaving agrees with `World.handle`.
-/

namespace GhostDB

open Prog

/-! ## Up to the log -/

namespace World.SameRuns

variable {w v u : World}

theorem symm (h : w.SameRuns v) : v.SameRuns w := by
  obtain ⟨hw, log, logIo, rfl, hv⟩ := h
  exact ⟨hv, w.store.log, w.store.disk.logIo, rfl, hw⟩

theorem trans (h : w.SameRuns v) (h' : v.SameRuns u) : w.SameRuns u := by
  obtain ⟨hw, log, logIo, rfl, hv⟩ := h
  obtain ⟨-, log', logIo', rfl, hu⟩ := h'
  exact ⟨hw, log', logIo', rfl, hu⟩

/-- **A call fails alike** in worlds that differ in their logs at most. -/
theorem handle_error (h : w.SameRuns v) {o : ClientSig.Op} {e : Fault}
    (herr : World.handle o w = .error e) : World.handle o v = .error e := by
  obtain ⟨hw, log, logIo, rfl, hv⟩ := h
  match o, herr with
  | .inl o, herr =>
    have hcall : Store.handle o w.store = .error e := by
      have hmap : (Store.handle o w.store).map _ = _ := herr
      cases hs : Store.handle o w.store with
      | error e' =>
        rw [hs] at hmap
        exact congrArg Except.error (Except.error.inj hmap)
      | ok x =>
        rw [hs] at hmap
        cases hmap
    cases ho : o.isLog with
    | false =>
      show (Store.handle o (w.store.withLog log logIo)).map _ = _
      rw [handle_withLog _ _ _ ho, hcall]
      rfl
    | true =>
      obtain ⟨r, log', logIo', hok, -⟩ := handle_log ho hw
      rw [hcall] at hok
      cases hok
  | .inr (.request kind), herr =>
    have hrun : run Store.handle (launch kind) w.store = .error e := by
      have hmap : (run Store.handle (launch kind) w.store).map _ = _ := herr
      cases hs : run Store.handle (launch kind) w.store with
      | error e' =>
        rw [hs] at hmap
        exact congrArg Except.error (Except.error.inj hmap)
      | ok x =>
        rw [hs] at hmap
        cases hmap
    show (run Store.handle (launch kind) (w.store.withLog log logIo)).map _ = _
    rw [run_withLog _ _ _ (pure_launch kind), hrun]
    rfl
  | .inr .disable, herr => cases herr
  | .inr (.fault f), herr => exact herr

end World.SameRuns

/-- The same result, and worlds that differ in their logs at most, or the same
fault. -/
inductive Alike {α : Type} : Except Fault (α × World) → Except Fault (α × World) → Prop
  | ok (a : α) {w v : World} (same : w.SameRuns v) : Alike (.ok (a, w)) (.ok (a, v))
  | error (e : Fault) : Alike (.error e) (.error e)

namespace Alike

variable {α : Type} {x y z : Except Fault (α × World)}

theorem trans (h : Alike x y) (h' : Alike y z) : Alike x z := by
  cases h with
  | ok a same =>
    cases h' with
    | ok _ same' => exact .ok a (same.trans same')
  | error e => exact h'

theorem eq_error (h : Alike x y) {e : Fault} (hx : x = .error e) : y = .error e := by
  cases h with
  | ok a same => cases hx
  | error e' => exact hx

/-- **Programs run alike** in worlds that differ in their logs at most. -/
theorem of_run (p : Prog ClientSig α) {w v : World} (h : w.SameRuns v) :
    Alike (run World.handle p w) (run World.handle p v) := by
  induction p generalizing w v with
  | ret a => exact .ok a h
  | call o k ih =>
    cases ho : World.handle o w with
    | error e =>
      rw [run_call, run_call, ho, h.handle_error ho]
      exact .error e
    | ok x =>
      obtain ⟨v', hv, hsame⟩ := h.handle ho
      rw [run_call_of_ok ho, run_call_of_ok hv]
      exact ih _ hsame

/-- So does the rest of a compaction, and a program behind it. -/
theorem of_compaction {p : Prog StoreSig Unit} (hp : Pure StoreOp.isLog p)
    (q : Prog ClientSig α) {w v : World} (h : w.SameRuns v) :
    Alike
      ((run Store.handle p w.store).bind fun x => run World.handle q { w with store := x.2 })
      ((run Store.handle p v.store).bind fun x => run World.handle q { v with store := x.2 }) := by
  obtain ⟨hw, log, logIo, rfl, hv⟩ := h
  show Alike _ ((run Store.handle p (w.store.withLog log logIo)).bind _)
  rw [run_withLog _ _ _ hp]
  cases hrun : run Store.handle p w.store with
  | error e => exact .error e
  | ok x =>
    refine of_run q ⟨?_, log, logIo, rfl, hv⟩
    show x.2.log.Ok
    rw [(log_of_run hp hrun).1]
    exact hw

end Alike

namespace Process

variable {α : Type}

/-! ## What is left to happen -/

/-- What is left when the client waits for a compaction: the rest of the one
under way, or all of it, or none, and then the client. -/
def answer (s : Process α) (kind : CompactionKind) (k : Unit → Prog ClientSig α) :
    Except Fault (α × World) :=
  match s.compaction with
  | .compacting _ p =>
    (run Store.handle p s.world.store).bind fun x =>
      run World.handle (k ()) { s.world with store := x.2 }
  | _ =>
    if s.requested kind then run World.handle (request kind >>= k) s.world
    else run World.handle (k ()) s.world

/-- **What is left to happen**, executed sequentially and up to the log: the
calls on the log that are under way change nothing else. -/
def outcome (s : Process α) : Except Fault (α × World) :=
  match s.client with
  | .running p => run World.handle p s.world
  | .waitLog _ k _ => run World.handle (k ()) s.world
  | .joinFlush k => run World.handle (k ()) s.world
  | .waitCompaction kind k _ => s.answer kind k
  | .joinCompaction k => run World.handle (k ()) s.world

theorem answer_of_free {s : Process α} (free : s.latched = false) (kind : CompactionKind)
    (k : Unit → Prog ClientSig α) :
    s.answer kind k = if s.requested kind then run World.handle (request kind >>= k) s.world
      else run World.handle (k ()) s.world := by
  unfold latched at free
  unfold answer
  cases hthread : s.compaction with
  | compacting kind' p =>
    rw [hthread] at free
    cases free
  | _ => rfl

/-- Another log manager leaves the same to happen. -/
theorem Sync.outcome_world {s : Process α} (h : s.Sync) {w : World} (hsame : s.world.SameRuns w) :
    Alike ({ s with world := w } : Process α).outcome s.outcome := by
  have hsame' := hsame.symm
  unfold outcome
  cases hclient : s.client with
  | waitCompaction kind k notified =>
    show Alike (answer _ kind k) (answer _ kind k)
    unfold answer
    cases hthread : s.compaction with
    | compacting kind' p => exact .of_compaction (h.compaction.pure _ _ hthread) _ hsame'
    | _ =>
      dsimp only
      split
      · exact .of_run _ hsame'
      · exact .of_run _ hsame'
  | _ => exact .of_run _ hsame'

theorem Sync.outcome_refl {s : Process α} (h : s.Sync) : Alike s.outcome s.outcome :=
  h.outcome_world (.refl h.log.ok)

theorem outcome_notifyLog (s : Process α) (f : FlushPoint) :
    ({ s with flush := f, client := s.client.notifyLog } : Process α).outcome = s.outcome := by
  unfold outcome
  cases s.client <;> rfl

theorem outcome_notifyCompaction (s : Process α) :
    ({ s with client := s.client.notifyCompaction } : Process α).outcome = s.outcome := by
  unfold outcome
  cases s.client <;> rfl

/-- A thread that rests leaves the same to happen. -/
theorem outcome_rest {s : Process α} (free : s.latched = false) {t : CompactionPoint}
    (rests : ∀ kind p, t ≠ .compacting kind p) :
    ({ s with compaction := t } : Process α).outcome = s.outcome := by
  have free' : ({ s with compaction := t } : Process α).latched = false :=
    latched_of_eq rfl rests
  unfold outcome
  cases s.client with
  | waitCompaction kind k notified =>
    exact (answer_of_free free' kind k).trans (answer_of_free free kind k).symm
  | _ => rfl

/-! ## One action -/

/-- A call on the log changes nothing but the log. -/
theorem alike_prog (what : LogWait) (k : Unit → Prog ClientSig α) {w v : World}
    (h : w.SameRuns v) :
    Alike (run World.handle (k ()) w) (run World.handle (what.prog k) v) := by
  have hcall : ∀ o : StoreOp, o.isLog = true → flushedBy o = [] →
      ∀ k' : StoreSig.Res o → Prog ClientSig α, ∃ r, Alike (run World.handle (k' r) w)
        (run World.handle (.call (S := ClientSig) (.inl o) k') v) := by
    intro o ho hflushed k'
    obtain ⟨r, log, logIo, hok, hlog⟩ := handle_log ho h.symm.1
    have hhandle : World.handleStore o v = .ok (r, v.withLog log logIo) := by
      show (Store.handle o v.store).map _ = _
      rw [hok, hflushed, Except.map, List.append_nil]
      rfl
    refine ⟨r, ?_⟩
    rw [World.run_call_inl hhandle]
    exact .of_run _ (h.trans ⟨h.symm.1, log, logIo, rfl, hlog⟩)
  cases what with
  | room key val => exact (hcall (.appendLogRecord key val) rfl rfl k).choose_spec
  | flush => exact (hcall .flushWAL rfl rfl k).choose_spec
  | stop => exact (hcall .stopFlushThread rfl rfl k).choose_spec

/-- Another log manager makes no difference but in the log. -/
theorem sameRuns_setLog {s : Process α} (h : s.Sync) {log : LogManager} (hok : log.Ok) :
    (s.setLog log).world.SameRuns s.world :=
  ⟨hok, s.log, s.world.store.disk.logIo, rfl, h.log.ok⟩

/-- The client of a flag that is up. -/
theorem Sync.client_of_up {s : Process α} (h : s.Sync) {kind : CompactionKind}
    (hup : s.requested kind = true) : ∃ k, s.client = .waitCompaction kind k false := by
  have hat := (h.compaction.up kind).1 hup
  cases hclient : s.client with
  | waitCompaction kind' k notified =>
    rw [hclient] at hat
    cases hat
    exact ⟨k, rfl⟩
  | _ =>
    rw [hclient] at hat
    cases hat

theorem outcome_of_waitCompaction {s : Process α} {kind : CompactionKind}
    {k : Unit → Prog ClientSig α} {notified : Bool}
    (h : s.client = .waitCompaction kind k notified) : s.outcome = s.answer kind k := by
  rw [outcome, h]

theorem answer_of_compacting {s : Process α} {kind kind' : CompactionKind}
    {k : Unit → Prog ClientSig α} {p : Prog StoreSig Unit}
    (h : s.compaction = .compacting kind' p) :
    s.answer kind k = (run Store.handle p s.world.store).bind fun x =>
      run World.handle (k ()) { s.world with store := x.2 } := by
  rw [answer, h]

/-- **Every effect leaves the same to happen**, up to the log. -/
theorem Sync.turn_outcome {s t : Process α} (h : s.Sync) (ht : Turn s t) :
    Alike t.outcome s.outcome := by
  have hsame : t.outcome = s.outcome → Alike t.outcome s.outcome := by
    intro heq
    rw [heq]
    exact h.outcome_refl
  cases ht with
  | stay => exact h.outcome_refl
  | call runs plain ok =>
    apply hsame
    rw [outcome, outcome, runs]
    exact (World.run_call_inl ok).symm
  | @append key val k runs room =>
    have hspec := LogManager.appendRecord_spec h.log.ok room key val
    rw [outcome, outcome, runs]
    exact alike_prog (.room key val) k (sameRuns_setLog h hspec.1)
  | @ask what k runs asks =>
    rw [outcome, outcome, runs]
    exact alike_prog what k (sameRuns_setLog h h.log.ok.raiseFlush)
  | waitOn waits blocks =>
    apply hsame
    rw [outcome, outcome, waits]
  | @answer what k notified waits free =>
    rw [outcome, outcome, waits]
    cases what with
    | room key val =>
      have hspec := LogManager.appendRecord_spec h.log.ok free key val
      exact .of_run (k ()) (sameRuns_setLog h hspec.1)
    | flush => exact .of_run (k ()) (.refl h.log.ok)
    | stop => exact .of_run (k ()) (.refl h.log.ok)
  | joinFlush joins gone =>
    apply hsame
    rw [outcome, outcome, joins]
  | @request kind k runs free =>
    apply hsame
    have free' : ({ s with
        requested := Function.update s.requested kind true
        compaction := s.compaction.notify
        client := .waitCompaction kind k false } : Process α).latched = false := by
      unfold latched at free ⊢
      cases hthread : s.compaction <;> rw [hthread] at free <;> first | rfl | cases free
    rw [outcome_of_waitCompaction rfl, answer_of_free free', outcome, runs]
    exact if_pos (Function.update_self ..)
  | requestOn waits up =>
    apply hsame
    rw [outcome, outcome, waits]
    rfl
  | returns waits free down =>
    apply hsame
    rw [outcome_of_waitCompaction waits, answer_of_free free, down]
    rfl
  | disable runs =>
    apply hsame
    rw [outcome, outcome, runs]
    rfl
  | joinCompaction joins gone =>
    apply hsame
    rw [outcome, outcome, joins]
  | flushTest tests => exact h.outcome_refl
  | flushWait here down => exact h.outcome_refl
  | flushSection here ok =>
    obtain ⟨log, hok, hsize, hdown, rfl⟩ := flushSection_eq h.log.ok ok
    have hworld := h.outcome_world (w := s.world.withLog log
      (s.world.store.disk.writeLog s.log.pending s.log.pending.length false).logIo)
      ⟨h.log.ok, _, _, rfl, hok⟩
    rw [← outcome_notifyLog _ .test] at hworld
    exact hworld
  | compactionTest tests =>
    apply hsame
    apply outcome_rest (latched_of_eq tests (by simp))
    intro kind p
    split <;> simp
  | compactionWait here free down => exact hsame (outcome_rest free (by simp))
  | compactionLoop here free down =>
    apply hsame
    rw [← outcome_rest free (t := .test) (by simp)]
    exact outcome_notifyCompaction { s with compaction := .test }
  | @launch kind here free up =>
    apply hsame
    obtain ⟨k, hclient⟩ := h.client_of_up (up_of_chosen up)
    rw [outcome_of_waitCompaction hclient, outcome_of_waitCompaction (s := { s with
      compaction := .compacting kind (GhostDB.launch kind) }) hclient, answer_of_compacting rfl,
      answer_of_free free, if_pos (up_of_chosen up), run_bind, World.run_request]
    cases run Store.handle (GhostDB.launch kind) s.world.store <;> rfl
  | @compact kind o k r store runs ok =>
    apply hsame
    obtain ⟨k', hclient⟩ := h.client_of_up (h.compaction.asked _ _ runs)
    have hcall : run Store.handle (.call (S := StoreSig) o k) s.world.store =
        run Store.handle (k r) store := run_call_of_ok ok
    rw [outcome_of_waitCompaction hclient, answer_of_compacting runs, hcall]
    refine Eq.trans (outcome_of_waitCompaction (s := { s with
      world := { s.world with store := store }
      compaction := .compacting kind (k r) }) hclient) ?_
    exact answer_of_compacting rfl
  | @finish kind runs =>
    apply hsame
    obtain ⟨k, hclient⟩ := h.client_of_up (h.compaction.asked _ _ runs)
    have hdone : (s.finishNow kind).client = .waitCompaction kind k true := by
      show s.client.notifyCompaction = _
      rw [hclient]
      rfl
    rw [outcome_of_waitCompaction hclient, answer_of_compacting runs,
      outcome_of_waitCompaction hdone, answer_of_free rfl, finishNow_down h runs]
    rfl

/-- A call to the store fails where the sequential run does. -/
theorem callTurn_error {s : Process α} {o : StoreOp} {k : StoreSig.Res o → Prog ClientSig α}
    (runs : s.client = .running (.call (S := ClientSig) (.inl o) k)) {e : Fault}
    (hturn : s.callTurn o k = .error e) : s.outcome = .error e := by
  have hplain : (World.handleStore o s.world).map (fun x =>
      ({ s with world := x.2, client := .running (k x.1) } : Process α)) = .error e →
      s.outcome = .error e := by
    intro hcall
    cases ho : World.handleStore o s.world with
    | ok x =>
      rw [ho] at hcall
      cases hcall
    | error e' =>
      rw [ho] at hcall
      cases hcall
      rw [outcome, runs]
      exact World.run_call_inl_error ho
  cases o with
  | appendLogRecord key val => cases hturn
  | flushWAL => cases hturn
  | stopFlushThread => cases hturn
  | _ => exact hplain hturn

/-- So does every action of the client; the checks of `StopFlushThread` pass. -/
theorem Sync.clientTurn_error {s : Process α} (h : s.Sync) {spurious : Bool} {e : Fault}
    (hturn : s.clientTurn spurious = .error e) : s.outcome = .error e := by
  unfold clientTurn at hturn
  split at hturn
  next => cases hturn
  next o k hruns => exact callTurn_error hruns hturn
  next => split at hturn <;> cases hturn
  next => cases hturn
  next f k hruns =>
    cases hturn
    rw [outcome, hruns]
    rfl
  next =>
    split at hturn
    next => split at hturn <;> cases hturn
    next => cases hturn
  next k hjoins =>
    have hempty := (h.log_of hjoins rfl).drained rfl
    rw [if_neg (not_not.2 hempty), if_neg (not_not.2 h.log.ok.flushed)] at hturn
    split at hturn <;> cases hturn
  next =>
    split at hturn
    next => cases hturn
    next =>
      split at hturn
      next => split at hturn <;> cases hturn
      next => cases hturn
  next => split at hturn <;> cases hturn

/-- No action of the flush thread fails. -/
theorem Sync.flushTurn_ok {s : Process α} (h : s.Sync) (wake : Wake) :
    ∃ t, s.flushTurn wake = .ok t := by
  obtain ⟨t, hsection⟩ := flushSection_ok h.log.ok
  have hlook : ∃ t, s.flushLook = .ok t := by
    rw [flushLook]
    split
    · exact ⟨t, hsection⟩
    · exact ⟨_, rfl⟩
  unfold flushTurn
  cases s.flush with
  | test => exact ⟨_, rfl⟩
  | lock => exact hlook
  | waiting notified =>
    cases wake with
    | timeout => exact ⟨t, hsection⟩
    | spurious => exact hlook
    | notified =>
      cases notified with
      | true => exact hlook
      | false => exact ⟨_, rfl⟩
  | exited => exact ⟨_, rfl⟩

/-- An action of the compaction thread fails where the sequential run does. -/
theorem Sync.compactionTurn_error {s : Process α} (h : s.Sync) {wake : Wake} {e : Fault}
    (hturn : s.compactionTurn wake = .error e) : s.outcome = .error e := by
  unfold compactionTurn at hturn
  split at hturn
  next => cases hturn
  next => cases hturn
  next => cases wake <;> cases hturn
  next kind o k hruns =>
    obtain ⟨k', hclient⟩ := h.client_of_up (h.compaction.asked _ _ hruns)
    cases ho : Store.handle o s.world.store with
    | ok x =>
      rw [ho] at hturn
      cases hturn
    | error e' =>
      rw [ho] at hturn
      cases hturn
      rw [outcome_of_waitCompaction hclient, answer_of_compacting hruns, run_call, ho]
      rfl
  next => cases hturn
  next => cases hturn

/-- **An action fails** where the sequential run does. -/
theorem Sync.step_error {s : Process α} (h : s.Sync) {a : ProcessAction} {e : Fault}
    (hstep : step a s = .error e) : s.outcome = .error e := by
  cases a with
  | client spurious => exact h.clientTurn_error hstep
  | flush wake =>
    obtain ⟨t, hok⟩ := h.flushTurn_ok wake
    have hturn : s.flushTurn wake = .error e := hstep
    rw [hok] at hturn
    cases hturn
  | compaction wake => exact h.compactionTurn_error hstep

/-! ## Every interleaving -/

/-- **Every interleaving** keeps the invariant and the same to happen, and fails
only if the sequential run does. -/
theorem interleavings {w : World} (hok : w.store.log.Ok)
    (hcalm : w.store.log.requestFlush = false) {requested : CompactionKind → Bool}
    (hflags : ∀ kind, requested kind = false) (p : Prog ClientSig α)
    (schedule : List ProcessAction) :
    (∀ s, Schedule.run step schedule (start w requested p) = .ok s →
      s.Sync ∧ Alike s.outcome (run World.handle p w)) ∧
    ∀ e, Schedule.run step schedule (start w requested p) = .error e →
      run World.handle p w = .error e := by
  have hstart : (start w requested p).Sync ∧
      Alike (start w requested p).outcome (run World.handle p w) :=
    ⟨⟨.start hok hcalm, .start hflags⟩, .of_run p (.refl hok)⟩
  have hstep : ∀ (a : ProcessAction) (s t : Process α),
      s.Sync ∧ Alike s.outcome (run World.handle p w) → step a s = .ok t →
      t.Sync ∧ Alike t.outcome (run World.handle p w) := by
    intro a s t h hact
    have hturn := step_turn hact
    exact ⟨h.1.turn hturn, (h.1.turn_outcome hturn).trans h.2⟩
  constructor
  · intro s hrun
    exact Schedule.run_invariant hstep hstart hrun
  · intro e hrun
    obtain ⟨a, s, hs, herr⟩ := Schedule.run_error hstep hstart hrun
    exact hs.2.eq_error (hs.1.step_error herr)

/-- A done client has its result, and the store of its sequential run. -/
theorem run_of_done {w : World} {p : Prog ClientSig α} {s : Process α} {a : α}
    (halike : Alike s.outcome (run World.handle p w)) (hdone : s.client = .running (.ret a)) :
    ∃ v, run World.handle p w = .ok (a, v) ∧ s.world.SameRuns v := by
  have hleft : s.outcome = .ok (a, s.world) := by
    rw [outcome, hdone]
    rfl
  rw [hleft] at halike
  generalize run World.handle p w = x at halike
  cases halike with
  | ok _ hsame => exact ⟨_, rfl, hsame⟩

/-- **The process of one client is sequential.**  However a client, the flush
thread and the compaction thread take turns, with spurious wakeups and timeouts
at any time: a compaction runs only while the client waits for one of its kind;
a wait of the client is over only when its own request was answered; a client
that is done has the result and, up to the log, the store of `World.handle`,
where every call and every request is answered at once; and the process fails
only if that run does. -/
theorem process_agrees {w : World} (hok : w.store.log.Ok)
    (hcalm : w.store.log.requestFlush = false) {requested : CompactionKind → Bool}
    (hflags : ∀ kind, requested kind = false) (p : Prog ClientSig α)
    (schedule : List ProcessAction) :
    (∀ s, Schedule.run step schedule (start w requested p) = .ok s →
      (∀ kind q, s.compaction = .compacting kind q →
        ∃ k, s.client = .waitCompaction kind k false) ∧
      (∀ what k notified, s.client = .waitLog what k notified →
        (what.Blocks s.log ↔ notified = false)) ∧
      (∀ kind k notified, s.client = .waitCompaction kind k notified →
        (s.requested kind = true ↔ notified = false)) ∧
      ∀ a, s.client = .running (.ret a) →
        ∃ v, run World.handle p w = .ok (a, v) ∧ s.world.SameRuns v) ∧
    ∀ e, Schedule.run step schedule (start w requested p) = .error e →
      run World.handle p w = .error e := by
  refine ⟨?_, (interleavings hok hcalm hflags p schedule).2⟩
  intro s hrun
  obtain ⟨hsync, halike⟩ := (interleavings hok hcalm hflags p schedule).1 s hrun
  refine ⟨?_, ?_, ?_, ?_⟩
  · intro kind q hcompacts
    exact hsync.client_of_up (hsync.compaction.asked kind q hcompacts)
  · intro what k notified hwaits
    exact (hsync.log_of hwaits rfl).blocks_iff
  · intro kind k notified hwaits
    exact (hsync.compaction_of hwaits rfl).up_iff
  · intro a hdone
    exact run_of_done halike hdone

/-- A client of an empty store that logs a record and asks for a major
compaction. -/
theorem process_agrees_major :
    ∃ s : Process Unit, Schedule.run step
      [.client false, .flush .notified, .client false, .compaction .notified,
        .compaction .notified, .flush .timeout, .compaction .notified, .compaction .notified,
        .client false]
      (start ⟨Store.empty, []⟩ (fun _ => false)
        (onStore (appendLogRecord 1 2) >>= fun _ => requestMajorCompaction)) = .ok s ∧
      ∃ v, run World.handle (onStore (appendLogRecord 1 2) >>= fun _ => requestMajorCompaction)
        ⟨Store.empty, []⟩ = .ok ((), v) ∧ s.world.SameRuns v := by
  obtain ⟨s, hrun, hdone⟩ : ∃ s : Process Unit, Schedule.run step
      [.client false, .flush .notified, .client false, .compaction .notified,
        .compaction .notified, .flush .timeout, .compaction .notified, .compaction .notified,
        .client false]
      (start ⟨Store.empty, []⟩ (fun _ => false)
        (onStore (appendLogRecord 1 2) >>= fun _ => requestMajorCompaction)) = .ok s ∧
      s.client = .running (.ret ()) := ⟨_, rfl, rfl⟩
  refine ⟨s, hrun, ?_⟩
  obtain ⟨-, -, -, hresult⟩ :=
    (process_agrees LogManager.ok_init rfl (fun _ => rfl) _ _).1 s hrun
  exact hresult () hdone

end Process

end GhostDB
