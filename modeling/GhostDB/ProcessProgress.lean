import GhostDB.ProcessTurns

/-!
# The process gets on

No wakeup is lost: however the client, the flush thread and the compaction
thread take turns, as long as each of them gets its turns again and again the
client ends.  No wait needs to be interrupted for that, and none needs to time
out but those of the threads that are told to end, which nobody notifies.

* `Process.waitLog_over`, `Process.waitCompaction_over` — who waits for a thread
  is answered, wherever the thread is.
* `Process.joinFlush_over`, `Process.joinCompaction_over` — a thread that was
  told to end does, at the latest when its wait has timed out.
* `Process.leadsTo_done` — the client ends, by induction on the rest of its
  program; `process_terminates` says so in terms of the sequential run.
* `Process.join_needs_timeout` — without those timeouts nothing gets the client
  on.
-/

namespace GhostDB

open Prog

namespace Process

variable {α : Type} {timed : Bool} {post : Bool → Bool → Prop}

/-! ## The flush thread answers -/

theorem setClient_self {s : Process α} {c : ProcessClient α} (hc : s.client = c) :
    ({ s with client := c } : Process α) = s := by
  rw [← hc]

/-- Who waits for the flush thread waits until it is notified. -/
theorem stuck_waitLog {what : LogWait} {k : Unit → Prog ClientSig α} {spurious : Bool}
    {s t : Process α} (hat : ClientAt timed post (.waitLog what k false) s)
    (hturn : s.clientTurn spurious = .ok t) : t = s := by
  have hblocks := (hat.1.sync.log_of hat.2 rfl).blocks_of_waits
  simp only [clientTurn, hat.2, if_pos hblocks, setClient_self hat.2, ite_self] at hturn
  exact (Except.ok.inj hturn).symm

/-- A section of the flush thread notifies who waits for it. -/
theorem notified_of_section {what : LogWait} {k : Unit → Prog ClientSig α} {s t : Process α}
    (hat : ClientAt timed post (.waitLog what k false) s) (ok : s.flushSection = .ok t) :
    t.client = .waitLog what k true := by
  obtain ⟨log, -, -, -, rfl⟩ := flushSection_eq hat.1.sync.log.ok ok
  show s.client.notifyLog = _
  rw [hat.2]
  rfl

theorem notified_of_look {what : LogWait} {k : Unit → Prog ClientSig α} {s t : Process α}
    (hat : ClientAt timed post (.waitLog what k false) s) (ok : s.flushLook = .ok t) :
    t.client = .waitLog what k true := by
  have hup : s.log.requestFlush = true := (hat.1.sync.log_of hat.2 rfl).up.2 ⟨what, rfl⟩
  rw [flushLook, if_pos hup] at ok
  exact notified_of_section hat ok

/-- **The flush thread notifies who waits for it**, from wherever it is: it does
not wait without a notification, and it is not gone. -/
theorem waitLog_notified (what : LogWait) (k : Unit → Prog ClientSig α) :
    Schedule.LeadsTo step (turns timed) (ClientAt timed post (.waitLog what k false))
      (ClientAt timed post (.waitLog what k true)) := by
  have hlock : Schedule.LeadsTo step (turns timed)
      (fun s => ClientAt timed post (.waitLog what k false) s ∧ s.flush = .lock)
      (ClientAt timed post (.waitLog what k true)) := by
    refine flush_turn rfl .lock (fun _ _ _ hat _ => stuck_waitLog hat) ?_
    intro wake s t hat hpoint hturn
    rw [flushTurn, hpoint] at hturn
    exact notified_of_look hat hturn
  have htest : Schedule.LeadsTo step (turns timed)
      (fun s => ClientAt timed post (.waitLog what k false) s ∧ s.flush = .test)
      (fun s => ClientAt timed post (.waitLog what k false) s ∧ s.flush = .lock) := by
    refine (flush_turn rfl .test (fun _ _ _ hat _ => stuck_waitLog hat)
      (Q := fun t => t.client = .waitLog what k false ∧ t.flush = .lock) ?_).imp_right
      fun s hs => ⟨⟨hs.1, hs.2.1⟩, hs.2.2⟩
    intro wake s t hat hpoint hturn
    have henabled : s.enableLogging = true := (hat.1.orderly_of hat.2).1
    simp only [flushTurn, hpoint, henabled, if_true] at hturn
    cases hturn
    exact ⟨hat.2, rfl⟩
  have hwaiting : Schedule.LeadsTo step (turns timed)
      (fun s => ClientAt timed post (.waitLog what k false) s ∧ s.flush = .waiting true)
      (ClientAt timed post (.waitLog what k true)) := by
    refine flush_turn rfl (.waiting true) (fun _ _ _ hat _ => stuck_waitLog hat) ?_
    intro wake s t hat hpoint hturn
    rw [flushTurn, hpoint] at hturn
    cases wake with
    | timeout => exact notified_of_section hat hturn
    | spurious => exact notified_of_look hat hturn
    | notified => exact notified_of_look hat hturn
  refine Schedule.LeadsTo.imp_left ?_ ((htest.trans hlock).or (hlock.or hwaiting))
  intro s hat
  have hlog := hat.1.sync.log_of hat.2 rfl
  cases hpoint : s.flush with
  | test => exact .inl ⟨hat, rfl⟩
  | lock => exact .inr (.inl ⟨hat, rfl⟩)
  | waiting notified =>
    cases notified with
    | true => exact .inr (.inr ⟨hat, rfl⟩)
    | false =>
      have hdown := hlog.noticed hpoint
      rw [hlog.up.2 ⟨what, rfl⟩] at hdown
      cases hdown
  | exited =>
    have hdisabled := hlog.exits hpoint
    rw [(hat.1.orderly_of hat.2).1] at hdisabled
    cases hdisabled

/-- Where a call on the log goes on behind its wait. -/
def afterLog (what : LogWait) (k : Unit → Prog ClientSig α) : ProcessClient α :=
  match what with
  | .stop => .joinFlush k
  | _ => .running (k ())

/-- **A call on the log** gets behind its wait. -/
theorem waitLog_over (what : LogWait) (k : Unit → Prog ClientSig α) :
    Schedule.LeadsTo step (turns timed) (ClientAt timed post (.waitLog what k false))
      (ClientAt timed post (afterLog what k)) := by
  refine (waitLog_notified what k).trans ?_
  refine client_turn rfl rfl ?_
  intro spurious s t hat hturn
  have hfree := (hat.1.sync.log_of hat.2 rfl).not_blocks_of_notified
  simp only [clientTurn, hat.2, Bool.true_or, if_true, if_neg hfree] at hturn
  cases hturn
  cases what <;> rfl

/-! ## The flush thread ends -/

/-- Who waits for the end of the flush thread waits until it is gone. -/
theorem stuck_joinFlush {k : Unit → Prog ClientSig α} {spurious : Bool} {s t : Process α}
    (hat : ClientAt timed post (.joinFlush k) s) (hhere : s.flush ≠ .exited)
    (hturn : s.clientTurn spurious = .ok t) : t = s := by
  simp only [clientTurn, hat.2] at hturn
  exact (Except.ok.inj hturn).symm

/-- It has nothing left to do then. -/
theorem Sync.down_of_joinFlush {s : Process α} (h : s.Sync) {k : Unit → Prog ClientSig α}
    (hclient : s.client = .joinFlush k) : s.log.requestFlush = false :=
  (h.log_of hclient rfl).down_of_ne (by simp)

/-- A waiting flush thread goes on waiting while the client waits for its end and
its wait does not time out. -/
theorem Sync.joinFlush_step {s t : Process α} (h : s.Sync) {k : Unit → Prog ClientSig α}
    (hclient : s.client = .joinFlush k) (hwaits : ∃ notified, s.flush = .waiting notified)
    {a : ProcessAction} (ha : a ≠ .flush .timeout) (hstep : step a s = .ok t) :
    t.client = .joinFlush k ∧ ∃ notified, t.flush = .waiting notified := by
  obtain ⟨notified, hpoint⟩ := hwaits
  have hdown := h.down_of_joinFlush hclient
  cases a with
  | client spurious =>
    simp only [step, clientTurn, hclient, hpoint] at hstep
    cases hstep
    exact ⟨hclient, _, hpoint⟩
  | flush wake =>
    cases wake with
    | timeout => exact absurd rfl ha
    | spurious =>
      simp only [step, flushTurn, hpoint, flushLook, hdown] at hstep
      cases hstep
      exact ⟨hclient, _, rfl⟩
    | notified =>
      cases notified with
      | true =>
        simp only [step, flushTurn, hpoint, flushLook, hdown, if_true] at hstep
        cases hstep
        exact ⟨hclient, _, rfl⟩
      | false =>
        simp only [step, flushTurn, hpoint, Bool.false_eq_true, if_false] at hstep
        cases hstep
        exact ⟨hclient, _, hpoint⟩
  | compaction wake =>
    obtain ⟨hflush, heq⟩ := compactionTurn_frame hstep
    refine ⟨?_, notified, hflush.trans hpoint⟩
    rcases heq with heq | heq
    · exact heq.trans hclient
    · rw [heq, hclient]
      rfl

/-- A section of the flush thread leaves the client where it is. -/
theorem joinFlush_of_section {k : Unit → Prog ClientSig α} {s t : Process α}
    (hat : ClientAt timed post (.joinFlush k) s) (ok : s.flushSection = .ok t) :
    t.client = .joinFlush k ∧ t.flush = .test := by
  obtain ⟨log, -, -, -, rfl⟩ := flushSection_eq hat.1.sync.log.ok ok
  refine ⟨?_, rfl⟩
  show s.client.notifyLog = _
  rw [hat.2]
  rfl

/-- **The flush thread ends**, at the latest when its wait has timed out. -/
theorem joinFlush_over (htimed : timed = true) (k : Unit → Prog ClientSig α) :
    Schedule.LeadsTo step (turns timed) (ClientAt timed post (.joinFlush k))
      (ClientAt timed post (.running (k ()))) := by
  have hexited : Schedule.LeadsTo step (turns timed)
      (fun s => ClientAt timed post (.joinFlush k) s ∧ s.flush = .exited)
      (ClientAt timed post (.running (k ()))) := by
    refine client_phase rfl rfl (P := fun s => s.flush = .exited) ?_ ?_ ?_
    · intro wake s t _ hgone hturn
      rw [flushTurn, hgone] at hturn
      cases hturn
      exact hgone
    · intro wake s t _ hgone hturn
      exact (compactionTurn_frame hturn).1.trans hgone
    · intro spurious s t hat hgone hturn
      have hlog := hat.1.sync.log_of hat.2 rfl
      simp only [clientTurn, hat.2, hgone, hlog.drained rfl, hlog.ok.flushed, ne_eq,
        not_true_eq_false, if_false] at hturn
      cases hturn
      rfl
  have htest : Schedule.LeadsTo step (turns timed)
      (fun s => ClientAt timed post (.joinFlush k) s ∧ s.flush = .test)
      (fun s => ClientAt timed post (.joinFlush k) s ∧ s.flush = .exited) := by
    refine (flush_turn rfl .test (fun _ _ _ hat hpoint =>
        stuck_joinFlush hat (by simp [hpoint]))
      (Q := fun t => t.client = .joinFlush k ∧ t.flush = .exited) ?_).imp_right
      fun s hs => ⟨⟨hs.1, hs.2.1⟩, hs.2.2⟩
    intro wake s t hat hpoint hturn
    have hdisabled := (hat.1.sync.log_of hat.2 rfl).joins rfl
    simp only [flushTurn, hpoint, hdisabled, Bool.false_eq_true, if_false] at hturn
    cases hturn
    exact ⟨hat.2, rfl⟩
  have hwaiting : Schedule.LeadsTo step (turns timed)
      (fun s => ClientAt timed post (.joinFlush k) s ∧ ∃ notified, s.flush = .waiting notified)
      (fun s => ClientAt timed post (.joinFlush k) s ∧ s.flush = .test) := by
    refine (flush_phase rfl (P := fun point => ∃ notified, point = .waiting notified)
      (flushTimeout_mem htimed) (by rintro a rfl; exact ⟨_, rfl⟩) ?_
      (Q := fun t => t.client = .joinFlush k ∧ t.flush = .test) ?_ ?_).imp_right
      fun s hs => ⟨⟨hs.1, hs.2.1⟩, hs.2.2⟩
    · rintro spurious s t hat ⟨notified, hpoint⟩
      exact stuck_joinFlush hat (by simp [hpoint])
    · rintro wake s t hat ⟨notified, hpoint⟩ hturn
      by_cases hwake : wake = .timeout
      · rw [flushTurn, hpoint, hwake] at hturn
        exact .inr (joinFlush_of_section hat hturn)
      · exact .inl (hat.1.sync.joinFlush_step hat.2 ⟨notified, hpoint⟩ (a := .flush wake)
          (by simpa using hwake) hturn)
    · rintro wake s t hmine hat ⟨notified, hpoint⟩ hturn
      cases hmine
      rw [flushTurn, hpoint] at hturn
      exact joinFlush_of_section hat hturn
  have hlock : Schedule.LeadsTo step (turns timed)
      (fun s => ClientAt timed post (.joinFlush k) s ∧ s.flush = .lock)
      (fun s => ClientAt timed post (.joinFlush k) s ∧
        ∃ notified, s.flush = .waiting notified) := by
    refine (flush_turn rfl .lock (fun _ _ _ hat hpoint =>
        stuck_joinFlush hat (by simp [hpoint]))
      (Q := fun t => t.client = .joinFlush k ∧ ∃ notified, t.flush = .waiting notified)
      ?_).imp_right fun s hs => ⟨⟨hs.1, hs.2.1⟩, hs.2.2⟩
    intro wake s t hat hpoint hturn
    rw [flushTurn, hpoint] at hturn
    simp only [flushLook, hat.1.sync.down_of_joinFlush hat.2] at hturn
    cases hturn
    exact ⟨hat.2, _, rfl⟩
  have hleave := hwaiting.trans (htest.trans hexited)
  refine Schedule.LeadsTo.imp_left ?_
    ((hlock.trans hleave).or (hleave.or ((htest.trans hexited).or hexited)))
  intro s hat
  cases hpoint : s.flush with
  | lock => exact .inl ⟨hat, rfl⟩
  | waiting notified => exact .inr (.inl ⟨hat, notified, rfl⟩)
  | test => exact .inr (.inr (.inl ⟨hat, rfl⟩))
  | exited => exact .inr (.inr (.inr ⟨hat, rfl⟩))

/-! ## The compaction thread answers -/

/-- Who waits for a compaction waits until it is notified. -/
theorem stuck_waitCompaction {kind : CompactionKind} {k : Unit → Prog ClientSig α}
    {spurious : Bool} {s t : Process α} (hat : ClientAt timed post (.waitCompaction kind k false) s)
    (hturn : s.clientTurn spurious = .ok t) : t = s := by
  have hup := (hat.1.sync.compaction_of hat.2 rfl).up_iff.2 rfl
  simp only [clientTurn, hat.2, if_pos hup, setClient_self hat.2, ite_self] at hturn
  exact (Except.ok.inj hturn).symm

/-- The compaction thread launches what is waited for. -/
theorem compacting_of_look {kind : CompactionKind} {k : Unit → Prog ClientSig α}
    {s idle t : Process α} (hat : ClientAt timed post (.waitCompaction kind k false) s)
    (hlook : s.compactionLook idle = t) :
    t.client = .waitCompaction kind k false ∧ t.compaction = .compacting kind (launch kind) := by
  have hup := (hat.1.sync.compaction_of hat.2 rfl).up_iff.2 rfl
  rw [compactionLook] at hlook
  cases hchosen : s.chosen with
  | none =>
    rw [down_of_chosen hchosen kind] at hup
    cases hup
  | some kind' =>
    obtain ⟨k', hclient⟩ := hat.1.sync.client_of_up (up_of_chosen hchosen)
    rw [hat.2] at hclient
    cases hclient
    rw [hchosen] at hlook
    cases hlook
    exact ⟨hat.2, rfl⟩

/-- **A compaction under way ends** and notifies who waits for it. -/
theorem compacting_notified (kind : CompactionKind) (k : Unit → Prog ClientSig α)
    (p : Prog StoreSig Unit) :
    Schedule.LeadsTo step (turns timed)
      (fun s => ClientAt timed post (.waitCompaction kind k false) s ∧
        s.compaction = .compacting kind p)
      (ClientAt timed post (.waitCompaction kind k true)) := by
  induction p with
  | ret u =>
    refine compaction_turn rfl (.compacting kind (.ret u))
      (fun _ _ _ hat _ => stuck_waitCompaction hat) ?_
    intro wake s t hat hpoint hturn
    rw [compactionTurn, hpoint] at hturn
    cases hturn
    show s.client.notifyCompaction = _
    rw [hat.2]
    rfl
  | call o q ih =>
    have hgo : Schedule.LeadsTo step (turns timed)
        (fun s => ClientAt timed post (.waitCompaction kind k false) s ∧
          s.compaction = .compacting kind (.call o q))
        (fun s => ∃ r, ClientAt timed post (.waitCompaction kind k false) s ∧
          s.compaction = .compacting kind (q r)) := by
      refine (compaction_turn rfl (.compacting kind (.call o q))
        (fun _ _ _ hat _ => stuck_waitCompaction hat)
        (Q := fun t => ∃ r, t.client = .waitCompaction kind k false ∧
          t.compaction = .compacting kind (q r)) ?_).imp_right
        fun s ⟨hs, r, hc, hr⟩ => ⟨r, ⟨hs, hc⟩, hr⟩
      intro wake s t hat hpoint hturn
      rw [compactionTurn, hpoint] at hturn
      cases ho : Store.handle o s.world.store with
      | error e =>
        simp only [ho] at hturn
        cases hturn
      | ok x =>
        simp only [ho] at hturn
        cases hturn
        exact ⟨x.1, hat.2, rfl⟩
    exact hgo.trans (.of_exists ih)

/-- **The compaction thread answers a request**, from wherever it is. -/
theorem waitCompaction_notified (kind : CompactionKind) (k : Unit → Prog ClientSig α) :
    Schedule.LeadsTo step (turns timed) (ClientAt timed post (.waitCompaction kind k false))
      (ClientAt timed post (.waitCompaction kind k true)) := by
  have hcompacting := @compacting_notified α timed post kind k
  have hlock : Schedule.LeadsTo step (turns timed)
      (fun s => ClientAt timed post (.waitCompaction kind k false) s ∧ s.compaction = .lock)
      (ClientAt timed post (.waitCompaction kind k true)) := by
    refine Schedule.LeadsTo.trans (compaction_turn rfl .lock
      (fun _ _ _ hat _ => stuck_waitCompaction hat)
      (Q := fun t => t.client = .waitCompaction kind k false ∧
        t.compaction = .compacting kind (launch kind)) ?_)
      (.imp_left (fun s hs => ⟨⟨hs.1, hs.2.1⟩, hs.2.2⟩) (hcompacting (launch kind)))
    intro wake s t hat hpoint hturn
    rw [compactionTurn, hpoint] at hturn
    exact compacting_of_look hat (Except.ok.inj hturn)
  have hwaiting : Schedule.LeadsTo step (turns timed)
      (fun s => ClientAt timed post (.waitCompaction kind k false) s ∧ s.compaction = .waiting true)
      (ClientAt timed post (.waitCompaction kind k true)) := by
    refine Schedule.LeadsTo.trans (compaction_turn rfl (.waiting true)
      (fun _ _ _ hat _ => stuck_waitCompaction hat)
      (Q := fun t => t.client = .waitCompaction kind k false ∧
        t.compaction = .compacting kind (launch kind)) ?_)
      (.imp_left (fun s hs => ⟨⟨hs.1, hs.2.1⟩, hs.2.2⟩) (hcompacting (launch kind)))
    intro wake s t hat hpoint hturn
    rw [compactionTurn, hpoint] at hturn
    cases wake with
    | timeout => exact compacting_of_look hat (Except.ok.inj hturn)
    | spurious => exact compacting_of_look hat (Except.ok.inj hturn)
    | notified => exact compacting_of_look hat (Except.ok.inj hturn)
  have htest : Schedule.LeadsTo step (turns timed)
      (fun s => ClientAt timed post (.waitCompaction kind k false) s ∧ s.compaction = .test)
      (fun s => ClientAt timed post (.waitCompaction kind k false) s ∧ s.compaction = .lock) := by
    refine (compaction_turn rfl .test (fun _ _ _ hat _ => stuck_waitCompaction hat)
      (Q := fun t => t.client = .waitCompaction kind k false ∧ t.compaction = .lock)
      ?_).imp_right fun s hs => ⟨⟨hs.1, hs.2.1⟩, hs.2.2⟩
    intro wake s t hat hpoint hturn
    have henabled : s.enableCompaction = true := (hat.1.orderly_of hat.2).1
    simp only [compactionTurn, hpoint, henabled, if_true] at hturn
    cases hturn
    exact ⟨hat.2, rfl⟩
  refine Schedule.LeadsTo.imp_left ?_
    ((htest.trans hlock).or (hlock.or (hwaiting.or (.of_exists hcompacting))))
  intro s hat
  have hcompaction := hat.1.sync.compaction_of hat.2 rfl
  cases hpoint : s.compaction with
  | test => exact .inl ⟨hat, rfl⟩
  | lock => exact .inr (.inl ⟨hat, rfl⟩)
  | waiting notified =>
    cases notified with
    | true => exact .inr (.inr (.inl ⟨hat, rfl⟩))
    | false =>
      have hdown := hcompaction.noticed hpoint kind
      rw [hcompaction.up_iff.2 rfl] at hdown
      cases hdown
  | compacting kind' p =>
    obtain ⟨k', hclient⟩ := hat.1.sync.client_of_up (hcompaction.asked kind' p hpoint)
    rw [hat.2] at hclient
    cases hclient
    exact .inr (.inr (.inr ⟨p, hat, rfl⟩))
  | exited =>
    have hdisabled := hcompaction.exits hpoint
    rw [(hat.1.orderly_of hat.2).1] at hdisabled
    cases hdisabled

/-- **A request** returns. -/
theorem waitCompaction_over (kind : CompactionKind) (k : Unit → Prog ClientSig α) :
    Schedule.LeadsTo step (turns timed) (ClientAt timed post (.waitCompaction kind k false))
      (ClientAt timed post (.running (k ()))) := by
  refine (waitCompaction_notified kind k).trans ?_
  refine client_turn rfl rfl ?_
  intro spurious s t hat hturn
  have hcompaction := hat.1.sync.compaction_of hat.2 rfl
  have hfree : s.latched = false := latched_of_eq rfl (hcompaction.not_compacting (by simp))
  have hdown : ¬ s.requested kind = true := by simp [hcompaction.up_iff]
  simp only [clientTurn, hat.2, hfree, Bool.false_eq_true, if_false, Bool.true_or, if_true,
    if_neg hdown] at hturn
  cases hturn
  rfl

/-! ## The compaction thread ends -/

/-- Who waits for the end of the compaction thread waits until it is gone. -/
theorem stuck_joinCompaction {k : Unit → Prog ClientSig α} {spurious : Bool} {s t : Process α}
    (hat : ClientAt timed post (.joinCompaction k) s) (hhere : s.compaction ≠ .exited)
    (hturn : s.clientTurn spurious = .ok t) : t = s := by
  simp only [clientTurn, hat.2] at hturn
  exact (Except.ok.inj hturn).symm

/-- It has nothing left to do then. -/
theorem Sync.look_of_joinCompaction {s idle : Process α} (h : s.Sync)
    {k : Unit → Prog ClientSig α} (hclient : s.client = .joinCompaction k) :
    s.compactionLook idle = idle := by
  have hdown := (h.compaction_of hclient rfl).down_of_ne (by simp)
  rw [compactionLook, chosen, hdown, hdown]
  rfl

/-- A waiting compaction thread goes on waiting while the client waits for its
end and its wait does not time out. -/
theorem Sync.joinCompaction_step {s t : Process α} (h : s.Sync) {k : Unit → Prog ClientSig α}
    (hclient : s.client = .joinCompaction k) (hwaits : ∃ notified, s.compaction = .waiting notified)
    {a : ProcessAction} (ha : a ≠ .compaction .timeout) (hstep : step a s = .ok t) :
    t.client = .joinCompaction k ∧ ∃ notified, t.compaction = .waiting notified := by
  obtain ⟨notified, hpoint⟩ := hwaits
  have hlook : ∀ idle, s.compactionLook idle = idle := fun _ => h.look_of_joinCompaction hclient
  cases a with
  | client spurious =>
    simp only [step, clientTurn, hclient, hpoint] at hstep
    cases hstep
    exact ⟨hclient, _, hpoint⟩
  | flush wake =>
    obtain ⟨hcompaction, heq⟩ := h.flushTurn_frame hstep
    refine ⟨?_, notified, hcompaction.trans hpoint⟩
    rcases heq with heq | heq
    · exact heq.trans hclient
    · rw [heq, hclient]
      rfl
  | compaction wake =>
    cases wake with
    | timeout => exact absurd rfl ha
    | spurious =>
      simp only [step, compactionTurn, hpoint, hlook] at hstep
      cases hstep
      exact ⟨hclient, _, rfl⟩
    | notified =>
      simp only [step, compactionTurn, hpoint, hlook] at hstep
      cases hstep
      cases notified with
      | true => exact ⟨hclient, _, rfl⟩
      | false => exact ⟨hclient, _, hpoint⟩

/-- **The compaction thread ends**, at the latest when its wait has timed out. -/
theorem joinCompaction_over (htimed : timed = true) (k : Unit → Prog ClientSig α) :
    Schedule.LeadsTo step (turns timed) (ClientAt timed post (.joinCompaction k))
      (ClientAt timed post (.running (k ()))) := by
  have hexited : Schedule.LeadsTo step (turns timed)
      (fun s => ClientAt timed post (.joinCompaction k) s ∧ s.compaction = .exited)
      (ClientAt timed post (.running (k ()))) := by
    refine client_phase rfl rfl (P := fun s => s.compaction = .exited) ?_ ?_ ?_
    · intro wake s t hat hgone hturn
      exact (hat.1.sync.flushTurn_frame hturn).1.trans hgone
    · intro wake s t _ hgone hturn
      rw [compactionTurn, hgone] at hturn
      cases hturn
      exact hgone
    · intro spurious s t hat hgone hturn
      simp only [clientTurn, hat.2, hgone] at hturn
      cases hturn
      rfl
  have htest : Schedule.LeadsTo step (turns timed)
      (fun s => ClientAt timed post (.joinCompaction k) s ∧ s.compaction = .test)
      (fun s => ClientAt timed post (.joinCompaction k) s ∧ s.compaction = .exited) := by
    refine (compaction_turn rfl .test (fun _ _ _ hat hpoint =>
        stuck_joinCompaction hat (by simp [hpoint]))
      (Q := fun t => t.client = .joinCompaction k ∧ t.compaction = .exited) ?_).imp_right
      fun s hs => ⟨⟨hs.1, hs.2.1⟩, hs.2.2⟩
    intro wake s t hat hpoint hturn
    have hdisabled := (hat.1.sync.compaction_of hat.2 rfl).joins rfl
    simp only [compactionTurn, hpoint, hdisabled, Bool.false_eq_true, if_false] at hturn
    cases hturn
    exact ⟨hat.2, rfl⟩
  have hwaiting : Schedule.LeadsTo step (turns timed)
      (fun s => ClientAt timed post (.joinCompaction k) s ∧
        ∃ notified, s.compaction = .waiting notified)
      (fun s => ClientAt timed post (.joinCompaction k) s ∧ s.compaction = .test) := by
    have htimeout : ∀ s t notified, ClientAt timed post (.joinCompaction k) s →
        s.compaction = .waiting notified → s.compactionTurn .timeout = .ok t →
        t.client = .joinCompaction k ∧ t.compaction = .test := by
      intro s t notified hat hpoint hturn
      simp only [compactionTurn, hpoint, hat.1.sync.look_of_joinCompaction hat.2] at hturn
      cases hturn
      refine ⟨?_, rfl⟩
      show s.client.notifyCompaction = _
      rw [hat.2]
      rfl
    refine (compaction_phase rfl (P := fun point => ∃ notified, point = .waiting notified)
      (compactionTimeout_mem htimed) (by rintro a rfl; exact ⟨_, rfl⟩) ?_
      (Q := fun t => t.client = .joinCompaction k ∧ t.compaction = .test) ?_ ?_).imp_right
      fun s hs => ⟨⟨hs.1, hs.2.1⟩, hs.2.2⟩
    · rintro spurious s t hat ⟨notified, hpoint⟩
      exact stuck_joinCompaction hat (by simp [hpoint])
    · rintro wake s t hat ⟨notified, hpoint⟩ hturn
      by_cases hwake : wake = .timeout
      · rw [hwake] at hturn
        exact .inr (htimeout s t notified hat hpoint hturn)
      · exact .inl (hat.1.sync.joinCompaction_step hat.2 ⟨notified, hpoint⟩
          (a := .compaction wake) (by simpa using hwake) hturn)
    · rintro wake s t hmine hat ⟨notified, hpoint⟩ hturn
      cases hmine
      exact htimeout s t notified hat hpoint hturn
  have hlock : Schedule.LeadsTo step (turns timed)
      (fun s => ClientAt timed post (.joinCompaction k) s ∧ s.compaction = .lock)
      (fun s => ClientAt timed post (.joinCompaction k) s ∧
        ∃ notified, s.compaction = .waiting notified) := by
    refine (compaction_turn rfl .lock (fun _ _ _ hat hpoint =>
        stuck_joinCompaction hat (by simp [hpoint]))
      (Q := fun t => t.client = .joinCompaction k ∧ ∃ notified, t.compaction = .waiting notified)
      ?_).imp_right fun s hs => ⟨⟨hs.1, hs.2.1⟩, hs.2.2⟩
    intro wake s t hat hpoint hturn
    simp only [compactionTurn, hpoint, hat.1.sync.look_of_joinCompaction hat.2] at hturn
    cases hturn
    exact ⟨hat.2, _, rfl⟩
  have hleave := hwaiting.trans (htest.trans hexited)
  refine Schedule.LeadsTo.imp_left ?_
    ((hlock.trans hleave).or (hleave.or ((htest.trans hexited).or hexited)))
  intro s hat
  cases hpoint : s.compaction with
  | lock => exact .inl ⟨hat, rfl⟩
  | waiting notified => exact .inr (.inl ⟨hat, notified, rfl⟩)
  | test => exact .inr (.inr (.inl ⟨hat, rfl⟩))
  | exited => exact .inr (.inr (.inr ⟨hat, rfl⟩))
  | compacting kind p =>
    exact absurd hpoint ((hat.1.sync.compaction_of hat.2 rfl).not_compacting (by simp) kind p)

/-! ## Every program ends -/

/-- The client has ended. -/
def Done (timed : Bool) (post : Bool → Bool → Prop) (s : Process α) : Prop :=
  s.Steady timed post ∧ ∃ a, s.client = .running (.ret a)

/-- Who waits for the end of a thread may rely on timeouts. -/
theorem leadsTo_of_timed {c : ProcessClient α} {Q : Process α → Prop}
    (hc : ∀ s : Process α, ClientAt timed post c s → timed = true)
    (h : timed = true → Schedule.LeadsTo step (turns timed) (ClientAt timed post c) Q) :
    Schedule.LeadsTo step (turns timed) (ClientAt timed post c) Q := by
  intro x hfair n hn
  exact h (hc _ hn) x hfair n hn

/-- A call on the log ends if what is behind it does. -/
theorem done_of_logCall (what : LogWait) {k : Unit → Prog ClientSig α}
    (hrest : Schedule.LeadsTo step (turns timed) (ClientAt timed post (.running (k ())))
      (Done timed post)) :
    Schedule.LeadsTo step (turns timed) (ClientAt timed post (.running (what.prog k)))
      (Done timed post) := by
  have hjoin : Schedule.LeadsTo step (turns timed) (ClientAt timed post (.joinFlush k))
      (ClientAt timed post (.running (k ()))) :=
    leadsTo_of_timed (fun s hat => (hat.1.orderly_of hat.2).1) fun h => joinFlush_over h k
  have hafter : Schedule.LeadsTo step (turns timed) (ClientAt timed post (afterLog what k))
      (Done timed post) := by
    cases what with
    | stop => exact hjoin.trans hrest
    | _ => exact hrest
  have hcall : Schedule.LeadsTo step (turns timed) (ClientAt timed post (.running (what.prog k)))
      (fun s => ClientAt timed post (.waitLog what k false) s ∨
        ClientAt timed post (afterLog what k) s) := by
    refine (client_turn rfl rfl
      (Q := fun t => t.client = .waitLog what k false ∨ t.client = afterLog what k) ?_).imp_right
      fun s hs => hs.2.imp (fun hc => ⟨hs.1, hc⟩) fun hc => ⟨hs.1, hc⟩
    intro spurious s t hat hturn
    have hlogCall : s.clientTurn spurious = .ok (s.logCall what k) := by
      rw [clientTurn, hat.2]
      cases what <;> rfl
    rw [hlogCall] at hturn
    cases hturn
    rw [logCall]
    split
    · exact .inl rfl
    · cases what <;> exact .inr rfl
  exact hcall.trans (((waitLog_over what k).trans hafter).or hafter)

/-- A call that does not wait ends if what is behind it does. -/
theorem done_of_call {o : StoreOp} {k : StoreSig.Res o → Prog ClientSig α}
    (plain : ∀ what : LogWait, o ≠ what.op)
    (hrest : ∀ r, Schedule.LeadsTo step (turns timed) (ClientAt timed post (.running (k r)))
      (Done timed post)) :
    Schedule.LeadsTo step (turns timed)
      (ClientAt timed post (.running (.call (S := ClientSig) (.inl o) k))) (Done timed post) := by
  refine Schedule.LeadsTo.trans ((client_turn rfl rfl
    (Q := fun t => ∃ r, t.client = .running (k r)) ?_).imp_right
    fun s ⟨hs, r, hc⟩ => ⟨r, hs, hc⟩) (.of_exists hrest)
  intro spurious s t hat hturn
  have hcall : s.clientTurn spurious = (World.handleStore o s.world).map fun x =>
      { s with world := x.2, client := .running (k x.1) } := by
    rw [clientTurn, hat.2]
    cases o with
    | appendLogRecord key val => exact absurd rfl (plain (.room key val))
    | flushWAL => exact absurd rfl (plain .flush)
    | stopFlushThread => exact absurd rfl (plain .stop)
    | _ => rfl
  rw [hcall] at hturn
  cases ho : World.handleStore o s.world with
  | error e =>
    rw [ho] at hturn
    cases hturn
  | ok x =>
    rw [ho] at hturn
    cases hturn
    exact ⟨x.1, rfl⟩

/-- **Every orderly program ends**: in an execution that gives everyone its
turns, the client ends, by induction on the rest of its program. -/
theorem leadsTo_done (p : Prog ClientSig α) :
    Schedule.LeadsTo step (turns timed) (ClientAt timed post (.running p)) (Done timed post) := by
  induction p with
  | ret a => exact .of_imp fun s hat => ⟨hat.1, a, hat.2⟩
  | call o k ih =>
    match o, k, ih with
    | .inl o, k, ih =>
      cases o with
      | appendLogRecord key val => exact done_of_logCall (.room key val) (ih ())
      | flushWAL => exact done_of_logCall .flush (ih ())
      | stopFlushThread => exact done_of_logCall .stop (ih ())
      | _ => exact done_of_call (by intro what; cases what <;> simp [LogWait.op]) ih
    | .inr (.request kind), k, ih =>
      refine (client_turn rfl rfl (Q := fun t => t.client = .waitCompaction kind k false)
        ?_).trans ((waitCompaction_over kind k).trans (ih ()))
      intro spurious s t hat hturn
      have hfree : s.latched = false :=
        latched_of_eq rfl ((hat.1.sync.compaction_of hat.2 rfl).not_compacting (by simp))
      simp only [clientTurn, hat.2, hfree, Bool.false_eq_true, if_false] at hturn
      cases hturn
      rfl
    | .inr .disable, k, ih =>
      refine (client_turn rfl rfl (Q := fun t => t.client = .joinCompaction k) ?_).trans
        (Schedule.LeadsTo.trans ?_ (ih ()))
      · intro spurious s t hat hturn
        simp only [clientTurn, hat.2] at hturn
        cases hturn
        rfl
      · exact leadsTo_of_timed (fun s hat => (hat.1.orderly_of hat.2).1) fun h =>
          joinCompaction_over h k
    | .inr (.fault f), k, ih =>
      -- the client's turn fails, so there is no such execution
      refine (client_turn rfl rfl (Q := fun _ => False) ?_).imp_right fun s hs => hs.2.elim
      intro spurious s t hat hturn
      simp only [clientTurn, hat.2] at hturn
      cases hturn

/-- An orderly program stays in order. -/
theorem steady_of_run {w : World} (hok : w.store.log.Ok)
    (hcalm : w.store.log.requestFlush = false) {requested : CompactionKind → Bool}
    (hflags : ∀ kind, requested kind = false) {p : Prog ClientSig α}
    (horderly : Orderly timed post p true true) {schedule : List ProcessAction} {s : Process α}
    (hrun : Schedule.run step schedule (start w requested p) = .ok s) : s.Steady timed post := by
  have hstart : (start w requested p).Steady timed post :=
    ⟨⟨.start hok hcalm, .start hflags⟩, horderly⟩
  exact Schedule.run_invariant (fun _ _ _ h hstep => Steady.step h hstep) hstart hrun

/-- When the sequential run ends, turns for everyone get the client to its end. -/
theorem exists_done {w : World} (hok : w.store.log.Ok)
    (hcalm : w.store.log.requestFlush = false) {requested : CompactionKind → Bool}
    (hflags : ∀ kind, requested kind = false) {p : Prog ClientSig α}
    (horderly : Orderly timed post p true true) {a : α} {v : World}
    (hrun : run World.handle p w = .ok (a, v)) {actions : Nat → ProcessAction}
    (hfair : ∀ c ∈ turns timed, ∀ n, ∃ m, n ≤ m ∧ actions m ∈ c) :
    ∃ n s, Schedule.run step ((List.range n).map actions) (start w requested p) = .ok s ∧
      s.Steady timed post ∧ s.client = .running (.ret a) ∧ s.world.SameRuns v := by
  have htotal : ∀ schedule, ∃ s, Schedule.run step schedule (start w requested p) = .ok s := by
    intro schedule
    cases hs : Schedule.run step schedule (start w requested p) with
    | ok s => exact ⟨s, rfl⟩
    | error e =>
      rw [(interleavings hok hcalm hflags p schedule).2 e hs] at hrun
      cases hrun
  obtain ⟨x, hstart, rfl⟩ := Schedule.Execution.exists_of_total htotal actions
  have hat : ClientAt timed post (.running p) (x.state 0) := by
    rw [hstart]
    exact ⟨⟨⟨.start hok hcalm, .start hflags⟩, horderly⟩, rfl⟩
  obtain ⟨n, -, hsteady, a', hdone⟩ := leadsTo_done p x hfair 0 hat
  have htake := x.run_take n
  rw [hstart] at htake
  obtain ⟨-, halike⟩ := (interleavings hok hcalm hflags p _).1 _ htake
  obtain ⟨v', hrun', hsame⟩ := run_of_done halike hdone
  rw [hrun] at hrun'
  cases hrun'
  exact ⟨n, x.state n, htake, hsteady, hdone, hsame⟩

/-- A thread that was told to end is gone when the client is done. -/
theorem Steady.gone {s : Process α} (h : s.Steady timed post) {a : α}
    (hdone : s.client = .running (.ret a)) :
    post s.enableLogging s.enableCompaction ∧
      (s.enableLogging = false → s.flush = .exited) ∧
      (s.enableCompaction = false → s.compaction = .exited) := by
  refine ⟨h.orderly_of hdone, ?_, ?_⟩
  · intro hdisabled
    exact ((h.sync.log_of hdone rfl).gone hdisabled).resolve_left (by simp)
  · intro hdisabled
    exact ((h.sync.compaction_of hdone rfl).gone hdisabled).resolve_left (by simp)

/-- **No wakeup is lost.**  When a client's program is in order and its
sequential run ends with `a`, every order of turns that gives the client and the
two threads theirs again and again brings the client to its end with `a`, the
store being that of the sequential run, up to the log; and a thread that was
told to end is gone.  Timeouts are needed only if the program tells a thread to
end, spurious wakeups never. -/
theorem process_terminates {w : World} (hok : w.store.log.Ok)
    (hcalm : w.store.log.requestFlush = false) {requested : CompactionKind → Bool}
    (hflags : ∀ kind, requested kind = false) {p : Prog ClientSig α}
    (horderly : Orderly timed post p true true) {a : α} {v : World}
    (hrun : run World.handle p w = .ok (a, v)) {actions : Nat → ProcessAction}
    (hfair : ∀ c ∈ turns timed, ∀ n, ∃ m, n ≤ m ∧ actions m ∈ c) :
    ∃ n s, Schedule.run step ((List.range n).map actions) (start w requested p) = .ok s ∧
      s.client = .running (.ret a) ∧ s.world.SameRuns v ∧
      post s.enableLogging s.enableCompaction ∧
      (s.enableLogging = false → s.flush = .exited) ∧
      (s.enableCompaction = false → s.compaction = .exited) := by
  obtain ⟨n, s, htake, hsteady, hdone, hsame⟩ :=
    exists_done hok hcalm hflags horderly hrun hfair
  exact ⟨n, s, htake, hdone, hsame, hsteady.gone hdone⟩

/-- Turns in rotation, with the timeouts. -/
def rotation (n : Nat) : ProcessAction :=
  match n % 5 with
  | 0 => .client false
  | 1 => .flush .notified
  | 2 => .compaction .notified
  | 3 => .flush .timeout
  | _ => .compaction .timeout

/-- Everyone has its turn in it again and again. -/
theorem rotation_fair (timed : Bool) :
    ∀ c ∈ turns timed, ∀ n, ∃ m, n ≤ m ∧ rotation m ∈ c := by
  have hat : ∀ i n, rotation (5 * n + i) = rotation i := by
    intro i n
    rw [rotation, rotation, Nat.mul_add_mod]
  rintro c (rfl | rfl | rfl | ⟨-, rfl | rfl⟩) n
  · exact ⟨5 * n + 0, by omega, false, hat 0 n⟩
  · exact ⟨5 * n + 1, by omega, .notified, hat 1 n⟩
  · exact ⟨5 * n + 2, by omega, .notified, hat 2 n⟩
  · exact ⟨5 * n + 3, by omega, hat 3 n⟩
  · exact ⟨5 * n + 4, by omega, hat 4 n⟩

/-- A client that logs a record, asks for a major compaction of an empty store
and ends both threads. -/
theorem process_terminates_once :
    ∃ n s, Schedule.run step ((List.range n).map rotation)
        (start ⟨Store.empty, []⟩ (fun _ => false) (onStore (appendLogRecord 1 2) >>= fun _ =>
          requestMajorCompaction >>= fun _ => disableCompaction >>= fun _ =>
            onStore stopFlushThread)) = .ok s ∧
      s.client = .running (.ret ()) ∧ s.flush = .exited ∧ s.compaction = .exited := by
  have horderly : Orderly true (fun logging compaction => logging = false ∧ compaction = false)
      (onStore (appendLogRecord 1 2) >>= fun _ => requestMajorCompaction >>= fun _ =>
        disableCompaction >>= fun _ => onStore stopFlushThread) true true :=
    ⟨fun _ => rfl, by simp [StoreOp.isStop], fun _ => ⟨rfl, fun _ => ⟨rfl, fun _ =>
      ⟨fun _ => rfl, fun _ => rfl, fun _ => ⟨rfl, rfl⟩⟩⟩⟩⟩
  obtain ⟨v, hrun⟩ : ∃ v, run World.handle (onStore (appendLogRecord 1 2) >>= fun _ =>
      requestMajorCompaction >>= fun _ => disableCompaction >>= fun _ =>
        onStore stopFlushThread) ⟨Store.empty, []⟩ = .ok ((), v) := ⟨_, rfl⟩
  obtain ⟨n, s, htake, hdone, -, ⟨hlogging, hcompaction⟩, hflush, hcompacted⟩ :=
    process_terminates LogManager.ok_init rfl (fun _ => rfl) horderly hrun (rotation_fair true)
  exact ⟨n, s, htake, hdone, hflush hlogging, hcompacted hcompaction⟩

/-! ## What nobody notifies -/

/-- **The end of a thread waits for a timeout.**  Once the client waits for the
end of a thread that is in its own wait, nothing gets the client on, whatever
the order of turns and however often the wait is interrupted, but a timeout of
that wait: whoever tells the thread to end does not notify it. -/
theorem join_needs_timeout {w : World} (hok : w.store.log.Ok)
    (hcalm : w.store.log.requestFlush = false) {requested : CompactionKind → Bool}
    (hflags : ∀ kind, requested kind = false) {p : Prog ClientSig α}
    {before after : List ProcessAction} {s t : Process α}
    (hbefore : Schedule.run step before (start w requested p) = .ok s)
    (hafter : Schedule.run step after s = .ok t) :
    (∀ k, s.client = .joinCompaction k → (∃ notified, s.compaction = .waiting notified) →
      .compaction .timeout ∉ after → t.client = .joinCompaction k) ∧
    ∀ k, s.client = .joinFlush k → (∃ notified, s.flush = .waiting notified) →
      .flush .timeout ∉ after → t.client = .joinFlush k := by
  have hsync := ((interleavings hok hcalm hflags p before).1 s hbefore).1
  constructor
  · intro k hclient hwaits hnever
    have hstep : ∀ a ∈ after, ∀ u v : Process α,
        (u.Sync ∧ u.client = .joinCompaction k ∧ ∃ notified, u.compaction = .waiting notified) →
        step a u = .ok v →
        v.Sync ∧ v.client = .joinCompaction k ∧ ∃ notified, v.compaction = .waiting notified := by
      rintro a ha u v ⟨hu, hc, hp⟩ hact
      have hne : a ≠ .compaction .timeout := fun heq => hnever (heq ▸ ha)
      exact ⟨hu.turn (step_turn hact), hu.joinCompaction_step hc hp hne hact⟩
    exact (Schedule.run_invariant_mem hstep ⟨hsync, hclient, hwaits⟩ hafter).2.1
  · intro k hclient hwaits hnever
    have hstep : ∀ a ∈ after, ∀ u v : Process α,
        (u.Sync ∧ u.client = .joinFlush k ∧ ∃ notified, u.flush = .waiting notified) →
        step a u = .ok v →
        v.Sync ∧ v.client = .joinFlush k ∧ ∃ notified, v.flush = .waiting notified := by
      rintro a ha u v ⟨hu, hc, hp⟩ hact
      have hne : a ≠ .flush .timeout := fun heq => hnever (heq ▸ ha)
      exact ⟨hu.turn (step_turn hact), hu.joinFlush_step hc hp hne hact⟩
    exact (Schedule.run_invariant_mem hstep ⟨hsync, hclient, hwaits⟩ hafter).2.1

/-- A client that ends the compaction thread of an empty store while it waits. -/
theorem join_needs_timeout_once :
    ∃ s t : Process Unit,
      Schedule.run step [.compaction .notified, .compaction .notified, .client false]
        (start ⟨Store.empty, []⟩ (fun _ => false) disableCompaction) = .ok s ∧
      Schedule.run step [.compaction .spurious, .flush .timeout, .client true] s = .ok t ∧
      t.client = .joinCompaction .ret := by
  obtain ⟨s, t, hs, ht, hclient, hwaits⟩ : ∃ s t : Process Unit,
      Schedule.run step [.compaction .notified, .compaction .notified, .client false]
        (start ⟨Store.empty, []⟩ (fun _ => false) disableCompaction) = .ok s ∧
      Schedule.run step [.compaction .spurious, .flush .timeout, .client true] s = .ok t ∧
      s.client = .joinCompaction .ret ∧ s.compaction = .waiting false :=
    ⟨_, _, rfl, rfl, rfl, rfl⟩
  refine ⟨s, t, hs, ht, ?_⟩
  exact (join_needs_timeout LogManager.ok_init rfl (fun _ => rfl) hs ht).1 .ret hclient
    ⟨_, hwaits⟩ (by simp)

end Process

end GhostDB
