import GhostDB.ProcessAgreement
import GhostDB.Library.Progress

/-!
# Turns

Who has to get a turn for a process to get on, and what one turn leaves alone.

* `Orderly` — the programs that ask no thread that was told to end;
  `Process.Steady` — the invariant, with the rest of the program in order.
* `Process.turns` — who gets turns again and again.
* `Process.client_phase`, `Process.flush_phase`, `Process.compaction_phase` — one
  step of progress, of the client, the flush thread or the compaction thread.
-/

namespace GhostDB

open Prog

/-! ## Orderly programs -/

/-- Does the flush thread have to answer the call? -/
def StoreOp.asksFlush : StoreOp → Bool
  | .appendLogRecord _ _ => true
  | .flushWAL => true
  | .stopFlushThread => true
  | _ => false

/-- Does the call tell the flush thread to end? -/
def StoreOp.isStop : StoreOp → Bool
  | .stopFlushThread => true
  | _ => false

/-- A program that asks no thread that was told to end, and tells one to end
only if waits may time out (`timed`).  `post` is what it leaves of
`enable_logging_` and `enable_compaction_`. -/
def Orderly {α : Type} (timed : Bool) (post : Bool → Bool → Prop) :
    Prog ClientSig α → Bool → Bool → Prop
  | .ret _, logging, compaction => post logging compaction
  | .call (.inl o) k, logging, compaction =>
    (o.asksFlush = true → logging = true) ∧ (o.isStop = true → timed = true) ∧
      ∀ r, Orderly timed post (k r) (logging && !o.isStop) compaction
  | .call (.inr (.request _)) k, logging, compaction =>
    compaction = true ∧ ∀ r, Orderly timed post (k r) logging compaction
  | .call (.inr .disable) k, logging, _ =>
    timed = true ∧ ∀ r, Orderly timed post (k r) logging false
  | .call (.inr (.fault _)) _, _, _ => True

/-- Does the call tell a thread to end? -/
def ClientSig.ends : ClientSig.Op → Bool
  | .inl o => o.isStop
  | .inr .disable => true
  | .inr _ => false

namespace Orderly

variable {α β : Type} {timed : Bool} {post : Bool → Bool → Prop}

/-- **A program that ends no thread** is in order, and so is what follows it. -/
theorem bind_of_pure {p : Prog ClientSig α} {f : α → Prog ClientSig β}
    (hp : Pure ClientSig.ends p) (hf : ∀ a, Orderly timed post (f a) true true) :
    Orderly timed post (p >>= f) true true := by
  induction p with
  | ret a => exact hf a
  | call o k ih =>
    match o, k, hp, ih with
    | .inl o, k, hp, ih =>
      have hstop : o.isStop = false := hp.1
      refine ⟨fun _ => rfl, ?_, ?_⟩
      · intro hends
        rw [hstop] at hends
        cases hends
      · intro r
        rw [hstop]
        exact ih r (hp.2 r)
    | .inr (.request kind), k, hp, ih => exact ⟨rfl, fun r => ih r (hp.2 r)⟩
    | .inr .disable, k, hp, ih => cases hp.1
    | .inr (.fault f), k, hp, ih => trivial

theorem of_pure {p : Prog ClientSig α} (hp : Pure ClientSig.ends p) (hpost : post true true) :
    Orderly timed post p true true := by
  rw [← bind_ret p]
  exact bind_of_pure hp fun _ => hpost

theorem of_logWait {what : LogWait} {k : Unit → Prog ClientSig α} {logging compaction : Bool}
    (h : Orderly timed post (what.prog k) logging compaction) :
    logging = true ∧ (what = .stop → timed = true) ∧
      Orderly timed post (k ()) (decide (what ≠ .stop)) compaction := by
  cases what with
  | room key val =>
    obtain ⟨hasks, -, hrest⟩ := h
    obtain rfl := hasks rfl
    exact ⟨rfl, by simp, hrest ()⟩
  | flush =>
    obtain ⟨hasks, -, hrest⟩ := h
    obtain rfl := hasks rfl
    exact ⟨rfl, by simp, hrest ()⟩
  | stop =>
    obtain ⟨hasks, hstop, hrest⟩ := h
    obtain rfl := hasks rfl
    exact ⟨rfl, fun _ => hstop rfl, hrest ()⟩

end Orderly

/-- The rest of the client's program is in order. -/
def ProcessClient.OrderlyAt {α : Type} (timed : Bool) (post : Bool → Bool → Prop)
    (logging compaction : Bool) : ProcessClient α → Prop
  | running p => Orderly timed post p logging compaction
  | waitLog what k _ =>
    logging = true ∧ (what = .stop → timed = true) ∧
      Orderly timed post (k ()) (decide (what ≠ .stop)) compaction
  | joinFlush k => timed = true ∧ Orderly timed post (k ()) logging compaction
  | waitCompaction _ k _ => compaction = true ∧ Orderly timed post (k ()) logging compaction
  | joinCompaction k => timed = true ∧ Orderly timed post (k ()) logging compaction

namespace Process

variable {α : Type} {timed : Bool} {post : Bool → Bool → Prop}

/-- The invariant, with the client's program in order. -/
structure Steady (timed : Bool) (post : Bool → Bool → Prop) (s : Process α) : Prop where
  sync : s.Sync
  orderly : s.client.OrderlyAt timed post s.enableLogging s.enableCompaction

theorem Steady.orderly_of {s : Process α} (h : s.Steady timed post) {c : ProcessClient α}
    (hc : s.client = c) : c.OrderlyAt timed post s.enableLogging s.enableCompaction :=
  hc ▸ h.orderly

theorem orderlyAt_notifyLog {c : ProcessClient α} {logging compaction : Bool}
    (h : c.OrderlyAt timed post logging compaction) :
    c.notifyLog.OrderlyAt timed post logging compaction := by
  cases c <;> exact h

theorem orderlyAt_notifyCompaction {c : ProcessClient α} {logging compaction : Bool}
    (h : c.OrderlyAt timed post logging compaction) :
    c.notifyCompaction.OrderlyAt timed post logging compaction := by
  cases c <;> exact h

/-- **Every effect keeps the program in order.** -/
theorem Steady.turn {s t : Process α} (h : s.Steady timed post) (ht : Turn s t) :
    t.Steady timed post := by
  refine ⟨h.sync.turn ht, ?_⟩
  cases ht with
  | stay => exact h.orderly
  | @call o k r world runs plain ok =>
    have hprog := h.orderly_of runs
    have hstop : o.isStop = false := by
      cases o with
      | stopFlushThread => exact absurd rfl (plain .stop)
      | _ => rfl
    have hrest := hprog.2.2 r
    rw [hstop, Bool.not_false, Bool.and_true] at hrest
    exact hrest
  | append runs room =>
    obtain ⟨hlogging, -, hrest⟩ := (h.orderly_of runs).of_logWait
    show Orderly timed post _ s.enableLogging s.enableCompaction
    rw [hlogging]
    exact hrest
  | ask runs asks => exact (h.orderly_of runs).of_logWait
  | waitOn waits blocks =>
    have hclient := h.orderly_of waits
    exact hclient
  | @answer what k notified waits free =>
    obtain ⟨hlogging, hstop, hrest⟩ := h.orderly_of waits
    cases what with
    | stop => exact ⟨hstop rfl, hrest⟩
    | _ =>
      show Orderly timed post _ s.enableLogging s.enableCompaction
      rw [hlogging]
      exact hrest
  | joinFlush joins gone => exact (h.orderly_of joins).2
  | request runs free =>
    obtain ⟨hcompaction, hrest⟩ := h.orderly_of runs
    exact ⟨hcompaction, hrest ()⟩
  | requestOn waits up =>
    have hclient := h.orderly_of waits
    exact hclient
  | returns waits free down => exact (h.orderly_of waits).2
  | disable runs =>
    obtain ⟨htimed, hrest⟩ := h.orderly_of runs
    exact ⟨htimed, hrest ()⟩
  | joinCompaction joins gone => exact (h.orderly_of joins).2
  | flushSection here ok =>
    obtain ⟨log, -, -, -, rfl⟩ := flushSection_eq h.sync.log.ok ok
    exact orderlyAt_notifyLog h.orderly
  | compactionLoop here free down => exact orderlyAt_notifyCompaction h.orderly
  | finish runs => exact orderlyAt_notifyCompaction h.orderly
  | _ => exact h.orderly

theorem Steady.step {s t : Process α} (h : s.Steady timed post) {a : ProcessAction}
    (hstep : step a s = .ok t) : t.Steady timed post := h.turn (step_turn hstep)

/-! ## Turns -/

/-- The turns of the client. -/
def clientTurns : Set ProcessAction := {a | ∃ spurious, a = .client spurious}

/-- The turns of the flush thread. -/
def flushTurns : Set ProcessAction := {a | ∃ wake, a = .flush wake}

/-- The turns of the compaction thread. -/
def compactionTurns : Set ProcessAction := {a | ∃ wake, a = .compaction wake}

/-- Who gets turns: the client and the two threads, and if `timed`, the waits of
the threads time out. -/
def turns (timed : Bool) : Set (Set ProcessAction) :=
  {c | c = clientTurns ∨ c = flushTurns ∨ c = compactionTurns ∨
    timed = true ∧ (c = {.flush .timeout} ∨ c = {.compaction .timeout})}

theorem clientTurns_mem : clientTurns ∈ turns timed := .inl rfl

theorem flushTurns_mem : flushTurns ∈ turns timed := .inr (.inl rfl)

theorem compactionTurns_mem : compactionTurns ∈ turns timed := .inr (.inr (.inl rfl))

theorem flushTimeout_mem (h : timed = true) : {.flush .timeout} ∈ turns timed :=
  .inr (.inr (.inr ⟨h, .inl rfl⟩))

theorem compactionTimeout_mem (h : timed = true) : {.compaction .timeout} ∈ turns timed :=
  .inr (.inr (.inr ⟨h, .inr rfl⟩))

/-! ## What a turn leaves alone -/

/-- A turn of the flush thread, seen from the rest of the process. -/
theorem Sync.flushTurn_frame {s t : Process α} (h : s.Sync) {wake : Wake}
    (hturn : s.flushTurn wake = .ok t) :
    t.compaction = s.compaction ∧ (t.client = s.client ∨ t.client = s.client.notifyLog) := by
  have hsection : s.flushSection = .ok t →
      t.compaction = s.compaction ∧ (t.client = s.client ∨ t.client = s.client.notifyLog) := by
    intro ok
    obtain ⟨log, -, -, -, rfl⟩ := flushSection_eq h.log.ok ok
    exact ⟨rfl, .inr rfl⟩
  have hlook : s.flushLook = .ok t →
      t.compaction = s.compaction ∧ (t.client = s.client ∨ t.client = s.client.notifyLog) := by
    intro ok
    rw [flushLook] at ok
    split at ok
    · exact hsection ok
    · cases ok
      exact ⟨rfl, .inl rfl⟩
  unfold flushTurn at hturn
  split at hturn
  next => cases hturn; exact ⟨rfl, .inl rfl⟩
  next => exact hlook hturn
  next notified _ =>
    cases wake with
    | timeout => exact hsection hturn
    | spurious => exact hlook hturn
    | notified =>
      cases notified with
      | true => exact hlook hturn
      | false => cases hturn; exact ⟨rfl, .inl rfl⟩
  next => cases hturn; exact ⟨rfl, .inl rfl⟩

/-- A turn of the compaction thread, seen from the rest of the process. -/
theorem compactionTurn_frame {s t : Process α} {wake : Wake}
    (hturn : s.compactionTurn wake = .ok t) :
    t.flush = s.flush ∧ (t.client = s.client ∨ t.client = s.client.notifyCompaction) := by
  have hlook : ∀ {idle : Process α}, s.compactionLook idle = t → idle.flush = s.flush →
      (idle.client = s.client ∨ idle.client = s.client.notifyCompaction) →
      t.flush = s.flush ∧ (t.client = s.client ∨ t.client = s.client.notifyCompaction) := by
    intro idle hl hflush hclient
    rw [compactionLook] at hl
    split at hl
    · cases hl
      exact ⟨rfl, .inl rfl⟩
    · cases hl
      exact ⟨hflush, hclient⟩
  unfold compactionTurn at hturn
  split at hturn
  next => cases hturn; exact ⟨rfl, .inl rfl⟩
  next => exact hlook (Except.ok.inj hturn) rfl (.inl rfl)
  next notified _ =>
    cases wake with
    | timeout => exact hlook (Except.ok.inj hturn) rfl (.inr rfl)
    | spurious => exact hlook (Except.ok.inj hturn) rfl (.inl rfl)
    | notified =>
      cases notified with
      | true => exact hlook (Except.ok.inj hturn) rfl (.inl rfl)
      | false => cases hturn; exact ⟨rfl, .inl rfl⟩
  next kind o k hruns =>
    cases ho : Store.handle o s.world.store with
    | error e => rw [ho] at hturn; cases hturn
    | ok x =>
      rw [ho] at hturn
      cases hturn
      exact ⟨rfl, .inl rfl⟩
  next => cases hturn; exact ⟨rfl, .inr rfl⟩
  next => cases hturn; exact ⟨rfl, .inl rfl⟩

/-- The client is at `c`. -/
def ClientAt (timed : Bool) (post : Bool → Bool → Prop) (c : ProcessClient α) (s : Process α) :
    Prop :=
  s.Steady timed post ∧ s.client = c

/-- **A phase of the client**: the threads leave it where it is, whatever they
do, and each of its turns moves it on. -/
theorem client_phase {c : ProcessClient α} (hlog : c.notifyLog = c)
    (hcompaction : c.notifyCompaction = c) {P Q : Process α → Prop}
    (hflush : ∀ wake s t, ClientAt timed post c s → P s → s.flushTurn wake = .ok t → P t)
    (hcompact : ∀ wake s t, ClientAt timed post c s → P s → s.compactionTurn wake = .ok t → P t)
    (helps : ∀ spurious s t, ClientAt timed post c s → P s → s.clientTurn spurious = .ok t → Q t) :
    Schedule.LeadsTo step (turns timed) (fun s => ClientAt timed post c s ∧ P s)
      (fun s => s.Steady timed post ∧ Q s) := by
  refine Schedule.LeadsTo.ensures clientTurns_mem ?_ ?_
  · rintro a s t ⟨⟨hsteady, hc⟩, hP⟩ hstep
    have hsteady' := hsteady.step hstep
    cases a with
    | client spurious => exact .inr ⟨hsteady', helps spurious s t ⟨hsteady, hc⟩ hP hstep⟩
    | flush wake =>
      refine .inl ⟨⟨hsteady', ?_⟩, hflush wake s t ⟨hsteady, hc⟩ hP hstep⟩
      rcases (hsteady.sync.flushTurn_frame hstep).2 with heq | heq
      · rw [heq, hc]
      · rw [heq, hc, hlog]
    | compaction wake =>
      refine .inl ⟨⟨hsteady', ?_⟩, hcompact wake s t ⟨hsteady, hc⟩ hP hstep⟩
      rcases (compactionTurn_frame hstep).2 with heq | heq
      · rw [heq, hc]
      · rw [heq, hc, hcompaction]
  · rintro a ⟨spurious, rfl⟩ s t ⟨hat, hP⟩ hstep
    exact ⟨hat.1.step hstep, helps spurious s t hat hP hstep⟩

/-- **A phase of the flush thread**: the client is stuck at `c`, and the thread
goes on from one of the points `P`. -/
theorem flush_phase {c : ProcessClient α} (hcompaction : c.notifyCompaction = c)
    {P : FlushPoint → Prop} {Q : Process α → Prop} {turn : Set ProcessAction}
    (hturn : turn ∈ turns timed) (hmine : ∀ a ∈ turn, ∃ wake, a = .flush wake)
    (hstuck : ∀ spurious s t, ClientAt timed post c s → P s.flush →
      s.clientTurn spurious = .ok t → t = s)
    (keeps : ∀ wake s t, ClientAt timed post c s → P s.flush → s.flushTurn wake = .ok t →
      (t.client = c ∧ P t.flush) ∨ Q t)
    (helps : ∀ wake s t, .flush wake ∈ turn → ClientAt timed post c s → P s.flush →
      s.flushTurn wake = .ok t → Q t) :
    Schedule.LeadsTo step (turns timed) (fun s => ClientAt timed post c s ∧ P s.flush)
      (fun s => s.Steady timed post ∧ Q s) := by
  refine Schedule.LeadsTo.ensures hturn ?_ ?_
  · rintro a s t ⟨hat, hP⟩ hstep
    have hsteady := hat.1.step hstep
    cases a with
    | client spurious =>
      obtain rfl := hstuck spurious s t hat hP hstep
      exact .inl ⟨hat, hP⟩
    | flush wake =>
      rcases keeps wake s t hat hP hstep with ⟨hc, hP'⟩ | hQ
      · exact .inl ⟨⟨hsteady, hc⟩, hP'⟩
      · exact .inr ⟨hsteady, hQ⟩
    | compaction wake =>
      obtain ⟨hflush, hclient⟩ := compactionTurn_frame hstep
      refine .inl ⟨⟨hsteady, ?_⟩, hflush ▸ hP⟩
      rcases hclient with heq | heq
      · rw [heq, hat.2]
      · rw [heq, hat.2, hcompaction]
  · rintro a ha s t ⟨hat, hP⟩ hstep
    obtain ⟨wake, rfl⟩ := hmine a ha
    exact ⟨hat.1.step hstep, helps wake s t ha hat hP hstep⟩

/-- **A phase of the compaction thread**, in the same way. -/
theorem compaction_phase {c : ProcessClient α} (hlog : c.notifyLog = c)
    {P : CompactionPoint → Prop} {Q : Process α → Prop} {turn : Set ProcessAction}
    (hturn : turn ∈ turns timed) (hmine : ∀ a ∈ turn, ∃ wake, a = .compaction wake)
    (hstuck : ∀ spurious s t, ClientAt timed post c s → P s.compaction →
      s.clientTurn spurious = .ok t → t = s)
    (keeps : ∀ wake s t, ClientAt timed post c s → P s.compaction → s.compactionTurn wake = .ok t →
      (t.client = c ∧ P t.compaction) ∨ Q t)
    (helps : ∀ wake s t, .compaction wake ∈ turn → ClientAt timed post c s → P s.compaction →
      s.compactionTurn wake = .ok t → Q t) :
    Schedule.LeadsTo step (turns timed) (fun s => ClientAt timed post c s ∧ P s.compaction)
      (fun s => s.Steady timed post ∧ Q s) := by
  refine Schedule.LeadsTo.ensures hturn ?_ ?_
  · rintro a s t ⟨hat, hP⟩ hstep
    have hsteady := hat.1.step hstep
    cases a with
    | client spurious =>
      obtain rfl := hstuck spurious s t hat hP hstep
      exact .inl ⟨hat, hP⟩
    | flush wake =>
      obtain ⟨hcompaction, hclient⟩ := hat.1.sync.flushTurn_frame hstep
      refine .inl ⟨⟨hsteady, ?_⟩, hcompaction ▸ hP⟩
      rcases hclient with heq | heq
      · rw [heq, hat.2]
      · rw [heq, hat.2, hlog]
    | compaction wake =>
      rcases keeps wake s t hat hP hstep with ⟨hc, hP'⟩ | hQ
      · exact .inl ⟨⟨hsteady, hc⟩, hP'⟩
      · exact .inr ⟨hsteady, hQ⟩
  · rintro a ha s t ⟨hat, hP⟩ hstep
    obtain ⟨wake, rfl⟩ := hmine a ha
    exact ⟨hat.1.step hstep, helps wake s t ha hat hP hstep⟩

/-- A client each of whose turns moves it on, wherever the threads are. -/
theorem client_turn {c : ProcessClient α} (hlog : c.notifyLog = c)
    (hcompaction : c.notifyCompaction = c) {Q : Process α → Prop}
    (goes : ∀ spurious s t, ClientAt timed post c s → s.clientTurn spurious = .ok t → Q t) :
    Schedule.LeadsTo step (turns timed) (ClientAt timed post c)
      (fun s => s.Steady timed post ∧ Q s) :=
  Schedule.LeadsTo.imp_left (fun _ hat => ⟨hat, trivial⟩)
    (client_phase hlog hcompaction (P := fun _ => True) (fun _ _ _ _ _ _ => trivial)
      (fun _ _ _ _ _ _ => trivial) fun spurious s t hat _ => goes spurious s t hat)

/-- The flush thread at one point, each of its turns moving it on. -/
theorem flush_turn {c : ProcessClient α} (hcompaction : c.notifyCompaction = c)
    (point : FlushPoint) {Q : Process α → Prop}
    (hstuck : ∀ spurious s t, ClientAt timed post c s → s.flush = point →
      s.clientTurn spurious = .ok t → t = s)
    (goes : ∀ wake s t, ClientAt timed post c s → s.flush = point → s.flushTurn wake = .ok t →
      Q t) :
    Schedule.LeadsTo step (turns timed) (fun s => ClientAt timed post c s ∧ s.flush = point)
      (fun s => s.Steady timed post ∧ Q s) :=
  flush_phase hcompaction (P := (· = point)) flushTurns_mem (fun _ ha => ha) hstuck
    (fun wake s t hat hpoint hturn => .inr (goes wake s t hat hpoint hturn))
    (fun wake s t _ => goes wake s t)

/-- The compaction thread at one point, each of its turns moving it on. -/
theorem compaction_turn {c : ProcessClient α} (hlog : c.notifyLog = c)
    (point : CompactionPoint) {Q : Process α → Prop}
    (hstuck : ∀ spurious s t, ClientAt timed post c s → s.compaction = point →
      s.clientTurn spurious = .ok t → t = s)
    (goes : ∀ wake s t, ClientAt timed post c s → s.compaction = point →
      s.compactionTurn wake = .ok t → Q t) :
    Schedule.LeadsTo step (turns timed) (fun s => ClientAt timed post c s ∧ s.compaction = point)
      (fun s => s.Steady timed post ∧ Q s) :=
  compaction_phase hlog (P := (· = point)) compactionTurns_mem (fun _ ha => ha) hstuck
    (fun wake s t hat hpoint hturn => .inr (goes wake s t hat hpoint hturn))
    (fun wake s t _ => goes wake s t)

end Process

end GhostDB
