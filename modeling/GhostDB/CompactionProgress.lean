import GhostDB.CompactionOverlap
import GhostDB.CrashRecovery
import GhostDB.Library.Progress
import Mathlib.SetTheory.Ordinal.Rank

/-!
# Every caller gets its answer

A request ends when its caller finds the flag down, but between the compaction
that took the flag down and the caller's look another caller may have raised it
again.  A program makes finitely many requests, so this happens finitely often.

* `left` — what the clients have left of their programs.
* `Serving` — the invariant: nobody ends the compaction thread.
* `Quiet` — no compaction under way, and no flag up.
* `clients_finish` — with any number of clients, every program comes to its end.
* `requests_total` — clients that only ask for compactions never fail.
-/

namespace GhostDB

open Prog

/-- Does the call end the compaction thread? -/
def isDisable : ClientSig.Op → Bool
  | .inr .disable => true
  | _ => false

namespace CompactionClient

variable {α : Type}

/-! ## What a client has left -/

/-- Where a client may get to next. -/
inductive Next : CompactionClient α → CompactionClient α → Prop
  /-- A call is answered. -/
  | answered {o : ClientSig.Op} {k : ClientSig.Res o → Prog ClientSig α} (r : ClientSig.Res o) :
      Next (.running (k r)) (.running (.call o k))
  /-- A request blocks. -/
  | blocks {kind : CompactionKind} {k : Unit → Prog ClientSig α} (since : Nat) :
      Next (.blocked kind k since) (.running (.call (S := ClientSig) (.inr (.request kind)) k))
  /-- A request returns. -/
  | returns {kind : CompactionKind} {k : Unit → Prog ClientSig α} {since : Nat} :
      Next (.running (k ())) (.blocked kind k since)

theorem acc_running (p : Prog ClientSig α) : Acc Next (CompactionClient.running p) := by
  induction p with
  | ret a => exact ⟨_, fun c hc => by cases hc⟩
  | call o k ih =>
    refine ⟨_, fun c hc => ?_⟩
    cases hc with
    | answered r => exact ih r
    | blocks since =>
      refine ⟨_, fun c hc => ?_⟩
      cases hc
      exact ih ()

/-- A client gets to a next place finitely often, as long as it does not wait for
the end of the thread. -/
theorem next_wellFounded : WellFounded (Next (α := α)) := by
  refine ⟨fun c => ?_⟩
  cases c with
  | running p => exact acc_running p
  | blocked kind k since =>
    refine ⟨_, fun c hc => ?_⟩
    cases hc
    exact acc_running _
  | joining k => exact ⟨_, fun c hc => by cases hc⟩

instance : IsWellFounded (CompactionClient α) Next := ⟨next_wellFounded⟩

/-- What a client has left. -/
noncomputable def left (c : CompactionClient α) : Ordinal := IsWellFounded.rank Next c

/-- The client does not end the thread. -/
def Stays : CompactionClient α → Prop
  | running p => Pure isDisable p
  | blocked _ k _ => Pure isDisable (k ())
  | joining _ => False

/-- The client's program is at its end. -/
def Done (c : CompactionClient α) : Prop := ∃ a, c = .running (.ret a)

end CompactionClient

namespace CompactionSystem

variable {ι α : Type} [DecidableEq ι]

/-- What the clients have left. -/
noncomputable def left (s : CompactionSystem ι α) (i : ι) : Ordinal := (s.clients i).left

theorem goto_of_ne (s : CompactionSystem ι α) {i j : ι} (hj : j ≠ i) (c : CompactionClient α) :
    (s.goto i c).clients j = s.clients j := Function.update_of_ne hj ..

theorem left_goto_lt {s : CompactionSystem ι α} {i : ι} {c : CompactionClient α}
    (h : c.Next (s.clients i)) : (s.goto i c).left < s.left := by
  have hlt : c.left < (s.clients i).left := IsWellFounded.rank_lt_of_rel h
  have hself : (s.goto i c).left i = c.left := by rw [left, goto_self]
  refine Pi.lt_def.2 ⟨?_, i, by rw [hself]; exact hlt⟩
  intro j
  by_cases hj : j = i
  · rw [hj, hself]
    exact hlt.le
  · rw [left, left, goto_of_ne s hj]

/-! ## The invariant -/

/-- Nobody ends the thread, and a minor compaction is under way only if nobody
has asked for a major one. -/
structure Serving (s : CompactionSystem ι α) : Prop where
  /-- The thread goes on. -/
  enabled : s.enable = true
  /-- It is still there. -/
  alive : s.thread ≠ .exited
  /-- No client ends it. -/
  stays : ∀ i, (s.clients i).Stays
  /-- A minor compaction was chosen, so there was no major one to choose. -/
  minor : ∀ p start, s.thread = .compacting .minor p start → s.requested .major = false

/-- No compaction is under way, and no flag is up. -/
def Quiet (s : CompactionSystem ι α) : Prop :=
  s.latched = false ∧ ∀ kind, s.requested kind = false

omit [DecidableEq ι] in
theorem serving_start (world : World) (requested : CompactionKind → Bool)
    {programs : ι → Prog ClientSig α} (hprograms : ∀ i, Pure isDisable (programs i)) :
    (start world requested programs).Serving where
  enabled := rfl
  alive := by simp [start]
  stays := hprograms
  minor := by simp [start]

namespace Serving

variable {s t : CompactionSystem ι α} (h : s.Serving)

include h

/-- A client goes on. -/
theorem goto {i : ι} {c : CompactionClient α} (hc : c.Stays) : (s.goto i c).Serving := by
  refine ⟨h.enabled, h.alive, ?_, h.minor⟩
  intro j
  by_cases hj : j = i
  · rw [hj, goto_self]
    exact hc
  · rw [goto_of_ne s hj]
    exact h.stays j

omit [DecidableEq ι] in
theorem withWorld (world : World) : Serving { s with world := world } :=
  ⟨h.enabled, h.alive, h.stays, h.minor⟩

omit [DecidableEq ι] in
/-- The thread takes its latch only when it starts a compaction. -/
theorem withRequested (hfree : s.latched = false) (requested : CompactionKind → Bool) :
    Serving { s with requested := requested } :=
  ⟨h.enabled, h.alive, h.stays, fun p start hthread =>
    absurd hthread (not_compacting hfree .minor p start)⟩

/-- **A client's turn**: it gets on, unless it is done, a compaction is under way
or a flag is up. -/
theorem clientTurn {i : ι} (ht : s.clientTurn i = .ok t) :
    t.Serving ∧ t.left < s.left ∨ t = s ∧ ((s.clients i).Done ∨ ¬ s.Quiet) := by
  have hstays := h.stays i
  unfold CompactionSystem.clientTurn at ht
  split at ht
  next a hdone =>
    cases ht
    exact .inr ⟨rfl, .inl ⟨a, hdone⟩⟩
  next o k hruns =>
    rw [hruns] at hstays
    cases ho : World.handleStore o s.world with
    | error e =>
      rw [ho] at ht
      cases ht
    | ok x =>
      rw [ho] at ht
      cases ht
      exact .inl ⟨(h.withWorld x.2).goto (hstays.2 x.1),
        left_goto_lt (s := { s with world := x.2 }) (hruns ▸ .answered (o := .inl o) x.1)⟩
  next kind k hruns =>
    rw [hruns] at hstays
    split at ht
    next hlatched =>
      cases ht
      exact .inr ⟨rfl, .inr fun hquiet => by simp [hquiet.1] at hlatched⟩
    next hfree =>
      cases ht
      have hfree : s.latched = false := by simpa using hfree
      exact .inl ⟨(h.withRequested hfree _).goto (hstays.2 ()),
        left_goto_lt (s := { s with requested := _ }) (hruns ▸ .blocks s.clock)⟩
  next k hruns =>
    rw [hruns] at hstays
    cases hstays.1
  next => cases ht
  next kind k since hblocked =>
    rw [hblocked] at hstays
    split at ht
    next hwaits =>
      cases ht
      exact .inr ⟨rfl, .inr fun hquiet => by simp [hquiet.1, hquiet.2 kind] at hwaits⟩
    next =>
      cases ht
      exact .inl ⟨h.goto hstays, left_goto_lt (hblocked ▸ .returns)⟩
  next k hjoins =>
    rw [hjoins] at hstays
    cases hstays

omit [DecidableEq ι] in
/-- The thread starts a compaction. -/
theorem launchNow {kind : CompactionKind} (hchosen : s.chosen = some kind) :
    (s.launchNow kind).Serving := by
  refine ⟨h.enabled, by simp [CompactionSystem.launchNow], h.stays, ?_⟩
  intro p start hthread
  cases hthread
  unfold chosen at hchosen
  split at hchosen
  next => cases hchosen
  next hmajor => exact Bool.eq_false_iff.2 hmajor

omit [DecidableEq ι] in
/-- **The thread's turn** leaves the clients where they are. -/
theorem threadTurn {timeout : Bool} (ht : s.threadTurn timeout = .ok t) :
    t.Serving ∧ t.clients = s.clients := by
  unfold CompactionSystem.threadTurn at ht
  split at ht
  next hloop =>
    rw [if_pos h.enabled] at ht
    split at ht
    next kind hchosen =>
      cases ht
      exact ⟨h.launchNow hchosen, rfl⟩
    next =>
      cases ht
      exact ⟨⟨h.enabled, by simp, h.stays, by simp⟩, rfl⟩
  next hwaiting =>
    split at ht
    next kind hchosen =>
      cases ht
      exact ⟨h.launchNow hchosen, rfl⟩
    next =>
      split at ht <;> cases ht
      · exact ⟨⟨h.enabled, by simp, h.stays, by simp⟩, rfl⟩
      · exact ⟨h, rfl⟩
  next kind o k start hcompacts =>
    cases ho : Store.handle o s.world.store with
    | error e =>
      rw [ho] at ht
      cases ht
    | ok x =>
      rw [ho] at ht
      cases ht
      refine ⟨⟨h.enabled, by simp, h.stays, ?_⟩, rfl⟩
      intro p start' hthread
      cases hthread
      exact h.minor _ start hcompacts
  next kind u start hcompacts =>
    cases ht
    exact ⟨⟨h.enabled, by simp [finishNow], h.stays, by simp [finishNow]⟩, rfl⟩
  next hexited => exact absurd hexited h.alive

end Serving

/-! ## As long as no client gets on -/

/-- The clients are at these places. -/
structure At (clients : ι → CompactionClient α) (s : CompactionSystem ι α) : Prop where
  /-- Nobody ends the thread. -/
  serving : s.Serving
  /-- The places. -/
  clients : s.clients = clients

/-- Some clients have got on from these places. -/
structure GotOn (clients : ι → CompactionClient α) (s : CompactionSystem ι α) : Prop where
  /-- Nobody ends the thread. -/
  serving : s.Serving
  /-- They have less left. -/
  less : s.left < fun i => (clients i).left

variable {clients : ι → CompactionClient α} {s s' t : CompactionSystem ι α}

omit [DecidableEq ι] in
theorem Serving.tick (h : s.Serving) : s.tick.Serving := ⟨h.enabled, h.alive, h.stays, h.minor⟩

theorem At.client_step (h : At clients s) {i : ι} (hs : step (.client i) s = .ok s') :
    GotOn clients s' ∨ s' = s.tick ∧ ((clients i).Done ∨ ¬ s.Quiet) := by
  obtain ⟨t, ht, rfl⟩ := step_client hs
  rcases h.serving.clientTurn ht with ⟨hserving, hless⟩ | ⟨rfl, hstays⟩
  · exact .inl ⟨hserving.tick, h.clients ▸ hless⟩
  · exact .inr ⟨rfl, h.clients ▸ hstays⟩

theorem At.thread_step (h : At clients s) {timeout : Bool}
    (hs : step (.thread timeout) s = .ok s') :
    ∃ t, s.threadTurn timeout = .ok t ∧ s' = t.tick ∧ At clients s' := by
  obtain ⟨t, ht, rfl⟩ := step_thread hs
  obtain ⟨hserving, heq⟩ := h.serving.threadTurn ht
  exact ⟨t, ht, rfl, hserving.tick, heq.trans h.clients⟩

/-! ## The thread answers -/

/-- Every client and the thread have their turns again and again. -/
def turns : Set (Set (CompactionAction ι)) :=
  {c | (∃ i, c = {.client i}) ∨ c = {a | ∃ timeout, a = .thread timeout}}

/-- A step of the thread, whose turns come again and again. -/
theorem leadsTo_thread {P Q : CompactionSystem ι α → Prop}
    (htick : ∀ s, P s → P s.tick)
    (hthread : ∀ timeout s t, At clients s → P s → s.threadTurn timeout = .ok t →
      At clients t.tick → Q t.tick) :
    Schedule.LeadsTo step turns (fun s => At clients s ∧ P s)
      (fun s => GotOn clients s ∨ At clients s ∧ Q s) := by
  have hturn : {a : CompactionAction ι | ∃ timeout, a = .thread timeout} ∈ turns := .inr rfl
  have hnext : ∀ timeout s s', At clients s ∧ P s → step (.thread timeout) s = .ok s' →
      At clients s' ∧ Q s' := by
    rintro timeout s s' ⟨hat, hp⟩ hs
    obtain ⟨t, ht, rfl, hat'⟩ := hat.thread_step hs
    exact ⟨hat', hthread timeout s t hat hp ht hat'⟩
  refine Schedule.LeadsTo.ensures hturn ?_ ?_
  · rintro (i | timeout) s s' ⟨hat, hp⟩ hs
    · rcases hat.client_step hs with hgot | ⟨rfl, -⟩
      · exact .inr (.inl hgot)
      · exact .inl ⟨⟨hat.serving.tick, hat.clients⟩, htick s hp⟩
    · exact .inr (.inr (hnext timeout s s' ⟨hat, hp⟩ hs))
  · rintro a ⟨timeout, rfl⟩ s s' hp hs
    exact .inr (hnext timeout s s' hp hs)

omit [DecidableEq ι] in
theorem chosen_eq_none : s.chosen = none ↔ ∀ kind, s.requested kind = false := by
  unfold chosen
  constructor
  · intro h kind
    split_ifs at h with hmajor hminor
    cases kind with
    | minor => exact Bool.eq_false_iff.2 hminor
    | major => exact Bool.eq_false_iff.2 hmajor
  · intro h
    simp [h]

omit [DecidableEq ι] in
/-- A compaction takes both flags down: a minor one would not have started with
the other flag up, and holds the latch. -/
theorem Serving.quiet_finishNow (h : s.Serving) {kind : CompactionKind} {p : Prog StoreSig Unit}
    {start : Nat} (hcompacts : s.thread = .compacting kind p start) :
    (s.finishNow kind start).Quiet := by
  refine ⟨rfl, ?_⟩
  intro kind'
  cases kind with
  | major => rfl
  | minor =>
    cases kind' with
    | minor => rfl
    | major => exact h.minor p start hcompacts

/-- **A compaction ends.** -/
theorem leadsTo_quiet_of_compacting (p : Prog StoreSig Unit) :
    Schedule.LeadsTo step turns
      (fun s => At clients s ∧ ∃ kind start, s.thread = .compacting kind p start)
      (fun s => GotOn clients s ∨ At clients s ∧ s.Quiet) := by
  induction p with
  | ret u =>
    refine leadsTo_thread (fun s hs => hs) ?_
    rintro timeout s t hat ⟨kind, start, hcompacts⟩ ht -
    simp only [threadTurn, hcompacts] at ht
    cases ht
    exact hat.serving.quiet_finishNow hcompacts
  | call o k ih =>
    have hcall : Schedule.LeadsTo step turns
        (fun s => At clients s ∧ ∃ kind start, s.thread = .compacting kind (.call o k) start)
        (fun s => GotOn clients s ∨
          At clients s ∧ ∃ r kind start, s.thread = .compacting kind (k r) start) := by
      refine leadsTo_thread (fun s hs => hs) ?_
      rintro timeout s t hat ⟨kind, start, hcompacts⟩ ht -
      simp only [threadTurn, hcompacts] at ht
      cases ho : Store.handle o s.world.store with
      | error e =>
        rw [ho] at ht
        cases ht
      | ok x =>
        rw [ho] at ht
        cases ht
        exact ⟨x.1, kind, start, rfl⟩
    refine hcall.trans (.or (.of_imp fun _ => .inl) ?_)
    refine .imp_left ?_ (.of_exists ih)
    rintro s ⟨hat, r, hcompacts⟩
    exact ⟨r, hat, hcompacts⟩

/-- **A flag that is up** starts a compaction. -/
theorem leadsTo_compacting :
    Schedule.LeadsTo step turns
      (fun s => At clients s ∧ s.latched = false ∧ ∃ kind, s.requested kind = true)
      (fun s => GotOn clients s ∨
        At clients s ∧ ∃ p kind start, s.thread = .compacting kind p start) := by
  refine leadsTo_thread (fun s hs => hs) ?_
  rintro timeout s t hat ⟨hfree, kind, hup⟩ ht -
  have hchosen : ∃ kind', s.chosen = some kind' := by
    refine Option.ne_none_iff_exists'.1 fun hnone => ?_
    rw [chosen_eq_none.1 hnone] at hup
    cases hup
  obtain ⟨kind', hchosen⟩ := hchosen
  have hlaunch : t = s.launchNow kind' := by
    unfold threadTurn at ht
    split at ht
    next =>
      rw [if_pos hat.serving.enabled, hchosen] at ht
      exact (Except.ok.inj ht).symm
    next =>
      rw [hchosen] at ht
      exact (Except.ok.inj ht).symm
    next hcompacts => exact absurd hcompacts (not_compacting hfree _ _ _)
    next hcompacts => exact absurd hcompacts (not_compacting hfree _ _ _)
    next hexited => exact absurd hexited hat.serving.alive
  rw [hlaunch]
  exact ⟨_, kind', _, rfl⟩

/-- **The thread answers** everybody, unless somebody gets on before. -/
theorem leadsTo_quiet :
    Schedule.LeadsTo step turns (At clients)
      (fun s => GotOn clients s ∨ At clients s ∧ s.Quiet) := by
  have hcompacting : Schedule.LeadsTo step turns
      (fun s => At clients s ∧ ∃ p kind start, s.thread = .compacting kind p start)
      (fun s => GotOn clients s ∨ At clients s ∧ s.Quiet) := by
    refine .imp_left ?_ (.of_exists leadsTo_quiet_of_compacting)
    rintro s ⟨hat, p, hcompacts⟩
    exact ⟨p, hat, hcompacts⟩
  have hup := leadsTo_compacting.trans
    (.or (.of_imp fun _ => .inl) hcompacting)
  refine .imp_left ?_ ((hcompacting.or hup).or (.of_imp fun _ => .inr))
  intro s hat
  by_cases hfree : s.latched = false
  · by_cases hquiet : ∀ kind, s.requested kind = false
    · exact .inr ⟨hat, hfree, hquiet⟩
    · push Not at hquiet
      obtain ⟨kind, hup⟩ := hquiet
      exact .inl (.inr ⟨hat, hfree, kind, by simpa using hup⟩)
  · refine .inl (.inl ⟨hat, ?_⟩)
    unfold latched at hfree
    split at hfree
    next kind p start hcompacts => exact ⟨p, kind, start, hcompacts⟩
    next => exact absurd rfl hfree

omit [DecidableEq ι] in
/-- A thread that nobody asked starts nothing, timed out or not. -/
theorem Quiet.threadTurn {timeout : Bool} (h : s.Quiet) (ht : s.threadTurn timeout = .ok t) :
    t.Quiet := by
  have hnone : s.chosen = none := chosen_eq_none.2 h.2
  unfold CompactionSystem.threadTurn at ht
  split at ht
  next =>
    rw [hnone] at ht
    split at ht <;> cases ht <;> exact ⟨rfl, h.2⟩
  next =>
    rw [hnone] at ht
    dsimp only at ht
    split at ht <;> cases ht
    · exact ⟨rfl, h.2⟩
    · exact h
  next hcompacts => exact absurd hcompacts (not_compacting h.1 _ _ _)
  next hcompacts => exact absurd hcompacts (not_compacting h.1 _ _ _)
  next =>
    cases ht
    exact h

/-- **With the flags down**, whoever has a turn gets on. -/
theorem leadsTo_gotOn_of_quiet {i : ι} (hi : ¬ (clients i).Done) :
    Schedule.LeadsTo step turns (fun s => At clients s ∧ s.Quiet) (GotOn clients) := by
  have hturn : ({.client i} : Set (CompactionAction ι)) ∈ turns := .inl ⟨i, rfl⟩
  refine Schedule.LeadsTo.ensures hturn ?_ ?_
  · rintro (j | timeout) s s' ⟨hat, hquiet⟩ hs
    · rcases hat.client_step hs with hgot | ⟨rfl, -⟩
      · exact .inr hgot
      · exact .inl ⟨⟨hat.serving.tick, hat.clients⟩, hquiet⟩
    · obtain ⟨t, ht, rfl, hat'⟩ := hat.thread_step hs
      exact .inl ⟨hat', show t.Quiet from hquiet.threadTurn ht⟩
  · rintro a rfl s s' ⟨hat, hquiet⟩ hs
    refine (hat.client_step hs).resolve_right ?_
    rintro ⟨-, hdone | hno⟩
    · exact hi hdone
    · exact hno hquiet

/-! ## Every program comes to its end -/

/-- A client that is done stays so. -/
theorem done_step {i : ι} {a : α} {b : CompactionAction ι}
    (hi : s.clients i = .running (.ret a)) (hs : step b s = .ok s') :
    s'.clients i = .running (.ret a) := by
  have hgoto : ∀ (s : CompactionSystem ι α) j c, s.clients i = .running (.ret a) →
      s.clients j ≠ .running (.ret a) → (s.goto j c).clients i = .running (.ret a) := by
    intro s j c hi hj
    rw [goto_of_ne s]
    · exact hi
    · rintro rfl
      exact hj hi
  obtain ⟨t, hturn, rfl⟩ := step_turn hs
  cases hturn with
  | call j runs ok => exact hgoto _ j _ hi (by simp [runs])
  | request j runs free => exact hgoto _ j _ hi (by simp [runs])
  | returns j blocked free answered => exact hgoto _ j _ hi (by simp [blocked])
  | disable j runs => exact hgoto _ j _ hi (by simp [runs])
  | joined j joins => exact hgoto _ j _ hi (by simp [joins])
  | _ => exact hi

theorem leadsTo_done [Finite ι] :
    Schedule.LeadsTo step turns Serving
      (fun s : CompactionSystem ι α => s.Serving ∧ ∀ i, (s.clients i).Done) := by
  refine Schedule.LeadsTo.of_wellFounded left fun b => ?_
  have hgetsOn : ∀ (clients : ι → CompactionClient α) i, Schedule.LeadsTo step turns
      (fun s => At clients s ∧ ¬ (clients i).Done) (GotOn clients) := by
    rintro clients i x hfair n ⟨hat, hi⟩
    refine (leadsTo_quiet.trans ?_) x hfair n hat
    exact .or (.of_imp fun _ => id) (leadsTo_gotOn_of_quiet hi)
  rintro x hfair n ⟨hserving, rfl⟩
  by_cases hdone : ∀ i, ((x.state n).clients i).Done
  · exact ⟨n, le_rfl, .inl ⟨hserving, hdone⟩⟩
  · push Not at hdone
    obtain ⟨i, hi⟩ := hdone
    obtain ⟨m, hnm, hgot⟩ := hgetsOn _ i x hfair n ⟨⟨hserving, rfl⟩, hi⟩
    exact ⟨m, hnm, .inr ⟨hgot.serving, hgot.less⟩⟩

/-- **Every caller gets its answer.**  Any number of clients make calls to the
store and request compactions, none of them ending the thread.  Whatever the
flags start with and whatever the order of turns, as long as every client and the
thread have theirs again and again and no call fails, every program comes to its
end; no timeout is needed.

Who is in a wait looks at its condition whenever it has its turn, notified or
not; the notifications are in `GhostDB.ProcessProgress`, for one client. -/
theorem clients_finish [Finite ι] {world : World} {requested : CompactionKind → Bool}
    {programs : ι → Prog ClientSig α} (hprograms : ∀ i, Pure isDisable (programs i))
    {x : Schedule.Execution (step (ι := ι) (α := α))}
    (hstart : x.state 0 = start world requested programs) (hfair : x.Fair turns) :
    ∃ n, ∀ i, ∃ a, ∀ m, n ≤ m → (x.state m).clients i = .running (.ret a) := by
  have hserving : (x.state 0).Serving := hstart ▸ serving_start world requested hprograms
  obtain ⟨n, -, hn, hdone⟩ := leadsTo_done x hfair 0 hserving
  refine ⟨n, fun i => ?_⟩
  obtain ⟨a, ha⟩ := hdone i
  have hstep : ∀ b s s', s.clients i = .running (.ret a) → ¬ False → step b s = .ok s' →
      s'.clients i = .running (.ret a) := fun b s s' hs _ => done_step hs
  exact ⟨a, fun m hm => x.keeps_until hstep ha (fun _ _ _ => id) hm le_rfl⟩

/-! ## Clients that only ask -/

/-- Is the call anything but a request? -/
def notRequest : ClientSig.Op → Bool
  | .inr (.request _) => false
  | _ => true

/-- The client requests compactions and does nothing else. -/
def Asks : CompactionClient α → Prop
  | .running p => Pure notRequest p
  | .blocked _ k _ => Pure notRequest (k ())
  | .joining _ => False

/-- Compactions keep `I`, and nobody else touches the store. -/
structure Keeps (I : Store → Prop) (s : CompactionSystem ι α) : Prop where
  /-- The clients only ask. -/
  asks : ∀ i, Asks (s.clients i)
  /-- Between two compactions. -/
  rests : s.latched = false → I s.world.store
  /-- The compaction under way succeeds. -/
  compacts : ∀ kind p start, s.thread = .compacting kind p start →
    ∃ store, run Store.handle p s.world.store = .ok ((), store) ∧ I store

namespace Keeps

variable {I : Store → Prop} (h : s.Keeps I)

include h

theorem goto {i : ι} {c : CompactionClient α} (hc : Asks c) : (s.goto i c).Keeps I := by
  refine ⟨?_, h.rests, h.compacts⟩
  intro j
  by_cases hj : j = i
  · rw [hj, goto_self]
    exact hc
  · rw [goto_of_ne s hj]
    exact h.asks j

omit [DecidableEq ι] in
theorem withRequested (requested : CompactionKind → Bool) :
    Keeps I { s with requested := requested } :=
  ⟨h.asks, h.rests, h.compacts⟩

omit [DecidableEq ι] in
/-- A call that is made is a request. -/
theorem asked {i : ι} {o : ClientSig.Op} {k : ClientSig.Res o → Prog ClientSig α}
    (hi : s.clients i = .running (.call o k)) :
    notRequest o = false ∧ ∀ r, Pure notRequest (k r) := by
  have hasks := h.asks i
  rw [hi] at hasks
  exact hasks

/-- **A turn keeps it.** -/
theorem turn (hlaunch : ∀ store, I store → ∀ kind,
      ∃ store', run Store.handle (launch kind) store = .ok ((), store') ∧ I store')
    (hturn : Turn s t) : t.tick.Keeps I := by
  suffices ht : t.Keeps I from ⟨ht.asks, ht.rests, ht.compacts⟩
  cases hturn with
  | stay => exact h
  | call i runs ok => exact absurd (h.asked runs).1 (by simp [notRequest])
  | request i runs free =>
    exact (h.withRequested _).goto ((h.asked runs).2 ())
  | returns i blocked free answered =>
    have hasks := h.asks i
    rw [blocked] at hasks
    exact h.goto hasks
  | disable i runs => exact absurd (h.asked runs).1 (by simp [notRequest])
  | joined i joins =>
    have hasks := h.asks i
    rw [joins] at hasks
    exact hasks.elim
  | thread u free rests =>
    exact ⟨h.asks, fun _ => h.rests free, fun kind p start hu => absurd hu (rests kind p start)⟩
  | launch kind free asked =>
    refine ⟨h.asks, fun hfree => ?_, ?_⟩
    · cases hfree
    · intro kind' p start hthread
      cases hthread
      exact hlaunch _ (h.rests free) kind
  | compact runs ok =>
    obtain ⟨store', hrun, hstore'⟩ := h.compacts _ _ _ runs
    refine ⟨h.asks, fun hfree => ?_, ?_⟩
    · cases hfree
    · intro kind' p start hthread
      cases hthread
      exact ⟨store', (run_call_of_ok ok).symm.trans hrun, hstore'⟩
  | finish runs =>
    obtain ⟨store', hrun, hstore'⟩ := h.compacts _ _ _ runs
    cases hrun
    exact ⟨h.asks, fun _ => hstore', fun kind' p start hthread => by cases hthread⟩

/-- **No turn fails.** -/
theorem exists_step (a : CompactionAction ι) : ∃ t, step a s = .ok t := by
  cases a with
  | client i =>
    have hclient : ∃ t, s.clientTurn i = .ok t := by
      unfold CompactionSystem.clientTurn
      split
      next => exact ⟨_, rfl⟩
      next hi => exact absurd (h.asked hi).1 (by simp [notRequest])
      next => split <;> exact ⟨_, rfl⟩
      next => exact ⟨_, rfl⟩
      next hi => exact absurd (h.asked hi).1 (by simp [notRequest])
      next => split <;> exact ⟨_, rfl⟩
      next => split <;> exact ⟨_, rfl⟩
    obtain ⟨t, ht⟩ := hclient
    exact ⟨t.tick, by rw [step, ht]; rfl⟩
  | thread timeout =>
    have hthread : ∃ t, s.threadTurn timeout = .ok t := by
      unfold CompactionSystem.threadTurn
      split
      next =>
        split
        · split <;> exact ⟨_, rfl⟩
        · exact ⟨_, rfl⟩
      next =>
        split
        · exact ⟨_, rfl⟩
        · split <;> exact ⟨_, rfl⟩
      next kind o k start hcompacts =>
        obtain ⟨store', hrun, -⟩ := h.compacts _ _ _ hcompacts
        cases ho : Store.handle o s.world.store with
        | error e =>
          rw [run_call, ho] at hrun
          cases hrun
        | ok x => exact ⟨_, rfl⟩
      next => exact ⟨_, rfl⟩
      next => exact ⟨_, rfl⟩
    obtain ⟨t, ht⟩ := hthread
    exact ⟨t.tick, by rw [step, ht]; rfl⟩

end Keeps

/-- **Requests alone never fail**, however many clients make them, in a store
every compaction keeps in order. -/
theorem requests_total {I : Store → Prop} (hlaunch : ∀ store, I store → ∀ kind,
      ∃ store', run Store.handle (launch kind) store = .ok ((), store') ∧ I store')
    {world : World} (hworld : I world.store) (requested : CompactionKind → Bool)
    {programs : ι → Prog ClientSig α} (hprograms : ∀ i, Pure notRequest (programs i))
    (actions : List (CompactionAction ι)) :
    ∃ t, Schedule.run step actions (start world requested programs) = .ok t := by
  have hstep : ∀ a (s : CompactionSystem ι α), s.Keeps I →
      ∃ s', step a s = .ok s' ∧ s'.Keeps I := by
    intro a s h
    obtain ⟨s', hs'⟩ := h.exists_step a
    obtain ⟨t, hturn, rfl⟩ := step_turn hs'
    exact ⟨t.tick, hs', h.turn hlaunch hturn⟩
  have hstart : (start world requested programs).Keeps I :=
    ⟨hprograms, fun _ => hworld, fun kind p start hthread => by cases hthread⟩
  obtain ⟨t, hrun, -⟩ := Schedule.run_total hstep actions hstart
  exact ⟨t, hrun⟩

/-- The one run of two pairs. -/
def HasOneRun (s : Store) : Prop :=
  Rep s (Slots.ofList [RunContent.ofTable 0 [(1, 10), (2, 20)]])

/-- A major compaction rewrites it, and a minor one has nothing to merge. -/
theorem HasOneRun.launch {s : Store} (h : HasOneRun s) (kind : CompactionKind) :
    ∃ s', run Store.handle (launch kind) s = .ok ((), s') ∧ HasOneRun s' := by
  rw [launch_eq]
  cases kind with
  | minor =>
    obtain ⟨p, hrun⟩ := launchCompactionImpl_small h (by decide)
      (CompactionKind.startLevel_lt .minor) (by decide +kernel)
    exact ⟨s.withPos p, hrun, h.withPos p⟩
  | major =>
    obtain ⟨s', hrun, hrep, -⟩ := launchCompactionImpl_spec h (by decide)
      (CompactionKind.startLevel_lt .major) (by decide +kernel) (by decide +kernel)
    have hsame : afterCompaction [RunContent.ofTable 0 [(1, 10), (2, 20)]]
        CompactionKind.major.startLevel = [RunContent.ofTable 0 [(1, 10), (2, 20)]] := by
      decide +kernel
    rw [hsame] at hrep
    exact ⟨s', hrun, hrep⟩

/-- Two callers and the thread take turns. -/
def rotation (n : Nat) : CompactionAction Bool :=
  if n % 3 = 0 then .client false else if n % 3 = 1 then .client true else .thread false

theorem rotation_fair : ∀ c ∈ turns, ∀ n, ∃ m, n ≤ m ∧ rotation m ∈ c := by
  have hat : ∀ i n, rotation (3 * n + i) = rotation i := by
    intro i n
    rw [rotation, rotation, Nat.mul_add_mod]
  rintro c (⟨i, rfl⟩ | rfl) n
  · cases i
    · exact ⟨3 * n + 0, by omega, hat 0 n⟩
    · exact ⟨3 * n + 1, by omega, hat 1 n⟩
  · exact ⟨3 * n + 2, by omega, false, hat 2 n⟩

/-- One caller asks for a major compaction, the other one for a minor and a major
one. -/
def askers (i : Bool) : Prog ClientSig Unit :=
  bif i then requestMinorCompaction >>= fun _ => requestMajorCompaction
  else requestMajorCompaction

/-- The callers in rotation, over a store with a run to compact. -/
theorem clients_finish_two :
    ∃ w : World, HasOneRun w.store ∧
      ∃ x : Schedule.Execution (step (ι := Bool) (α := Unit)), x.action = rotation ∧
        x.state 0 = start w (fun _ => false) askers ∧
        ∃ n, ∀ i, (x.state n).clients i = .running (.ret ()) := by
  obtain ⟨store, -, hrep⟩ := rep_oneRun (t := [(1, 10), (2, 20)]) (by decide)
  have hasks : ∀ i, Pure notRequest (askers i) := by
    intro i
    cases i
    · exact ⟨rfl, fun _ => trivial⟩
    · exact ⟨rfl, fun _ => ⟨rfl, fun _ => trivial⟩⟩
  have hstays : ∀ i, Pure isDisable (askers i) := by
    intro i
    cases i
    · exact ⟨rfl, fun _ => trivial⟩
    · exact ⟨rfl, fun _ => ⟨rfl, fun _ => trivial⟩⟩
  have hworld : HasOneRun (⟨store, []⟩ : World).store := hrep
  obtain ⟨x, hstart, haction⟩ := Schedule.Execution.exists_of_total
    (requests_total (fun _ => HasOneRun.launch) hworld (fun _ => false) hasks) rotation
  obtain ⟨n, hn⟩ := clients_finish hstays hstart
    (by rw [Schedule.Execution.Fair, haction]; exact rotation_fair)
  refine ⟨⟨store, []⟩, hrep, x, haction, hstart, n, fun i => ?_⟩
  obtain ⟨a, ha⟩ := hn i
  exact ha n le_rfl

end CompactionSystem

end GhostDB
