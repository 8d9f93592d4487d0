import GhostDB.CompactionConcurrency
import GhostDB.Restart

/-!
# One client and the compaction thread

When both request flags start false, a compaction runs only while the client is
blocked in a request for it, and whatever the interleaving, the client ends with
the result and the store of `World.handle`, which answers a request by a whole
compaction.  So what the sequential part of the development proves of sessions
holds of every interleaving.

* `Solo` — the invariant.
* `outcome` — what is left to happen, executed sequentially; no action changes
  it.
* `interleavings_agree` — every interleaving ends like the sequential run.
* `compaction_never_overlaps_iff` — and with a flag that starts true, some
  interleaving overlaps.
-/

namespace GhostDB

open Prog

/-- A client alone makes a call to the store. -/
theorem World.run_call_inl {α : Type} {o : StoreOp} {k : StoreSig.Res o → Prog ClientSig α}
    {w w' : World} {r : StoreSig.Res o} (h : World.handleStore o w = .ok (r, w')) :
    run World.handle (.call (S := ClientSig) (.inl o) k) w = run World.handle (k r) w' := by
  show (World.handleStore o w).bind _ = _
  rw [h]
  rfl

theorem World.run_call_inl_error {α : Type} {o : StoreOp} {k : StoreSig.Res o → Prog ClientSig α}
    {w : World} {e : Fault} (h : World.handleStore o w = .error e) :
    run World.handle (.call (S := ClientSig) (.inl o) k) w = .error e := by
  show (World.handleStore o w).bind _ = _
  rw [h]
  rfl

namespace CompactionSystem

variable {α : Type}

/-! ## The invariant -/

/-- While a compaction runs, the client is blocked in a request. -/
def NoOverlap (s : CompactionSystem Unit α) : Prop :=
  ∀ kind p start, s.thread = .compacting kind p start →
    ∃ kind' k since, s.clients () = .blocked kind' k since

theorem not_noOverlap {s : CompactionSystem Unit α} {p : Prog ClientSig α}
    (hlatched : s.latched = true) (hruns : s.clients () = .running p) : ¬ s.NoOverlap := by
  intro h
  unfold latched at hlatched
  split at hlatched
  next kind q start hthread =>
    obtain ⟨_, _, _, hblocked⟩ := h kind q start hthread
    cases hruns.symm.trans hblocked
  next => cases hlatched

/-- **The invariant of a single client**: the flags are its own. -/
structure Solo (s : CompactionSystem Unit α) : Prop where
  /-- No flag is up while it is not blocked. -/
  calm : (∀ kind k since, s.clients () ≠ .blocked kind k since) →
    ∀ kind, s.requested kind = false
  /-- While it is blocked, no other flag is up than the one it waits for. -/
  own : ∀ kind k since, s.clients () = .blocked kind k since →
    ∀ kind', s.requested kind' = true → kind' = kind
  /-- A compaction under way is one whose flag is up. -/
  asked : ∀ kind p start, s.thread = .compacting kind p start → s.requested kind = true

namespace Solo

variable {s : CompactionSystem Unit α}

theorem start (world : World) {requested : CompactionKind → Bool}
    (hflags : ∀ kind, requested kind = false) (programs : Unit → Prog ClientSig α) :
    Solo (start world requested programs) where
  calm := fun _ => hflags
  own := by
    intro kind k since h
    cases h
  asked := by
    intro kind p start h
    cases h

/-- With a flag up, the client is blocked in the request for it. -/
theorem blocked_of_requested (h : s.Solo) {kind : CompactionKind}
    (hup : s.requested kind = true) : ∃ k since, s.clients () = .blocked kind k since := by
  by_contra hno
  have hcalm : ∀ kind' k since, s.clients () ≠ .blocked kind' k since := by
    intro kind' k since hblocked
    obtain rfl := h.own kind' k since hblocked kind hup
    exact hno ⟨k, since, hblocked⟩
  rw [h.calm hcalm kind] at hup
  cases hup

theorem noOverlap (h : s.Solo) : s.NoOverlap := by
  intro kind p start hthread
  obtain ⟨k, since, hblocked⟩ := h.blocked_of_requested (h.asked kind p start hthread)
  exact ⟨kind, k, since, hblocked⟩

theorem calm_of_running (h : s.Solo) {p : Prog ClientSig α} (hruns : s.clients () = .running p) :
    ∀ kind, s.requested kind = false := by
  apply h.calm
  intro kind k since hblocked
  cases hruns.symm.trans hblocked

theorem calm_of_joining (h : s.Solo) {k : Unit → Prog ClientSig α}
    (hjoins : s.clients () = .joining k) : ∀ kind, s.requested kind = false := by
  apply h.calm
  intro kind k' since hblocked
  cases hjoins.symm.trans hblocked

/-- A client that does not block while no flag is up. -/
theorem goto (h : s.Solo) (hflags : ∀ kind, s.requested kind = false) {c : CompactionClient α}
    (hc : ∀ kind k since, c ≠ .blocked kind k since) : (s.goto () c).tick.Solo where
  calm := fun _ => hflags
  own := by
    intro kind k since hblocked
    exact absurd ((goto_self s () c).symm.trans hblocked) (hc kind k since)
  asked := h.asked

theorem withWorld (h : s.Solo) (world : World) (enable : Bool) :
    Solo { s with world := world, enable := enable } :=
  ⟨h.calm, h.own, h.asked⟩

end Solo

/-! ## What is left to happen -/

/-- The rest of the compaction under way. -/
def underWay (s : CompactionSystem Unit α) : Option (Prog StoreSig Unit) :=
  match s.thread with
  | .compacting _ p _ => some p
  | _ => none

/-- What is left when the client is blocked: the rest of the compaction, or all
of it, or none, and then the client. -/
def answer (s : CompactionSystem Unit α) (kind : CompactionKind)
    (k : Unit → Prog ClientSig α) : Except Fault (α × World) :=
  match s.underWay with
  | some p =>
    (run Store.handle p s.world.store).bind fun x =>
      run World.handle (k ()) { s.world with store := x.2 }
  | none =>
    if s.requested kind then run World.handle (request kind >>= k) s.world
    else run World.handle (k ()) s.world

/-- **What is left to happen**, executed sequentially. -/
def outcome (s : CompactionSystem Unit α) : Except Fault (α × World) :=
  match s.clients () with
  | .running p => run World.handle p s.world
  | .joining k => run World.handle (k ()) s.world
  | .blocked kind k _ => s.answer kind k

section Outcome

variable {s : CompactionSystem Unit α}

theorem underWay_of_free (free : s.latched = false) : s.underWay = none := by
  cases hthread : s.thread with
  | compacting kind p start => exact absurd hthread (not_compacting free kind p start)
  | loop => rw [underWay, hthread]
  | waiting => rw [underWay, hthread]
  | exited => rw [underWay, hthread]

theorem outcome_of_running {p : Prog ClientSig α} (h : s.clients () = .running p) :
    s.outcome = run World.handle p s.world := by
  rw [outcome, h]

theorem outcome_of_joining {k : Unit → Prog ClientSig α} (h : s.clients () = .joining k) :
    s.outcome = run World.handle (k ()) s.world := by
  rw [outcome, h]

theorem outcome_of_blocked {kind : CompactionKind} {k : Unit → Prog ClientSig α} {since : Nat}
    (h : s.clients () = .blocked kind k since) : s.outcome = s.answer kind k := by
  rw [outcome, h]

theorem answer_of_compacting {kind kind' : CompactionKind} {k : Unit → Prog ClientSig α}
    {p : Prog StoreSig Unit} {start : Nat} (h : s.thread = .compacting kind' p start) :
    s.answer kind k = (run Store.handle p s.world.store).bind fun x =>
      run World.handle (k ()) { s.world with store := x.2 } := by
  have hway : s.underWay = some p := by rw [underWay, h]
  rw [answer, hway]

theorem answer_of_free {kind : CompactionKind} {k : Unit → Prog ClientSig α}
    (free : s.latched = false) :
    s.answer kind k = if s.requested kind then run World.handle (request kind >>= k) s.world
      else run World.handle (k ()) s.world := by
  rw [answer, underWay_of_free free]

end Outcome

/-! ## One action -/

section Effects

variable {s : CompactionSystem Unit α}

/-- **A call to the store** is the next step of the sequential run. -/
theorem Solo.call (h : s.Solo) {i : Unit} {o : StoreOp}
    {k : StoreSig.Res o → Prog ClientSig α} {r : StoreSig.Res o} {world : World}
    (runs : s.clients i = .running (.call (S := ClientSig) (.inl o) k))
    (ok : World.handleStore o s.world = .ok (r, world)) :
    (({ s with world := world } : CompactionSystem Unit α).goto i (.running (k r))).tick.Solo ∧
      (({ s with world := world } : CompactionSystem Unit α).goto i
        (.running (k r))).tick.outcome = s.outcome := by
  refine ⟨(h.withWorld world s.enable).goto (h.calm_of_running runs) (by simp), ?_⟩
  rw [outcome_of_running runs]
  exact (World.run_call_inl ok).symm

/-- **A request** blocks the client in front of a whole compaction. -/
theorem Solo.request (h : s.Solo) {i : Unit} {kind : CompactionKind}
    {k : Unit → Prog ClientSig α}
    (runs : s.clients i = .running (.call (S := ClientSig) (.inr (.request kind)) k))
    (free : s.latched = false) :
    (({ s with requested := Function.update s.requested kind true } :
        CompactionSystem Unit α).goto i (.blocked kind k s.clock)).tick.Solo ∧
      (({ s with requested := Function.update s.requested kind true } :
        CompactionSystem Unit α).goto i (.blocked kind k s.clock)).tick.outcome = s.outcome := by
  have hflags := h.calm_of_running runs
  have hup : Function.update s.requested kind true kind = true := Function.update_self ..
  refine ⟨⟨?_, ?_, fun kind' p start hthread =>
    absurd hthread (not_compacting free kind' p start)⟩, ?_⟩
  · intro hcalm
    exact absurd rfl (hcalm kind k s.clock)
  · intro kind' k' since hblocked kind'' hkind
    have heq : CompactionClient.blocked kind k s.clock = .blocked kind' k' since := hblocked
    cases heq
    by_contra hne
    have hold : Function.update s.requested kind true kind'' = true := hkind
    rw [Function.update_of_ne hne, hflags kind''] at hold
    cases hold
  · rw [outcome_of_running runs]
    refine Eq.trans (outcome_of_blocked rfl) ?_
    exact Eq.trans (answer_of_free free) (if_pos hup)

/-- **A request returns** when nothing is left of its compaction. -/
theorem Solo.returns (h : s.Solo) {i : Unit} {kind : CompactionKind}
    {k : Unit → Prog ClientSig α} {since : Nat}
    (blocked : s.clients i = .blocked kind k since) (free : s.latched = false)
    (answered : s.requested kind = false) :
    (s.goto i (.running (k ()))).tick.Solo ∧
      (s.goto i (.running (k ()))).tick.outcome = s.outcome := by
  have hflags : ∀ kind', s.requested kind' = false := by
    intro kind'
    by_contra hup
    rw [Bool.not_eq_false] at hup
    obtain rfl := h.own kind k since blocked kind' hup
    rw [answered] at hup
    cases hup
  refine ⟨h.goto hflags (by simp), ?_⟩
  rw [outcome_of_blocked blocked, answer_of_free free, answered]
  rfl

/-- A thread that rests changes nothing. -/
theorem Solo.rest (h : s.Solo) {t : CompactionThread} (free : s.latched = false)
    (rests : ∀ kind p start, t ≠ .compacting kind p start) :
    ({ s with thread := t } : CompactionSystem Unit α).tick.Solo ∧
      ({ s with thread := t } : CompactionSystem Unit α).tick.outcome = s.outcome := by
  refine ⟨⟨h.calm, h.own, fun kind p start hthread => absurd hthread (rests kind p start)⟩, ?_⟩
  have free' : ({ s with thread := t } : CompactionSystem Unit α).tick.latched = false := by
    cases t with
    | compacting kind p start => exact absurd rfl (rests kind p start)
    | _ => rfl
  cases hclient : s.clients () with
  | running p =>
    rw [outcome_of_running hclient]
    exact outcome_of_running hclient
  | joining k =>
    rw [outcome_of_joining hclient]
    exact outcome_of_joining hclient
  | blocked kind k since =>
    rw [outcome_of_blocked hclient, answer_of_free free]
    exact Eq.trans (outcome_of_blocked hclient) (answer_of_free free')

/-- **A compaction starts** while the client waits for it. -/
theorem Solo.launch (h : s.Solo) {kind : CompactionKind} (free : s.latched = false)
    (asked : s.requested kind = true) :
    (s.launchNow kind).tick.Solo ∧ (s.launchNow kind).tick.outcome = s.outcome := by
  obtain ⟨k, since, hblocked⟩ := h.blocked_of_requested asked
  refine ⟨⟨h.calm, h.own, ?_⟩, ?_⟩
  · intro kind' p start hthread
    cases hthread
    exact asked
  · rw [outcome_of_blocked hblocked, answer_of_free free, asked, if_pos rfl]
    refine Eq.trans (outcome_of_blocked hblocked) ?_
    show (run Store.handle (GhostDB.launch kind) s.world.store).bind _ = _
    rw [run_bind, World.run_request]
    cases run Store.handle (GhostDB.launch kind) s.world.store <;> rfl

/-- **A compaction goes on** while the client waits for it. -/
theorem Solo.compact (h : s.Solo) {kind : CompactionKind} {start : Nat} {o : StoreOp}
    {k : StoreSig.Res o → Prog StoreSig Unit} {r : StoreSig.Res o} {store : Store}
    (runs : s.thread = .compacting kind (.call (S := StoreSig) o k) start)
    (ok : Store.handle o s.world.store = .ok (r, store)) :
    ({ s with
        world := { s.world with store := store }
        thread := .compacting kind (k r) start } : CompactionSystem Unit α).tick.Solo ∧
      ({ s with
        world := { s.world with store := store }
        thread := .compacting kind (k r) start } :
          CompactionSystem Unit α).tick.outcome = s.outcome := by
  have asked := h.asked kind _ start runs
  obtain ⟨k', since, hblocked⟩ := h.blocked_of_requested asked
  refine ⟨⟨h.calm, h.own, ?_⟩, ?_⟩
  · intro kind' p start' hthread
    cases hthread
    exact asked
  · have hcall : run Store.handle (.call (S := StoreSig) o k) s.world.store =
        run Store.handle (k r) store := run_call_of_ok ok
    rw [outcome_of_blocked hblocked, answer_of_compacting runs, hcall]
    exact Eq.trans (outcome_of_blocked hblocked) (answer_of_compacting rfl)

/-- The end of a compaction takes its own flag down. -/
theorem finishNow_lowers (s : CompactionSystem Unit α) (kind : CompactionKind) (start : Nat) :
    (s.finishNow kind start).requested kind = false := by
  cases kind with
  | major => rfl
  | minor =>
    show Function.update s.requested .minor false .minor = false
    exact Function.update_self ..

/-- It puts no flag up. -/
theorem requested_of_finishNow {kind kind' : CompactionKind} (start : Nat)
    (hup : (s.finishNow kind start).requested kind' = true) : s.requested kind' = true := by
  cases kind with
  | major => cases hup
  | minor =>
    have hold : Function.update s.requested .minor false kind' = true := hup
    by_cases hkind : kind' = .minor
    · rw [hkind, Function.update_self] at hold
      cases hold
    · rwa [Function.update_of_ne hkind] at hold

/-- **A compaction ends** and leaves the client in front of its next step. -/
theorem Solo.finish (h : s.Solo) {kind : CompactionKind} {start : Nat}
    (runs : s.thread = .compacting kind (.ret ()) start) :
    (s.finishNow kind start).tick.Solo ∧ (s.finishNow kind start).tick.outcome = s.outcome := by
  obtain ⟨k, since, hblocked⟩ := h.blocked_of_requested (h.asked kind _ start runs)
  refine ⟨⟨fun hcalm => absurd hblocked (hcalm kind k since), ?_, ?_⟩, ?_⟩
  · intro kind' k' since' hblocked' kind'' hup
    exact h.own kind' k' since' hblocked' kind'' (requested_of_finishNow start hup)
  · intro kind' p start' hthread
    cases hthread
  · rw [outcome_of_blocked hblocked, answer_of_compacting runs]
    refine Eq.trans (outcome_of_blocked hblocked) ?_
    refine Eq.trans (answer_of_free rfl) ?_
    show (if (s.finishNow kind start).requested kind = true then _ else _) = _
    rw [finishNow_lowers]
    rfl

end Effects

/-- **Every effect keeps the invariant and what is left to happen.** -/
theorem Solo.turn {s t : CompactionSystem Unit α} (h : s.Solo) (ht : Turn s t) :
    t.tick.Solo ∧ t.tick.outcome = s.outcome := by
  cases ht with
  | stay => exact ⟨⟨h.calm, h.own, h.asked⟩, rfl⟩
  | call i runs ok => exact h.call runs ok
  | request i runs free => exact h.request runs free
  | returns i blocked free answered => exact h.returns blocked free answered
  | disable i runs =>
    refine ⟨(h.withWorld s.world false).goto (h.calm_of_running runs) (by simp), ?_⟩
    rw [outcome_of_running runs]
    rfl
  | joined i joins =>
    refine ⟨h.goto (h.calm_of_joining joins) (by simp), ?_⟩
    rw [outcome_of_joining joins]
    rfl
  | thread t free rests => exact h.rest free rests
  | launch kind free asked => exact h.launch free asked
  | compact runs ok => exact h.compact runs ok
  | finish runs => exact h.finish runs

theorem Solo.step {s s' : CompactionSystem Unit α} {a : CompactionAction Unit} (h : s.Solo)
    (hstep : CompactionSystem.step a s = .ok s') : s'.Solo ∧ s'.outcome = s.outcome := by
  obtain ⟨t, hturn, rfl⟩ := step_turn hstep
  exact h.turn hturn

/-- A client's action fails where the sequential run does. -/
theorem Solo.clientTurn_error {s : CompactionSystem Unit α} {i : Unit} {e : Fault}
    (hturn : s.clientTurn i = .error e) : s.outcome = .error e := by
  unfold clientTurn at hturn
  split at hturn
  next => cases hturn
  next o k hruns =>
    cases ho : World.handleStore o s.world with
    | ok x => rw [ho] at hturn; cases hturn
    | error e' =>
      rw [ho] at hturn
      cases hturn
      rw [outcome_of_running hruns]
      exact World.run_call_inl_error ho
  next => split at hturn <;> cases hturn
  next => cases hturn
  next f k hruns =>
    cases hturn
    rw [outcome_of_running hruns]
    rfl
  next => split at hturn <;> cases hturn
  next => split at hturn <;> cases hturn

/-- So does an action of the thread. -/
theorem Solo.threadTurn_error {s : CompactionSystem Unit α} (h : s.Solo) {timeout : Bool}
    {e : Fault} (hturn : s.threadTurn timeout = .error e) : s.outcome = .error e := by
  unfold threadTurn at hturn
  split at hturn
  next =>
    split at hturn
    next => split at hturn <;> cases hturn
    next => cases hturn
  next =>
    split at hturn
    next => cases hturn
    next => split at hturn <;> cases hturn
  next kind o k start hruns =>
    obtain ⟨k', since, hblocked⟩ := h.blocked_of_requested (h.asked kind _ start hruns)
    cases ho : Store.handle o s.world.store with
    | ok x => rw [ho] at hturn; cases hturn
    | error e' =>
      rw [ho] at hturn
      cases hturn
      rw [outcome_of_blocked hblocked, answer_of_compacting hruns, run_call, ho]
      rfl
  next => cases hturn
  next => cases hturn

/-- **An action fails** where the sequential run does. -/
theorem Solo.step_error {s : CompactionSystem Unit α} {a : CompactionAction Unit} {e : Fault}
    (h : s.Solo) (hstep : CompactionSystem.step a s = .error e) : s.outcome = .error e := by
  have hmap : ∀ x : Except Fault (CompactionSystem Unit α), x.map tick = .error e →
      x = .error e := by
    intro x hx
    cases x with
    | error e' => exact congrArg Except.error (Except.error.inj hx)
    | ok t => cases hx
  cases a with
  | client i => exact Solo.clientTurn_error (hmap _ hstep)
  | thread timeout => exact h.threadTurn_error (hmap _ hstep)

/-! ## Every interleaving -/

/-- **Every interleaving agrees with the sequential run**, if no flag is up at
the start: no compaction overlaps the client, a client that is done has the
result and the store of `World.handle`, and an interleaving fails only if
`World.handle` does. -/
theorem interleavings_agree {w : World} {requested : CompactionKind → Bool}
    (hflags : ∀ kind, requested kind = false) (p : Prog ClientSig α)
    (schedule : List (CompactionAction Unit)) :
    (∀ s, Schedule.run step schedule (start w requested fun _ => p) = .ok s →
      s.NoOverlap ∧ s.outcome = run World.handle p w) ∧
    ∀ e, Schedule.run step schedule (start w requested fun _ => p) = .error e →
      run World.handle p w = .error e := by
  have hstep : ∀ (a : CompactionAction Unit) (s s' : CompactionSystem Unit α),
      s.Solo ∧ s.outcome = run World.handle p w → step a s = .ok s' →
      s'.Solo ∧ s'.outcome = run World.handle p w := by
    intro a s s' h hok
    obtain ⟨hsolo, houtcome⟩ := h.1.step hok
    exact ⟨hsolo, houtcome.trans h.2⟩
  have hstart : (start w requested fun _ : Unit => p).Solo ∧
      (start w requested fun _ : Unit => p).outcome = run World.handle p w :=
    ⟨Solo.start w hflags _, rfl⟩
  constructor
  · intro s hrun
    obtain ⟨hsolo, houtcome⟩ := Schedule.run_invariant hstep hstart hrun
    exact ⟨hsolo.noOverlap, houtcome⟩
  · intro e hrun
    obtain ⟨a, s, ⟨hsolo, houtcome⟩, herr⟩ := Schedule.run_error hstep hstart hrun
    rw [← houtcome]
    exact hsolo.step_error herr

/-- A flag that is up at the start is answered by a compaction, whatever the
client is doing. -/
theorem overlap_of_requested {w : World} {requested : CompactionKind → Bool}
    {kind : CompactionKind} (hup : requested kind = true) (p : Prog ClientSig α) :
    ∃ s, Schedule.run step [.thread false] (start w requested fun _ : Unit => p) = .ok s ∧
      ¬ s.NoOverlap := by
  obtain ⟨kind', hchosen⟩ : ∃ kind', (start w requested fun _ : Unit => p).chosen = some kind' := by
    unfold chosen
    split
    next => exact ⟨_, rfl⟩
    next hmajor =>
      cases kind with
      | major => exact absurd hup hmajor
      | minor => exact ⟨.minor, if_pos hup⟩
  have hturn : threadTurn false (start w requested fun _ : Unit => p) =
      .ok ((start w requested fun _ => p).launchNow kind') := by
    simp only [threadTurn, start] at hchosen ⊢
    rw [hchosen]
    rfl
  refine ⟨((start w requested fun _ => p).launchNow kind').tick, ?_, not_noOverlap rfl rfl⟩
  rw [Schedule.run_cons, step, hturn]
  rfl

/-- **When a compaction never overlaps a client operation.**  Both request flags
start false if and only if in every interleaving of the client with the
compaction thread a compaction runs only while the client is blocked in a
request, and a client that is done has the result and the store it would have
had with every request answered at once by a whole compaction. -/
theorem compaction_never_overlaps_iff (w : World) (requested : CompactionKind → Bool)
    (p : Prog ClientSig α) :
    (∀ schedule s, Schedule.run step schedule (start w requested fun _ => p) = .ok s →
      s.NoOverlap ∧
      ∀ a, s.clients () = .running (.ret a) → run World.handle p w = .ok (a, s.world)) ↔
    ∀ kind, requested kind = false := by
  constructor
  · intro h kind
    by_contra hup
    rw [Bool.not_eq_false] at hup
    obtain ⟨s, hrun, hoverlap⟩ := overlap_of_requested hup p
    exact hoverlap (h _ s hrun).1
  · intro hflags schedule s hrun
    obtain ⟨hno, houtcome⟩ := (interleavings_agree hflags p schedule).1 s hrun
    refine ⟨hno, ?_⟩
    intro a hdone
    rw [← houtcome, outcome_of_running hdone]
    rfl

/-- **A stray request.**  On a new database whose minor request flag happens to
be up, a `Get` reads a run in the middle of a compaction. -/
theorem stray_request_overlaps :
    ∃ w₀ s s', Db.construct 0 ⟨none, none, none⟩ = .ok (Buffer.empty, w₀) ∧
      Schedule.run step [.thread false, .thread false]
        (start w₀ (fun kind => decide (kind = .minor)) fun _ : Unit => Db.get Buffer.empty 1) =
          .ok s ∧
      step (.client ()) s = .ok s' ∧ s.latched = true ∧ s'.latched = true ∧
      ¬ s.NoOverlap ∧ ¬ s'.NoOverlap := by
  obtain ⟨w₀, hconstruct, hat⟩ := construct_at 0 ⟨none, none, none⟩
  obtain ⟨k, hget⟩ : ∃ k, Db.get Buffer.empty 1 =
      .call (S := ClientSig) (.inl (.loadSSTable 0 0)) k := ⟨_, rfl⟩
  have hload : World.handleStore (.loadSSTable 0 0) w₀ = .ok (none, w₀) := by
    have hempty : Slots.ofList (contents (layout w₀.flushed)) 14 = none := by
      rw [show w₀.flushed = [] from congrArg Prod.fst hat.split]
      rfl
    have hnone := load_none hat.holds.rep (by decide) hempty
    rw [show fillPos 14 = (0, 0) by decide, SSTableManager.run_loadSSTable] at hnone
    have hhandle : Store.handle (.loadSSTable 0 0) w₀.store = .ok (none, w₀.store) := hnone
    show (Store.handle (.loadSSTable 0 0) w₀.store).map _ = _
    rw [hhandle]
    simp [Except.map, flushedBy]
  rw [hget]
  obtain ⟨s, hrun, hclient, hlatched, hworld⟩ : ∃ s : CompactionSystem Unit (Option Val),
      Schedule.run step [.thread false, .thread false]
        (start w₀ (fun kind => decide (kind = .minor)) fun _ =>
          .call (S := ClientSig) (.inl (.loadSSTable 0 0)) k) = .ok s ∧
      s.clients () = .running (.call (S := ClientSig) (.inl (.loadSSTable 0 0)) k) ∧
      s.latched = true ∧ s.world = w₀ := ⟨_, rfl, rfl, rfl, rfl⟩
  have hread : step (.client ()) s =
      .ok (({ s with world := w₀ } : CompactionSystem Unit (Option Val)).goto ()
        (.running (k none))).tick := by
    simp only [step, clientTurn, hclient]
    rw [hworld, hload]
    rfl
  refine ⟨w₀, s, _, hconstruct, hrun, hread, hlatched, hlatched, ?_, ?_⟩
  · exact not_noOverlap hlatched hclient
  · exact not_noOverlap hlatched rfl

/-! ## Sessions -/

/-- **The database refines a finite map in every interleaving** of its client
with the compaction thread, the request flags starting false. -/
theorem interleaved_session_refines_map (fuel : Nat) (files : Files) (calls : List Call) :
    ∃ w₀, Db.construct fuel files = .ok (Buffer.empty, w₀) ∧
      ∀ schedule s b replies, Schedule.run step schedule
          (start w₀ (fun _ => false) fun _ : Unit => session (fuel + 2) calls) = .ok s →
        s.clients () = .running (.ret (b, replies)) → AnswersMap calls replies := by
  obtain ⟨w₀, hconstruct, hat⟩ := construct_at fuel files
  refine ⟨w₀, hconstruct, ?_⟩
  intro schedule s b replies hrun hdone
  have houtcome := ((interleavings_agree (fun _ => rfl) _ schedule).1 s hrun).2
  rw [outcome_of_running hdone] at houtcome
  rcases session_spec hat fuel calls with herr | herr | ⟨b', replies', w, hok, -, hmap⟩
  · rw [herr] at houtcome
    cases houtcome
  · rw [herr] at houtcome
    cases houtcome
  · rw [hok] at houtcome
    cases houtcome
    exact hmap

end CompactionSystem

end GhostDB
