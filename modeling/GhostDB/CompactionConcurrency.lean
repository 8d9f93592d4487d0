import GhostDB.Client
import GhostDB.Library.Schedule

/-!
# The compaction manager and its threads

Clients make their calls and request compactions while the compaction thread
runs its loop.  A section that holds `latch_` is one action, but for a
compaction: the thread holds the latch all through it, and every call of
`LaunchCompactionImpl` is an action of its own.  A wait on a condition variable
ends one action, and the end of the wait is another, which may come at any time.

* `CompactionSystem.step` — the actions.
* `step_turn` — what an action can do.
* `Handshake` — the invariant of the requests: who waits has its flag up, or was
  served by a compaction that started behind its request.
* `requests_served` — a request returns only after such a compaction, and no
  flag is taken down otherwise.
-/

namespace GhostDB

open Prog

/-! ## The threads -/

/-- Where a client is. -/
inductive CompactionClient (α : Type)
  /-- Outside the compaction manager, with the rest of its program. -/
  | running (p : Prog ClientSig α)
  /-- In the wait of `RequestMinorCompaction` or `RequestMajorCompaction`.  The
  number is not part of the program: it says when the flag was set. -/
  | blocked (kind : CompactionKind) (k : Unit → Prog ClientSig α) (since : Nat)
  /-- In `compaction_future_.get()`. -/
  | joining (k : Unit → Prog ClientSig α)

/-- Where the compaction thread is. -/
inductive CompactionThread
  /-- Before an iteration of its loop. -/
  | loop
  /-- In `wait_for`. -/
  | waiting
  /-- In `LaunchMinorCompaction` or `LaunchMajorCompaction`, with the rest of it.
  The number is not part of the program: it says when the compaction started. -/
  | compacting (kind : CompactionKind) (p : Prog StoreSig Unit) (start : Nat)
  /-- Behind its loop. -/
  | exited

/-- A compaction that ran to its end. -/
structure Launch where
  kind : CompactionKind
  start : Nat
  finish : Nat
  deriving DecidableEq

/-- A major compaction answers both kinds of requests, a minor one its own. -/
def CompactionKind.Serves (launched requested : CompactionKind) : Prop :=
  launched = .major ∨ requested = .minor

/-- The compaction manager, the store and the threads. -/
structure CompactionSystem (ι α : Type) where
  /-- The store. -/
  world : World
  /-- `request_minor_compaction_` and `request_major_compaction_`. -/
  requested : CompactionKind → Bool
  /-- `enable_compaction_`. -/
  enable : Bool
  /-- The compaction thread. -/
  thread : CompactionThread
  /-- The clients. -/
  clients : ι → CompactionClient α
  /-- The number of actions so far; not part of the program. -/
  clock : Nat
  /-- The compactions that ran to their end; not part of the program. -/
  launches : List Launch

/-- What happens next. -/
inductive CompactionAction (ι : Type)
  /-- A client goes on with its program, or its wait is interrupted. -/
  | client (i : ι)
  /-- The compaction thread goes on; its wait is over if it timed out. -/
  | thread (timeout : Bool)

namespace CompactionSystem

variable {ι α : Type} [DecidableEq ι]

/-- What the constructor leaves: the two request flags are not initialised. -/
def start (world : World) (requested : CompactionKind → Bool) (programs : ι → Prog ClientSig α) :
    CompactionSystem ι α where
  world := world
  requested := requested
  enable := true
  thread := .loop
  clients := fun i => .running (programs i)
  clock := 0
  launches := []

/-- Does the thread hold the latch between two actions? -/
def latched (s : CompactionSystem ι α) : Bool :=
  match s.thread with
  | .compacting _ _ _ => true
  | _ => false

/-- The compaction asked for; a major one owns precedence. -/
def chosen (s : CompactionSystem ι α) : Option CompactionKind :=
  if s.requested .major then some .major
  else if s.requested .minor then some .minor
  else none

/-- A client goes elsewhere. -/
def goto (s : CompactionSystem ι α) (i : ι) (c : CompactionClient α) : CompactionSystem ι α :=
  { s with clients := Function.update s.clients i c }

/-- The thread starts a compaction. -/
def launchNow (s : CompactionSystem ι α) (kind : CompactionKind) : CompactionSystem ι α :=
  { s with thread := .compacting kind (launch kind) s.clock }

/-- The thread is done with a compaction: it answers the requests. -/
def finishNow (s : CompactionSystem ι α) (kind : CompactionKind) (start : Nat) :
    CompactionSystem ι α :=
  { s with
    requested :=
      match kind with
      | .major => fun _ => false
      | .minor => Function.update s.requested .minor false
    thread := .loop
    launches := s.launches ++ [⟨kind, start, s.clock⟩] }

/-- An action of a client. -/
def clientTurn (i : ι) (s : CompactionSystem ι α) : Except Fault (CompactionSystem ι α) :=
  match s.clients i with
  | .running (.ret _) => .ok s
  | .running (.call (.inl o) k) => do
    let (r, world) ← World.handleStore o s.world
    return ({ s with world := world } : CompactionSystem ι α).goto i (.running (k r))
  | .running (.call (.inr (.request kind)) k) =>
    if s.latched then .ok s
    else .ok (({ s with requested := Function.update s.requested kind true } :
      CompactionSystem ι α).goto i (.blocked kind k s.clock))
  | .running (.call (.inr .disable) k) =>
    .ok (({ s with enable := false } : CompactionSystem ι α).goto i (.joining k))
  | .running (.call (.inr (.fault f)) _) => .error f
  | .blocked kind k _ =>
    if s.latched ∨ s.requested kind then .ok s else .ok (s.goto i (.running (k ())))
  | .joining k =>
    match s.thread with
    | .exited => .ok (s.goto i (.running (k ())))
    | _ => .ok s

/-- An action of the compaction thread. -/
def threadTurn (timeout : Bool) (s : CompactionSystem ι α) :
    Except Fault (CompactionSystem ι α) :=
  match s.thread with
  | .loop =>
    if s.enable then
      match s.chosen with
      | some kind => .ok (s.launchNow kind)
      | none => .ok { s with thread := .waiting }
    else .ok { s with thread := .exited }
  | .waiting =>
    match s.chosen with
    | some kind => .ok (s.launchNow kind)
    | none => if timeout then .ok { s with thread := .loop } else .ok s
  | .compacting kind (.call o k) start => do
    let (r, store) ← Store.handle o s.world.store
    return { s with
      world := { s.world with store := store }
      thread := .compacting kind (k r) start }
  | .compacting kind (.ret _) start => .ok (s.finishNow kind start)
  | .exited => .ok s

/-- Time passes. -/
def tick (s : CompactionSystem ι α) : CompactionSystem ι α := { s with clock := s.clock + 1 }

/-- One action. -/
def step (a : CompactionAction ι) (s : CompactionSystem ι α) :
    Except Fault (CompactionSystem ι α) :=
  match a with
  | .client i => (s.clientTurn i).map tick
  | .thread timeout => (s.threadTurn timeout).map tick

/-! ## What an action can do -/

/-- The effects of the actions, with what each of them relies on. -/
inductive Turn (s : CompactionSystem ι α) : CompactionSystem ι α → Prop
  /-- Nothing. -/
  | stay : Turn s s
  /-- A client makes a call to the store. -/
  | call (i : ι) {o : StoreOp} {k : StoreSig.Res o → Prog ClientSig α} {r : StoreSig.Res o}
      {world : World} (runs : s.clients i = .running (.call (S := ClientSig) (.inl o) k))
      (ok : World.handleStore o s.world = .ok (r, world)) :
      Turn s (({ s with world := world } : CompactionSystem ι α).goto i (.running (k r)))
  /-- A client requests a compaction and blocks. -/
  | request (i : ι) {kind : CompactionKind} {k : Unit → Prog ClientSig α}
      (runs : s.clients i = .running (.call (S := ClientSig) (.inr (.request kind)) k))
      (free : s.latched = false) :
      Turn s (({ s with requested := Function.update s.requested kind true } :
        CompactionSystem ι α).goto i (.blocked kind k s.clock))
  /-- A request returns. -/
  | returns (i : ι) {kind : CompactionKind} {k : Unit → Prog ClientSig α} {since : Nat}
      (blocked : s.clients i = .blocked kind k since) (free : s.latched = false)
      (answered : s.requested kind = false) : Turn s (s.goto i (.running (k ())))
  /-- A client stops the thread. -/
  | disable (i : ι) {k : Unit → Prog ClientSig α}
      (runs : s.clients i = .running (.call (S := ClientSig) (.inr .disable) k)) :
      Turn s (({ s with enable := false } : CompactionSystem ι α).goto i (.joining k))
  /-- The thread is gone. -/
  | joined (i : ι) {k : Unit → Prog ClientSig α} (joins : s.clients i = .joining k) :
      Turn s (s.goto i (.running (k ())))
  /-- The thread goes to wait, back to its loop or behind it. -/
  | thread (t : CompactionThread) (free : s.latched = false)
      (rests : ∀ kind p start, t ≠ .compacting kind p start) : Turn s { s with thread := t }
  /-- The thread starts a compaction. -/
  | launch (kind : CompactionKind) (free : s.latched = false) (asked : s.requested kind = true) :
      Turn s (s.launchNow kind)
  /-- The compaction makes a call to the store. -/
  | compact {kind : CompactionKind} {start : Nat} {o : StoreOp}
      {k : StoreSig.Res o → Prog StoreSig Unit} {r : StoreSig.Res o} {store : Store}
      (runs : s.thread = .compacting kind (.call (S := StoreSig) o k) start)
      (ok : Store.handle o s.world.store = .ok (r, store)) :
      Turn s { s with
        world := { s.world with store := store }
        thread := .compacting kind (k r) start }
  /-- The compaction is done. -/
  | finish {kind : CompactionKind} {start : Nat}
      (runs : s.thread = .compacting kind (.ret ()) start) : Turn s (s.finishNow kind start)

omit [DecidableEq ι] in
theorem chosen_eq_some {s : CompactionSystem ι α} {kind : CompactionKind}
    (h : s.chosen = some kind) : s.requested kind = true := by
  rw [chosen] at h
  split at h
  next hmajor => cases h; exact hmajor
  next =>
    split at h
    next hminor => cases h; exact hminor
    next => cases h

omit [DecidableEq ι] in
theorem latched_of_loop {s : CompactionSystem ι α} (h : s.thread = .loop) : s.latched = false := by
  rw [latched, h]

omit [DecidableEq ι] in
theorem latched_of_waiting {s : CompactionSystem ι α} (h : s.thread = .waiting) :
    s.latched = false := by
  rw [latched, h]

/-- **Inversion of a client's action.** -/
theorem clientTurn_turn {s s' : CompactionSystem ι α} {i : ι} (h : s.clientTurn i = .ok s') :
    Turn s s' := by
  unfold clientTurn at h
  split at h
  next => cases h; exact .stay
  next o k hruns =>
    cases ho : World.handleStore o s.world with
    | error e => rw [ho] at h; cases h
    | ok x =>
      obtain ⟨r, world⟩ := x
      rw [ho] at h
      cases h
      exact .call i hruns ho
  next kind k hruns =>
    split at h
    next => cases h; exact .stay
    next hfree => cases h; exact .request i hruns (by simpa using hfree)
  next k hruns => cases h; exact .disable i hruns
  next => cases h
  next kind k since hblocked =>
    split at h
    next => cases h; exact .stay
    next hfree =>
      cases h
      rw [not_or] at hfree
      exact .returns i hblocked (by simpa using hfree.1) (by simpa using hfree.2)
  next k hjoins =>
    split at h
    next => cases h; exact .joined i hjoins
    next => cases h; exact .stay

/-- **Inversion of the thread's action.** -/
theorem threadTurn_turn {s s' : CompactionSystem ι α} {timeout : Bool}
    (h : s.threadTurn timeout = .ok s') : Turn s s' := by
  unfold threadTurn at h
  split at h
  next hloop =>
    have hfree := latched_of_loop hloop
    split at h
    next =>
      split at h
      next kind hchosen => cases h; exact .launch kind hfree (chosen_eq_some hchosen)
      next => cases h; exact .thread .waiting hfree (by simp)
    next => cases h; exact .thread .exited hfree (by simp)
  next hwaiting =>
    have hfree := latched_of_waiting hwaiting
    split at h
    next kind hchosen => cases h; exact .launch kind hfree (chosen_eq_some hchosen)
    next =>
      split at h
      next => cases h; exact .thread .loop hfree (by simp)
      next => cases h; exact .stay
  next kind o k start hruns =>
    cases ho : Store.handle o s.world.store with
    | error e => rw [ho] at h; cases h
    | ok x =>
      obtain ⟨r, store⟩ := x
      rw [ho] at h
      cases h
      exact .compact hruns ho
  next kind u start hruns => cases h; exact .finish hruns
  next => cases h; exact .stay

/-- **Inversion of `step`.** -/
theorem step_turn {a : CompactionAction ι} {s s' : CompactionSystem ι α}
    (h : step a s = .ok s') : ∃ t, Turn s t ∧ s' = t.tick := by
  cases a with
  | client i =>
    rw [step] at h
    cases ht : s.clientTurn i with
    | error e => rw [ht] at h; cases h
    | ok t =>
      rw [ht] at h
      cases h
      exact ⟨t, clientTurn_turn ht, rfl⟩
  | thread timeout =>
    rw [step] at h
    cases ht : s.threadTurn timeout with
    | error e => rw [ht] at h; cases h
    | ok t =>
      rw [ht] at h
      cases h
      exact ⟨t, threadTurn_turn ht, rfl⟩

theorem step_client {s s' : CompactionSystem ι α} {i : ι} (h : step (.client i) s = .ok s') :
    ∃ t, s.clientTurn i = .ok t ∧ s' = t.tick := by
  rw [step] at h
  cases ht : s.clientTurn i with
  | error e =>
    rw [ht] at h
    cases h
  | ok t =>
    rw [ht] at h
    cases h
    exact ⟨t, rfl, rfl⟩

theorem step_thread {s s' : CompactionSystem ι α} {timeout : Bool}
    (h : step (.thread timeout) s = .ok s') : ∃ t, s.threadTurn timeout = .ok t ∧ s' = t.tick := by
  rw [step] at h
  cases ht : s.threadTurn timeout with
  | error e =>
    rw [ht] at h
    cases h
  | ok t =>
    rw [ht] at h
    cases h
    exact ⟨t, rfl, rfl⟩

/-! ## Requests are served -/

omit [DecidableEq ι] in
theorem not_compacting {s : CompactionSystem ι α} (free : s.latched = false)
    (kind : CompactionKind) (p : Prog StoreSig Unit) (start : Nat) :
    s.thread ≠ .compacting kind p start := by
  intro h
  rw [latched, h] at free
  cases free

theorem goto_self (s : CompactionSystem ι α) (i : ι) (c : CompactionClient α) :
    (s.goto i c).clients i = c := Function.update_self ..

/-- One client goes elsewhere, the others stay. -/
theorem clients_goto {s : CompactionSystem ι α} {i j : ι} {c d : CompactionClient α}
    (h : (s.goto i c).clients j = d) : (j = i ∧ c = d) ∨ s.clients j = d := by
  have hupdate : Function.update s.clients i c j = d := h
  by_cases hj : j = i
  · subst hj
    rw [Function.update_self] at hupdate
    exact .inl ⟨rfl, hupdate⟩
  · rw [Function.update_of_ne hj] at hupdate
    exact .inr hupdate

omit [DecidableEq ι] in
/-- A compaction answers the requests it serves and no others. -/
theorem finishNow_requested (s : CompactionSystem ι α) (kind : CompactionKind) (start : Nat)
    (kind' : CompactionKind) : kind.Serves kind' ∨
      (s.finishNow kind start).requested kind' = s.requested kind' := by
  cases kind with
  | major => exact .inl (.inl rfl)
  | minor =>
    cases kind' with
    | minor => exact .inl (.inr rfl)
    | major => exact .inr rfl

/-- **The invariant of the handshake.** -/
structure Handshake (s : CompactionSystem ι α) : Prop where
  /-- Whoever waits raised its flag in the past. -/
  past : ∀ i kind k since, s.clients i = .blocked kind k since → since < s.clock
  /-- Whoever waits during a compaction raised its flag before it started. -/
  before : ∀ kind p start, s.thread = .compacting kind p start → start < s.clock ∧
    ∀ i kind' k since, s.clients i = .blocked kind' k since → since < start
  /-- Whoever waits has its flag still up, or was served. -/
  served : ∀ i kind k since, s.clients i = .blocked kind k since → s.requested kind = true ∨
    ∃ l ∈ s.launches, l.kind.Serves kind ∧ since < l.start ∧ l.start < l.finish

omit [DecidableEq ι] in
theorem handshake_start (world : World) (requested : CompactionKind → Bool)
    (programs : ι → Prog ClientSig α) : (start world requested programs).Handshake where
  past := by
    intro i kind k since h
    cases h
  before := by
    intro kind p start h
    cases h
  served := by
    intro i kind k since h
    cases h

/-- A client that does not block leaves the handshake alone. -/
theorem Handshake.goto {s : CompactionSystem ι α} (h : s.Handshake) (i : ι)
    {c : CompactionClient α} (hc : ∀ kind k since, c ≠ .blocked kind k since) :
    (s.goto i c).tick.Handshake := by
  have hold : ∀ j kind k since, (s.goto i c).clients j = .blocked kind k since →
      s.clients j = .blocked kind k since := by
    intro j kind k since hj
    rcases clients_goto hj with ⟨-, heq⟩ | hj
    · exact absurd heq (hc kind k since)
    · exact hj
  refine ⟨?_, ?_, fun j kind k since hj => h.served j kind k since (hold j kind k since hj)⟩
  · intro j kind k since hj
    exact Nat.lt_succ_of_lt (h.past j kind k since (hold j kind k since hj))
  · intro kind p start hthread
    obtain ⟨hlt, hbefore⟩ := h.before kind p start hthread
    exact ⟨Nat.lt_succ_of_lt hlt,
      fun j kind' k since hj => hbefore j kind' k since (hold j kind' k since hj)⟩

omit [DecidableEq ι] in
/-- Nor does a change of the world or of the enabling flag. -/
theorem Handshake.withWorld {s : CompactionSystem ι α} (h : s.Handshake) (world : World)
    (enable : Bool) :
    ({ s with world := world, enable := enable } : CompactionSystem ι α).Handshake :=
  ⟨h.past, h.before, h.served⟩

omit [DecidableEq ι] in
/-- Nor does a thread that rests. -/
theorem Handshake.rest {s : CompactionSystem ι α} (h : s.Handshake) {t : CompactionThread}
    (rests : ∀ kind p start, t ≠ .compacting kind p start) :
    ({ s with thread := t } : CompactionSystem ι α).tick.Handshake := by
  refine ⟨fun j kind k since hj => Nat.lt_succ_of_lt (h.past j kind k since hj),
    fun kind p start hthread => absurd hthread (rests kind p start), h.served⟩

/-- **A request** raises its flag after every compaction so far, none being
under way. -/
theorem Handshake.request {s : CompactionSystem ι α} (h : s.Handshake) (i : ι)
    (kind : CompactionKind) (k : Unit → Prog ClientSig α) (free : s.latched = false) :
    (({ s with requested := Function.update s.requested kind true } :
      CompactionSystem ι α).goto i (.blocked kind k s.clock)).tick.Handshake := by
  refine ⟨?_, ?_, ?_⟩
  · intro j kind' k' since hj
    rcases clients_goto hj with ⟨-, heq⟩ | hj
    · cases heq
      exact Nat.lt_succ_self _
    · exact Nat.lt_succ_of_lt (h.past j kind' k' since hj)
  · intro kind' p start hthread
    exact absurd hthread (not_compacting free kind' p start)
  · intro j kind' k' since hj
    show Function.update s.requested kind true kind' = true ∨ _
    rcases clients_goto hj with ⟨-, heq⟩ | hj
    · cases heq
      exact .inl (Function.update_self ..)
    · by_cases hkind : kind' = kind
      · rw [hkind]
        exact .inl (Function.update_self ..)
      · rw [Function.update_of_ne hkind]
        exact h.served j kind' k' since hj

omit [DecidableEq ι] in
/-- **A compaction starts** after everyone who waits raised its flag. -/
theorem Handshake.launch {s : CompactionSystem ι α} (h : s.Handshake) (kind : CompactionKind) :
    (s.launchNow kind).tick.Handshake := by
  refine ⟨fun j kind' k since hj => Nat.lt_succ_of_lt (h.past j kind' k since hj),
    ?_, h.served⟩
  intro kind' p start hthread
  cases hthread
  exact ⟨Nat.lt_succ_self _, fun j kind' k since hj => h.past j kind' k since hj⟩

omit [DecidableEq ι] in
/-- A compaction goes on. -/
theorem Handshake.compact {s : CompactionSystem ι α} (h : s.Handshake) {kind : CompactionKind}
    {p : Prog StoreSig Unit} {start : Nat} (runs : s.thread = .compacting kind p start)
    (world : World) (p' : Prog StoreSig Unit) :
    ({ s with world := world, thread := .compacting kind p' start } :
      CompactionSystem ι α).tick.Handshake := by
  refine ⟨fun j kind' k since hj => Nat.lt_succ_of_lt (h.past j kind' k since hj),
    ?_, h.served⟩
  intro kind' q start' hthread
  cases hthread
  obtain ⟨hlt, hbefore⟩ := h.before kind p start runs
  exact ⟨Nat.lt_succ_of_lt hlt, hbefore⟩

omit [DecidableEq ι] in
/-- **A compaction ends**: everyone whose flag it takes down is served by it. -/
theorem Handshake.finish {s : CompactionSystem ι α} (h : s.Handshake) {kind : CompactionKind}
    {start : Nat} (runs : s.thread = .compacting kind (.ret ()) start) :
    (s.finishNow kind start).tick.Handshake := by
  obtain ⟨hlt, hbefore⟩ := h.before kind _ start runs
  refine ⟨fun j kind' k since hj => Nat.lt_succ_of_lt (h.past j kind' k since hj),
    fun kind' p start' hthread => (by cases hthread), ?_⟩
  intro j kind' k since hj
  show (s.finishNow kind start).requested kind' = true ∨ ∃ l ∈ s.launches ++ [_], _
  rcases finishNow_requested s kind start kind' with hserves | hsame
  · refine .inr ⟨⟨kind, start, s.clock⟩, by simp, hserves, ?_, hlt⟩
    exact hbefore j kind' k since hj
  · rw [hsame]
    refine (h.served j kind' k since hj).imp_right ?_
    rintro ⟨l, hl, hspec⟩
    exact ⟨l, List.mem_append_left _ hl, hspec⟩

/-- **Every action keeps the invariant.** -/
theorem Handshake.step {s s' : CompactionSystem ι α} {a : CompactionAction ι} (h : s.Handshake)
    (hstep : CompactionSystem.step a s = .ok s') : s'.Handshake := by
  obtain ⟨t, hturn, rfl⟩ := step_turn hstep
  cases hturn with
  | stay =>
    exact ⟨fun j kind k since hj => Nat.lt_succ_of_lt (h.past j kind k since hj),
      fun kind p start hthread => (h.before kind p start hthread).imp_left Nat.lt_succ_of_lt,
      h.served⟩
  | call i runs ok => exact (h.withWorld _ s.enable).goto i (by simp)
  | request i runs free => exact h.request i _ _ free
  | returns i blocked free answered => exact h.goto i (by simp)
  | disable i runs => exact (h.withWorld s.world false).goto i (by simp)
  | joined i joins => exact h.goto i (by simp)
  | thread t free rests => exact h.rest rests
  | launch kind free asked => exact h.launch kind
  | compact runs ok => exact h.compact runs _ _
  | finish runs => exact h.finish runs

/-- A flag goes down only at the end of a compaction that serves it, and that
started after everyone who waits raised its flag. -/
theorem Handshake.lowered {s s' : CompactionSystem ι α} {a : CompactionAction ι}
    (h : s.Handshake) (hstep : CompactionSystem.step a s = .ok s') {kind : CompactionKind}
    (hup : s.requested kind = true) (hdown : s'.requested kind = false) :
    ∃ l ∈ s'.launches, l.finish = s.clock ∧ l.kind.Serves kind ∧ l.start < l.finish ∧
      ∀ i kind' k since, s.clients i = .blocked kind' k since → since < l.start := by
  obtain ⟨t, hturn, rfl⟩ := step_turn hstep
  have hdown' : t.requested kind = false := hdown
  cases hturn with
  | @finish kind₀ start runs =>
    obtain ⟨hlt, hbefore⟩ := h.before _ _ start runs
    rcases finishNow_requested s kind₀ start kind with hserves | hsame
    · refine ⟨⟨kind₀, start, s.clock⟩, ?_, rfl, hserves, hlt, hbefore⟩
      exact List.mem_append_right _ (List.mem_singleton_self _)
    · rw [hsame, hup] at hdown'
      cases hdown'
  | @request i kind₀ k runs free =>
    have hraised : Function.update s.requested kind₀ true kind = true := by
      by_cases hkind : kind = kind₀
      · rw [hkind, Function.update_self]
      · rw [Function.update_of_ne hkind, hup]
    cases (hraised.symm.trans hdown' : true = false)
  | _ =>
    cases (hup.symm.trans hdown' : true = false)

/-- **The request handshake.**  Whatever the callers and the compaction thread
do in whatever order, and whatever the request flags start with: a request that
returns was served by a whole compaction, started after the request raised its
flag; and a flag is taken down only at the end of a compaction that serves it
and started after every waiting request was raised. -/
theorem requests_served {world : World} {requested : CompactionKind → Bool}
    {programs : ι → Prog ClientSig α} {schedule : List (CompactionAction ι)}
    {s : CompactionSystem ι α}
    (hrun : Schedule.run step schedule (start world requested programs) = .ok s) :
    (∀ i kind k since s', s.clients i = .blocked kind k since → step (.client i) s = .ok s' →
      (∀ k' since', s'.clients i ≠ .blocked kind k' since') →
      ∃ l ∈ s'.launches, l.kind.Serves kind ∧ since < l.start ∧ l.start < l.finish) ∧
    ∀ a kind s', step a s = .ok s' → s.requested kind = true → s'.requested kind = false →
      ∃ l ∈ s'.launches, l.finish = s.clock ∧ l.kind.Serves kind ∧ l.start < l.finish ∧
        ∀ i kind' k since, s.clients i = .blocked kind' k since → since < l.start := by
  have hinv : s.Handshake := Schedule.run_invariant (fun a t t' ht hstep => ht.step hstep)
    (handshake_start world requested programs) hrun
  refine ⟨?_, fun a kind s' hstep => hinv.lowered hstep⟩
  intro i kind k since s' hblocked hstep hreturned
  simp only [step, clientTurn, hblocked] at hstep
  split at hstep
  next =>
    cases hstep
    exact absurd hblocked (hreturned k since)
  next hfree =>
    cases hstep
    rw [not_or] at hfree
    exact (hinv.served i kind k since hblocked).resolve_left hfree.2

/-- Two callers, one of each kind. -/
def askBoth (i : Bool) : Prog ClientSig Unit :=
  bif i then requestMinorCompaction else requestMajorCompaction

/-- Both ask before the thread looks, and one major compaction answers them. -/
theorem both_requests_served :
    ∃ s s₁ s₂ : CompactionSystem Bool Unit,
      Schedule.run step [.client false, .client true, .thread false, .thread false, .thread false]
        (start ⟨Store.empty, []⟩ (fun _ => false) askBoth) = .ok s ∧
      step (.client false) s = .ok s₁ ∧ step (.client true) s = .ok s₂ ∧
      (∃ l ∈ s₁.launches, l.kind.Serves .major ∧ 0 < l.start ∧ l.start < l.finish) ∧
      ∃ l ∈ s₂.launches, l.kind.Serves .minor ∧ 1 < l.start ∧ l.start < l.finish := by
  obtain ⟨s, hrun, hmajor, hminor, hdown, hfree⟩ : ∃ s : CompactionSystem Bool Unit,
      Schedule.run step [.client false, .client true, .thread false, .thread false, .thread false]
        (start ⟨Store.empty, []⟩ (fun _ => false) askBoth) = .ok s ∧
      s.clients false = .blocked .major .ret 0 ∧ s.clients true = .blocked .minor .ret 1 ∧
      (∀ kind, s.requested kind = false) ∧ s.latched = false :=
    ⟨_, rfl, rfl, rfl, fun _ => rfl, rfl⟩
  have hreturns : ∀ i kind since, s.clients i = .blocked kind .ret since →
      step (.client i) s = .ok (s.goto i (.running (.ret ()))).tick := by
    intro i kind since hblocked
    simp only [step, clientTurn, hblocked, hdown, hfree]
    rfl
  have hserved : ∀ i kind since, s.clients i = .blocked kind .ret since →
      ∃ l ∈ (s.goto i (.running (.ret ()))).tick.launches,
        l.kind.Serves kind ∧ since < l.start ∧ l.start < l.finish := by
    intro i kind since hblocked
    refine (requests_served hrun).1 i kind .ret since _ hblocked (hreturns i kind since hblocked) ?_
    intro k since' h
    cases (goto_self s i (.running (.ret ()))).symm.trans h
  exact ⟨s, _, _, hrun, hreturns false _ _ hmajor, hreturns true _ _ hminor,
    hserved false _ _ hmajor, hserved true _ _ hminor⟩

end CompactionSystem

end GhostDB
