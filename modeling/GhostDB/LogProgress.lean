import GhostDB.Library.Progress
import GhostDB.LogConcurrency

/-!
# Every call to the log returns

Any number of clients make their calls to the log manager, one after the other.
A client in the wait of `AppendLogRecord` has asked for a flush once; when the
flush is done and others have filled the buffer again before it looks, nobody
asks for another.  It is the timeout of the flush thread that makes room.

* `LogClients.turn` — a client's next call or the end of its wait.
* `left` — what the clients have left; `owed` — the records among it.
* `Rested` — no request, and room in the buffer.
* `calls_return` — every call returns, and every record is kept, once.
* `room_needs_timeout` — a request may get lost.
-/

namespace GhostDB

/-- A call to the log manager. -/
inductive LogRequest
  /-- `AppendLogRecord(key, val)`. -/
  | append (key : Key) (val : Val)
  /-- `Flush`. -/
  | flush
  deriving DecidableEq

/-- The action that makes the call. -/
def LogRequest.action {ι : Type} (i : ι) : LogRequest → LogAction ι
  | .append key val => .append i key val
  | .flush => .flush i

/-- The log manager, and the calls its clients have still to make. -/
structure LogClients (ι : Type) where
  /-- The log manager and its threads. -/
  system : LogSystem ι
  /-- The calls. -/
  todo : ι → List LogRequest

/-- Whose turn it is. -/
inductive LogTurn (ι : Type)
  /-- A client makes its next call, or its wait is interrupted. -/
  | client (i : ι)
  /-- The flush thread goes on; its wait is over if it timed out. -/
  | flushThread (timeout : Bool)

/-- No flush is asked for, and the buffer takes another record. -/
def LogSystem.Rested {ι : Type} (s : LogSystem ι) : Prop :=
  s.log.requestFlush = false ∧ ¬ s.log.Full

namespace LogClients

variable {ι : Type} [DecidableEq ι] {s t : LogClients ι} {i : ι}

/-- One turn. -/
def turn : LogTurn ι → LogClients ι → Except Fault (LogClients ι)
  | .client i, s =>
    match s.system.clients i, s.todo i with
    | .idle, [] => .ok s
    | .idle, c :: cs =>
      (LogSystem.step (c.action i) s.system).map fun t => ⟨t, Function.update s.todo i cs⟩
    | _, _ => (LogSystem.step (.wake i) s.system).map fun t => ⟨t, s.todo⟩
  | .flushThread timeout, s =>
    (LogSystem.step (.flushThread timeout) s.system).map fun t => ⟨t, s.todo⟩

/-- What a client has left: a call that waits is half done. -/
def left (s : LogClients ι) (i : ι) : Nat :=
  2 * (s.todo i).length + if s.system.clients i = .idle then 0 else 1

/-- How often a client has still to append a record. -/
def owed (r : MappingType) (s : LogClients ι) (i : ι) : Nat :=
  (s.todo i).count (.append r.1 r.2) + if s.system.clients i = .waitRoom r.1 r.2 then 1 else 0

/-! ## One turn -/

/-- **A client gets on**: the others stay, and no record is lost. -/
structure GetsOn (i : ι) (s t : LogClients ι) : Prop where
  /-- It has less left. -/
  less : t.left i < s.left i
  /-- A record it no longer owes has been appended. -/
  kept : ∀ r, t.system.appended.count r + t.owed r i = s.system.appended.count r + s.owed r i
  /-- The others are where they were. -/
  others : ∀ j, j ≠ i → t.left j = s.left j ∧ ∀ r, t.owed r j = s.owed r j

/-- One client goes elsewhere. -/
def moved (s : LogClients ι) (i : ι) (log : LogManager) (appended : List MappingType)
    (c : LogClient) (cs : List LogRequest) : LogClients ι where
  system := { s.system with
    log := log
    clients := Function.update s.system.clients i c
    appended := appended }
  todo := Function.update s.todo i cs

theorem getsOn_moved {log : LogManager} {appended : List MappingType} {c : LogClient}
    {cs : List LogRequest}
    (hless : (2 * cs.length + if c = .idle then 0 else 1) < s.left i)
    (hkept : ∀ r, appended.count r +
        (cs.count (.append r.1 r.2) + if c = .waitRoom r.1 r.2 then 1 else 0) =
      s.system.appended.count r + s.owed r i) :
    GetsOn i s (s.moved i log appended c cs) := by
  refine ⟨?_, ?_, ?_⟩
  · simpa [moved, left] using hless
  · simpa [moved, owed] using hkept
  · intro j hj
    simp [moved, left, owed, Function.update_of_ne hj]

theorem count_append_singleton (l : List MappingType) (key : Key) (val : Val) (r : MappingType) :
    (l ++ [(key, val)]).count r =
      l.count r + [LogRequest.append key val].count (.append r.1 r.2) := by
  rw [List.count_append, List.count_singleton, List.count_singleton]
  congr 1
  have hiff : ((key, val) == r) = (LogRequest.append key val == .append r.1 r.2) := by
    rw [Bool.eq_iff_iff, beq_iff_eq, beq_iff_eq, Prod.ext_iff, LogRequest.append.injEq]
  rw [hiff]

/-- A call is made. -/
theorem call_turn (h : s.system.Inv) {c : LogRequest} {cs : List LogRequest}
    (hc : s.system.clients i = .idle) (htodo : s.todo i = c :: cs) :
    ∃ t, turn (.client i) s = .ok t ∧ t.system.Inv ∧ GetsOn i s t := by
  obtain ⟨u, hu, -, hinv⟩ := h.step (c.action i)
  have hless : ∀ b : Nat, b ≤ 1 → 2 * cs.length + b < s.left i := by
    intro b hb
    simp only [left, hc, htodo, List.length_cons]
    omega
  have howed : ∀ r : MappingType, s.owed r i = (c :: cs).count (.append r.1 r.2) := by
    intro r
    simp [owed, hc, htodo]
  have hcons : ∀ r : MappingType, (c :: cs).count (.append r.1 r.2) =
      [c].count (.append r.1 r.2) + cs.count (.append r.1 r.2) := by
    intro r
    rw [← List.count_append, List.singleton_append]
  refine ⟨⟨u, Function.update s.todo i cs⟩, ?_, hinv, ?_⟩
  · simp only [turn, hc, htodo, hu]
    rfl
  · cases c with
    | append key val =>
      by_cases hf : s.system.log.Full
      · simp only [LogRequest.action, LogSystem.step, hc, if_pos hf] at hu
        cases hu
        refine getsOn_moved (c := .waitRoom key val) (hless 1 le_rfl) ?_
        intro r
        rw [howed, hcons, List.count_singleton]
        simp only [LogClient.waitRoom.injEq, beq_iff_eq, LogRequest.append.injEq]
        omega
      · simp only [LogRequest.action, LogSystem.step, hc, if_neg hf] at hu
        cases hu
        refine getsOn_moved (c := .idle) (hless 0 (Nat.zero_le 1)) ?_
        intro r
        rw [howed, hcons, count_append_singleton]
        simp only [reduceCtorEq, if_false]
        omega
    | flush =>
      simp only [LogRequest.action, LogSystem.step, hc] at hu
      cases hu
      refine getsOn_moved (c := .waitFlush _) (hless 1 le_rfl) ?_
      intro r
      rw [howed, hcons, List.count_singleton]
      simp

/-- A wait comes to its end. -/
theorem wake_turn (h : s.system.Inv) (hc : s.system.clients i ≠ .idle) :
    ∃ t, turn (.client i) s = .ok t ∧ t.system.Inv ∧
      (GetsOn i s t ∨ t = s ∧ ¬ s.system.Rested) := by
  obtain ⟨u, hu, -, hinv⟩ := h.step (.wake i)
  have hleft : 2 * (s.todo i).length < s.left i := by
    simp [left, hc]
  have hmoved : ∀ log appended, GetsOn i s (s.moved i log appended .idle (s.todo i)) →
      GetsOn i s ⟨{ s.system with
        log := log
        clients := Function.update s.system.clients i .idle
        appended := appended }, s.todo⟩ := by
    intro log appended hgets
    rwa [moved, Function.update_eq_self] at hgets
  refine ⟨⟨u, s.todo⟩, ?_, hinv, ?_⟩
  · simp only [turn]
    split
    next hidle _ => exact absurd hidle hc
    next hidle _ => exact absurd hidle hc
    next => rw [hu]; rfl
  · cases hplace : s.system.clients i with
    | idle => exact absurd hplace hc
    | waitRoom key val =>
      by_cases hf : s.system.log.Full
      · simp only [LogSystem.step, hplace, if_pos hf] at hu
        cases hu
        exact .inr ⟨rfl, fun hrested => hrested.2 hf⟩
      · simp only [LogSystem.step, hplace, if_neg hf] at hu
        cases hu
        refine .inl (hmoved _ _ (getsOn_moved (by simpa using hleft) ?_))
        intro r
        rw [count_append_singleton, List.count_singleton, owed, hplace]
        simp only [LogClient.waitRoom.injEq, beq_iff_eq, LogRequest.append.injEq, reduceCtorEq,
          if_false]
        omega
    | waitFlush before =>
      by_cases hr : s.system.log.requestFlush = true
      · simp only [LogSystem.step, hplace, if_pos hr] at hu
        cases hu
        exact .inr ⟨rfl, fun hrested => by simp [hrested.1] at hr⟩
      · simp only [LogSystem.step, hplace, if_neg hr] at hu
        cases hu
        refine .inl (hmoved _ _ (getsOn_moved (by simpa using hleft) ?_))
        intro r
        simp [owed, hplace]

/-- **A client's turn**: it gets on, unless it is done, a flush is asked for or
the buffer is full. -/
theorem client_turn (h : s.system.Inv) (i : ι) :
    ∃ t, turn (.client i) s = .ok t ∧ t.system.Inv ∧
      (GetsOn i s t ∨ t = s ∧ (s.left i = 0 ∨ ¬ s.system.Rested)) := by
  by_cases hc : s.system.clients i = .idle
  · cases htodo : s.todo i with
    | nil =>
      refine ⟨s, ?_, h, .inr ⟨rfl, .inl ?_⟩⟩
      · simp only [turn, hc, htodo]
      · simp [left, hc, htodo]
    | cons c cs =>
      obtain ⟨t, ht, hinv, hgets⟩ := call_turn h hc htodo
      exact ⟨t, ht, hinv, .inl hgets⟩
  · obtain ⟨t, ht, hinv, hgets⟩ := wake_turn h hc
    exact ⟨t, ht, hinv, hgets.imp_right fun hstays => ⟨hstays.1, .inr hstays.2⟩⟩

omit [DecidableEq ι] in
/-- An iteration of the flush thread. -/
theorem rested_flushSection {u v : LogSystem ι} (h : u.Inv) (hv : u.flushSection = .ok v) :
    v.Rested ∧ v.clients = u.clients ∧ v.appended = u.appended := by
  obtain ⟨log, hflush, -, hsize, hrequest⟩ := LogManager.flushSection_spec h.ok u.disk
  rw [LogSystem.flushSection, hflush] at hv
  cases hv
  exact ⟨⟨hrequest, LogManager.not_full_of_size_zero hsize⟩, rfl, rfl⟩

/-- **The flush thread's turn**: an iteration leaves the log at rest, and there is
one unless it goes to wait or waits on. -/
theorem flushThread_turn (h : s.system.Inv) (timeout : Bool) :
    ∃ u, turn (.flushThread timeout) s = .ok ⟨u, s.todo⟩ ∧ u.Inv ∧
      u.clients = s.system.clients ∧ u.appended = s.system.appended ∧
      (u.Rested ∨ u.log = s.system.log ∧ u.thread = .waiting ∧
        (s.system.thread = .waiting → timeout = false)) := by
  obtain ⟨u, hu, -, hinv⟩ := h.step (.flushThread timeout)
  refine ⟨u, by simp only [turn, hu]; rfl, hinv, ?_⟩
  have hiteration : s.system.flushSection = .ok u → u.clients = s.system.clients ∧
      u.appended = s.system.appended ∧ (u.Rested ∨ u.log = s.system.log ∧ u.thread = .waiting ∧
        (s.system.thread = .waiting → timeout = false)) := by
    intro hsection
    obtain ⟨hrested, hclients, happended⟩ := rested_flushSection h hsection
    exact ⟨hclients, happended, .inl hrested⟩
  cases hthread : s.system.thread with
  | loop =>
    simp only [LogSystem.step, hthread] at hu
    split at hu
    · simpa [hthread] using hiteration hu
    · cases hu
      exact ⟨rfl, rfl, .inr ⟨rfl, rfl, by simp⟩⟩
  | waiting =>
    simp only [LogSystem.step, hthread] at hu
    split at hu
    · simpa [hthread] using hiteration hu
    next hwaits =>
      cases hu
      exact ⟨rfl, rfl, .inr ⟨rfl, hthread, fun _ => by simpa using (not_or.1 hwaits).2⟩⟩

/-! ## As long as no client gets on -/

/-- Every client and the flush thread have their turns again and again, and the
wait of the thread times out again and again. -/
def turns : Set (Set (LogTurn ι)) := {c | (∃ i, c = {.client i}) ∨ c = {.flushThread true}}

/-- The clients have this left. -/
def Left (b : ι → Nat) (s : LogClients ι) : Prop := s.system.Inv ∧ s.left = b

/-- They have less left. -/
def LessLeft (b : ι → Nat) (s : LogClients ι) : Prop := s.system.Inv ∧ s.left < b

variable {b : ι → Nat}

theorem GetsOn.lt (h : GetsOn i s t) : t.left < s.left := by
  refine Pi.lt_def.2 ⟨?_, i, h.less⟩
  intro j
  by_cases hj : j = i
  · rw [hj]
    exact h.less.le
  · exact (h.others j hj).1.le

theorem Left.client (h : Left b s) (hs : turn (.client i) s = .ok t) :
    LessLeft b t ∨ t = s ∧ (b i = 0 ∨ ¬ s.system.Rested) := by
  obtain ⟨t', ht', hinv, hcases⟩ := client_turn h.1 i
  obtain rfl : t = t' := Except.ok.inj (hs.symm.trans ht')
  rcases hcases with hgets | ⟨rfl, hstays⟩
  · exact .inl ⟨hinv, h.2 ▸ hgets.lt⟩
  · exact .inr ⟨rfl, h.2 ▸ hstays⟩

theorem Left.flushThread {timeout : Bool} (h : Left b s)
    (hs : turn (.flushThread timeout) s = .ok t) :
    Left b t ∧ (t.system.Rested ∨ t.system.log = s.system.log ∧ t.system.thread = .waiting ∧
      (s.system.thread = .waiting → timeout = false)) := by
  obtain ⟨u, hu, hinv, hclients, -, hcases⟩ := flushThread_turn h.1 timeout
  cases hs.symm.trans hu
  refine ⟨⟨hinv, ?_⟩, hcases⟩
  rw [← h.2]
  funext i
  simp only [left, hclients]

/-- **A timeout** sends the thread to wait, or leaves the log at rest. -/
theorem leadsTo_waiting :
    Schedule.LeadsTo turn turns (Left b)
      (fun s => LessLeft b s ∨
        Left b s ∧ (s.system.Rested ∨ s.system.thread = .waiting)) := by
  have htimeout : ({.flushThread true} : Set (LogTurn ι)) ∈ turns := .inr rfl
  have hthread : ∀ timeout (s t : LogClients ι), Left b s →
      turn (.flushThread timeout) s = .ok t →
      Left b t ∧ (t.system.Rested ∨ t.system.thread = .waiting) := by
    intro timeout s t h hs
    obtain ⟨hleft, hcases⟩ := h.flushThread hs
    exact ⟨hleft, hcases.imp_right fun hwaits => hwaits.2.1⟩
  refine Schedule.LeadsTo.ensures htimeout ?_ ?_
  · rintro (i | timeout) s t h hs
    · rcases h.client hs with hless | ⟨rfl, -⟩
      · exact .inr (.inl hless)
      · exact .inl h
    · exact .inr (.inr (hthread timeout s t h hs))
  · rintro a rfl s t h hs
    exact .inr (hthread true s t h hs)

/-- **The next one** leaves it at rest. -/
theorem leadsTo_rested :
    Schedule.LeadsTo turn turns (fun s => Left b s ∧ s.system.thread = .waiting)
      (fun s => LessLeft b s ∨ Left b s ∧ s.system.Rested) := by
  have htimeout : ({.flushThread true} : Set (LogTurn ι)) ∈ turns := .inr rfl
  refine Schedule.LeadsTo.ensures htimeout ?_ ?_
  · rintro (i | timeout) s t ⟨h, hwaits⟩ hs
    · rcases h.client hs with hless | ⟨rfl, -⟩
      · exact .inr (.inl hless)
      · exact .inl ⟨h, hwaits⟩
    · obtain ⟨hleft, hrested | ⟨-, hwaits', -⟩⟩ := h.flushThread hs
      · exact .inr (.inr ⟨hleft, hrested⟩)
      · exact .inl ⟨hleft, hwaits'⟩
  · rintro a rfl s t ⟨h, hwaits⟩ hs
    obtain ⟨hleft, hrested | ⟨-, -, hnever⟩⟩ := h.flushThread hs
    · exact .inr ⟨hleft, hrested⟩
    · cases hnever hwaits

/-- **With the log at rest**, whoever has a turn gets on. -/
theorem leadsTo_lessLeft (hi : b i ≠ 0) :
    Schedule.LeadsTo turn turns (fun s => Left b s ∧ s.system.Rested) (LessLeft b) := by
  have hturn : ({.client i} : Set (LogTurn ι)) ∈ turns := .inl ⟨i, rfl⟩
  refine Schedule.LeadsTo.ensures hturn ?_ ?_
  · rintro (j | timeout) s t ⟨h, hrested⟩ hs
    · rcases h.client hs with hless | ⟨rfl, -⟩
      · exact .inr hless
      · exact .inl ⟨h, hrested⟩
    · obtain ⟨hleft, hrested' | ⟨hlog, -, -⟩⟩ := h.flushThread hs
      · exact .inl ⟨hleft, hrested'⟩
      · exact .inl ⟨hleft, by rwa [LogSystem.Rested, hlog]⟩
  · rintro a rfl s t ⟨h, hrested⟩ hs
    refine (h.client hs).resolve_right ?_
    rintro ⟨-, hdone | hno⟩
    · exact hi hdone
    · exact hno hrested

/-! ## Every call returns -/

theorem leadsTo_done [Finite ι] :
    Schedule.LeadsTo turn turns (fun s : LogClients ι => s.system.Inv)
      (fun s => s.system.Inv ∧ s.left = 0) := by
  refine Schedule.LeadsTo.of_wellFounded left fun b => ?_
  rintro x hfair n hn
  by_cases hb : b = 0
  · exact ⟨n, le_rfl, .inl (hb ▸ hn)⟩
  · obtain ⟨i, hi⟩ := Function.ne_iff.1 hb
    have hrested : Schedule.LeadsTo turn turns (Left b)
        (fun s => LessLeft b s ∨ Left b s ∧ s.system.Rested) := by
      refine leadsTo_waiting.trans (.or (.of_imp fun _ => .inl) ?_)
      rintro x hfair n ⟨h, hr | hw⟩
      · exact ⟨n, le_rfl, .inr ⟨h, hr⟩⟩
      · exact leadsTo_rested x hfair n ⟨h, hw⟩
    have hless := hrested.trans (.or (.of_imp fun _ => id) (leadsTo_lessLeft hi))
    obtain ⟨m, hnm, hm⟩ := hless x hfair n hn
    exact ⟨m, hnm, .inr hm⟩

section Records

variable [Fintype ι]

/-- The records of these calls are appended or still owed. -/
def Accounts (todo : ι → List LogRequest) (s : LogClients ι) : Prop :=
  ∀ r : MappingType, s.system.appended.count r + ∑ i, s.owed r i =
    ∑ i, (todo i).count (.append r.1 r.2)

/-- Two sums that differ in one summand. -/
theorem sum_add_eq {f g : ι → Nat} (h : ∀ j, j ≠ i → f j = g j) :
    ∑ j, f j + g i = ∑ j, g j + f i := by
  have hrest : ∑ j ∈ Finset.univ.erase i, f j = ∑ j ∈ Finset.univ.erase i, g j :=
    Finset.sum_congr rfl fun j hj => h j (Finset.ne_of_mem_erase hj)
  rw [← Finset.add_sum_erase _ f (Finset.mem_univ i), ← Finset.add_sum_erase _ g
    (Finset.mem_univ i), hrest]
  omega

variable {todo : ι → List LogRequest}

theorem GetsOn.accounts (h : GetsOn i s t) (hs : Accounts todo s) : Accounts todo t := by
  intro r
  have hsum := sum_add_eq (i := i) fun j hj => (h.others j hj).2 r
  have hkept := h.kept r
  have hbefore := hs r
  omega

/-- **Every turn** succeeds, and keeps the account of the records. -/
theorem exists_turn (h : s.system.Inv) (hs : Accounts todo s) (a : LogTurn ι) :
    ∃ t, turn a s = .ok t ∧ t.system.Inv ∧ Accounts todo t := by
  cases a with
  | client i =>
    obtain ⟨t, ht, hinv, hgets | ⟨rfl, -⟩⟩ := client_turn h i
    · exact ⟨t, ht, hinv, hgets.accounts hs⟩
    · exact ⟨t, ht, hinv, hs⟩
  | flushThread timeout =>
    obtain ⟨u, hu, hinv, hclients, happended, -⟩ := flushThread_turn h timeout
    refine ⟨_, hu, hinv, ?_⟩
    intro r
    rw [← hs r]
    simp only [owed, hclients, happended]

/-- **Every call returns, and every record is kept, once.**  Any number of
clients make their calls of `AppendLogRecord` and `Flush`.  Whatever the order of
turns, as long as every client has its own again and again and the wait of the
flush thread times out again and again: no assertion fails, there comes a point
where all calls have returned, and the file with the buffer then holds the
records of all calls and no others, as often as they were appended.

A client in a wait looks at its condition whenever it has its turn, notified or
not; the notifications are in `GhostDB.ProcessProgress`, for one client. -/
theorem calls_return (files : Files) (todo : ι → List LogRequest) {actions : Nat → LogTurn ι}
    (hfair : ∀ c ∈ turns, ∀ n, ∃ m, n ≤ m ∧ actions m ∈ c) :
    ∃ n s, Schedule.run turn ((List.range n).map actions) ⟨LogSystem.start files, todo⟩ = .ok s ∧
      (∀ i, s.system.clients i = .idle ∧ s.todo i = []) ∧
      s.system.disk.logIo.bytes ++ s.system.log.pending = memtableToString s.system.appended ∧
      ∀ r : MappingType,
        s.system.appended.count r = ∑ i, (todo i).count (.append r.1 r.2) := by
  have hstart : (LogSystem.start files : LogSystem ι).Inv := LogSystem.inv_start files
  have haccounts : Accounts todo ⟨LogSystem.start files, todo⟩ := by
    intro r
    simp [owed, LogSystem.start]
  have hstep : ∀ a (s : LogClients ι), s.system.Inv ∧ Accounts todo s →
      ∃ t, turn a s = .ok t ∧ t.system.Inv ∧ Accounts todo t :=
    fun a s hs => exists_turn hs.1 hs.2 a
  have htotal := fun actions => Schedule.run_total hstep actions ⟨hstart, haccounts⟩
  obtain ⟨x, hfirst, haction⟩ := Schedule.Execution.exists_of_total
    (fun actions => (htotal actions).imp fun _ h => h.1) actions
  have hx : x.Fair turns := by
    rw [Schedule.Execution.Fair, haction]
    exact hfair
  obtain ⟨n, -, hn, hdone⟩ := leadsTo_done x hx 0 (by rw [hfirst]; exact hstart)
  have htake := x.run_take n
  rw [hfirst, haction] at htake
  obtain ⟨s, hrun, -, hs⟩ := htotal ((List.range n).map actions)
  obtain rfl : x.state n = s := Except.ok.inj (htake.symm.trans hrun)
  have hidle : ∀ i, (x.state n).system.clients i = .idle ∧ (x.state n).todo i = [] := by
    intro i
    have hzero : (x.state n).left i = 0 := congrFun hdone i
    unfold left at hzero
    split at hzero
    next hc => exact ⟨hc, List.length_eq_zero_iff.1 (by omega)⟩
    next => omega
  refine ⟨n, x.state n, htake, hidle, hn.bytes, ?_⟩
  intro r
  have hsum := hs r
  simpa [owed, hidle] using hsum

/-- Two clients and the timeouts of the thread in rotation. -/
def rotation (n : Nat) : LogTurn Bool :=
  if n % 3 = 0 then .client false else if n % 3 = 1 then .client true else .flushThread true

theorem rotation_fair : ∀ c ∈ turns, ∀ n, ∃ m, n ≤ m ∧ rotation m ∈ c := by
  have hat : ∀ i n, rotation (3 * n + i) = rotation i := by
    intro i n
    rw [rotation, rotation, Nat.mul_add_mod]
  rintro c (⟨i, rfl⟩ | rfl) n
  · cases i
    · exact ⟨3 * n + 0, by omega, hat 0 n⟩
    · exact ⟨3 * n + 1, by omega, hat 1 n⟩
  · exact ⟨3 * n + 2, by omega, hat 2 n⟩

/-- One client appends a record three times, the other flushes. -/
theorem calls_return_three :
    ∃ n s, Schedule.run turn ((List.range n).map rotation)
        ⟨LogSystem.start ⟨none, none, none⟩, fun i => bif i then [.flush]
          else [.append 1 2, .append 1 2, .append 1 2]⟩ = .ok s ∧
      (∀ i, s.system.clients i = .idle) ∧ s.system.appended.count (1, 2) = 3 := by
  obtain ⟨n, s, hrun, hidle, -, hcount⟩ := calls_return ⟨none, none, none⟩
    (fun i => bif i then [.flush] else [.append 1 2, .append 1 2, .append 1 2]) rotation_fair
  exact ⟨n, s, hrun, fun i => (hidle i).1, (hcount (1, 2)).trans (by decide)⟩

end Records

end LogClients

/-! ## A request that is lost -/

namespace LogSystem

variable {ι : Type} [DecidableEq ι]

/-- **A client may wait for a timeout.**  When a client waits for room, the
buffer is full and no flush is asked for, then neither the client nor anybody
else who is in the log manager gets it on, however often they have their turns:
nothing is written until the flush thread times out or another call is made. -/
theorem room_needs_timeout {s s' : LogSystem ι} {i : ι} {key : Key} {val : Val}
    (hwaits : s.clients i = .waitRoom key val) (hfull : s.log.Full)
    (hcalm : s.log.requestFlush = false) {actions : List (LogAction ι)}
    (hactions : ∀ a ∈ actions, (∃ j, a = .wake j) ∨ a = .flushThread false)
    (hrun : Schedule.run step actions s = .ok s') :
    s'.clients i = .waitRoom key val ∧ s'.log = s.log ∧ s'.disk = s.disk := by
  have hstep : ∀ a ∈ actions, ∀ t t' : LogSystem ι,
      (t.clients i = .waitRoom key val ∧ t.log = s.log ∧ t.disk = s.disk) →
      step a t = .ok t' →
      t'.clients i = .waitRoom key val ∧ t'.log = s.log ∧ t'.disk = s.disk := by
    rintro a ha t t' ⟨hi, hlog, hdisk⟩ hok
    rcases hactions a ha with ⟨j, rfl⟩ | rfl
    · cases hj : t.clients j with
      | idle =>
        simp only [step, hj] at hok
        cases hok
        exact ⟨hi, hlog, hdisk⟩
      | waitRoom key' val' =>
        simp only [step, hj, hlog, if_pos hfull] at hok
        cases hok
        exact ⟨hi, hlog, hdisk⟩
      | waitFlush before =>
        simp only [step, hj, hlog, hcalm, Bool.false_eq_true, if_false] at hok
        cases hok
        have hne : i ≠ j := by
          rintro rfl
          rw [hi] at hj
          cases hj
        exact ⟨(Function.update_of_ne hne ..).trans hi, rfl, hdisk⟩
    · cases hthread : t.thread with
      | loop =>
        simp only [step, hthread, hlog, hcalm, Bool.false_eq_true, if_false] at hok
        cases hok
        exact ⟨hi, rfl, hdisk⟩
      | waiting =>
        simp only [step, hthread, hlog, hcalm, Bool.false_eq_true, or_self, if_false] at hok
        cases hok
        exact ⟨hi, hlog, hdisk⟩
  exact Schedule.run_invariant_mem hstep ⟨hwaits, rfl, rfl⟩ hrun

/-- Of two clients the first waits for room, and the second fills the buffer again
behind the flush that made it. -/
theorem room_needs_timeout_two :
    ∃ s s' : LogSystem (Fin 2),
      Schedule.run step [.append 0 1 1, .append 0 2 2, .append 0 3 3, .flushThread false,
          .append 1 4 4, .append 1 5 5] (start ⟨none, none, none⟩) = .ok s ∧
      Schedule.run step [.wake 0, .flushThread false, .flushThread false, .wake 0] s = .ok s' ∧
      s'.clients 0 = .waitRoom 3 3 := by
  obtain ⟨s, s', hs, hs', hwaits, hfull, hcalm⟩ : ∃ s s' : LogSystem (Fin 2),
      Schedule.run step [.append 0 1 1, .append 0 2 2, .append 0 3 3, .flushThread false,
          .append 1 4 4, .append 1 5 5] (start ⟨none, none, none⟩) = .ok s ∧
      Schedule.run step [.wake 0, .flushThread false, .flushThread false, .wake 0] s = .ok s' ∧
      s.clients 0 = .waitRoom 3 3 ∧ s.log.Full ∧ s.log.requestFlush = false :=
    ⟨_, _, rfl, rfl, rfl, by decide, rfl⟩
  exact ⟨s, s', hs, hs', (room_needs_timeout hwaits hfull hcalm (by simp) hs').1⟩

end LogSystem

end GhostDB
