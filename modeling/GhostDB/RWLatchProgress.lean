import GhostDB.Library.Progress
import GhostDB.RWLatch

/-!
# A writer that has entered gets the latch

`WLock` raises `writer_entered_` before it waits for the readers, so that no
thread starts to read any more.  The readers there are leave one by one, and the
last one wakes the writer.

* `attempt` / `due` — the turns of the threads, and those that may not be put off
  forever.
* `Yields` — what happens while a writer waits for the readers.
* `entered_writer_writes` — the writer gets the latch, and nobody overtakes it.
-/

namespace GhostDB

namespace LatchSystem

variable {ι : Type} {s s' t : LatchSystem ι} {i : ι}

/-! ## While a writer is in -/

/-- Nobody has started to read, and thread `i` is still in. -/
structure Yields (i : ι) (s s' : LatchSystem ι) : Prop where
  /-- Who reads has read before. -/
  reads : ∀ j, (s'.threads j).reads = true → (s.threads j).reads = true
  /-- The writer is still in. -/
  entered : (s'.threads i).entered = true

theorem Yields.refl (hi : (s.threads i).entered = true) : Yields i s s := ⟨fun _ => id, hi⟩

theorem Yields.trans (h : Yields i s t) (h' : Yields i t s') : Yields i s s' :=
  ⟨fun j hj => h.reads j (h'.reads j hj), h'.entered⟩

theorem Rouses.yields (h : s.Rouses s') (hi : (s.threads i).entered = true) : Yields i s s' :=
  ⟨fun j hj => by rwa [h.reads_eq] at hj, by rwa [h.entered_eq]⟩

theorem ne_of_entered {j : ι} (hi : (s.threads i).entered = true)
    (hj : (s.threads j).entered = false) : j ≠ i := by
  rintro rfl
  rw [hi] at hj
  cases hj

section Sections

variable [DecidableEq ι] {j : ι}

/-- A thread moves to a place where it does not read. -/
theorem yields_move {p : LatchThread} (hp : p.reads = false) (hi : (s.threads i).entered = true)
    (hin : j = i → p.entered = true) : Yields i s (s.move j p) := by
  refine ⟨?_, ?_⟩
  · intro k hk
    rw [threads_move] at hk
    split at hk
    · rw [hp] at hk
      cases hk
    · exact hk
  · rw [threads_move]
    split
    next hij => exact hin hij.symm
    · exact hi

/-- `RLock` waits for the writer. -/
theorem yields_rLock (hup : s.writerEntered = true) (hi : (s.threads i).entered = true)
    (hj : (s.threads j).entered = false) : Yields i s (s.rLock j) := by
  rw [rLock, if_pos (.inl hup)]
  exact yields_move rfl hi fun h => absurd h (ne_of_entered hi hj)

/-- So does `WLock`. -/
theorem yields_wLock (hup : s.writerEntered = true) (hi : (s.threads i).entered = true)
    (hj : (s.threads j).entered = false) : Yields i s (s.wLock j) := by
  rw [wLock, if_pos hup]
  exact yields_move rfl hi fun h => absurd h (ne_of_entered hi hj)

/-- The writer itself goes on waiting or gets the latch. -/
theorem yields_awaitReaders (hi : (s.threads i).entered = true) :
    Yields i s (s.awaitReaders i) := by
  unfold awaitReaders
  split <;> exact yields_move rfl hi fun _ => rfl

variable [Fintype ι]

/-- `RUnlock`: the reader is gone, and perhaps somebody woken. -/
theorem rouses_rUnlock {pick : ι} (hs : s.rUnlock j pick = some s') :
    Rouses ({ s with readerCount := s.readerCount - 1 }.move j .idle) s' := by
  have hrefl : ∀ t : LatchSystem ι, t.Rouses t := fun t => ⟨rfl, rfl, fun _ => .inl rfl⟩
  unfold rUnlock at hs
  dsimp only at hs
  split at hs <;> split at hs
  · exact rouses_notifyOne hs
  · cases hs
    exact hrefl _
  · exact rouses_notifyOne hs
  · cases hs
    exact hrefl _

/-- A reader leaves. -/
theorem yields_rUnlock {pick : ι} (hi : (s.threads i).entered = true)
    (hj : s.threads j = .reading) (hs : s.rUnlock j pick = some s') :
    Yields i s s' ∧ (s'.threads j).reads = false := by
  have hrouses := rouses_rUnlock hs
  have hdepart : Yields i s (s.move j .idle) :=
    yields_move rfl hi fun h => absurd h (ne_of_entered hi (by rw [hj]; rfl))
  have hsame : Yields i s ({ s with readerCount := s.readerCount - 1 }.move j .idle) :=
    ⟨hdepart.reads, hdepart.entered⟩
  refine ⟨hsame.trans (hrouses.yields hsame.entered), ?_⟩
  rw [hrouses.reads_eq]
  simp [LatchThread.reads]

/-- **What an action can do** to a writer that waits for the readers. -/
theorem Inv.yields (h : s.Inv) (hi : (s.threads i).entered = true) (hwaits : s.threads i ≠ .writing)
    {a : LatchAction ι} (hs : s.step a = some s') : Yields i s s' := by
  have hup : s.writerEntered = true := h.exclusive.entered.2 ⟨i, hi⟩
  cases a with
  | rLock j =>
    cases hj : s.threads j <;> simp only [LatchSystem.step, hj, reduceCtorEq] at hs
    cases hs
    exact yields_rLock hup hi (by rw [hj]; rfl)
  | rUnlock j pick =>
    cases hj : s.threads j <;> simp only [LatchSystem.step, hj, reduceCtorEq] at hs
    exact (yields_rUnlock hi hj hs).1
  | wLock j =>
    cases hj : s.threads j <;> simp only [LatchSystem.step, hj, reduceCtorEq] at hs
    cases hs
    exact yields_wLock hup hi (by rw [hj]; rfl)
  | wUnlock j =>
    cases hj : s.threads j <;> simp only [LatchSystem.step, hj, reduceCtorEq] at hs
    -- only one writer is in, and it does not write yet
    have hji : j = i := h.exclusive.unique j i (by rw [hj]; rfl) hi
    exact absurd (hji ▸ hj) hwaits
  | spurious j =>
    cases hs
    exact (s.rouses_wake j).yields hi
  | resume j =>
    unfold LatchSystem.step at hs
    dsimp only at hs
    split at hs
    next hj =>
      cases hs
      exact yields_rLock hup hi (by rw [hj]; rfl)
    next hj =>
      cases hs
      exact yields_wLock hup hi (by rw [hj]; rfl)
    next hj =>
      cases hs
      have hji : j = i := h.exclusive.unique j i (by rw [hj]; rfl) hi
      rw [hji]
      exact yields_awaitReaders hi
    next => cases hs

/-- The last reader can leave: who it wakes is the writer. -/
theorem Inv.exists_rUnlock (h : s.Inv) (hi : (s.threads i).entered = true)
    (hj : s.threads j = .reading) : ∃ s', s.step (.rUnlock j i) = some s' := by
  have hup : s.writerEntered = true := h.exclusive.entered.2 ⟨i, hi⟩
  have hone : ∀ k, ((s.move j .idle).threads k).waitsOn .writer = true → k = i := by
    intro k hk
    have hentered := LatchThread.entered_of_waitsOn hk
    rw [apply_move LatchThread.entered (by rw [hj]; rfl)] at hentered
    exact h.exclusive.unique k i hentered hi
  have hnotify : ∃ s', notifyOne ({ s with readerCount := s.readerCount - 1 }.move j .idle)
      .writer i = some s' := by
    unfold notifyOne
    split
    · exact ⟨_, rfl⟩
    next hnot =>
      rw [if_neg]
      · exact ⟨_, rfl⟩
      · rintro ⟨k, hk⟩
        exact hnot (hone k hk ▸ hk)
  have hstep : s.step (.rUnlock j i) = s.rUnlock j i := by simp only [LatchSystem.step, hj]
  rw [hstep, LatchSystem.rUnlock]
  rw [if_pos (by exact hup)]
  split
  · exact hnotify
  · exact ⟨_, rfl⟩

end Sections

/-! ## Turns -/

section Turns

variable [Fintype ι] [DecidableEq ι]

/-- A thread tries an action; one that cannot happen now does nothing. -/
def attempt (a : LatchAction ι) (s : LatchSystem ι) : Except Empty (LatchSystem ι) :=
  .ok ((s.step a).getD s)

/-- Does the action end a section of a thread, or its wait once it is woken? -/
def isDue : LatchAction ι → Bool
  | .rUnlock _ _ => true
  | .wUnlock _ => true
  | .resume _ => true
  | _ => false

/-- These actions are tried again and again: a thread that has the latch leaves
it some time, and one that was woken gets the mutex. -/
def due : Set (Set (LatchAction ι)) := {c | ∃ a, isDue a = true ∧ c = {a}}

theorem Reachable.attempt (h : s.Reachable) {a : LatchAction ι} (ha : attempt a s = .ok s') :
    s'.Reachable := by
  obtain ⟨actions, rfl⟩ := h
  cases ha
  exact ⟨actions ++ [a], by rw [run, run, List.foldl_append]; rfl⟩

variable (hfew : Fintype.card ι < maxReaders.toNat)

include hfew

theorem Yields.of_attempt (h : s.Reachable) (hi : (s.threads i).entered = true)
    (hwaits : s.threads i ≠ .writing) {a : LatchAction ι} (ha : LatchSystem.attempt a s = .ok s') :
    Yields i s s' := by
  cases ha
  cases hs : s.step a with
  | none => exact .refl hi
  | some t => exact (h.inv hfew).yields hi hwaits hs

/-- A writer that waits for at most `n` readers. -/
structure WaitsFor (i : ι) (n : Nat) (s : LatchSystem ι) : Prop where
  /-- The state is one the latch can get into. -/
  reachable : s.Reachable
  /-- The writer is in. -/
  entered : (s.threads i).entered = true
  /-- It does not write yet. -/
  waits : s.threads i ≠ .writing
  /-- The readers there are. -/
  count : Census.count LatchThread.reads s.threads ≤ n

theorem WaitsFor.attempt {n : Nat} (h : WaitsFor i n s) {a : LatchAction ι}
    (ha : LatchSystem.attempt a s = .ok s') : WaitsFor i n s' ∨ s'.threads i = .writing := by
  have hyields := Yields.of_attempt hfew h.reachable h.entered h.waits ha
  by_cases hw : s'.threads i = .writing
  · exact .inr hw
  · exact .inl ⟨h.reachable.attempt ha, hyields.entered, hw,
      (Census.count_mono hyields.reads).trans h.count⟩

/-- A reader has left. -/
theorem WaitsFor.fewer {n : Nat} (h : WaitsFor i (n + 1) s) {a : LatchAction ι}
    (ha : LatchSystem.attempt a s = .ok s') {j : ι} (hj : s.threads j = .reading)
    (hj' : (s'.threads j).reads = false) : WaitsFor i n s' ∨ s'.threads i = .writing := by
  have hyields := Yields.of_attempt hfew h.reachable h.entered h.waits ha
  refine (h.attempt hfew ha).imp_left fun h' => ⟨h'.reachable, h'.entered, h'.waits, ?_⟩
  have hlt := Census.count_lt hyields.reads (LatchThread.reads_iff.2 hj) hj'
  exact Nat.lt_succ_iff.1 (hlt.trans_le h.count)

/-- **The readers leave**, one after the other. -/
theorem leadsTo_fewer (i : ι) (n : Nat) :
    Schedule.LeadsTo LatchSystem.attempt due
      (fun s => ∃ j, WaitsFor i (n + 1) s ∧ s.threads j = .reading)
      (fun s => WaitsFor i n s ∨ s.threads i = .writing) := by
  refine Schedule.LeadsTo.of_exists fun j => ?_
  have hdue : ({.rUnlock j i} : Set (LatchAction ι)) ∈ due := ⟨.rUnlock j i, rfl, rfl⟩
  refine Schedule.LeadsTo.ensures hdue ?_ ?_
  · rintro a s s' ⟨h, hj⟩ ha
    cases hj' : (s'.threads j).reads with
    | true =>
      rw [LatchThread.reads_iff] at hj'
      exact (h.attempt hfew ha).elim (fun h' => .inl ⟨h', hj'⟩) fun hw => .inr (.inr hw)
    | false => exact .inr (h.fewer hfew ha hj hj')
  · rintro a rfl s s' ⟨h, hj⟩ ha
    obtain ⟨t, ht⟩ := (h.reachable.inv hfew).exists_rUnlock h.entered hj
    have hs' : s' = t := by
      cases ha
      rw [ht, Option.getD_some]
    have hrun : s.rUnlock j i = some s' := by
      simpa only [LatchSystem.step, hj, hs'] using ht
    exact h.fewer hfew ha hj (yields_rUnlock h.entered hj hrun).2

/-- **The writer goes on** when none is left: somebody has woken it. -/
theorem leadsTo_writing_of_none (i : ι) :
    Schedule.LeadsTo LatchSystem.attempt due (WaitsFor i 0) (fun s => s.threads i = .writing) := by
  have hdue : ({.resume i} : Set (LatchAction ι)) ∈ due := ⟨.resume i, rfl, rfl⟩
  refine Schedule.LeadsTo.ensures hdue (fun a s s' h ha => h.attempt hfew ha) ?_
  rintro a rfl s s' h ha
  have hinv := h.reachable.inv hfew
  have hzero : s.readerCount.toNat = 0 :=
    hinv.exclusive.count.trans (Nat.le_zero.1 h.count)
  have hnone : ¬ 0 < s.readerCount := by
    rw [UInt32.lt_iff_toNat_lt, hzero]
    exact lt_irrefl 0
  have hwoken : s.threads i = .waitReaders true := by
    have hentered := h.entered
    have hwaits := h.waits
    have hsleeps := mt (hinv.wakeful.writer i) hnone
    cases hi : s.threads i with
    | waitReaders woken =>
      cases woken with
      | true => rfl
      | false => exact absurd (by rw [hi]; rfl) hsleeps
    | writing => exact absurd hi hwaits
    | _ => simp [hi, LatchThread.entered] at hentered
  cases ha
  simp [step, hwoken, awaitReaders, hnone]

/-- **A writer that has entered gets the latch.** -/
theorem leadsTo_writing (i : ι) (n : Nat) :
    Schedule.LeadsTo LatchSystem.attempt due (WaitsFor i n) (fun s => s.threads i = .writing) := by
  induction n with
  | zero => exact leadsTo_writing_of_none hfew i
  | succ n ih =>
    have hcases : ∀ s, WaitsFor i (n + 1) s →
        WaitsFor i n s ∨ ∃ j, WaitsFor i (n + 1) s ∧ s.threads j = .reading := by
      intro s h
      by_cases hle : Census.count LatchThread.reads s.threads ≤ n
      · exact .inl ⟨h.reachable, h.entered, h.waits, hle⟩
      · obtain ⟨j, hj⟩ := Census.count_pos_iff.1 (Nat.zero_lt_of_lt (not_le.1 hle))
        exact .inr ⟨j, h, LatchThread.reads_iff.1 hj⟩
    have hnext : Schedule.LeadsTo LatchSystem.attempt due
        (fun s => WaitsFor i n s ∨ s.threads i = .writing) (fun s => s.threads i = .writing) :=
      ih.or (.of_imp fun _ => id)
    exact .imp_left hcases (ih.or ((leadsTo_fewer hfew i n).trans hnext))

omit hfew

/-- **A writer that has entered gets the latch, and nobody overtakes it.**  From
the moment a thread has raised `writer_entered_`, whatever the order of turns,
as long as threads leave the latch and those that are woken get the mutex: it
comes to hold the latch for writing; no turn up to then makes a thread a reader
that was none before it, and no other writer enters. -/
theorem entered_writer_writes (hfew : Fintype.card ι < maxReaders.toNat)
    {x : Schedule.Execution (LatchSystem.attempt (ι := ι))} (hstart : x.state 0 = start)
    (hfair : x.Fair due) {n : Nat} (hi : ((x.state n).threads i).entered = true) :
    ∃ m, n ≤ m ∧ (x.state m).threads i = .writing ∧
      (∀ k, n ≤ k → k < m → ∀ j,
        (x.state (k + 1)).threads j = .reading → (x.state k).threads j = .reading) ∧
      ∀ k, n ≤ k → k ≤ m → ∀ j, ((x.state k).threads j).entered = true → j = i := by
  have hreachable : ∀ k, (x.state k).Reachable := by
    intro k
    induction k with
    | zero => exact hstart ▸ ⟨[], rfl⟩
    | succ k ih => exact ih.attempt (x.next k)
  have hleads : Schedule.LeadsTo LatchSystem.attempt due
      (fun s => s.threads i = .writing ∨ ∃ n, WaitsFor i n s) (fun s => s.threads i = .writing) :=
    .or (.of_imp fun _ => id) (.of_exists fun n => leadsTo_writing hfew i n)
  have hbegin : (x.state n).threads i = .writing ∨ ∃ n', WaitsFor i n' (x.state n) := by
    by_cases hw : (x.state n).threads i = .writing
    · exact .inl hw
    · exact .inr ⟨_, hreachable n, hi, hw, le_rfl⟩
  obtain ⟨m, hnm, hm, hfirst⟩ := hleads.exists_first hfair hbegin
  have hstep : ∀ a s s', (s.Reachable ∧ (s.threads i).entered = true) → ¬ s.threads i = .writing →
      LatchSystem.attempt a s = .ok s' → s'.Reachable ∧ (s'.threads i).entered = true := by
    rintro a s s' ⟨hs, hin⟩ hwaits ha
    exact ⟨hs.attempt ha, (Yields.of_attempt hfew hs hin hwaits ha).entered⟩
  have hentered : ∀ k, n ≤ k → k ≤ m → ((x.state k).threads i).entered = true :=
    fun k hnk hkm => (x.keeps_until hstep ⟨hreachable n, hi⟩ hfirst hnk hkm).2
  refine ⟨m, hnm, hm, ?_, ?_⟩
  · intro k hnk hkm j hj
    have hyields := Yields.of_attempt hfew (hreachable k) (hentered k hnk hkm.le)
      (hfirst k hnk hkm) (x.next k)
    exact LatchThread.reads_iff.1 (hyields.reads j (LatchThread.reads_iff.2 hj))
  · intro k hnk hkm j hj
    exact ((hreachable k).inv hfew).exclusive.unique j i hj (hentered k hnk hkm)

/-- Two threads and all the due actions in rotation: one thread reads, the other
one enters to write, and the first one leaves and asks to read again. -/
def rotation (n : Nat) : LatchAction (Fin 2) :=
  match n % 11 with
  | 0 => .rLock 0
  | 1 => .wLock 1
  | 2 => .rUnlock 0 1
  | 3 => .rLock 0
  | 4 => .resume 1
  | 5 => .rUnlock 0 0
  | 6 => .rUnlock 1 0
  | 7 => .rUnlock 1 1
  | 8 => .wUnlock 0
  | 9 => .wUnlock 1
  | _ => .resume 0

theorem rotation_fair : ∀ c ∈ due, ∀ n, ∃ m, n ≤ m ∧ rotation m ∈ c := by
  have hat : ∀ i n, rotation (11 * n + i) = rotation i := by
    intro i n
    rw [rotation, rotation, Nat.mul_add_mod]
  have hall : ∀ a : LatchAction (Fin 2), isDue a = true → ∃ i, rotation i = a := by
    intro a ha
    cases a with
    | rUnlock i pick =>
      fin_cases i <;> fin_cases pick
      · exact ⟨5, rfl⟩
      · exact ⟨2, rfl⟩
      · exact ⟨6, rfl⟩
      · exact ⟨7, rfl⟩
    | wUnlock i =>
      fin_cases i
      · exact ⟨8, rfl⟩
      · exact ⟨9, rfl⟩
    | resume i =>
      fin_cases i
      · exact ⟨10, rfl⟩
      · exact ⟨4, rfl⟩
    | _ => cases ha
  rintro c ⟨a, ha, rfl⟩ n
  obtain ⟨i, hi⟩ := hall a ha
  exact ⟨11 * n + i, by omega, (hat i n).trans hi⟩

/-- The writer of the rotation enters while the other thread reads, and gets the
latch before that thread reads again. -/
theorem entered_writer_writes_two :
    ∃ x : Schedule.Execution (LatchSystem.attempt (ι := Fin 2)), x.action = rotation ∧
      (x.state 2).threads 0 = .reading ∧ (x.state 2).threads 1 = .waitReaders false ∧
      ∃ m, 2 ≤ m ∧ (x.state m).threads 1 = .writing ∧
        (∀ k, 2 ≤ k → k < m → ∀ j,
          (x.state (k + 1)).threads j = .reading → (x.state k).threads j = .reading) ∧
        ∀ k, 2 ≤ k → k ≤ m → ∀ j, ((x.state k).threads j).entered = true → j = 1 := by
  have htotal : ∀ actions, ∃ t, Schedule.run LatchSystem.attempt actions
      (start : LatchSystem (Fin 2)) = .ok t := by
    have hstep : ∀ a (s : LatchSystem (Fin 2)), True →
        ∃ s', LatchSystem.attempt a s = .ok s' ∧ True := fun a s _ => ⟨_, rfl, trivial⟩
    intro actions
    obtain ⟨t, hrun, -⟩ := Schedule.run_total hstep actions (s := start) trivial
    exact ⟨t, hrun⟩
  obtain ⟨x, hstart, haction⟩ := Schedule.Execution.exists_of_total htotal rotation
  have hat : (x.state 2).threads 0 = .reading ∧ (x.state 2).threads 1 = .waitReaders false := by
    have htake := x.run_take 2
    rw [hstart, haction] at htake
    rw [← Except.ok.inj htake]
    decide
  have hfair : x.Fair due := by
    rw [Schedule.Execution.Fair, haction]
    exact rotation_fair
  have hin : ((x.state 2).threads 1).entered = true := by
    rw [hat.2]
    rfl
  exact ⟨x, haction, hat.1, hat.2, entered_writer_writes (by decide) hstart hfair hin⟩

end Turns

end LatchSystem

end GhostDB
