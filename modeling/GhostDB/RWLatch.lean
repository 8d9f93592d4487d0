import GhostDB.Library.Census
import Mathlib.Data.Fintype.Fin

/-!
# The reader-writer latch

`ReaderWriterLatch` guards the page of a run: `LoadSSTable` holds it for reading,
`DumpSSTable` and `ClearSSTable` for writing.

Finitely many threads use one latch.  What a thread does while it has `mutex_` is
one action: from taking the mutex to giving it back, be it at the end of a
function or in a wait.  A thread in a wait is *woken* by a notification or for no
reason, and goes on with the test of its loop when it gets the mutex.

* `rLock`, `rUnlock`, `wLock`, `wUnlock` — the sections of the source.
* `step` / `run` — the actions, and the state after some of them.
* `Exclusive`, `Wakeful` — what holds whenever the mutex is free.
* `latch_safe` — the latch excludes, and loses no wakeup.
* `exists_able` — and it never locks up.
-/

namespace GhostDB

/-- `MAX_READERS`. -/
def maxReaders : UInt32 := 4294967295

/-- The condition variables. -/
inductive LatchCond
  /-- `reader_`. -/
  | reader
  /-- `writer_`. -/
  | writer
  deriving DecidableEq

/-- Where a thread is. -/
inductive LatchThread
  /-- Without the latch, and not asking for it. -/
  | idle
  /-- In the wait of `RLock`. -/
  | waitRead (woken : Bool)
  /-- After `RLock`. -/
  | reading
  /-- In the first wait of `WLock`, for other writers. -/
  | waitEntry (woken : Bool)
  /-- In the second wait of `WLock`, for the readers. -/
  | waitReaders (woken : Bool)
  /-- After `WLock`. -/
  | writing
  deriving DecidableEq

namespace LatchThread

/-- Does the thread hold the latch for reading? -/
def reads : LatchThread → Bool
  | reading => true
  | _ => false

/-- Has the thread set `writer_entered_` and not reset it? -/
def entered : LatchThread → Bool
  | waitReaders _ => true
  | writing => true
  | _ => false

/-- Does the thread wait on the condition variable, not woken yet? -/
def waitsOn : LatchCond → LatchThread → Bool
  | .reader, waitRead false => true
  | .reader, waitEntry false => true
  | .writer, waitReaders false => true
  | _, _ => false

/-- The thread after a notification. -/
def wake : LatchThread → LatchThread
  | waitRead _ => waitRead true
  | waitEntry _ => waitEntry true
  | waitReaders _ => waitReaders true
  | t => t

@[simp] theorem reads_wake (t : LatchThread) : t.wake.reads = t.reads := by cases t <;> rfl

@[simp] theorem entered_wake (t : LatchThread) : t.wake.entered = t.entered := by cases t <;> rfl

@[simp] theorem waitsOn_wake (c : LatchCond) (t : LatchThread) : t.wake.waitsOn c = false := by
  cases c <;> cases t <;> rfl

@[simp] theorem wake_eq_writing {t : LatchThread} : t.wake = writing ↔ t = writing := by
  cases t <;> simp [wake]

theorem reads_iff {t : LatchThread} : t.reads = true ↔ t = reading := by
  cases t <;> simp [reads]

/-- Only a writer that has entered waits on `writer_`. -/
theorem entered_of_waitsOn {t : LatchThread} (h : t.waitsOn .writer = true) :
    t.entered = true := by
  cases t <;> first | rfl | cases h

theorem waitsOn_reader_of_entered {t : LatchThread} (h : t.entered = true) :
    t.waitsOn .reader = false := by
  cases t <;> first | rfl | cases h

end LatchThread

/-- The latch and the threads that use it. -/
structure LatchSystem (ι : Type) where
  /-- `reader_count_`. -/
  readerCount : UInt32
  /-- `writer_entered_`. -/
  writerEntered : Bool
  /-- The threads. -/
  threads : ι → LatchThread

/-- What happens next. -/
inductive LatchAction (ι : Type)
  /-- A thread calls `RLock`. -/
  | rLock (i : ι)
  /-- A thread calls `RUnlock`; `pick` is the thread its `notify_one` wakes, if
  it makes one and anybody waits. -/
  | rUnlock (i pick : ι)
  /-- A thread calls `WLock`. -/
  | wLock (i : ι)
  /-- A thread calls `WUnlock`. -/
  | wUnlock (i : ι)
  /-- A wait ends for no reason. -/
  | spurious (i : ι)
  /-- A woken thread gets the mutex back. -/
  | resume (i : ι)
  deriving DecidableEq

namespace LatchSystem

variable {ι : Type}

/-! ## The sections -/

section Sections

variable [Fintype ι] [DecidableEq ι]

/-- `ReaderWriterLatch()`, before any thread calls it. -/
def start : LatchSystem ι where
  readerCount := 0
  writerEntered := false
  threads := fun _ => .idle

/-- Thread `i` gets to another place. -/
def move (s : LatchSystem ι) (i : ι) (t : LatchThread) : LatchSystem ι :=
  { s with threads := Function.update s.threads i t }

/-- `notify_all`. -/
def notifyAll (s : LatchSystem ι) (c : LatchCond) : LatchSystem ι :=
  { s with threads := fun i => if (s.threads i).waitsOn c then (s.threads i).wake
      else s.threads i }

/-- `notify_one`, which wakes `pick`: one of those who wait, if there are any.
`none` when another has to be picked. -/
def notifyOne (s : LatchSystem ι) (c : LatchCond) (pick : ι) : Option (LatchSystem ι) :=
  if (s.threads pick).waitsOn c then some (s.move pick (s.threads pick).wake)
  else if ∃ i, (s.threads i).waitsOn c then none
  else some s

/-- `RLock`, from the test of its loop on. -/
def rLock (s : LatchSystem ι) (i : ι) : LatchSystem ι :=
  if s.writerEntered ∨ s.readerCount = maxReaders then s.move i (.waitRead false)
  else { s with readerCount := s.readerCount + 1 }.move i .reading

/-- `WLock`, from the test of its second loop on. -/
def awaitReaders (s : LatchSystem ι) (i : ι) : LatchSystem ι :=
  if s.readerCount > 0 then s.move i (.waitReaders false)
  else s.move i .writing

/-- `WLock`, from the test of its first loop on. -/
def wLock (s : LatchSystem ι) (i : ι) : LatchSystem ι :=
  if s.writerEntered then s.move i (.waitEntry false)
  else { s with writerEntered := true }.awaitReaders i

/-- `RUnlock`. -/
def rUnlock (s : LatchSystem ι) (i pick : ι) : Option (LatchSystem ι) :=
  let s := { s with readerCount := s.readerCount - 1 }.move i .idle
  if s.writerEntered then
    if s.readerCount = 0 then s.notifyOne .writer pick else some s
  else
    if s.readerCount = maxReaders - 1 then s.notifyOne .reader pick else some s

/-- `WUnlock`. -/
def wUnlock (s : LatchSystem ι) (i : ι) : LatchSystem ι :=
  ({ s with writerEntered := false }.move i .idle).notifyAll .reader

/-- One action; `none` if it cannot happen now, because the thread is elsewhere
or `notify_one` picks another. -/
def step (s : LatchSystem ι) : LatchAction ι → Option (LatchSystem ι)
  | .rLock i =>
    match s.threads i with
    | .idle => some (s.rLock i)
    | _ => none
  | .rUnlock i pick =>
    match s.threads i with
    | .reading => s.rUnlock i pick
    | _ => none
  | .wLock i =>
    match s.threads i with
    | .idle => some (s.wLock i)
    | _ => none
  | .wUnlock i =>
    match s.threads i with
    | .writing => some (s.wUnlock i)
    | _ => none
  | .spurious i => some (s.move i (s.threads i).wake)
  | .resume i =>
    match s.threads i with
    | .waitRead true => some (s.rLock i)
    | .waitEntry true => some (s.wLock i)
    | .waitReaders true => some (s.awaitReaders i)
    | _ => none

/-- The state after some actions of a new latch; those that cannot happen do
nothing. -/
def run (actions : List (LatchAction ι)) : LatchSystem ι :=
  actions.foldl (fun s a => (s.step a).getD s) start

/-- The states of a latch whenever its mutex is free. -/
def Reachable (s : LatchSystem ι) : Prop := ∃ actions, run actions = s

/-- `IsReadLocked`. -/
def isReadLocked (s : LatchSystem ι) : Bool := s.readerCount > 0

/-- `IsWriteLocked`. -/
def isWriteLocked (s : LatchSystem ι) : Bool := s.writerEntered && s.readerCount == 0

/-- `IsLocked`. -/
def isLocked (s : LatchSystem ι) : Bool := s.isReadLocked || s.isWriteLocked

end Sections

section Move

variable [DecidableEq ι]

@[simp] theorem threads_move (s : LatchSystem ι) (i : ι) (t : LatchThread) (j : ι) :
    (s.move i t).threads j = if j = i then t else s.threads j := Function.update_apply ..

/-- What a property does not see is no move for it. -/
theorem apply_move {β : Type} (f : LatchThread → β) {s : LatchSystem ι} {i : ι} {t : LatchThread}
    (hf : f t = f (s.threads i)) (j : ι) : f ((s.move i t).threads j) = f (s.threads j) := by
  rw [threads_move]
  split
  next hj => rw [hj, hf]
  next => rfl

theorem forall_move (P : LatchThread → Prop) {s : LatchSystem ι} {i : ι} {t : LatchThread} :
    (∀ j, P ((s.move i t).threads j)) ↔ P t ∧ ∀ j, j ≠ i → P (s.threads j) :=
  Function.forall_update_iff s.threads fun _ => P

@[simp] theorem readerCount_move (s : LatchSystem ι) (i : ι) (t : LatchThread) :
    (s.move i t).readerCount = s.readerCount := rfl

@[simp] theorem writerEntered_move (s : LatchSystem ι) (i : ι) (t : LatchThread) :
    (s.move i t).writerEntered = s.writerEntered := rfl

end Move

/-! ## What holds whenever the mutex is free -/

/-- **The latch excludes.** -/
structure Exclusive [Fintype ι] (s : LatchSystem ι) : Prop where
  /-- The count is that of the readers. -/
  count : s.readerCount.toNat = Census.count LatchThread.reads s.threads
  /-- The flag is up when a writer has entered. -/
  entered : s.writerEntered = true ↔ ∃ i, (s.threads i).entered = true
  /-- One writer enters at a time. -/
  unique : ∀ i j, (s.threads i).entered = true → (s.threads j).entered = true → i = j
  /-- A writer that is done waiting has no readers beside it. -/
  alone : ∀ i, s.threads i = .writing → s.readerCount = 0

/-- **Whoever waits will be woken**: the condition it waits for does not hold
yet. -/
structure Wakeful (s : LatchSystem ι) : Prop where
  /-- `reader_` waits for the writer. -/
  reader : ∀ i, (s.threads i).waitsOn .reader = true → s.writerEntered = true
  /-- `writer_` waits for the readers. -/
  writer : ∀ i, (s.threads i).waitsOn .writer = true → 0 < s.readerCount

namespace Exclusive

variable [Fintype ι] {s : LatchSystem ι} (h : s.Exclusive)

include h

theorem lt_maxReaders (hfew : Fintype.card ι < maxReaders.toNat) : s.readerCount < maxReaders := by
  rw [UInt32.lt_iff_toNat_lt, h.count]
  exact Census.count_le_card.trans_lt hfew

theorem pos_of_reading {i : ι} (hi : s.threads i = .reading) : 0 < s.readerCount.toNat := by
  rw [h.count, Census.count_pos_iff]
  exact ⟨i, by rw [hi]; rfl⟩

theorem entered_eq_false (hdown : ¬ s.writerEntered = true) (i : ι) :
    (s.threads i).entered = false :=
  Bool.eq_false_iff.2 fun hi => hdown (h.entered.2 ⟨i, hi⟩)

/-- A thread that goes on without taking or leaving the latch. -/
theorem move [DecidableEq ι] {i : ι} {t : LatchThread} (hreads : t.reads = (s.threads i).reads)
    (hentered : t.entered = (s.threads i).entered)
    (halone : t = .writing → s.readerCount = 0) : (s.move i t).Exclusive := by
  refine ⟨?_, ?_, ?_, ?_⟩
  · rw [Census.count_congr (apply_move _ hreads)]
    exact h.count
  · simp only [apply_move _ hentered]
    exact h.entered
  · simp only [apply_move _ hentered]
    exact h.unique
  · exact (forall_move fun t => t = .writing → _).2 ⟨halone, fun j _ => h.alone j⟩

/-- The readers when a thread has moved. -/
theorem count_move [DecidableEq ι] (i : ι) (t : LatchThread) :
    Census.count LatchThread.reads (s.move i t).threads + (s.threads i).reads.toNat =
      s.readerCount.toNat + t.reads.toNat := by
  rw [h.count]
  exact Census.count_update i t

end Exclusive

/-! ## Notifications -/

/-- Some threads have been woken, and nothing else has happened. -/
structure Rouses (s s' : LatchSystem ι) : Prop where
  /-- The count is as it was. -/
  count : s'.readerCount = s.readerCount
  /-- So is the flag. -/
  entered : s'.writerEntered = s.writerEntered
  /-- Every thread is where it was, or woken there. -/
  threads : ∀ i, s'.threads i = s.threads i ∨ s'.threads i = (s.threads i).wake

namespace Rouses

variable {s s' : LatchSystem ι} (h : s.Rouses s')

include h

theorem reads_eq (i : ι) : (s'.threads i).reads = (s.threads i).reads := by
  rcases h.threads i with heq | heq <;> simp [heq]

theorem entered_eq (i : ι) : (s'.threads i).entered = (s.threads i).entered := by
  rcases h.threads i with heq | heq <;> simp [heq]

theorem waitsOn_of {c : LatchCond} {i : ι} (hi : (s'.threads i).waitsOn c = true) :
    (s.threads i).waitsOn c = true := by
  rcases h.threads i with heq | heq
  · rwa [← heq]
  · simp [heq] at hi

theorem exclusive [Fintype ι] (hs : s.Exclusive) : s'.Exclusive := by
  refine ⟨?_, ?_, ?_, ?_⟩
  · rw [h.count, Census.count_congr h.reads_eq]
    exact hs.count
  · simp only [h.entered, h.entered_eq]
    exact hs.entered
  · simp only [h.entered_eq]
    exact hs.unique
  · intro i hi
    rw [h.count]
    refine hs.alone i ?_
    rcases h.threads i with heq | heq
    · rwa [← heq]
    · rwa [heq, LatchThread.wake_eq_writing] at hi

theorem wakeful (hs : s.Wakeful) : s'.Wakeful := by
  refine ⟨?_, ?_⟩
  · intro i hi
    rw [h.entered]
    exact hs.reader i (h.waitsOn_of hi)
  · intro i hi
    rw [h.count]
    exact hs.writer i (h.waitsOn_of hi)

end Rouses

theorem rouses_notifyAll (s : LatchSystem ι) (c : LatchCond) : s.Rouses (s.notifyAll c) := by
  refine ⟨rfl, rfl, ?_⟩
  intro j
  unfold notifyAll
  dsimp only
  split
  · exact .inr rfl
  · exact .inl rfl

theorem not_waitsOn_notifyAll (s : LatchSystem ι) (c : LatchCond) (i : ι) :
    ((s.notifyAll c).threads i).waitsOn c = false := by
  unfold notifyAll
  dsimp only
  split
  · simp
  next hi => exact Bool.eq_false_iff.2 hi

section Wake

variable [DecidableEq ι]

theorem rouses_wake (s : LatchSystem ι) (i : ι) : s.Rouses (s.move i (s.threads i).wake) := by
  refine ⟨rfl, rfl, ?_⟩
  intro j
  by_cases hj : j = i <;> simp [hj]

variable [Fintype ι]

theorem rouses_notifyOne {s s' : LatchSystem ι} {c : LatchCond} {pick : ι}
    (h : s.notifyOne c pick = some s') : s.Rouses s' := by
  unfold notifyOne at h
  split at h
  · cases h
    exact rouses_wake s pick
  · split at h
    · cases h
    · cases h
      exact ⟨rfl, rfl, fun i => .inl rfl⟩

/-- The only thread that waits is the one that is woken. -/
theorem not_waitsOn_notifyOne {s s' : LatchSystem ι} {c : LatchCond} {pick : ι}
    (hone : ∀ i j, (s.threads i).waitsOn c = true → (s.threads j).waitsOn c = true → i = j)
    (h : s.notifyOne c pick = some s') (i : ι) : (s'.threads i).waitsOn c = false := by
  unfold notifyOne at h
  split at h
  next hpick =>
    cases h
    by_cases hi : i = pick
    · simp [hi]
    · rw [threads_move, if_neg hi]
      exact Bool.eq_false_iff.2 fun hwaits => hi (hone i pick hwaits hpick)
  · split at h
    · cases h
    next hnone =>
      cases h
      exact Bool.eq_false_iff.2 fun hwaits => hnone ⟨i, hwaits⟩

end Wake

/-! ## One section at a time -/

/-- **The invariant.** -/
structure Inv [Fintype ι] (s : LatchSystem ι) : Prop where
  exclusive : s.Exclusive
  wakeful : s.Wakeful

section Steps

variable [Fintype ι] {s s' : LatchSystem ι}

theorem Rouses.inv (h : s.Rouses s') (hs : s.Inv) : s'.Inv :=
  ⟨h.exclusive hs.exclusive, h.wakeful hs.wakeful⟩

/-- No writer has entered. -/
theorem exclusive_of_none (hcount : s.readerCount.toNat = Census.count LatchThread.reads s.threads)
    (hdown : s.writerEntered = false) (hnone : ∀ i, (s.threads i).entered = false) :
    s.Exclusive := by
  refine ⟨hcount, ?_, ?_, ?_⟩
  · simp [hdown, hnone]
  · simp [hnone]
  · intro i hi
    have hentered := hnone i
    rw [hi] at hentered
    cases hentered

/-- Thread `i` has entered. -/
theorem exclusive_of_one (hcount : s.readerCount.toNat = Census.count LatchThread.reads s.threads)
    (hup : s.writerEntered = true) {i : ι} (hi : (s.threads i).entered = true)
    (hothers : ∀ j, j ≠ i → (s.threads j).entered = false)
    (halone : s.threads i = .writing → s.readerCount = 0) : s.Exclusive := by
  have heq : ∀ j, (s.threads j).entered = true → j = i := by
    intro j hj
    by_contra hne
    rw [hothers j hne] at hj
    cases hj
  refine ⟨hcount, iff_of_true hup ⟨i, hi⟩, ?_, ?_⟩
  · intro j k hj hk
    rw [heq j hj, heq k hk]
  · intro j hj
    obtain rfl := heq j (by rw [hj]; rfl)
    exact halone hj

variable [DecidableEq ι] {i : ι}

omit [Fintype ι] in
theorem Wakeful.move {t : LatchThread} (h : s.Wakeful)
    (hreader : t.waitsOn .reader = true → s.writerEntered = true)
    (hwriter : t.waitsOn .writer = true → 0 < s.readerCount) : (s.move i t).Wakeful := by
  refine ⟨?_, ?_⟩
  · exact (forall_move fun t => t.waitsOn .reader = true → _).2
      ⟨hreader, fun j _ => h.reader j⟩
  · exact (forall_move fun t => t.waitsOn .writer = true → _).2
      ⟨hwriter, fun j _ => h.writer j⟩

/-- A thread goes to wait for a writer. -/
theorem Inv.waitForWriter {t : LatchThread} (h : s.Inv) (hreads : t.reads = (s.threads i).reads)
    (hentered : t.entered = (s.threads i).entered) (hwaits : t.waitsOn .reader = true)
    (hup : s.writerEntered = true) : (s.move i t).Inv := by
  refine ⟨h.exclusive.move hreads hentered ?_, h.wakeful.move (fun _ => hup) ?_⟩
  · rintro rfl
    cases hwaits
  · intro hw
    rw [LatchThread.waitsOn_reader_of_entered (LatchThread.entered_of_waitsOn hw)] at hwaits
    cases hwaits

/-- `RLock` waits only for a writer: there are too few threads to fill the
count. -/
theorem Inv.rLock (hfew : Fintype.card ι < maxReaders.toNat) (h : s.Inv)
    (hreads : (s.threads i).reads = false) (hout : (s.threads i).entered = false) :
    (s.rLock i).Inv := by
  have hlt := h.exclusive.lt_maxReaders hfew
  unfold LatchSystem.rLock
  split
  next hwait =>
    have hup : s.writerEntered = true := hwait.resolve_right (UInt32.ne_of_lt hlt)
    exact h.waitForWriter hreads.symm hout.symm rfl hup
  next hgo =>
    have hdown : ¬ s.writerEntered = true := fun hup => hgo (.inl hup)
    have hnone : ∀ j, ((s.move i .reading).threads j).entered = false := fun j => by
      rw [apply_move (t := .reading) LatchThread.entered hout.symm]
      exact h.exclusive.entered_eq_false hdown j
    have hcount := h.exclusive.count_move i .reading
    rw [hreads] at hcount
    have hadd : (s.readerCount + 1).toNat = s.readerCount.toNat + 1 := by
      have hmax : maxReaders.toNat = 4294967295 := rfl
      rw [UInt32.lt_iff_toNat_lt, hmax] at hlt
      rw [UInt32.toNat_add, UInt32.toNat_one, Nat.mod_eq_of_lt (by omega)]
    refine ⟨exclusive_of_none (hadd.trans hcount.symm) (Bool.eq_false_iff.2 hdown) hnone, ?_, ?_⟩
    · refine (forall_move (s := s) fun t => t.waitsOn .reader = true → _).2 ⟨?_, ?_⟩
      · exact fun hw => by cases hw
      · exact fun j _ => h.wakeful.reader j
    · intro j hj
      exact absurd (LatchThread.entered_of_waitsOn hj) (Bool.eq_false_iff.1 (hnone j))

/-- The second loop of `WLock`, for the one writer that has entered. -/
theorem inv_awaitReaders
    (hcount : s.readerCount.toNat = Census.count LatchThread.reads s.threads)
    (hup : s.writerEntered = true) (hreads : (s.threads i).reads = false)
    (hothers : ∀ j, j ≠ i → (s.threads j).entered = false) : (s.awaitReaders i).Inv := by
  have hmoved : ∀ t : LatchThread, t.reads = false →
      (s.move i t).readerCount.toNat = Census.count LatchThread.reads (s.move i t).threads := by
    intro t ht
    rw [Census.count_congr (apply_move _ (ht.trans hreads.symm))]
    exact hcount
  have hothers' : ∀ (t : LatchThread) (j : ι), j ≠ i →
      ((s.move i t).threads j).entered = false := by
    intro t j hj
    rw [threads_move, if_neg hj]
    exact hothers j hj
  have hwaits : ∀ (t : LatchThread) (j : ι), j ≠ i →
      ¬ ((s.move i t).threads j).waitsOn .writer = true := by
    intro t j hj hw
    have hentered := LatchThread.entered_of_waitsOn hw
    rw [hothers' t j hj] at hentered
    cases hentered
  unfold LatchSystem.awaitReaders
  split
  next hpos =>
    refine ⟨exclusive_of_one (hmoved _ rfl) hup (i := i) ?_ (hothers' _) ?_, ⟨?_, ?_⟩⟩
    · simp [LatchThread.entered]
    · simp
    · exact fun _ _ => hup
    · exact fun _ _ => hpos
  next hzero =>
    have hzero : s.readerCount = 0 := not_not.1 (mt UInt32.pos_iff_ne_zero.2 hzero)
    refine ⟨exclusive_of_one (hmoved _ rfl) hup (i := i) ?_ (hothers' _) ?_, ⟨?_, ?_⟩⟩
    · simp [LatchThread.entered]
    · exact fun _ => hzero
    · exact fun _ _ => hup
    · intro j hj
      by_cases hji : j = i
      · simp [hji, LatchThread.waitsOn] at hj
      · exact absurd hj (hwaits _ j hji)

/-- `WLock` enters when no other writer has. -/
theorem Inv.wLock (h : s.Inv) (hreads : (s.threads i).reads = false)
    (hout : (s.threads i).entered = false) : (s.wLock i).Inv := by
  unfold LatchSystem.wLock
  split
  next hup => exact h.waitForWriter hreads.symm hout.symm rfl hup
  next hdown =>
    exact inv_awaitReaders h.exclusive.count rfl hreads fun j _ =>
      h.exclusive.entered_eq_false hdown j

/-- A reader leaves. -/
theorem Exclusive.depart (h : s.Exclusive) (hi : s.threads i = .reading) :
    ({ s with readerCount := s.readerCount - 1 }.move i .idle).Exclusive := by
  have hpos := h.pos_of_reading hi
  have hentered : ∀ j, ((s.move i .idle).threads j).entered = (s.threads j).entered :=
    apply_move _ (by rw [hi]; rfl)
  have hcount := h.count_move i .idle
  rw [hi] at hcount
  have hsub : (s.readerCount - 1).toNat = s.readerCount.toNat - 1 :=
    UInt32.toNat_sub_of_le _ _ (UInt32.le_iff_toNat_le.2 hpos)
  refine ⟨?_, ?_, ?_, ?_⟩
  · refine hsub.trans ?_
    exact (Nat.eq_sub_of_add_eq hcount).symm
  · simp only [LatchSystem.move] at hentered ⊢
    simp only [hentered]
    exact h.entered
  · simp only [LatchSystem.move] at hentered ⊢
    simp only [hentered]
    exact h.unique
  · intro j hj
    have hne : j ≠ i := by
      rintro rfl
      simp at hj
    rw [threads_move, if_neg hne] at hj
    rw [h.alone j hj] at hpos
    exact absurd hpos (by decide)

/-- Notifying `writer_` makes up for a count that has come to zero: the one writer
that can wait there is woken. -/
theorem inv_notifyWriter {pick : ι} (h : s.Exclusive)
    (hreader : ∀ j, (s.threads j).waitsOn .reader = true → s.writerEntered = true)
    (hs : s.notifyOne .writer pick = some s') : s'.Inv := by
  have hone : ∀ j k, (s.threads j).waitsOn .writer = true →
      (s.threads k).waitsOn .writer = true → j = k := fun j k hj hk =>
    h.unique j k (LatchThread.entered_of_waitsOn hj) (LatchThread.entered_of_waitsOn hk)
  have hrouses := rouses_notifyOne hs
  refine ⟨hrouses.exclusive h, ?_, ?_⟩
  · intro j hj
    rw [hrouses.entered]
    exact hreader j (hrouses.waitsOn_of hj)
  · intro j hj
    rw [not_waitsOn_notifyOne hone hs j] at hj
    cases hj

/-- `RUnlock` wakes the writer when the last reader goes. -/
theorem Inv.rUnlock {pick : ι} (h : s.Inv) (hi : s.threads i = .reading)
    (hs : s.rUnlock i pick = some s') : s'.Inv := by
  have hexclusive := h.exclusive.depart hi
  unfold LatchSystem.rUnlock at hs
  dsimp only at hs
  generalize hdepart : { s with readerCount := s.readerCount - 1 }.move i .idle = t
    at hs hexclusive
  have hentered : t.writerEntered = s.writerEntered := by rw [← hdepart]; rfl
  have hwaits : ∀ c j, (t.threads j).waitsOn c = (s.threads j).waitsOn c := by
    intro c j
    rw [← hdepart]
    exact apply_move (s := s) (LatchThread.waitsOn c) (by rw [hi]; cases c <;> rfl) j
  have hreader : ∀ j, (t.threads j).waitsOn .reader = true → t.writerEntered = true := by
    intro j hj
    rw [hentered]
    exact h.wakeful.reader j ((hwaits _ j).symm.trans hj)
  split at hs
  next hup =>
    split at hs
    next => exact inv_notifyWriter hexclusive hreader hs
    next hpos =>
      cases hs
      refine ⟨hexclusive, hreader, ?_⟩
      intro j hj
      exact UInt32.pos_iff_ne_zero.2 hpos
  next hdown =>
    have hwakeful : t.Wakeful := by
      refine ⟨hreader, ?_⟩
      intro j hj
      exact absurd (hexclusive.entered.2 ⟨j, LatchThread.entered_of_waitsOn hj⟩) hdown
    split at hs
    next => exact (rouses_notifyOne hs).inv ⟨hexclusive, hwakeful⟩
    next =>
      cases hs
      exact ⟨hexclusive, hwakeful⟩

/-- `WUnlock` wakes everybody who waits for the writer. -/
theorem Inv.wUnlock (h : s.Inv) (hi : s.threads i = .writing) : (s.wUnlock i).Inv := by
  have hentered : (s.threads i).entered = true := by rw [hi]; rfl
  have hnone : ∀ j, ((s.move i .idle).threads j).entered = false := by
    refine (forall_move fun t => t.entered = false).2 ⟨rfl, ?_⟩
    intro j hj
    exact Bool.eq_false_iff.2 fun hje => hj (h.exclusive.unique j i hje hentered)
  have hcount : s.readerCount.toNat = Census.count LatchThread.reads (s.move i .idle).threads := by
    rw [Census.count_congr (apply_move _ (by rw [hi]; rfl))]
    exact h.exclusive.count
  have hexclusive : ({ s with writerEntered := false }.move i .idle).Exclusive :=
    exclusive_of_none hcount rfl hnone
  have hrouses := rouses_notifyAll ({ s with writerEntered := false }.move i .idle) .reader
  refine ⟨hrouses.exclusive hexclusive, ?_, ?_⟩
  · intro j hj
    rw [LatchSystem.wUnlock, not_waitsOn_notifyAll] at hj
    cases hj
  · intro j hj
    have hje := LatchThread.entered_of_waitsOn (hrouses.waitsOn_of hj)
    exact absurd (hnone j) (by simpa [LatchSystem.move] using hje)

/-- **Every action preserves the invariant.** -/
theorem Inv.step (hfew : Fintype.card ι < maxReaders.toNat) (h : s.Inv) {a : LatchAction ι}
    (hs : s.step a = some s') : s'.Inv := by
  cases a with
  | rLock i =>
    cases hi : s.threads i <;> simp only [LatchSystem.step, hi, reduceCtorEq] at hs
    cases hs
    exact h.rLock hfew (by rw [hi]; rfl) (by rw [hi]; rfl)
  | rUnlock i pick =>
    cases hi : s.threads i <;> simp only [LatchSystem.step, hi, reduceCtorEq] at hs
    exact h.rUnlock hi hs
  | wLock i =>
    cases hi : s.threads i <;> simp only [LatchSystem.step, hi, reduceCtorEq] at hs
    cases hs
    exact h.wLock (by rw [hi]; rfl) (by rw [hi]; rfl)
  | wUnlock i =>
    cases hi : s.threads i <;> simp only [LatchSystem.step, hi, reduceCtorEq] at hs
    cases hs
    exact h.wUnlock hi
  | spurious i =>
    cases hs
    exact (s.rouses_wake i).inv h
  | resume i =>
    unfold LatchSystem.step at hs
    dsimp only at hs
    split at hs
    next hi =>
      cases hs
      exact h.rLock hfew (by rw [hi]; rfl) (by rw [hi]; rfl)
    next hi =>
      cases hs
      exact h.wLock (by rw [hi]; rfl) (by rw [hi]; rfl)
    next hi =>
      cases hs
      have hentered : (s.threads i).entered = true := by rw [hi]; rfl
      refine inv_awaitReaders h.exclusive.count (h.exclusive.entered.2 ⟨i, hentered⟩)
        (by rw [hi]; rfl) ?_
      intro j hj
      exact Bool.eq_false_iff.2 fun hje => hj (h.exclusive.unique j i hje hentered)
    next => cases hs

end Steps

/-! ## Every interleaving -/

section Runs

variable [Fintype ι]

theorem inv_start : (start : LatchSystem ι).Inv := by
  refine ⟨exclusive_of_none ?_ rfl fun _ => rfl, ⟨?_, ?_⟩⟩
  · simp [start, Census.count, LatchThread.reads]
  · exact fun i hi => by cases hi
  · exact fun i hi => by cases hi

variable [DecidableEq ι] {s : LatchSystem ι}

/-- **The invariant holds after every interleaving.** -/
theorem Reachable.inv (hfew : Fintype.card ι < maxReaders.toNat) (h : s.Reachable) : s.Inv := by
  obtain ⟨actions, rfl⟩ := h
  refine List.foldlRecOn actions _ inv_start ?_
  intro s hs a _
  cases ha : s.step a with
  | none => exact hs
  | some s' => exact hs.step hfew ha

/-- **The latch excludes and loses no wakeup.**  For fewer threads than
`MAX_READERS`, after every interleaving: `reader_count_` is the number of
readers, is not at its maximum when a thread enters and not zero when one leaves;
there is at most one writer, and no reader beside it; and who waits on a
condition variable without having been woken waits for what still lasts. -/
theorem latch_safe (hfew : Fintype.card ι < maxReaders.toNat) (h : s.Reachable) :
    (s.readerCount.toNat = (Finset.univ.filter fun i => s.threads i = .reading).card ∧
      s.readerCount < maxReaders ∧ ∀ i, s.threads i = .reading → 0 < s.readerCount) ∧
    ((∀ i j, s.threads i = .writing → s.threads j = .writing → i = j) ∧
      ∀ i j, s.threads i = .writing → s.threads j ≠ .reading) ∧
    (∀ i, (s.threads i).waitsOn .reader = true → s.writerEntered = true) ∧
    ∀ i, (s.threads i).waitsOn .writer = true → 0 < s.readerCount := by
  obtain ⟨hexclusive, hwakeful⟩ := h.inv hfew
  have hpos : ∀ i, s.threads i = .reading → 0 < s.readerCount := fun i hi =>
    UInt32.lt_iff_toNat_lt.2 (hexclusive.pos_of_reading hi)
  refine ⟨⟨?_, hexclusive.lt_maxReaders hfew, hpos⟩, ⟨?_, ?_⟩, hwakeful.reader, hwakeful.writer⟩
  · rw [hexclusive.count, Census.count]
    simp only [LatchThread.reads_iff]
  · intro i j hi hj
    exact hexclusive.unique i j (by rw [hi]; rfl) (by rw [hj]; rfl)
  · intro i j hi hj
    have hzero := hexclusive.alone i hi
    have := hpos j hj
    rw [hzero] at this
    exact absurd this (by decide)

/-- A reader, a writer that waits for it, and a reader that waits for the
writer. -/
theorem latch_safe_three :
    (run [.rLock 0, .wLock 1, .rLock 2] : LatchSystem (Fin 3)).writerEntered = true ∧
    0 < (run [.rLock 0, .wLock 1, .rLock 2] : LatchSystem (Fin 3)).readerCount := by
  obtain ⟨-, -, hreader, hwriter⟩ :=
    latch_safe (show Fintype.card (Fin 3) < maxReaders.toNat by decide)
      ⟨[.rLock 0, .wLock 1, .rLock 2], rfl⟩
  exact ⟨hreader 2 (by decide), hwriter 1 (by decide)⟩

/-- **The latch never locks up**: as long as some thread has it or wants it, one
of them is not in a wait that only another can end. -/
theorem exists_able (hfew : Fintype.card ι < maxReaders.toNat) (h : s.Reachable) {i : ι}
    (hi : s.threads i ≠ .idle) :
    ∃ j, s.threads j ≠ .idle ∧ ∀ c, (s.threads j).waitsOn c = false := by
  obtain ⟨hexclusive, hwakeful⟩ := h.inv hfew
  have hreading : 0 < s.readerCount →
      ∃ j, s.threads j ≠ .idle ∧ ∀ c, (s.threads j).waitsOn c = false := by
    intro hpos
    rw [UInt32.lt_iff_toNat_lt, hexclusive.count] at hpos
    obtain ⟨j, hj⟩ := Census.count_pos_iff.1 hpos
    rw [LatchThread.reads_iff] at hj
    exact ⟨j, by simp [hj], fun c => by simp [hj, LatchThread.waitsOn]⟩
  by_cases hwriter : ∃ j, (s.threads j).waitsOn .writer = true
  · obtain ⟨j, hj⟩ := hwriter
    exact hreading (hwakeful.writer j hj)
  · push Not at hwriter
    by_cases hreader : (s.threads i).waitsOn .reader = true
    · -- it waits for a writer, and that one has no readers to wait for
      obtain ⟨j, hj⟩ := hexclusive.entered.1 (hwakeful.reader i hreader)
      refine ⟨j, ?_, ?_⟩
      · intro hidle
        rw [hidle] at hj
        cases hj
      · intro c
        cases c with
        | reader => exact LatchThread.waitsOn_reader_of_entered hj
        | writer => simpa using hwriter j
    · refine ⟨i, hi, ?_⟩
      intro c
      cases c with
      | reader => simpa using hreader
      | writer => simpa using hwriter i

/-- Of a reader, a writer that waits for it and a reader that waits for the
writer, the first can go on. -/
theorem exists_able_three :
    ∃ j, (run [.rLock 0, .wLock 1, .rLock 2] : LatchSystem (Fin 3)).threads j ≠ .idle ∧
      ∀ c, ((run [.rLock 0, .wLock 1, .rLock 2] : LatchSystem (Fin 3)).threads j).waitsOn c =
        false :=
  exists_able (by decide) ⟨_, rfl⟩ (i := 2) (by decide)

/-- A latch says that it is locked as soon as a writer has entered. -/
theorem isLocked_iff (hfew : Fintype.card ι < maxReaders.toNat) (h : s.Reachable) :
    s.isLocked = true ↔ ∃ i, s.threads i = .reading ∨ (s.threads i).entered = true := by
  obtain ⟨hexclusive, -⟩ := h.inv hfew
  have hread : s.isReadLocked = true ↔ ∃ i, s.threads i = .reading := by
    rw [isReadLocked, decide_eq_true_iff, gt_iff_lt, UInt32.lt_iff_toNat_lt, hexclusive.count,
      UInt32.toNat_zero, Census.count_pos_iff]
    simp only [LatchThread.reads_iff]
  have hzero : ¬ s.isReadLocked = true → s.readerCount = 0 := by
    intro hno
    rw [isReadLocked, decide_eq_true_iff] at hno
    exact not_not.1 (mt UInt32.pos_iff_ne_zero.2 hno)
  rw [exists_or, ← hread, ← hexclusive.entered, isLocked, Bool.or_eq_true]
  by_cases hlocked : s.isReadLocked = true
  · simp [hlocked]
  · simp [hlocked, isWriteLocked, hzero hlocked]

end Runs

end LatchSystem

end GhostDB
