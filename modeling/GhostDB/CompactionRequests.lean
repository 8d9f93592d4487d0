import GhostDB.CompactionConcurrency

/-!
# The thread compacts only when asked

The wait of the compaction thread ends when a flag is up or when it times out,
and it looks at the flags again before it starts anything.

* `requestsMade` — the requests that some actions make.
* `Asked` — a compaction under way has its flag up.
* `launches_le` — no more compactions than requests.
-/

namespace GhostDB

namespace CompactionSystem

variable {ι α : Type} [DecidableEq ι] {s s' t : CompactionSystem ι α}

/-! ## Requests and their answers -/

/-- Does the action raise a flag of this kind? -/
def raises (kind : CompactionKind) (s : CompactionSystem ι α) : CompactionAction ι → Bool
  | .client i =>
    match s.clients i with
    | .running (.call (.inr (.request kind')) _) => !s.latched && decide (kind' = kind)
    | _ => false
  | .thread _ => false

/-- The requests of a kind that some actions make. -/
def requestsMade (kind : CompactionKind) :
    List (CompactionAction ι) → CompactionSystem ι α → Nat
  | [], _ => 0
  | a :: actions, s =>
    (raises kind s a).toNat +
      match step a s with
      | .ok s' => requestsMade kind actions s'
      | .error _ => 0

/-- Is a compaction of this kind under way? -/
def isCompacting (kind : CompactionKind) (s : CompactionSystem ι α) : Bool :=
  match s.thread with
  | .compacting kind' _ _ => decide (kind' = kind)
  | _ => false

/-- The compactions of a kind that have run, and one more if the flag is up. -/
def answered (kind : CompactionKind) (s : CompactionSystem ι α) : Nat :=
  s.launches.countP (fun l => l.kind = kind) + (s.requested kind).toNat

/-- A compaction under way has its flag up. -/
def Asked (s : CompactionSystem ι α) : Prop :=
  ∀ kind p start, s.thread = .compacting kind p start → s.requested kind = true

/-- A client raises the flag at most. -/
theorem answered_clientTurn {kind : CompactionKind} {i : ι} (ht : s.clientTurn i = .ok t) :
    t.answered kind ≤ s.answered kind + (raises kind s (.client i)).toNat ∧
      t.thread = s.thread ∧ ∀ kind', s.requested kind' = true → t.requested kind' = true := by
  unfold clientTurn at ht
  split at ht
  next =>
    cases ht
    exact ⟨Nat.le_add_right _ _, rfl, fun _ => id⟩
  next o k hruns =>
    cases ho : World.handleStore o s.world with
    | error e =>
      rw [ho] at ht
      cases ht
    | ok x =>
      rw [ho] at ht
      cases ht
      exact ⟨Nat.le_add_right _ _, rfl, fun _ => id⟩
  next kind' k hruns =>
    split at ht
    next =>
      cases ht
      exact ⟨Nat.le_add_right _ _, rfl, fun _ => id⟩
    next hfree =>
      cases ht
      have hraises : raises kind s (.client i) = decide (kind' = kind) := by
        simp [raises, hruns, hfree]
      refine ⟨?_, rfl, ?_⟩
      · simp only [answered, goto, hraises]
        by_cases hkind : kind = kind'
        · subst hkind
          simp
        · simp [Function.update_of_ne hkind]
      · intro kind'' hup
        show Function.update s.requested kind' true kind'' = true
        by_cases hkind : kind'' = kind'
        · rw [hkind, Function.update_self]
        · rw [Function.update_of_ne hkind, hup]
  next =>
    cases ht
    exact ⟨Nat.le_add_right _ _, rfl, fun _ => id⟩
  next => cases ht
  next =>
    split at ht <;> cases ht <;> exact ⟨Nat.le_add_right _ _, rfl, fun _ => id⟩
  next =>
    split at ht <;> cases ht <;> exact ⟨Nat.le_add_right _ _, rfl, fun _ => id⟩

omit [DecidableEq ι] in
/-- The compaction that ends is the one whose flag goes down. -/
theorem answered_finishNow {kind kind' : CompactionKind} {start : Nat}
    (hup : s.requested kind' = true) :
    (s.finishNow kind' start).answered kind ≤ s.answered kind := by
  cases kind <;> cases kind' <;> simp [answered, finishNow, hup]

omit [DecidableEq ι] in
/-- **The thread** counts a compaction when it takes its flag down. -/
theorem answered_threadTurn {kind : CompactionKind} {timeout : Bool} (h : s.Asked)
    (ht : s.threadTurn timeout = .ok t) : t.answered kind ≤ s.answered kind ∧ t.Asked := by
  have hrests : ∀ thread : CompactionThread,
      (∀ kind p start, thread ≠ .compacting kind p start) →
      Asked { s with thread := thread } := fun thread hthread kind p start hcompacts =>
    absurd hcompacts (hthread kind p start)
  have hlaunch : ∀ kind, s.chosen = some kind → (s.launchNow kind).Asked := by
    intro kind hchosen kind' p start hcompacts
    cases hcompacts
    exact chosen_eq_some hchosen
  unfold threadTurn at ht
  split at ht
  next =>
    split at ht
    next =>
      split at ht
      next kind' hchosen =>
        cases ht
        exact ⟨le_rfl, hlaunch kind' hchosen⟩
      next =>
        cases ht
        exact ⟨le_rfl, hrests _ (by simp)⟩
    next =>
      cases ht
      exact ⟨le_rfl, hrests _ (by simp)⟩
  next =>
    split at ht
    next kind' hchosen =>
      cases ht
      exact ⟨le_rfl, hlaunch kind' hchosen⟩
    next =>
      split at ht <;> cases ht
      · exact ⟨le_rfl, hrests _ (by simp)⟩
      · exact ⟨le_rfl, h⟩
  next kind' o k start hcompacts =>
    cases ho : Store.handle o s.world.store with
    | error e =>
      rw [ho] at ht
      cases ht
    | ok x =>
      rw [ho] at ht
      cases ht
      refine ⟨le_rfl, ?_⟩
      intro kind'' p start' hthread
      cases hthread
      exact h _ _ start hcompacts
  next kind' u start hcompacts =>
    cases ht
    exact ⟨answered_finishNow (h _ _ _ hcompacts), fun kind p start hthread => by cases hthread⟩
  next =>
    cases ht
    exact ⟨le_rfl, h⟩

/-- **One action** answers a request or makes one. -/
theorem Asked.step {a : CompactionAction ι} (h : s.Asked) (hs : step a s = .ok s')
    (kind : CompactionKind) :
    s'.answered kind ≤ s.answered kind + (raises kind s a).toNat ∧ s'.Asked := by
  cases a with
  | client i =>
    obtain ⟨t, ht, rfl⟩ := step_client hs
    obtain ⟨hle, hthread, hup⟩ := answered_clientTurn ht
    refine ⟨hle, ?_⟩
    intro kind p start hcompacts
    exact hup kind (h kind p start (hthread ▸ hcompacts))
  | thread timeout =>
    obtain ⟨t, ht, rfl⟩ := step_thread hs
    obtain ⟨hle, hasked⟩ := answered_threadTurn h ht
    exact ⟨hle, hasked⟩

/-- **A whole run** answers no more than what was asked before or during it. -/
theorem Asked.run {schedule : List (CompactionAction ι)} (h : s.Asked)
    (hrun : Schedule.run CompactionSystem.step schedule s = .ok s') (kind : CompactionKind) :
    s'.answered kind ≤ s.answered kind + requestsMade kind schedule s ∧ s'.Asked := by
  induction schedule generalizing s with
  | nil =>
    cases hrun
    exact ⟨le_rfl, h⟩
  | cons a schedule ih =>
    cases hs : CompactionSystem.step a s with
    | error e =>
      rw [Schedule.run_cons, hs] at hrun
      cases hrun
    | ok t =>
      rw [Schedule.run_cons_of_ok hs] at hrun
      obtain ⟨hone, ht⟩ := h.step hs kind
      obtain ⟨hrest, hs'⟩ := ih ht hrun
      rw [requestsMade, hs]
      exact ⟨by dsimp only; omega, hs'⟩

/-- **The thread compacts only when asked.**  However many clients there are and
however often its wait times out: of either kind, the compactions that have run,
with the one under way, are at most the requests made so far, and one more if the
flag happened to start true. -/
theorem launches_le {world : World} {requested : CompactionKind → Bool}
    {programs : ι → Prog ClientSig α} {schedule : List (CompactionAction ι)}
    (hrun : Schedule.run step schedule (start world requested programs) = .ok s)
    (kind : CompactionKind) :
    s.launches.countP (fun l => l.kind = kind) + (s.isCompacting kind).toNat ≤
      requestsMade kind schedule (start world requested programs) + (requested kind).toNat := by
  have hstart : (start world requested programs).Asked := fun _ _ _ h => by cases h
  obtain ⟨hle, hasked⟩ := hstart.run hrun kind
  have hunder : s.isCompacting kind = true → s.requested kind = true := by
    intro h
    unfold isCompacting at h
    split at h
    next kind' p start hcompacts => exact of_decide_eq_true h ▸ hasked _ _ _ hcompacts
    next => cases h
  have hflag : (s.isCompacting kind).toNat ≤ (s.requested kind).toNat := Bool.toNat_le_toNat hunder
  have hfirst : (start world requested programs).answered kind = (requested kind).toNat :=
    Nat.zero_add _
  rw [hfirst] at hle
  unfold answered at hle
  omega

/-- Two callers ask, one of each kind, with timeouts before and behind their
requests: the major compaction answers both. -/
theorem launches_le_both :
    ∃ s : CompactionSystem Bool Unit,
      Schedule.run step [.thread true, .thread true, .client true, .client false, .thread true,
          .thread true, .thread true, .thread true, .thread true, .thread true]
        (start ⟨Store.empty, []⟩ (fun _ => false) askBoth) = .ok s ∧
      s.launches.countP (fun l => l.kind = .major) + (s.isCompacting .major).toNat ≤ 1 ∧
      s.launches.countP (fun l => l.kind = .minor) + (s.isCompacting .minor).toNat ≤ 1 := by
  obtain ⟨s, hrun⟩ : ∃ s : CompactionSystem Bool Unit,
      Schedule.run step [.thread true, .thread true, .client true, .client false, .thread true,
          .thread true, .thread true, .thread true, .thread true, .thread true]
        (start ⟨Store.empty, []⟩ (fun _ => false) askBoth) = .ok s :=
    ⟨_, rfl⟩
  exact ⟨s, hrun, launches_le hrun .major, launches_le hrun .minor⟩

end CompactionSystem

end GhostDB
