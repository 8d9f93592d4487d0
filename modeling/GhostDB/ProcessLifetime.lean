import GhostDB.ProcessProgress
import GhostDB.Shutdown

/-!
# A database with its threads

What the rest of the development proves of sequential sessions holds of the
process of one client, and such a process always gets to its end.

* `ends_session`, `orderly_wholeLife` — the programs of a client are in order.
* `session_in_process` — sessions answer like a map, whatever the threads do.
* `life_in_process` — the whole life of a database, up to the end of its threads.
-/

namespace GhostDB

open Prog SortedTable Process

/-! ## The client's programs are in order -/

theorem ends_abort {α : Type} (f : Fault) : Pure ClientSig.ends (abort f : Prog ClientSig α) :=
  ⟨rfl, fun r => nomatch r⟩

theorem ends_onStore {α : Type} {p : Prog StoreSig α} (hp : Pure StoreOp.isStop p) :
    Pure ClientSig.ends (onStore p) := Pure.inl hp

theorem ends_dumpLoop (fuel : Nat) (memtable : BufferMap) :
    Pure ClientSig.ends (dumpLoop fuel memtable) := by
  induction fuel with
  | zero => exact ends_abort _
  | succ fuel ih =>
    refine Pure.bind (ends_onStore (Pure.bind (pure_getAvaiRun fun _ _ => rfl) ?_)) ?_
    · intro found
      cases found with
      | none => trivial
      | some pos => exact ⟨rfl, fun _ => trivial⟩
    · intro dumped
      cases dumped with
      | true => trivial
      | false => exact ⟨rfl, fun _ => ih⟩

theorem ends_put (fuel : Nat) (b : Buffer) (key : Key) (val : Val) :
    Pure ClientSig.ends (Db.put fuel b key val) := by
  induction fuel generalizing b with
  | zero => exact ends_abort _
  | succ fuel ih =>
    refine Pure.bind ?_ ?_
    · rw [Buffer.put]
      split
      · trivial
      · exact ⟨rfl, fun _ => trivial⟩
    · intro placed
      cases placed with
      | some b' => trivial
      | none =>
        refine Pure.bind (ends_onStore (p := flushWAL) ⟨rfl, fun _ => trivial⟩) fun _ => ?_
        refine Pure.bind (ends_dumpLoop _ _) fun _ => ?_
        exact Pure.bind (ends_onStore (p := clearLog) ⟨rfl, fun _ => trivial⟩) fun _ => ih _

theorem ends_get (b : Buffer) (key : Key) : Pure ClientSig.ends (Db.get b key) := by
  have hsearch : ∀ levelNo runNo, Pure ClientSig.ends (Db.searchRun key levelNo runNo) := by
    intro levelNo runNo
    refine ⟨rfl, fun loaded => ?_⟩
    cases loaded with
    | none => trivial
    | some x =>
      show Pure ClientSig.ends (if _ then _ else _)
      split
      · split
        · exact ends_abort _
        · split <;> trivial
      · trivial
  unfold Db.get
  cases b.get key with
  | some val => trivial
  | none =>
    refine Pure.bind ?_ fun _ => trivial
    exact Pure.firstSome (fun levelNo => Pure.firstSome (fun runNo => hsearch ..) _) _

/-- **A session ends no thread.** -/
theorem ends_session (fuel : Nat) (calls : List Call) :
    Pure ClientSig.ends (session fuel calls) := by
  induction calls using List.reverseRecOn with
  | nil => trivial
  | append_singleton calls c ih =>
    rw [session_concat]
    refine Pure.bind ih fun st => Pure.bind ?_ fun _ => trivial
    cases c with
    | update u =>
      rw [Call.prog]
      simp only [u.prog_eq]
      exact Pure.bind (ends_put _ _ _ _) fun _ => trivial
    | get key => exact Pure.bind (ends_get _ _) fun _ => trivial

/-- A session and the destructor, with the answers. -/
def wholeLife (fuel : Nat) (calls : List Call) : Prog ClientSig (List Reply) := do
  let (b, replies) ← session fuel calls
  Db.destroy fuel b
  return replies

/-- **A whole life is in order**: the destructor ends both threads behind their
last requests. -/
theorem orderly_wholeLife (fuel : Nat) (calls : List Call) :
    Orderly true (fun logging compaction => logging = false ∧ compaction = false)
      (wholeLife fuel calls) true true := by
  refine Orderly.bind_of_pure (ends_session fuel calls) fun st => ?_
  simp only [Db.destroy, bind_assoc]
  refine Orderly.bind_of_pure (ends_onStore (p := flushWAL) ⟨rfl, fun _ => trivial⟩) fun _ => ?_
  refine Orderly.bind_of_pure (ends_dumpLoop _ _) fun _ => ?_
  refine Orderly.bind_of_pure (ends_onStore (p := clearLog) ⟨rfl, fun _ => trivial⟩) fun _ => ?_
  refine Orderly.bind_of_pure (p := requestMajorCompaction) ⟨rfl, fun _ => trivial⟩ fun _ => ?_
  exact ⟨rfl, fun _ => ⟨fun _ => rfl, fun _ => rfl, fun _ => ⟨rfl, rfl⟩⟩⟩

/-! ## Sessions and lives -/

/-- What the constructor leaves, for a process to start with. -/
theorem construct_calm (fuel : Nat) (files : Files) :
    ∃ w, Db.construct fuel files = .ok (Buffer.empty, w) ∧ At [] w Buffer.empty ∧
      w.store.log.Ok ∧ w.store.log.requestFlush = false := by
  obtain ⟨w, hrun, hholds, hflushed, hlog, -⟩ := construct_fresh fuel files
  refine ⟨w, hrun, ⟨hholds, ?_⟩, ?_, ?_⟩
  · rw [hflushed]
    rfl
  · rw [hlog]
    exact LogManager.ok_init
  · rw [hlog]
    rfl

/-- **A session in its process**: calls of `Put`, `Delete` and `Get`.  On a new
database, both compaction flags false, whatever the order in which client, flush
thread and compaction thread act: a session that is over was answered like a map;
and unless the sequential run overflows a page or reads past the end of a table,
every order of turns that gives each of the three its turns again and again gets
to the end of the session, without a timeout and without a spurious wakeup. -/
theorem session_in_process (fuel : Nat) (files : Files) (calls : List Call) :
    ∃ w₀, Db.construct fuel files = .ok (Buffer.empty, w₀) ∧
      (∀ schedule s b replies, Schedule.run Process.step schedule
          (Process.start w₀ (fun _ => false) (session (fuel + 2) calls)) = .ok s →
        s.client = .running (.ret (b, replies)) → AnswersMap calls replies) ∧
      (run World.handle (session (fuel + 2) calls) w₀ = .error .pageOverflow ∨
        run World.handle (session (fuel + 2) calls) w₀ = .error .endIterator ∨
        ∀ actions : Nat → ProcessAction,
          (∀ c ∈ Process.turns false, ∀ n, ∃ m, n ≤ m ∧ actions m ∈ c) →
          ∃ n s b replies, Schedule.run Process.step ((List.range n).map actions)
              (Process.start w₀ (fun _ => false) (session (fuel + 2) calls)) = .ok s ∧
            s.client = .running (.ret (b, replies))) := by
  obtain ⟨w₀, hconstruct, hat, hok, hcalm⟩ := construct_calm fuel files
  refine ⟨w₀, hconstruct, ?_, ?_⟩
  · intro schedule s b replies hrun hdone
    obtain ⟨-, halike⟩ := (interleavings hok hcalm (fun _ => rfl) _ schedule).1 s hrun
    obtain ⟨v, hresult, -⟩ := run_of_done halike hdone
    rcases session_spec hat fuel calls with herr | herr | ⟨b', replies', w, hsession, -, hmap⟩
    · rw [herr] at hresult
      cases hresult
    · rw [herr] at hresult
      cases hresult
    · rw [hsession] at hresult
      cases hresult
      exact hmap
  · rcases session_spec hat fuel calls with herr | herr | ⟨b, replies, w, hsession, -, -⟩
    · exact .inl herr
    · exact .inr (.inl herr)
    · refine .inr (.inr fun actions hfair => ?_)
      have horderly : Orderly false (fun _ _ => True) (session (fuel + 2) calls) true true :=
        .of_pure (ends_session _ _) trivial
      obtain ⟨n, s, hrun, -, hdone, -⟩ := exists_done hok hcalm (fun _ => rfl) horderly
        hsession hfair
      exact ⟨n, s, b, replies, hrun, hdone⟩

/-- One page of `sstable.db` is in use, that of the first run, and it answers
like the last writes. -/
structure HoldsLastWrites (s : Store) (ws : List MappingType) : Prop where
  /-- No other page is in use. -/
  page : ∀ j, pageAt s.disk.dbIo j ≠ zeroData ↔ j = getPageId (maxLevelNum - 1) 0
  /-- Its table answers like the writes. -/
  table : ∃ table, decodedPairs (pageAt s.disk.dbIo (getPageId (maxLevelNum - 1) 0)) = some table ∧
    ∀ key, key ≠ tombstome → table.lookup key = lastWrite ws key
  /-- The temporary page is clear. -/
  temp : pageAt s.disk.tempIo 0 = zeroData

/-- The log has no part in it. -/
theorem HoldsLastWrites.of_sameRuns {w v : World} {ws : List MappingType}
    (h : HoldsLastWrites v.store ws) (hsame : w.SameRuns v) : HoldsLastWrites w.store ws := by
  obtain ⟨-, log, logIo, rfl, -⟩ := hsame
  exact ⟨h.page, h.table, h.temp⟩

/-- What the runs of a shutdown hold. -/
theorem holdsLastWrites_of_rep {ws : List MappingType} {w : World} {b : Buffer} (hat : At ws w b)
    {s : Store} (hrep : Rep s (Slots.ofList (afterShutdown (w.flushed ++ [b.kv]))))
    (htemp : pageAt s.disk.tempIo 0 = zeroData) (hstray : NoStrayPages s) :
    HoldsLastWrites s ws := by
  rw [afterShutdown_eq hat.full] at hrep
  have hzero : fillPage 0 = getPageId (maxLevelNum - 1) 0 := by decide
  have hone : 1 ≤ totalNonOverflowPages := by decide
  have hslot := hrep.slot 0 hone
  rw [Slots.ofList_of_lt Nat.zero_lt_one] at hslot
  refine ⟨?_, ⟨lastTable (w.flushed ++ [b.kv]), ?_, ?_⟩, htemp⟩
  · intro j
    rw [pageAt_ne_zero_iff hrep hstray hone, ← hzero]
    simp [eq_comm]
  · rw [← hzero, hslot.page]
    exact hslot.2.2.decodedPairs
  · intro key hk
    have hnewest := hat.newest_eq key
    rw [tablesOf] at hnewest
    rw [lookup_lastTable _ hk, List.map_append, List.map_singleton]
    exact hnewest

/-- **A whole life, sequentially**: it overflows a page, reads past the end of a
table, or is answered like a map and leaves the last writes in one run. -/
theorem wholeLife_spec {w₀ : World} (h₀ : At [] w₀ Buffer.empty) (fuel : Nat)
    (calls : List Call) :
    run World.handle (wholeLife (fuel + 2) calls) w₀ = .error .pageOverflow ∨
    run World.handle (wholeLife (fuel + 2) calls) w₀ = .error .endIterator ∨
    ∃ replies v, run World.handle (wholeLife (fuel + 2) calls) w₀ = .ok (replies, v) ∧
      AnswersMap calls replies ∧ HoldsLastWrites v.store (writesOf calls) := by
  rcases session_spec h₀ fuel calls with herr | herr | ⟨b, replies, w, hsession, hat, hmap⟩
  · exact .inl (run_bind_of_error herr)
  · exact .inr (.inl (run_bind_of_error herr))
  · have hlife : ∀ x, run World.handle (Db.destroy (fuel + 2) b) w = x →
        run World.handle (wholeLife (fuel + 2) calls) w₀ = x.map fun y => (replies, y.2) := by
      intro x hx
      refine (run_bind_of_ok hsession).trans ?_
      refine (run_bind ..).trans ?_
      rw [hx]
      cases x <;> rfl
    by_cases hfine : ¬ Overflows w.flushed ∧
        mergedSize ((w.flushed ++ [b.kv]).map SortedMap.entries) ≤ 125
    · obtain ⟨s', hdestroy, hrep, htemp, hstray⟩ :=
        destroy_spec (b := b) hat.holds hat.full hfine.1 hfine.2 fuel
      exact .inr (.inr ⟨replies, _, hlife _ hdestroy, hmap,
        holdsLastWrites_of_rep hat hrep htemp hstray⟩)
    · refine .inl (hlife _ (destroy_overflow hat.holds hat.full ?_ fuel))
      by_contra hcon
      push Not at hcon
      exact hfine hcon

/-- **The whole life of a database in its process**, from the constructor to the
end of the destructor.  Whatever the order in which client, flush thread and
compaction thread act, both compaction flags false at the start: a life that is
over was answered like a map, both threads are gone, and the last write of every
key other than `INT32_MIN` is in the one run that is left; and unless the
sequential run faults, every order of turns that gives each of the three its
turns again and again, and lets the threads' waits time out, gets to that
point. -/
theorem life_in_process (fuel : Nat) (files : Files) (calls : List Call) :
    ∃ w₀, Db.construct fuel files = .ok (Buffer.empty, w₀) ∧
      (∀ schedule s replies, Schedule.run Process.step schedule
          (Process.start w₀ (fun _ => false) (wholeLife (fuel + 2) calls)) = .ok s →
        s.client = .running (.ret replies) →
        AnswersMap calls replies ∧ s.flush = .exited ∧ s.compaction = .exited ∧
          HoldsLastWrites s.world.store (writesOf calls)) ∧
      (run World.handle (wholeLife (fuel + 2) calls) w₀ = .error .pageOverflow ∨
        run World.handle (wholeLife (fuel + 2) calls) w₀ = .error .endIterator ∨
        ∀ actions : Nat → ProcessAction,
          (∀ c ∈ Process.turns true, ∀ n, ∃ m, n ≤ m ∧ actions m ∈ c) →
          ∃ n s replies, Schedule.run Process.step ((List.range n).map actions)
              (Process.start w₀ (fun _ => false) (wholeLife (fuel + 2) calls)) = .ok s ∧
            s.client = .running (.ret replies)) := by
  obtain ⟨w₀, hconstruct, hat, hok, hcalm⟩ := construct_calm fuel files
  have horderly := orderly_wholeLife (fuel + 2) calls
  refine ⟨w₀, hconstruct, ?_, ?_⟩
  · intro schedule s replies hrun hdone
    obtain ⟨-, halike⟩ := (interleavings hok hcalm (fun _ => rfl) _ schedule).1 s hrun
    obtain ⟨v, hresult, hsame⟩ := run_of_done halike hdone
    have hsteady := steady_of_run hok hcalm (fun _ => rfl) horderly hrun
    obtain ⟨⟨hlogging, hcompaction⟩, hflush, hcompacted⟩ := hsteady.gone hdone
    rcases wholeLife_spec hat fuel calls with herr | herr | ⟨replies', v', hlife, hmap, hlast⟩
    · rw [herr] at hresult
      cases hresult
    · rw [herr] at hresult
      cases hresult
    · rw [hlife] at hresult
      cases hresult
      exact ⟨hmap, hflush hlogging, hcompacted hcompaction, hlast.of_sameRuns hsame⟩
  · rcases wholeLife_spec hat fuel calls with herr | herr | ⟨replies, v, hlife, -, -⟩
    · exact .inl herr
    · exact .inr (.inl herr)
    · refine .inr (.inr fun actions hfair => ?_)
      obtain ⟨n, s, hrun, -, hdone, -⟩ :=
        exists_done hok hcalm (fun _ => rfl) horderly hlife hfair
      exact ⟨n, s, replies, hrun, hdone⟩

end GhostDB
