import GhostDB.Compaction

/-!
# What a client of the store does

A client (the thread inside `Put`, `Get`, `GetRange`, a constructor or a
destructor) makes calls to the store and requests compactions.  `ClientSig` adds
the requests to the store's calls, so that one and the same program is run to
its end by `World.handle`, where a request is answered by a compaction, and
interleaved with the compaction thread in `GhostDB.CompactionConcurrency`.

* `getAvaiRun`, `dumpSSTable`, `dumpLoop` — how a memtable becomes a run.
* `World.handle` — what the calls and requests of a client that is alone do.
* `run_getAvaiRun` — the available run is the first one in fill order that is
  empty.
-/

namespace GhostDB

open Prog

/-! ## Calls and requests -/

/-- The two kinds of compaction. -/
inductive CompactionKind
  | minor
  | major
  deriving DecidableEq, Repr

/-- `LaunchMinorCompaction` or `LaunchMajorCompaction`. -/
def launch : CompactionKind → Prog StoreSig Unit
  | .minor => launchMinorCompaction
  | .major => launchMajorCompaction

/-- What a client does besides calling the store. -/
inductive RequestOp
  /-- `RequestMinorCompaction` or `RequestMajorCompaction`. -/
  | request (kind : CompactionKind)
  /-- The end of `StopCompactionThread`: `enable_compaction_ = false`, then wait
  for the thread. -/
  | disable
  /-- The client runs into a fault of its own. -/
  | fault (f : Fault)

/-- The requests and their answers. -/
def RequestSig : Sig where
  Op := RequestOp
  Res
    | .fault _ => Empty
    | _ => Unit

/-- Everything a client calls. -/
def ClientSig : Sig := StoreSig.sum RequestSig

/-- The store's calls as a client makes them. -/
def onStore {α : Type} (p : Prog StoreSig α) : Prog ClientSig α := p.inl

/-- Ask for a compaction and block until it is done. -/
def request (kind : CompactionKind) : Prog ClientSig Unit :=
  op (S := ClientSig) (.inr (.request kind))

/-- `CompactionManager::RequestMinorCompaction`. -/
def requestMinorCompaction : Prog ClientSig Unit := request .minor

/-- `CompactionManager::RequestMajorCompaction`. -/
def requestMajorCompaction : Prog ClientSig Unit := request .major

/-- Stop the compaction thread. -/
def disableCompaction : Prog ClientSig Unit := op (S := ClientSig) (.inr .disable)

/-- Abort. -/
def abort {α : Type} (f : Fault) : Prog ClientSig α :=
  .call (S := ClientSig) (.inr (.fault f)) Empty.elim

/-- A step that is no call, and may fail. -/
def orAbort {α : Type} : Except Fault α → Prog ClientSig α
  | .ok a => .ret a
  | .error f => abort f

/-- `AppendLogRecord(key, val)`. -/
def appendLogRecord (key : Key) (val : Val) : Prog StoreSig Unit :=
  op (S := StoreSig) (.appendLogRecord key val)

/-- `FlushWAL()`. -/
def flushWAL : Prog StoreSig Unit := op (S := StoreSig) .flushWAL

/-- `WriteLog(zero_data, PAGE_SIZE, true)`. -/
def clearLog : Prog StoreSig Unit := op (S := StoreSig) .clearLog

/-- `StopFlushThread()`. -/
def stopFlushThread : Prog StoreSig Unit := op (S := StoreSig) .stopFlushThread

/-! ## Dumping a memtable -/

namespace Level

/-- `Level::GetAvaiRun`: the first empty run of a level, `none` for `-1`. -/
def getAvaiRun (level : Nat) : Prog StoreSig (Option Nat) :=
  firstSome (fun idx => do
    if ← SSTableManager.isEmpty level idx then return some idx
    return none) (List.range (getMaxRun level))

end Level

namespace SSTableManager

/-- `SSTableManager::GetAvaiRun`: from the bottom level to the topmost. -/
def getAvaiRun : Prog StoreSig (Option (Nat × Nat)) :=
  firstSome (fun idx => do
    let availRun ← Level.getAvaiRun idx
    return availRun.map fun runNo => (idx, runNo)) (List.range maxLevelNum).reverse

/-- `SSTableManager::DumpSSTable(memtable)`: `false` when no run is available. -/
def dumpSSTable (memtable : BufferMap) : Prog StoreSig Bool := do
  match ← getAvaiRun with
  | some (level, run) =>
    op (S := StoreSig) (.dumpBuffer level run memtable)
    return true
  | none => return false

end SSTableManager

/-- `while (!DumpSSTable(memtable)) RequestMinorCompaction()`, at most `fuel`
times round. -/
def dumpLoop : Nat → BufferMap → Prog ClientSig Unit
  | 0, _ => abort .outOfFuel
  | fuel + 1, memtable => do
    if ← onStore (SSTableManager.dumpSSTable memtable) then return ()
    requestMinorCompaction
    dumpLoop fuel memtable

/-! ## Running a client alone -/

/-- The store, with a record of the memtables flushed so far.  The record is not
part of the program. -/
structure World where
  /-- The store. -/
  store : Store
  /-- The memtables handed to `levels_[level]->DumpSSTable`, oldest first. -/
  flushed : List BufferMap

/-- Is the call the dump of a flushed memtable? -/
def StoreOp.isFlush : StoreOp → Bool
  | .dumpBuffer _ _ _ => true
  | _ => false

/-- What a call adds to the record. -/
def flushedBy : StoreOp → List BufferMap
  | .dumpBuffer _ _ memtable => [memtable]
  | _ => []

namespace World

/-- The store's calls, recorded. -/
def handleStore : Handler StoreSig World Fault := fun o w =>
  (Store.handle o w.store).map fun x => (x.1, ⟨x.2, w.flushed ++ flushedBy o⟩)

/-- A request is answered by a whole compaction: the client is blocked until it
is done. -/
def handleRequest : Handler RequestSig World Fault
  | .request kind, w =>
    (run Store.handle (launch kind) w.store).map fun x => ((), { w with store := x.2 })
  | .disable, w => .ok ((), w)
  | .fault f, _ => .error f

/-- A client that is alone with the threads answering it. -/
def handle : Handler ClientSig World Fault := handleStore.sum handleRequest

theorem run_onStore {α : Type} (p : Prog StoreSig α) (w : World) :
    run handle (onStore p) w = run handleStore p w := run_inl ..

/-- A program that dumps no memtable leaves the record alone. -/
theorem run_onStore_of_pure {α : Type} {p : Prog StoreSig α} (hp : Pure StoreOp.isFlush p)
    (w : World) :
    run handle (onStore p) w =
      (run Store.handle p w.store).map fun x => (x.1, { w with store := x.2 }) := by
  rw [run_onStore]
  induction p generalizing w with
  | ret a => rfl
  | call o k ih =>
    have hflushed : flushedBy o = [] := by
      have hno := hp.1
      cases o <;> first | rfl | cases hno
    rw [run_call, run_call, handleStore, hflushed, List.append_nil]
    cases Store.handle o w.store with
    | error e => rfl
    | ok x => exact ih x.1 (hp.2 x.1) _

theorem run_request (kind : CompactionKind) (w : World) :
    run handle (request kind) w =
      (run Store.handle (launch kind) w.store).map fun x => ((), { w with store := x.2 }) :=
  run_op ..

/-- What a finished call to the store did. -/
theorem handle_inl_eq_ok {o : StoreOp} {w w' : World} {r : StoreSig.Res o}
    (ok : handle (.inl o) w = .ok (r, w')) :
    ∃ s', Store.handle o w.store = .ok (r, s') ∧ w' = ⟨s', w.flushed ++ flushedBy o⟩ := by
  have hcall : (Store.handle o w.store).map
      (fun x => (x.1, (⟨x.2, w.flushed ++ flushedBy o⟩ : World))) = .ok (r, w') := ok
  cases hs : Store.handle o w.store with
  | error e =>
    rw [hs] at hcall
    cases hcall
  | ok x =>
    rw [hs] at hcall
    cases hcall
    exact ⟨x.2, rfl, rfl⟩

/-- What a finished request did. -/
theorem handle_request_eq_ok {kind : CompactionKind} {w w' : World} {u : Unit}
    (ok : handle (.inr (.request kind)) w = .ok (u, w')) :
    ∃ s', run Store.handle (launch kind) w.store = .ok ((), s') ∧ w' = ⟨s', w.flushed⟩ := by
  have hcall : (run Store.handle (launch kind) w.store).map
      (fun x => ((), ({ w with store := x.2 } : World))) = .ok (u, w') := ok
  cases hs : run Store.handle (launch kind) w.store with
  | error e =>
    rw [hs] at hcall
    cases hcall
  | ok x =>
    rw [hs] at hcall
    cases hcall
    exact ⟨x.2, rfl, rfl⟩

end World

/-! ## The first available run -/

/-- One step of the search in fill order. -/
def probe (p : Nat × Nat) : Prog StoreSig (Option (Nat × Nat)) := do
  if ← SSTableManager.isEmpty p.1 p.2 then return some p
  return none

/-- The search goes through the fill order. -/
theorem getAvaiRun_eq :
    SSTableManager.getAvaiRun =
      firstSome (fun i => probe (fillPos i)) (List.range' 0 totalNonOverflowPages) := by
  have horder : fillOrder = (List.range' 0 totalNonOverflowPages).map fillPos := by decide
  have hlevel : ∀ idx, (do
      let availRun ← Level.getAvaiRun idx
      return availRun.map fun runNo => (idx, runNo)) =
      firstSome probe ((List.range (getMaxRun idx)).map fun runNo => (idx, runNo)) := by
    intro idx
    rw [firstSome_map]
    refine (firstSome_bind_map _ _ _).trans ?_
    congr 1
    funext runNo
    simp only [probe, bind_assoc]
    apply congrArg
    funext empty
    cases empty <;> rfl
  rw [SSTableManager.getAvaiRun]
  simp only [hlevel]
  rw [firstSome_flatMap]
  exact (congrArg (firstSome probe) horder).trans (firstSome_map ..)

/-- The search only asks which runs are empty. -/
theorem pure_getAvaiRun {w : StoreOp → Bool} (hw : ∀ level run, w (.isEmpty level run) = false) :
    Pure w SSTableManager.getAvaiRun := by
  rw [getAvaiRun_eq]
  apply Pure.firstSome
  intro i
  refine ⟨hw _ _, ?_⟩
  intro empty
  cases empty <;> trivial

/-- The search over a prefix of used runs finds the run behind it. -/
theorem run_probe {cs : List RunContent} {s : Store} (hrep : Rep s (Slots.ofList cs)) (n : Nat) :
    ∀ b, b ≤ cs.length → b + n = totalNonOverflowPages →
    run Store.handle (firstSome (fun i => probe (fillPos i)) (List.range' b n)) s =
      .ok (if cs.length < totalNonOverflowPages then some (fillPos cs.length) else none, s) := by
  induction n with
  | zero =>
    intro b hb hn
    rw [if_neg (by omega)]
    rfl
  | succ n ih =>
    intro b hb hn
    rw [List.range'_succ, firstSome]
    rcases hb.lt_or_eq with hlt | heq
    · have hstep : run Store.handle (probe (fillPos b)) s = .ok (none, s) := by
        rw [probe, run_bind_of_ok (isEmpty_spec hrep (by omega)), Slots.ofList_of_lt hlt]
        rfl
      rw [run_bind_of_ok hstep]
      exact ih (b + 1) hlt (by omega)
    · have hstep : run Store.handle (probe (fillPos b)) s = .ok (some (fillPos b), s) := by
        rw [probe, run_bind_of_ok (isEmpty_spec hrep (by omega)), Slots.ofList_of_le heq.ge]
        rfl
      rw [run_bind_of_ok hstep, if_pos (by omega), heq]
      rfl

/-- **The available run** is the first behind the used ones. -/
theorem run_getAvaiRun {cs : List RunContent} {s : Store} (hrep : Rep s (Slots.ofList cs)) :
    run Store.handle SSTableManager.getAvaiRun s =
      .ok (if cs.length < totalNonOverflowPages then some (fillPos cs.length) else none, s) := by
  rw [getAvaiRun_eq]
  exact run_probe hrep _ 0 (Nat.zero_le _) (Nat.zero_add _)

/-! ## The bound on the loop -/

/-- A loop that ends within its bound ends within a larger one. -/
theorem run_dumpLoop_succ {memtable : BufferMap} {x : Unit × World} (fuel : Nat) :
    ∀ {w : World}, run World.handle (dumpLoop fuel memtable) w = .ok x →
      run World.handle (dumpLoop (fuel + 1) memtable) w = .ok x := by
  induction fuel with
  | zero =>
    intro w hrun
    cases hrun
  | succ fuel ih =>
    intro w hrun
    obtain ⟨dumped, w₁, hdump, hrest⟩ := run_bind_eq_ok hrun
    refine Eq.trans (run_bind_of_ok hdump) ?_
    cases dumped with
    | true => exact hrest
    | false =>
      obtain ⟨u, w₂, hrequest, hloop⟩ := run_bind_eq_ok hrest
      exact Eq.trans (run_bind_of_ok hrequest) (ih hloop)

end GhostDB
