import GhostDB.StoreRep
import GhostDB.Merge

/-!
# Compaction

`LaunchCompactionImpl` of `compaction_manager.cc` as a program over the calls of
a store, and what it does to a store whose used runs form a prefix of the fill
order.

* `launchCompactionImpl_small` — nothing to merge, nothing written.
* `launchCompactionImpl_overflow` — the merged table does not fit its page.
* `launchCompactionImpl_spec` — the runs from the start level on are replaced by
  their merge, in the first of them.
* `launchCompactionImpl_cut` — what a crash in front of each of its disk writes
  leaves.
-/

namespace GhostDB

open Prog

/-! ## The program -/

/-- The double loop of `LaunchCompactionImpl`: levels from the start level up to
level 0, runs from left to right, left as soon as the body says so. -/
def forRuns {β : Type} (startLevelNo : Nat) (body : Nat → Nat → β → Prog StoreSig (Bool × β))
    (b : β) : Prog StoreSig (Bool × β) :=
  forUntil
    (fun levelNo b =>
      forUntil (fun runNo b => body levelNo runNo b)
        (List.range ((levelNo + 1) * maxRunPerLevel)) b)
    (List.range (startLevelNo + 1)).reverse b

/-- The body of the first loop: merge a used run into what was loaded so far. -/
def loadStep (levelNo runNo : Nat) (memtable : SSTable) : Prog StoreSig (Bool × SSTable) := do
  if ← SSTableManager.isEmpty levelNo runNo then return (false, memtable)
  let loaded ← SSTableManager.loadSSTable levelNo runNo
  -- `sstable_kv` stays empty when nothing is loaded
  let sstableKv := (loaded.map Prod.snd).getD []
  return (true, mergeSSTable sstableKv memtable)

/-- The body of the second loop: clear a used run. -/
def clearStep (levelNo runNo : Nat) (_ : Unit) : Prog StoreSig (Bool × Unit) := do
  if ← SSTableManager.isEmpty levelNo runNo then return (false, ())
  SSTableManager.clearSSTable levelNo runNo
  return (true, ())

/-- `LaunchCompactionImpl`. -/
def launchCompactionImpl (startLevelNo : Nat) : Prog StoreSig Unit := do
  -- 1. load SSTable pages and compact them in the memory
  let (_, memtable) ← forRuns startLevelNo loadStep []
  if memtable.length ≤ 1 then return ()
  -- 2. dump the compacted pages into the temporary SSTable file
  SSTableManager.dumpTempSSTable memtable
  -- 3. remove the related pages
  let _ ← forRuns startLevelNo clearStep ()
  -- 4. copy the compacted pages into the designated page
  SSTableManager.dumpTable startLevelNo 0 memtable
  -- 5. remove the temporary SSTable file
  SSTableManager.clearTempSSTable

/-- `LaunchMinorCompaction`. -/
def launchMinorCompaction : Prog StoreSig Unit :=
  launchCompactionImpl (minorCompactionLevelNum - 1)

/-- `LaunchMajorCompaction`. -/
def launchMajorCompaction : Prog StoreSig Unit := launchCompactionImpl (maxLevelNum - 1)

/-! ## The double loop in fill order -/

/-- The position of the first run of a level. -/
def basePos (startLevelNo : Nat) : Nat :=
  totalNonOverflowPages - (startLevelNo + 1) * (startLevelNo + 2) / 2

theorem basePos_le (startLevelNo : Nat) : basePos startLevelNo ≤ totalNonOverflowPages :=
  Nat.sub_le _ _

theorem fillPos_basePos {startLevelNo : Nat} (h : startLevelNo < maxLevelNum) :
    fillPos (basePos startLevelNo) = (startLevelNo, 0) := by
  have hall : ∀ l < 5, fillPos (basePos l) = (l, 0) := by decide
  exact hall startLevelNo h

theorem basePos_lt {startLevelNo : Nat} (h : startLevelNo < maxLevelNum) :
    basePos startLevelNo < totalNonOverflowPages := by
  have hall : ∀ l < 5, basePos l < 15 := by decide
  exact hall startLevelNo h

/-- The runs the double loop goes through are the rest of the fill order. -/
theorem forRuns_eq {β : Type} {startLevelNo : Nat} (h : startLevelNo < maxLevelNum)
    (body : Nat → Nat → β → Prog StoreSig (Bool × β)) (b : β) :
    forRuns startLevelNo body b =
      forUntil (fun i b => body (fillPos i).1 (fillPos i).2 b)
        (List.range' (basePos startLevelNo) (totalNonOverflowPages - basePos startLevelNo)) b := by
  have horder : ∀ l < 5,
      ((List.range (l + 1)).reverse.flatMap fun levelNo =>
        (List.range ((levelNo + 1) * maxRunPerLevel)).map fun runNo => (levelNo, runNo)) =
      (List.range' (basePos l) (15 - basePos l)).map fillPos := by decide
  have hmap := forUntil_map fillPos (fun p b => body p.1 p.2 b)
    (List.range' (basePos startLevelNo) (totalNonOverflowPages - basePos startLevelNo)) b
  rw [← hmap, totalNonOverflowPages_eq, ← horder startLevelNo h, ← forUntil_flatMap, forRuns]
  congr 1
  funext levelNo b
  rw [forUntil_map]

/-! ## Views that are a prefix of the fill order -/

namespace Slots

/-- The first runs hold `cs`, the rest is empty. -/
def ofList (cs : List RunContent) : Slots := fun i => cs[i]?

/-- The same with the runs from `a` to `b` cleared. -/
def cleared (cs : List RunContent) (a b : Nat) : Slots :=
  fun i => if a ≤ i ∧ i < b then none else cs[i]?

theorem cleared_self (cs : List RunContent) (a : Nat) : cleared cs a a = ofList cs := by
  funext i
  rw [cleared, if_neg (by omega), ofList]

/-- Clearing one more run. -/
theorem update_cleared (cs : List RunContent) {a b : Nat} (h : a ≤ b) :
    Function.update (cleared cs a b) b none = cleared cs a (b + 1) := by
  funext i
  by_cases hi : i = b
  · subst hi
    rw [Function.update_self, cleared, if_pos ⟨h, Nat.lt_succ_self _⟩]
  · have hiff : (a ≤ i ∧ i < b) ↔ (a ≤ i ∧ i < b + 1) := by omega
    rw [Function.update_of_ne hi, cleared, cleared, if_congr hiff rfl rfl]

/-- Clearing past the last used run leaves the front. -/
theorem cleared_of_length_le {cs : List RunContent} (a : Nat) {b : Nat} (h : cs.length ≤ b) :
    cleared cs a b = ofList (cs.take a) := by
  funext i
  simp only [cleared, ofList]
  by_cases hi : i < a
  · rw [if_neg (by omega), List.getElem?_take_of_lt hi]
  · rw [List.getElem?_take_eq_none (by omega)]
    by_cases hb : i < b
    · rw [if_pos ⟨by omega, hb⟩]
    · rw [if_neg (by omega), List.getElem?_eq_none (by omega)]

/-- Filling the next run. -/
theorem update_ofList (cs : List RunContent) (c : RunContent) :
    Function.update (ofList cs) cs.length (some c) = ofList (cs ++ [c]) := by
  funext i
  have hl : ofList cs i = cs[i]? := rfl
  have hr : ofList (cs ++ [c]) i = (cs ++ [c])[i]? := rfl
  rw [hr]
  rcases lt_trichotomy i cs.length with hi | hi | hi
  · rw [Function.update_of_ne hi.ne, hl, List.getElem?_append_left hi]
  · rw [hi, Function.update_self, List.getElem?_concat_length]
  · rw [Function.update_of_ne hi.ne', hl, List.getElem?_eq_none hi.le,
      List.getElem?_eq_none (by rw [List.length_append, List.length_singleton]; omega)]

theorem ofList_of_lt {cs : List RunContent} {i : Nat} (h : i < cs.length) :
    ofList cs i = some cs[i] := List.getElem?_eq_getElem h

theorem ofList_of_le {cs : List RunContent} {i : Nat} (h : cs.length ≤ i) :
    ofList cs i = none := List.getElem?_eq_none h

end Slots

open Slots

/-! ## The two loops -/

/-- **The loading loop** merges the used runs, oldest first, and moves nothing
but the position. -/
theorem run_loadStep {cs : List RunContent} (hlen : cs.length ≤ totalNonOverflowPages) (n : Nat) :
    ∀ (s : Store) (b : Nat) (acc : SSTable), Rep s (ofList cs) → b + n = totalNonOverflowPages →
    ∃ go p, run Store.handle
        (forUntil (fun i => loadStep (fillPos i).1 (fillPos i).2) (List.range' b n) acc) s =
      .ok ((go, ((cs.drop b).map RunContent.pairs).foldl (fun acc t => mergeSSTable t acc) acc),
        s.withPos p) := by
  induction n with
  | zero =>
    intro s b acc hrep hb
    refine ⟨true, s.disk.dbIo.pos, ?_⟩
    rw [List.drop_eq_nil_of_le (by omega)]
    rfl
  | succ n ih =>
    intro s b acc hrep hb
    have hbound : b < totalNonOverflowPages := by omega
    rw [List.range'_succ, forUntil]
    by_cases hlt : b < cs.length
    · have hslot := ofList_of_lt hlt
      obtain ⟨p, hload⟩ := load_spec hrep hbound hslot
      obtain ⟨go, q, hrest⟩ := ih (s.withPos p) (b + 1) (mergeSSTable cs[b].pairs acc)
        (hrep.withPos p) (by omega)
      have hstep : run Store.handle (loadStep (fillPos b).1 (fillPos b).2 acc) s =
          .ok ((true, mergeSSTable cs[b].pairs acc), s.withPos p) := by
        rw [loadStep, run_bind_of_ok (isEmpty_spec hrep hbound), hslot]
        exact run_bind_of_ok hload
      refine ⟨go, q, ?_⟩
      rw [run_bind_of_ok hstep, List.drop_eq_getElem_cons hlt, List.map_cons, List.foldl_cons]
      exact hrest
    · have hslot := ofList_of_le (not_lt.1 hlt)
      have hstep : run Store.handle (loadStep (fillPos b).1 (fillPos b).2 acc) s =
          .ok ((false, acc), s) := by
        rw [loadStep, run_bind_of_ok (isEmpty_spec hrep hbound), hslot]
        rfl
      refine ⟨false, s.disk.dbIo.pos, ?_⟩
      rw [run_bind_of_ok hstep, List.drop_eq_nil_of_le (not_lt.1 hlt)]
      rfl

/-- The loading loop makes no write. -/
theorem pure_loadStep (is : List Nat) (acc : SSTable) :
    Pure StoreOp.isWrite (forUntil (fun i => loadStep (fillPos i).1 (fillPos i).2) is acc) := by
  apply Pure.forUntil
  intro i memtable
  refine Pure.bind ⟨rfl, ?_⟩ ?_
  · intro empty
    trivial
  · intro empty
    cases empty with
    | true => trivial
    | false => exact ⟨rfl, fun _ => trivial⟩

/-- The loading loop of a compaction, with the table it computes. -/
theorem run_forRuns_loadStep {s : Store} {cs : List RunContent} (hrep : Rep s (ofList cs))
    (hlen : cs.length ≤ totalNonOverflowPages) {startLevelNo : Nat}
    (hstart : startLevelNo < maxLevelNum) :
    ∃ go p, run Store.handle (forRuns startLevelNo loadStep []) s =
      .ok ((go, foldMerge ((cs.drop (basePos startLevelNo)).map RunContent.pairs)),
        s.withPos p) := by
  rw [forRuns_eq hstart]
  exact run_loadStep hlen _ s _ [] hrep (Nat.add_sub_cancel' (basePos_le startLevelNo))

/-- One step of the clearing loop on a used run: it is the next crash point, and
past it the run is empty. -/
theorem cut_clearStep_used {s : Store} {cs : List RunContent} {a b : Nat} (hab : a ≤ b)
    (hb : b < totalNonOverflowPages) (hlt : b < cs.length) (hrep : Rep s (cleared cs a b)) :
    cut StoreOp.isWrite Store.handle (clearStep (fillPos b).1 (fillPos b).2 ()) 0 s =
      .ok (.stopped s) ∧
    ∃ s', (∀ w, cut StoreOp.isWrite Store.handle (clearStep (fillPos b).1 (fillPos b).2 ())
        (w + 1) s = .ok (.done (true, ()) w s')) ∧
      Rep s' (cleared cs a (b + 1)) ∧ StoreFrame s s' ∧ s'.disk.tempIo = s.disk.tempIo := by
  have hslot : cleared cs a b b = some cs[b] := by
    rw [cleared, if_neg (by omega), List.getElem?_eq_getElem hlt]
  have hempty := cut_isEmpty hrep hb
  rw [hslot] at hempty
  obtain ⟨s', hclear, hrep', hframe, htemp⟩ := clear_spec hrep hb (by rw [hslot]; simp)
  rw [update_cleared cs hab] at hrep'
  refine ⟨?_, s', ?_, hrep', hframe, htemp⟩
  · rw [clearStep, cut_bind_of_done (hempty 0)]
    exact cut_bind_of_stopped (cut_op_zero rfl s)
  · intro w
    rw [clearStep, cut_bind_of_done (hempty (w + 1))]
    exact cut_bind_of_done (cut_op_succ rfl hclear)

/-- On an empty run the clearing loop ends. -/
theorem cut_clearStep_empty {s : Store} {cs : List RunContent} {a b : Nat}
    (hb : b < totalNonOverflowPages) (hge : cs.length ≤ b) (hrep : Rep s (cleared cs a b))
    (w : Nat) :
    cut StoreOp.isWrite Store.handle (clearStep (fillPos b).1 (fillPos b).2 ()) w s =
      .ok (.done (false, ()) w s) := by
  have hslot : cleared cs a b b = none := by
    rw [cleared, if_neg (by omega), List.getElem?_eq_none hge]
  have hempty := cut_isEmpty hrep hb w
  rw [hslot] at hempty
  rw [clearStep, cut_bind_of_done hempty]
  rfl

/-- **The clearing loop** with `w` writes to go: it stops after clearing `w` of
the used runs, or it clears them all. -/
theorem cut_clearLoop {cs : List RunContent} (hlen : cs.length ≤ totalNonOverflowPages) {a : Nat}
    (n : Nat) :
    ∀ (s : Store) (b w : Nat), a ≤ b → b + n = totalNonOverflowPages → Rep s (cleared cs a b) →
    ∃ s', StoreFrame s s' ∧ s'.disk.tempIo = s.disk.tempIo ∧
      ((w < cs.length - b ∧ cut StoreOp.isWrite Store.handle
          (forUntil (fun i => clearStep (fillPos i).1 (fillPos i).2) (List.range' b n) ()) w s =
            .ok (.stopped s') ∧ Rep s' (cleared cs a (b + w))) ∨
        (cs.length - b ≤ w ∧ ∃ go, cut StoreOp.isWrite Store.handle
          (forUntil (fun i => clearStep (fillPos i).1 (fillPos i).2) (List.range' b n) ()) w s =
            .ok (.done (go, ()) (w - (cs.length - b)) s') ∧ Rep s' (ofList (cs.take a)))) := by
  induction n with
  | zero =>
    intro s b w hab hbn hrep
    refine ⟨s, StoreFrame.refl s, rfl, .inr ⟨by omega, true, ?_, ?_⟩⟩
    · rw [Nat.sub_eq_zero_of_le (by omega : cs.length ≤ b)]
      rfl
    · rwa [cleared_of_length_le a (by omega)] at hrep
  | succ n ih =>
    intro s b w hab hbn hrep
    have hb : b < totalNonOverflowPages := by omega
    rw [List.range'_succ, forUntil]
    by_cases hlt : b < cs.length
    · obtain ⟨hzero, s₁, hsucc, hrep₁, hframe₁, htemp₁⟩ := cut_clearStep_used hab hb hlt hrep
      cases w with
      | zero =>
        exact ⟨s, StoreFrame.refl s, rfl,
          .inl ⟨by omega, cut_bind_of_stopped hzero, by rwa [Nat.add_zero]⟩⟩
      | succ w =>
        rw [cut_bind_of_done (hsucc w)]
        obtain ⟨s', hframe, htemp, hcase⟩ := ih s₁ (b + 1) w (by omega) (by omega) hrep₁
        refine ⟨s', hframe₁.trans hframe, htemp.trans htemp₁, ?_⟩
        rcases hcase with ⟨hw, hcut, hrep'⟩ | ⟨hw, go, hcut, hrep'⟩
        · refine .inl ⟨by omega, hcut, ?_⟩
          rwa [Nat.add_right_comm] at hrep'
        · refine .inr ⟨by omega, go, ?_, hrep'⟩
          have hleft : w + 1 - (cs.length - b) = w - (cs.length - (b + 1)) := by omega
          rw [hleft]
          exact hcut
    · have hge := not_lt.1 hlt
      refine ⟨s, StoreFrame.refl s, rfl, .inr ⟨by omega, false, ?_, ?_⟩⟩
      · rw [cut_bind_of_done (cut_clearStep_empty hb hge hrep w),
          Nat.sub_eq_zero_of_le hge]
        rfl
      · rwa [cleared_of_length_le a hge] at hrep

/-! ## A whole compaction -/

section Launch

variable {s : Store} {cs : List RunContent} {startLevelNo : Nat}

/-- The table a compaction computes: the merge of the used runs from the start
level on. -/
def compacted (cs : List RunContent) (startLevelNo : Nat) : SSTable :=
  foldMerge ((cs.drop (basePos startLevelNo)).map RunContent.pairs)

/-- What a compaction leaves: the runs before the start level, and one run with
the merge of the others. -/
def afterCompaction (cs : List RunContent) (startLevelNo : Nat) : List RunContent :=
  cs.take (basePos startLevelNo) ++
    [RunContent.ofTable (basePos startLevelNo) (compacted cs startLevelNo)]

/-- A compaction with something to merge has a used run to merge. -/
theorem basePos_lt_length (hsize : 1 < (compacted cs startLevelNo).length) :
    basePos startLevelNo < cs.length := by
  by_contra hge
  rw [compacted, List.drop_eq_nil_of_le (not_lt.1 hge)] at hsize
  exact absurd hsize (by simp [foldMerge])

theorem length_afterCompaction_le (hbase : basePos startLevelNo < cs.length) :
    (afterCompaction cs startLevelNo).length ≤ cs.length := by
  rw [afterCompaction, List.length_append, List.length_take, List.length_singleton]
  omega

/-- With at most one pair to merge nothing is written. -/
theorem launchCompactionImpl_small (hrep : Rep s (ofList cs))
    (hlen : cs.length ≤ totalNonOverflowPages) (hstart : startLevelNo < maxLevelNum)
    (hsize : (compacted cs startLevelNo).length ≤ 1) :
    ∃ p, run Store.handle (launchCompactionImpl startLevelNo) s = .ok ((), s.withPos p) := by
  obtain ⟨go, p, hload⟩ := run_forRuns_loadStep hrep hlen hstart
  refine ⟨p, ?_⟩
  rw [launchCompactionImpl, run_bind_of_ok hload]
  simp only
  rw [compacted] at hsize
  rw [if_pos hsize]
  rfl

/-- **A merge that does not fit its page** overflows the page buffer. -/
theorem launchCompactionImpl_overflow (hrep : Rep s (ofList cs))
    (hlen : cs.length ≤ totalNonOverflowPages) (hstart : startLevelNo < maxLevelNum)
    (hfits : ¬ FitsPage (compacted cs startLevelNo)) :
    run Store.handle (launchCompactionImpl startLevelNo) s = .error .pageOverflow := by
  obtain ⟨go, p, hload⟩ := run_forRuns_loadStep hrep hlen hstart
  have hsize : ¬ (compacted cs startLevelNo).length ≤ 1 := by
    rw [fitsPage_iff] at hfits
    omega
  rw [launchCompactionImpl, run_bind_of_ok hload]
  simp only
  rw [compacted] at hsize hfits
  rw [if_neg hsize]
  refine run_bind_of_error ?_
  have hdump := run_dump_overflow (s.withPos p) (maxLevelNum - 1) 0 hfits true
  refine (run_op ..).trans ?_
  rw [Store.handle, Level.dumpSSTable, hdump]
  rfl

/-- The first write of a compaction is the temporary table. -/
theorem cut_launch_temp (hrep : Rep s (ofList cs)) (hlen : cs.length ≤ totalNonOverflowPages)
    (hstart : startLevelNo < maxLevelNum) (hsize : 1 < (compacted cs startLevelNo).length)
    (hfits : FitsPage (compacted cs startLevelNo)) :
    ∃ s', Rep s' (ofList cs) ∧ StoreFrame s s' ∧
      pageAt s'.disk.tempIo 0 = pageImage (maxLevelNum - 1) 0 (compacted cs startLevelNo) ∧
      ∀ w, cut StoreOp.isWrite Store.handle (launchCompactionImpl startLevelNo) (w + 1) s =
        cut StoreOp.isWrite Store.handle (do
          let _ ← forRuns startLevelNo clearStep ()
          SSTableManager.dumpTable startLevelNo 0 (compacted cs startLevelNo)
          SSTableManager.clearTempSSTable) w s' := by
  obtain ⟨go, p, hload⟩ := run_forRuns_loadStep hrep hlen hstart
  have hfirst : ofList cs 0 ≠ none := by
    have hpos := basePos_lt_length hsize
    rw [ofList_of_lt (by omega)]
    simp
  obtain ⟨s', hdump, hrep', hframe, htemp⟩ := dumpTemp_spec (hrep.withPos p) hfirst hfits
  refine ⟨s', hrep', (StoreFrame.withPos s p).trans hframe, htemp, ?_⟩
  intro w
  have hpure : Pure StoreOp.isWrite (forRuns startLevelNo loadStep []) := by
    rw [forRuns_eq hstart]
    exact pure_loadStep _ _
  rw [launchCompactionImpl, cut_bind_of_done (cut_of_pure hpure hload)]
  simp only
  rw [if_neg (by rw [compacted] at hsize; omega)]
  exact cut_bind_of_done (cut_op_succ rfl hdump)

/-- The last two writes of a compaction. -/
theorem cut_launch_final (hrep : Rep s (ofList (cs.take (basePos startLevelNo))))
    (hstart : startLevelNo < maxLevelNum) (hbase : basePos startLevelNo < cs.length)
    (hfits : FitsPage (compacted cs startLevelNo)) :
    ∃ s₁ s₂, Rep s₁ (ofList (afterCompaction cs startLevelNo)) ∧ StoreFrame s s₁ ∧
      s₁.disk.tempIo = s.disk.tempIo ∧
      Rep s₂ (ofList (afterCompaction cs startLevelNo)) ∧ StoreFrame s s₂ ∧
      pageAt s₂.disk.tempIo 0 = zeroData ∧
      ∀ w, cut StoreOp.isWrite Store.handle (do
          SSTableManager.dumpTable startLevelNo 0 (compacted cs startLevelNo)
          SSTableManager.clearTempSSTable) w s =
        match w with
        | 0 => .ok (.stopped s)
        | 1 => .ok (.stopped s₁)
        | w + 2 => .ok (.done () w s₂) := by
  obtain ⟨s₁, hdump, hrep₁, hframe₁, htemp₁⟩ := dump_spec hrep (basePos_lt hstart) hfits
  rw [fillPos_basePos hstart] at hdump
  have hbaselen : (cs.take (basePos startLevelNo)).length = basePos startLevelNo := by
    rw [List.length_take]
    omega
  have hupdate := update_ofList (cs.take (basePos startLevelNo))
    (RunContent.ofTable (basePos startLevelNo) (compacted cs startLevelNo))
  rw [hbaselen] at hupdate
  rw [hupdate] at hrep₁
  obtain ⟨s₂, hclear, hrep₂, hframe₂, htemp₂⟩ := clearTemp_spec hrep₁
  refine ⟨s₁, s₂, hrep₁, hframe₁, htemp₁, hrep₂, hframe₁.trans hframe₂, htemp₂, ?_⟩
  intro w
  match w with
  | 0 => exact cut_bind_of_stopped (cut_op_zero rfl s)
  | 1 => exact (cut_bind_of_done (cut_op_succ rfl hdump)).trans (cut_op_zero rfl s₁)
  | w + 2 => exact (cut_bind_of_done (cut_op_succ rfl hdump)).trans (cut_op_succ rfl hclear)

/-- The view at a crash point of a compaction, `n` of its writes being made. -/
def crashView (cs : List RunContent) (startLevelNo n : Nat) : Slots :=
  if n ≤ cs.length - basePos startLevelNo + 1 then
    cleared cs (basePos startLevelNo) (basePos startLevelNo + (n - 1))
  else ofList (afterCompaction cs startLevelNo)

/-- **A compaction cut off between two of its writes**: after the temporary
table come the clears in fill order, then the merged run. -/
theorem launchCompactionImpl_cut (hrep : Rep s (ofList cs))
    (hlen : cs.length ≤ totalNonOverflowPages) (hstart : startLevelNo < maxLevelNum)
    (hsize : 1 < (compacted cs startLevelNo).length)
    (hfits : FitsPage (compacted cs startLevelNo)) {n : Nat} (hpos : 1 ≤ n)
    (hn : n ≤ cs.length - basePos startLevelNo + 2) :
    ∃ s', cut StoreOp.isWrite Store.handle (launchCompactionImpl startLevelNo) n s =
        .ok (.stopped s') ∧
      Rep s' (crashView cs startLevelNo n) ∧ StoreFrame s s' ∧
      pageAt s'.disk.tempIo 0 = pageImage (maxLevelNum - 1) 0 (compacted cs startLevelNo) := by
  obtain ⟨s₀, hrep₀, hframe₀, htemp₀, hcut₀⟩ := cut_launch_temp hrep hlen hstart hsize hfits
  obtain ⟨w, rfl⟩ : ∃ w, n = w + 1 := ⟨n - 1, by omega⟩
  rw [← cleared_self cs (basePos startLevelNo)] at hrep₀
  obtain ⟨s₁, hframe₁, htemp₁, hcase⟩ := cut_clearLoop hlen _ s₀ _ w le_rfl
    (Nat.add_sub_cancel' (basePos_le startLevelNo)) hrep₀
  rw [← forRuns_eq hstart clearStep] at hcase
  rw [hcut₀ w]
  rcases hcase with ⟨hw, hcut, hrep₁⟩ | ⟨hw, go, hcut, hrep₁⟩
  · refine ⟨s₁, cut_bind_of_stopped hcut, ?_, hframe₀.trans hframe₁, by rw [htemp₁, htemp₀]⟩
    rw [crashView, if_pos (by omega)]
    exact hrep₁
  · obtain ⟨s₂, _, hrep₂, hframe₂, htemp₂, -, -, -, hfinal⟩ :=
      cut_launch_final hrep₁ hstart (basePos_lt_length hsize) hfits
    rw [cut_bind_of_done hcut, hfinal]
    rcases Nat.lt_or_ge w (cs.length - basePos startLevelNo + 1) with hlt | hge
    · have hzero : w - (cs.length - basePos startLevelNo) = 0 := by omega
      refine ⟨s₁, by rw [hzero], ?_, hframe₀.trans hframe₁, by rw [htemp₁, htemp₀]⟩
      rw [crashView, if_pos (by omega), cleared_of_length_le _ (by omega)]
      exact hrep₁
    · have hone : w - (cs.length - basePos startLevelNo) = 1 := by omega
      refine ⟨s₂, by rw [hone], ?_, (hframe₀.trans hframe₁).trans hframe₂,
        by rw [htemp₂, htemp₁, htemp₀]⟩
      rw [crashView, if_neg (by omega)]
      exact hrep₂

/-- **A compaction run to its end** leaves the runs before the start level as
they are and one run with the merge of the others, and a cleared temporary
page. -/
theorem launchCompactionImpl_spec (hrep : Rep s (ofList cs))
    (hlen : cs.length ≤ totalNonOverflowPages) (hstart : startLevelNo < maxLevelNum)
    (hsize : 1 < (compacted cs startLevelNo).length)
    (hfits : FitsPage (compacted cs startLevelNo)) :
    ∃ s', run Store.handle (launchCompactionImpl startLevelNo) s = .ok ((), s') ∧
      Rep s' (ofList (afterCompaction cs startLevelNo)) ∧ StoreFrame s s' ∧
      pageAt s'.disk.tempIo 0 = zeroData := by
  obtain ⟨s₀, hrep₀, hframe₀, -, hcut₀⟩ := cut_launch_temp hrep hlen hstart hsize hfits
  rw [← cleared_self cs (basePos startLevelNo)] at hrep₀
  obtain ⟨s₁, hframe₁, htemp₁, hcase⟩ := cut_clearLoop hlen _ s₀ _
    (cs.length - basePos startLevelNo + 2) le_rfl
    (Nat.add_sub_cancel' (basePos_le startLevelNo)) hrep₀
  rw [← forRuns_eq hstart clearStep] at hcase
  rcases hcase with ⟨hw, -⟩ | ⟨hw, go, hcut, hrep₁⟩
  · omega
  · obtain ⟨_, s₂, -, -, -, hrep₂, hframe₂, htemp₂, hfinal⟩ :=
      cut_launch_final hrep₁ hstart (basePos_lt_length hsize) hfits
    refine ⟨s₂, ?_, hrep₂, (hframe₀.trans hframe₁).trans hframe₂, htemp₂⟩
    have htwo : cs.length - basePos startLevelNo + 2 - (cs.length - basePos startLevelNo) = 2 := by
      omega
    refine run_of_cut_done (w := StoreOp.isWrite)
      (n := cs.length - basePos startLevelNo + 2 + 1) (m := 0) ?_
    rw [hcut₀, cut_bind_of_done hcut, hfinal, htwo]

end Launch

end GhostDB
