import GhostDB.Util
import GhostDB.Library.Blocks
import GhostDB.Library.MachineInt

/-!
# Page numbers

Every run has a page of `sstable.db` of its own.  The levels are blocks of pages,
each larger than the one before by `MAX_RUN_PER_LEVEL`; what is said here holds
for every configuration, the compiled one being an instance.

* `Config.ValidRun` — the runs of a configuration.
* `Config.getPageId_bijOn` — their pages are the pages reserved for runs.
* `Config.getLevelRunNo_getPageId` — and the search finds the run of a page.
* `Config.getPageId32` — the formula as the machine evaluates it, in `int`.
-/

namespace GhostDB

namespace Config

/-- The runs of the level structure. -/
def ValidRun (c : Config) (level run : Nat) : Prop :=
  level < c.maxLevelNum ∧ run < c.getMaxRun level

variable (c : Config)

/-! ## The levels are blocks -/

/-- The closed formula is half the sum of the level sizes, twice. -/
theorem start_getMaxRun_mul_two (level : Nat) :
    Blocks.start c.getMaxRun level * 2 = level * (level + 1) * c.maxRunPerLevel := by
  induction level with
  | zero => simp
  | succ level ih =>
    rw [Blocks.start_succ, Nat.add_mul, ih, getMaxRun]
    ring

/-- **A level starts behind the runs of the levels above it.** -/
theorem getPageId_eq (level run : Nat) :
    c.getPageId level run = Blocks.start c.getMaxRun level + run := by
  rw [getPageId, ← start_getMaxRun_mul_two, Nat.mul_div_cancel _ Nat.two_pos]

theorem totalNonOverflowPages_eq :
    c.totalNonOverflowPages = Blocks.start c.getMaxRun c.maxLevelNum := by
  rw [totalNonOverflowPages, Nat.add_comm 1, Nat.mul_comm (c.maxLevelNum + 1),
    ← start_getMaxRun_mul_two, Nat.mul_div_cancel _ Nat.two_pos]

/-- **The pages of the runs** are the pages below the number of pages, each of
them once. -/
theorem getPageId_bijOn :
    Set.BijOn (fun p : Nat × Nat => c.getPageId p.1 p.2) {p | c.ValidRun p.1 p.2}
      (Set.Iio c.totalNonOverflowPages) := by
  have hblocks := Blocks.bijOn c.getMaxRun c.maxLevelNum
  rw [← totalNonOverflowPages_eq] at hblocks
  refine hblocks.congr ?_
  intro p _
  exact (c.getPageId_eq p.1 p.2).symm

variable {c}

theorem getPageId_lt {level run : Nat} (h : c.ValidRun level run) :
    c.getPageId level run < c.totalNonOverflowPages :=
  c.getPageId_bijOn.mapsTo (x := (level, run)) h

/-- The pages of two runs differ. -/
theorem getPageId_inj {level run level' run' : Nat} (h : c.ValidRun level run)
    (h' : c.ValidRun level' run') (heq : c.getPageId level run = c.getPageId level' run') :
    (level, run) = (level', run') :=
  c.getPageId_bijOn.injOn h h' heq

/-! ## The search -/

/-- What the search finds is a run with that page. -/
theorem of_findLevelRun_eq_some {pageId : Int} {p : Nat × Nat}
    (h : c.findLevelRun pageId = some p) :
    c.ValidRun p.1 p.2 ∧ (c.getPageId p.1 p.2 : Int) = pageId := by
  obtain ⟨level, hlevel, hruns⟩ := List.exists_of_findSome?_eq_some h
  obtain ⟨run, hrun, hfound⟩ := List.exists_of_findSome?_eq_some hruns
  rw [List.mem_range] at hlevel hrun
  split at hfound
  next hpage =>
    cases hfound
    exact ⟨⟨hlevel, hrun⟩, hpage⟩
  next => cases hfound

/-- It finds nothing only when no run has that page. -/
theorem getPageId_ne_of_findLevelRun_eq_none {pageId : Int} (h : c.findLevelRun pageId = none)
    {level run : Nat} (hr : c.ValidRun level run) : (c.getPageId level run : Int) ≠ pageId := by
  have hruns := List.findSome?_eq_none_iff.1 h level (List.mem_range.2 hr.1)
  have hrun := List.findSome?_eq_none_iff.1 hruns run (List.mem_range.2 hr.2)
  intro hpage
  rw [if_pos hpage] at hrun
  cases hrun

/-- **The search inverts the numbering.** -/
theorem getLevelRunNo_getPageId {level run : Nat} (h : c.ValidRun level run) :
    c.getLevelRunNo (c.getPageId level run : Nat) = .ok (some (level, run)) := by
  rw [getLevelRunNo, if_pos (by exact_mod_cast getPageId_lt h)]
  cases hfind : c.findLevelRun (c.getPageId level run : Nat) with
  | none => exact absurd rfl (getPageId_ne_of_findLevelRun_eq_none hfind h)
  | some p =>
    obtain ⟨hp, hpage⟩ := of_findLevelRun_eq_some hfind
    rw [getPageId_inj h hp (by exact_mod_cast hpage.symm)]

/-! ## In `int` -/

/-- `GetMaxRun`, in `int`. -/
def getMaxRun32 (c : Config) (level : Int32) : Int32 :=
  (level + 1) * Int32.ofNat c.maxRunPerLevel

/-- `GetPageId`, in `int`. -/
def getPageId32 (c : Config) (level run : Int32) : Int32 :=
  level * (level + 1) * Int32.ofNat c.maxRunPerLevel / 2 + run

/-- `TOTAL_NON_OVERFLOW_PAGES`, in `int`. -/
def totalNonOverflowPages32 (c : Config) : Int32 :=
  (1 + Int32.ofNat c.maxLevelNum) * Int32.ofNat c.maxLevelNum * Int32.ofNat c.maxRunPerLevel / 2

/-- A configuration within range: at least one level and one run, and no product
leaves `int`, that of `TOTAL_NON_OVERFLOW_PAGES` being the largest. -/
structure FitsInt (c : Config) : Prop where
  /-- `MAX_LEVEL_NUM >= 1`. -/
  levels : 1 ≤ c.maxLevelNum
  /-- `MAX_RUN_PER_LEVEL >= 1`. -/
  runs : 1 ≤ c.maxRunPerLevel
  /-- The largest product. -/
  product : (1 + c.maxLevelNum) * c.maxLevelNum * c.maxRunPerLevel < 2 ^ 31

open MachineInt

namespace FitsInt

variable (h : c.FitsInt)

include h

/-- Products of no larger factors fit as well. -/
theorem le {a b : Nat} (ha : a ≤ 1 + c.maxLevelNum) (hb : b ≤ c.maxLevelNum) :
    a * b * c.maxRunPerLevel < 2 ^ 31 :=
  lt_of_le_of_lt (Nat.mul_le_mul_right _ (Nat.mul_le_mul ha hb)) h.product

/-- So do the factors. -/
theorem le_left {a b : Nat} (ha : a ≤ 1 + c.maxLevelNum) (hb : b ≤ c.maxLevelNum) :
    a * b < 2 ^ 31 :=
  lt_of_le_of_lt (Nat.le_mul_of_pos_right _ h.runs) (h.le ha hb)

theorem maxRunPerLevel : Holds (Int32.ofNat c.maxRunPerLevel) c.maxRunPerLevel := by
  have hlt := h.le (a := 1) (b := 1) (by omega) h.levels
  rw [Nat.mul_one, Nat.one_mul] at hlt
  exact .ofNat hlt

/-- A level number, and the next one. -/
theorem level {n : Nat} (hn : n ≤ c.maxLevelNum) : n + 1 < 2 ^ 31 := by
  have hlt := h.le_left (a := n + 1) (b := 1) (by omega) h.levels
  rwa [Nat.mul_one] at hlt

/-- **`GetMaxRun` does not overflow.** -/
theorem getMaxRun {level : Nat} (hlevel : level < c.maxLevelNum) :
    Holds (c.getMaxRun32 (Int32.ofNat level)) (c.getMaxRun level) := by
  have hnext := h.level hlevel.le
  have hprod := h.le (a := 1) (b := level + 1) (by omega) hlevel
  rw [Nat.one_mul] at hprod
  exact ((Holds.ofNat (by omega)).add .one hnext).mul h.maxRunPerLevel hprod

/-- **Nor does `GetPageId`.** -/
theorem getPageId {level run : Nat} (hr : c.ValidRun level run) :
    Holds (c.getPageId32 (Int32.ofNat level) (Int32.ofNat run)) (c.getPageId level run) := by
  obtain ⟨hlevel, hrun⟩ := hr
  have hnext := h.level hlevel.le
  have hruns := h.le (a := 1) (b := level + 1) (by omega) hlevel
  rw [Nat.one_mul] at hruns
  have hleft := h.le_left (a := level) (b := level + 1) (by omega) hlevel
  have hprod := h.le (a := level) (b := level + 1) (by omega) hlevel
  have htotal : c.totalNonOverflowPages < 2 ^ 31 := lt_of_le_of_lt (Nat.div_le_self _ _) h.product
  have hpage : c.getPageId level run < 2 ^ 31 := (getPageId_lt ⟨hlevel, hrun⟩).trans htotal
  have hlevel32 : Holds (Int32.ofNat level) level := .ofNat (by omega)
  have hrun32 : Holds (Int32.ofNat run) run := .ofNat (hrun.trans hruns)
  exact ((((hlevel32.mul (hlevel32.add .one hnext) hleft).mul h.maxRunPerLevel hprod).div
    .two).add hrun32 hpage)

/-- **Nor does the number of pages.** -/
theorem totalNonOverflowPages :
    Holds c.totalNonOverflowPages32 c.totalNonOverflowPages := by
  have hnext := h.level le_rfl
  have hlevels : Holds (Int32.ofNat c.maxLevelNum) c.maxLevelNum := .ofNat (by omega)
  have hleft := h.le_left le_rfl le_rfl
  exact ((((Holds.one.add hlevels (by omega)).mul hlevels hleft).mul h.maxRunPerLevel
    h.product).div .two)

end FitsInt

/-- **Page numbering is a bijection for every configuration.**  The runs and the
pages reserved for them correspond one to one; the search finds the one run of a
page; and what the program computes in `int` are these numbers. -/
theorem page_numbering_bijective {c : Config} (h : c.FitsInt) :
    Set.BijOn (fun p : Nat × Nat => c.getPageId p.1 p.2) {p | c.ValidRun p.1 p.2}
        (Set.Iio c.totalNonOverflowPages) ∧
      (∀ pageId < c.totalNonOverflowPages, ∃ level run, c.ValidRun level run ∧
        c.getPageId level run = pageId ∧ c.getLevelRunNo pageId = .ok (some (level, run)) ∧
        ∀ level' run', c.ValidRun level' run' → c.getPageId level' run' = pageId →
          (level', run') = (level, run)) ∧
      (∀ level < c.maxLevelNum,
        (c.getMaxRun32 (Int32.ofNat level)).toInt = c.getMaxRun level) ∧
      (∀ level run, c.ValidRun level run →
        (c.getPageId32 (Int32.ofNat level) (Int32.ofNat run)).toInt = c.getPageId level run) ∧
      c.totalNonOverflowPages32.toInt = c.totalNonOverflowPages := by
  refine ⟨c.getPageId_bijOn, ?_, fun _ => h.getMaxRun, fun _ _ => h.getPageId,
    h.totalNonOverflowPages⟩
  intro pageId hlt
  obtain ⟨⟨level, run⟩, hr, rfl⟩ := c.getPageId_bijOn.surjOn hlt
  exact ⟨level, run, hr, rfl, getLevelRunNo_getPageId hr,
    fun _ _ hr' heq => getPageId_inj hr' hr heq⟩

/-- The compiled configuration: 15 pages, the last of them for the fifth run of the
last level. -/
theorem page_numbering_compiled : config.FitsInt ∧
    ∃ level run, config.ValidRun level run ∧ config.getPageId level run = 14 ∧
      config.getLevelRunNo 14 = .ok (some (level, run)) := by
  have hfits : config.FitsInt := ⟨by decide, by decide, by decide⟩
  obtain ⟨level, run, hr, hpage, hfound, -⟩ :=
    (page_numbering_bijective hfits).2.1 14 (by decide)
  exact ⟨hfits, level, run, hr, hpage, hfound⟩

end Config

end GhostDB
