import GhostDB.Preservation

/-!
# The pages that parse

`ParsePageData` checks the magic number and the page id and trusts the rest.  A
page carries no checksum, so whatever has the right shape is a page.

* `PageFields` — the fields of a page, with what they must satisfy.
* `parsePageData_bytes`, `exists_fields` — the pages made of such fields are the
  pages that parse.
* `page_format` — one to one, bytes behind the records included.
* `parsePageData_error` — what happens on the others.
* `construct_iff_pages` — a database opens exactly over such pages.
-/

namespace GhostDB

open Bytes

/-! ## Integers and records in a buffer -/

section Buffer

variable {data : List UInt8} {offset : Nat}

/-- The bytes an `int32_t` was read from. -/
theorem int32Bytes_readInt32 (h : offset + 4 ≤ data.length) :
    int32Bytes (readInt32 data offset) = slice data offset 4 := by
  have hlen := length_slice h
  have hlt := ofLE_lt (slice data offset 4)
  have hback := toLE_ofLE (slice data offset 4)
  rw [hlen] at hlt hback
  rw [int32Bytes, readInt32, UInt32.toUInt32_toInt32, UInt32.toNat_ofNat_of_lt' hlt, hback]

/-- The bytes a `uint64_t` was read from. -/
theorem uint64Bytes_readUInt64 (h : offset + 8 ≤ data.length) :
    uint64Bytes (readUInt64 data offset) = slice data offset 8 := by
  have hlen := length_slice h
  have hlt := ofLE_lt (slice data offset 8)
  have hback := toLE_ofLE (slice data offset 8)
  rw [hlen] at hlt hback
  rw [uint64Bytes, readUInt64, UInt64.toNat_ofNat_of_lt' hlt, hback]

/-- The record loop ends with that many records, or runs past the page. -/
theorem readRecords_cases (hdata : data.length = pageSize) (n : Nat) :
    ∀ offset, (∃ t, SSTablePage.readRecords data offset n = .ok t ∧ t.length = n ∧
        (n ≠ 0 → offset + recordSize * n ≤ pageSize) ∧
        slice data offset (recordSize * n) = memtableToString t) ∨
      (SSTablePage.readRecords data offset n = .error .readPastEnd ∧
        pageSize < offset + recordSize * n) := by
  have hrecord : recordSize = 8 := rfl
  induction n with
  | zero => exact fun offset => .inl ⟨[], rfl, rfl, fun h => absurd rfl h, rfl⟩
  | succ n ih =>
    intro offset
    rw [SSTablePage.readRecords]
    by_cases hin : offset + recordSize ≤ pageSize
    · rw [if_pos hin]
      rcases ih (offset + recordSize) with ⟨t, hok, hlen, hroom, hbytes⟩ | ⟨herror, hover⟩
      · refine .inl ⟨(readInt32 data offset, readInt32 data (offset + 4)) :: t, ?_, ?_, ?_, ?_⟩
        · rw [hok]
          rfl
        · rw [List.length_cons, hlen]
        · intro _
          by_cases hn : n = 0
          · rw [hn]
            omega
          · have hend := hroom hn
            rw [Nat.mul_succ]
            omega
        · have hhead : slice data offset 4 ++ slice data (offset + 4) 4 =
              slice data offset recordSize := slice_append_slice ..
          rw [memtableToString_cons, recordBytes, int32Bytes_readInt32 (by omega),
            int32Bytes_readInt32 (by omega), hhead, ← hbytes, slice_append_slice, Nat.mul_succ,
            Nat.add_comm]
      · refine .inr ⟨?_, ?_⟩
        · rw [herror]
          rfl
        · rw [Nat.mul_succ]
          omega
    · rw [if_neg hin]
      refine .inr ⟨rfl, ?_⟩
      rw [Nat.mul_succ]
      omega

end Buffer

/-! ## The fields of a page -/

/-- The fields of a page, and the bytes behind its records. -/
@[ext] structure PageFields where
  /-- The page id. -/
  pageId : Int32
  /-- The bits of the bloom filter. -/
  filter : UInt64
  /-- The records. -/
  records : SSTable
  /-- What lies behind them. -/
  rest : List UInt8
  /-- The only check of the page id. -/
  pageId_nonneg : 0 ≤ pageId.toInt
  /-- The records end inside the page. -/
  fits : FitsPage records
  /-- The rest fills it up. -/
  length_rest : rest.length = pageSize - payloadOffset - recordSize * records.length

namespace PageFields

/-- The page. -/
def bytes (f : PageFields) : List UInt8 :=
  [pageHeaderMagic] ++ (int32Bytes (Int32.ofNat f.records.length) ++ (int32Bytes f.pageId ++
    (uint64Bytes f.filter ++ (memtableToString f.records ++ f.rest))))

/-- The level and run of a page id; an overflow page has none. -/
def levelRun (pageId : Int32) : Nat × Nat := (config.findLevelRun pageId.toInt).getD (0, 0)

/-- What `ParsePageData` makes of the page. -/
def page (f : PageFields) : SSTablePage where
  data := f.bytes
  pageId := f.pageId
  level := (levelRun f.pageId).1
  run := (levelRun f.pageId).2
  kvNum := Int32.ofNat f.records.length
  bloomFilter := Bloom.ofUInt64 f.filter
  memtable := f.records

theorem length_bytes (f : PageFields) : f.bytes.length = pageSize := by
  have hfits := f.fits
  have hrest := f.length_rest
  simp only [FitsPage, payloadOffset, pageSize, recordSize, bloomBits] at hfits hrest
  simp only [bytes, List.length_append, List.length_singleton, length_int32Bytes,
    length_uint64Bytes, length_memtableToString, hrest, pageSize, recordSize]
  omega

end PageFields

/-! ## The pages that parse -/

section Parse

variable {data : List UInt8}

/-- The one check of the page id refuses negative ones. -/
theorem checkPageId_eq {p : SSTablePage} (hlevel : p.level = 0) (hrun : p.run = 0)
    (pageId : Int32) :
    p.checkPageId pageId = if pageId.toInt < 0 then .error .assertFailed
      else .ok (PageFields.levelRun pageId) := by
  have hall : ∀ i < 15, config.findLevelRun (i : Nat) ≠ none := by decide
  have hfound : ∀ q, config.findLevelRun pageId.toInt = some q →
      0 ≤ pageId.toInt ∧ pageId.toInt < totalNonOverflowPages := by
    intro q hq
    obtain ⟨hvalid, hid⟩ := Config.of_findLevelRun_eq_some hq
    have hlt : config.getPageId q.1 q.2 < totalNonOverflowPages := Config.getPageId_lt hvalid
    omega
  unfold SSTablePage.checkPageId PageFields.levelRun
  by_cases hin : pageId.toInt < totalNonOverflowPages
  · have hsearch : getLevelRunNo pageId.toInt = .ok (config.findLevelRun pageId.toInt) := if_pos hin
    rw [if_pos hin, hsearch]
    cases hq : config.findLevelRun pageId.toInt with
    | none =>
      have hneg : pageId.toInt < 0 := by
        by_contra hnonneg
        rw [totalNonOverflowPages_eq] at hin
        refine hall pageId.toInt.toNat (by omega) ?_
        rw [Int.toNat_of_nonneg (not_lt.1 hnonneg), hq]
      rw [if_pos hneg]
      rfl
    | some q =>
      rw [if_neg (not_lt.2 (hfound q hq).1)]
      rfl
  · have hnone : config.findLevelRun pageId.toInt = none := by
      cases hq : config.findLevelRun pageId.toInt with
      | none => rfl
      | some q => exact absurd (hfound q hq).2 hin
    rw [totalNonOverflowPages_eq] at hin
    rw [totalNonOverflowPages_eq, if_neg hin, if_neg (by omega), hnone, hlevel, hrun]
    rfl

/-- **The outcome of parsing a page** that is not all zero, check by check. -/
theorem parsePageData_eq (hdata : data.length = pageSize) (hz : isPageAllZero data = false) :
    (SSTablePage.ofData data).parsePageData =
      if data.getD 0 0 ≠ pageHeaderMagic then .error .assertFailed
      else if (readInt32 data 5).toInt < 0 then .error .assertFailed
      else if readInt32 data 1 < 0 then .error .lengthError
      else (SSTablePage.readRecords data 17 (readInt32 data 1).toInt.toNat).map fun t =>
        (false, ⟨data, readInt32 data 5, (PageFields.levelRun (readInt32 data 5)).1,
          (PageFields.levelRun (readInt32 data 5)).2, readInt32 data 1,
          Bloom.ofUInt64 (readUInt64 data 9), t⟩) := by
  have hof : (SSTablePage.ofData data).data = data := rfl
  have hcheck := checkPageId_eq (p := SSTablePage.ofData data) rfl rfl (readInt32 data 5)
  have hid : readInt32 data (0 + 1 + 4) = readInt32 data 5 := rfl
  rw [SSTablePage.parsePageData, hof, hz, if_neg (by simp)]
  by_cases hmagic : data.getD 0 0 ≠ pageHeaderMagic
  · simp only [if_pos hmagic, Bind.bind, Except.bind]
    rfl
  by_cases hneg : (readInt32 data 5).toInt < 0
  · simp only [if_neg hmagic, hid, hcheck, if_pos hneg]
    rfl
  have hcount : readInt32 data (0 + 1) = readInt32 data 1 := rfl
  by_cases hlow : readInt32 data 1 < 0
  · simp only [if_neg hmagic, hid, hcheck, if_neg hneg, hcount, if_pos hlow]
    rfl
  simp only [if_neg hmagic, hid, hcheck, if_neg hneg, hcount, if_neg hlow]
  rcases readRecords_cases hdata (readInt32 data 1).toInt.toNat 17 with
    ⟨t, hok, hlen, -⟩ | ⟨herror, -⟩
  · have hnum : readInt32 data 1 = Int32.ofNat t.length := by
      rw [Int32.lt_iff_toInt_lt, Int32.toInt_zero, not_lt] at hlow
      have hmax := Int32.toInt_lt (readInt32 data 1)
      rw [hlen, ← Int32.toInt_inj, Int32.toInt_ofNat_of_lt (by omega), Int.toNat_of_nonneg hlow]
    rw [hok]
    have hmemtable : (SSTablePage.ofData data).memtable ++ t = t := rfl
    simp only [Bind.bind, Except.bind, pure, Except.pure, hmemtable, if_neg (not_not.2 hnum)]
    rfl
  · rw [herror]
    rfl

end Parse

namespace PageFields

variable (f : PageFields)

theorem isPageAllZero_bytes : isPageAllZero f.bytes = false := by
  simp [bytes, isPageAllZero, pageHeaderMagic]

/-- **A page made of fields parses to them.** -/
theorem parsePageData_bytes :
    (SSTablePage.ofData f.bytes).parsePageData = .ok (false, f.page) := by
  have hlen : f.records.length ≤ 125 := fitsPage_iff.1 f.fits
  have hmagic : f.bytes.getD 0 0 = pageHeaderMagic := rfl
  have hcount : readInt32 f.bytes 1 = Int32.ofNat f.records.length :=
    readInt32_of_eq [pageHeaderMagic] _ rfl rfl
  have hid : readInt32 f.bytes 5 = f.pageId :=
    readInt32_of_eq ([pageHeaderMagic] ++ int32Bytes (Int32.ofNat f.records.length))
      (uint64Bytes f.filter ++ (memtableToString f.records ++ f.rest))
      (by simp only [bytes, List.append_assoc]) (by simp)
  have hfilter : readUInt64 f.bytes 9 = f.filter :=
    readUInt64_of_eq ([pageHeaderMagic] ++ int32Bytes (Int32.ofNat f.records.length) ++
      int32Bytes f.pageId) (memtableToString f.records ++ f.rest)
      (by simp only [bytes, List.append_assoc]) (by simp)
  have hrecords : SSTablePage.readRecords f.bytes 17 f.records.length = .ok f.records :=
    SSTablePage.readRecords_of_eq f.rest f.records
      ([pageHeaderMagic] ++ int32Bytes (Int32.ofNat f.records.length) ++ int32Bytes f.pageId ++
        uint64Bytes f.filter) 17 (by simp only [bytes, List.append_assoc]) (by simp) f.fits
  have hcountInt : (Int32.ofNat f.records.length).toInt = f.records.length :=
    Int32.toInt_ofNat_of_lt (by omega)
  have hnonneg : ¬ Int32.ofNat f.records.length < 0 := by
    rw [Int32.lt_iff_toInt_lt, hcountInt]
    simp
  rw [parsePageData_eq f.length_bytes f.isPageAllZero_bytes, hmagic, hid, hcount, hfilter,
    if_neg (by simp), if_neg (not_lt.2 f.pageId_nonneg), if_neg hnonneg, hcountInt,
    Int.toNat_natCast, hrecords]
  rfl

end PageFields

/-- A buffer taken apart at the offsets of the fields. -/
theorem eq_append_slices {data : List UInt8} (hdata : data.length = pageSize) (n : Nat) :
    data = [data.getD 0 0] ++ (slice data 1 4 ++ (slice data 5 4 ++ (slice data 9 8 ++
      (slice data 17 n ++ data.drop (17 + n))))) := by
  have hcons : [data.getD 0 0] ++ data.drop 1 = data := by
    cases data with
    | nil => cases hdata
    | cons x data => rfl
  have hcount := slice_append_drop data 1 4
  have hid := slice_append_drop data 5 4
  have hfilter := slice_append_drop data 9 8
  rw [slice_append_drop, hfilter, hid, hcount, hcons]

/-- **A page that parses is made of fields**, if it is not all zero. -/
theorem exists_fields {data : List UInt8} (hdata : data.length = pageSize)
    (hz : isPageAllZero data = false) {x : Bool × SSTablePage}
    (hok : (SSTablePage.ofData data).parsePageData = .ok x) : ∃ f : PageFields, f.bytes = data := by
  rw [parsePageData_eq hdata hz] at hok
  split_ifs at hok with hmagic hneg hlow
  rcases readRecords_cases hdata (readInt32 data 1).toInt.toNat 17 with
    ⟨t, ht, hlen, hroom, hbytes⟩ | ⟨herror, -⟩
  · rw [Int32.lt_iff_toInt_lt, Int32.toInt_zero, not_lt] at hlow
    have hmax := Int32.toInt_lt (readInt32 data 1)
    have hnum : readInt32 data 1 = Int32.ofNat t.length := by
      rw [hlen, ← Int32.toInt_inj, Int32.toInt_ofNat_of_lt (by omega), Int.toNat_of_nonneg hlow]
    have hfits : FitsPage t := by
      rw [← hlen] at hroom
      by_cases hnil : t.length = 0
      · rw [FitsPage, hnil]
        decide
      · exact hroom hnil
    have hsize : pageSize = 1024 := rfl
    have hmagic' : data.getD 0 0 = pageHeaderMagic := not_not.1 hmagic
    refine ⟨⟨readInt32 data 5, readUInt64 data 9, t, data.drop (17 + recordSize * t.length),
      not_lt.1 hneg, hfits, ?_⟩, ?_⟩
    · rw [List.length_drop, hdata]
      show pageSize - (17 + recordSize * t.length) = pageSize - 17 - recordSize * t.length
      omega
    · rw [← hlen] at hbytes
      rw [PageFields.bytes, ← hnum, int32Bytes_readInt32 (by omega),
        int32Bytes_readInt32 (by omega), uint64Bytes_readUInt64 (by omega), ← hbytes, ← hmagic']
      exact (eq_append_slices hdata _).symm
  · rw [herror] at hok
    cases hok

theorem PageFields.bytes_injective : Function.Injective PageFields.bytes := by
  intro f g heq
  have hf := f.parsePageData_bytes
  rw [heq, g.parsePageData_bytes] at hf
  have hpage : g.page = f.page := congrArg Prod.snd (Except.ok.inj hf)
  have hid : f.pageId = g.pageId := congrArg SSTablePage.pageId hpage.symm
  have hrecords : f.records = g.records := congrArg SSTablePage.memtable hpage.symm
  have hfilter : f.filter = g.filter := by
    have hbits := congrArg (fun p => p.bloomFilter.toInt) hpage.symm
    exact hbits
  have hrest : f.rest = g.rest := by
    rw [bytes, bytes, hid, hrecords, hfilter] at heq
    simpa using heq
  exact PageFields.ext hid hfilter hrecords hrest

/-- **The format of a page.**  The pages that parse, all-zero ones apart, are
those made of a page id that is not negative, any filter, at most 125 records in
any order and any bytes behind them, one to one; and parsing gives these fields
back. -/
theorem page_format :
    Set.BijOn PageFields.bytes Set.univ
      {data | data.length = pageSize ∧ isPageAllZero data = false ∧
        ∃ x, (SSTablePage.ofData data).parsePageData = .ok x} ∧
    ∀ f : PageFields, (SSTablePage.ofData f.bytes).parsePageData = .ok (false, f.page) := by
  refine ⟨⟨?_, PageFields.bytes_injective.injOn, ?_⟩, fun f => f.parsePageData_bytes⟩
  · intro f _
    exact ⟨f.length_bytes, f.isPageAllZero_bytes, _, f.parsePageData_bytes⟩
  · rintro data ⟨hdata, hz, x, hok⟩
    obtain ⟨f, hf⟩ := exists_fields hdata hz hok
    exact ⟨f, trivial, hf⟩

/-- **What happens on every other page.**  A negative count throws, one above 125
is read past the end of the page; everything else is an assertion. -/
theorem parsePageData_error {data : List UInt8} (hdata : data.length = pageSize) (e : Fault) :
    (SSTablePage.ofData data).parsePageData = .error e ↔ isPageAllZero data = false ∧
      if data.getD 0 0 ≠ pageHeaderMagic ∨ (readInt32 data 5).toInt < 0 then e = .assertFailed
      else if readInt32 data 1 < 0 then e = .lengthError
      else 125 < (readInt32 data 1).toInt ∧ e = .readPastEnd := by
  have hcomm : ∀ e' : Fault, (.error e' : Except Fault (Bool × SSTablePage)) = .error e ↔
      e = e' := fun e' => ⟨fun h => (Except.error.inj h).symm, fun h => by rw [h]⟩
  cases hz : isPageAllZero data with
  | true =>
    have hzero : (SSTablePage.ofData data).parsePageData = .ok (true, SSTablePage.ofData data) :=
      if_pos hz
    rw [hzero]
    simp
  | false =>
    rw [parsePageData_eq hdata hz]
    by_cases hmagic : data.getD 0 0 ≠ pageHeaderMagic
    · rw [if_pos hmagic, if_pos (.inl hmagic), hcomm]
      simp
    by_cases hneg : (readInt32 data 5).toInt < 0
    · rw [if_neg hmagic, if_pos hneg, if_pos (.inr hneg), hcomm]
      simp
    rw [if_neg hmagic, if_neg hneg, if_neg (not_or.2 ⟨hmagic, hneg⟩)]
    by_cases hlow : readInt32 data 1 < 0
    · rw [if_pos hlow, if_pos hlow, hcomm]
      simp
    rw [if_neg hlow, if_neg hlow]
    rw [Int32.lt_iff_toInt_lt, Int32.toInt_zero, not_lt] at hlow
    have hsize : pageSize = 1024 := rfl
    have hrecord : recordSize = 8 := rfl
    rcases readRecords_cases hdata (readInt32 data 1).toInt.toNat 17 with
      ⟨t, hok, hlen, hroom, -⟩ | ⟨herror, hover⟩
    · rw [hok]
      refine iff_of_false (by simp [Except.map]) ?_
      rintro ⟨-, hhigh, -⟩
      have hend := hroom (by omega)
      rw [hrecord] at hend
      omega
    · rw [hrecord] at hover
      have hhigh : 125 < (readInt32 data 1).toInt := by omega
      rw [herror]
      exact (hcomm _).trans (by simp [hhigh])

/-- A page that counts 126 records. -/
theorem parsePageData_error_126 :
    (SSTablePage.ofData ([pageHeaderMagic, 126] ++ List.replicate 1022 0)).parsePageData =
      .error .readPastEnd :=
  (parsePageData_error (by rw [List.length_append, List.length_replicate]; rfl) _).2
    ⟨rfl, by decide⟩

/-! ## Opening a database -/

/-- Constructing a run does what parsing its page does. -/
theorem run_construct_parse {s : Store} (hdb : PagedFile s.disk.dbIo) {level run : Nat}
    (hr : ValidRun level run) :
    ∃ q, Run.construct s level run =
      (SSTablePage.ofData (pageAt s.disk.dbIo (getPageId level run))).parsePageData.map fun x =>
        (s.withPos q).setRun level run ⟨x.1, 0, Bloom.empty⟩ := by
  obtain ⟨q, hread⟩ := readDb_spec hdb (getPageId level run)
  refine ⟨q, ?_⟩
  have hvalid : ¬ ¬ (level < maxLevelNum ∧ run < getMaxRun level) := not_not.2 hr
  rw [Run.construct, if_neg hvalid]
  simp only [hread, Bind.bind, Except.bind]
  cases (SSTablePage.ofData (pageAt s.disk.dbIo (getPageId level run))).parsePageData <;> rfl

/-- Constructing some runs succeeds when all their pages parse. -/
theorem foldlM_construct_iff (ps : List (Nat × Nat)) (hps : ∀ p ∈ ps, ValidRun p.1 p.2) :
    ∀ s : Store, PagedFile s.disk.dbIo →
      ((∃ s', ps.foldlM (fun s p => Run.construct s p.1 p.2) s = Except.ok s') ↔
        ∀ p ∈ ps, ∃ x, (SSTablePage.ofData
          (pageAt s.disk.dbIo (getPageId p.1 p.2))).parsePageData = .ok x) := by
  induction ps with
  | nil => exact fun s _ => iff_of_true ⟨s, rfl⟩ (by simp)
  | cons p ps ih =>
    intro s hdb
    obtain ⟨q, hrun⟩ := run_construct_parse hdb (hps p (List.mem_cons_self ..))
    rw [List.foldlM_cons, hrun]
    cases hparse : (SSTablePage.ofData
        (pageAt s.disk.dbIo (getPageId p.1 p.2))).parsePageData with
    | error e =>
      refine iff_of_false ?_ ?_
      · rintro ⟨s', hok⟩
        cases hok
      · intro hall
        obtain ⟨x, hx⟩ := hall p (List.mem_cons_self ..)
        rw [hparse] at hx
        cases hx
    | ok x =>
      have hrest := ih (fun p' hp' => hps p' (List.mem_cons_of_mem _ hp'))
        ((s.withPos q).setRun p.1 p.2 ⟨x.1, 0, Bloom.empty⟩) (hdb.setPos q)
      refine Iff.trans hrest ?_
      rw [List.forall_mem_cons]
      exact ⟨fun h => ⟨⟨x, hparse⟩, h⟩, fun h => h.2⟩

/-- **When a database opens**: the page of every run is all zero or has the
format. -/
theorem construct_iff_pages {d : DiskManager} (hdb : PagedFile d.dbIo) :
    (∃ s, SSTableManager.construct (Store.init d) = .ok s) ↔
      ∀ level run, ValidRun level run →
        pageAt d.dbIo (getPageId level run) = zeroData ∨
          ∃ f : PageFields, f.bytes = pageAt d.dbIo (getPageId level run) := by
  have hmem : ∀ p : Nat × Nat, p ∈ ((List.range maxLevelNum).flatMap fun level =>
      (List.range (getMaxRun level)).map fun run => (level, run)) ↔ ValidRun p.1 p.2 := by
    intro p
    simp only [List.mem_flatMap, List.mem_map, List.mem_range, ValidRun]
    constructor
    · rintro ⟨level, hlevel, run, hrun, rfl⟩
      exact ⟨hlevel, hrun⟩
    · exact fun h => ⟨p.1, h.1, p.2, h.2, rfl⟩
  have hpage : ∀ pageId, (∃ x, (SSTablePage.ofData (pageAt d.dbIo pageId)).parsePageData = .ok x) ↔
      pageAt d.dbIo pageId = zeroData ∨ ∃ f : PageFields, f.bytes = pageAt d.dbIo pageId := by
    intro pageId
    constructor
    · rintro ⟨x, hok⟩
      cases hz : isPageAllZero (pageAt d.dbIo pageId) with
      | true => exact .inl (pageAt_eq_zeroData hz)
      | false => exact .inr (exists_fields (length_pageAt ..) hz hok)
    · rintro (hzero | ⟨f, hf⟩)
      · rw [hzero]
        exact ⟨_, parsePageData_zero⟩
      · rw [← hf]
        exact ⟨_, f.parsePageData_bytes⟩
  refine (foldlM_construct_iff _ (fun p hp => (hmem p).1 hp) (Store.init d) hdb).trans ?_
  constructor
  · intro hall level run hr
    exact (hpage _).1 (hall (level, run) ((hmem _).2 hr))
  · intro hall p hp
    exact (hpage _).2 (hall p.1 p.2 ((hmem p).1 hp))

/-- A file whose first page is all ones does not open. -/
theorem construct_iff_pages_ones :
    ¬ ∃ s, SSTableManager.construct (Store.init ⟨FileStream.openExisting [],
      FileStream.openExisting (List.replicate pageSize 1), FileStream.openExisting []⟩) =
        .ok s := by
  rw [construct_iff_pages ⟨rfl, by simp [FileStream.openExisting]⟩]
  intro hall
  have hpage : pageAt (FileStream.openExisting (List.replicate pageSize 1))
      (getPageId 0 0) = List.replicate pageSize 1 := by
    have hself := block_zero_self (List.replicate pageSize (1 : UInt8))
    rwa [List.length_replicate] at hself
  rcases hall 0 0 (by decide) with hzero | ⟨f, hf⟩
  · rw [hpage] at hzero
    exact absurd (congrArg (List.getD · 0 0) hzero) (by decide)
  · rw [hpage] at hf
    have hmagic : pageHeaderMagic = 1 := congrArg (List.getD · 0 0) hf
    exact absurd hmagic (by decide)

end GhostDB
