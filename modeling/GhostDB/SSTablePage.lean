import GhostDB.Bloom
import GhostDB.PageNumbers

/-!
# The page format

A page of `sstable.db` holds one memtable:

    | magic (8 bit) | # of pairs (32 bit) | page id (32 bit) | bloom filter (64 bit) | records |

The writer is the first half of `Run::DumpSSTable` (`pageData`), which fills a
zeroed buffer field by field; the reader is `SSTablePage::ParsePageData`
(`parsePageData`), which walks the same layout.  They live in different files of
the source and share no code.

* `pageData_eq` — the bytes the writer produces, when the records fit.
* `pageData_overflow` — and that it runs past the buffer when they do not.
* `parsePageData_pageImage` — **the reader undoes the writer**, for any keys and
  values up to the last byte of the page.
-/

namespace GhostDB

open Bytes

/-! ## The writer -/

/-- Do the records of a memtable fit into a page? -/
def FitsPage (memtable : List MappingType) : Prop :=
  payloadOffset + recordSize * memtable.length ≤ pageSize

instance (memtable : List MappingType) : Decidable (FitsPage memtable) := by
  unfold FitsPage; infer_instance

/-- The limit is 125 pairs. -/
theorem fitsPage_iff {memtable : List MappingType} :
    FitsPage memtable ↔ memtable.length ≤ 125 := by
  simp only [FitsPage, payloadOffset, recordSize, pageSize, bloomBits]
  omega

/-- The filter `Run::DumpSSTable` computes for a memtable. -/
def bloomOf (memtable : List MappingType) : Bloom := Bloom.ofKeys (memtable.map Prod.fst)

/-- The page buffer `Run::DumpSSTable` fills, `char page_data[PAGE_SIZE]`, with
the final `memmove` of the records faulting when it passes the end. -/
def pageData (level run : Nat) (memtable : List MappingType) : Except Fault (List UInt8) :=
  let offset := 0
  let page := List.replicate pageSize 0
  -- magic number
  let page := memmove page offset [pageHeaderMagic]
  let offset := offset + 1
  -- number of key-value pairs
  let page := memmove page offset (int32Bytes (Int32.ofNat memtable.length))
  let offset := offset + 4
  -- page id
  let page := memmove page offset (int32Bytes (Int32.ofNat (getPageId level run)))
  let offset := offset + 4
  -- bloom filter
  let page := memmove page offset (uint64Bytes (bloomOf memtable).toInt)
  let offset := offset + 8
  -- key-value pairs
  let kv := memtableToString memtable
  if offset + kv.length ≤ pageSize then .ok (memmove page offset kv) else .error .pageOverflow

/-- The fields in front of the records. -/
def pageHeader (level run : Nat) (memtable : List MappingType) : List UInt8 :=
  [pageHeaderMagic] ++ int32Bytes (Int32.ofNat memtable.length) ++
    int32Bytes (Int32.ofNat (getPageId level run)) ++ uint64Bytes (bloomOf memtable).toInt

@[simp] theorem length_pageHeader (level run : Nat) (memtable : List MappingType) :
    (pageHeader level run memtable).length = payloadOffset := by
  simp [pageHeader, payloadOffset, bloomBits]

/-- The page of a memtable: header, records, zeros. -/
def pageImage (level run : Nat) (memtable : List MappingType) : List UInt8 :=
  pageHeader level run memtable ++ memtableToString memtable ++
    List.replicate (pageSize - payloadOffset - recordSize * memtable.length) 0

theorem length_pageImage {memtable : List MappingType} (h : FitsPage memtable) (level run : Nat) :
    (pageImage level run memtable).length = pageSize := by
  rw [FitsPage] at h
  simp only [pageImage, List.length_append, length_pageHeader, length_memtableToString,
    List.length_replicate]
  omega

/-- **What `Run::DumpSSTable` writes**, when the records fit. -/
theorem pageData_eq {memtable : List MappingType} (h : FitsPage memtable) (level run : Nat) :
    pageData level run memtable = .ok (pageImage level run memtable) := by
  have hfit : 0 + 1 + 4 + 4 + 8 + (memtableToString memtable).length ≤ pageSize := by
    rw [length_memtableToString]
    simpa [FitsPage, payloadOffset, bloomBits] using h
  have hzero : List.replicate pageSize (0 : UInt8) = [] ++ List.replicate pageSize 0 := rfl
  rw [pageData, if_pos hfit, hzero,
    memmove_append_replicate [] _ (by rfl), memmove_append_replicate _ _ (by simp),
    memmove_append_replicate _ _ (by simp), memmove_append_replicate _ _ (by simp),
    memmove_append_replicate _ _ (by simp)]
  simp only [pageImage, pageHeader, List.nil_append, List.append_assoc, length_int32Bytes,
    length_uint64Bytes, List.length_singleton, length_memtableToString, payloadOffset, bloomBits,
    Nat.sub_sub]

/-- **A memtable that does not fit runs past the page buffer.** -/
theorem pageData_overflow {memtable : List MappingType} (h : ¬ FitsPage memtable)
    (level run : Nat) : pageData level run memtable = .error .pageOverflow := by
  have hfit : ¬ 0 + 1 + 4 + 4 + 8 + (memtableToString memtable).length ≤ pageSize := by
    rw [length_memtableToString]
    simpa [FitsPage, payloadOffset, bloomBits] using h
  rw [pageData, if_neg hfit]

/-! ## The reader -/

/-- `class SSTablePage`: the raw page and the fields parsed from it. -/
structure SSTablePage where
  /-- `data_`. -/
  data : List UInt8
  /-- `page_id_`, set by `ParsePageData`. -/
  pageId : Int32
  /-- `level_`, set by `ParsePageData` for non-overflow pages. -/
  level : Nat
  /-- `run_`, set by `ParsePageData` for non-overflow pages. -/
  run : Nat
  /-- `kv_num_`. -/
  kvNum : Int32
  /-- `bloom_filter_`. -/
  bloomFilter : Bloom
  /-- `memtable_`. -/
  memtable : SSTable
  deriving DecidableEq

namespace SSTablePage

/-- `SSTablePage()` around the bytes read into `data_`. -/
def ofData (data : List UInt8) : SSTablePage where
  data := data
  pageId := 0
  level := 0
  run := 0
  kvNum := -1
  bloomFilter := Bloom.empty
  memtable := []

/-- The record loop of `ParsePageData`: `n` records from `offset` on. -/
def readRecords (data : List UInt8) : Nat → Nat → Except Fault SSTable
  | _, 0 => .ok []
  | offset, n + 1 =>
    if offset + recordSize ≤ pageSize then do
      let rest ← readRecords data (offset + recordSize) n
      return (readInt32 data offset, readInt32 data (offset + 4)) :: rest
    else .error .readPastEnd

/-- The `assert(GetLevelRunNo(page_id_, &level_, &run_))` of `ParsePageData`. -/
def checkPageId (p : SSTablePage) (pageId : Int32) : Except Fault (Nat × Nat) :=
  if pageId.toInt < totalNonOverflowPages then do
    match ← getLevelRunNo pageId.toInt with
    | some lr => return lr
    | none => throw .assertFailed
  else return (p.level, p.run)

/-- `ParsePageData`: `true` for a page of zeros, otherwise every field is read
and checked. -/
def parsePageData (p : SSTablePage) : Except Fault (Bool × SSTablePage) :=
  if isPageAllZero p.data then .ok (true, p)
  else do
    let offset := 0
    if p.data.getD offset 0 ≠ pageHeaderMagic then throw .assertFailed
    let offset := offset + 1
    let kvNum := readInt32 p.data offset
    let offset := offset + 4
    let pageId := readInt32 p.data offset
    let offset := offset + 4
    let (level, run) ← checkPageId p pageId
    let filter := readUInt64 p.data offset
    let offset := offset + 8
    if kvNum < 0 then throw .lengthError
    let records ← readRecords p.data offset kvNum.toInt.toNat
    let memtable := p.memtable ++ records
    if kvNum ≠ Int32.ofNat memtable.length then throw .assertFailed
    return (false, { p with
      pageId := pageId
      level := level
      run := run
      kvNum := kvNum
      bloomFilter := Bloom.ofUInt64 filter
      memtable := memtable })

end SSTablePage

/-! ## The reader undoes the writer -/

/-- The pairs `(level, run)` the level structure holds. -/
def ValidRun (level run : Nat) : Prop := level < maxLevelNum ∧ run < getMaxRun level

instance (level run : Nat) : Decidable (ValidRun level run) := by
  unfold ValidRun; infer_instance

theorem ValidRun.bounds {level run : Nat} (h : ValidRun level run) : level < 5 ∧ run < 5 := by
  have h1 : level < 5 := h.1
  have h2 : run < (level + 1) * 1 := h.2
  omega

/-- The page id of a valid run is found again, and lies below the number of
pages. -/
theorem getLevelRunNo_getPageId {level run : Nat} (h : ValidRun level run) :
    getPageId level run < totalNonOverflowPages ∧
      getLevelRunNo (getPageId level run : Nat) = .ok (some (level, run)) :=
  ⟨Config.getPageId_lt h, Config.getLevelRunNo_getPageId h⟩

/-- The page numbers of two valid runs differ. -/
theorem getPageId_inj {l r l' r' : Nat} (h : ValidRun l r) (h' : ValidRun l' r')
    (heq : getPageId l r = getPageId l' r') : (l, r) = (l', r') :=
  Config.getPageId_inj h h' heq

namespace SSTablePage

/-- Records laid out after a known prefix are read back in order. -/
theorem readRecords_of_eq {data : List UInt8} (post : List UInt8) (t : List MappingType) :
    ∀ (pre : List UInt8) (offset : Nat), data = pre ++ (memtableToString t ++ post) →
      pre.length = offset → offset + recordSize * t.length ≤ pageSize →
        readRecords data offset t.length = .ok t := by
  induction t with
  | nil => intro pre offset _ _ _; rfl
  | cons kv t ih =>
    intro pre offset hdata hpre hfit
    rw [List.length_cons, Nat.mul_succ] at hfit
    have hhead : data = pre ++ (int32Bytes kv.1 ++
        (int32Bytes kv.2 ++ (memtableToString t ++ post))) := by
      rw [hdata, memtableToString_cons, recordBytes]
      simp only [List.append_assoc]
    have hval : data = (pre ++ int32Bytes kv.1) ++
        (int32Bytes kv.2 ++ (memtableToString t ++ post)) := by
      rw [hhead]; simp only [List.append_assoc]
    have hrest : data = (pre ++ recordBytes kv) ++ (memtableToString t ++ post) := by
      rw [hhead, recordBytes]; simp only [List.append_assoc]
    have hkey : readInt32 data offset = kv.1 := readInt32_of_eq _ _ hhead hpre
    have hv : readInt32 data (offset + 4) = kv.2 := readInt32_of_eq _ _ hval (by simp [hpre])
    have htail := ih _ (offset + recordSize) hrest (by simp [hpre]) (by omega)
    rw [List.length_cons, readRecords, if_pos (by omega), htail, hkey, hv]
    rfl

/-- What `ParsePageData` recovers from the page of a memtable. -/
def parsed (level run : Nat) (memtable : SSTable) : SSTablePage where
  data := pageImage level run memtable
  pageId := Int32.ofNat (getPageId level run)
  level := level
  run := run
  kvNum := Int32.ofNat memtable.length
  bloomFilter := bloomOf memtable
  memtable := memtable

theorem getD_pageImage_zero (level run : Nat) (t : SSTable) :
    (pageImage level run t).getD 0 0 = pageHeaderMagic := by
  simp [pageImage, pageHeader]

/-- The page of a memtable is never mistaken for an empty one. -/
theorem isPageAllZero_pageImage (level run : Nat) (t : SSTable) :
    isPageAllZero (pageImage level run t) = false := by
  simp [pageImage, pageHeader, isPageAllZero, pageHeaderMagic]

/-- **The reader undoes the writer.** -/
theorem parsePageData_pageImage {level run : Nat} (hr : ValidRun level run) {t : SSTable}
    (hfit : FitsPage t) :
    parsePageData (ofData (pageImage level run t)) = .ok (false, parsed level run t) := by
  have hlen : t.length ≤ 125 := fitsPage_iff.1 hfit
  obtain ⟨hid, hfind⟩ := getLevelRunNo_getPageId hr
  have hid15 : getPageId level run < 15 := hid
  set image := pageImage level run t with himage
  set pad := List.replicate (pageSize - payloadOffset - recordSize * t.length) (0 : UInt8)
  have hcount : readInt32 image (0 + 1) = Int32.ofNat t.length := by
    refine readInt32_of_eq [pageHeaderMagic] (int32Bytes (Int32.ofNat (getPageId level run)) ++
      (uint64Bytes (bloomOf t).toInt ++ (memtableToString t ++ pad))) ?_ rfl
    simp only [himage, pageImage, pageHeader, List.append_assoc, pad]
  have hpid : readInt32 image (0 + 1 + 4) = Int32.ofNat (getPageId level run) := by
    refine readInt32_of_eq ([pageHeaderMagic] ++ int32Bytes (Int32.ofNat t.length))
      (uint64Bytes (bloomOf t).toInt ++ (memtableToString t ++ pad)) ?_ (by simp)
    simp only [himage, pageImage, pageHeader, List.append_assoc, pad]
  have hfilter : readUInt64 image (0 + 1 + 4 + 4) = (bloomOf t).toInt := by
    refine readUInt64_of_eq ([pageHeaderMagic] ++ int32Bytes (Int32.ofNat t.length) ++
      int32Bytes (Int32.ofNat (getPageId level run))) (memtableToString t ++ pad) ?_ (by simp)
    simp only [himage, pageImage, pageHeader, List.append_assoc, pad]
  have hrecords : readRecords image (0 + 1 + 4 + 4 + 8) t.length = .ok t := by
    refine readRecords_of_eq pad t (pageHeader level run t) _ ?_ (length_pageHeader ..) hfit
    simp only [himage, pageImage, List.append_assoc, pad]
  have hcountInt : (Int32.ofNat t.length).toInt = t.length :=
    Int32.toInt_ofNat_of_lt (by omega)
  have hidInt : (Int32.ofNat (getPageId level run)).toInt = getPageId level run :=
    Int32.toInt_ofNat_of_lt (by omega)
  have hcheck : checkPageId (ofData image) (Int32.ofNat (getPageId level run)) =
      .ok (level, run) := by
    rw [checkPageId, hidInt, if_pos (by exact_mod_cast hid), hfind]
    rfl
  have hnonneg : ¬ Int32.ofNat t.length < 0 := by
    rw [Int32.lt_iff_toInt_lt, hcountInt]
    simp
  have hzero : isPageAllZero image = false := isPageAllZero_pageImage ..
  have hmagic : image.getD 0 0 = pageHeaderMagic := getD_pageImage_zero ..
  have hdata : (ofData image).data = image := rfl
  simp only [parsePageData, hdata, hzero, hmagic, hcount, hpid, hfilter, hcheck, hcountInt,
    Int.toNat_natCast, hrecords, bind, Except.bind, ne_eq, not_true_eq_false, if_false, hnonneg,
    Bool.false_eq_true, pure, Except.pure]
  simp [ofData, parsed, himage]

end SSTablePage

end GhostDB
