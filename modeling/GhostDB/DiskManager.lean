import GhostDB.Util
import GhostDB.Library.FileStream

/-!
# The disk manager

`disk_manager.h` and `disk_manager.cc`: the three files of a database, each
behind one stream, and the directory they live in.

`readDb_spec` and `pageAt_writeDb` are the two facts everything above uses: as long as
`sstable.db` only ever grew by whole pages, reading a page returns its block of
the file, and writing a page replaces that block and no other.
-/

namespace GhostDB

open Bytes

/-- The files below `db_base`; `none` for a file that does not exist. -/
structure Files where
  /-- `memtable.log`. -/
  memtableLog : Option (List UInt8)
  /-- `sstable.db`. -/
  sstableDb : Option (List UInt8)
  /-- `sstable.temp`. -/
  sstableTemp : Option (List UInt8)
  deriving DecidableEq

/-- `InitDirectory(db_base)`: `rm -rf`, then `mkdir -p`. -/
def initDirectory (_files : Files) : Files := ⟨none, none, none⟩

/-- `class DiskManager`: the three streams. -/
structure DiskManager where
  /-- `log_io_`. -/
  logIo : FileStream
  /-- `db_io_`. -/
  dbIo : FileStream
  /-- `temp_io_`. -/
  tempIo : FileStream
  deriving DecidableEq

namespace DiskManager

/-- `InitFileIOImpl`: open with truncation, close, reopen for reading and
writing. -/
def initFileIOImpl (file : Option (List UInt8)) : FileStream :=
  FileStream.openExisting (FileStream.openTrunc file).bytes

/-- `DiskManager()`. -/
def init (files : Files) : DiskManager where
  logIo := initFileIOImpl files.memtableLog
  dbIo := initFileIOImpl files.sstableDb
  tempIo := initFileIOImpl files.sstableTemp

/-- `~DiskManager()`: what the closed streams leave in the directory. -/
def close (d : DiskManager) : Files where
  memtableLog := some d.logIo.bytes
  sstableDb := some d.dbIo.bytes
  sstableTemp := some d.tempIo.bytes

/-- The three files opened again as they are, at their start. -/
def reopen (d : DiskManager) : DiskManager where
  logIo := FileStream.openExisting d.logIo.bytes
  dbIo := FileStream.openExisting d.dbIo.bytes
  tempIo := FileStream.openExisting d.tempIo.bytes

/-- `GetFileSize`. -/
def getFileSize (io : FileStream) : Nat := io.bytes.length

/-- `WriteLog`: appends at the stream's position, or clears from the start. -/
def writeLog (d : DiskManager) (logData : List UInt8) (size : Nat) (isDelete : Bool) :
    DiskManager :=
  if size = 0 then d
  else
    let io := if isDelete then d.logIo.seekp 0 else d.logIo
    let io := io.write (logData.take size)
    { d with logIo := if isDelete then io.seekp 0 else io }

/-- `WriteDb(db_data, size)`: writes the temporary file. -/
def writeDbTemp (d : DiskManager) (dbData : List UInt8) (size : Nat) : DiskManager :=
  if size = 0 then d
  else { d with tempIo := (d.tempIo.seekp 0).write (dbData.take size) }

/-- `WriteDb(db_data, size, page_id)`. -/
def writeDb (d : DiskManager) (dbData : List UInt8) (size pageId : Nat) : DiskManager :=
  if size = 0 then d
  else { d with dbIo := (d.dbIo.seekp (pageId * pageSize)).write (dbData.take size) }

/-- `ReadFileImpl` into the front of a page buffer. -/
def readFileImpl (io : FileStream) (page : List UInt8) (size : Nat) :
    List UInt8 × FileStream :=
  let r := io.read size
  (memmove page 0 r.1, r.2)

/-- `ReadLog`. -/
def readLog (d : DiskManager) (page : List UInt8) (size : Nat) : List UInt8 × DiskManager :=
  if getFileSize d.logIo = 0 then (page, d)
  else
    let r := readFileImpl (d.logIo.seekp 0) page size
    (r.1, { d with logIo := r.2 })

/-- `ReadDb(page)`: reads the temporary file. -/
def readDbTemp (d : DiskManager) (page : List UInt8) : List UInt8 × DiskManager :=
  if getFileSize d.tempIo = 0 then (page, d)
  else
    let r := readFileImpl (d.tempIo.seekp 0) page pageSize
    (r.1, { d with tempIo := r.2 })

/-- `ReadDb(page, page_id)`. -/
def readDb (d : DiskManager) (page : List UInt8) (pageId : Nat) : List UInt8 × DiskManager :=
  let fileOffset := pageId * pageSize
  if fileOffset ≥ getFileSize d.dbIo then (page, d)
  else
    let r := readFileImpl (d.dbIo.seekp fileOffset) page pageSize
    (r.1, { d with dbIo := r.2 })

end DiskManager

/-! ## Whole pages -/

/-- A stream over a file made of whole pages, in working order. -/
structure PagedFile (io : FileStream) : Prop where
  /-- No operation on it has failed. -/
  good : io.fail = false
  /-- Its size is a multiple of the page size. -/
  aligned : pageSize ∣ io.bytes.length

/-- The page of a file at a page id, zero past its end. -/
def pageAt (io : FileStream) (pageId : Nat) : List UInt8 := block io.bytes pageSize pageId

@[simp] theorem length_pageAt (io : FileStream) (pageId : Nat) :
    (pageAt io pageId).length = pageSize := length_block ..

namespace PagedFile

theorem empty : PagedFile (FileStream.openExisting []) := ⟨rfl, by simp [FileStream.openExisting]⟩

theorem reopen {io : FileStream} (h : PagedFile io) :
    PagedFile (FileStream.openExisting io.bytes) := ⟨rfl, h.aligned⟩

theorem setPos {io : FileStream} (h : PagedFile io) (p : Nat) : PagedFile { io with pos := p } :=
  ⟨h.good, h.aligned⟩

/-- A page that starts inside the file lies inside it. -/
theorem page_le {io : FileStream} (h : PagedFile io) {pageId : Nat}
    (hlt : pageId * pageSize < io.bytes.length) :
    pageId * pageSize + pageSize ≤ io.bytes.length := by
  obtain ⟨m, hm⟩ := h.aligned
  rw [hm, Nat.mul_comm pageSize m] at hlt ⊢
  have hid : pageId + 1 ≤ m := Nat.lt_of_mul_lt_mul_right hlt
  calc pageId * pageSize + pageSize = (pageId + 1) * pageSize := by ring
    _ ≤ m * pageSize := Nat.mul_le_mul_right _ hid

/-- Seeking to a page and writing a whole one keeps the file paged. -/
theorem write {io : FileStream} (h : PagedFile io) (pageId : Nat) {data : List UInt8}
    (hdata : data.length = pageSize) :
    PagedFile ((io.seekp (pageId * pageSize)).write data) := by
  refine ⟨by simp [h.good], ?_⟩
  rw [FileStream.write_bytes (by simp [h.good]), FileStream.seekp_pos h.good,
    FileStream.seekp_bytes, length_overwrite, hdata]
  have hpage : pageSize ∣ pageId * pageSize + pageSize :=
    Dvd.dvd.add (Dvd.intro_left _ rfl) dvd_rfl
  rcases max_choice io.bytes.length (pageId * pageSize + pageSize) with hm | hm <;> rw [hm]
  · exact h.aligned
  · exact hpage

end PagedFile

/-- A whole page read into a page buffer replaces it. -/
theorem memmove_whole {page data : List UInt8} (h : data.length = page.length) :
    memmove page 0 data = data := by
  simp [memmove, h]

/-- **Reading a page** of a paged file into a zeroed buffer gives its block of
the file and moves nothing but the position. -/
theorem readDb_spec {d : DiskManager} (h : PagedFile d.dbIo) (pageId : Nat) :
    ∃ p, d.readDb zeroData pageId =
      (pageAt d.dbIo pageId, { d with dbIo := { d.dbIo with pos := p } }) := by
  unfold DiskManager.readDb DiskManager.getFileSize
  by_cases hge : pageId * pageSize ≥ d.dbIo.bytes.length
  · refine ⟨d.dbIo.pos, ?_⟩
    rw [if_pos hge, pageAt, block_eq_zero_of_le hge, zeroData]
  · refine ⟨pageId * pageSize + pageSize, ?_⟩
    have hin := h.page_le (not_le.1 hge)
    rw [if_neg hge, DiskManager.readFileImpl, FileStream.read_block h.good hin,
      memmove_whole (by simp)]
    simp [pageAt]

/-- Reading the temporary page. -/
theorem readDbTemp_spec {d : DiskManager} (h : PagedFile d.tempIo) :
    ∃ p, d.readDbTemp zeroData =
      (pageAt d.tempIo 0, { d with tempIo := { d.tempIo with pos := p } }) := by
  unfold DiskManager.readDbTemp DiskManager.getFileSize
  by_cases hz : d.tempIo.bytes.length = 0
  · refine ⟨d.tempIo.pos, ?_⟩
    rw [if_pos hz, pageAt, block_eq_zero_of_le (by omega), zeroData]
  · refine ⟨pageSize, ?_⟩
    have hin : 0 * pageSize + pageSize ≤ d.tempIo.bytes.length := h.page_le (by omega)
    have hread := FileStream.read_block h.good hin
    rw [Nat.zero_mul] at hread
    rw [if_neg hz, DiskManager.readFileImpl, hread, memmove_whole (by simp)]
    simp [pageAt]

/-- **Writing a page** replaces that page and leaves every other one. -/
theorem pageAt_writeDb {d : DiskManager} (h : PagedFile d.dbIo) {data : List UInt8}
    (hdata : data.length = pageSize) (pageId i : Nat) :
    pageAt (d.writeDb data pageSize pageId).dbIo i =
      if i = pageId then data else pageAt d.dbIo i := by
  have hpos : pageSize ≠ 0 := by decide
  unfold DiskManager.writeDb pageAt
  rw [if_neg hpos, List.take_of_length_le hdata.le,
    FileStream.write_bytes (by simp [h.good]), FileStream.seekp_pos h.good, FileStream.seekp_bytes,
    block_overwrite _ _ _ hdata]

theorem pagedFile_writeDb {d : DiskManager} (h : PagedFile d.dbIo) {data : List UInt8}
    (hdata : data.length = pageSize) (pageId : Nat) :
    PagedFile (d.writeDb data pageSize pageId).dbIo := by
  have hpos : pageSize ≠ 0 := by decide
  unfold DiskManager.writeDb
  rw [if_neg hpos, List.take_of_length_le hdata.le]
  exact h.write pageId hdata

/-- Writing the whole temporary page. -/
theorem pageAt_writeDbTemp {d : DiskManager} (h : PagedFile d.tempIo) {data : List UInt8}
    (hdata : data.length = pageSize) : pageAt (d.writeDbTemp data pageSize).tempIo 0 = data := by
  have hpos : pageSize ≠ 0 := by decide
  have hblock := block_overwrite d.tempIo.bytes 0 0 hdata
  rw [Nat.zero_mul, if_pos rfl] at hblock
  unfold DiskManager.writeDbTemp pageAt
  rw [if_neg hpos, List.take_of_length_le hdata.le,
    FileStream.write_bytes (by simp [h.good]), FileStream.seekp_pos h.good, FileStream.seekp_bytes,
    hblock]

theorem pagedFile_writeDbTemp {d : DiskManager} (h : PagedFile d.tempIo) {data : List UInt8}
    (hdata : data.length = pageSize) : PagedFile (d.writeDbTemp data pageSize).tempIo := by
  have hpos : pageSize ≠ 0 := by decide
  have hwrite := h.write 0 hdata
  rw [Nat.zero_mul] at hwrite
  unfold DiskManager.writeDbTemp
  rwa [if_neg hpos, List.take_of_length_le hdata.le]

@[simp] theorem writeDb_logIo (d : DiskManager) (data : List UInt8) (size pageId : Nat) :
    (d.writeDb data size pageId).logIo = d.logIo := by unfold DiskManager.writeDb; split <;> rfl

@[simp] theorem writeDb_tempIo (d : DiskManager) (data : List UInt8) (size pageId : Nat) :
    (d.writeDb data size pageId).tempIo = d.tempIo := by unfold DiskManager.writeDb; split <;> rfl

@[simp] theorem writeDbTemp_logIo (d : DiskManager) (data : List UInt8) (size : Nat) :
    (d.writeDbTemp data size).logIo = d.logIo := by unfold DiskManager.writeDbTemp; split <;> rfl

@[simp] theorem writeDbTemp_dbIo (d : DiskManager) (data : List UInt8) (size : Nat) :
    (d.writeDbTemp data size).dbIo = d.dbIo := by unfold DiskManager.writeDbTemp; split <;> rfl

@[simp] theorem writeLog_dbIo (d : DiskManager) (data : List UInt8) (size : Nat) (del : Bool) :
    (d.writeLog data size del).dbIo = d.dbIo := by unfold DiskManager.writeLog; split <;> rfl

@[simp] theorem writeLog_tempIo (d : DiskManager) (data : List UInt8) (size : Nat) (del : Bool) :
    (d.writeLog data size del).tempIo = d.tempIo := by
  unfold DiskManager.writeLog; split <;> rfl

end GhostDB
