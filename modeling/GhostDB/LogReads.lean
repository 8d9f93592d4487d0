import GhostDB.DiskManager

/-!
# Reading the log

`ReadLog` shares one stream with `WriteLog`: a page read from a shorter file
fails the stream for good, and any other read leaves it behind the first page.
Here is what that does to the log, for every sequence of calls on a new disk
manager.

* `LogCall` — the calls; `logAfter` is the file they leave.
* `Disturbs` — when a `ReadLog` between two stretches of calls does harm.
* `read_log_disturbs_iff` — the file is the one without the reads exactly when
  none of them does.
-/

namespace GhostDB

/-! ## The calls -/

/-- A call on the log of a disk manager. -/
inductive LogCall
  /-- `WriteLog(data, size)`. -/
  | append (data : List UInt8)
  /-- `WriteLog(zero_data, PAGE_SIZE, true)`. -/
  | clear
  /-- `ReadLog(page, PAGE_SIZE)`. -/
  | read (page : List UInt8)
  deriving DecidableEq

namespace LogCall

/-- What the call does to the disk manager. -/
def exec : LogCall → DiskManager → DiskManager
  | .append data, d => d.writeLog data data.length false
  | .clear, d => d.writeLog zeroData pageSize true
  | .read page, d => (d.readLog page pageSize).2

/-- Is it a `ReadLog`? -/
def isRead : LogCall → Bool
  | .read _ => true
  | _ => false

/-- Does it write anything?  `WriteLog` of no bytes does not. -/
def Writes : LogCall → Prop
  | .append data => data ≠ []
  | .clear => True
  | .read _ => False

end LogCall

/-- `memtable.log` after some calls on a new disk manager. -/
def logAfter (files : Files) (calls : List LogCall) : List UInt8 :=
  (calls.foldl (fun d c => c.exec d) (DiskManager.init files)).logIo.bytes

/-- The calls with every `ReadLog` removed. -/
def withoutReads (calls : List LogCall) : List LogCall := calls.filter fun c => !c.isRead

/-- How many bytes one more call leaves appended since the last clear. -/
def appendedBy (n : Nat) : LogCall → Nat
  | .append data => n + data.length
  | .clear => 0
  | .read _ => n

/-- How many bytes were appended since the last clear. -/
def sinceClear (calls : List LogCall) : Nat := calls.foldl appendedBy 0

/-- At no point are more than `PAGE_SIZE` bytes appended since the last clear. -/
def WithinPage (calls : List LogCall) : Prop :=
  ∀ before after, calls = before ++ after → sinceClear before ≤ pageSize

/-- Some bytes are appended before anything is cleared. -/
def AppendsNext (calls : List LogCall) : Prop :=
  ∃ mid data after, calls = mid ++ .append data :: after ∧ data ≠ [] ∧ .clear ∉ mid

/-- A `ReadLog` between the calls `before` and `after` does harm: there is a log
to read, and either bytes are appended to it before it is cleared, or the log is
shorter than a page, never having been cleared, and is cleared afterwards. -/
def Disturbs (before after : List LogCall) : Prop :=
  (∃ c ∈ before, c.Writes) ∧ (AppendsNext after ∨
    (.clear ∉ before ∧ sinceClear before < pageSize ∧ .clear ∈ after))

/-! ## The stream of the log -/

namespace LogCall

/-- What the call does to the stream of `memtable.log`. -/
def onLog : LogCall → FileStream → FileStream
  | .append data, io => if data = [] then io else io.write data
  | .clear, io => ((io.seekp 0).write zeroData).seekp 0
  | .read _, io => if io.bytes = [] then io else ((io.seekp 0).read pageSize).2

theorem exec_logIo (c : LogCall) (d : DiskManager) : (c.exec d).logIo = c.onLog d.logIo := by
  cases c with
  | append data =>
    show (d.writeLog data data.length false).logIo =
      if data = [] then d.logIo else d.logIo.write data
    by_cases hdata : data = []
    · rw [if_pos hdata, DiskManager.writeLog, if_pos (by simp [hdata])]
    · rw [if_neg hdata, DiskManager.writeLog, if_neg (by simpa using hdata)]
      show d.logIo.write (data.take data.length) = d.logIo.write data
      rw [List.take_length]
  | clear =>
    show (d.writeLog zeroData pageSize true).logIo = ((d.logIo.seekp 0).write zeroData).seekp 0
    rw [DiskManager.writeLog, if_neg (by decide)]
    show ((d.logIo.seekp 0).write (zeroData.take pageSize)).seekp 0 = _
    rw [List.take_of_length_le (by simp)]
  | read page =>
    show (d.readLog page pageSize).2.logIo =
      if d.logIo.bytes = [] then d.logIo else ((d.logIo.seekp 0).read pageSize).2
    by_cases hempty : d.logIo.bytes = []
    · rw [if_pos hempty, DiskManager.readLog, if_pos (by simp [DiskManager.getFileSize, hempty])]
    · rw [if_neg hempty, DiskManager.readLog,
        if_neg (by simpa [DiskManager.getFileSize] using hempty)]
      rfl

end LogCall

/-- What some calls do to it. -/
def streamAfter (calls : List LogCall) (io : FileStream) : FileStream :=
  calls.foldl (fun io c => c.onLog io) io

theorem streamAfter_cons (c : LogCall) (calls : List LogCall) (io : FileStream) :
    streamAfter (c :: calls) io = streamAfter calls (c.onLog io) := rfl

theorem logAfter_eq (files : Files) (calls : List LogCall) :
    logAfter files calls = (streamAfter calls (FileStream.openExisting [])).bytes := by
  have hfold : ∀ d : DiskManager, (calls.foldl (fun d c => c.exec d) d).logIo =
      streamAfter calls d.logIo := by
    induction calls with
    | nil => exact fun _ => rfl
    | cons c calls ih =>
      intro d
      rw [List.foldl_cons, ih, c.exec_logIo, streamAfter_cons]
  rw [logAfter, hfold]
  rfl

theorem withoutReads_cons_read (page : List UInt8) (calls : List LogCall) :
    withoutReads (.read page :: calls) = withoutReads calls := rfl

theorem withoutReads_cons_of_not_read {c : LogCall} (h : c.isRead = false)
    (calls : List LogCall) : withoutReads (c :: calls) = c :: withoutReads calls := by
  rw [withoutReads, List.filter_cons_of_pos (by simp [h])]
  rfl

/-- No call shortens the file. -/
theorem length_le_onLog (c : LogCall) (io : FileStream) :
    io.bytes.length ≤ (c.onLog io).bytes.length := by
  cases c with
  | append data =>
    rw [LogCall.onLog]
    split
    · exact le_refl _
    · exact io.length_le_write data
  | clear =>
    rw [LogCall.onLog, FileStream.seekp_bytes]
    have hwrite := (io.seekp 0).length_le_write zeroData
    rwa [FileStream.seekp_bytes] at hwrite
  | read page =>
    rw [LogCall.onLog]
    split
    · exact le_refl _
    · rw [FileStream.read_bytes, FileStream.seekp_bytes]

theorem length_le_streamAfter (calls : List LogCall) (io : FileStream) :
    io.bytes.length ≤ (streamAfter calls io).bytes.length := by
  induction calls generalizing io with
  | nil => exact le_refl _
  | cons c calls ih => exact le_trans (length_le_onLog c io) (ih (c.onLog io))

/-- After a failed read nothing has an effect. -/
theorem streamAfter_of_fail (calls : List LogCall) {io : FileStream} (h : io.fail = true) :
    streamAfter calls io = io := by
  induction calls with
  | nil => rfl
  | cons c calls ih =>
    have hsame : c.onLog io = io := by
      cases c with
      | append data => rw [LogCall.onLog, FileStream.write_of_fail h, ite_self]
      | clear =>
        rw [LogCall.onLog, FileStream.seekp_of_fail h, FileStream.write_of_fail h,
          FileStream.seekp_of_fail h]
      | read page =>
        rw [LogCall.onLog, FileStream.seekp_of_fail h, FileStream.read_of_fail h, ite_self]
    rw [streamAfter_cons, hsame, ih]

/-! ## The log when nothing is read -/

theorem sinceClear_concat (calls : List LogCall) (c : LogCall) :
    sinceClear (calls ++ [c]) = appendedBy (sinceClear calls) c := by
  rw [sinceClear, List.foldl_append]
  rfl

/-- What the stream is like after some calls whose reads had no effect. -/
structure Plain (io : FileStream) (calls : List LogCall) : Prop where
  /-- No operation on it has failed. -/
  good : io.fail = false
  /-- It stands behind what was appended since the last clear. -/
  pos : io.pos = sinceClear calls
  /-- That is at most a page. -/
  le : sinceClear calls ≤ pageSize
  /-- A clear leaves a page. -/
  length : io.bytes.length = if .clear ∈ calls then pageSize else sinceClear calls
  /-- The file is empty until something is written. -/
  written : io.bytes ≠ [] ↔ ∃ c ∈ calls, c.Writes

namespace Plain

variable {io : FileStream} {before : List LogCall}

theorem start : Plain (FileStream.openExisting []) [] :=
  ⟨rfl, rfl, Nat.zero_le _, rfl, by simp [FileStream.openExisting]⟩

theorem length_le (h : Plain io before) : io.bytes.length ≤ pageSize := by
  rw [h.length]
  split
  · exact le_refl _
  · exact h.le

/-- A call without effect. -/
theorem skip (h : Plain io before) {c : LogCall} (hsince : sinceClear (before ++ [c]) =
    sinceClear before) (hclear : c ≠ .clear) (hwrites : ¬ c.Writes) : Plain io (before ++ [c]) where
  good := h.good
  pos := by rw [hsince, h.pos]
  le := by rw [hsince]; exact h.le
  length := by
    rw [hsince, h.length]
    simp [Ne.symm hclear]
  written := by
    rw [h.written]
    simp [or_and_right, exists_or, hwrites]

theorem read (h : Plain io before) (page : List UInt8) : Plain io (before ++ [.read page]) :=
  h.skip (sinceClear_concat ..) (by simp) id

/-- Bytes appended. -/
theorem append (h : Plain io before) {data : List UInt8} (hdata : data ≠ [])
    (hle : sinceClear before + data.length ≤ pageSize) :
    Plain (io.write data) (before ++ [.append data]) := by
  have hsince : sinceClear (before ++ [.append data]) = sinceClear before + data.length :=
    sinceClear_concat before _
  have hpos : 0 < data.length := List.length_pos_of_ne_nil hdata
  have hlength : (io.write data).bytes.length =
      if .clear ∈ before then pageSize else sinceClear before + data.length := by
    rw [FileStream.write_bytes h.good, Bytes.length_overwrite, h.length, h.pos]
    split <;> omega
  refine ⟨?_, ?_, ?_, ?_, ?_⟩
  · rw [FileStream.write_fail, h.good]
  · rw [FileStream.write_pos h.good, h.pos, hsince]
  · rw [hsince]
    exact hle
  · rw [hlength, hsince]
    simp
  · rw [← List.length_pos_iff_ne_nil, hlength]
    have hwrites : ∃ c ∈ before ++ [LogCall.append data], c.Writes :=
      ⟨.append data, by simp, hdata⟩
    have hpage : 0 < pageSize := by decide
    refine ⟨fun _ => hwrites, fun _ => ?_⟩
    split <;> omega

/-- The log cleared. -/
theorem clear (h : Plain io before) :
    Plain (((io.seekp 0).write zeroData).seekp 0) (before ++ [.clear]) := by
  have hsince : sinceClear (before ++ [.clear]) = 0 := sinceClear_concat before _
  have hseek : (io.seekp 0).fail = false := by rw [FileStream.seekp_fail, h.good]
  have hlength : (((io.seekp 0).write zeroData).seekp 0).bytes.length = pageSize := by
    rw [FileStream.seekp_bytes, FileStream.write_bytes hseek, Bytes.length_overwrite,
      FileStream.seekp_bytes, FileStream.seekp_pos h.good, length_zeroData, Nat.zero_add]
    exact max_eq_right h.length_le
  refine ⟨?_, ?_, ?_, ?_, ?_⟩
  · rw [FileStream.seekp_fail, FileStream.write_fail, hseek]
  · rw [FileStream.seekp_pos (by rw [FileStream.write_fail, hseek]), hsince]
  · rw [hsince]
    exact Nat.zero_le _
  · rw [hlength, if_pos (by simp)]
  · rw [← List.length_pos_iff_ne_nil, hlength]
    have hwrites : ∃ c ∈ before ++ [LogCall.clear], c.Writes := ⟨.clear, by simp, trivial⟩
    exact ⟨fun _ => hwrites, fun _ => by decide⟩

/-- **One more write.** -/
theorem step (h : Plain io before) {c : LogCall} (hc : c.isRead = false)
    (hle : sinceClear (before ++ [c]) ≤ pageSize) : Plain (c.onLog io) (before ++ [c]) := by
  have hsince := sinceClear_concat before c
  cases c with
  | read page => cases hc
  | append data =>
    by_cases hdata : data = []
    · rw [LogCall.onLog, if_pos hdata]
      refine h.skip ?_ (by simp) (by simpa [LogCall.Writes] using hdata)
      rw [hsince, hdata]
      rfl
    · rw [LogCall.onLog, if_neg hdata]
      rw [hsince] at hle
      exact h.append hdata hle
  | clear => exact h.clear

end Plain

theorem WithinPage.tail {before : List LogCall} {c : LogCall} {calls : List LogCall}
    (h : WithinPage (before ++ c :: calls)) : WithinPage ((before ++ [c]) ++ calls) := by
  rwa [List.append_assoc, List.singleton_append]

theorem WithinPage.next {before : List LogCall} {c : LogCall} {calls : List LogCall}
    (h : WithinPage (before ++ c :: calls)) : sinceClear (before ++ [c]) ≤ pageSize :=
  h (before ++ [c]) calls (by simp)

/-- **Calls whose reads are removed** keep the stream plain. -/
theorem Plain.run (calls : List LogCall) {io : FileStream} {before : List LogCall}
    (h : Plain io before) (hle : WithinPage (before ++ calls)) :
    Plain (streamAfter (withoutReads calls) io) (before ++ calls) := by
  induction calls generalizing io before with
  | nil => rwa [List.append_nil]
  | cons c calls ih =>
    rw [← List.singleton_append, ← List.append_assoc]
    cases hc : c.isRead with
    | true =>
      cases c with
      | read page => exact ih (h.read page) hle.tail
      | append data => cases hc
      | clear => cases hc
    | false =>
      rw [List.singleton_append, withoutReads_cons_of_not_read hc, streamAfter_cons]
      exact ih (h.step hc hle.next) hle.tail

/-- While the log is shorter than a page, every write shows. -/
theorem short_unchanged_iff {io : FileStream} (hgood : io.fail = false)
    (hpos : io.pos = io.bytes.length) (hshort : io.bytes.length < pageSize)
    (calls : List LogCall) :
    (streamAfter (withoutReads calls) io).bytes = io.bytes ↔ ∀ c ∈ calls, ¬ c.Writes := by
  have hgrows : ∀ c : LogCall, c.Writes → io.bytes.length < (c.onLog io).bytes.length := by
    intro c hc
    cases c with
    | read page => exact hc.elim
    | append data =>
      have hdata : 0 < data.length := List.length_pos_of_ne_nil hc
      rw [LogCall.onLog, if_neg hc, FileStream.write_bytes hgood, Bytes.length_overwrite]
      omega
    | clear =>
      have hseek : (io.seekp 0).fail = false := by rw [FileStream.seekp_fail, hgood]
      rw [LogCall.onLog, FileStream.seekp_bytes, FileStream.write_bytes hseek,
        Bytes.length_overwrite, length_zeroData]
      omega
  induction calls with
  | nil => simp [withoutReads, streamAfter]
  | cons c calls ih =>
    rw [List.forall_mem_cons]
    cases c with
    | read page =>
      rw [withoutReads_cons_read]
      exact ih.trans (by simp [LogCall.Writes])
    | append data =>
      rw [withoutReads_cons_of_not_read rfl, streamAfter_cons]
      by_cases hdata : data = []
      · rw [LogCall.onLog, if_pos hdata]
        exact ih.trans (by simp [LogCall.Writes, hdata])
      · refine ⟨fun heq => ?_, fun hno => absurd hdata hno.1⟩
        have hmore := hgrows (.append data) hdata
        have hkeeps := length_le_streamAfter (withoutReads calls) (LogCall.onLog (.append data) io)
        rw [heq] at hkeeps
        omega
    | clear =>
      rw [withoutReads_cons_of_not_read rfl, streamAfter_cons]
      refine ⟨fun heq => ?_, fun hno => absurd trivial hno.1⟩
      have hmore := hgrows .clear trivial
      have hkeeps := length_le_streamAfter (withoutReads calls) (LogCall.onLog .clear io)
      rw [heq] at hkeeps
      omega

/-! ## The reads that do harm -/

/-- No `ReadLog` among `calls`, which come after `before`, does harm. -/
def Calm (before calls : List LogCall) : Prop :=
  ∀ mid page after, calls = mid ++ .read page :: after → ¬ Disturbs (before ++ mid) after

theorem calm_nil (before : List LogCall) : Calm before [] := by
  intro mid page after heq
  simp at heq

theorem calm_cons (before : List LogCall) (c : LogCall) (calls : List LogCall) :
    Calm before (c :: calls) ↔
      (c.isRead = true → ¬ Disturbs before calls) ∧ Calm (before ++ [c]) calls := by
  constructor
  · intro h
    constructor
    · intro hc
      cases c with
      | read page =>
        have hfirst := h [] page calls rfl
        rwa [List.append_nil] at hfirst
      | append data => cases hc
      | clear => cases hc
    · intro mid page after heq
      have hlater := h (c :: mid) page after (by rw [heq]; rfl)
      rwa [List.append_assoc]
  · rintro ⟨hfirst, hlater⟩ mid page after heq
    cases mid with
    | nil =>
      rw [List.nil_append, List.cons.injEq] at heq
      rw [List.append_nil, ← heq.2]
      exact hfirst (by rw [heq.1]; rfl)
    | cons d mid =>
      rw [List.cons_append, List.cons.injEq] at heq
      have hrest := hlater mid page after heq.2
      rwa [List.append_assoc, heq.1] at hrest

theorem not_appendsNext_nil : ¬ AppendsNext [] := by
  rintro ⟨mid, data, after, heq, -⟩
  simp at heq

theorem appendsNext_cons (c : LogCall) (calls : List LogCall) :
    AppendsNext (c :: calls) ↔
      (∃ data, c = .append data ∧ data ≠ []) ∨ (c ≠ .clear ∧ AppendsNext calls) := by
  constructor
  · rintro ⟨mid, data, after, heq, hdata, hmid⟩
    cases mid with
    | nil =>
      rw [List.nil_append, List.cons.injEq] at heq
      exact .inl ⟨data, heq.1, hdata⟩
    | cons d mid =>
      rw [List.cons_append, List.cons.injEq] at heq
      rw [List.mem_cons, not_or] at hmid
      exact .inr ⟨heq.1 ▸ Ne.symm hmid.1, mid, data, after, heq.2, hdata, hmid.2⟩
  · rintro (⟨data, rfl, hdata⟩ | ⟨hc, mid, data, after, rfl, hdata, hmid⟩)
    · exact ⟨[], data, calls, rfl, hdata, by simp⟩
    · exact ⟨c :: mid, data, after, rfl, hdata, by simp [Ne.symm hc, hmid]⟩

/-- Nothing is written at all. -/
theorem forall_not_writes_iff (calls : List LogCall) :
    (∀ c ∈ calls, ¬ c.Writes) ↔ ¬ AppendsNext calls ∧ .clear ∉ calls := by
  induction calls with
  | nil => simp [not_appendsNext_nil]
  | cons c calls ih =>
    rw [List.forall_mem_cons, ih, appendsNext_cons]
    cases c with
    | read page => simp [LogCall.Writes]
    | append data => simp [LogCall.Writes, and_assoc]
    | clear => simp [LogCall.Writes]

/-- Where nothing is written no read does harm. -/
theorem calm_of_not_writes {before calls : List LogCall} (h : ∀ c ∈ calls, ¬ c.Writes) :
    Calm before calls := by
  intro mid page after heq
  rintro ⟨-, hharm⟩
  have hafter : ∀ c ∈ after, ¬ c.Writes := by
    intro c hc
    exact h c (by rw [heq]; simp [hc])
  rw [forall_not_writes_iff] at hafter
  rcases hharm with hnext | ⟨-, -, hclear⟩
  · exact hafter.1 hnext
  · exact hafter.2 hclear

/-- **Reading a log of at least a page** does harm when bytes are appended to it
before it is cleared. -/
theorem disturbs_iff_of_page {io : FileStream} {before : List LogCall} (h : Plain io before)
    (hpage : io.bytes.length = pageSize) (after : List LogCall) :
    Disturbs before after ↔ AppendsNext after := by
  have hwritten : ∃ c ∈ before, c.Writes := by
    rw [← h.written, ← List.length_pos_iff_ne_nil, hpage]
    decide
  refine ⟨?_, fun hnext => ⟨hwritten, .inl hnext⟩⟩
  rintro ⟨-, hnext | ⟨hclear, hshort, -⟩⟩
  · exact hnext
  · have hlength := h.length
    rw [if_neg hclear] at hlength
    omega

/-- **Reading a shorter log** does harm when anything is written later. -/
theorem disturbs_iff_of_short {io : FileStream} {before : List LogCall} (h : Plain io before)
    (hne : io.bytes ≠ []) (hshort : io.bytes.length < pageSize) (after : List LogCall) :
    ¬ Disturbs before after ↔ ∀ c ∈ after, ¬ c.Writes := by
  have hlength := h.length
  have hclear : .clear ∉ before := by
    intro hmem
    rw [if_pos hmem] at hlength
    omega
  rw [if_neg hclear] at hlength
  rw [forall_not_writes_iff, Disturbs, ← h.written]
  have hless : sinceClear before < pageSize := by omega
  simp [hne, hclear, hless]

/-- A clear brings the stream back, wherever it stands. -/
theorem onLog_clear_moved {io : FileStream} (h : io.fail = false) (p : Nat) :
    LogCall.onLog .clear { io with pos := p } = LogCall.onLog .clear io := by
  simp [LogCall.onLog, FileStream.seekp, h]

/-- Reading a log of at least a page moves the stream behind the page. -/
theorem onLog_read_page {io : FileStream} (h : io.fail = false)
    (hpage : io.bytes.length = pageSize) (page : List UInt8) (p : Nat) :
    LogCall.onLog (.read page) { io with pos := p } = { io with pos := pageSize } := by
  have hne : io.bytes ≠ [] := by
    rw [← List.length_pos_iff_ne_nil, hpage]
    decide
  have hblock := FileStream.read_block (s := { io with pos := p }) h (n := pageSize) (i := 0)
    (by show 0 * pageSize + pageSize ≤ io.bytes.length; omega)
  rw [Nat.zero_mul, Nat.zero_add] at hblock
  rw [LogCall.onLog, if_neg hne, hblock]

/-- Once a read of a shorter log has failed, the log stays what it is, which is
right when nothing is written later. -/
theorem agree_read_short {io : FileStream} {before : List LogCall} (h : Plain io before)
    (hne : io.bytes ≠ []) (hshort : io.bytes.length < pageSize) (page : List UInt8)
    (calls : List LogCall) :
    (streamAfter calls (LogCall.onLog (.read page) io)).bytes =
        (streamAfter (withoutReads calls) io).bytes ↔
      ¬ Disturbs before calls ∧ Calm (before ++ [.read page]) calls := by
  have hpos : io.pos = io.bytes.length := by
    have hlength := h.length
    split at hlength
    · omega
    · rw [h.pos, hlength]
  have hread : LogCall.onLog (.read page) io = ⟨io.bytes, io.bytes.length, true⟩ := by
    rw [LogCall.onLog, if_neg hne, FileStream.read_start_short h.good hshort]
  have hsame := short_unchanged_iff h.good hpos hshort calls
  rw [hread, streamAfter_of_fail calls rfl, disturbs_iff_of_short h hne hshort]
  constructor
  · intro heq
    have hno := hsame.1 heq.symm
    exact ⟨hno, calm_of_not_writes hno⟩
  · rintro ⟨hno, -⟩
    exact (hsame.2 hno).symm

/-- Bytes appended behind the page leave a file that is longer than it should
be. -/
theorem append_moved_ne {io : FileStream} {before : List LogCall} (h : Plain io before)
    (hpage : io.bytes.length = pageSize) {data : List UInt8} (hdata : data ≠ [])
    {calls : List LogCall} (hle : WithinPage (before ++ .append data :: calls)) :
    (streamAfter calls (LogCall.onLog (.append data) { io with pos := pageSize })).bytes ≠
      (streamAfter (withoutReads calls) (LogCall.onLog (.append data) io)).bytes := by
  have hlong := length_le_streamAfter calls
    (LogCall.onLog (.append data) { io with pos := pageSize })
  have hclean := ((h.step (c := .append data) rfl hle.next).run calls hle.tail).length_le
  have hdlen : 0 < data.length := List.length_pos_of_ne_nil hdata
  have hgood : ({ io with pos := pageSize } : FileStream).fail = false := h.good
  have hgrown : (LogCall.onLog (.append data) { io with pos := pageSize }).bytes.length =
      pageSize + data.length := by
    rw [LogCall.onLog, if_neg hdata, FileStream.write_bytes hgood, Bytes.length_overwrite]
    show max io.bytes.length (pageSize + data.length) = pageSize + data.length
    omega
  intro heq
  rw [heq] at hlong
  omega

/-- **When reads leave the log as it would be without them**: from a plain
stream, and from one that a read of a whole page moved. -/
theorem agree_iff (calls : List LogCall) :
    ∀ (before : List LogCall) (io : FileStream), Plain io before → WithinPage (before ++ calls) →
    ((streamAfter calls io).bytes = (streamAfter (withoutReads calls) io).bytes ↔
      Calm before calls) ∧
    (io.bytes.length = pageSize →
      ((streamAfter calls { io with pos := pageSize }).bytes =
          (streamAfter (withoutReads calls) io).bytes ↔
        ¬ AppendsNext calls ∧ Calm before calls)) := by
  induction calls with
  | nil =>
    intro before io _ _
    simp [streamAfter, withoutReads, calm_nil, not_appendsNext_nil]
  | cons c calls ih =>
    intro before io h hle
    rw [calm_cons, appendsNext_cons]
    cases c with
    | read page =>
      obtain ⟨hplain, hmoved⟩ := ih (before ++ [.read page]) io (h.read page) hle.tail
      rw [withoutReads_cons_read, streamAfter_cons]
      constructor
      · by_cases hne : io.bytes = []
        · -- there is no log to read
          have hno : ¬ Disturbs before calls := fun hd => h.written.2 hd.1 hne
          rw [LogCall.onLog, if_pos hne, hplain]
          simp [hno]
        · rcases Nat.lt_or_eq_of_le h.length_le with hshort | hpage
          · -- the stream fails
            rw [agree_read_short h hne hshort]
            simp [LogCall.isRead]
          · -- the stream moves
            have hread := onLog_read_page h.good hpage page io.pos
            rw [hread, hmoved hpage, disturbs_iff_of_page h hpage]
            simp [LogCall.isRead]
      · intro hpage
        rw [streamAfter_cons, onLog_read_page h.good hpage, hmoved hpage,
          disturbs_iff_of_page h hpage]
        simp [LogCall.isRead]
    | append data =>
      have hstep := h.step (c := .append data) rfl hle.next
      obtain ⟨hplain, hmoved⟩ := ih _ _ hstep hle.tail
      rw [withoutReads_cons_of_not_read rfl, streamAfter_cons, streamAfter_cons]
      refine ⟨by rw [hplain]; simp [LogCall.isRead], ?_⟩
      intro hpage
      rw [streamAfter_cons]
      by_cases hdata : data = []
      · have hnone : ∀ io', LogCall.onLog (.append data) io' = io' := by
          intro io'
          rw [LogCall.onLog, if_pos hdata]
        rw [hnone] at hmoved
        rw [hnone, hnone, hmoved hpage]
        simp [LogCall.isRead, hdata]
      · -- the bytes land behind the page
        refine iff_of_false (append_moved_ne h hpage hdata hle) ?_
        simp [hdata]
    | clear =>
      have hstep := h.step (c := .clear) rfl hle.next
      obtain ⟨hplain, -⟩ := ih _ _ hstep hle.tail
      rw [withoutReads_cons_of_not_read rfl, streamAfter_cons, streamAfter_cons]
      refine ⟨by rw [hplain]; simp [LogCall.isRead], ?_⟩
      intro _
      rw [streamAfter_cons, onLog_clear_moved h.good, hplain]
      simp [LogCall.isRead]

/-- **When reading the log does not disturb it.**  For calls on a new disk
manager that never append more than a page between clears: the log is what it
would be without the `ReadLog` calls exactly when none of these does harm. -/
theorem read_log_disturbs_iff (files : Files) {calls : List LogCall} (hle : WithinPage calls) :
    logAfter files calls = logAfter files (withoutReads calls) ↔
      ∀ before page after, calls = before ++ .read page :: after → ¬ Disturbs before after := by
  rw [logAfter_eq, logAfter_eq]
  exact (agree_iff calls [] _ Plain.start hle).1

theorem withinPage_of_take {calls : List LogCall}
    (h : ∀ n ≤ calls.length, sinceClear (calls.take n) ≤ pageSize) : WithinPage calls := by
  rintro before after rfl
  have hbefore := h before.length (by simp)
  rwa [List.take_left] at hbefore

/-- A log that is read between two clears. -/
theorem read_between_clears :
    WithinPage [.clear, .read zeroData, .clear, .append [7]] ∧
      logAfter ⟨none, none, none⟩ [.clear, .read zeroData, .clear, .append [7]] =
        logAfter ⟨none, none, none⟩
          (withoutReads [.clear, .read zeroData, .clear, .append [7]]) := by
  have hle : WithinPage [.clear, .read zeroData, .clear, .append [7]] :=
    withinPage_of_take (by decide)
  refine ⟨hle, (read_log_disturbs_iff ⟨none, none, none⟩ hle).2 ?_⟩
  show Calm [] _
  rw [calm_cons, calm_cons, calm_cons, calm_cons]
  simp [LogCall.isRead, Disturbs, appendsNext_cons, calm_nil]

/-- **A byte appended after a read of a short log is lost.** -/
theorem append_after_read_is_lost :
    WithinPage [.append [1], .read zeroData, .append [2]] ∧
      logAfter ⟨none, none, none⟩ [.append [1], .read zeroData, .append [2]] = [1] ∧
      logAfter ⟨none, none, none⟩
        (withoutReads [.append [1], .read zeroData, .append [2]]) = [1, 2] ∧
      logAfter ⟨none, none, none⟩ [.append [1], .read zeroData, .append [2]] ≠
        logAfter ⟨none, none, none⟩
          (withoutReads [.append [1], .read zeroData, .append [2]]) := by
  have hwith : logAfter ⟨none, none, none⟩ [.append [1], .read zeroData, .append [2]] = [1] := by
    decide
  have hwithout : logAfter ⟨none, none, none⟩
      (withoutReads [.append [1], .read zeroData, .append [2]]) = [1, 2] := by
    decide
  refine ⟨withinPage_of_take (by decide), hwith, hwithout, ?_⟩
  rw [hwith, hwithout]
  decide

end GhostDB
