import GhostDB.Reachable
import GhostDB.Library.Outline

/-!
# What the log holds

The records in `memtable.log` and in the log buffer, over whole histories and
with the flush thread coming in at any time.

* `parseRecords` — the records in some bytes.
* `Logged`, `OnDisk` — file and buffer together hold given records; the file
  alone does.
* `currentWrites` — the writes that went into the memtable being filled.
* `put_outline` — at every point of a `Put` file and buffer hold the writes of
  the old memtable, of the new one, or none.
-/

namespace GhostDB

open Prog SortedTable Bytes

/-! ## Records -/

/-- The records in some bytes, one behind the other. -/
def parseRecords (bytes : List UInt8) : List MappingType :=
  if bytes.length < recordSize then []
  else (readInt32 bytes 0, readInt32 bytes 4) :: parseRecords (bytes.drop recordSize)
termination_by bytes.length
decreasing_by
  simp only [List.length_drop, recordSize] at *
  omega

theorem parseRecords_nil : parseRecords [] = [] := by
  rw [parseRecords]
  rfl

/-- The first record. -/
theorem parseRecords_cons (r : MappingType) (bytes : List UInt8) :
    parseRecords (recordBytes r ++ bytes) = r :: parseRecords bytes := by
  have hlen := length_recordBytes r
  have hkey : readInt32 (recordBytes r ++ bytes) 0 = r.1 :=
    readInt32_of_eq [] (int32Bytes r.2 ++ bytes) (by simp [recordBytes]) rfl
  have hval : readInt32 (recordBytes r ++ bytes) 4 = r.2 :=
    readInt32_of_eq (int32Bytes r.1) bytes (by simp [recordBytes]) (length_int32Bytes r.1)
  rw [parseRecords, hkey, hval, if_neg (by simp), ← hlen, List.drop_left]

theorem parseRecords_memtableToString (recs : List MappingType) :
    parseRecords (memtableToString recs) = recs := by
  induction recs with
  | nil => exact parseRecords_nil
  | cons r recs ih => rw [memtableToString_cons, parseRecords_cons, ih]

/-! ## The whole log file -/

/-- The log file starts with `bs`, and the next write goes behind it. -/
structure LogFile (io : FileStream) (bs : List UInt8) : Prop extends LogHolds io bs where
  /-- All of `bs`, also what lies behind the first page. -/
  written : io.bytes.take bs.length = bs

/-- Behind the position of the stream the file is zero. -/
def NothingBehind (io : FileStream) : Prop := ∀ i, io.pos ≤ i → io.bytes.getD i 0 = 0

namespace LogFile

variable {d : DiskManager} {bs : List UInt8}

theorem empty : LogFile (FileStream.openExisting []) [] := ⟨LogHolds.empty, rfl⟩

theorem length_le {io : FileStream} (h : LogFile io bs) : bs.length ≤ io.bytes.length := by
  have hlen := congrArg List.length h.written
  rw [List.length_take] at hlen
  omega

/-- The bytes handed to `WriteLog` end up behind what the file holds. -/
theorem writeLog (h : LogFile d.logIo bs) (data : List UInt8) :
    LogFile (d.writeLog data data.length false).logIo (bs ++ data) := by
  refine ⟨h.toLogHolds.writeLog data, ?_⟩
  have hle := h.length_le
  unfold DiskManager.writeLog
  split
  next hz =>
    rw [List.length_eq_zero_iff.1 hz, List.append_nil]
    exact h.written
  next =>
    have hpad : (d.logIo.bytes ++ List.replicate (bs.length - d.logIo.bytes.length) 0).take
        bs.length = bs := by
      rw [Nat.sub_eq_zero_of_le hle, List.replicate_zero, List.append_nil, h.written]
    simp only [Bool.false_eq_true, if_false, List.take_length]
    rw [FileStream.write_bytes h.good, h.pos, overwrite, hpad]
    exact List.take_left

/-- Clearing the log leaves it empty. -/
theorem clear (h : LogFile d.logIo bs) : LogFile (d.writeLog zeroData pageSize true).logIo [] :=
  ⟨h.toLogHolds.clear, rfl⟩

end LogFile

namespace NothingBehind

variable {d : DiskManager} {bs : List UInt8}

theorem empty : NothingBehind (FileStream.openExisting []) := fun _ _ => rfl

theorem writeLog (h : NothingBehind d.logIo) (hf : LogFile d.logIo bs) (data : List UInt8) :
    NothingBehind (d.writeLog data data.length false).logIo := by
  unfold DiskManager.writeLog
  split
  · exact h
  · intro i hi
    simp only [Bool.false_eq_true, if_false, List.take_length] at hi ⊢
    rw [FileStream.write_pos hf.good] at hi
    rw [FileStream.write_bytes hf.good, getD_overwrite, if_neg (by omega)]
    exact h i (by omega)

/-- Clearing a log that stayed within its first page leaves the whole file
zero. -/
theorem clear (h : NothingBehind d.logIo) (hf : LogFile d.logIo bs)
    (hbound : bs.length ≤ pageSize) :
    NothingBehind (d.writeLog zeroData pageSize true).logIo := by
  intro i hi
  by_cases hlt : i < pageSize
  · rw [hf.clear.page i hlt]
    rfl
  · have hpos : pageSize ≠ 0 := by decide
    have hgood : (d.logIo.seekp 0).fail = false := by simp [hf.good]
    have htake : zeroData.take pageSize = zeroData := List.take_of_length_le length_zeroData.le
    unfold DiskManager.writeLog
    simp only [if_neg hpos, if_true, htake]
    rw [FileStream.seekp_bytes, FileStream.write_bytes hgood, getD_overwrite,
      FileStream.seekp_pos hf.good, length_zeroData, if_neg (by omega), FileStream.seekp_bytes]
    exact h i (by rw [hf.pos]; omega)

end NothingBehind

/-! ## File and buffer -/

/-- File and buffer together hold the records; and if `bounded`, nothing stands
behind them in the file. -/
structure Logged (bounded : Prop) (recs : List MappingType) (s : Store) : Prop where
  /-- The log manager is at rest. -/
  ok : s.log.Ok
  /-- No byte of an older record is left. -/
  behind : bounded → NothingBehind s.disk.logIo
  /-- The file, then the buffer. -/
  bytes : ∃ written, LogFile s.disk.logIo written ∧
    written ++ s.log.pending = memtableToString recs

/-- The file alone holds the records. -/
structure OnDisk (bounded : Prop) (recs : List MappingType) (s : Store) : Prop where
  /-- The log manager is at rest. -/
  ok : s.log.Ok
  /-- No byte of an older record is left. -/
  behind : bounded → NothingBehind s.disk.logIo
  /-- The file. -/
  file : LogFile s.disk.logIo (memtableToString recs)
  /-- The buffer. -/
  pending : s.log.pending = []

section Contents

variable {bounded : Prop} {recs : List MappingType} {s s' : Store} {w w' : World}

theorem OnDisk.logged (h : OnDisk bounded recs s) : Logged bounded recs s :=
  ⟨h.ok, h.behind, _, h.file, by rw [h.pending, List.append_nil]⟩

/-- A database that has written nothing. -/
theorem onDisk_nil (hok : s.log.Ok) (hio : s.disk.logIo = FileStream.openExisting [])
    (hpending : s.log.pending = []) : OnDisk bounded [] s := by
  refine ⟨hok, fun _ => ?_, ?_, hpending⟩
  · rw [hio]
    exact NothingBehind.empty
  · rw [hio]
    exact LogFile.empty

theorem Logged.congr (h : Logged bounded recs s) (hlog : s'.log = s.log)
    (hio : s'.disk.logIo = s.disk.logIo) : Logged bounded recs s' := by
  refine ⟨?_, ?_, ?_⟩
  · rw [hlog]
    exact h.ok
  · rw [hio]
    exact h.behind
  · rw [hlog, hio]
    exact h.bytes

theorem OnDisk.congr (h : OnDisk bounded recs s) (hlog : s'.log = s.log)
    (hio : s'.disk.logIo = s.disk.logIo) : OnDisk bounded recs s' := by
  refine ⟨?_, ?_, ?_, ?_⟩
  · rw [hlog]
    exact h.ok
  · rw [hio]
    exact h.behind
  · rw [hio]
    exact h.file
  · rw [hlog]
    exact h.pending

/-- `AppendLogRecord` adds one record. -/
theorem Logged.appendLogRecord (h : Logged bounded recs s) {key : Key} {val : Val} {u : Unit}
    (ok : Store.handle (.appendLogRecord key val) s = .ok (u, s')) :
    Logged bounded (recs ++ [(key, val)]) s' := by
  obtain ⟨written, hfile, hbytes⟩ := h.bytes
  obtain ⟨log, flushed, happend, hok, hpending⟩ :=
    LogManager.appendLogRecord_spec h.ok s.disk key val
  rw [Store.handle, happend] at ok
  cases ok
  refine ⟨hok, fun hb => (h.behind hb).writeLog hfile flushed, written ++ flushed,
    hfile.writeLog flushed, ?_⟩
  rw [List.append_assoc, hpending, ← List.append_assoc, hbytes, memtableToString_append,
    memtableToString_cons, memtableToString_nil, List.append_nil]

/-- `FlushWAL` brings everything to the file. -/
theorem Logged.flushWAL (h : Logged bounded recs s) {u : Unit}
    (ok : Store.handle .flushWAL s = .ok (u, s')) : OnDisk bounded recs s' := by
  obtain ⟨written, hfile, hbytes⟩ := h.bytes
  obtain ⟨log, hflush, hok, hsize⟩ := LogManager.flush_spec h.ok s.disk
  rw [Store.handle, hflush] at ok
  cases ok
  refine ⟨hok, fun hb => (h.behind hb).writeLog hfile _, ?_, LogManager.pending_of_size_zero hsize⟩
  rw [← hbytes]
  exact hfile.writeLog _

/-- So does the flush thread. -/
theorem Logged.flushThread (h : Logged bounded recs w.store) (hflush : w.flushThread w') :
    OnDisk bounded recs w'.store := by
  obtain ⟨written, hfile, hbytes⟩ := h.bytes
  obtain ⟨log, rfl, hok, hpending⟩ := World.flushThread_eq h.ok hflush
  refine ⟨hok, fun hb => (h.behind hb).writeLog hfile _, ?_, hpending⟩
  rw [← hbytes]
  exact hfile.writeLog _

/-- **Clearing the log**, once everything is in the file. -/
theorem OnDisk.clearLog (h : OnDisk bounded recs s)
    (hbound : bounded → recordSize * recs.length ≤ pageSize) {u : Unit}
    (ok : Store.handle .clearLog s = .ok (u, s')) : OnDisk bounded [] s' := by
  cases ok
  refine ⟨h.ok, fun hb => (h.behind hb).clear h.file ?_, h.file.clear, h.pending⟩
  rw [length_memtableToString]
  exact hbound hb

end Contents

section Stable

variable (bounded : Prop) (recs : List MappingType)

theorem stable_logged : Stable World.flushThread fun w => Logged bounded recs w.store :=
  fun _ _ h hflush => (h.flushThread hflush).logged

theorem stable_onDisk : Stable World.flushThread fun w => OnDisk bounded recs w.store :=
  fun _ _ h hflush => h.logged.flushThread hflush

end Stable

/-! ## The writes of one memtable -/

/-- The writes that went into the memtable after one more. -/
def nextWrites (b : Buffer) (recs : List MappingType) (r : MappingType) : List MappingType :=
  if b.Refuses r.1 then [r] else recs ++ [r]

/-- One write. -/
def currentStep (st : (List BufferMap × Buffer) × List MappingType) (r : MappingType) :
    (List BufferMap × Buffer) × List MappingType :=
  (bufferStep st.1 r, nextWrites st.1.2 st.2 r)

/-- **The writes that went into the memtable being filled**, overwritten ones
included. -/
def currentWrites (ws : List MappingType) : List MappingType :=
  (ws.foldl currentStep (([], Buffer.empty), [])).2

theorem fst_foldl_currentStep (ws : List MappingType) :
    (ws.foldl currentStep (([], Buffer.empty), [])).1 = splitWrites ws := by
  induction ws using List.reverseRecOn with
  | nil => rfl
  | append_singleton ws r ih =>
    rw [List.foldl_concat, splitWrites_concat, ← ih]
    rfl

@[simp] theorem currentWrites_nil : currentWrites [] = [] := rfl

theorem currentWrites_concat (ws : List MappingType) (r : MappingType) :
    currentWrites (ws ++ [r]) = nextWrites (splitWrites ws).2 (currentWrites ws) r := by
  rw [currentWrites, List.foldl_concat, currentStep, fst_foldl_currentStep]
  rfl

/-- Replaying them gives the memtable. -/
theorem lastWrites_currentWrites (ws : List MappingType) :
    RecoveryManager.lastWrites (currentWrites ws) = (splitWrites ws).2.kv := by
  induction ws using List.reverseRecOn with
  | nil => rfl
  | append_singleton ws r ih =>
    rw [currentWrites_concat, splitWrites_concat, bufferStep, nextWrites]
    split
    next h => rfl
    next h => rw [RecoveryManager.lastWrites_concat, ih, Buffer.insert]

/-! ## A write under interference -/

/-- Dumping a memtable makes no call on the log, compactions included. -/
theorem pure_dumpLoop (fuel : Nat) (m : BufferMap) : Pure ClientSig.isLog (dumpLoop fuel m) := by
  induction fuel with
  | zero => exact ⟨rfl, fun r => nomatch r⟩
  | succ fuel ih =>
    have hdump : Pure StoreOp.isLog (SSTableManager.dumpSSTable m) := by
      refine Pure.bind (pure_getAvaiRun fun _ _ => rfl) fun found => ?_
      cases found with
      | none => trivial
      | some p => exact ⟨rfl, fun _ => trivial⟩
    refine Pure.bind (Pure.inl hdump) fun done => ?_
    cases done with
    | true => trivial
    | false => exact ⟨rfl, fun _ => ih⟩

/-- One call to the store. -/
theorem call_outline {P Q : World → Prop} {o : StoreOp} (hP : Stable World.flushThread P)
    (hQ : Stable World.flushThread Q)
    (hcall : ∀ w s' r, P w → Store.handle o w.store = .ok (r, s') →
      Q ⟨s', w.flushed ++ flushedBy o⟩) :
    Outline World.handle World.flushThread P (onStore (op (S := StoreSig) o))
      (fun w => P w ∨ Q w) (fun _ => Q) := by
  have hop : Outline World.handle World.flushThread P (op (S := ClientSig) (.inl o))
      (fun w => P w ∨ ∃ _r : ClientSig.Res (.inl o), Q w) (fun _ => Q) := by
    refine Outline.op hP (fun _ => hQ) ?_
    intro w w' r h ok
    obtain ⟨s', hs, rfl⟩ := World.handle_inl_eq_ok ok
    exact hcall w s' r h hs
  exact hop.mono (fun _ h => h) (fun _ h => h.imp id fun ⟨_, h⟩ => h) (fun _ _ h => h)

section Outlines

variable {bounded : Prop} {recs : List MappingType}

/-- One record is appended. -/
theorem appendLogRecord_outline (key : Key) (val : Val) :
    Outline World.handle World.flushThread (fun w => Logged bounded recs w.store)
      (onStore (appendLogRecord key val))
      (fun w => Logged bounded recs w.store ∨ Logged bounded (recs ++ [(key, val)]) w.store)
      (fun _ w => Logged bounded (recs ++ [(key, val)]) w.store) :=
  call_outline (stable_logged bounded recs) (stable_logged bounded _)
    fun _ _ _ h hs => h.appendLogRecord hs

/-- Everything is brought to the file. -/
theorem flushWAL_outline :
    Outline World.handle World.flushThread (fun w => Logged bounded recs w.store)
      (onStore flushWAL)
      (fun w => Logged bounded recs w.store ∨ OnDisk bounded recs w.store)
      (fun _ w => OnDisk bounded recs w.store) :=
  call_outline (stable_logged bounded recs) (stable_onDisk bounded recs)
    fun _ _ _ h hs => h.flushWAL hs

/-- The file is cleared. -/
theorem clearLog_outline (hbound : bounded → recordSize * recs.length ≤ pageSize) :
    Outline World.handle World.flushThread (fun w => OnDisk bounded recs w.store)
      (onStore clearLog) (fun w => OnDisk bounded recs w.store ∨ OnDisk bounded [] w.store)
      (fun _ w => OnDisk bounded [] w.store) :=
  call_outline (stable_onDisk bounded recs) (stable_onDisk bounded [])
    fun _ _ _ h hs => h.clearLog hbound hs

/-- Nothing happens to the log while a memtable is dumped. -/
theorem dumpLoop_outline (fuel : Nat) (m : BufferMap) :
    Outline World.handle World.flushThread (fun w => OnDisk bounded recs w.store)
      (dumpLoop fuel m) (fun w => OnDisk bounded recs w.store)
      (fun _ w => OnDisk bounded recs w.store) := by
  refine Outline.of_pure (stable_onDisk bounded recs) ?_ (pure_dumpLoop fuel m)
  intro o w w' r ho h ok
  obtain ⟨hlog, hio⟩ := World.log_of_handle ho ok
  exact h.congr hlog hio

/-- A write the memtable has room for. -/
theorem put_room_outline {b : Buffer} {key : Key} {val : Val} (h : ¬ b.Refuses key) (fuel : Nat) :
    Outline World.handle World.flushThread (fun w => Logged bounded recs w.store)
      (Db.put (fuel + 1) b key val)
      (fun w => ∃ rs, (rs = recs ∨ rs = recs ++ [(key, val)]) ∧ Logged bounded rs w.store)
      (fun _ w => Logged bounded (recs ++ [(key, val)]) w.store) := by
  rw [Db.put, Buffer.put, dif_neg h, bind_assoc']
  refine ((appendLogRecord_outline key val).mono (fun _ h => h) ?_ (fun _ _ h => h)).bind
    fun _ => ?_
  · rintro w (h | h)
    · exact ⟨recs, .inl rfl, h⟩
    · exact ⟨_, .inr rfl, h⟩
  exact (Outline.ret (stable_logged bounded _) _).mono (fun _ h => h)
    (fun w h => ⟨_, .inr rfl, h⟩) (fun _ _ h => h.2)

/-- **A write**: at every point file and buffer hold the writes of the old
memtable, none, or those of the new one. -/
theorem put_outline (hbound : bounded → recordSize * recs.length ≤ pageSize) (fuel : Nat)
    (b : Buffer) (key : Key) (val : Val) :
    Outline World.handle World.flushThread (fun w => Logged bounded recs w.store)
      (Db.put fuel b key val)
      (fun w => ∃ rs, (rs = recs ∨ rs = [] ∨ rs = nextWrites b recs (key, val)) ∧
        Logged bounded rs w.store)
      (fun _ w => Logged bounded (nextWrites b recs (key, val)) w.store) := by
  cases fuel with
  | zero =>
    exact (Outline.of_error (stable_logged bounded recs) fun s => ⟨.outOfFuel, rfl⟩).mono
      (fun _ h => h) (fun _ h => ⟨recs, .inl rfl, h⟩) (fun _ _ h => h)
  | succ fuel =>
    by_cases h : b.Refuses key
    · rw [nextWrites, if_pos h, Db.put, Buffer.put, dif_pos h]
      show Outline _ _ _ (onStore flushWAL >>= fun _ => dumpLoop (fuel + 1) b.kv >>= fun _ =>
        onStore clearLog >>= fun _ => Db.put fuel Buffer.empty key val) _ _
      refine (flushWAL_outline.mono (fun _ h => h)
        (fun _ h => ⟨recs, .inl rfl, h.elim id OnDisk.logged⟩) (fun _ _ h => h)).bind fun _ => ?_
      refine ((dumpLoop_outline (fuel + 1) b.kv).mono (fun _ h => h)
        (fun _ h => ⟨recs, .inl rfl, h.logged⟩) (fun _ _ h => h)).bind fun _ => ?_
      refine ((clearLog_outline hbound).mono (fun _ h => h) ?_ (fun _ _ h => h)).bind fun _ => ?_
      · rintro w (h | h)
        · exact ⟨recs, .inl rfl, h.logged⟩
        · exact ⟨[], .inr (.inl rfl), h.logged⟩
      · cases fuel with
        | zero =>
          exact (Outline.of_error (stable_onDisk bounded []) fun s => ⟨.outOfFuel, rfl⟩).mono
            (fun _ h => h) (fun _ h => ⟨[], .inr (.inl rfl), h.logged⟩) (fun _ _ h => h)
        | succ fuel =>
          refine (put_room_outline (Buffer.not_refuses_empty key) fuel).mono
            (fun _ h => h.logged) ?_ (fun _ _ h => h)
          rintro w ⟨rs, hrs, h⟩
          exact ⟨rs, .inr hrs, h⟩
    · rw [nextWrites, if_neg h]
      refine (put_room_outline h fuel).mono (fun _ h => h) ?_ (fun _ _ h => h)
      rintro w ⟨rs, hrs, h⟩
      exact ⟨rs, hrs.imp_right .inr, h⟩

end Outlines

/-! ## Reachable states -/

/-- After some writes, with their log. -/
structure LoggedAt (bounded : Prop) (ws : List MappingType) (w : World) (b : Buffer) : Prop
    extends At ws w b where
  /-- The log holds the writes of the memtable. -/
  logged : Logged bounded (currentWrites ws) w.store

namespace LoggedAt

variable {bounded : Prop} {ws : List MappingType} {w w' : World} {b b' : Buffer}

/-- A new database. -/
theorem construct {fuel : Nat} {files : Files} (ok : Db.construct fuel files = .ok (b, w)) :
    LoggedAt bounded [] w b := by
  obtain ⟨w₀, hok, hw, hflushed, hlog, hio⟩ := construct_fresh fuel files
  cases ok.symm.trans hok
  refine ⟨⟨hw, ?_⟩, (onDisk_nil ?_ hio ?_).logged⟩
  · rw [hflushed]
    rfl
  · rw [hlog]
    exact LogManager.ok_init
  · rw [hlog]
    rfl

theorem flushThread (h : LoggedAt bounded ws w b) (hflush : w.flushThread w') :
    LoggedAt bounded ws w' b :=
  ⟨h.toAt.flushThread hflush, stable_logged bounded _ w w' h.logged hflush⟩

/-- **A write** in the state after the writes `ws`. -/
theorem put_outline (hbound : bounded → recordSize * (currentWrites ws).length ≤ pageSize)
    (fuel : Nat) (key : Key) (val : Val) :
    Outline World.handle World.flushThread (fun w => LoggedAt bounded ws w b)
      (Db.put fuel b key val)
      (fun w => ∃ rs, (rs = currentWrites ws ∨ rs = [] ∨ rs = currentWrites (ws ++ [(key, val)])) ∧
        Logged bounded rs w.store)
      (fun b' w => LoggedAt bounded (ws ++ [(key, val)]) w b') := by
  intro w ops q w' h hsteps
  have hb : b = (splitWrites ws).2 := congrArg Prod.snd h.split
  have hnext : nextWrites b (currentWrites ws) (key, val) = currentWrites (ws ++ [(key, val)]) := by
    rw [currentWrites_concat, hb]
  obtain ⟨hpoint, hend⟩ :=
    GhostDB.put_outline hbound fuel b key val w ops q w' h.logged hsteps
  rw [hnext] at hpoint hend
  refine ⟨hpoint, ?_⟩
  rintro b' rfl
  exact ⟨h.toAt.of_interleaved hsteps fun v hrun => h.toAt.of_run_put hrun, hend b' rfl⟩

/-- A call that only reads. -/
theorem of_read (h : LoggedAt bounded ws w b) {α : Type} {p : Prog ClientSig α} {a : α}
    {ops : List ClientSig.Op} (hp : Pure ClientSig.isWrite p)
    (hsteps : Interleaved p w ops (.ret a) w') : LoggedAt bounded ws w' b := by
  refine ⟨h.toAt.of_interleaved hsteps fun v hrun => h.toAt.of_run_read hp hrun, ?_⟩
  have hlogs : ∀ o, ClientSig.isWrite o = false → ClientSig.isLog o = false := by
    rintro (o | o) ho
    · cases o <;> first | rfl | exact nomatch ho
    · rfl
  exact ((Outline.of_pure (stable_logged bounded (currentWrites ws)) (fun o w w' r ho h ok => by
    obtain ⟨hlog, hio⟩ := World.log_of_handle ho ok
    exact h.congr hlog hio) (hp.mono hlogs)) w ops _ w' h.logged hsteps).1

end LoggedAt

/-- **In every reachable state** the log holds the writes of the memtable. -/
theorem Db.Reachable.loggedAt {w : World} {b : Buffer} (h : Db.Reachable w b) :
    ∃ ws, LoggedAt False ws w b := by
  induction h with
  | construct ok => exact ⟨[], .construct ok⟩
  | flush _ moves ih =>
    obtain ⟨ws, hat⟩ := ih
    exact ⟨ws, hat.flushThread moves⟩
  | put _ done ih =>
    obtain ⟨ws, hat⟩ := ih
    exact ⟨_, (LoggedAt.put_outline False.elim _ _ _ _ _ _ _ hat done).2 _ rfl⟩
  | delete _ done ih =>
    obtain ⟨ws, hat⟩ := ih
    exact ⟨_, (LoggedAt.put_outline False.elim _ _ _ _ _ _ _ hat done).2 _ rfl⟩
  | get _ done ih =>
    obtain ⟨ws, hat⟩ := ih
    exact ⟨ws, hat.of_read (pure_get _ _) done⟩
  | getRange _ done ih =>
    obtain ⟨ws, hat⟩ := ih
    exact ⟨ws, hat.of_read (pure_getRange _ _ _ _) done⟩

end GhostDB
