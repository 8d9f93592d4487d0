import GhostDB.WriteAheadOrder

/-!
# The page recovery reads

`RecoverWAL` reads one page of `memtable.log`, which is "guaranteed to be within
PAGE_SIZE", and a clear rewrites one page.  The memtable bounds the number of
keys, not the number of writes.

* `WalWithinPage` — the guarantee, for one state.
* `updates_outline` — what the log holds at every point of a sequence of writes.
* `wal_within_page_iff` — the guarantee holds at every point exactly when no
  memtable takes more than 128 writes.
-/

namespace GhostDB

open Prog SortedTable Bytes

/-- **The guarantee**: what was written since the last clear is within the first
page, a clear leaves the whole file zero, and the first page holds nothing but
what was written. -/
structure WalWithinPage (s : Store) : Prop where
  /-- The bytes written since the last clear. -/
  within : s.disk.logIo.pos ≤ pageSize
  /-- What a clear leaves. -/
  clears : ∀ s', Store.handle .clearLog s = .ok ((), s') → ∀ i, s'.disk.logIo.bytes.getD i 0 = 0
  /-- The page `RecoverWAL` reads. -/
  page : pageAt s.disk.logIo 0 = s.logged ++ List.replicate (pageSize - s.logged.length) 0

/-- 128 records fit the page. -/
theorem Logged.walWithinPage {recs : List MappingType} {s : Store} (h : Logged True recs s)
    (hlen : recs.length ≤ 128) : WalWithinPage s := by
  obtain ⟨written, hfile, hbytes⟩ := h.bytes
  have hle : written.length ≤ pageSize := by
    have htotal := congrArg List.length hbytes
    rw [List.length_append, length_memtableToString] at htotal
    simp only [recordSize, pageSize] at htotal ⊢
    omega
  refine ⟨by rw [hfile.pos]; exact hle, ?_, ?_⟩
  · rintro s' hs i
    cases hs
    refine (h.behind trivial).clear hfile hle i ?_
    rw [hfile.clear.pos]
    exact Nat.zero_le i
  · rw [hfile.logged]
    exact RecoveryManager.pageAt_of_logPage ⟨hfile.good, hfile.page⟩ hle

/-! ## Sequences of writes -/

/-- No memtable takes more than 128 writes, as far as no page overflows. -/
def FewWrites (us : List Update) : Prop :=
  ∀ n ≤ us.length, ¬ OverflowsIn (splitWrites ((us.take n).map Update.write)).1 →
    (currentWrites ((us.take n).map Update.write)).length ≤ 128

theorem FewWrites.of_append {us vs : List Update} (h : FewWrites (us ++ vs)) : FewWrites us := by
  intro n hn hno
  have hall := h n (by rw [List.length_append]; omega)
  rw [List.take_append_of_le_length hn] at hall
  exact hall hno

theorem FewWrites.self {us : List Update} (h : FewWrites us)
    (hno : ¬ OverflowsIn (splitWrites (us.map Update.write)).1) :
    (currentWrites (us.map Update.write)).length ≤ 128 := by
  have hall := h us.length le_rfl
  rw [List.take_length] at hall
  exact hall hno

section Updates

variable {bounded : Prop} {w₀ : World}

/-- When one more write overflows a page. -/
theorem LoggedAt.overflowsIn_concat {ws : List MappingType} {w : World} {b : Buffer}
    (h : LoggedAt bounded ws w b) (hno : ¬ OverflowsIn (splitWrites ws).1) (r : MappingType) :
    OverflowsIn (splitWrites (ws ++ [r])).1 ↔ b.Refuses r.1 ∧ Overflows w.flushed := by
  rw [splitWrites_concat, overflowsIn_bufferStep, ← h.split]
  rw [← h.split] at hno
  exact or_iff_right hno

/-- What one more write leaves in the memtable being filled. -/
theorem FewWrites.concat {us : List Update} {u : Update} {w : World} {b : Buffer}
    (hfew : FewWrites (us ++ [u])) (h : LoggedAt bounded (us.map Update.write) w b)
    (hno : ¬ OverflowsIn (splitWrites (us.map Update.write)).1) :
    (currentWrites (us.map Update.write ++ [u.write])).length ≤ 128 := by
  by_cases href : b.Refuses u.write.1
  · rw [currentWrites_concat, ← h.split, nextWrites, if_pos href]
    exact Nat.le_of_ble_eq_true rfl
  · have hall := hfew.self
    rw [List.map_append, List.map_singleton, h.overflowsIn_concat hno] at hall
    exact hall fun ho => href ho.1

/-- One write of a sequence. -/
theorem update_outline {us : List Update} {u : Update} (hfew : bounded → FewWrites (us ++ [u]))
    (fuel : Nat) (b : Buffer) :
    Outline World.handle World.flushThread
      (fun w => LoggedAt bounded (us.map Update.write) w b ∧
        ¬ OverflowsIn (splitWrites (us.map Update.write)).1)
      (u.prog (fuel + 2) b)
      (fun w => ∃ rs : List MappingType, (bounded → rs.length ≤ 128) ∧ Logged bounded rs w.store)
      (fun b w => LoggedAt bounded ((us ++ [u]).map Update.write) w b ∧
        ¬ OverflowsIn (splitWrites ((us ++ [u]).map Update.write)).1) := by
  have hmap : (us ++ [u]).map Update.write =
      us.map Update.write ++ [(u.write.1, u.write.2)] := by simp
  rw [hmap, u.prog_eq]
  rintro w ops q w' ⟨hat, hno⟩ hsteps
  have hcur : bounded → (currentWrites (us.map Update.write)).length ≤ 128 :=
    fun hb => (hfew hb).of_append.self hno
  have hpage : bounded → recordSize * (currentWrites (us.map Update.write)).length ≤ pageSize := by
    intro hb
    have hle := hcur hb
    simp only [recordSize, pageSize]
    omega
  obtain ⟨⟨rs, hrs, hlog⟩, hend⟩ := LoggedAt.put_outline hpage (fuel + 2) u.write.1 u.write.2
    w ops q w' hat hsteps
  refine ⟨⟨rs, ?_, hlog⟩, ?_⟩
  · intro hb
    rcases hrs with rfl | rfl | rfl
    · exact hcur hb
    · exact Nat.zero_le _
    · exact (hfew hb).concat hat hno
  · rintro b' rfl
    refine ⟨hend b' rfl, ?_⟩
    rw [hat.overflowsIn_concat hno]
    obtain ⟨v, hrun, -⟩ := Interleaved.run_eq hsteps hat.logged.ok
    rcases hat.toAt.update u fuel with ⟨-, -, herror⟩ | ⟨hfine, -⟩
    · rw [u.prog_eq] at herror
      cases hrun.symm.trans herror
    · exact hfine

/-- **A sequence of writes** on a new database. -/
theorem updates_outline (h₀ : LoggedAt bounded [] w₀ Buffer.empty) (fuel : Nat) {us : List Update}
    (hfew : bounded → FewWrites us) :
    Outline World.handle World.flushThread (· = w₀) (updates (fuel + 2) us)
      (fun w => ∃ rs : List MappingType, (bounded → rs.length ≤ 128) ∧ Logged bounded rs w.store)
      (fun b w => LoggedAt bounded (us.map Update.write) w b ∧
        ¬ OverflowsIn (splitWrites (us.map Update.write)).1) := by
  induction us using List.reverseRecOn with
  | nil =>
    rintro w ops q w' rfl hsteps
    have hstable : Stable World.flushThread fun w => LoggedAt bounded [] w Buffer.empty :=
      fun _ _ h hflush => h.flushThread hflush
    obtain ⟨-, rfl, hat⟩ := hsteps.of_ret hstable h₀
    refine ⟨⟨[], fun _ => Nat.zero_le _, hat.logged⟩, ?_⟩
    rintro b hret
    cases hret
    exact ⟨hat, not_overflowsIn_nil⟩
  | append_singleton us u ih =>
    rw [updates_concat]
    exact (ih fun hb => (hfew hb).of_append).bind fun b => update_outline hfew fuel b

end Updates

/-! ## The bound is exact -/

/-- After `n` of the writes the flush thread can bring all of the memtable's
writes to the file. -/
theorem exists_flushed {w₀ : World} (h₀ : LoggedAt False [] w₀ Buffer.empty) (fuel : Nat)
    {us : List Update} {n : Nat}
    (hno : ¬ OverflowsIn (splitWrites ((us.take n).map Update.write)).1) :
    ∃ ops q w', Interleaved (updates (fuel + 2) us) w₀ ops q w' ∧
      w'.store.disk.logIo.pos =
        recordSize * (currentWrites ((us.take n).map Update.write)).length := by
  rcases updates_spec h₀.toAt fuel (us.take n) with ⟨ho, -⟩ | ⟨-, b, w, hrun, -⟩
  · exact absurd ho hno
  · have hsteps : Interleaved (updates (fuel + 2) (us.take n)) w₀ _ (.ret b) w :=
      Steps.of_run hrun
    have hat := ((updates_outline h₀ fuel False.elim w₀ _ _ w rfl hsteps).2 b rfl).1
    obtain ⟨log, hsection, -⟩ := LogManager.flushSection_spec hat.logged.ok w.store.disk
    obtain ⟨w', hflush⟩ : ∃ w', w.flushThread w' := ⟨_, _, _, hsection, rfl⟩
    have hsplit : updates (fuel + 2) us = updates (fuel + 2) (us.take n) >>= fun b =>
        (us.drop n).foldlM (fun b u => u.prog (fuel + 2) b) b := by
      rw [updates, updates, ← List.foldlM_append, List.take_append_drop]
    have hwhole := (Steps.bind hsteps
      fun b => (us.drop n).foldlM (fun b u => u.prog (fuel + 2) b) b).trans
        (.env hflush (.refl _ _))
    rw [← hsplit] at hwhole
    refine ⟨_, _, w', hwhole, ?_⟩
    rw [(hat.logged.flushThread hflush).file.pos, length_memtableToString]

/-- **The log stays within the page recovery reads** at every point of a sequence
of writes, the flush thread coming in at any time, if and only if no memtable
takes more than 128 of them. -/
theorem wal_within_page_iff (fuel : Nat) (files : Files) (us : List Update) :
    ∃ w₀, Db.construct fuel files = .ok (Buffer.empty, w₀) ∧
      ((∀ ops q w', Interleaved (updates (fuel + 2) us) w₀ ops q w' → WalWithinPage w'.store) ↔
        ∀ n ≤ us.length, ¬ OverflowsIn (splitWrites ((us.take n).map Update.write)).1 →
          (currentWrites ((us.take n).map Update.write)).length ≤ 128) := by
  obtain ⟨w₀, hok, -⟩ := construct_new fuel files
  refine ⟨w₀, hok, ?_, ?_⟩
  · intro hall n _ hno
    obtain ⟨ops, q, w', hsteps, hpos⟩ := exists_flushed (.construct hok) fuel hno
    have hwithin := (hall ops q w' hsteps).within
    rw [hpos] at hwithin
    simp only [recordSize, pageSize] at hwithin
    omega
  · intro hfew ops q w' hsteps
    obtain ⟨rs, hlen, hlog⟩ := (updates_outline (.construct hok) fuel
      (fun _ => hfew) w₀ ops q w' rfl hsteps).1
    exact hlog.walWithinPage (hlen trivial)

/-! ## One key is enough -/

/-- Writing one key again and again flushes nothing. -/
theorem splitWrites_replicate (r : MappingType) (n : Nat) :
    (splitWrites (List.replicate n r)).1 = [] ∧
      currentWrites (List.replicate n r) = List.replicate n r ∧
      ¬ (splitWrites (List.replicate n r)).2.Refuses r.1 := by
  induction n with
  | zero => exact ⟨rfl, rfl, Buffer.not_refuses_empty r.1⟩
  | succ n ih =>
    obtain ⟨hnil, hcurrent, href⟩ := ih
    rw [List.replicate_succ', splitWrites_concat, currentWrites_concat, bufferStep, nextWrites,
      dif_neg href, if_neg href, hcurrent]
    refine ⟨hnil, rfl, ?_⟩
    rintro ⟨-, hnone⟩
    rw [Buffer.insert, SortedMap.lookup_insert, if_pos rfl] at hnone
    cases hnone

/-- `n` writes of one key leave `n` records in the log. -/
theorem exists_flushed_replicate {w₀ : World} (h₀ : LoggedAt False [] w₀ Buffer.empty)
    (fuel : Nat) (u : Update) (n : Nat) :
    ∃ ops q w', Interleaved (updates (fuel + 2) (List.replicate n u)) w₀ ops q w' ∧
      w'.store.disk.logIo.pos = recordSize * n := by
  have hwrites : ((List.replicate n u).take n).map Update.write = List.replicate n u.write := by
    rw [List.take_replicate, Nat.min_self, List.map_replicate]
  obtain ⟨hnil, hcurrent, -⟩ := splitWrites_replicate u.write n
  have hno : ¬ OverflowsIn (splitWrites (((List.replicate n u).take n).map Update.write)).1 := by
    rw [hwrites, hnil]
    exact not_overflowsIn_nil
  obtain ⟨ops, q, w', hsteps, hpos⟩ := exists_flushed h₀ fuel hno
  rw [hwrites, hcurrent, List.length_replicate] at hpos
  exact ⟨ops, q, w', hsteps, hpos⟩

/-- **The log outgrows the page** when one key is written 129 times. -/
theorem log_outgrows_page : ∃ w₀ ops q w',
    Db.construct 0 ⟨none, none, none⟩ = .ok (Buffer.empty, w₀) ∧
    Interleaved (updates 2 (List.replicate 129 (.put 1 1))) w₀ ops q w' ∧
    pageSize < w'.store.disk.logIo.pos ∧ ¬ WalWithinPage w'.store := by
  obtain ⟨w₀, hok, -⟩ := construct_new 0 ⟨none, none, none⟩
  obtain ⟨ops, q, w', hsteps, hpos⟩ := exists_flushed_replicate (.construct hok) 0 (.put 1 1) 129
  have hover : pageSize < w'.store.disk.logIo.pos := by
    rw [hpos]
    decide
  exact ⟨w₀, ops, q, w', hok, hsteps, hover, fun h => absurd h.within (Nat.not_le.2 hover)⟩

end GhostDB
