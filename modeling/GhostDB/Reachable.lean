import GhostDB.FlushInterference

/-!
# The states of a database

The states between two calls of a client, whatever it called and wherever the
flush thread came in.

* `Db.Reachable` — these states.
* `At.of_put`, `At.of_read` — a call, interleaved with the flush thread, ends in
  a state of `GhostDB.Refinement`.
* `Db.Reachable.at` — so every reachable state is one.
* `exists_updates` — a short session of writes gets to one.
-/

namespace GhostDB

open Prog SortedTable

/-- **The states of a database** between two calls of its client, the flush
thread coming in at any time. -/
inductive Db.Reachable : World → Buffer → Prop
  /-- The constructor. -/
  | construct {fuel : Nat} {files : Files} {b : Buffer} {w : World}
      (ok : Db.construct fuel files = .ok (b, w)) : Reachable w b
  /-- The flush thread between two calls. -/
  | flush {w w' : World} {b : Buffer} (h : Reachable w b) (moves : w.flushThread w') :
      Reachable w' b
  /-- `Put`. -/
  | put {w w' : World} {b b' : Buffer} {fuel : Nat} {key : Key} {val : Val}
      {ops : List ClientSig.Op} (h : Reachable w b)
      (done : Interleaved (Db.put fuel b key val) w ops (.ret b') w') : Reachable w' b'
  /-- `Delete`. -/
  | delete {w w' : World} {b b' : Buffer} {fuel : Nat} {key : Key} {ops : List ClientSig.Op}
      (h : Reachable w b) (done : Interleaved (Db.delete fuel b key) w ops (.ret b') w') :
      Reachable w' b'
  /-- `Get`. -/
  | get {w w' : World} {b : Buffer} {key : Key} {found : Option Val} {ops : List ClientSig.Op}
      (h : Reachable w b) (done : Interleaved (Db.get b key) w ops (.ret found) w') :
      Reachable w' b
  /-- `GetRange`. -/
  | getRange {w w' : World} {b : Buffer} {key1 key2 : Key} {res res' : BufferMap}
      {ops : List ClientSig.Op} (h : Reachable w b)
      (done : Interleaved (Db.getRange b key1 key2 res) w ops (.ret res') w') : Reachable w' b

/-! ## Programs that only read -/

/-- Does the call change more than the position of a stream? -/
def ClientSig.isWrite : ClientSig.Op → Bool
  | .inl o => StoreOp.isWrite o
  | .inr (.request _) => true
  | .inr _ => false

theorem pure_abort {α : Type} (f : Fault) : Pure ClientSig.isWrite (abort f : Prog ClientSig α) :=
  ⟨rfl, fun r => nomatch r⟩

theorem pure_orAbort {α : Type} (x : Except Fault α) : Pure ClientSig.isWrite (orAbort x) := by
  cases x with
  | ok a => trivial
  | error f => exact pure_abort f

theorem isWrite_loadSSTable (level run : Nat) :
    Pure ClientSig.isWrite (onStore (SSTableManager.loadSSTable level run)) :=
  Pure.inl ⟨rfl, fun _ => trivial⟩

theorem pure_searchRun (key : Key) (levelNo runNo : Nat) :
    Pure ClientSig.isWrite (Db.searchRun key levelNo runNo) := by
  refine Pure.bind (isWrite_loadSSTable levelNo runNo) fun loaded => ?_
  cases loaded with
  | none => trivial
  | some x =>
    dsimp only
    split
    · split
      · exact pure_abort _
      · split <;> trivial
    · trivial

theorem pure_rangeRun (key1 key2 : Key) (levelNo runNo : Nat) (res : BufferMap) :
    Pure ClientSig.isWrite (Db.rangeRun key1 key2 levelNo runNo res) := by
  refine Pure.bind (isWrite_loadSSTable levelNo runNo) fun loaded => ?_
  cases loaded with
  | none => trivial
  | some x =>
    dsimp only
    split
    · split
      · trivial
      · exact Pure.bind (pure_orAbort _) fun _ => trivial
    · exact pure_abort _

/-- `Get` only reads. -/
theorem pure_get (b : Buffer) (key : Key) : Pure ClientSig.isWrite (Db.get b key) := by
  unfold Db.get
  cases b.get key with
  | some val => trivial
  | none =>
    refine Pure.bind ?_ fun _ => trivial
    exact Pure.firstSome (fun levelNo => Pure.firstSome (fun runNo => pure_searchRun ..) _) _

/-- So does `GetRange`. -/
theorem pure_getRange (b : Buffer) (key1 key2 : Key) (res : BufferMap) :
    Pure ClientSig.isWrite (Db.getRange b key1 key2 res) := by
  have hbuffer : Pure ClientSig.isWrite (b.getRange key1 key2 res) := by
    unfold Buffer.getRange
    split
    · exact pure_abort _
    · split
      · split
        · trivial
        · exact Pure.bind (pure_orAbort _) fun _ => trivial
      · exact pure_abort _
  unfold Db.getRange
  split
  · exact pure_abort _
  · refine Pure.bind hbuffer fun res => Pure.bind ?_ fun _ => trivial
    exact Pure.forUntil (fun levelNo res => Pure.forUntil (fun runNo res => pure_rangeRun ..) _ _)
      _ _

/-- `LoadSSTable` moves the stream of `sstable.db` at most. -/
theorem loadSSTable_withPos {s : Store} (hdb : PagedFile s.disk.dbIo) {level run : Nat}
    {x : Option (Bloom × SSTable) × Store} (ok : Level.loadSSTable s level run = .ok x) :
    ∃ p, x.2 = s.withPos p := by
  unfold Level.loadSSTable at ok
  split at ok
  · cases ok
    exact ⟨s.disk.dbIo.pos, rfl⟩
  next hflag =>
    obtain ⟨p, hread⟩ := readDb_spec hdb (getPageId level run)
    rw [Run.loadSSTable, if_neg hflag, hread] at ok
    dsimp only at ok
    cases hparse : (SSTablePage.ofData
        (pageAt s.disk.dbIo (getPageId level run))).parsePageData with
    | error e =>
      rw [hparse] at ok
      cases ok
    | ok y =>
      rw [hparse] at ok
      cases ok
      exact ⟨p, rfl⟩

/-- A call that only reads moves the stream of `sstable.db` at most. -/
theorem handle_of_read {o : ClientSig.Op} (ho : ClientSig.isWrite o = false) {w w' : World}
    {r : ClientSig.Res o} (hdb : PagedFile w.store.disk.dbIo)
    (ok : World.handle o w = .ok (r, w')) : ∃ p, w' = ⟨w.store.withPos p, w.flushed⟩ := by
  cases o with
  | inl o =>
    obtain ⟨s', hs, rfl⟩ := World.handle_inl_eq_ok ok
    cases o with
    | isEmpty level run =>
      cases hs
      exact ⟨w.store.disk.dbIo.pos, by simp [flushedBy, Store.withPos]⟩
    | loadSSTable level run =>
      obtain ⟨p, hp⟩ := loadSSTable_withPos (x := (r, s')) hdb hs
      exact ⟨p, by simp [flushedBy, ← hp]⟩
    | _ => exact absurd ho (by simp [ClientSig.isWrite, StoreOp.isWrite])
  | inr o =>
    cases o with
    | request kind => exact absurd ho (by simp [ClientSig.isWrite])
    | disable =>
      cases ok
      exact ⟨w.store.disk.dbIo.pos, rfl⟩
    | fault f => exact nomatch r

/-- **A program that only reads** moves the stream of `sstable.db` at most. -/
theorem run_of_read {α : Type} {p : Prog ClientSig α} (hp : Pure ClientSig.isWrite p)
    {w w' : World} {a : α} (hdb : PagedFile w.store.disk.dbIo)
    (ok : run World.handle p w = .ok (a, w')) : ∃ p, w' = ⟨w.store.withPos p, w.flushed⟩ := by
  refine run_invariant (I := fun v => ∃ p, v = ⟨w.store.withPos p, w.flushed⟩) ?_ hp
    ⟨_, rfl⟩ ok
  rintro o _ v r ho ⟨p, rfl⟩ hcall
  obtain ⟨q, rfl⟩ := handle_of_read (w := ⟨w.store.withPos p, w.flushed⟩) ho
    ⟨hdb.good, hdb.aligned⟩ hcall
  exact ⟨q, rfl⟩

namespace At

variable {ws : List MappingType} {w w' v : World} {b : Buffer}

/-- The state does not depend on what the log holds. -/
theorem of_sameRuns (h : At ws v b) (hsame : w.SameRuns v) (hlog : ∃ bs, LogState w.store bs) :
    At ws w b := by
  obtain ⟨_, log, logIo, rfl, _⟩ := hsame
  have hrep : Rep w.store (Slots.ofList (contents (layout w.flushed))) :=
    h.holds.rep.withLog w.store.log w.store.disk.logIo
  exact ⟨⟨hrep, h.holds.temp, hlog, h.holds.stray⟩, h.split⟩

theorem log (h : At ws w b) : w.store.log.Ok := by
  obtain ⟨bs, hok, _⟩ := h.holds.log
  exact hok

/-- An iteration of the flush thread. -/
theorem flushThread (h : At ws w b) (hflush : w.flushThread w') : At ws w' b :=
  h.of_sameRuns ((World.SameRuns.refl h.log).flushThread hflush)
    (logState_of_flushThread h.holds.log hflush)

/-- A call of the client, interleaved with the flush thread, leaves what it
leaves alone. -/
theorem of_interleaved {α : Type} {p : Prog ClientSig α} {a : α} {ops : List ClientSig.Op}
    {ws' : List MappingType} {b' : Buffer} (h : At ws w b)
    (hsteps : Interleaved p w ops (.ret a) w')
    (hrun : ∀ v, run World.handle p w = .ok (a, v) → At ws' v b') : At ws' w' b' := by
  obtain ⟨v, hv, hsame⟩ := hsteps.run_eq h.log
  exact (hrun v hv).of_sameRuns hsame (hsteps.logState h.holds.log)

/-- A write. -/
theorem of_run_put (h : At ws w b) {fuel : Nat} {key : Key} {val : Val} {b' : Buffer}
    (hrun : run World.handle (Db.put fuel b key val) w = .ok (b', v)) :
    At (ws ++ [(key, val)]) v b' := by
  -- the bound it ran under may be less than two
  have hmore := Db.run_put_succ _ (Db.run_put_succ _ hrun)
  rcases h.update (.put key val) fuel with ⟨_, _, herror⟩ | ⟨_, b₁, w₁, hok, hat⟩
  · exact nomatch hmore.symm.trans herror
  · cases hmore.symm.trans hok
    exact hat

/-- A read. -/
theorem of_run_read (h : At ws w b) {α : Type} {p : Prog ClientSig α} {a : α}
    (hp : Pure ClientSig.isWrite p) (hrun : run World.handle p w = .ok (a, v)) : At ws v b := by
  obtain ⟨q, rfl⟩ := run_of_read hp h.holds.rep.db hrun
  exact ⟨h.holds.withPos q, h.split⟩

end At

/-- **Every reachable state is the state after some writes.** -/
theorem Db.Reachable.at {w : World} {b : Buffer} (h : Db.Reachable w b) :
    ∃ ws, At ws w b := by
  induction h with
  | construct ok =>
    obtain ⟨w₀, hok, hat⟩ := construct_at _ _
    cases ok.symm.trans hok
    exact ⟨_, hat⟩
  | flush _ moves ih =>
    obtain ⟨ws, hat⟩ := ih
    exact ⟨ws, hat.flushThread moves⟩
  | put _ done ih =>
    obtain ⟨ws, hat⟩ := ih
    exact ⟨_, hat.of_interleaved done fun v hrun => hat.of_run_put hrun⟩
  | delete _ done ih =>
    obtain ⟨ws, hat⟩ := ih
    exact ⟨_, hat.of_interleaved done fun v hrun => hat.of_run_put hrun⟩
  | get _ done ih =>
    obtain ⟨ws, hat⟩ := ih
    exact ⟨_, hat.of_interleaved done fun v hrun => hat.of_run_read (pure_get _ _) hrun⟩
  | getRange _ done ih =>
    obtain ⟨ws, hat⟩ := ih
    exact ⟨_, hat.of_interleaved done fun v hrun => hat.of_run_read (pure_getRange _ _ _ _) hrun⟩

/-- A client that runs alone gets to reachable states. -/
theorem Db.Reachable.updates {w₀ : World} (h₀ : Db.Reachable w₀ Buffer.empty) (fuel : Nat)
    (us : List Update) : ∀ {b : Buffer} {w : World},
      run World.handle (updates fuel us) w₀ = .ok (b, w) → Db.Reachable w b := by
  induction us using List.reverseRecOn with
  | nil =>
    intro b w hrun
    cases hrun
    exact h₀
  | append_singleton us u ih =>
    intro b w hrun
    rw [updates_concat] at hrun
    obtain ⟨b₁, w₁, hfirst, hlast⟩ := run_bind_eq_ok hrun
    rw [u.prog_eq] at hlast
    exact .put (ih hfirst) (Steps.of_run hlast)

/-- Writes that flush at most fifteen memtables get to a reachable state. -/
theorem exists_updates (fuel : Nat) (files : Files) (us : List Update)
    (hlen : (splitWrites (us.map Update.write)).1.length ≤ 15) :
    ∃ w₀ b w, Db.construct fuel files = .ok (Buffer.empty, w₀) ∧
      run World.handle (updates (fuel + 2) us) w₀ = .ok (b, w) ∧ Db.Reachable w b ∧
      At (us.map Update.write) w b := by
  obtain ⟨w₀, ok, hat₀⟩ := construct_at fuel files
  rcases updates_spec hat₀ fuel us with ⟨hover, -⟩ | ⟨-, b, w, hrun, hat⟩
  · exact absurd hover (not_overflowsIn_of_length_le hlen)
  · exact ⟨w₀, b, w, ok, hrun, (Db.Reachable.construct ok).updates _ us hrun, hat⟩

end GhostDB
