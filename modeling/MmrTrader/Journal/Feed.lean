import MmrTrader.Journal.Model
import MmrTrader.Lib.Aggregate

/-!
# Snapshot and feed tail

Executable model of the reading side of the journal (`trader/domain/feed_service.py`,
`trader/domain/snapshot_service.py`) next to its two kinds of writers:

* a **batch** (`mutate_batch_work`) holds `_write_lock` and `fenced_read_lock` from `BEGIN` to
  `COMMIT` and signals its highest cursor afterwards;
* a **control transaction** (`TradingControlStore.set`, `seed_in_tx`) takes no lock and never
  signals.

Both take a cursor from the sequence when they insert a row, which is before they commit.  Under
snapshot isolation no other transaction sees the row until then.

`FeedDb` is the database with the open transactions; `Consumer` is one client that starts from a
snapshot and calls `read_domain_events` again and again.  One call is four actions (`read`,
`wake`, `query`, `recheck`), between which anything may happen.
-/

set_option autoImplicit false

namespace MmrTrader.Journal

variable {V : Type}

/-- The committed tables, the sequence, the commit signal and the open transactions.
    `history` is a ghost: every row ever committed, also the compacted ones. -/
structure FeedDb (V : Type) where
  journal : List (JournalRow V)
  checkpoints : List CheckpointRecord
  seq : Nat
  latestCommittedCursor : Nat
  /-- Open write transactions; `true` when the transaction holds `_write_lock`. -/
  txs : List (Nat × Bool)
  /-- Rows inserted by open transactions, in the order in which their cursors were taken. -/
  uncommitted : List (Nat × JournalRow V)
  /-- Cursors of the recorded events that an open batch was answered with. -/
  replayed : List (Nat × Nat)
  /-- `_signal_commit` calls of committed batches that have not run yet. -/
  pending : List Nat
  history : List (JournalRow V)

def FeedDb.empty : FeedDb V := ⟨[], [], 0, 0, [], [], [], [], []⟩

inductive DbAction (V : Type) where
  | begin (id : Nat) (locked : Bool)
  | append (id : Nat) (eventId : String) (revision : Nat) (m : DomainMutation V) (receivedTs : Int)
  | replay (id : Nat) (cursor : Nat)
  | commit (id : Nat)
  | rollback (id : Nat)
  | signal (cursor : Nat)
  | compact (now completedAt : Int)
  | restart

def FeedDb.isOpen (d : FeedDb V) (id : Nat) : Bool := d.txs.any fun t => t.1 == id

/-- Does an open transaction hold the write lock? -/
def FeedDb.writeLocked (d : FeedDb V) : Bool := d.txs.any fun t => t.2

def FeedDb.rowsOf (d : FeedDb V) (id : Nat) : List (JournalRow V) :=
  (d.uncommitted.filter fun u => u.1 == id).map (·.2)

/-- Cursors of all events a transaction returned, new and replayed. -/
def FeedDb.cursorsOf (d : FeedDb V) (id : Nat) : List Nat :=
  (d.rowsOf id).map (·.sourceCursor) ++ (d.replayed.filter fun u => u.1 == id).map (·.2)

/-- End a transaction: its uncommitted rows are gone from the open ones. -/
def FeedDb.close (d : FeedDb V) (id : Nat) : FeedDb V :=
  { d with
    txs := d.txs.filter fun t => !(t.1 == id)
    uncommitted := d.uncommitted.filter fun u => !(u.1 == id)
    replayed := d.replayed.filter fun u => !(u.1 == id) }

/-- One action of a writer, of the compactor or of the process; a disabled action does nothing. -/
def FeedDb.step (d : FeedDb V) : DbAction V → FeedDb V
  | .begin id locked =>
      if d.isOpen id || (locked && d.writeLocked) then d else { d with txs := d.txs ++ [(id, locked)] }
  | .append id eventId revision m receivedTs =>
      if d.isOpen id then
        { d with
          seq := d.seq + 1
          uncommitted := d.uncommitted ++ [(id, ⟨d.seq + 1, eventId, revision, m, receivedTs⟩)] }
      else d
  | .replay id cursor =>
      if d.isOpen id && (d.journal ++ d.rowsOf id).any fun r => r.sourceCursor == cursor then
        { d with replayed := d.replayed ++ [(id, cursor)] }
      else d
  | .commit id =>
      let locked := d.txs.any fun t => t.1 == id && t.2
      let signal := if locked && !(d.cursorsOf id).isEmpty then [(d.cursorsOf id).foldl max 0] else []
      { d.close id with
        journal := d.journal ++ d.rowsOf id
        history := d.history ++ d.rowsOf id
        pending := d.pending ++ signal }
  | .rollback id => d.close id
  | .signal cursor =>
      if cursor ∈ d.pending then
        { d with
          pending := d.pending.erase cursor
          latestCommittedCursor := signalCommit d.latestCommittedCursor cursor }
      else d
  | .compact now completedAt =>
      if d.writeLocked then d else
      let oldest := timeFloorCursor d.journal now
      { d with
        journal := d.journal.filter fun r => oldest ≤ r.sourceCursor
        checkpoints := d.checkpoints ++
          [⟨completedAt, newestCursor d.journal, oldest, readLatestBrokerGeneration d.checkpoints⟩] }
  | .restart =>
      { d with
        latestCommittedCursor := newestCursor d.journal
        txs := [], uncommitted := [], replayed := [], pending := [] }

/-! ## The reader -/

def MIN_LIMIT : Int := 1

def MAX_LIMIT : Int := 1000

def clamp (value lo hi : Int) : Int := max lo (min hi value)

def cursorOrder (a b : DomainEvent V) : Prop := a.sourceCursor ≤ b.sourceCursor

instance : DecidableRel (cursorOrder (V := V)) := fun a b =>
  inferInstanceAs (Decidable (a.sourceCursor ≤ b.sourceCursor))

instance : Std.Total (cursorOrder (V := V)) := ⟨fun a b => Nat.le_total a.sourceCursor b.sourceCursor⟩

instance : IsTrans (DomainEvent V) cursorOrder := ⟨fun _ _ _ => Nat.le_trans⟩

/-- The rows behind `after_cursor`, ordered. -/
def eventsAfter (journal : List (JournalRow V)) (afterCursor : Nat) : List (DomainEvent V) :=
  ((journal.filter fun r => afterCursor < r.sourceCursor).map JournalRow.toEvent).insertionSort cursorOrder

def readAfter (journal : List (JournalRow V)) (afterCursor : Nat) (limit : Nat) : List (DomainEvent V) :=
  (eventsAfter journal afterCursor).take limit

/-- The predicate of `_raise_if_expired`, on the newest checkpoint row. -/
def isExpired (checkpoints : List CheckpointRecord) (afterCursor : Nat) : Bool :=
  match checkpoints.getLast? with
  | none => false
  | some c => afterCursor < c.oldestRetainedCursor

/-- Where a `read_domain_events` call stands. -/
inductive Phase (V : Type) where
  | idle
  | waiting (limit : Nat)
  | woken (limit : Nat) (cursorAtWake : Nat)
  | queried (cursorAtWake : Nat) (events : List (DomainEvent V))
  /-- `CursorExpired` was raised. -/
  | expired

/-- A client of the feed.  `since` (every event committed after its snapshot) and `delivered`
    (every event it was given) are ghosts. -/
structure Consumer (V : Type) where
  after : Nat
  phase : Phase V
  since : List (DomainEvent V)
  delivered : List (DomainEvent V)

structure FeedState (V : Type) where
  db : FeedDb V
  consumer : Option (Consumer V)

inductive FeedAction (V : Type) where
  | db (a : DbAction V)
  /-- `snapshot_with_cursor`. -/
  | snapshot
  /-- `read_domain_events` up to the first expiry check. -/
  | read (limit : Int)
  /-- `wait_for_cursor_after` returns: woken, or at its deadline. -/
  | wake
  | query
  /-- The second expiry check and the reply. -/
  | recheck

def replyCursor (afterCursor cursorAtWake : Nat) (events : List (DomainEvent V)) : Nat :=
  match events.getLast? with
  | some e => e.sourceCursor
  | none => max afterCursor cursorAtWake

/-- One action of the client's side of a call. -/
def Consumer.step (d : FeedDb V) (c : Consumer V) : FeedAction V → Consumer V
  | .read limit =>
      match c.phase with
      | .idle =>
          if isExpired d.checkpoints c.after then { c with phase := .expired }
          else { c with phase := .waiting (clamp limit MIN_LIMIT MAX_LIMIT).toNat }
      | _ => c
  | .wake =>
      match c.phase with
      | .waiting limit => { c with phase := .woken limit d.latestCommittedCursor }
      | _ => c
  | .query =>
      match c.phase with
      | .woken limit wake => { c with phase := .queried wake (readAfter d.journal c.after limit) }
      | _ => c
  | .recheck =>
      match c.phase with
      | .queried wake events =>
          if isExpired d.checkpoints c.after then { c with phase := .expired }
          else { c with
                 after := replyCursor c.after wake events
                 phase := .idle
                 delivered := c.delivered ++ events }
      | _ => c
  | _ => c

def DbAction.committed (d : FeedDb V) : DbAction V → List (DomainEvent V)
  | .commit id => (d.rowsOf id).map JournalRow.toEvent
  | _ => []

/-- The whole system.  A snapshot waits for `fenced_read_lock`, so no batch is open under it; it
    reads `MAX(source_cursor)` and the client starts over from there.  A restart of the process
    ends the call in flight, not the client. -/
def feedStep (s : FeedState V) : FeedAction V → FeedState V
  | .db a =>
      { db := s.db.step a
        consumer := s.consumer.map fun c =>
          { c with
            since := c.since ++ a.committed s.db
            phase := match a, c.phase with
              | .restart, .expired => .expired
              | .restart, _ => .idle
              | _, phase => phase } }
  | .snapshot =>
      if s.db.writeLocked then s
      else { s with consumer := some ⟨newestCursor s.db.journal, .idle, [], []⟩ }
  | a => { s with consumer := s.consumer.map fun c => c.step s.db a }

/-- A fresh journal and no client yet. -/
def FeedState.init : FeedState V := ⟨.empty, none⟩

/-- No open transaction holds a cursor below one that is already committed. -/
def NoneOvertaken (d : FeedDb V) : Prop :=
  ∀ u ∈ d.uncommitted, ∀ r ∈ d.journal, r.sourceCursor < u.2.sourceCursor

instance (d : FeedDb V) : Decidable (NoneOvertaken d) :=
  inferInstanceAs (Decidable (∀ u ∈ d.uncommitted, ∀ r ∈ d.journal, r.sourceCursor < u.2.sourceCursor))

end MmrTrader.Journal

/-!
## What the database guarantees a reader

* `FeedInv` — the invariant of the database under every interleaving of writers and compactions,
  overtaken cursors included;
* `Change` — what one action can do to the parts a reader depends on.  Everything proved about
  consumers uses `step_change` and never looks into `FeedDb.step` again.
-/

namespace MmrTrader.Journal

open MmrTrader.Lib

variable {V : Type}

/-- The highest retention point any compaction ever recorded. -/
def highestFloor (checkpoints : List CheckpointRecord) : Nat :=
  checkpoints.foldl (fun c r => max c r.oldestRetainedCursor) 0

def FeedDb.openRows (d : FeedDb V) : List (JournalRow V) := d.uncommitted.map (·.2)

structure FeedInv (d : FeedDb V) : Prop where
  distinct : ((d.history ++ d.openRows).map (·.sourceCursor)).Nodup
  bounded : ∀ r ∈ d.history ++ d.openRows, 0 < r.sourceCursor ∧ r.sourceCursor ≤ d.seq
  kept : d.journal.Sublist d.history
  compacted : ∀ r ∈ d.history, r ∈ d.journal ∨ r.sourceCursor < highestFloor d.checkpoints
  newest : ∀ r ∈ d.history, r.sourceCursor ≤ newestCursor d.journal
  floor_le : highestFloor d.checkpoints ≤ newestCursor d.journal
  floor : highestFloor d.checkpoints = 0 ∨ ∃ c, d.checkpoints.getLast? = some c ∧
    ∃ r ∈ d.journal, r.sourceCursor = c.oldestRetainedCursor
  signals : ∀ c ∈ d.latestCommittedCursor :: d.pending, c ≤ newestCursor d.journal
  replayed : ∀ u ∈ d.replayed, u.2 ≤ newestCursor d.journal ∨ ∃ r ∈ d.rowsOf u.1, r.sourceCursor = u.2

theorem FeedInv.empty : FeedInv (FeedDb.empty : FeedDb V) :=
  ⟨by simp [FeedDb.empty, FeedDb.openRows], by simp [FeedDb.empty, FeedDb.openRows], List.Sublist.refl _,
    by simp [FeedDb.empty], by simp [FeedDb.empty], Nat.le_refl _, Or.inl rfl,
    by simp [FeedDb.empty], by simp [FeedDb.empty]⟩

/-- What one action does to the parts a reader depends on: `new` are the rows it commits. -/
structure Change (d d' : FeedDb V) (new : List (JournalRow V)) : Prop where
  history : d'.history = d.history ++ new
  committed : ∀ r ∈ new, r ∈ d.openRows
  opened : ∀ r ∈ d'.openRows, r ∈ d.openRows ∨ r.sourceCursor = d.seq + 1
  newest : newestCursor d.journal ≤ newestCursor d'.journal
  floor : highestFloor d.checkpoints ≤ highestFloor d'.checkpoints
  journal : ∀ r ∈ d'.journal, r ∈ d.journal ∨ r ∈ new
  raised : highestFloor d.checkpoints < highestFloor d'.checkpoints →
    ∀ r ∈ d'.journal, highestFloor d'.checkpoints ≤ r.sourceCursor

/-! ## Small facts -/

variable {journal : List (JournalRow V)}

theorem le_newestCursor {r : JournalRow V} (h : r ∈ journal) :
    r.sourceCursor ≤ newestCursor journal := le_foldl_max h 0

theorem newestCursor_mono {journal' : List (JournalRow V)} (h : journal ⊆ journal') :
    newestCursor journal ≤ newestCursor journal' :=
  foldl_max_le_iff.mpr ⟨Nat.zero_le _, fun _ hr => le_newestCursor (h hr)⟩

variable {d : FeedDb V}

theorem newestCursor_le_seq (h : FeedInv d) : newestCursor d.journal ≤ d.seq :=
  foldl_max_le_iff.mpr ⟨Nat.zero_le _, fun r hr =>
    (h.bounded r (List.mem_append_left _ (h.kept.subset hr))).2⟩

theorem timeFloorCursor_mem (journal : List (JournalRow V)) (now : Int) :
    timeFloorCursor journal now = 0 ∧ newestCursor journal = 0 ∨
      ∃ r ∈ journal, r.sourceCursor = timeFloorCursor journal now := by
  unfold timeFloorCursor
  cases hmin : minCursorWhere journal fun r => decide (now - RETENTION_FLOOR ≤ r.receivedTimestamp) with
  | none =>
    rcases foldl_max_attained (fun r : JournalRow V => r.sourceCursor) journal 0 with h | h
    · exact Or.inl ⟨h, h⟩
    · exact Or.inr h
  | some c =>
    obtain ⟨hc, -⟩ := List.min?_eq_some_iff.mp hmin
    obtain ⟨r, hr, hrc⟩ := List.mem_map.mp hc
    exact Or.inr ⟨r, (List.mem_filter.mp hr).1, hrc⟩

theorem timeFloorCursor_le (journal : List (JournalRow V)) (now : Int) :
    timeFloorCursor journal now ≤ newestCursor journal := by
  rcases timeFloorCursor_mem journal now with ⟨h, -⟩ | ⟨r, hr, h⟩
  · exact h ▸ Nat.zero_le _
  · exact h ▸ le_newestCursor hr

theorem newestCursor_compact (journal : List (JournalRow V)) (now : Int) :
    newestCursor (journal.filter fun r => decide (timeFloorCursor journal now ≤ r.sourceCursor)) =
      newestCursor journal := by
  refine Nat.le_antisymm (newestCursor_mono List.filter_sublist.subset) ?_
  rcases foldl_max_attained (fun r : JournalRow V => r.sourceCursor) journal 0 with h | ⟨r, hr, h⟩
  · unfold newestCursor at *
    rw [h]
    exact Nat.zero_le _
  · have hle : timeFloorCursor journal now ≤ r.sourceCursor := h ▸ timeFloorCursor_le _ now
    calc newestCursor journal = r.sourceCursor := h.symm
      _ ≤ _ := le_newestCursor (List.mem_filter.mpr ⟨hr, by simpa using hle⟩)

theorem highestFloor_append (cps : List CheckpointRecord) (c : CheckpointRecord) :
    highestFloor (cps ++ [c]) = max (highestFloor cps) c.oldestRetainedCursor := by
  simp [highestFloor]

theorem rowsOf_subset (d : FeedDb V) (id : Nat) : d.rowsOf id ⊆ d.openRows := by
  intro r hr
  obtain ⟨u, hu, rfl⟩ := List.mem_map.mp hr
  exact List.mem_map_of_mem (List.mem_filter.mp hu).1

theorem close_openRows_sublist (d : FeedDb V) (id : Nat) : (d.close id).openRows.Sublist d.openRows :=
  List.filter_sublist.map _

theorem openRows_perm (d : FeedDb V) (id : Nat) : (d.rowsOf id ++ (d.close id).openRows).Perm d.openRows := by
  simp only [FeedDb.rowsOf, FeedDb.openRows, FeedDb.close, ← List.map_append]
  exact (List.filter_append_perm (fun u : Nat × JournalRow V => u.1 == id) d.uncommitted).map _

theorem rowsOf_close {id other : Nat} (h : other ≠ id) : (d.close id).rowsOf other = d.rowsOf other := by
  simp only [FeedDb.rowsOf, FeedDb.close, List.filter_filter]
  congr 1
  refine List.filter_congr fun u _ => ?_
  by_cases hu : u.1 = other <;> simp_all

/-! ## The invariant and the change of one action -/

theorem FeedInv.close (h : FeedInv d) (id : Nat) : FeedInv (d.close id) where
  distinct := h.distinct.sublist ((List.Sublist.append (List.Sublist.refl _) (close_openRows_sublist d id)).map _)
  bounded := fun r hr => h.bounded r
    ((List.Sublist.append (List.Sublist.refl _) (close_openRows_sublist d id)).subset hr)
  kept := h.kept
  compacted := h.compacted
  newest := h.newest
  floor_le := h.floor_le
  floor := h.floor
  signals := h.signals
  replayed := by
    intro u hu
    obtain ⟨hu, hid⟩ := List.mem_filter.mp hu
    rw [rowsOf_close (by simpa using hid)]
    exact h.replayed u hu

theorem cursorsOf_le (h : FeedInv d) (id : Nat) {c : Nat} (hc : c ∈ d.cursorsOf id) :
    c ≤ newestCursor (d.journal ++ d.rowsOf id) := by
  have hrow : ∀ r ∈ d.rowsOf id, r.sourceCursor ≤ newestCursor (d.journal ++ d.rowsOf id) :=
    fun r hr => le_newestCursor (List.mem_append_right _ hr)
  rcases List.mem_append.mp hc with hc | hc
  · obtain ⟨r, hr, rfl⟩ := List.mem_map.mp hc
    exact hrow r hr
  · obtain ⟨u, hu, rfl⟩ := List.mem_map.mp hc
    obtain ⟨hu, hid⟩ := List.mem_filter.mp hu
    have hid : u.1 = id := by simpa using hid
    rcases h.replayed u hu with hle | ⟨r, hr, hrc⟩
    · exact hle.trans (newestCursor_mono (List.subset_append_left _ _))
    · exact hrc ▸ hrow r (hid ▸ hr)

theorem FeedInv.commit (h : FeedInv d) (id : Nat) : FeedInv (d.step (.commit id)) := by
  have hmono : newestCursor d.journal ≤ newestCursor (d.journal ++ d.rowsOf id) :=
    newestCursor_mono (List.subset_append_left _ _)
  have hperm : (d.history ++ d.rowsOf id ++ (d.close id).openRows).Perm (d.history ++ d.openRows) := by
    rw [List.append_assoc]
    exact (openRows_perm d id).append_left _
  refine ⟨?_, ?_, ?_, ?_, ?_, ?_, ?_, ?_, ?_⟩
  · exact (hperm.map _).nodup_iff.mpr h.distinct
  · exact fun r hr => h.bounded r (hperm.subset hr)
  · exact h.kept.append (List.Sublist.refl _)
  · intro r hr
    rcases List.mem_append.mp hr with hr | hr
    · exact (h.compacted r hr).imp_left (List.mem_append_left _)
    · exact Or.inl (List.mem_append_right _ hr)
  · intro r hr
    rcases List.mem_append.mp hr with hr | hr
    · exact (h.newest r hr).trans hmono
    · exact le_newestCursor (List.mem_append_right _ hr)
  · exact h.floor_le.trans hmono
  · exact h.floor.imp_right fun ⟨c, hc, r, hr, hrc⟩ => ⟨c, hc, r, List.mem_append_left _ hr, hrc⟩
  · intro c hc
    simp only [FeedDb.step, List.mem_cons, List.mem_append] at hc
    rcases hc with hc | hc | hc
    · exact (h.signals c (by simp [hc, FeedDb.close])).trans hmono
    · exact (h.signals c (by simp [hc])).trans hmono
    · split at hc
      · rw [List.mem_singleton.mp hc]
        exact foldl_max_le_iff.mpr ⟨Nat.zero_le _, fun _ hx => cursorsOf_le h id hx⟩
      · cases hc
  · intro u hu
    exact ((h.close id).replayed u hu).imp_left fun hle => hle.trans hmono

theorem FeedInv.compact (h : FeedInv d) (now completedAt : Int) : FeedInv (d.step (.compact now completedAt)) := by
  unfold FeedDb.step
  dsimp only
  split
  · exact h
  have hsub : (d.journal.filter fun r => decide (timeFloorCursor d.journal now ≤ r.sourceCursor)).Sublist
      d.journal := List.filter_sublist
  have hnew := newestCursor_compact d.journal now
  refine ⟨h.distinct, h.bounded, hsub.trans h.kept, ?_, ?_, ?_, ?_, ?_, ?_⟩
  · intro r hr
    rw [highestFloor_append]
    rcases h.compacted r hr with hj | hlt
    · by_cases hle : timeFloorCursor d.journal now ≤ r.sourceCursor
      · exact Or.inl (List.mem_filter.mpr ⟨hj, by simpa using hle⟩)
      · exact Or.inr (lt_of_lt_of_le (Nat.lt_of_not_le hle) (Nat.le_max_right _ _))
    · exact Or.inr (lt_of_lt_of_le hlt (Nat.le_max_left _ _))
  · intro r hr
    rw [hnew]
    exact h.newest r hr
  · rw [hnew, highestFloor_append]
    exact Nat.max_le.mpr ⟨h.floor_le, timeFloorCursor_le _ now⟩
  · rw [highestFloor_append]
    rcases timeFloorCursor_mem d.journal now with ⟨h0, hn⟩ | ⟨r, hr, hrc⟩
    · have hle := h.floor_le
      exact Or.inl (by dsimp only; omega)
    · exact Or.inr ⟨_, List.getLast?_concat, r, List.mem_filter.mpr ⟨hr, by simp [hrc]⟩, hrc⟩
  · intro c hc
    rw [hnew]
    exact h.signals c hc
  · intro u hu
    rw [hnew]
    exact h.replayed u hu

/-- **One action keeps the invariant.** -/
theorem FeedInv.step (h : FeedInv d) (a : DbAction V) : FeedInv (d.step a) := by
  cases a with
  | begin id locked =>
    simp only [FeedDb.step]
    split
    · exact h
    · exact { h with }
  | append id eventId revision m ts =>
    simp only [FeedDb.step]
    split
    · set row : JournalRow V := ⟨d.seq + 1, eventId, revision, m, ts⟩ with hrow
      have hopen : ({ d with seq := d.seq + 1, uncommitted := d.uncommitted ++ [(id, row)] } : FeedDb V).openRows
          = d.openRows ++ [row] := by simp [FeedDb.openRows]
      refine ⟨?_, ?_, h.kept, h.compacted, h.newest, h.floor_le, h.floor, h.signals, ?_⟩
      · rw [hopen, ← List.append_assoc, List.map_append, List.nodup_append]
        refine ⟨h.distinct, by simp, ?_⟩
        intro a ha b hb
        obtain ⟨r, hr, rfl⟩ := List.mem_map.mp ha
        have hr := (h.bounded r hr).2
        simp only [hrow, List.map_cons, List.map_nil, List.mem_singleton] at hb
        omega
      · rw [hopen, ← List.append_assoc]
        intro r hr
        rcases List.mem_append.mp hr with hr | hr
        · exact (h.bounded r hr).imp_right Nat.le_succ_of_le
        · simp only [List.mem_singleton] at hr
          simp [hr, hrow]
      · intro u hu
        rcases h.replayed u hu with hle | ⟨r, hr, hrc⟩
        · exact Or.inl hle
        · refine Or.inr ⟨r, ?_, hrc⟩
          simp only [FeedDb.rowsOf, List.filter_append, List.map_append]
          exact List.mem_append_left _ hr
    · exact h
  | replay id cursor =>
    simp only [FeedDb.step]
    split
    · rename_i hany
      simp only [Bool.and_eq_true, List.any_eq_true, beq_iff_eq] at hany
      obtain ⟨-, r, hr, hrc⟩ := hany
      refine ⟨h.distinct, h.bounded, h.kept, h.compacted, h.newest, h.floor_le, h.floor, h.signals, ?_⟩
      intro u hu
      rcases List.mem_append.mp hu with hu | hu
      · exact h.replayed u hu
      · rw [List.mem_singleton.mp hu]
        rcases List.mem_append.mp hr with hr | hr
        · exact Or.inl (hrc ▸ le_newestCursor hr)
        · exact Or.inr ⟨r, hr, hrc⟩
    · exact h
  | commit id => exact h.commit id
  | rollback id => exact h.close id
  | signal cursor =>
    simp only [FeedDb.step]
    split
    · rename_i hmem
      refine ⟨h.distinct, h.bounded, h.kept, h.compacted, h.newest, h.floor_le, h.floor, ?_, h.replayed⟩
      intro c hc
      rcases List.mem_cons.mp hc with rfl | hc
      · unfold signalCommit
        split
        · exact h.signals cursor (List.mem_cons_of_mem _ hmem)
        · exact h.signals _ List.mem_cons_self
      · exact h.signals c (List.mem_cons_of_mem _ (List.mem_of_mem_erase hc))
    · exact h
  | compact now completedAt => exact h.compact now completedAt
  | restart =>
    have hsub : (d.history ++ []).Sublist (d.history ++ d.openRows) :=
      List.Sublist.append (List.Sublist.refl _) (List.nil_sublist _)
    refine ⟨h.distinct.sublist (hsub.map _), fun r hr => h.bounded r (hsub.subset hr), h.kept,
      h.compacted, h.newest, h.floor_le, h.floor, ?_, ?_⟩
    · intro c hc
      simp only [FeedDb.step, List.mem_singleton] at hc
      exact hc.le
    · intro u hu
      cases hu

theorem Change.refl (d : FeedDb V) : Change d d [] :=
  ⟨by simp, by simp, fun _ hr => Or.inl hr, Nat.le_refl _, Nat.le_refl _, fun _ hr => Or.inl hr,
    fun hlt => absurd hlt (Nat.lt_irrefl _)⟩

/-- An action that leaves the tables alone and opens no new row. -/
theorem Change.frame {d' : FeedDb V} (hj : d'.journal = d.journal) (hc : d'.checkpoints = d.checkpoints)
    (hh : d'.history = d.history) (ho : d'.openRows ⊆ d.openRows) : Change d d' [] :=
  ⟨by simp [hh], by simp, fun _ hr => Or.inl (ho hr), hj ▸ Nat.le_refl _, hc ▸ Nat.le_refl _,
    fun _ hr => Or.inl (hj ▸ hr), fun hlt => absurd (hc ▸ hlt) (Nat.lt_irrefl _)⟩

def DbAction.newRows (d : FeedDb V) : DbAction V → List (JournalRow V)
  | .commit id => d.rowsOf id
  | _ => []

/-- **What one action can do.** -/
theorem step_change (d : FeedDb V) (a : DbAction V) : Change d (d.step a) (a.newRows d) := by
  cases a with
  | begin id locked =>
    simp only [FeedDb.step]
    split
    · exact Change.refl d
    · exact Change.frame rfl rfl rfl (List.Subset.refl _)
  | append id eventId revision m ts =>
    simp only [FeedDb.step]
    split
    · refine ⟨by simp [DbAction.newRows], by simp [DbAction.newRows], ?_, Nat.le_refl _, Nat.le_refl _,
        fun _ hr => Or.inl hr, fun hlt => absurd hlt (Nat.lt_irrefl _)⟩
      intro r hr
      simp only [FeedDb.openRows, List.map_append, List.mem_append] at hr
      refine hr.imp_right fun hr => ?_
      simp only [List.map_cons, List.map_nil, List.mem_singleton] at hr
      rw [hr]
    · exact Change.refl d
  | replay id cursor =>
    simp only [FeedDb.step]
    split
    · exact Change.frame rfl rfl rfl (List.Subset.refl _)
    · exact Change.refl d
  | commit id =>
    exact ⟨rfl, rowsOf_subset d id, fun r hr => Or.inl ((close_openRows_sublist d id).subset hr),
      newestCursor_mono (List.subset_append_left _ _), Nat.le_refl _,
      fun r hr => List.mem_append.mp hr, fun hlt => absurd hlt (Nat.lt_irrefl _)⟩
  | rollback id => exact Change.frame rfl rfl rfl (close_openRows_sublist d id).subset
  | signal cursor =>
    simp only [FeedDb.step]
    split
    · exact Change.frame rfl rfl rfl (List.Subset.refl _)
    · exact Change.refl d
  | compact now completedAt =>
    simp only [FeedDb.step]
    split
    · exact Change.refl d
    · refine ⟨by simp [DbAction.newRows], by simp [DbAction.newRows], fun _ hr => Or.inl hr,
        (newestCursor_compact d.journal now).ge, ?_, fun r hr => Or.inl (List.mem_filter.mp hr).1, ?_⟩
      · rw [highestFloor_append]
        exact Nat.le_max_left _ _
      · rw [highestFloor_append]
        intro hlt r hr
        have hle := (List.mem_filter.mp hr).2
        simp only [decide_eq_true_eq] at hle
        dsimp only at hlt ⊢
        omega
  | restart => exact Change.frame rfl rfl rfl (by simp [FeedDb.step, FeedDb.openRows])

end MmrTrader.Journal
