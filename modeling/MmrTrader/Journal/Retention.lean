import MmrTrader.Journal.FeedComplete

/-!
# What compaction may delete

* `compactWith` — one call of `compact`, with its result and the cursors of the clients.
* `CompactionPromise` — what one call deletes and records.
* `NoneBelow` — no append in flight holds a cursor below the retention point that the call records.
* `late_append_lowers_floor` — a control transaction that takes its cursor before a compaction and commits after it;
  `compaction_keeps_required` — every call keeps its promise, and the floors rise in runs whose compactions meet the
  condition.
-/

namespace MmrTrader.Journal

open MmrTrader.Lib

variable {V : Type}

structure CompactionResult where
  oldestRetainedCursor : Nat
  newestCursor : Nat
  deletedCount : Nat
  completedAt : Int
  deriving DecidableEq

/-- `compact(now, active_cursors)`, once it has both locks. -/
def FeedDb.compactWith (d : FeedDb V) (now completedAt : Int) (_activeCursors : List (String × Nat)) :
    CompactionResult × FeedDb V :=
  let newest := Journal.newestCursor d.journal
  let timeFloor :=
    match minCursorWhere d.journal fun r => now - RETENTION_FLOOR ≤ r.receivedTimestamp with
    | some cursor => cursor
    | none => newest
  let deleted := d.journal.filter fun r => r.sourceCursor < timeFloor
  (⟨timeFloor, newest, deleted.length, completedAt⟩,
    { d with
      journal := d.journal.filter fun r => !decide (r.sourceCursor < timeFloor)
      checkpoints := d.checkpoints ++
        [⟨completedAt, newest, timeFloor, readLatestBrokerGeneration d.checkpoints⟩] })

/-- A database with these events, no checkpoint and no transaction. -/
def FeedDb.ofJournal (journal : List (JournalRow V)) (seq : Nat) : FeedDb V :=
  ⟨journal, [], seq, newestCursor journal, [], [], [], [], journal⟩

def FeedDb.floors (d : FeedDb V) : List Nat := d.checkpoints.map (·.oldestRetainedCursor)

/-! ## One call -/

structure CompactionPromise (d : FeedDb V) (now : Int) (result : CompactionResult) (d' : FeedDb V) : Prop where
  recent : ∀ r ∈ d.journal, now - RETENTION_FLOOR ≤ r.receivedTimestamp → r ∈ d'.journal
  newest : ∀ r ∈ d.journal, (∀ s ∈ d.journal, s.sourceCursor ≤ r.sourceCursor) → r ∈ d'.journal
  deleted : ∀ r ∈ d.journal, r ∉ d'.journal → r.sourceCursor < result.oldestRetainedCursor
  recorded : ∃ c, d'.checkpoints = d.checkpoints ++ [c] ∧ c.oldestRetainedCursor = result.oldestRetainedCursor ∧
    c.newestCursor = result.newestCursor
  floor : result.oldestRetainedCursor ≤ result.newestCursor
  newestCursor : (∃ r ∈ d.journal, r.sourceCursor = result.newestCursor) ∨ d.journal = [] ∧ result.newestCursor = 0

variable {d : FeedDb V}

theorem compactWith_floor (now completedAt : Int) (activeCursors : List (String × Nat)) :
    (d.compactWith now completedAt activeCursors).1.oldestRetainedCursor = timeFloorCursor d.journal now := by
  unfold FeedDb.compactWith timeFloorCursor
  cases minCursorWhere d.journal fun r => decide (now - RETENTION_FLOOR ≤ r.receivedTimestamp) <;> rfl

theorem compactWith_step (hlock : d.writeLocked = false) (now completedAt : Int) (activeCursors : List (String × Nat)) :
    (d.compactWith now completedAt activeCursors).2 = d.step (.compact now completedAt) := by
  have hkeep : ∀ n : Nat, (d.journal.filter fun r => !decide (r.sourceCursor < n)) =
      d.journal.filter fun r => decide (n ≤ r.sourceCursor) := by
    intro n
    refine List.filter_congr fun r _ => ?_
    rw [← decide_not]
    exact decide_eq_decide.mpr Nat.not_lt
  unfold FeedDb.step
  simp only [hlock, Bool.false_eq_true, if_false]
  rw [← hkeep, ← compactWith_floor now completedAt activeCursors]
  rfl

variable {now : Int}
variable {r : JournalRow V}

theorem timeFloorCursor_le_recent (hr : r ∈ d.journal)
    (hrecent : now - RETENTION_FLOOR ≤ r.receivedTimestamp) : timeFloorCursor d.journal now ≤ r.sourceCursor := by
  unfold timeFloorCursor minCursorWhere
  have hmem : r.sourceCursor ∈ (d.journal.filter fun r => decide (now - RETENTION_FLOOR ≤ r.receivedTimestamp)).map
      (·.sourceCursor) := List.mem_map_of_mem (List.mem_filter.mpr ⟨hr, decide_eq_true hrecent⟩)
  cases hmin : ((d.journal.filter fun r => decide (now - RETENTION_FLOOR ≤ r.receivedTimestamp)).map
      (·.sourceCursor)).min? with
  | none =>
    rw [List.min?_eq_none_iff.mp hmin] at hmem
    cases hmem
  | some c => exact (List.min?_eq_some_iff.mp hmin).2 _ hmem

variable {completedAt : Int}

theorem mem_compactWith {activeCursors : List (String × Nat)} :
    r ∈ (d.compactWith now completedAt activeCursors).2.journal ↔
      r ∈ d.journal ∧ timeFloorCursor d.journal now ≤ r.sourceCursor := by
  rw [← compactWith_floor now completedAt activeCursors]
  simp only [FeedDb.compactWith, List.mem_filter, Bool.not_eq_true', decide_eq_false_iff_not, Nat.not_lt]

theorem compactWith_promise (d : FeedDb V) (now completedAt : Int) (activeCursors : List (String × Nat)) :
    CompactionPromise d now (d.compactWith now completedAt activeCursors).1
      (d.compactWith now completedAt activeCursors).2 := by
  have hfloor := compactWith_floor (d := d) now completedAt activeCursors
  refine ⟨fun r hr hrecent => ?_, fun r hr hmax => ?_, fun r hr hnot => ?_, ⟨_, rfl, rfl, rfl⟩, ?_, ?_⟩
  · exact mem_compactWith.mpr ⟨hr, timeFloorCursor_le_recent hr hrecent⟩
  · refine mem_compactWith.mpr ⟨hr, Nat.le_trans (timeFloorCursor_le d.journal now) ?_⟩
    exact foldl_max_le_iff.mpr ⟨Nat.zero_le _, hmax⟩
  · rw [hfloor]
    by_contra hle
    exact hnot (mem_compactWith.mpr ⟨hr, Nat.not_lt.mp hle⟩)
  · rw [hfloor]
    exact timeFloorCursor_le d.journal now
  · rcases foldl_max_attained (fun r : JournalRow V => r.sourceCursor) d.journal 0 with h | ⟨r, hr, h⟩
    · cases hj : d.journal with
      | nil => exact Or.inr ⟨rfl, by simp [FeedDb.compactWith, Journal.newestCursor, hj]⟩
      | cons r rest =>
        have hle : r.sourceCursor ≤ Journal.newestCursor d.journal := le_newestCursor (hj ▸ List.mem_cons_self)
        have hzero : Journal.newestCursor d.journal = 0 := h
        refine Or.inl ⟨r, List.mem_cons_self, ?_⟩
        change _ = Journal.newestCursor d.journal
        omega
    · exact Or.inl ⟨r, hr, h⟩

/-- Nothing else deletes an event or records a floor. -/
theorem step_keeps (a : DbAction V) (h : ∀ now completedAt, a ≠ .compact now completedAt) :
    (∀ r ∈ d.journal, r ∈ (d.step a).journal) ∧ (d.step a).checkpoints = d.checkpoints := by
  cases a with
  | compact now completedAt => exact absurd rfl (h now completedAt)
  | commit id => exact ⟨fun r hr => List.mem_append_left _ hr, rfl⟩
  | rollback id => exact ⟨fun _ hr => hr, rfl⟩
  | restart => exact ⟨fun _ hr => hr, rfl⟩
  | begin id locked | append id eventId revision m ts | replay id cursor | signal cursor =>
    simp only [FeedDb.step]
    split
    · exact ⟨fun _ hr => hr, rfl⟩
    · exact ⟨fun _ hr => hr, rfl⟩

/-! ## The floors -/

/-- No append in flight holds a cursor below the retention point that the call records. -/
def NoneBelow (d : FeedDb V) : DbAction V → Prop
  | .compact now _ => d.writeLocked = false → ∀ u ∈ d.uncommitted, timeFloorCursor d.journal now ≤ u.2.sourceCursor
  | _ => True

instance (d : FeedDb V) : DecidablePred (NoneBelow d)
  | .compact _ _ => inferInstanceAs (Decidable (_ → ∀ u ∈ d.uncommitted, _))
  | .begin _ _ | .append _ _ _ _ _ | .replay _ _ | .commit _ | .rollback _ | .signal _ | .restart => .isTrue trivial

structure FloorInv (d : FeedDb V) : Prop where
  bounded : ∀ r ∈ d.journal ++ d.openRows, r.sourceCursor ≤ d.seq
  above : ∀ floor ∈ d.floors, ∀ r ∈ d.journal ++ d.openRows, floor ≤ r.sourceCursor
  newest : ∀ floor ∈ d.floors, floor ≤ newestCursor d.journal
  rising : d.floors.Pairwise (· ≤ ·)

theorem FloorInv.ofJournal {journal : List (JournalRow V)} {seq : Nat} (h : ∀ r ∈ journal, r.sourceCursor ≤ seq) :
    FloorInv (FeedDb.ofJournal journal seq) := by
  refine ⟨fun r hr => ?_, fun _ hf => absurd hf List.not_mem_nil, fun _ hf => absurd hf List.not_mem_nil, List.Pairwise.nil⟩
  rw [show (FeedDb.ofJournal journal seq).openRows = [] from rfl, List.append_nil] at hr
  exact h r hr

theorem FloorInv.newest_le_seq (h : FloorInv d) : newestCursor d.journal ≤ d.seq :=
  foldl_max_le_iff.mpr ⟨Nat.zero_le _, fun r hr => h.bounded r (List.mem_append_left _ hr)⟩

theorem FloorInv.shrink {d' : FeedDb V} (h : FloorInv d) (hseq : d'.seq = d.seq) (hfloors : d'.floors = d.floors)
    (hrows : ∀ r ∈ d'.journal ++ d'.openRows, r ∈ d.journal ++ d.openRows)
    (hnewest : newestCursor d.journal ≤ newestCursor d'.journal) : FloorInv d' := by
  refine ⟨fun r hr => hseq ▸ h.bounded r (hrows r hr), ?_, ?_, hfloors ▸ h.rising⟩
  · intro floor hf r hr
    exact h.above floor (hfloors ▸ hf) r (hrows r hr)
  · intro floor hf
    exact Nat.le_trans (h.newest floor (hfloors ▸ hf)) hnewest

theorem FloorInv.compact (h : FloorInv d) (hbelow : NoneBelow d (.compact now completedAt)) :
    FloorInv (d.step (.compact now completedAt)) := by
  unfold FeedDb.step
  dsimp only
  split
  · exact h
  rename_i hlock
  have hbelow := hbelow (Bool.eq_false_iff.mpr hlock)
  have hnew := newestCursor_compact d.journal now
  have hmem : ∀ r ∈ (d.journal.filter fun r => decide (timeFloorCursor d.journal now ≤ r.sourceCursor)) ++ d.openRows,
      r ∈ d.journal ++ d.openRows ∧ timeFloorCursor d.journal now ≤ r.sourceCursor := by
    intro r hr
    rcases List.mem_append.mp hr with hr | hr
    · obtain ⟨hr, hle⟩ := List.mem_filter.mp hr
      exact ⟨List.mem_append_left _ hr, of_decide_eq_true hle⟩
    · obtain ⟨u, hu, rfl⟩ := List.mem_map.mp hr
      exact ⟨List.mem_append_right _ hr, hbelow u hu⟩
  have hrise : ∀ floor ∈ d.floors, floor ≤ timeFloorCursor d.journal now := by
    intro floor hf
    rcases timeFloorCursor_mem d.journal now with ⟨hzero, hnewest⟩ | ⟨r, hr, heq⟩
    · have hle := h.newest floor hf
      omega
    · exact heq ▸ h.above floor hf r (List.mem_append_left _ hr)
  have hfloors : ∀ c : CheckpointRecord, (d.checkpoints ++ [c]).map (·.oldestRetainedCursor) =
      d.floors ++ [c.oldestRetainedCursor] := fun c => List.map_append
  refine ⟨fun r hr => h.bounded r (hmem r hr).1, ?_, ?_, ?_⟩
  · intro floor hf r hr
    rw [FeedDb.floors, hfloors] at hf
    rcases List.mem_append.mp hf with hf | hf
    · exact h.above floor hf r (hmem r hr).1
    · exact List.mem_singleton.mp hf ▸ (hmem r hr).2
  · intro floor hf
    rw [FeedDb.floors, hfloors] at hf
    rw [hnew]
    rcases List.mem_append.mp hf with hf | hf
    · exact h.newest floor hf
    · exact List.mem_singleton.mp hf ▸ timeFloorCursor_le d.journal now
  · rw [FeedDb.floors, hfloors]
    refine List.pairwise_append.mpr ⟨h.rising, List.pairwise_singleton _ _, fun floor hf last hl => ?_⟩
    exact List.mem_singleton.mp hl ▸ hrise floor hf

theorem FloorInv.step (d : FeedDb V) (a : DbAction V) (h : FloorInv d) (hbelow : NoneBelow d a) : FloorInv (d.step a) := by
  cases a with
  | begin id locked | replay id cursor | signal cursor =>
    simp only [FeedDb.step]
    split
    · exact h.shrink rfl rfl (fun _ hr => hr) (Nat.le_refl _)
    · exact h.shrink rfl rfl (fun _ hr => hr) (Nat.le_refl _)
  | append id eventId revision m ts =>
    simp only [FeedDb.step]
    split
    · let row : JournalRow V := ⟨d.seq + 1, eventId, revision, m, ts⟩
      have hnew : ∀ r ∈ d.journal ++ (d.uncommitted ++ [(id, row)]).map Prod.snd,
          r ∈ d.journal ++ d.openRows ∨ r.sourceCursor = d.seq + 1 := by
        intro r hr
        rw [List.map_append, ← List.append_assoc] at hr
        rcases List.mem_append.mp hr with hr | hr
        · exact Or.inl hr
        · exact Or.inr (congrArg JournalRow.sourceCursor (List.mem_singleton.mp hr))
      refine ⟨fun r hr => ?_, fun floor hf r hr => ?_, h.newest, h.rising⟩
      · rcases hnew r hr with hr | heq
        · exact Nat.le_succ_of_le (h.bounded r hr)
        · exact Nat.le_of_eq heq
      · rcases hnew r hr with hr | heq
        · exact h.above floor hf r hr
        · have hle := Nat.le_trans (h.newest floor hf) h.newest_le_seq
          omega
    · exact h
  | commit id =>
    refine h.shrink rfl rfl (fun r hr => ?_) (newestCursor_mono (List.subset_append_left _ _))
    rcases List.mem_append.mp hr with hr | hr
    · rcases List.mem_append.mp hr with hr | hr
      · exact List.mem_append_left _ hr
      · exact List.mem_append_right _ (rowsOf_subset d id hr)
    · exact List.mem_append_right _ ((close_openRows_sublist d id).subset hr)
  | rollback id =>
    refine h.shrink rfl rfl (fun r hr => ?_) (Nat.le_refl _)
    rcases List.mem_append.mp hr with hr | hr
    · exact List.mem_append_left _ hr
    · exact List.mem_append_right _ ((close_openRows_sublist d id).subset hr)
  | compact now completedAt => exact h.compact hbelow
  | restart =>
    refine h.shrink rfl rfl (fun r hr => ?_) (Nat.le_refl _)
    rcases List.mem_append.mp hr with hr | hr
    · exact List.mem_append_left _ hr
    · exact absurd hr List.not_mem_nil

/-- **Compaction.**  Whatever the journal held: in every state of a run, a call keeps what it must and deletes below the
    point it records, whatever the clients' cursors; nothing else deletes an event or records a point; and when no
    append in flight is below the point that a compaction records, the points only rise. -/
theorem compaction_keeps_required {journal : List (JournalRow V)} {seq : Nat} (hseq : ∀ r ∈ journal, r.sourceCursor ≤ seq)
    {acts : List (DbAction V)} (h : Meets FeedDb.step NoneBelow (FeedDb.ofJournal journal seq) acts)
    (pre : List (DbAction V)) (hpre : pre <+: acts) :
    let d := pre.foldl FeedDb.step (FeedDb.ofJournal journal seq)
    d.floors.Pairwise (· ≤ ·) ∧
      (∀ now completedAt activeCursors,
        CompactionPromise d now (d.compactWith now completedAt activeCursors).1
          (d.compactWith now completedAt activeCursors).2 ∧
        (d.writeLocked = false →
          (d.compactWith now completedAt activeCursors).2 = d.step (.compact now completedAt)) ∧
        ∀ otherCursors, d.compactWith now completedAt activeCursors = d.compactWith now completedAt otherCursors) ∧
      ∀ a, (∀ now completedAt, a ≠ .compact now completedAt) →
        (∀ r ∈ d.journal, r ∈ (d.step a).journal) ∧ (d.step a).checkpoints = d.checkpoints := by
  intro d
  have hinv : FloorInv d := (h.of_prefix hpre).invariant FloorInv.step (FloorInv.ofJournal hseq)
  refine ⟨hinv.rising, fun now completedAt activeCursors => ⟨compactWith_promise d now completedAt activeCursors,
    fun hlock => compactWith_step hlock now completedAt activeCursors, fun _ => rfl⟩, fun a ha => step_keeps a ha⟩

/-! ## Two runs -/

/-- A control transaction takes cursor 1; a batch commits cursor 2; compactions run before and after the control
    transaction commits. -/
def lateAppendRun : List (DbAction Unit) :=
  [.begin 1 false, .append 1 "trading_control:DU1:2" 1 pauseMutation 0, .begin 2 true,
    .append 2 "fill" 1 pauseMutation 0, .commit 2, .compact 0 0, .commit 1, .compact 0 0]

theorem late_append_lowers_floor :
    ¬ (lateAppendRun.foldl FeedDb.step (FeedDb.ofJournal [] 0)).floors.Pairwise (· ≤ ·) := by decide

/-- The compaction waits until the control transaction has ended. -/
def endedAppendRun : List (DbAction Unit) :=
  [.begin 1 false, .append 1 "trading_control:DU1:2" 1 pauseMutation 0, .begin 2 true,
    .append 2 "fill" 1 pauseMutation 0, .commit 2, .commit 1, .compact 0 0, .compact 3000000 0]

theorem compaction_keeps_required_ended :
    (endedAppendRun.foldl FeedDb.step (FeedDb.ofJournal [] 0)).floors.Pairwise (· ≤ ·) ∧
      (endedAppendRun.foldl FeedDb.step (FeedDb.ofJournal [] 0)).floors = [1, 2] := by
  have hmeets : Meets FeedDb.step NoneBelow (FeedDb.ofJournal [] 0) endedAppendRun := by decide
  exact ⟨(compaction_keeps_required (fun _ hr => absurd hr List.not_mem_nil) hmeets endedAppendRun
    (List.prefix_refl _)).1, by decide⟩

end MmrTrader.Journal
