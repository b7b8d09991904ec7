import Mathlib.Data.List.Chain
import MmrTrader.Experiment.Store

/-!
# What every run of the experiment store keeps

* `Outcome`, `step_outcome` — everything a call can do to the three tables.
* `Linked` — the invariant of a state: the `experiment_active` rows name the experiments that are
  not stopped, and each experiment's transitions are a chain that ends in its record.
* `Later` — what a later state keeps of an earlier one.
* `experiment_store_sound` — both, over every sequence of calls.
-/

namespace MmrTrader.Experiment

open MmrTrader.Lib

/-! ## The outcome of a call -/

/-- Everything a call can do to the tables. -/
inductive Outcome (now : Int) (db db' : ExperimentDb) : Prop where
  | same (h : db' = db)
  | armed (record : ExperimentRecord) (row : TransitionRow)
      (hfresh : db.experiments.get? record.experimentId.val = none)
      (hnone : db.active.get? record.accountId.val = none)
      (hstate : record.state = .ARMED) (hrev : record.revision = 1)
      (hrow : row.experimentId = record.experimentId.val ∧ row.revision = 1 ∧ row.fromState = none ∧
        row.toState = .ARMED)
      (hexp : db'.experiments.rows = db.experiments.rows ++ [{ record with updatedAt := now }])
      (hactive : db'.active.rows = db.active.rows ++ [⟨record.accountId.val, record.experimentId.val⟩])
      (htrans : db'.transitions.rows = db.transitions.rows ++ [row])
  | moved (current : ExperimentRow) (updated : ExperimentRecord) (row : TransitionRow)
      (hmem : current ∈ db.experiments.rows)
      (hallowed : (current.state, updated.state) ∈ ALLOWED_TRANSITIONS)
      (hrev : updated.revision = current.revision + 1)
      (hstopped : updated.stoppedAt = if updated.state = .STOPPED then some now else current.stoppedAt)
      (hrow : row.experimentId = current.id ∧ row.revision = updated.revision ∧
        row.fromState = some current.state ∧ row.toState = updated.state ∧ row.at_ = now)
      (hexp : db'.experiments.rows =
        db.experiments.rows.map fun r => if r.id = current.id then r.assign updated now else r)
      (hactive : db'.active.rows = if updated.state = .STOPPED
        then db.active.rows.filter fun a => a.experimentId ≠ current.id else db.active.rows)
      (htrans : db'.transitions.rows = db.transitions.rows ++ [row])
  | progressed (id : String) (kill : ExperimentRow → KillColumns)
      (hexp : db'.experiments.rows = db.experiments.rows.map fun r =>
        if r.id = id then { r with toKillColumns := kill r, updatedAt := now } else r)
      (hactive : db'.active = db.active) (htrans : db'.transitions = db.transitions)

variable {db db' : ExperimentDb} {u : Unit}

theorem insertExperiment_ok {row : ExperimentRow} (h : insertExperiment row db = .ok u db') :
    db'.experiments.rows = db.experiments.rows ++ [row] ∧ db'.active = db.active ∧
      db'.transitions = db.transitions := by
  replace h := Tx.get_bind_ok h
  obtain ⟨-, h⟩ := Tx.refuseIf_bind_ok h
  obtain ⟨-, h⟩ := Tx.refuseIf_bind_ok h
  cases hi : db.experiments.insert? row with
  | none => rw [hi] at h; cases h
  | some rows =>
    rw [hi] at h
    cases h
    exact ⟨(Table.insert?_eq_some hi).2, rfl, rfl⟩

theorem insertActive_ok {row : ActiveRow} (h : insertActive row db = .ok u db') :
    db'.active.rows = db.active.rows ++ [row] ∧ db'.experiments = db.experiments ∧
      db'.transitions = db.transitions := by
  replace h := Tx.get_bind_ok h
  obtain ⟨-, h⟩ := Tx.refuseIf_bind_ok h
  cases hi : db.active.insert? row with
  | none => rw [hi] at h; cases h
  | some rows =>
    rw [hi] at h
    cases h
    exact ⟨(Table.insert?_eq_some hi).2, rfl, rfl⟩

variable {row : TransitionRow}

theorem append_ok (h : append row db = .ok u db') :
    db'.transitions.rows = db.transitions.rows ++ [row] ∧ db'.experiments = db.experiments ∧
      db'.active = db.active := by
  replace h := Tx.get_bind_ok h
  cases hi : db.transitions.insert? row with
  | none => rw [hi] at h; cases h
  | some rows =>
    rw [hi] at h
    cases h
    exact ⟨(Table.insert?_eq_some hi).2, rfl, rfl⟩

variable {env : StoreEnv} {id : String}

theorem require_ok {current : ExperimentRecord} (h : require env id db = .ok current db') :
    db' = db ∧ ∃ row ∈ db.experiments.rows, row.id = id ∧ row.toExperimentRecord = current := by
  replace h := Tx.get_bind_ok h
  cases hg : db.get id with
  | none => rw [hg] at h; cases h
  | some found =>
    rw [hg] at h
    dsimp only at h
    split at h
    · cases h
    · cases h
      obtain ⟨row, hrow, hrec⟩ := Option.map_eq_some_iff.mp hg
      obtain ⟨hmem, hid⟩ := Table.get?_eq_some.mp hrow
      exact ⟨rfl, row, hmem, hid, hrec⟩

variable {record : ExperimentRecord} {now : Int}
variable {current : ExperimentRow} {s : ExperimentState}

/-- The guarded UPDATE of `_write_in_tx` reaches exactly the row that was read. -/
theorem write_ok {n : Nat} (h : write record now s n db = .ok u db')
    (hmem : current ∈ db.experiments.rows) (hid : current.id = record.experimentId.val)
    (hs : current.state = s) (hn : current.revision = n) :
    db'.experiments.rows =
        (db.experiments.rows.map fun r => if r.id = current.id then r.assign record now else r) ∧
      db'.active = db.active ∧ db'.transitions = db.transitions := by
  replace h := Tx.get_bind_ok h
  obtain ⟨-, h⟩ := Tx.refuseIf_bind_ok h
  obtain ⟨-, h⟩ := Tx.refuseIf_bind_ok h
  cases h
  refine ⟨List.map_congr_left fun r hr => ?_, rfl, rfl⟩
  by_cases hk : r.id = current.id
  · obtain rfl := db.experiments.eq_of_key hr hmem hk
    simp [hid, hs, hn]
  · simp [hk, ← hid]

variable {principal reason : String}

theorem insertArmedTx_outcome {r : Option ExperimentRecord} (hs : record.state = .ARMED) (hn : record.revision = 1)
    (h : insertArmedTx env record principal reason db = .ok r db') : Outcome env.now db db' := by
  replace h := Tx.get_bind_ok h
  cases hown : db.get record.experimentId.val with
  | some own =>
    rw [hown] at h
    cases h
    exact .same rfl
  | none =>
    rw [hown] at h
    cases hactive : db.active.get? record.accountId.val with
    | some active => rw [hactive] at h; cases h
    | none =>
      rw [hactive] at h
      obtain ⟨_, d₁, h₁, h⟩ := Tx.bind_ok h
      obtain ⟨_, d₂, h₂, h⟩ := Tx.bind_ok h
      obtain ⟨_, d₃, h₃, h⟩ := Tx.bind_ok h
      cases h
      obtain ⟨e₁, a₁, t₁⟩ := insertExperiment_ok h₁
      obtain ⟨a₂, e₂, t₂⟩ := insertActive_ok h₂
      obtain ⟨t₃, e₃, a₃⟩ := append_ok h₃
      refine .armed record _ (Option.map_eq_none_iff.mp hown) hactive hs hn ?_ ?_ ?_
        (t₃.trans (by rw [t₂, t₁]))
      · exact ⟨rfl, rfl, rfl, rfl⟩
      · rw [e₃, e₂, e₁]
      · rw [a₃, a₂, a₁]

variable {changes : Changes}

theorem transitionTx_outcome {expected : List String} {toState : ExperimentState}
    {commandId : Option String} {r : Option ExperimentRecord}
    (h : transitionTx env id expected toState principal commandId reason changes db = .ok r db') : Outcome env.now db db' := by
  obtain ⟨current, _, hreq, h⟩ := Tx.bind_ok h
  obtain ⟨rfl, row, hmem, rfl, rfl⟩ := require_ok hreq
  obtain ⟨-, h⟩ := Tx.refuseIf_bind_ok h
  obtain ⟨hallowed, h⟩ := Tx.refuseIf_bind_ok h
  obtain ⟨kill, -, h⟩ := Tx.check_bind_ok h
  obtain ⟨_, d₁, h₁, h⟩ := Tx.bind_ok h
  obtain ⟨_, d₂, h₂, h⟩ := Tx.bind_ok h
  obtain ⟨_, d₃, h₃, h⟩ := Tx.bind_ok h
  cases h
  obtain ⟨e₁, a₁, t₁⟩ := write_ok h₁ hmem rfl rfl rfl
  obtain ⟨t₃, e₃, a₃⟩ := append_ok h₃
  have hdelete : d₂.experiments = d₁.experiments ∧ d₂.transitions = d₁.transitions ∧
      d₂.active.rows = if toState = .STOPPED
        then d₁.active.rows.filter fun a => a.experimentId ≠ row.id else d₁.active.rows := by
    unfold Tx.onlyIf at h₂
    split at h₂
    · cases h₂
      exact ⟨rfl, rfl, by simp [Table.deleteWhere, *]⟩
    · cases h₂
      exact ⟨rfl, rfl, by simp [*]⟩
  obtain ⟨e₂, t₂, a₂⟩ := hdelete
  refine .moved row _ _ hmem (not_not.mp hallowed) rfl rfl ?_ (by rw [e₃, e₂, e₁]) ?_
    (t₃.trans (by rw [t₂, t₁]))
  · exact ⟨rfl, rfl, rfl, rfl, rfl⟩
  · rw [a₃, a₂, a₁]

theorem updateKillProgressTx_outcome {expectedState : String} {r : Option ExperimentRecord}
    (h : updateKillProgressTx env id expectedState changes db = .ok r db') : Outcome env.now db db' := by
  obtain ⟨current, _, hreq, h⟩ := Tx.bind_ok h
  obtain ⟨rfl, row, hmem, rfl, rfl⟩ := require_ok hreq
  obtain ⟨-, h⟩ := Tx.refuseIf_bind_ok h
  obtain ⟨kill, -, h⟩ := Tx.check_bind_ok h
  obtain ⟨_, d₁, h₁, h⟩ := Tx.bind_ok h
  cases h
  obtain ⟨e₁, a₁, t₁⟩ := write_ok h₁ hmem rfl rfl rfl
  refine .progressed row.id (fun _ => kill) ?_ a₁ t₁
  rw [e₁]
  refine List.map_congr_left fun r hr => ?_
  by_cases hk : r.id = row.id
  · obtain rfl := Table.eq_of_key _ hr hmem hk
    simp [ExperimentRow.assign]
  · simp [hk]

theorem raisePeakTx_outcome {value : Positive} {q : ℚ}
    (h : raisePeakTx env id value db = .ok q db') : Outcome env.now db db' := by
  obtain ⟨current, _, hreq, h⟩ := Tx.bind_ok h
  obtain ⟨rfl, row, hmem, rfl, rfl⟩ := require_ok hreq
  split at h
  · cases h
    refine .progressed row.id (fun r => { r.toKillColumns with peakNetLiquidation := value }) ?_ rfl rfl
    simp [Table.updateWhere]
  · cases h
    exact .same rfl

theorem call_outcome {c : StoreCall} {a : StoreAnswer} (h : call env c db = .ok a db') : Outcome env.now db db' := by
  cases c with
  | insertArmed record principal reason =>
    obtain ⟨r, h, -⟩ := Tx.map_ok h
    unfold insertArmed at h
    split at h
    · cases h
    · rename_i hok
      push Not at hok
      exact insertArmedTx_outcome hok.1 hok.2.1 (transaction_ok (Tx.adapt_ok h))
  | transition id expected toState principal commandId reason changes =>
    obtain ⟨r, h, -⟩ := Tx.map_ok h
    obtain ⟨_, -, h⟩ := Tx.check_bind_ok h
    obtain ⟨to', -, h⟩ := Tx.check_bind_ok h
    exact transitionTx_outcome (transaction_ok h)
  | updateKillProgress id expectedState changes =>
    obtain ⟨r, h, -⟩ := Tx.map_ok h
    obtain ⟨_, -, h⟩ := Tx.check_bind_ok h
    exact updateKillProgressTx_outcome (transaction_ok h)
  | raisePeak id netLiquidation =>
    obtain ⟨q, h, -⟩ := Tx.map_ok h
    obtain ⟨value, -, h⟩ := Tx.check_bind_ok h
    exact raisePeakTx_outcome (transaction_ok h)

theorem call_atomic (env : StoreEnv) (c : StoreCall) : Tx.Atomic (call env c) := by
  cases c with
  | insertArmed record principal reason =>
    refine Tx.Atomic.map ?_ _
    unfold insertArmed
    split
    · exact Tx.Atomic.throw _
    · exact (Tx.Atomic.transaction _ _).adapt _
  | transition id expected toState principal commandId reason changes =>
    exact (Tx.Atomic.check_bind fun _ => Tx.Atomic.check_bind fun _ => Tx.Atomic.transaction _ _).map _
  | updateKillProgress id expectedState changes =>
    exact (Tx.Atomic.check_bind fun _ => Tx.Atomic.transaction _ _).map _
  | raisePeak id netLiquidation =>
    exact (Tx.Atomic.check_bind fun _ => Tx.Atomic.transaction _ _).map _

theorem step_outcome (db : ExperimentDb) (c : StoreEnv × StoreCall) : Outcome c.1.now db (step db c) := by
  unfold step
  cases h : call c.1 c.2 db with
  | ok a db' => exact call_outcome h
  | error e db' => exact .same (call_atomic c.1 c.2 _ _ _ h)

/-! ## The invariant -/

/-- The transitions of an experiment, in the order in which they were appended. -/
def ExperimentDb.rowsOf (db : ExperimentDb) (id : String) : List TransitionRow :=
  db.transitions.rows.filter fun t => t.experimentId = id

/-- The transition rows are the history of the record: revisions `1 … n` without a gap, each row starting where the
one before it ended, by allowed steps, from ARMED to the record's state. -/
structure Chained (rows : List TransitionRow) (r : ExperimentRecord) : Prop where
  revisions : rows.map (·.revision) = List.range' 1 r.revision
  first : ∀ t ∈ rows.head?, t.fromState = none ∧ t.toState = .ARMED
  links : rows.IsChain fun t u =>
    u.fromState = some t.toState ∧ (t.toState, u.toState) ∈ ALLOWED_TRANSITIONS
  last : rows.getLast?.map (·.toState) = some r.state
  stopped : r.state = .STOPPED → r.stoppedAt = rows.getLast?.map (·.at_)

structure Linked (db : ExperimentDb) : Prop where
  named : ∀ a : ActiveRow, a ∈ db.active.rows ↔
    ∃ r ∈ db.experiments.rows, r.accountId.val = a.accountId ∧ r.id = a.experimentId ∧ r.state ≠ .STOPPED
  chained : ∀ r ∈ db.experiments.rows, Chained (db.rowsOf r.id) r.toExperimentRecord
  owned : ∀ t ∈ db.transitions.rows, ∃ r ∈ db.experiments.rows, r.id = t.experimentId

theorem linked_empty : Linked .empty where
  named a := by simp [ExperimentDb.empty]
  chained r hr := by cases hr
  owned t ht := by cases ht

theorem rowsOf_append (h : db'.transitions.rows = db.transitions.rows ++ [row]) (id : String) :
    db'.rowsOf id = db.rowsOf id ++ if row.experimentId = id then [row] else [] := by
  unfold ExperimentDb.rowsOf
  rw [h, List.filter_append]
  congr 1
  by_cases hk : row.experimentId = id <;> simp [hk]

theorem rowsOf_fresh (hl : Linked db) (h : db.experiments.get? id = none) : db.rowsOf id = [] := by
  refine List.filter_eq_nil_iff.mpr fun t ht hid => ?_
  obtain ⟨r, hr, hrid⟩ := hl.owned t ht
  exact Table.get?_eq_none.mp h r hr (hrid.trans (by simpa using hid))

/-- What a step takes as allowed never starts at STOPPED. -/
theorem allowed_from {t : ExperimentState} (h : (s, t) ∈ ALLOWED_TRANSITIONS) : s ≠ .STOPPED := by
  rintro rfl
  revert h
  cases t <;> decide

variable {r : ExperimentRecord}
variable {rows : List TransitionRow} {r' : ExperimentRecord}

/-- **The chain grows by one.** -/
theorem Chained.next
    (h : Chained rows r) (hallowed : (r.state, r'.state) ∈ ALLOWED_TRANSITIONS) (hrev : r'.revision = r.revision + 1)
    (hstopped : r'.stoppedAt = if r'.state = .STOPPED then some now else r.stoppedAt)
    (hrow : row.revision = r'.revision ∧ row.fromState = some r.state ∧ row.toState = r'.state ∧ row.at_ = now) :
    Chained (rows ++ [row]) r' := by
  obtain ⟨hn, hfrom, hto, hat⟩ := hrow
  refine ⟨?_, ?_, ?_, ?_, ?_⟩
  · rw [List.map_append, h.revisions, hrev, List.range'_concat]
    simp [hn, hrev, Nat.add_comm]
  · intro t ht
    cases rows with
    | nil =>
      have := h.last
      cases this
    | cons x xs => exact h.first t ht
  · refine List.isChain_append.mpr ⟨h.links, List.isChain_singleton _, ?_⟩
    intro x hx y hy
    obtain rfl : row = y := by simpa using hy
    have hlast : x.toState = r.state := by
      have := h.last
      rw [Option.mem_def.mp hx] at this
      simpa using this
    rw [hfrom, hto, hlast]
    exact ⟨rfl, hallowed⟩
  · simp [hto]
  · intro hs
    simp [hstopped, hs, hat]

theorem Chained.same (h : Chained rows r)
    (hs : r'.state = r.state) (hn : r'.revision = r.revision) (hstop : r'.stoppedAt = r.stoppedAt) : Chained rows r' :=
  ⟨by rw [hn]; exact h.revisions, h.first, h.links, by rw [hs]; exact h.last,
    fun hst => by rw [hstop]; exact h.stopped (hs ▸ hst)⟩

theorem armed_linked (hl : Linked db) (hfresh : db.experiments.get? record.experimentId.val = none)
    (hstate : record.state = .ARMED) (hrev : record.revision = 1)
    (hrow : row.experimentId = record.experimentId.val ∧ row.revision = 1 ∧ row.fromState = none ∧
      row.toState = .ARMED)
    (hexp : db'.experiments.rows = db.experiments.rows ++ [{ record with updatedAt := now }])
    (hactive : db'.active.rows = db.active.rows ++ [⟨record.accountId.val, record.experimentId.val⟩])
    (htrans : db'.transitions.rows = db.transitions.rows ++ [row]) : Linked db' := by
  have hnew : ∀ r : ExperimentRow, r ∈ db'.experiments.rows ↔
      r ∈ db.experiments.rows ∨ r = { record with updatedAt := now } := by
    intro r
    rw [hexp, List.mem_append, List.mem_singleton]
  refine ⟨fun a => ?_, fun r hr => ?_, fun t ht => ?_⟩
  · rw [hactive, List.mem_append, List.mem_singleton, hl.named]
    constructor
    · rintro (⟨r, hr, hrest⟩ | rfl)
      · exact ⟨r, (hnew r).mpr (Or.inl hr), hrest⟩
      · exact ⟨_, (hnew _).mpr (Or.inr rfl), rfl, rfl, by simp [hstate]⟩
    · rintro ⟨r, hr, hacc, hid, hst⟩
      rcases (hnew r).mp hr with hr | rfl
      · exact Or.inl ⟨r, hr, hacc, hid, hst⟩
      · exact Or.inr (by cases a; cases hacc; cases hid; rfl)
  · rw [rowsOf_append htrans]
    rcases (hnew r).mp hr with hr | rfl
    · have hother : row.experimentId ≠ r.id := by
        rw [hrow.1]
        exact fun h => Table.get?_eq_none.mp hfresh r hr h.symm
      simpa [hother] using hl.chained r hr
    · have hold : db.rowsOf record.experimentId.val = [] := rowsOf_fresh hl hfresh
      change Chained (db.rowsOf record.experimentId.val ++
        if row.experimentId = record.experimentId.val then [row] else []) _
      rw [hold, if_pos hrow.1]
      refine ⟨by simp [hrow, hrev], by simp [hrow], by simp, by simp [hrow, hstate], ?_⟩
      intro hs
      rw [hstate] at hs
      cases hs
  · rw [htrans, List.mem_append, List.mem_singleton] at ht
    rcases ht with ht | rfl
    · obtain ⟨r, hr, hrid⟩ := hl.owned t ht
      exact ⟨r, (hnew r).mpr (Or.inl hr), hrid⟩
    · exact ⟨_, (hnew _).mpr (Or.inr rfl), hrow.1.symm⟩

theorem moved_linked {updated : ExperimentRecord}
    (hl : Linked db) (hmem : current ∈ db.experiments.rows) (hallowed : (current.state, updated.state) ∈ ALLOWED_TRANSITIONS)
    (hrev : updated.revision = current.revision + 1)
    (hstopped : updated.stoppedAt = if updated.state = .STOPPED then some now else current.stoppedAt)
    (hrow : row.experimentId = current.id ∧ row.revision = updated.revision ∧
      row.fromState = some current.state ∧ row.toState = updated.state ∧ row.at_ = now)
    (hexp : db'.experiments.rows =
      db.experiments.rows.map fun r => if r.id = current.id then r.assign updated now else r)
    (hactive : db'.active.rows = if updated.state = .STOPPED
      then db.active.rows.filter fun a => a.experimentId ≠ current.id else db.active.rows)
    (htrans : db'.transitions.rows = db.transitions.rows ++ [row]) : Linked db' := by
  have hmoved : current.assign updated now ∈ db'.experiments.rows := by
    rw [hexp]
    exact List.mem_map.mpr ⟨current, hmem, by simp⟩
  have hother : ∀ r ∈ db.experiments.rows, r.id ≠ current.id → r ∈ db'.experiments.rows := by
    intro r hr hne
    rw [hexp]
    exact List.mem_map.mpr ⟨r, hr, by simp [hne]⟩
  have hnew : ∀ r ∈ db'.experiments.rows,
      (r ∈ db.experiments.rows ∧ r.id ≠ current.id) ∨ r = current.assign updated now := by
    intro r hr
    rw [hexp] at hr
    obtain ⟨x, hx, rfl⟩ := List.mem_map.mp hr
    by_cases hk : x.id = current.id
    · obtain rfl := db.experiments.eq_of_key hx hmem hk
      exact Or.inr (by simp)
    · exact Or.inl (by simpa [hk] using hx)
  refine ⟨fun a => ?_, fun r hr => ?_, fun t ht => ?_⟩
  · have hin : a ∈ db'.active.rows ↔
        a ∈ db.active.rows ∧ (updated.state = .STOPPED → a.experimentId ≠ current.id) := by
      rw [hactive]
      split <;> simp [*]
    rw [hin, hl.named]
    constructor
    · rintro ⟨⟨r, hr, hacc, hid, hst⟩, hkeep⟩
      by_cases hk : r.id = current.id
      · obtain rfl := db.experiments.eq_of_key hr hmem hk
        exact ⟨_, hmoved, hacc, hid, fun h => hkeep h hid.symm⟩
      · exact ⟨r, hother r hr hk, hacc, hid, hst⟩
    · rintro ⟨r, hr, hacc, hid, hst⟩
      rcases hnew r hr with ⟨hr, hk⟩ | rfl
      · exact ⟨⟨r, hr, hacc, hid, hst⟩, fun _ h => hk (hid.trans h)⟩
      · exact ⟨⟨current, hmem, hacc, hid, allowed_from hallowed⟩, fun h => (hst h).elim⟩
  · rw [rowsOf_append htrans]
    rcases hnew r hr with ⟨hr, hk⟩ | rfl
    · have hne : row.experimentId ≠ r.id := fun h => hk (h.symm.trans hrow.1)
      simpa [hne] using hl.chained r hr
    · change Chained (db.rowsOf current.id ++ if row.experimentId = current.id then [row] else []) _
      rw [if_pos hrow.1]
      exact (hl.chained current hmem).next hallowed hrev hstopped hrow.2
  · rw [htrans, List.mem_append, List.mem_singleton] at ht
    rcases ht with ht | rfl
    · obtain ⟨r, hr, hrid⟩ := hl.owned t ht
      by_cases hk : r.id = current.id
      · exact ⟨_, hmoved, hk.symm.trans hrid⟩
      · exact ⟨r, hother r hr hk, hrid⟩
    · exact ⟨_, hmoved, hrow.1.symm⟩

theorem progressed_linked {kill : ExperimentRow → KillColumns} (hl : Linked db)
    (hexp : db'.experiments.rows = db.experiments.rows.map fun r =>
      if r.id = id then { r with toKillColumns := kill r, updatedAt := now } else r)
    (hactive : db'.active = db.active) (htrans : db'.transitions = db.transitions) : Linked db' := by
  have hmap : ∀ r ∈ db.experiments.rows, ∃ r' ∈ db'.experiments.rows,
      r'.toExperimentStart = r.toExperimentStart ∧ r'.state = r.state := by
    intro r hr
    refine ⟨_, hexp ▸ List.mem_map.mpr ⟨r, hr, rfl⟩, ?_⟩
    split <;> exact ⟨rfl, rfl⟩
  have hback : ∀ r' ∈ db'.experiments.rows, ∃ r ∈ db.experiments.rows,
      r'.toExperimentStart = r.toExperimentStart ∧ r'.state = r.state ∧ r'.revision = r.revision ∧
        r'.stoppedAt = r.stoppedAt := by
    intro r' hr'
    rw [hexp] at hr'
    obtain ⟨r, hr, rfl⟩ := List.mem_map.mp hr'
    refine ⟨r, hr, ?_⟩
    split <;> exact ⟨rfl, rfl, rfl, rfl⟩
  have hid : ∀ {r r' : ExperimentRow}, r'.toExperimentStart = r.toExperimentStart → r'.id = r.id :=
    fun h => congrArg (fun st => st.experimentId.val) h
  refine ⟨fun a => ?_, fun r' hr' => ?_, fun t ht => ?_⟩
  · rw [hactive, hl.named]
    constructor
    · rintro ⟨r, hr, hacc, hrid, hst⟩
      obtain ⟨r', hr', hstart, hstate⟩ := hmap r hr
      exact ⟨r', hr', by rw [hstart]; exact hacc, (hid hstart).trans hrid, by rw [hstate]; exact hst⟩
    · rintro ⟨r', hr', hacc, hrid, hst⟩
      obtain ⟨r, hr, hstart, hstate, -, -⟩ := hback r' hr'
      exact ⟨r, hr, by rw [← hstart]; exact hacc, (hid hstart).symm.trans hrid, by rw [← hstate]; exact hst⟩
  · obtain ⟨r, hr, hstart, hstate, hrev, hstop⟩ := hback r' hr'
    have hrows : db'.rowsOf r'.id = db.rowsOf r.id := by
      rw [ExperimentDb.rowsOf, htrans, hid hstart]
      rfl
    rw [hrows]
    exact (hl.chained r hr).same hstate hrev hstop
  · rw [htrans] at ht
    obtain ⟨r, hr, hrid⟩ := hl.owned t ht
    obtain ⟨r', hr', hstart, -⟩ := hmap r hr
    exact ⟨r', hr', (hid hstart).trans hrid⟩

/-- **Step lemma.** -/
theorem Outcome.linked (h : Outcome now db db') (hl : Linked db) : Linked db' := by
  cases h with
  | same h => exact h ▸ hl
  | armed record row hfresh _ hstate hrev hrow hexp hactive htrans =>
    exact armed_linked hl hfresh hstate hrev hrow hexp hactive htrans
  | moved current updated row hmem hallowed hrev hstopped hrow hexp hactive htrans =>
    exact moved_linked hl hmem hallowed hrev hstopped hrow hexp hactive htrans
  | progressed id kill hexp hactive htrans => exact progressed_linked hl hexp hactive htrans

theorem run_linked (calls : List (StoreEnv × StoreCall)) : Linked (run calls) := by
  unfold run
  refine List.foldlRecOn calls step linked_empty fun db hl c _ => ?_
  exact (step_outcome db c).linked hl

/-! ## What later states keep -/

/-- What a later row keeps of an earlier one. -/
structure Keeps (r r' : ExperimentRow) : Prop where
  start : r'.toExperimentStart = r.toExperimentStart
  final : r.state = .STOPPED → r'.state = .STOPPED ∧ r'.revision = r.revision ∧ r'.stoppedAt = r.stoppedAt
  stopped : r'.state ≠ .STOPPED → r'.stoppedAt = r.stoppedAt

theorem Keeps.refl (r : ExperimentRow) : Keeps r r := ⟨rfl, fun h => ⟨h, rfl, rfl⟩, fun _ => rfl⟩

theorem Keeps.trans {r s t : ExperimentRow} (h : Keeps r s) (h' : Keeps s t) : Keeps r t where
  start := h'.start.trans h.start
  final hr := by
    obtain ⟨hs, hn, ha⟩ := h.final hr
    obtain ⟨ht, hn', ha'⟩ := h'.final hs
    exact ⟨ht, hn'.trans hn, ha'.trans ha⟩
  stopped ht := by
    have hs : s.state ≠ .STOPPED := fun hs => ht (h'.final hs).1
    exact (h'.stopped ht).trans (h.stopped hs)

theorem Keeps.id_eq {r r' : ExperimentRow} (h : Keeps r r') : r'.id = r.id :=
  congrArg (fun st => st.experimentId.val) h.start

/-- Every experiment is still there, keeps its fixed columns, and its history only grew. -/
def Later (db db' : ExperimentDb) : Prop :=
  ∀ r ∈ db.experiments.rows, ∃ r' ∈ db'.experiments.rows, Keeps r r' ∧ db.rowsOf r.id <+: db'.rowsOf r.id

theorem Later.refl (db : ExperimentDb) : Later db db :=
  fun r hr => ⟨r, hr, .refl r, List.prefix_refl _⟩

theorem Later.trans {a b c : ExperimentDb} (h : Later a b) (h' : Later b c) : Later a c := by
  intro r hr
  obtain ⟨s, hs, hk, hp⟩ := h r hr
  obtain ⟨t, ht, hk', hp'⟩ := h' s hs
  rw [hk.id_eq] at hp'
  exact ⟨t, ht, hk.trans hk', hp.trans hp'⟩

theorem Outcome.later (h : Outcome now db db') : Later db db' := by
  cases h with
  | same h => exact h ▸ Later.refl db
  | armed record row _ _ _ _ _ hexp _ htrans =>
    intro r hr
    refine ⟨r, ?_, .refl r, ?_⟩
    · rw [hexp]
      exact List.mem_append_left _ hr
    · rw [rowsOf_append htrans]
      exact List.prefix_append _ _
  | moved current updated row hmem hallowed _ hstopped _ hexp _ htrans =>
    intro r hr
    refine ⟨_, hexp ▸ List.mem_map.mpr ⟨r, hr, rfl⟩, ?_, ?_⟩
    · split
      · rename_i hk
        obtain rfl := db.experiments.eq_of_key hr hmem hk
        refine ⟨rfl, fun hs => (allowed_from hallowed hs).elim, fun hs => ?_⟩
        change updated.stoppedAt = r.stoppedAt
        have hs' : updated.state ≠ .STOPPED := hs
        rw [hstopped, if_neg hs']
      · exact .refl r
    · rw [rowsOf_append htrans]
      exact List.prefix_append _ _
  | progressed id kill hexp _ htrans =>
    intro r hr
    refine ⟨_, hexp ▸ List.mem_map.mpr ⟨r, hr, rfl⟩, ?_, ?_⟩
    · split
      · exact ⟨rfl, fun hs => ⟨hs, rfl, rfl⟩, fun _ => rfl⟩
      · exact .refl r
    · have hsame : db'.rowsOf r.id = db.rowsOf r.id := by rw [ExperimentDb.rowsOf, ExperimentDb.rowsOf, htrans]
      exact hsame ▸ List.prefix_refl _

theorem run_later (pre post : List (StoreEnv × StoreCall)) : Later (run pre) (run (pre ++ post)) := by
  unfold run
  rw [List.foldl_append]
  refine List.foldlRecOn post step (Later.refl _) fun db hl c _ => ?_
  exact hl.trans (step_outcome db c).later

/-! ## The store -/

/-- In revision order already: the read's `ORDER BY` finds the rows sorted. -/
theorem transitionsOf_eq (h : Chained (db.rowsOf id) r) : db.transitionsOf id = db.rowsOf id := by
  refine List.mergeSort_of_pairwise ?_
  have hsorted : ((db.rowsOf id).map (·.revision)).Pairwise (· < ·) := by
    rw [h.revisions]
    exact List.pairwise_lt_range'
  exact (List.pairwise_map.mp hsorted).imp fun hlt => by simpa using hlt.le

/-- A state of the store: at most one experiment of an account is not stopped, `experiment_active` names exactly
these, and the transitions of an experiment are a chain of allowed steps that ends in its record. -/
structure Sound (db : ExperimentDb) : Prop where
  atMostOne : ∀ r ∈ db.experiments.rows, ∀ s ∈ db.experiments.rows, r.accountId = s.accountId →
    r.state ≠ .STOPPED → s.state ≠ .STOPPED → r = s
  named : ∀ a : ActiveRow, a ∈ db.active.rows ↔
    ∃ r ∈ db.experiments.rows, r.accountId.val = a.accountId ∧ r.id = a.experimentId ∧ r.state ≠ .STOPPED
  chained : ∀ r ∈ db.experiments.rows, Chained (db.transitionsOf r.id) r.toExperimentRecord

theorem Linked.sound (h : Linked db) : Sound db where
  atMostOne r hr s hs hacc hr' hs' := by
    have hin : (⟨r.accountId.val, r.id⟩ : ActiveRow) ∈ db.active.rows := (h.named _).mpr ⟨r, hr, rfl, rfl, hr'⟩
    have hin' : (⟨s.accountId.val, s.id⟩ : ActiveRow) ∈ db.active.rows := (h.named _).mpr ⟨s, hs, rfl, rfl, hs'⟩
    have heq := db.active.eq_of_key hin hin' (congrArg Subtype.val hacc)
    exact db.experiments.eq_of_key hr hs (congrArg ActiveRow.experimentId heq)
  named := h.named
  chained r hr := by
    rw [transitionsOf_eq (h.chained r hr)]
    exact h.chained r hr

/-- `active` reads the account's experiment that is not stopped. -/
theorem activeOf_eq_some (h : Linked db) {account : String} :
    db.activeOf account = some r ↔ ∃ row ∈ db.experiments.rows,
      row.toExperimentRecord = r ∧ r.accountId.val = account ∧ r.state ≠ .STOPPED := by
  constructor
  · intro hr
    unfold ExperimentDb.activeOf at hr
    cases ha : db.active.get? account with
    | none => rw [ha] at hr; cases hr
    | some a =>
      rw [ha] at hr
      obtain ⟨ham, hak⟩ := Table.get?_eq_some.mp ha
      obtain ⟨row, hrow, rfl⟩ := Option.map_eq_some_iff.mp hr
      obtain ⟨hmem, hid⟩ := Table.get?_eq_some.mp hrow
      obtain ⟨row', hmem', hacc, hid', hst⟩ := (h.named a).mp ham
      obtain rfl := db.experiments.eq_of_key hmem hmem' (hid.trans hid'.symm)
      exact ⟨row, hmem, rfl, hacc.trans hak, hst⟩
  · rintro ⟨row, hmem, rfl, rfl, hst⟩
    have hin : (⟨row.accountId.val, row.id⟩ : ActiveRow) ∈ db.active.rows := (h.named _).mpr ⟨row, hmem, rfl, rfl, hst⟩
    have hg : db.experiments.get? row.id = some row := Table.get?_of_mem hmem
    have ha : db.active.get? row.accountId.val = some ⟨row.accountId.val, row.id⟩ := Table.get?_of_mem hin
    simp only [ExperimentDb.activeOf, ExperimentDb.get, ha, hg, Option.map_some]

/-- **The experiment store, over every sequence of calls**: every state is sound, every later state keeps the
experiments of an earlier one, and a call that raises changes nothing. -/
theorem experiment_store_sound (pre post : List (StoreEnv × StoreCall)) :
    Sound (run pre) ∧ Later (run pre) (run (pre ++ post)) ∧
      ∀ env c db' e, call env c (run pre) = .error e db' → db' = run pre :=
  ⟨(run_linked pre).sound, run_later pre post, fun env c db' e h => call_atomic env c _ db' e h⟩

/-- What a strict reading asks of the columns: every call leaves all but state, revision, `stopped_at` and the kill
columns as they were. -/
def OtherColumnsFixed : Prop :=
  ∀ calls c, ∀ r ∈ (run calls).experiments.rows, ∀ r' ∈ (step (run calls) c).experiments.rows, r'.id = r.id →
    r'.toExperimentStart = r.toExperimentStart ∧ r'.updatedAt = r.updatedAt

theorem sample_experimentId : isExperimentId "exp-00000000000000000000" = true := by decide

theorem sample_accountId : "DU1" ≠ "" := by decide

theorem sample_commandId : "cmd-1" ≠ "" := by decide

theorem sample_digest : "digest" ≠ "" := by decide

theorem sample_currency : isCurrency "USD" = true := by decide

theorem sample_net : (0 : ℚ) < 100000 := by decide

theorem sample_rate : (0 : ℚ) < 1 := by decide

/-- An experiment of account `DU1` started with 100000 USD. -/
def sampleRecord : ExperimentRecord where
  experimentId := ⟨"exp-00000000000000000000", sample_experimentId⟩
  accountId := ⟨"DU1", sample_accountId⟩
  startCommandId := ⟨"cmd-1", sample_commandId⟩
  configDigest := ⟨"digest", sample_digest⟩
  startedAt := 0
  startNetLiquidation := ⟨100000, sample_net⟩
  startUsdPerBase := ⟨1, sample_rate⟩
  killAnchorNetLiquidation := ⟨100000, sample_net⟩
  baseCurrency := ⟨"USD", sample_currency⟩
  startFxSource := .base_is_usd
  styles := ⟨[.intraday_long], by decide⟩
  killDrawdownPct := none
  killBasis := .start
  startGenerationId := 1
  peakNetLiquidation := ⟨100000, sample_net⟩
  state := .ARMED
  revision := 1
  revision_pos := Nat.le_refl 1

/-- Every write also stamps `updated_at`. -/
theorem updated_at_changes : ¬ OtherColumnsFixed := by
  intro h
  have hstep := h [(⟨"DU1", 0, [], none⟩, .insertArmed sampleRecord "owner" "start")]
    (⟨"DU1", 1, [], none⟩, .raisePeak "exp-00000000000000000000" (.float 100001))
    { sampleRecord with updatedAt := 0 } (by decide +kernel)
    { sampleRecord with peakNetLiquidation := ⟨100001, by decide⟩, updatedAt := 1 } (by decide +kernel) rfl
  exact absurd hstep.2 (by decide)

end MmrTrader.Experiment
