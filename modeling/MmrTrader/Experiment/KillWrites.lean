import MmrTrader.Experiment.StoreLaws
import MmrTrader.Experiment.KillMonitor

/-!
# What the monitor's writes do to the kill columns

* `equities`, `lastGood` — what the history says of the captures evaluated so far.
* `KillRow` — the kill columns of one experiment: the peak is the largest equity, a live experiment was never killed,
  a killed one carries the root of its round.
* `transition_rows`, `updateKillProgress_rows`, `raisePeak_rows`, `insertArmed_rows` — the exact rows each writer leaves.
* `Wf` — the invariant of the tables; one lemma for each writer.
-/

namespace MmrTrader.Experiment

open MmrTrader.Lib

/-! ## Histories -/

def equities (history : List Event) (id : String) : List ℚ :=
  history.filterMap fun
    | .raised record capture _ => if record.experimentId.val = id then isNumber capture.netLiquidation else none
    | _ => none

/-- `_last_generation`, as the process set it since it booted. -/
def lastGood (history : List Event) : Option Int :=
  history.foldl (fun last e => match e with
    | .booted => none
    | .good g => g
    | _ => last) none

/-- The event is not an evaluation of an equity. -/
def Event.Silent : Event → Prop
  | .raised _ _ _ => False
  | _ => True

theorem equities_append (h h' : List Event) (id : String) : equities (h ++ h') id = equities h id ++ equities h' id :=
  List.filterMap_append

variable {e : Event}

theorem equities_silent (he : e.Silent) (h : List Event) (id : String) : equities (h ++ [e]) id = equities h id := by
  rw [equities_append]
  cases e with
  | raised record capture peak => exact he.elim
  | _ => exact List.append_nil _

variable {record : ExperimentRecord} {capture : Capture} {peak : ℚ}

theorem equities_raised {net : ℚ} (h : List Event) (id : String) (hnet : isNumber capture.netLiquidation = some net) :
    equities (h ++ [.raised record capture peak]) id =
      if record.experimentId.val = id then equities h id ++ [net] else equities h id := by
  rw [equities_append]
  by_cases hid : record.experimentId.val = id
  · simp [equities, hid, hnet]
  · simp [equities, hid]

/-! ## Rows -/

structure KillRow (history : List Event) (r : ExperimentRow) : Prop where
  peak : r.peakNetLiquidation.val = (equities history r.id).foldl max r.killAnchorNetLiquidation.val
  fresh : r.state = .ARMED ∨ r.state = .PAUSED → r.killSeq = 0
  root : r.state = .KILLED →
    r.killSeq = 1 ∧ r.killRootId.map (·.val) = some (killRootId r.experimentId.val 1 r.killRound)

structure Wf (history : List Event) (db : ExperimentDb) : Prop where
  linked : Linked db
  row : ∀ r ∈ db.experiments.rows, KillRow history r
  known : ∀ record capture peak, Event.raised record capture peak ∈ history →
    ∃ r ∈ db.experiments.rows, r.id = record.experimentId.val

variable {changes : Changes}
variable {k k' : KillColumns}

/-- The four columns that the kill depends on, after `replace`. -/
theorem replace_ok (h : k.replace changes = .ok k') :
    changed changes "peak_net_liquidation" k.peakNetLiquidation positive = .ok k'.peakNetLiquidation ∧
      changed changes "kill_seq" k.killSeq count = .ok k'.killSeq ∧
      changed changes "kill_round" k.killRound count = .ok k'.killRound ∧
      changed changes "kill_root_id" k.killRootId (optional text) = .ok k'.killRootId := by
  unfold KillColumns.replace at h
  obtain ⟨peak, hpeak, h⟩ := bind_ok h
  obtain ⟨seq, hseq, h⟩ := bind_ok h
  obtain ⟨round, hround, h⟩ := bind_ok h
  obtain ⟨root, hroot, h⟩ := bind_ok h
  obtain ⟨_, -, h⟩ := bind_ok h
  obtain ⟨_, -, h⟩ := bind_ok h
  obtain ⟨_, -, h⟩ := bind_ok h
  obtain ⟨_, -, h⟩ := bind_ok h
  obtain ⟨_, -, h⟩ := bind_ok h
  obtain ⟨_, -, h⟩ := bind_ok h
  obtain ⟨_, -, h⟩ := bind_ok h
  obtain ⟨_, -, h⟩ := bind_ok h
  obtain ⟨_, -, h⟩ := bind_ok h
  obtain ⟨_, -, h⟩ := bind_ok h
  obtain ⟨_, -, h⟩ := bind_ok h
  obtain ⟨_, -, h⟩ := bind_ok h
  cases h
  exact ⟨hpeak, hseq, hround, hroot⟩

/-- The mapping names none of the columns that `KillRow` is about. -/
def Bystander (changes : Changes) : Prop :=
  ∀ c ∈ changes, c.1 ∉ ["peak_net_liquidation", "kill_seq", "kill_round", "kill_root_id"]

variable {name : String}

theorem changed_bystander {T : Type} (h : Bystander changes)
    (hname : name ∈ ["peak_net_liquidation", "kill_seq", "kill_round", "kill_root_id"]) {current v : T}
    {check : String → Value → Except StoreError T} (hv : changed changes name current check = .ok v) : v = current := by
  have hnone : (changes.find? fun c => c.1 = name) = none := by
    refine List.find?_eq_none.mpr fun c hc heq => h c hc ?_
    rw [of_decide_eq_true heq]
    exact hname
  unfold changed at hv
  rw [hnone] at hv
  cases hv
  rfl

theorem replace_bystander (h : Bystander changes) (hk : k.replace changes = .ok k') :
    k'.peakNetLiquidation = k.peakNetLiquidation ∧ k'.killSeq = k.killSeq ∧ k'.killRound = k.killRound ∧
      k'.killRootId = k.killRootId := by
  obtain ⟨hpeak, hseq, hround, hroot⟩ := replace_ok hk
  exact ⟨changed_bystander h (by decide) hpeak, changed_bystander h (by decide) hseq,
    changed_bystander h (by decide) hround, changed_bystander h (by decide) hroot⟩

/-! ## The writers -/

/-- The row with this id becomes `f`; nothing else changes. -/
def RowSet (db db' : ExperimentDb) (id : String) (f : ExperimentRow → ExperimentRow) : Prop :=
  db'.experiments.rows = db.experiments.rows.map fun r => if r.id = id then f r else r

variable {db db' : ExperimentDb} {id : String} {f : ExperimentRow → ExperimentRow} {current : ExperimentRow}

theorem RowSet.mem (h : RowSet db db' id f) (hc : current ∈ db.experiments.rows) (hid : current.id = id) :
    f current ∈ db'.experiments.rows := by
  rw [h]
  exact List.mem_map.mpr ⟨current, hc, if_pos hid⟩

theorem RowSet.cases (h : RowSet db db' id f) (hc : current ∈ db.experiments.rows) (hid : current.id = id) {r : ExperimentRow}
    (hr : r ∈ db'.experiments.rows) : (r ∈ db.experiments.rows ∧ r.id ≠ id) ∨ r = f current := by
  rw [h] at hr
  obtain ⟨x, hx, rfl⟩ := List.mem_map.mp hr
  by_cases hk : x.id = id
  · obtain rfl := db.experiments.eq_of_key hx hc (hk.trans hid.symm)
    exact Or.inr (if_pos hk)
  · rw [if_neg hk]
    exact Or.inl ⟨hx, hk⟩

/-- What a transition that returned did. -/
structure Transitioned (env : StoreEnv) (id : String) (expected : List String) (toState : ExperimentState)
    (changes : Changes) (db db' : ExperimentDb) (current : ExperimentRow) (updated : ExperimentRecord) : Prop where
  mem : current ∈ db.experiments.rows
  id_eq : current.id = id
  expected : current.state.text ∈ expected
  allowed : (current.state, toState) ∈ ALLOWED_TRANSITIONS
  start : updated.toExperimentStart = current.toExperimentStart
  state : updated.state = toState
  columns : current.toKillColumns.replace changes = .ok updated.toKillColumns
  rows : RowSet db db' id fun r => r.assign updated env.now

variable {r : Option ExperimentRecord} {env : StoreEnv} {expected : List String} {principal reason : String}

theorem transition_rows {toText : String} {commandId : Option String}
    (h : transition env id expected toText principal commandId reason changes db = .ok r db') :
    Outcome env.now db db' ∧ r = db'.get id ∧ ∃ toState current updated,
      member STATES "to" (.text toText) = .ok toState ∧
      Transitioned env id expected toState changes db db' current updated := by
  have hcall : call env (.transition id expected toText principal commandId reason changes) db = .ok (.record r) db' :=
    Tx.ok_map h StoreAnswer.record
  refine ⟨call_outcome hcall, ?_⟩
  obtain ⟨_, -, h⟩ := Tx.check_bind_ok h
  obtain ⟨toState, hto, h⟩ := Tx.check_bind_ok h
  replace h := transaction_ok h
  obtain ⟨current, _, hreq, h⟩ := Tx.bind_ok h
  obtain ⟨rfl, row, hmem, rfl, rfl⟩ := require_ok hreq
  obtain ⟨hexpected, h⟩ := Tx.refuseIf_bind_ok h
  obtain ⟨hallowed, h⟩ := Tx.refuseIf_bind_ok h
  obtain ⟨kill, hkill, h⟩ := Tx.check_bind_ok h
  obtain ⟨_, d₁, h₁, h⟩ := Tx.bind_ok h
  obtain ⟨_, d₂, h₂, h⟩ := Tx.bind_ok h
  obtain ⟨_, d₃, h₃, h⟩ := Tx.bind_ok h
  cases h
  obtain ⟨e₁, -, -⟩ := write_ok h₁ hmem rfl rfl rfl
  obtain ⟨-, e₃, -⟩ := append_ok h₃
  have e₂ : d₂.experiments = d₁.experiments := by
    rcases Tx.onlyIf_ok h₂ with ⟨-, h₂⟩ | ⟨-, h₂⟩
    · cases h₂
      rfl
    · rw [h₂]
  have hrows := (congrArg Table.rows (e₃.trans e₂)).trans e₁
  refine ⟨rfl, toState, row, _, hto, hmem, rfl, not_not.mp hexpected, not_not.mp hallowed, ?_, ?_, ?_, hrows⟩
  · rfl
  · rfl
  · exact hkill

/-- What a written progress did. -/
structure Progressed (env : StoreEnv) (id : String) (changes : Changes) (db db' : ExperimentDb) (current : ExperimentRow)
    (updated : ExperimentRecord) : Prop where
  mem : current ∈ db.experiments.rows
  id_eq : current.id = id
  killed : current.state = .KILLED
  start : updated.toExperimentStart = current.toExperimentStart
  state : updated.state = .KILLED
  columns : current.toKillColumns.replace changes = .ok updated.toKillColumns
  rows : RowSet db db' id fun r => r.assign updated env.now

variable {s : ExperimentState}

theorem text_killed (h : s.text = "KILLED") : s = .KILLED := by
  revert h
  cases s <;> decide

theorem updateKillProgress_rows (h : updateKillProgress env id "KILLED" changes db = .ok r db') :
    Outcome env.now db db' ∧ r = db'.get id ∧ ∃ current updated, Progressed env id changes db db' current updated := by
  have hcall : call env (.updateKillProgress id "KILLED" changes) db = .ok (.record r) db' :=
    Tx.ok_map h StoreAnswer.record
  refine ⟨call_outcome hcall, ?_⟩
  obtain ⟨_, -, h⟩ := Tx.check_bind_ok h
  replace h := transaction_ok h
  obtain ⟨current, _, hreq, h⟩ := Tx.bind_ok h
  obtain ⟨rfl, row, hmem, rfl, rfl⟩ := require_ok hreq
  obtain ⟨hstate, h⟩ := Tx.refuseIf_bind_ok h
  obtain ⟨kill, hkill, h⟩ := Tx.check_bind_ok h
  obtain ⟨_, d₁, h₁, h⟩ := Tx.bind_ok h
  cases h
  obtain ⟨e₁, -, -⟩ := write_ok h₁ hmem rfl rfl rfl
  have hkilled := text_killed (not_not.mp hstate)
  refine ⟨rfl, row, _, hmem, rfl, hkilled, ?_, ?_, ?_, e₁⟩
  · rfl
  · exact hkilled
  · exact hkill

/-- `raise_peak` answers the larger of the stored peak and the equity, and stores it. -/
theorem raisePeak_rows {v : Value} (h : raisePeak env id v db = .ok peak db') :
    Outcome env.now db db' ∧ ∃ net current, isNumber v = some net ∧ current ∈ db.experiments.rows ∧ current.id = id ∧
      peak = max current.peakNetLiquidation.val net ∧ (net ≤ current.peakNetLiquidation.val → db' = db) ∧
      ∃ f : ExperimentRow → ExperimentRow, RowSet db db' id f ∧ (f current).peakNetLiquidation.val = peak ∧
        (f current).toExperimentStart = current.toExperimentStart ∧ (f current).state = current.state ∧
        (f current).killSeq = current.killSeq ∧ (f current).killRound = current.killRound ∧
        (f current).killRootId = current.killRootId := by
  have hcall : call env (.raisePeak id v) db = .ok (.value peak) db' := Tx.ok_map h StoreAnswer.value
  refine ⟨call_outcome hcall, ?_⟩
  obtain ⟨value, hvalue, h⟩ := Tx.check_bind_ok h
  replace h := transaction_ok h
  obtain ⟨current, _, hreq, h⟩ := Tx.bind_ok h
  obtain ⟨rfl, row, hmem, rfl, rfl⟩ := require_ok hreq
  have hnet : isNumber v = some value.val := by
    unfold positive at hvalue
    split at hvalue
    · split at hvalue
      · cases hvalue
        assumption
      · cases hvalue
    · cases hvalue
  refine ⟨value.val, row, hnet, hmem, rfl, ?_⟩
  split at h
  · rename_i hlt
    cases h
    refine ⟨(max_eq_right hlt.le).symm, fun hle => absurd hlt (not_lt.mpr hle),
      fun r => { r with peakNetLiquidation := value, updatedAt := env.now }, ?_, rfl, rfl, rfl, rfl, rfl, rfl⟩
    simp [RowSet, Table.updateWhere]
  · rename_i hle
    cases h
    refine ⟨(max_eq_left (not_lt.mp hle)).symm, fun _ => rfl, id, ?_, rfl, rfl, rfl, rfl, rfl, rfl⟩
    simp [RowSet]

theorem insertArmed_rows (h : insertArmed env record principal reason db = .ok r db') :
    Outcome env.now db db' ∧ (db' = db ∨ db.experiments.get? record.experimentId.val = none ∧
      db'.experiments.rows = db.experiments.rows ++ [{ record with updatedAt := env.now }]) := by
  have hcall : call env (.insertArmed record principal reason) db = .ok (.record r) db' := Tx.ok_map h StoreAnswer.record
  refine ⟨call_outcome hcall, ?_⟩
  unfold insertArmed at h
  split at h
  · cases h
  · replace h := Tx.get_bind_ok (transaction_ok (Tx.adapt_ok h))
    cases hown : db.get record.experimentId.val with
    | some own =>
      rw [hown] at h
      cases h
      exact Or.inl rfl
    | none =>
      rw [hown] at h
      cases hactive : db.active.get? record.accountId.val with
      | some active => rw [hactive] at h; cases h
      | none =>
        rw [hactive] at h
        obtain ⟨_, d₁, h₁, h⟩ := Tx.bind_ok h
        obtain ⟨_, d₂, h₂, h⟩ := Tx.bind_ok h
        obtain ⟨_, d₃, h₃, h⟩ := Tx.bind_ok h
        cases h
        obtain ⟨e₁, -, -⟩ := insertExperiment_ok h₁
        obtain ⟨-, e₂, -⟩ := insertActive_ok h₂
        obtain ⟨-, e₃, -⟩ := append_ok h₃
        exact Or.inr ⟨Option.map_eq_none_iff.mp hown, by rw [e₃, e₂, e₁]⟩

/-! ## The invariant of the tables -/

/-- The history says nothing new of any equity. -/
structure SameEquities (h h' : List Event) : Prop where
  equities : ∀ id, equities h' id = equities h id
  raised : ∀ record capture peak, Event.raised record capture peak ∈ h' → Event.raised record capture peak ∈ h

theorem SameEquities.refl (h : List Event) : SameEquities h h := ⟨fun _ => rfl, fun _ _ _ hmem => hmem⟩

theorem SameEquities.snoc (h : List Event) (he : e.Silent) : SameEquities h (h ++ [e]) where
  equities := equities_silent he h
  raised record capture peak hmem := by
    rcases List.mem_append.mp hmem with hmem | hmem
    · exact hmem
    · obtain rfl := List.mem_singleton.mp hmem
      exact he.elim

variable {h h' : List Event}

theorem KillRow.same (hs : SameEquities h h') {r : ExperimentRow} (hr : KillRow h r) : KillRow h' r :=
  ⟨by rw [hs.equities]; exact hr.peak, hr.fresh, hr.root⟩

theorem Wf.same (hw : Wf h db) (hs : SameEquities h h') : Wf h' db :=
  ⟨hw.linked, fun r hr => (hw.row r hr).same hs,
    fun record capture peak hmem => hw.known record capture peak (hs.raised record capture peak hmem)⟩

theorem wf_empty : Wf [] .empty where
  linked := linked_empty
  row r hr := by cases hr
  known record capture peak hmem := by cases hmem

/-- Replacing one row by a well-formed one. -/
theorem Wf.set {now : Int} (hw : Wf h db) (ho : Outcome now db db') (hset : RowSet db db' id f)
    (hc : current ∈ db.experiments.rows) (hid : current.id = id) (hrow : KillRow h' (f current))
    (hother : ∀ id', id' ≠ id → equities h' id' = equities h id')
    (hknown : ∀ record capture peak, Event.raised record capture peak ∈ h' →
      Event.raised record capture peak ∈ h ∨ record.experimentId.val = id) : Wf h' db' where
  linked := ho.linked hw.linked
  row r hr := by
    rcases hset.cases hc hid hr with ⟨hr, hne⟩ | rfl
    · have hold := hw.row r hr
      exact ⟨by rw [hother _ hne]; exact hold.peak, hold.fresh, hold.root⟩
    · exact hrow
  known record capture peak hmem := by
    have hold : ∃ r ∈ db.experiments.rows, r.id = record.experimentId.val := by
      rcases hknown record capture peak hmem with hmem | heq
      · exact hw.known record capture peak hmem
      · exact ⟨current, hc, hid.trans heq.symm⟩
    obtain ⟨r, hr, heq⟩ := hold
    obtain ⟨r', hr', hk, -⟩ := ho.later r hr
    exact ⟨r', hr', hk.id_eq.trans heq⟩

theorem live_before {t : ExperimentState} (h : (s, t) ∈ ALLOWED_TRANSITIONS) (ht : t = .ARMED ∨ t = .PAUSED) :
    s = .ARMED ∨ s = .PAUSED := by
  revert h ht
  cases s <;> cases t <;> decide

variable {updated : ExperimentRecord}

theorem Wf.transition (hw : Wf h db) (hs : SameEquities h h') {toState : ExperimentState} (ho : Outcome env.now db db')
    (ht : Transitioned env id expected toState changes db db' current updated) (hb : Bystander changes)
    (hto : toState ≠ .KILLED) : Wf h' db' := by
  obtain ⟨hpeak, hseq, hround, hroot⟩ := replace_bystander hb ht.columns
  have hcur := (hw.row current ht.mem).same hs
  refine hw.set ho ht.rows ht.mem ht.id_eq ⟨?_, ?_, ?_⟩ (fun id' _ => hs.equities id')
    fun record capture peak hmem => Or.inl (hs.raised record capture peak hmem)
  · exact (congrArg Subtype.val hpeak).trans hcur.peak
  · intro hlive
    have hlive' : updated.state = .ARMED ∨ updated.state = .PAUSED := hlive
    rw [ht.state] at hlive'
    exact hseq.trans (hcur.fresh (live_before ht.allowed hlive'))
  · intro hkilled
    exact absurd (ht.state.symm.trans hkilled) hto

theorem count_int {n m : Nat} (h : count name (.int n) = .ok m) : m = n := by
  have hok : count name (.int n) = .ok n := by simp [count]
  exact Except.ok.inj (h.symm.trans hok)

theorem optional_text {s : String} {v : Option Text} (h : optional text name (.text s) = .ok v) : v.map (·.val) = some s := by
  obtain ⟨t, ht, rfl⟩ := map_ok h
  unfold text at ht
  dsimp only at ht
  split at ht
  · cases ht
    rfl
  · cases ht

/-- **The kill**: the first round of the first kill, with its root. -/
theorem Wf.kill (hw : Wf h db) (hs : SameEquities h h') {e : KillEvaluation} {killedAt : Int} (ho : Outcome env.now db db')
    (ht : Transitioned env record.experimentId.val expected .KILLED (killChanges record capture e killedAt) db db' current
      updated) (hfresh : record.killSeq = 0) : Wf h' db' := by
  obtain ⟨hpeak, hseq, hround, hroot⟩ := replace_ok ht.columns
  have hcur := (hw.row current ht.mem).same hs
  simp only [changed, killChanges, List.find?_cons, List.find?_nil, decide_true, String.reduceEq, decide_false,
    hfresh] at hpeak hseq hround hroot
  refine hw.set ho ht.rows ht.mem ht.id_eq ⟨?_, ?_, ?_⟩ (fun id' _ => hs.equities id')
    fun record capture peak hmem => Or.inl (hs.raised record capture peak hmem)
  · have hpeak' : updated.peakNetLiquidation = current.peakNetLiquidation := (Except.ok.inj hpeak).symm
    exact (congrArg Subtype.val hpeak').trans hcur.peak
  · intro hlive
    have hlive' : updated.state = .ARMED ∨ updated.state = .PAUSED := hlive
    rw [ht.state] at hlive'
    rcases hlive' with hlive' | hlive' <;> cases hlive'
  · intro _
    refine ⟨count_int hseq, (optional_text hroot).trans ?_⟩
    have hround' : updated.killRound = 0 := count_int hround
    have hid : current.experimentId.val = record.experimentId.val := ht.id_eq
    show _ = some (killRootId current.experimentId.val 1 updated.killRound)
    rw [hround', hid]

/-- A progress of a killed experiment leaves round and root alone, or starts the next round with its own root. -/
def Rounds (id : String) (changes : Changes) : Prop :=
  Bystander changes ∨ ∃ (round : Nat) (rest : Changes), Bystander rest ∧
    changes = ("kill_round", .int round) :: ("kill_root_id", .text (killRootId id 1 round)) :: rest

theorem Wf.progress (hw : Wf h db) (hs : SameEquities h h') (ho : Outcome env.now db db')
    (ht : Progressed env id changes db db' current updated) (hr : Rounds id changes) : Wf h' db' := by
  have hcur := (hw.row current ht.mem).same hs
  obtain ⟨hone, hrooted⟩ := hcur.root ht.killed
  have hid : current.experimentId.val = id := ht.id_eq
  have hset : updated.peakNetLiquidation = current.peakNetLiquidation ∧ updated.killSeq = 1 ∧
      updated.killRootId.map (·.val) = some (killRootId id 1 updated.killRound) := by
    rcases hr with hb | ⟨round, rest, hb, rfl⟩
    · obtain ⟨hpeak, hseq, hround, hroot⟩ := replace_bystander hb ht.columns
      refine ⟨hpeak, hseq.trans hone, ?_⟩
      have hroot' : updated.killRootId = current.killRootId := hroot
      have hround' : updated.killRound = current.killRound := hround
      rw [hroot', hround', hrooted, hid]
    · obtain ⟨hpeak, hseq, hround, hroot⟩ := replace_ok ht.columns
      have hrest : ∀ {T : Type} {name : String} {v w : T} {check : String → Value → Except StoreError T},
          name = "peak_net_liquidation" ∨ name = "kill_seq" →
          changed (("kill_round", .int round) :: ("kill_root_id", .text (killRootId id 1 round)) :: rest) name v check =
            .ok w → w = v := by
        intro T name v w check hname hw
        have hfind : changed rest name v check = .ok w := by
          rcases hname with rfl | rfl
          · simpa [changed, List.find?_cons] using hw
          · simpa [changed, List.find?_cons] using hw
        exact changed_bystander hb (by rcases hname with rfl | rfl <;> decide) hfind
      have hround' : count "kill_round" (.int round) = .ok updated.killRound := by
        simpa [changed, List.find?_cons] using hround
      have hroot' : optional text "kill_root_id" (.text (killRootId id 1 round)) = .ok updated.killRootId := by
        simpa [changed, List.find?_cons] using hroot
      refine ⟨hrest (Or.inl rfl) hpeak, (hrest (Or.inr rfl) hseq).trans hone, ?_⟩
      rw [count_int hround']
      exact optional_text hroot'
  obtain ⟨hpeak, hseq, hroot⟩ := hset
  refine hw.set ho ht.rows ht.mem ht.id_eq ⟨?_, ?_, ?_⟩ (fun id' _ => hs.equities id')
    fun record capture peak hmem => Or.inl (hs.raised record capture peak hmem)
  · exact (congrArg Subtype.val hpeak).trans hcur.peak
  · intro hlive
    have hlive' : updated.state = .ARMED ∨ updated.state = .PAUSED := hlive
    rw [ht.state] at hlive'
    rcases hlive' with hlive' | hlive' <;> cases hlive'
  · intro _
    refine ⟨hseq, hroot.trans ?_⟩
    rw [← hid]
    rfl

/-- An evaluated equity: the stored peak stays the largest of all. -/
theorem Wf.raise (hw : Wf h db) (hcall : raisePeak env record.experimentId.val capture.netLiquidation db = .ok peak db') :
    Wf (h ++ [.raised record capture peak]) db' ∧ ∃ net, isNumber capture.netLiquidation = some net ∧
      ∃ r ∈ db.experiments.rows, r.id = record.experimentId.val ∧
        peak = (equities h r.id ++ [net]).foldl max r.killAnchorNetLiquidation.val ∧
        (net ≤ (equities h r.id).foldl max r.killAnchorNetLiquidation.val → db' = db) := by
  obtain ⟨ho, net, current, hnet, hc, hid, hpeak, hsame, f, hset, hfpeak, hstart, hstate, hseq, hround, hroot⟩ :=
    raisePeak_rows hcall
  have hcur := hw.row current hc
  have hlargest : peak = (equities h current.id ++ [net]).foldl max current.killAnchorNetLiquidation.val := by
    rw [hpeak, hcur.peak, List.foldl_append]
    rfl
  refine ⟨hw.set ho hset hc hid ⟨?_, ?_, ?_⟩ ?_ ?_, net, hnet, current, hc, hid, hlargest, ?_⟩
  · have hid' : (f current).id = current.id := congrArg (fun st => st.experimentId.val) hstart
    have hanchor : (f current).killAnchorNetLiquidation = current.killAnchorNetLiquidation :=
      congrArg ExperimentStart.killAnchorNetLiquidation hstart
    rw [hfpeak, hid', hanchor, equities_raised h current.id hnet, if_pos hid.symm]
    exact hlargest
  · rw [hstate, hseq]
    exact hcur.fresh
  · have hid' : (f current).experimentId = current.experimentId := congrArg ExperimentStart.experimentId hstart
    rw [hstate, hseq, hround, hroot, hid']
    exact hcur.root
  · intro id' hne
    rw [equities_raised h id' hnet, if_neg (Ne.symm hne)]
  · intro r c p hmem
    rcases List.mem_append.mp hmem with hmem | hmem
    · exact Or.inl hmem
    · cases List.mem_singleton.mp hmem
      exact Or.inr rfl
  · intro hle
    exact hsame (by rw [hcur.peak]; exact hle)

theorem Wf.arm (hw : Wf h db) {start : ExperimentStart}
    (hcall : insertArmed env (armedRecord start) principal reason db = .ok r db') : Wf h db' := by
  obtain ⟨ho, rfl | ⟨hfresh, hrows⟩⟩ := insertArmed_rows hcall
  · exact hw
  · refine ⟨ho.linked hw.linked, fun r hr => ?_, fun record capture peak hmem => ?_⟩
    · rw [hrows] at hr
      rcases List.mem_append.mp hr with hr | hr
      · exact hw.row r hr
      · obtain rfl := List.mem_singleton.mp hr
        have hnone : equities h start.experimentId.val = [] := by
          refine List.filterMap_eq_nil_iff.mpr fun e he => ?_
          cases e with
          | raised record capture peak =>
            obtain ⟨row, hrow, hid⟩ := hw.known record capture peak he
            refine if_neg fun heq => Table.get?_eq_none.mp hfresh row hrow (hid.trans heq)
          | _ => rfl
        refine ⟨?_, fun _ => rfl, ?_⟩
        · show _ = (equities h start.experimentId.val).foldl max _
          rw [hnone]
          rfl
        · intro hk
          cases hk
    · obtain ⟨row, hrow, hid⟩ := hw.known record capture peak hmem
      exact ⟨row, hrows ▸ List.mem_append_left _ hrow, hid⟩

end MmrTrader.Experiment
