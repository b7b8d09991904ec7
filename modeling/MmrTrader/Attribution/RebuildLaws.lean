import Mathlib.Data.List.Dedup
import Mathlib.Tactic.Linarith
import Mathlib.Tactic.Ring
import MmrTrader.Attribution.Rebuild

/-!
# When a resolved attribution is a complete trade

The rebuild takes a trade whose position is unknown for a flat one, and the ingest writes positions under trade ids of
their own.  What a resolved attribution says is therefore only as complete as its evidence.

* `finalState`, `finalFills`, `firstCommission`, `lastPosition` — what the evidence says of an execution, of all of
  them, of a commission and of the position; `get?_readAll` and its like read them off the walk.
* `CompleteTrade` — every execution counted once, no share open, profit and commission those of the executions.
* `Refused` — a closing check refuses the trade; `resolved_iff`.
* `Balanced` — the fills balance and their legs agree with their sides.
* `resolved_complete_iff` — **a resolved attribution is a complete trade exactly when the checks refuse it or the
  evidence balances.**
-/

namespace MmrTrader.Attribution

open Lib

variable {D : Type} {tradeId : String} {evidence : List (EvidenceRow D)}

/-! ## What the evidence says -/

/-- The execution that an evidence row is about. -/
def Evidence.execId? : Evidence D → Option String
  | .fill execId _ _ _ _ _ => some execId
  | .fillCorrection execId _ _ _ _ _ _ => some execId
  | .commission execId _ => some execId
  | _ => none

def execIds (evidence : List (EvidenceRow D)) : List String := (ordered evidence).filterMap Evidence.execId?

/-- What a row says of the state of one execution. -/
def correct (execId : String) (current : Option FillState) : Evidence D → Option FillState
  | .fill x leg side quantity price orderEntityId =>
    if x = execId ∧ current = none then some (firstFill x leg side quantity price orderEntityId) else current
  | .fillCorrection x correctionSeq leg side quantity price orderEntityId =>
    if x = execId ∧ ∀ f ∈ current, f.correctionSeq ≤ correctionSeq.getD 0 then
      some (correctedFill current x (correctionSeq.getD 0) leg side quantity price orderEntityId)
    else current
  | _ => current

def finalState (evidence : List (EvidenceRow D)) (execId : String) : Option FillState :=
  (ordered evidence).foldl (correct execId) none

def finalFills (evidence : List (EvidenceRow D)) : List FillState :=
  (execIds evidence).dedup.filterMap (finalState evidence)

/-- The commission of a row, when it is about the execution. -/
def Evidence.commission? (execId : String) : Evidence D → Option ℚ
  | .commission x amount => if x = execId then some (dec amount) else none
  | _ => none

def firstCommission (evidence : List (EvidenceRow D)) (execId : String) : Option ℚ :=
  (ordered evidence).findSome? (Evidence.commission? execId)

def Evidence.position? : Evidence D → Option ℚ
  | .position quantity => some (dec quantity)
  | _ => none

def lastPosition (evidence : List (EvidenceRow D)) : Option ℚ :=
  ((ordered evidence).filterMap Evidence.position?).getLast?

/-! ## The walk reads what the evidence says -/

theorem get?_read (s : Rebuild D) (e : Evidence D) (execId : String) :
    (s.read tradeId e).fillsByExec.get? execId = correct execId (s.fillsByExec.get? execId) e := by
  cases e with
  | fill x leg side quantity price orderEntityId => exact Table.get?_getD_insert? _ _ _
  | fillCorrection x correctionSeq leg side quantity price orderEntityId =>
    unfold Rebuild.read correct
    dsimp only
    by_cases hx : x = execId
    · subst hx
      by_cases hseq : ∀ f ∈ s.fillsByExec.get? x, f.correctionSeq ≤ correctionSeq.getD 0
      · rw [if_pos hseq, if_pos (And.intro rfl hseq), Table.get?_upsert]
        exact if_pos rfl
      · rw [if_neg hseq, if_neg fun h : x = x ∧ _ => hseq h.2]
    · rw [if_neg fun h : x = execId ∧ _ => hx h.1]
      by_cases hseq : ∀ f ∈ s.fillsByExec.get? x, f.correctionSeq ≤ correctionSeq.getD 0
      · rw [if_pos hseq, Table.get?_upsert]
        exact if_neg hx
      · rw [if_neg hseq]
  | _ => rfl

theorem get?_foldl (es : List (Evidence D)) (s : Rebuild D) (execId : String) :
    (es.foldl (Rebuild.read tradeId) s).fillsByExec.get? execId = es.foldl (correct execId) (s.fillsByExec.get? execId) := by
  induction es generalizing s with
  | nil => rfl
  | cons e es ih => rw [List.foldl_cons, ih, get?_read, List.foldl_cons]

theorem get?_readAll (tradeId execId : String) :
    (readAll tradeId evidence).fillsByExec.get? execId = finalState evidence execId := get?_foldl _ _ _

theorem commission_read (s : Rebuild D) (e : Evidence D) (execId : String) :
    ((s.read tradeId e).commissions.get? execId).map (·.2) =
      ((s.commissions.get? execId).map (·.2)).or (e.commission? execId) := by
  cases e with
  | commission x commission =>
    change (((s.commissions.insert? (x, dec commission)).getD s.commissions).get? execId).map (·.2) = _
    rw [Table.get?_getD_insert?]
    unfold Evidence.commission?
    dsimp only
    cases hget : s.commissions.get? execId with
    | some c => simp
    | none => by_cases hx : x = execId <;> simp [hx]
  | fillCorrection x correctionSeq leg side quantity price orderEntityId =>
    unfold Rebuild.read
    dsimp only
    split <;> exact Option.or_none.symm
  | _ => exact Option.or_none.symm

theorem commission_foldl (es : List (Evidence D)) (s : Rebuild D) (execId : String) :
    ((es.foldl (Rebuild.read tradeId) s).commissions.get? execId).map (·.2) =
      ((s.commissions.get? execId).map (·.2)).or (es.findSome? (Evidence.commission? execId)) := by
  induction es generalizing s with
  | nil => exact Option.or_none.symm
  | cons e es ih =>
    rw [List.foldl_cons, ih, commission_read, Option.or_assoc, List.findSome?_cons]
    cases e.commission? execId <;> rfl

theorem commission_readAll (tradeId execId : String) :
    ((readAll tradeId evidence).commissions.get? execId).map (·.2) = firstCommission evidence execId :=
  commission_foldl _ _ _

theorem position_read (s : Rebuild D) (e : Evidence D) :
    (s.read tradeId e).positionQty = e.position?.or s.positionQty := by
  cases e with
  | fillCorrection x correctionSeq leg side quantity price orderEntityId =>
    unfold Rebuild.read
    dsimp only
    split <;> rfl
  | _ => rfl

theorem position_foldl (es : List (Evidence D)) (s : Rebuild D) :
    (es.foldl (Rebuild.read tradeId) s).positionQty = (es.filterMap Evidence.position?).getLast?.or s.positionQty := by
  induction es generalizing s with
  | nil => rfl
  | cons e es ih =>
    rw [List.foldl_cons, ih, position_read, List.filterMap_cons, ← Option.or_assoc]
    congr 1
    cases hpos : e.position? with
    | none => simp
    | some q => cases hlast : (es.filterMap Evidence.position?).getLast? <;> simp [List.getLast?_cons, hlast]

theorem position_readAll : (readAll tradeId evidence).positionQty = lastPosition evidence := by
  refine (position_foldl _ _).trans ?_
  exact Option.or_none

theorem known_read (s : Rebuild D) (e : Evidence D) (execId : String) :
    ((s.read tradeId e).fillsByExec.get? execId).isSome ∨ ((s.read tradeId e).commissions.get? execId).isSome ↔
      (s.fillsByExec.get? execId).isSome ∨ (s.commissions.get? execId).isSome ∨ e.execId? = some execId := by
  have hcommission : ∀ s' : Rebuild D, (s'.commissions.get? execId).isSome =
      ((s'.commissions.get? execId).map (·.2)).isSome := fun s' => (Option.isSome_map).symm
  rw [get?_read, hcommission, commission_read, hcommission s]
  cases e with
  | fill x leg side quantity price orderEntityId =>
    unfold correct Evidence.commission? Evidence.execId?
    dsimp only
    rw [Option.or_none, Option.some_inj]
    cases hget : s.fillsByExec.get? execId with
    | some f => simp
    | none => by_cases hx : x = execId <;> simp [hx]
  | fillCorrection x correctionSeq leg side quantity price orderEntityId =>
    unfold correct Evidence.commission? Evidence.execId?
    dsimp only
    rw [Option.or_none, Option.some_inj]
    cases hget : s.fillsByExec.get? execId with
    | some f =>
      by_cases hc : x = execId ∧ ∀ g ∈ some f, g.correctionSeq ≤ correctionSeq.getD 0
      · rw [if_pos hc]
        simp
      · rw [if_neg hc]
        simp
    | none => by_cases hx : x = execId <;> simp [hx]
  | commission x commission =>
    unfold correct Evidence.commission? Evidence.execId?
    dsimp only
    rw [Option.some_inj, Option.isSome_or]
    by_cases hx : x = execId <;> simp [hx]
  | _ => simp [correct, Evidence.commission?, Evidence.execId?]

theorem known_foldl (es : List (Evidence D)) (s : Rebuild D) (execId : String) :
    ((es.foldl (Rebuild.read tradeId) s).fillsByExec.get? execId).isSome ∨
        ((es.foldl (Rebuild.read tradeId) s).commissions.get? execId).isSome ↔
      (s.fillsByExec.get? execId).isSome ∨ (s.commissions.get? execId).isSome ∨ execId ∈ es.filterMap Evidence.execId? := by
  induction es generalizing s with
  | nil => simp
  | cons e es ih =>
    rw [List.foldl_cons, ih, ← or_assoc, known_read, List.mem_filterMap, List.mem_filterMap]
    simp only [List.mem_cons, exists_eq_or_imp, or_assoc]

variable {execId : String}

theorem mem_execIds (tradeId : String) : execId ∈ execIds evidence ↔
    (finalState evidence execId).isSome ∨ (firstCommission evidence execId).isSome := by
  rw [← get?_readAll tradeId, ← commission_readAll tradeId, Option.isSome_map]
  exact ((known_foldl (ordered evidence) {} execId).trans (by simp [execIds])).symm

/-! ## Fills and commissions as lists -/

variable {f : FillState}

theorem mem_rows : f ∈ (readAll tradeId evidence).fillsByExec.rows ↔ finalState evidence f.execId = some f := by
  rw [← get?_readAll tradeId, Table.get?_eq_some]
  exact ⟨fun h => ⟨h, rfl⟩, And.left⟩

theorem finalState_execId (h : finalState evidence execId = some f) : f.execId = execId := by
  rw [← get?_readAll "", Table.get?_eq_some] at h
  exact h.2

theorem mem_finalFills : f ∈ finalFills evidence ↔ finalState evidence f.execId = some f := by
  unfold finalFills
  rw [List.mem_filterMap]
  constructor
  · rintro ⟨x, -, hx⟩
    rw [finalState_execId hx]
    exact hx
  · intro h
    exact ⟨f.execId, List.mem_dedup.mpr ((mem_execIds "").mpr (.inl (by rw [h]; rfl))), h⟩

theorem nodup_finalFills : (finalFills evidence).Nodup := by
  refine List.Nodup.filterMap (fun x y f hx hy => ?_) (List.nodup_dedup _)
  exact (finalState_execId (Option.mem_def.mp hx)).symm.trans (finalState_execId (Option.mem_def.mp hy))

theorem rows_perm (tradeId : String) : ((readAll tradeId evidence).fillsByExec.rows).Perm (finalFills evidence) :=
  (List.perm_ext_iff_of_nodup (List.Nodup.of_map _ (readAll tradeId evidence).fillsByExec.nodup) nodup_finalFills).mpr
    fun _ => mem_rows.trans mem_finalFills.symm

/-! ## How fills are counted -/

variable {fills : List FillState}

theorem exitFillStates_eq (hnodup : (fills.map (·.execId)).Nodup) :
    exitFillStates fills = fills.filter fun f => f.OnExitLeg ∨ f.Sells ∧ ¬ f.IsEntry := by
  unfold exitFillStates
  rw [List.filter_filter]
  refine List.filter_congr fun f hf => ?_
  have hkey : f.execId ∈ (entryFills fills).map (·.execId) ↔ f.IsEntry := by
    constructor
    · intro h
      obtain ⟨g, hg, hgf⟩ := List.mem_map.mp h
      obtain ⟨hmem, hentry⟩ := List.mem_filter.mp hg
      rw [← List.inj_on_of_nodup_map hnodup hmem hf hgf]
      exact of_decide_eq_true hentry
    · intro h
      exact List.mem_map_of_mem (List.mem_filter.mpr ⟨hf, decide_eq_true h⟩)
  rw [Bool.eq_iff_iff, Bool.and_eq_true, decide_eq_true_eq, decide_eq_true_eq, decide_eq_true_eq, hkey]
  constructor
  · rintro ⟨hleg | hnot, hleg' | hsell⟩
    · exact .inl hleg
    · exact .inl hleg
    · exact .inl hleg'
    · exact .inr ⟨hsell, hnot⟩
  · rintro (hleg | ⟨hsell, hnot⟩)
    · exact ⟨.inl hleg, .inl hleg⟩
    · exact ⟨.inr hnot, .inr hsell⟩

abbrev FillState.IsExit (f : FillState) : Prop := f.OnExitLeg ∨ f.Sells ∧ ¬ f.IsEntry

abbrev FillState.PlacedOnce (f : FillState) : Prop := (f.OnExitLeg → ¬ f.Buys) ∧ (f.IsEntry ∨ f.OnExitLeg ∨ f.Sells)

theorem FillState.placedOnce_iff (f : FillState) : f.PlacedOnce ↔ (f.IsExit ↔ ¬ f.IsEntry) := by
  have hlegs : f.leg = "entry" → ¬ f.OnExitLeg := by
    intro h
    rw [FillState.OnExitLeg, h]
    decide
  by_cases hleg : f.leg = "entry" <;> by_cases hexit : f.OnExitLeg <;> by_cases hbuys : f.Buys <;>
    by_cases hsells : f.Sells <;> simp_all [FillState.PlacedOnce, FillState.IsExit, FillState.IsEntry]

section

variable (tradeId evidence)

theorem entries_eq : (readAll tradeId evidence).entries =
    (readAll tradeId evidence).fillsByExec.rows.filter fun f => f.IsEntry := rfl

theorem exits_eq : (readAll tradeId evidence).exits =
    (readAll tradeId evidence).fillsByExec.rows.filter fun f => f.IsExit :=
  exitFillStates_eq (readAll tradeId evidence).fillsByExec.nodup

end

theorem sum_entries (v : FillState → ℚ) : ((readAll tradeId evidence).entries.map v).sum =
    (((finalFills evidence).filter fun f => f.IsEntry).map v).sum := by
  rw [entries_eq]
  exact (((rows_perm tradeId).filter _).map v).sum_eq

theorem sum_exits (v : FillState → ℚ) : ((readAll tradeId evidence).exits.map v).sum =
    (((finalFills evidence).filter fun f => f.IsExit).map v).sum := by
  rw [exits_eq]
  exact (((rows_perm tradeId).filter _).map v).sum_eq

theorem count_add (fills : List FillState) (hnodup : fills.Nodup) (hf : f ∈ fills) :
    (fills.filter fun f => f.IsEntry).count f + (fills.filter fun f => f.IsExit).count f = 1 ↔ f.PlacedOnce := by
  have hin : ∀ {p : FillState → Prop} [DecidablePred p], f ∈ fills.filter (fun f => p f) ↔ p f := by
    intro p _
    rw [List.mem_filter, decide_eq_true_eq]
    exact and_iff_right hf
  rw [(hnodup.filter _).count, (hnodup.filter _).count, f.placedOnce_iff, if_congr hin rfl rfl, if_congr hin rfl rfl]
  by_cases hentry : f.IsEntry
  · by_cases hexit : f.IsExit
    · rw [if_pos hentry, if_pos hexit]
      exact ⟨fun h => absurd h (by decide), fun h => absurd hentry (h.mp hexit)⟩
    · rw [if_pos hentry, if_neg hexit]
      exact ⟨fun _ => ⟨fun he => absurd he hexit, fun he => absurd hentry he⟩, fun _ => rfl⟩
  · by_cases hexit : f.IsExit
    · rw [if_neg hentry, if_pos hexit]
      exact ⟨fun _ => ⟨fun _ => hentry, fun _ => hexit⟩, fun _ => rfl⟩
    · rw [if_neg hentry, if_neg hexit]
      exact ⟨fun h => absurd h (by decide), fun h => absurd (h.mpr hentry) hexit⟩

theorem sum_exits_sub_entries (h : ∀ f ∈ fills, f.PlacedOnce) (v : FillState → ℚ) :
    ((fills.filter fun f => f.IsExit).map v).sum - ((fills.filter fun f => f.IsEntry).map v).sum =
      (fills.map fun f => if f.IsEntry then - v f else v f).sum := by
  have hexit : (fills.filter fun f => f.IsExit) = fills.filter fun f => ¬ f.IsEntry :=
    List.filter_congr fun f hf => by
      rw [decide_eq_decide]
      exact f.placedOnce_iff.mp (h f hf)
  rw [hexit, List.sum_map_ite (fun f => f.IsEntry) (fun f => - v f) v]
  have hneg : ∀ l : List FillState, (l.map fun f => - v f).sum = - (l.map v).sum := by
    intro l
    induction l with
    | nil => simp
    | cons f l ih =>
      simp only [List.map_cons, List.sum_cons, ih]
      ring
  rw [hneg]
  ring

/-! ## The closing checks -/

/-- A closing check refuses the trade: nothing counts as an entry, or nothing as an exit, the last position is known
and not zero, or a counted fill has no commission. -/
def Refused (evidence : List (EvidenceRow D)) : Prop :=
  (∀ f ∈ finalFills evidence, ¬ f.IsEntry) ∨ (∀ f ∈ finalFills evidence, ¬ f.IsExit) ∨
    (∃ q, lastPosition evidence = some q ∧ q ≠ 0) ∨
    ∃ f ∈ finalFills evidence, (f.IsEntry ∨ f.IsExit) ∧ firstCommission evidence f.execId = none

theorem Rebuild.priced_iff (s : Rebuild D) : s.Priced ↔ s.Closed ∧ s.missingCommissions = [] := by
  refine and_congr_right fun hclosed => ?_
  obtain ⟨hentry, hexit, hflat⟩ := hclosed
  unfold Rebuild.openReasons
  rw [if_neg hentry, if_neg hexit, if_pos hflat]
  by_cases hmissing : s.missingCommissions = []
  · rw [if_neg fun h => h.2 hmissing]
    exact ⟨fun _ => hmissing, fun _ => List.not_mem_nil⟩
  · rw [if_pos ⟨⟨hentry, hexit, hflat⟩, hmissing⟩]
    exact ⟨fun h => absurd List.mem_cons_self h, fun h => absurd h hmissing⟩

theorem Rebuild.resolved_iff (s : Rebuild D) : s.resolved = true ↔ s.Priced := by
  unfold Rebuild.resolved
  rw [decide_eq_true_eq]
  constructor
  · rintro ⟨-, hgross, -⟩
    unfold Rebuild.grossPnl at hgross
    by_contra hpriced
    rw [if_neg hpriced] at hgross
    cases hgross
  · intro hpriced
    obtain ⟨⟨hentry, hexit, hflat⟩, hmissing⟩ := s.priced_iff.mp hpriced
    have hgross : s.grossPnl.isSome := by
      unfold Rebuild.grossPnl
      rw [if_pos hpriced]
      rfl
    refine ⟨?_, hgross, by rw [Rebuild.netPnl, Option.isSome_map]; exact hgross⟩
    have hnone : s.openReasons = [] := by
      unfold Rebuild.openReasons
      rw [if_neg hentry, if_neg hexit, if_pos hflat, if_neg fun h => h.2 hmissing]
      rfl
    unfold Rebuild.unresolved
    rw [if_pos hpriced, hnone]
    rfl

theorem filter_rows_ne_nil {p : FillState → Prop} [DecidablePred p] :
    (readAll tradeId evidence).fillsByExec.rows.filter (fun f => p f) ≠ [] ↔ ¬ ∀ f ∈ finalFills evidence, ¬ p f := by
  rw [Ne, List.filter_eq_nil_iff]
  refine not_congr ⟨fun h f hf => ?_, fun h f hf => ?_⟩
  · have := h f ((rows_perm tradeId).mem_iff.mpr hf)
    rwa [decide_eq_true_eq] at this
  · rw [decide_eq_true_eq]
    exact h f ((rows_perm tradeId).mem_iff.mp hf)

theorem flatOrUnknown_iff : (readAll tradeId evidence).FlatOrUnknown ↔ ¬ ∃ q, lastPosition evidence = some q ∧ q ≠ 0 := by
  rw [Rebuild.FlatOrUnknown, position_readAll]
  cases lastPosition evidence with
  | none => simp
  | some q => simp

theorem missingCommissions_eq_nil : (readAll tradeId evidence).missingCommissions = [] ↔
    ¬ ∃ f ∈ finalFills evidence, (f.IsEntry ∨ f.IsExit) ∧ firstCommission evidence f.execId = none := by
  unfold Rebuild.missingCommissions
  rw [List.map_eq_nil_iff, List.filter_eq_nil_iff, entries_eq, exits_eq]
  have hcommission : ∀ f : FillState, ((readAll tradeId evidence).commissions.get? f.execId).isNone = true ↔
      firstCommission evidence f.execId = none := by
    intro f
    rw [← commission_readAll tradeId, Option.isNone_iff_eq_none, Option.map_eq_none_iff]
  constructor
  · rintro h ⟨f, hf, hcounted, hnone⟩
    have hrow := (rows_perm tradeId).mem_iff.mpr hf
    refine h f (List.mem_append.mpr ?_) ((hcommission f).mpr hnone)
    exact hcounted.imp (fun he => List.mem_filter.mpr ⟨hrow, decide_eq_true he⟩)
      fun he => List.mem_filter.mpr ⟨hrow, decide_eq_true he⟩
  · intro h f hf hnone
    have hnone := (hcommission f).mp hnone
    rcases List.mem_append.mp hf with hf | hf
    · obtain ⟨hrow, he⟩ := List.mem_filter.mp hf
      exact h ⟨f, (rows_perm tradeId).mem_iff.mp hrow, .inl (of_decide_eq_true he), hnone⟩
    · obtain ⟨hrow, he⟩ := List.mem_filter.mp hf
      exact h ⟨f, (rows_perm tradeId).mem_iff.mp hrow, .inr (of_decide_eq_true he), hnone⟩

/-- **A trade is resolved when no closing check refuses it.** -/
theorem resolved_iff : (rebuildAttribution tradeId evidence).resolved = true ↔ ¬ Refused evidence := by
  refine (readAll tradeId evidence).resolved_iff.trans ((readAll tradeId evidence).priced_iff.trans ?_)
  unfold Refused Rebuild.Closed
  rw [entries_eq, exits_eq, filter_rows_ne_nil, filter_rows_ne_nil, flatOrUnknown_iff, missingCommissions_eq_nil,
    not_or, not_or, not_or, and_assoc, and_assoc]

theorem grossPnl_eq (h : ¬ Refused evidence) : (rebuildAttribution tradeId evidence).grossPnl =
    some ((((finalFills evidence).filter fun f => f.IsExit).map (·.value)).sum -
      (((finalFills evidence).filter fun f => f.IsEntry).map (·.value)).sum) := by
  have hpriced : (readAll tradeId evidence).Priced := (readAll tradeId evidence).resolved_iff.mp (resolved_iff.mpr h)
  change (readAll tradeId evidence).grossPnl = _
  unfold Rebuild.grossPnl
  rw [if_pos hpriced, sum_entries, sum_exits]

/-! ## A complete trade -/

/-- What a resolved attribution claims to be. -/
structure CompleteTrade (tradeId : String) (evidence : List (EvidenceRow D)) : Prop where
  /-- Every execution of the evidence is counted exactly once, in its final corrected state. -/
  once : ∀ execId ∈ execIds evidence, ∃ f, finalState evidence execId = some f ∧
    (readAll tradeId evidence).entries.count f + (readAll tradeId evidence).exits.count f = 1
  /-- No share is left. -/
  quantities : ((readAll tradeId evidence).entries.map (·.quantity)).sum =
    ((readAll tradeId evidence).exits.map (·.quantity)).sum
  /-- The profit is the value of the sells less the value of the buys. -/
  gross : (rebuildAttribution tradeId evidence).grossPnl =
    some ((((finalFills evidence).filter fun f => f.Sells).map (·.value)).sum -
      (((finalFills evidence).filter fun f => f.Buys).map (·.value)).sum)
  /-- The commission is that of these executions. -/
  commission : (rebuildAttribution tradeId evidence).totalCommission =
    ((finalFills evidence).map fun f => (firstCommission evidence f.execId).getD 0).sum

def FillState.sideValue (f : FillState) : ℚ := if f.Sells then f.value else if f.Buys then - f.value else 0

/-- The evidence balances: every execution it names has a fill that leg and side place once, as many shares are
counted out as in, and legs that contradict their sides cancel in value. -/
structure Balanced (evidence : List (EvidenceRow D)) : Prop where
  filled : ∀ execId ∈ execIds evidence, (finalState evidence execId).isSome
  placed : ∀ f ∈ finalFills evidence, f.PlacedOnce
  shares : ((finalFills evidence).map fun f => if f.IsEntry then - f.quantity else f.quantity).sum = 0
  values : ((finalFills evidence).map fun f => if f.IsEntry then - f.value else f.value).sum =
    ((finalFills evidence).map FillState.sideValue).sum

theorem sum_sideValue (fills : List FillState) : ((fills.filter fun f => f.Sells).map (·.value)).sum -
    ((fills.filter fun f => f.Buys).map (·.value)).sum = (fills.map FillState.sideValue).sum := by
  induction fills with
  | nil => simp
  | cons f fills ih =>
    have hdisjoint : f.Sells → ¬ f.Buys := by
      unfold FillState.Sells FillState.Buys
      intro hsells
      simp only [exitSides, List.mem_cons, List.not_mem_nil, or_false] at hsells
      rcases hsells with h | h | h | h <;> rw [h] <;> decide
    rw [List.map_cons, List.sum_cons, ← ih]
    unfold FillState.sideValue
    by_cases hsells : f.Sells
    · simp only [List.filter_cons, hsells, hdisjoint hsells, decide_true, decide_false, if_true, Bool.false_eq_true,
        if_false, List.map_cons, List.sum_cons]
      ring
    · by_cases hbuys : f.Buys
      · simp only [List.filter_cons, hsells, hbuys, decide_true, decide_false, if_true, Bool.false_eq_true, if_false,
          List.map_cons, List.sum_cons]
        ring
      · simp only [List.filter_cons, hsells, hbuys, decide_false, Bool.false_eq_true, if_false]
        ring

theorem totalCommission_eq (hfilled : ∀ execId ∈ execIds evidence, (finalState evidence execId).isSome)
    (hpaid : ∀ f ∈ finalFills evidence, firstCommission evidence f.execId ≠ none) :
    (rebuildAttribution tradeId evidence).totalCommission =
      ((finalFills evidence).map fun f => (firstCommission evidence f.execId).getD 0).sum := by
  change ((readAll tradeId evidence).commissions.rows.map (·.2)).sum = _
  have hget : ∀ c ∈ (readAll tradeId evidence).commissions.rows, firstCommission evidence c.1 = some c.2 := by
    intro c hc
    rw [← commission_readAll tradeId, Table.get?_of_mem hc]
    rfl
  have hcommissions : (readAll tradeId evidence).commissions.rows.map (·.2) =
      ((readAll tradeId evidence).commissions.rows.map (·.1)).map fun x => (firstCommission evidence x).getD 0 := by
    rw [List.map_map]
    refine List.map_congr_left fun c hc => ?_
    rw [Function.comp_apply, hget c hc]
    rfl
  have hfills : ((finalFills evidence).map fun f => (firstCommission evidence f.execId).getD 0) =
      ((finalFills evidence).map (·.execId)).map fun x => (firstCommission evidence x).getD 0 := by
    rw [List.map_map]
    rfl
  have hkeys : ((finalFills evidence).map (·.execId)).Nodup :=
    ((rows_perm "").map _).nodup_iff.mp (readAll "" evidence).fillsByExec.nodup
  rw [hcommissions, hfills]
  refine (List.Perm.map _ ((List.perm_ext_iff_of_nodup (readAll tradeId evidence).commissions.nodup hkeys).mpr
    fun x => ?_)).sum_eq
  constructor
  · intro hx
    obtain ⟨c, hc, rfl⟩ := List.mem_map.mp hx
    obtain ⟨f, hf⟩ := Option.isSome_iff_exists.mp
      (hfilled c.1 ((mem_execIds tradeId).mpr (.inr (by rw [hget c hc]; rfl))))
    have hid := finalState_execId hf
    exact List.mem_map.mpr ⟨f, mem_finalFills.mpr (by rw [hid]; exact hf), hid⟩
  · intro hx
    obtain ⟨f, hf, rfl⟩ := List.mem_map.mp hx
    have hsome := Option.ne_none_iff_isSome.mp (hpaid f hf)
    rw [← commission_readAll tradeId, Option.isSome_map] at hsome
    obtain ⟨c, hc⟩ := Option.isSome_iff_exists.mp hsome
    obtain ⟨hmem, hid⟩ := Table.get?_eq_some.mp hc
    exact List.mem_map.mpr ⟨c, hmem, hid⟩

theorem count_rows (hf : f ∈ finalFills evidence) :
    (readAll tradeId evidence).entries.count f + (readAll tradeId evidence).exits.count f = 1 ↔ f.PlacedOnce := by
  rw [entries_eq, exits_eq]
  exact count_add _ (List.Nodup.of_map _ (readAll tradeId evidence).fillsByExec.nodup) ((rows_perm tradeId).mem_iff.mpr hf)

theorem CompleteTrade.balanced (h : CompleteTrade tradeId evidence) (hopen : ¬ Refused evidence) : Balanced evidence := by
  have hplaced : ∀ f ∈ finalFills evidence, f.PlacedOnce := by
    intro f hf
    have hstate := mem_finalFills.mp hf
    obtain ⟨g, hg, hcount⟩ := h.once f.execId ((mem_execIds tradeId).mpr (.inl (by rw [hstate]; rfl)))
    obtain rfl : f = g := Option.some.inj (hstate.symm.trans hg)
    exact (count_rows hf).mp hcount
  refine ⟨fun x hx => ?_, hplaced, ?_, ?_⟩
  · obtain ⟨f, hf, -⟩ := h.once x hx
    rw [hf]
    rfl
  · have hquantities := h.quantities
    rw [sum_entries, sum_exits] at hquantities
    rw [← sum_exits_sub_entries hplaced (·.quantity)]
    linarith
  · have hgross := Option.some.inj ((grossPnl_eq hopen).symm.trans h.gross)
    rw [sum_exits_sub_entries hplaced (·.value), sum_sideValue] at hgross
    exact hgross

theorem Balanced.complete (h : Balanced evidence) (hopen : ¬ Refused evidence) : CompleteTrade tradeId evidence := by
  refine ⟨fun x hx => ?_, ?_, ?_, totalCommission_eq h.filled fun f hf hnone => ?_⟩
  · obtain ⟨f, hf⟩ := Option.isSome_iff_exists.mp (h.filled x hx)
    have hmem : f ∈ finalFills evidence := mem_finalFills.mpr (by rw [finalState_execId hf]; exact hf)
    exact ⟨f, hf, (count_rows hmem).mpr (h.placed f hmem)⟩
  · have hshares := h.shares
    rw [← sum_exits_sub_entries h.placed (·.quantity)] at hshares
    rw [sum_entries, sum_exits]
    linarith
  · rw [grossPnl_eq hopen, sum_exits_sub_entries h.placed (·.value), sum_sideValue, h.values]
  · refine hopen (.inr (.inr (.inr ⟨f, hf, ?_, hnone⟩)))
    by_cases he : f.IsEntry
    · exact .inl he
    · exact .inr (f.placedOnce_iff.mp (h.placed f hf) |>.mpr he)

/-- **A resolved attribution is a complete trade exactly when a closing check refuses it or its evidence balances.** -/
theorem resolved_complete_iff (tradeId : String) (evidence : List (EvidenceRow D)) :
    ((rebuildAttribution tradeId evidence).resolved = true → CompleteTrade tradeId evidence) ↔
      Refused evidence ∨ Balanced evidence := by
  constructor
  · intro h
    by_cases hrefused : Refused evidence
    · exact .inl hrefused
    · exact .inr ((h (resolved_iff.mpr hrefused)).balanced hrefused)
  · intro h hresolved
    have hopen := resolved_iff.mp hresolved
    exact (h.resolve_left hopen).complete hopen

/-! ## A half-closed trade -/

def ingestedFill (execId side : String) (quantity price : ℚ) : Broker.BrokerFillRow :=
  ⟨"DU1", execId, some execId, none, none, "s1", 265598, side, quantity, price, none, none, none, 0, 1, 0⟩

/-- Ten shares bought, four sold by the stop; the position row of the account is under its own trade id. -/
def partialExit : List (EvidenceRow Unit) :=
  [notifyFill "2026-07-18 14:30:00+00:00" "cmd-1" (some "entry") (ingestedFill "e1" "BUY" 10 160),
   notifyCommission "2026-07-18 14:30:00+00:00" "cmd-1" "DU1" "e1" 1,
   notifyFill "2026-07-18 14:31:00+00:00" "cmd-1" (some "stop") (ingestedFill "e2" "SELL" 4 150),
   notifyCommission "2026-07-18 14:31:00+00:00" "cmd-1" "DU1" "e2" 1]

/-- The rest of the position is still held, and the trade is resolved with a loss. -/
theorem partial_exit_resolved :
    ¬ ((rebuildAttribution "cmd-1" partialExit).resolved = true → CompleteTrade "cmd-1" partialExit) := by
  intro h
  have hresolved : (rebuildAttribution "cmd-1" partialExit).resolved = true := by decide +kernel
  have hquantities : ((readAll "cmd-1" partialExit).entries.map (·.quantity)).sum ≠
      ((readAll "cmd-1" partialExit).exits.map (·.quantity)).sum := by decide +kernel
  exact hquantities (h hresolved).quantities

end MmrTrader.Attribution
