import MmrTrader.Dispatch.Guard
import Mathlib.Algebra.BigOperators.Group.List.Basic
import Mathlib.Tactic.Linarith
import Mathlib.Tactic.Ring

/-!
# Growth of a position proves one fill

* `provenQuantity` — the filled shares of the proven entries of a contract.
* `Claims` — the invariant of both loops of `_fills_in_snapshot`: what is claimed of a contract is what is proven, and
  the position covers it above the baseline of every entry that growth proved.
* `Claims.enumerated`, `Claims.grown` — one turn of each loop keeps it.
* `growth_proves_one_fill` — **each share of growth proves one fill only, and the reservation never under-counts.**
-/

namespace MmrTrader.Dispatch

variable {entries : List InFlightEntry} {snapshot : BrokerRiskSnapshot} {p : ProvenFills}

def sharesOf (groups : List String) (conid : Int) (entry : InFlightEntry) : ℚ :=
  if entry.conid = conid ∧ entry.orderGroupId ∈ groups then entry.filledQuantity else 0

def provenQuantity (entries : List InFlightEntry) (groups : List String) (conid : Int) : ℚ :=
  (entries.map (sharesOf groups conid)).sum

def GrowthProven (entries : List InFlightEntry) (snapshot : BrokerRiskSnapshot) (entry : InFlightEntry) : Prop :=
  entry.orderGroupId ∈ fillsInSnapshot entries snapshot ∧ enumeratedAfterFill entry snapshot = false

/-! ## What is proven -/

variable {groups : List String} {entry : InFlightEntry}

theorem sharesOf_other {conid : Int} {other : InFlightEntry} (h : other.orderGroupId ≠ entry.orderGroupId) :
    sharesOf (entry.orderGroupId :: groups) conid other = sharesOf groups conid other := by
  unfold sharesOf
  simp only [List.mem_cons, h, false_or]

theorem sharesOf_new (conid : Int) (h : entry.orderGroupId ∉ groups) :
    sharesOf (entry.orderGroupId :: groups) conid entry =
      sharesOf groups conid entry + if entry.conid = conid then entry.filledQuantity else 0 := by
  unfold sharesOf
  simp only [List.mem_cons, true_or, and_true, h, and_false, if_false, zero_add]

theorem provenQuantity_cons (hdistinct : (entries.map (·.orderGroupId)).Nodup)
    (hmem : entry ∈ entries) (hnew : entry.orderGroupId ∉ groups) (conid : Int) :
    provenQuantity entries (entry.orderGroupId :: groups) conid =
      provenQuantity entries groups conid + if entry.conid = conid then entry.filledQuantity else 0 := by
  obtain ⟨before, after, rfl⟩ := List.append_of_mem hmem
  rw [List.map_append, List.map_cons, List.nodup_middle, List.nodup_cons, ← List.map_append] at hdistinct
  have hothers : ∀ other ∈ before ++ after, sharesOf (entry.orderGroupId :: groups) conid other =
      sharesOf groups conid other :=
    fun other hother => sharesOf_other fun heq => hdistinct.1 (heq ▸ List.mem_map_of_mem hother)
  have hbefore := List.map_congr_left fun other h => hothers other (List.mem_append_left _ h)
  have hafter := List.map_congr_left fun other h => hothers other (List.mem_append_right _ h)
  unfold provenQuantity
  simp only [List.map_append, List.map_cons, List.sum_append, List.sum_cons, hbefore, hafter, sharesOf_new conid hnew]
  ring

/-! ## The invariant of the loops -/

/-- What is claimed is what is proven, and the position covers it above every baseline. -/
structure Claims (entries : List InFlightEntry) (snapshot : BrokerRiskSnapshot) (p : ProvenFills) : Prop where
  claimed : ∀ conid, p.claimed conid = provenQuantity entries p.groups conid
  covered : ∀ entry ∈ entries, entry.orderGroupId ∈ p.groups → enumeratedAfterFill entry snapshot = false →
    ∃ baseline, entry.baselinePosition = some baseline ∧
      baseline + p.claimed entry.conid ≤ snapshot.reducibleQuantity entry.conid

theorem Claims.start (entries : List InFlightEntry) (snapshot : BrokerRiskSnapshot) :
    Claims entries snapshot ⟨[], fun _ => 0⟩ where
  claimed conid := by
    refine (List.sum_eq_zero fun shares hshares => ?_).symm
    obtain ⟨entry, -, rfl⟩ := List.mem_map.mp hshares
    simp [sharesOf]
  covered entry _ h := absurd h List.not_mem_nil

theorem add_claimed (p : ProvenFills) (entry : InFlightEntry) (conid : Int) :
    (p.add entry).claimed conid = p.claimed conid + if entry.conid = conid then entry.filledQuantity else 0 := by
  unfold ProvenFills.add
  dsimp only
  by_cases h : entry.conid = conid
  · rw [← h, Function.update_self, if_pos rfl]
  · rw [Function.update_of_ne (Ne.symm h), if_neg h, add_zero]

theorem Claims.add_claimed (h : Claims entries snapshot p) (hdistinct : (entries.map (·.orderGroupId)).Nodup)
    (hmem : entry ∈ entries) (hnew : entry.orderGroupId ∉ p.groups) (conid : Int) :
    (p.add entry).claimed conid = provenQuantity entries (p.add entry).groups conid := by
  rw [Dispatch.add_claimed, h.claimed, ← provenQuantity_cons hdistinct hmem hnew]
  rfl

theorem eq_of_group (hdistinct : (entries.map (·.orderGroupId)).Nodup) {a b : InFlightEntry} (ha : a ∈ entries)
    (hb : b ∈ entries) (h : a.orderGroupId = b.orderGroupId) : a = b :=
  List.inj_on_of_nodup_map hdistinct ha hb h

theorem Claims.enumerated (h : Claims entries snapshot p) (hdistinct : (entries.map (·.orderGroupId)).Nodup)
    (hearly : ∀ entry ∈ entries, entry.orderGroupId ∈ p.groups → enumeratedAfterFill entry snapshot = true)
    (hmem : entry ∈ entries) (hnew : entry.orderGroupId ∉ p.groups) :
    Claims entries snapshot (proveByEnumeration snapshot p entry) ∧
      ∀ e ∈ entries, e.orderGroupId ∈ (proveByEnumeration snapshot p entry).groups → enumeratedAfterFill e snapshot = true := by
  unfold proveByEnumeration
  split
  · rename_i henum
    have hall : ∀ e ∈ entries, e.orderGroupId ∈ (p.add entry).groups → enumeratedAfterFill e snapshot = true := by
      intro e he hgroup
      rcases List.mem_cons.mp hgroup with heq | hold
      · rw [eq_of_group hdistinct he hmem heq]
        exact henum
      · exact hearly e he hold
    refine ⟨⟨h.add_claimed hdistinct hmem hnew, fun e he hgroup hnot => ?_⟩, hall⟩
    rw [hall e he hgroup] at hnot
    cases hnot
  · exact ⟨h, hearly⟩

theorem Claims.grown (h : Claims entries snapshot p) (hdistinct : (entries.map (·.orderGroupId)).Nodup)
    (hmem : entry ∈ entries) (hnew : entry.orderGroupId ∉ p.groups)
    (hlow : ∀ e ∈ entries, e.orderGroupId ∈ p.groups → enumeratedAfterFill e snapshot = false →
      e.baselinePosition.getD 0 ≤ entry.baselinePosition.getD 0) : Claims entries snapshot (proveByGrowth snapshot p entry) := by
  unfold proveByGrowth
  split
  · rename_i baseline hbaseline
    split
    · rename_i hgrowth
      have hcovers : baseline + (p.add entry).claimed entry.conid ≤ snapshot.reducibleQuantity entry.conid := by
        rw [Dispatch.add_claimed, if_pos rfl]
        linarith
      refine ⟨h.add_claimed hdistinct hmem hnew, fun e he hgroup hnot => ?_⟩
      rcases List.mem_cons.mp hgroup with heq | hold
      · rw [eq_of_group hdistinct he hmem heq]
        exact ⟨baseline, hbaseline, hcovers⟩
      · obtain ⟨b, hb, hcovered⟩ := h.covered e he hold hnot
        refine ⟨b, hb, ?_⟩
        by_cases hconid : entry.conid = e.conid
        · have hle := hlow e he hold hnot
          rw [hb, hbaseline, Option.getD_some, Option.getD_some] at hle
          rw [← hconid]
          linarith
        · rw [Dispatch.add_claimed, if_neg hconid, add_zero]
          exact hcovered
    · exact h
  · exact h

/-! ## The loops -/

theorem proveByEnumeration_foldl (hdistinct : (entries.map (·.orderGroupId)).Nodup) {filled : List InFlightEntry}
    (hsub : ∀ e ∈ filled, e ∈ entries) (hnodup : (filled.map (·.orderGroupId)).Nodup) (h : Claims entries snapshot p)
    (hearly : ∀ entry ∈ entries, entry.orderGroupId ∈ p.groups → enumeratedAfterFill entry snapshot = true)
    (hnew : ∀ e ∈ filled, e.orderGroupId ∉ p.groups) :
    Claims entries snapshot (filled.foldl (proveByEnumeration snapshot) p) ∧
      ∀ e ∈ entries, e.orderGroupId ∈ (filled.foldl (proveByEnumeration snapshot) p).groups →
        enumeratedAfterFill e snapshot = true := by
  induction filled generalizing p with
  | nil => exact ⟨h, hearly⟩
  | cons entry rest ih =>
    rw [List.map_cons, List.nodup_cons] at hnodup
    obtain ⟨hstep, hstepEarly⟩ :=
      h.enumerated hdistinct hearly (hsub entry List.mem_cons_self) (hnew entry List.mem_cons_self)
    refine ih (fun e he => hsub e (List.mem_cons_of_mem _ he)) hnodup.2 hstep hstepEarly fun e he hgroup => ?_
    have hold := hnew e (List.mem_cons_of_mem _ he)
    unfold proveByEnumeration at hgroup
    split at hgroup
    · rcases List.mem_cons.mp hgroup with heq | hmem
      · exact hnodup.1 (heq ▸ List.mem_map_of_mem he)
      · exact hold hmem
    · exact hold hgroup

theorem groups_proveByGrowth {group : String}
    (h : group ∈ (proveByGrowth snapshot p entry).groups) : group = entry.orderGroupId ∨ group ∈ p.groups := by
  unfold proveByGrowth at h
  split at h
  · split at h
    · exact List.mem_cons.mp h
    · exact .inr h
  · exact .inr h

theorem proveByGrowth_foldl (hdistinct : (entries.map (·.orderGroupId)).Nodup) {byBaseline : List InFlightEntry}
    (hsub : ∀ e ∈ byBaseline, e ∈ entries) (hnodup : (byBaseline.map (·.orderGroupId)).Nodup)
    (hsorted : byBaseline.Pairwise fun a b => a.baselinePosition.getD 0 ≤ b.baselinePosition.getD 0)
    (h : Claims entries snapshot p) (hnew : ∀ e ∈ byBaseline, e.orderGroupId ∉ p.groups)
    (hlow : ∀ e ∈ entries, e.orderGroupId ∈ p.groups → enumeratedAfterFill e snapshot = false →
      ∀ later ∈ byBaseline, e.baselinePosition.getD 0 ≤ later.baselinePosition.getD 0) :
    Claims entries snapshot (byBaseline.foldl (proveByGrowth snapshot) p) := by
  induction byBaseline generalizing p with
  | nil => exact h
  | cons entry rest ih =>
    rw [List.map_cons, List.nodup_cons] at hnodup
    rw [List.pairwise_cons] at hsorted
    have hmem := hsub entry List.mem_cons_self
    have hstep := h.grown hdistinct hmem (hnew entry List.mem_cons_self)
      fun e he hgroup hnot => hlow e he hgroup hnot entry List.mem_cons_self
    refine ih (fun e he => hsub e (List.mem_cons_of_mem _ he)) hnodup.2 hsorted.2 hstep (fun e he hgroup => ?_)
      fun e he hgroup hnot later hlater => ?_
    · rcases groups_proveByGrowth hgroup with heq | hold
      · exact hnodup.1 (heq ▸ List.mem_map_of_mem he)
      · exact hnew e (List.mem_cons_of_mem _ he) hold
    · rcases groups_proveByGrowth hgroup with heq | hold
      · rw [eq_of_group hdistinct he hmem heq]
        exact hsorted.1 later hlater
      · exact hlow e he hold hnot later (List.mem_cons_of_mem _ hlater)

/-- **The claims after both loops.** -/
theorem fillsInSnapshot_claims (hdistinct : (entries.map (·.orderGroupId)).Nodup) (snapshot : BrokerRiskSnapshot) :
    ∃ claimed, Claims entries snapshot ⟨fillsInSnapshot entries snapshot, claimed⟩ := by
  have hnodup : ∀ {l : List InFlightEntry}, l.Sublist entries → (l.map (·.orderGroupId)).Nodup :=
    fun hsub => hdistinct.sublist (hsub.map _)
  unfold fillsInSnapshot
  dsimp only
  have hfilled : ∀ e ∈ entries.filter fun entry => decide (0 < entry.filledQuantity), e ∈ entries :=
    fun e he => List.mem_of_mem_filter he
  obtain ⟨hproven, hearly⟩ := proveByEnumeration_foldl hdistinct hfilled (hnodup List.filter_sublist)
    (Claims.start entries snapshot) (fun _ _ h => absurd h List.not_mem_nil) fun _ _ => List.not_mem_nil
  generalize (entries.filter fun entry => decide (0 < entry.filledQuantity)).foldl (proveByEnumeration snapshot)
    ⟨[], fun _ => 0⟩ = proven at hproven hearly
  refine ⟨_, proveByGrowth_foldl hdistinct (fun e he => ?_) ?_ ?_ hproven (fun e he => ?_) fun e he hgroup hnot => ?_⟩
  · exact List.mem_of_mem_filter (List.mem_of_mem_filter ((List.mem_insertionSort _).mp he))
  · exact (((List.perm_insertionSort _ _).map _).nodup_iff).mpr
      (hnodup (List.filter_sublist.trans List.filter_sublist))
  · exact List.pairwise_insertionSort _ _
  · have hkept := (List.mem_filter.mp ((List.mem_insertionSort _).mp he)).2
    rw [Bool.and_eq_true, Bool.not_eq_true', List.contains_eq_mem, decide_eq_false_iff_not] at hkept
    exact hkept.1
  · rw [hearly e he hgroup] at hnot
    cases hnot

/-! ## The reservation -/

/-- The orders of the snapshot's gross that are the entry's own. -/
def countedOrders (entry : InFlightEntry) (snapshot : BrokerRiskSnapshot) : List BrokerOrderRow :=
  (pendingEntries snapshot).filter fun row =>
    row.orderGroupId == some entry.orderGroupId && row.leg == some .entry

theorem sum_remaining_filter (rows : List BrokerOrderRow) (keep : BrokerOrderRow → Bool) :
    ((rows.filter fun row => keep row && decide (0 < row.remaining)).map (·.remaining)).sum =
      ((rows.filter keep).map (·.remaining)).sum := by
  induction rows with
  | nil => rfl
  | cons row rest ih =>
    by_cases hkeep : keep row = true
    · by_cases hpos : 0 < row.remaining
      · simp [hkeep, hpos, ih]
      · have hzero : row.remaining = 0 := le_antisymm (not_lt.mp hpos) (le_max_left _ _)
        simp [hkeep, hzero, ih]
    · simp [hkeep, ih]

theorem brokerCountedEntryQuantity_eq (entry : InFlightEntry) (snapshot : BrokerRiskSnapshot) :
    brokerCountedEntryQuantity entry snapshot = ((countedOrders entry snapshot).map (·.remaining)).sum := by
  unfold brokerCountedEntryQuantity countedOrders pendingEntries
  rw [← sum_remaining_filter, List.filter_filter]
  congr 3
  funext row
  cases row.deleted <;> cases hbuy : row.action == .BUY <;> simp [Bool.and_comm, Bool.and_assoc]

/-- The shares that an entry may still put into the position beyond what the snapshot proves. -/
def exposedShares (entries : List InFlightEntry) (snapshot : BrokerRiskSnapshot) (entry : InFlightEntry) : ℚ :=
  entry.unfilledQuantity + if entry.orderGroupId ∈ fillsInSnapshot entries snapshot then 0 else entry.filledQuantity

theorem exposedShares_le (entries : List InFlightEntry) (snapshot : BrokerRiskSnapshot) (entry : InFlightEntry) :
    exposedShares entries snapshot entry ≤
      unseenQuantity entry (fillsInSnapshot entries snapshot) snapshot + brokerCountedEntryQuantity entry snapshot := by
  have hunfilled := le_max_right 0 (entry.unfilledQuantity - brokerCountedEntryQuantity entry snapshot)
  unfold exposedShares unseenQuantity
  rw [List.contains_eq_mem]
  simp only [decide_eq_true_eq]
  linarith

theorem exposedNotional_le (entries : List InFlightEntry) (snapshot : BrokerRiskSnapshot) {listed : List InFlightEntry}
    (hprices : ∀ entry ∈ listed, 0 ≤ entry.limitPrice) :
    (listed.map fun entry => exposedShares entries snapshot entry * entry.limitPrice).sum ≤
      (listed.map fun entry =>
          unseenQuantity entry (fillsInSnapshot entries snapshot) snapshot * entry.limitPrice).sum +
        (listed.map fun entry =>
          ((countedOrders entry snapshot).map (·.remaining)).sum * entry.limitPrice).sum := by
  induction listed with
  | nil => simp
  | cons entry rest ih =>
    have hrest := ih fun e he => hprices e (List.mem_cons_of_mem _ he)
    have hentry := mul_le_mul_of_nonneg_right (exposedShares_le entries snapshot entry)
      (hprices entry List.mem_cons_self)
    rw [brokerCountedEntryQuantity_eq] at hentry
    simp only [List.map_cons, List.sum_cons]
    linarith

/-- **Each share of growth proves one fill only**: above the baseline of every entry that growth proves, the position
holds the fills of all proven entries of the contract.  What the guard adds for an entry and what gross counts of its
orders cover the shares it may still add, and so does the reservation, at the limit prices. -/
theorem growth_proves_one_fill (entries : List InFlightEntry) (snapshot : BrokerRiskSnapshot)
    (hdistinct : (entries.map (·.orderGroupId)).Nodup) :
    (∀ conid, ∀ entry ∈ entries, entry.conid = conid → GrowthProven entries snapshot entry →
      ∃ baseline, entry.baselinePosition = some baseline ∧
        baseline + provenQuantity entries (fillsInSnapshot entries snapshot) conid ≤ snapshot.reducibleQuantity conid) ∧
    (∀ entry ∈ entries, exposedShares entries snapshot entry ≤
      unseenQuantity entry (fillsInSnapshot entries snapshot) snapshot +
        ((countedOrders entry snapshot).map (·.remaining)).sum) ∧
    ((∀ entry ∈ entries, 0 ≤ entry.limitPrice) →
      (entries.map fun entry => exposedShares entries snapshot entry * entry.limitPrice).sum ≤
        unseenInFlightNotional entries snapshot +
          (entries.map fun entry => ((countedOrders entry snapshot).map (·.remaining)).sum * entry.limitPrice).sum) := by
  refine ⟨fun conid entry hmem hconid hgrown => ?_, fun entry _ => ?_, exposedNotional_le entries snapshot⟩
  · obtain ⟨claimed, hclaims⟩ := fillsInSnapshot_claims hdistinct snapshot
    obtain ⟨baseline, hbaseline, hcovered⟩ := hclaims.covered entry hmem hgrown.1 hgrown.2
    refine ⟨baseline, hbaseline, ?_⟩
    have hclaimed := hclaims.claimed entry.conid
    dsimp only at hclaimed hcovered
    rw [hclaimed, hconid] at hcovered
    exact hcovered
  · rw [← brokerCountedEntryQuantity_eq]
    exact exposedShares_le entries snapshot entry

/-- Two entries of one contract; the position grew by the shares of one. -/
def sampleEntries : List InFlightEntry :=
  [⟨"og-first", 7, 0, 5, 10, none, some 100⟩, ⟨"og-second", 7, 2, 5, 11, none, some 102⟩]

def sampleSnapshot : BrokerRiskSnapshot :=
  { generationId := 1, sourceCursor := 1, accountId := "DU1", accountMode := .paper, netLiquidation := 1000000,
    positions := [⟨7, 105, none, false⟩], workingOrders := [], generationStartedAt := none }

/-- One fill is proven, the other reserved. -/
theorem sample_growth : ∃ baseline, (some 100 : Option ℚ) = some baseline ∧
    baseline + provenQuantity sampleEntries (fillsInSnapshot sampleEntries sampleSnapshot) 7 ≤
      sampleSnapshot.reducibleQuantity 7 := by
  have hdistinct : (sampleEntries.map (·.orderGroupId)).Nodup := by decide
  have hproven : GrowthProven sampleEntries sampleSnapshot ⟨"og-first", 7, 0, 5, 10, none, some 100⟩ := by
    constructor
    · decide +kernel
    · rfl
  exact (growth_proves_one_fill sampleEntries sampleSnapshot hdistinct).1 7 _ List.mem_cons_self rfl hproven

end MmrTrader.Dispatch
