import MmrTrader.Strategy.Parties

/-!
# The rows of the outbox

* `Has` — the outbox has a row of a strategy, at a revision, with a payload.
* `StoreOk` — the revisions of a strategy are 1, 2, … in the order of the rows, and a committed receipt has its row.
-/

namespace MmrTrader.Strategy

open Lib Journal
open Command (Json)

/-! ## The rows of the outbox -/

def Has (s : RevisionStore) (name : String) (n : Nat) (p : Payload Json) : Prop :=
  ∃ row ∈ s.outbox, row.strategyName = name ∧ row.stateRevision = n ∧ row.payload = p

def rowsOf (s : RevisionStore) (name : String) : List OutboxRow := s.outbox.filter fun row => row.strategyName = name

def Carries (p : Payload Json) (state : String) (control : Nat) : Prop := state ≠ "" ∧ Observes p (.text state) (.ofInt control)

def ReceiptOk (s : RevisionStore) (r : StrategyCommandReceipt) (state : String) : Prop :=
  r.state = .COMMITTED → ∃ p, Has s r.strategyName r.stateRevision p ∧ Carries p state r.controlRevision

structure StoreOk (s : RevisionStore) : Prop where
  numbered : ∀ name, (rowsOf s name).map (·.stateRevision) = List.range' 1 (s.stateRevision name)
  ackIds : s.outbox.map (·.ackId) = List.range' 1 s.outbox.length
  carries : ∀ row ∈ s.outbox, ∃ state control, Carries row.payload state control
  receipts : ∀ r ∈ s.receipts.rows, ∃ state, ReceiptOk s r state

variable {s s' : RevisionStore} {name : String} {n m : Nat} {p p' : Payload Json}
variable {row : OutboxRow}

theorem mem_rowsOf : row ∈ rowsOf s name ↔ row ∈ s.outbox ∧ row.strategyName = name := by
  unfold rowsOf
  rw [List.mem_filter, decide_eq_true_iff]

theorem StoreOk.bounds (h : StoreOk s) (hr : row ∈ s.outbox) :
    1 ≤ row.stateRevision ∧ row.stateRevision ≤ s.stateRevision row.strategyName := by
  have hmem := List.mem_map_of_mem (f := OutboxRow.stateRevision) (mem_rowsOf.mpr ⟨hr, rfl⟩)
  rw [h.numbered, List.mem_range'_1] at hmem
  omega

theorem StoreOk.exists_row (h : StoreOk s) (h1 : 1 ≤ n) (hn : n ≤ s.stateRevision name) :
    ∃ row ∈ s.outbox, row.strategyName = name ∧ row.stateRevision = n := by
  have hmem : n ∈ (rowsOf s name).map (·.stateRevision) := by
    rw [h.numbered, List.mem_range'_1]
    omega
  obtain ⟨row, hrow, rfl⟩ := List.mem_map.mp hmem
  exact ⟨row, (mem_rowsOf.mp hrow).1, (mem_rowsOf.mp hrow).2, rfl⟩

theorem StoreOk.sorted (h : StoreOk s) :
    s.outbox.Pairwise fun a b => a.strategyName = b.strategyName → a.stateRevision < b.stateRevision := by
  refine List.pairwise_iff_forall_sublist.mpr fun {a b} hsub hname => ?_
  have hpair : [a, b].Sublist (rowsOf s a.strategyName) := by
    have := hsub.filter fun row => decide (row.strategyName = a.strategyName)
    rwa [List.filter_cons_of_pos (by simp), List.filter_cons_of_pos (by simp [hname]), List.filter_nil] at this
  have hsorted : ((rowsOf s a.strategyName).map (·.stateRevision)).Pairwise (· < ·) := by
    rw [h.numbered]
    exact List.pairwise_lt_range'
  exact List.pairwise_iff_forall_sublist.mp (List.pairwise_map.mp hsorted) hpair

theorem StoreOk.eq_of_revision (h : StoreOk s) {a b : OutboxRow} (ha : a ∈ s.outbox) (hb : b ∈ s.outbox)
    (hname : a.strategyName = b.strategyName) (hrev : a.stateRevision = b.stateRevision) : a = b := by
  have hnodup : ((rowsOf s b.strategyName).map (·.stateRevision)).Nodup := by
    rw [h.numbered]
    exact List.nodup_range'
  exact List.inj_on_of_nodup_map hnodup (mem_rowsOf.mpr ⟨ha, hname⟩) (mem_rowsOf.mpr ⟨hb, rfl⟩) hrev

theorem StoreOk.has_unique (h : StoreOk s) (hp : Has s name n p) (hp' : Has s name n p') : p = p' := by
  obtain ⟨a, ha, rfl, rfl, rfl⟩ := hp
  obtain ⟨b, hb, hname, hrev, rfl⟩ := hp'
  rw [h.eq_of_revision ha hb hname.symm hrev.symm]

theorem StoreOk.has_bounds (h : StoreOk s) (hp : Has s name n p) : 1 ≤ n ∧ n ≤ s.stateRevision name := by
  obtain ⟨row, hrow, rfl, rfl, -⟩ := hp
  exact h.bounds hrow

/-! ## Writes of the store -/

theorem Has.bumpState (h : Has s name n p) (other : String) (payload : Payload Json) : Has (s.bumpState other payload) name n p := by
  obtain ⟨row, hrow, hrest⟩ := h
  exact ⟨row, List.mem_append_left _ hrow, hrest⟩

theorem has_newRow (s : RevisionStore) (name : String) (payload : Payload Json) :
    Has (s.bumpState name payload) name (s.stateRevision name + 1) payload :=
  ⟨s.newRow name payload, List.mem_append_right _ (List.mem_singleton_self _), rfl, rfl, rfl⟩

theorem has_markAcknowledged {ackId : Nat} : Has (s.markAcknowledged ackId) name n p ↔ Has s name n p := by
  unfold Has RevisionStore.markAcknowledged
  constructor
  · rintro ⟨row, hrow, hrest⟩
    obtain ⟨r, hr, rfl⟩ := List.mem_map.mp hrow
    refine ⟨r, hr, ?_⟩
    split at hrest <;> exact hrest
  · rintro ⟨r, hr, hrest⟩
    refine ⟨_, List.mem_map_of_mem hr, ?_⟩
    split <;> exact hrest

variable {state : String}
variable {r : StrategyCommandReceipt}

theorem ReceiptOk.mono (h : ReceiptOk s r state)
    (hhas : ∀ name n p, Has s name n p → Has s' name n p) : ReceiptOk s' r state := by
  intro hc
  obtain ⟨p, hp, hcarries⟩ := h hc
  exact ⟨p, hhas _ _ _ hp, hcarries⟩

theorem stateRevision_bumpControl (s : RevisionStore) (name other : String) :
    (s.bumpControl name).stateRevision other = s.stateRevision other := by
  unfold RevisionStore.bumpControl RevisionStore.stateRevision
  dsimp only
  by_cases ho : other = name
  · subst ho
    rw [Function.update_self]
  · rw [Function.update_of_ne ho]

theorem stateRevision_bumpState (s : RevisionStore) (name other : String) (payload : Payload Json) :
    (s.bumpState name payload).stateRevision other = if other = name then s.stateRevision name + 1 else s.stateRevision other := by
  unfold RevisionStore.bumpState RevisionStore.stateRevision
  dsimp only
  by_cases ho : other = name
  · subst ho
    rw [Function.update_self, if_pos rfl]
  · rw [Function.update_of_ne ho, if_neg ho]

theorem stateRevision_bumpState_self (s : RevisionStore) (name : String) (payload : Payload Json) :
    (s.bumpState name payload).stateRevision name = s.stateRevision name + 1 := by
  rw [stateRevision_bumpState, if_pos rfl]

theorem StoreOk.bumpControl (h : StoreOk s) (name : String) : StoreOk (s.bumpControl name) := by
  refine ⟨fun other => ?_, h.ackIds, h.carries, h.receipts⟩
  rw [stateRevision_bumpControl]
  exact h.numbered other

theorem StoreOk.bumpState (h : StoreOk s) (name : String) {payload : Payload Json} {control : Nat}
    (hcarries : Carries payload state control) : StoreOk (s.bumpState name payload) := by
  refine ⟨fun other => ?_, ?_, ?_, ?_⟩
  · have hrows : rowsOf (s.bumpState name payload) other = rowsOf s other ++ if other = name then [s.newRow name payload] else [] := by
      unfold rowsOf RevisionStore.bumpState
      dsimp only
      rw [List.filter_append]
      by_cases ho : other = name
      · have hnew : decide ((s.newRow name payload).strategyName = other) = true := decide_eq_true ho.symm
        rw [if_pos ho, List.filter_singleton, hnew, cond_true]
      · have hnew : decide ((s.newRow name payload).strategyName = other) = false := decide_eq_false fun h => ho h.symm
        rw [if_neg ho, List.filter_singleton, hnew, cond_false]
    rw [hrows, List.map_append, h.numbered, stateRevision_bumpState]
    by_cases ho : other = name
    · subst ho
      rw [if_pos rfl, if_pos rfl, List.range'_concat, Nat.one_mul, Nat.add_comm 1, List.map_singleton]
      rfl
    · rw [if_neg ho, if_neg ho, List.map_nil, List.append_nil]
  · unfold RevisionStore.bumpState
    dsimp only
    rw [List.map_append, h.ackIds, List.length_append, List.length_singleton, List.range'_concat, List.map_singleton,
      Nat.one_mul, Nat.add_comm 1]
    rfl
  · intro row hrow
    rcases List.mem_append.mp hrow with hrow | hrow
    · exact h.carries row hrow
    · rw [List.mem_singleton.mp hrow]
      exact ⟨state, control, hcarries⟩
  · intro r hr
    obtain ⟨st, hst⟩ := h.receipts r hr
    exact ⟨st, hst.mono fun _ _ _ hp => hp.bumpState name payload⟩

theorem StoreOk.markAcknowledged (h : StoreOk s) (ackId : Nat) : StoreOk (s.markAcknowledged ackId) := by
  have hmap : ∀ {β : Type} (f : OutboxRow → β), (∀ row : OutboxRow, f { row with acknowledged := true } = f row) →
      ∀ l : List OutboxRow, (l.map fun row => if row.ackId = ackId then { row with acknowledged := true } else row).map f =
        l.map f := by
    intro β f hf l
    rw [List.map_map]
    refine List.map_congr_left fun row _ => ?_
    dsimp only [Function.comp]
    split
    · exact hf row
    · rfl
  refine ⟨fun name => ?_, ?_, ?_, ?_⟩
  · have hrows : rowsOf (s.markAcknowledged ackId) name = (rowsOf s name).map fun row =>
        if row.ackId = ackId then { row with acknowledged := true } else row := by
      unfold rowsOf RevisionStore.markAcknowledged
      rw [List.filter_map]
      congr 1
      refine List.filter_congr fun row _ => ?_
      dsimp only [Function.comp]
      split <;> rfl
    rw [hrows, hmap (·.stateRevision) fun _ => rfl]
    exact h.numbered name
  · have hlen : (s.markAcknowledged ackId).outbox.length = s.outbox.length := List.length_map _
    rw [hlen, ← h.ackIds]
    exact hmap (·.ackId) (fun _ => rfl) s.outbox
  · intro row hrow
    obtain ⟨r, hr, rfl⟩ := List.mem_map.mp hrow
    obtain ⟨state, control, hcarries⟩ := h.carries r hr
    refine ⟨state, control, ?_⟩
    split <;> exact hcarries
  · intro r hr
    obtain ⟨state, hstate⟩ := h.receipts r hr
    exact ⟨state, hstate.mono fun _ _ _ hp => has_markAcknowledged.mpr hp⟩

theorem StoreOk.recordReceipt (h : StoreOk s) (hr : ReceiptOk s r state) (hs : s.recordReceipt r = some s') : StoreOk s' := by
  unfold RevisionStore.recordReceipt at hs
  obtain ⟨receipts, hins, rfl⟩ := Option.map_eq_some_iff.mp hs
  refine ⟨h.numbered, h.ackIds, h.carries, fun a ha => ?_⟩
  rcases (Table.mem_insert? hins).mp ha with ha | rfl
  · exact h.receipts a ha
  · exact ⟨state, hr⟩

end MmrTrader.Strategy
