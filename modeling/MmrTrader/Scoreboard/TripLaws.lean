import MmrTrader.Lib.Digits
import MmrTrader.Lib.Table
import MmrTrader.Scoreboard.TripRuns

/-!
# Round trips account for every fill

* `walked` — the walk over the fills of an instrument; `walkConids_eq` puts the walks together.
* `ClosedFrom` — what a closed trip says of its moves.
* `Accounted` — what a projection says of the fills; `project_accounted`.
* `projectRoundTrips_perm`, `closed_trips_stay` — the order of the list does not matter, and later fills leave closed
  trips alone.
* `round_trips_account_for_fills` — **all of it, for every list of valid fills with distinct exec ids.**
-/

namespace MmrTrader.Scoreboard

open Lib

variable {P : Projector} {fills : List FillFact}

/-! ## The order of the fills -/

instance : Std.Total fillOrder := ⟨fun a b => by
  unfold fillOrder
  rcases lt_trichotomy a.fillTime b.fillTime with h | h | h
  · exact .inl (.inl h)
  · exact (le_total a.execId b.execId).imp (fun hle => .inr ⟨h, hle⟩) fun hle => .inr ⟨h.symm, hle⟩
  · exact .inr (.inl h)⟩

instance : IsTrans FillFact fillOrder := ⟨fun a b c hab hbc => by
  unfold fillOrder at *
  rcases hab with hab | ⟨hab, hle⟩ <;> rcases hbc with hbc | ⟨hbc, hle'⟩
  · exact .inl (hab.trans hbc)
  · exact .inl (hbc ▸ hab)
  · exact .inl (hab.symm ▸ hbc)
  · exact .inr ⟨hab.trans hbc, hle.trans hle'⟩⟩

theorem fillOrder_antisymm {a b : FillFact} (hab : fillOrder a b) (hba : fillOrder b a) : a.execId = b.execId := by
  rcases hab with hab | ⟨hab, hle⟩ <;> rcases hba with hba | ⟨hba, hle'⟩
  · exact absurd (hab.trans hba) (lt_irrefl _)
  · exact absurd hab (hba ▸ lt_irrefl _)
  · exact absurd hba (hab ▸ lt_irrefl _)
  · exact le_antisymm hle hle'

variable {f : FillFact}
variable {g : FillFact}

theorem ValidFills.eq_of_execId (h : ValidFills fills) (hf : f ∈ fills) (hg : g ∈ fills)
    (heq : f.execId = g.execId) : f = g := List.inj_on_of_nodup_map h.distinct hf hg heq

variable {fills' : List FillFact}

theorem ValidFills.perm (h : ValidFills fills) (hperm : fills'.Perm fills) : ValidFills fills' :=
  ⟨fun f hf => h.valid f (hperm.mem_iff.mp hf), (hperm.map _).nodup_iff.mpr h.distinct⟩

theorem mem_fillsOf {conid : Int} : f ∈ fillsOf fills conid ↔ f ∈ fills ∧ f.conid = conid := by
  unfold fillsOf
  rw [List.mem_insertionSort, List.mem_filter, decide_eq_true_eq]

theorem ValidFills.fillsOf (h : ValidFills fills) (conid : Int) : ValidFills (fillsOf fills conid) := by
  refine ⟨fun f hf => h.valid f (mem_fillsOf.mp hf).1, ?_⟩
  exact ((List.perm_insertionSort _ _).map _).nodup_iff.mpr ((List.filter_sublist.map _).nodup h.distinct)

/-- Two lists of the same fills are walked in the same order. -/
theorem fillsOf_perm (h : ValidFills fills) (hperm : fills'.Perm fills) (conid : Int) :
    fillsOf fills' conid = fillsOf fills conid := by
  refine List.Perm.eq_of_pairwise (fun a b ha hb hab hba => ?_) (List.pairwise_insertionSort _ _)
    (List.pairwise_insertionSort _ _) ?_
  · exact h.eq_of_execId (hperm.mem_iff.mp (mem_fillsOf.mp ha).1) (mem_fillsOf.mp hb).1 (fillOrder_antisymm hab hba)
  · exact (List.perm_insertionSort _ _).trans ((hperm.filter _).trans (List.perm_insertionSort _ _).symm)

theorem conidsOf_perm (hperm : fills'.Perm fills) : conidsOf fills' = conidsOf fills := by
  refine List.Perm.eq_of_pairwise (fun a b _ _ hab hba => le_antisymm hab hba) (List.pairwise_insertionSort _ _)
    (List.pairwise_insertionSort _ _) ?_
  exact (List.perm_insertionSort _ _).trans
    (((hperm.map _).dedup).trans (List.perm_insertionSort _ _).symm)

theorem mem_conidsOf {conid : Int} : conid ∈ conidsOf fills ↔ ∃ f ∈ fills, f.conid = conid := by
  unfold conidsOf
  rw [List.mem_insertionSort, List.mem_dedup, List.mem_map]

theorem nodup_conidsOf (fills : List FillFact) : (conidsOf fills).Nodup :=
  (List.perm_insertionSort _ _).nodup_iff.mpr (List.nodup_dedup _)

/-! ## The walks together -/

def walked (P : Projector) (fs : List FillFact) : Walk := (Walk.start.fills P 3 fs).getD .start

theorem walked_spec {fs : List FillFact} (h : ValidFills fs) :
    (∀ fuel, Walk.start.fills P (fuel + 3) fs = some (walked P fs)) ∧ (walked P fs).Kept P fs := by
  obtain ⟨w, hfills, hkept, -⟩ := (Walk.Kept.start (P := P)).fills fs h
  have hw : walked P fs = w := by
    unfold walked
    rw [hfills 0]
    rfl
  exact ⟨fun fuel => by rw [hw]; exact hfills fuel, by rw [hw]; exact hkept⟩

def projection (P : Projector) (fills : List FillFact) : Projection where
  trips := (conidsOf fills).flatMap fun c => (walked P (fillsOf fills c)).allTrips P
  moves := (conidsOf fills).flatMap fun c => (walked P (fillsOf fills c)).moves

theorem walkConids_eq (h : ValidFills fills) (fuel : Nat) (conids : List Int) : walkConids P (fuel + 3) fills conids =
    some ⟨conids.flatMap fun c => (walked P (fillsOf fills c)).allTrips P,
      conids.flatMap fun c => (walked P (fillsOf fills c)).moves⟩ := by
  induction conids with
  | nil => rfl
  | cons c conids ih =>
    rw [walkConids, (walked_spec (h.fillsOf c)).1 fuel, Option.bind_some, ih]
    rfl

theorem projectRoundTrips_eq (h : ValidFills fills) (fuel : Nat) :
    projectRoundTrips P (fuel + 3) fills = .ok (some (projection P fills)) := by
  unfold projectRoundTrips
  rw [checkFills_ok h fun _ _ => List.not_mem_nil]
  exact congrArg Except.ok (walkConids_eq h fuel _)

/-- **The order of the list does not matter.** -/
theorem projectRoundTrips_perm (h : ValidFills fills) (hperm : fills'.Perm fills) (fuel : Nat) :
    projectRoundTrips P (fuel + 3) fills' = .ok (some (projection P fills)) := by
  rw [projectRoundTrips_eq (h.perm hperm)]
  unfold projection
  rw [conidsOf_perm hperm]
  simp only [fillsOf_perm h hperm]

/-! ## The trips of an instrument -/

variable {α : Type}
variable {β : Type} {l : List α}

theorem flatMap_eq_single {g : α → List β} {a : α} (hl : l.Nodup) (ha : a ∈ l)
    (hother : ∀ x ∈ l, x ≠ a → g x = []) : l.flatMap g = g a := by
  induction l with
  | nil => cases ha
  | cons x l ih =>
    rw [List.flatMap_cons]
    have hl := List.nodup_cons.mp hl
    rcases List.mem_cons.mp ha with rfl | ha
    · have hrest : l.flatMap g = [] := List.flatMap_eq_nil_iff.mpr fun y hy =>
        hother y (List.mem_cons_of_mem _ hy) fun heq => hl.1 (heq ▸ hy)
      rw [hrest, List.append_nil]
    · rw [hother x List.mem_cons_self fun heq => hl.1 (heq ▸ ha), List.nil_append]
      exact ih hl.2 ha fun y hy => hother y (List.mem_cons_of_mem _ hy)

theorem filter_flatMap_key [DecidableEq α] {g : α → List β} {key : β → α} (hl : l.Nodup)
    (hkey : ∀ a, ∀ b ∈ g a, key b = a) (a : α) : (l.flatMap g).filter (fun b => key b = a) = if a ∈ l then g a else [] := by
  rw [List.filter_flatMap]
  have hself : (g a).filter (fun b => key b = a) = g a := List.filter_eq_self.mpr fun b hb => decide_eq_true (hkey a b hb)
  have hother : ∀ x ∈ l, x ≠ a → (g x).filter (fun b => key b = a) = [] := fun x _ hne =>
    List.filter_eq_nil_iff.mpr fun b hb heq => hne ((hkey x b hb).symm.trans (of_decide_eq_true heq))
  by_cases ha : a ∈ l
  · rw [if_pos ha, flatMap_eq_single hl ha hother, hself]
  · rw [if_neg ha]
    exact List.flatMap_eq_nil_iff.mpr fun x hx => hother x hx fun heq => ha (heq ▸ hx)

section

variable {fs : List FillFact} {w : Walk}

def TripOf (P : Projector) (part : List Move) (t : RoundTrip) : Prop :=
  ∃ b : TripBuilder, ∃ status, b.Books part ∧ t = b.build P status

theorem Walk.Booked.tripOf (h : w.Booked P) : List.Forall₂ (TripOf P) (tripMoves w.moves) (w.allTrips P) := by
  refine List.rel_append (h.closed.imp fun part t ht => ?_) ?_
  · obtain ⟨b, hbooks, rfl, -⟩ := ht
    exact ⟨b, .CLOSED, hbooks, rfl⟩
  · cases htrip : w.trip with
    | none =>
      rw [if_pos (h.flat htrip).2]
      exact .nil
    | some b =>
      have ho := h.current b htrip
      have hne : (splitTrips w.moves).2 ≠ [] := by
        obtain ⟨m, rest, heq, -⟩ := ho.books.head
        rw [heq]
        exact List.cons_ne_nil _ _
      rw [if_neg hne]
      exact .cons ⟨b, .OPEN, ho.books, rfl⟩ .nil

variable {part : List Move} {t : RoundTrip}

theorem TripOf.mem_execIds (h : TripOf P part t) (execId : String) : execId ∈ t.execIds ↔ ∃ m ∈ part, m.fill.execId = execId := by
  obtain ⟨b, status, hbooks, rfl⟩ := h
  exact hbooks.ids execId

theorem inTrip_iff_allTrips (h : w.Booked P) (j : Nat) (execId : String) :
    InTrip w.moves j execId ↔ ∃ t, (w.allTrips P)[j]? = some t ∧ execId ∈ t.execIds := by
  have hall := h.tripOf
  unfold InTrip
  constructor
  · rintro ⟨part, hpart, hm⟩
    obtain ⟨hj, rfl⟩ := List.getElem?_eq_some_iff.mp hpart
    have hj' : j < (w.allTrips P).length := hall.length_eq ▸ hj
    exact ⟨_, List.getElem?_eq_getElem hj', ((hall.get hj hj').mem_execIds execId).mpr hm⟩
  · rintro ⟨t, ht, hm⟩
    obtain ⟨hj', rfl⟩ := List.getElem?_eq_some_iff.mp ht
    have hj : j < (tripMoves w.moves).length := hall.length_eq ▸ hj'
    exact ⟨_, List.getElem?_eq_getElem hj, ((hall.get hj hj').mem_execIds execId).mp hm⟩

theorem mem_allTrips (h : w.Booked P) (ht : t ∈ w.allTrips P) : ∃ part ∈ tripMoves w.moves, TripOf P part t := by
  obtain ⟨j, hj, rfl⟩ := List.getElem_of_mem ht
  have hlength := h.tripOf.length_eq
  exact ⟨_, List.getElem_mem (hlength ▸ hj), h.tripOf.get (hlength ▸ hj) hj⟩

theorem mem_of_tripMoves {ms : List Move} (hpart : part ∈ tripMoves ms) {m : Move} (hm : m ∈ part) : m ∈ ms := by
  rw [← tripMoves_flatten ms]
  exact List.mem_flatten.mpr ⟨part, hpart, hm⟩

theorem Walk.Booked.closed_status (h : w.Booked P) : ∀ t ∈ w.trips, t.status = .CLOSED := by
  intro t ht
  obtain ⟨part, -, b, -, rfl, -⟩ := forall₂_left h.closed ht
  rfl

theorem Walk.Booked.filter_closed (h : w.Booked P) : (w.allTrips P).filter (fun t => t.status = .CLOSED) = w.trips := by
  unfold Walk.allTrips
  rw [List.filter_append, List.filter_eq_self.mpr fun t ht => decide_eq_true (h.closed_status t ht)]
  cases w.trip with
  | none => exact List.append_nil _
  | some b => exact List.append_nil _

theorem Walk.Booked.filter_open (h : w.Booked P) :
    (w.allTrips P).filter (fun t => t.status = .OPEN) = (w.trip.map (·.build P .OPEN)).toList := by
  unfold Walk.allTrips
  have hclosed : w.trips.filter (fun t => t.status = .OPEN) = [] := List.filter_eq_nil_iff.mpr fun t ht => by
    rw [h.closed_status t ht]
    decide
  rw [List.filter_append, hclosed, List.nil_append]
  cases w.trip with
  | none => rfl
  | some b => rfl

end

section

variable (P) (fills : List FillFact) (conid : Int)

def walkOf : Walk := walked P (fillsOf fills conid)

variable {P fills conid}

theorem walkOf_kept (h : ValidFills fills) (conid : Int) : (walkOf P fills conid).Kept P (fillsOf fills conid) :=
  (walked_spec (h.fillsOf conid)).2

theorem walkOf_absent (hc : conid ∉ conidsOf fills) : walkOf P fills conid = .start := by
  have hnone : fillsOf fills conid = [] := by
    refine List.eq_nil_iff_forall_not_mem.mpr fun f hf => hc ?_
    exact mem_conidsOf.mpr ⟨f, (mem_fillsOf.mp hf).1, (mem_fillsOf.mp hf).2⟩
  unfold walkOf
  rw [hnone]
  rfl

theorem allTrips_conid (h : ValidFills fills) (conid : Int) : ∀ t ∈ (walkOf P fills conid).allTrips P, t.conid = conid := by
  intro t ht
  have hk := walkOf_kept (P := P) h conid
  obtain ⟨part, hpart, b, status, hbooks, rfl⟩ := mem_allTrips hk.booked ht
  obtain ⟨m, rest, rfl, hfirst, -⟩ := hbooks.head
  have hm := (hk.own m (mem_of_tripMoves hpart List.mem_cons_self)).1
  change b.first.conid = conid
  rw [← hfirst]
  exact (mem_fillsOf.mp hm).2

theorem moves_conid (h : ValidFills fills) (conid : Int) : ∀ m ∈ (walkOf P fills conid).moves, m.piece.conid = conid := by
  intro m hm
  obtain ⟨hmem, hof⟩ := (walkOf_kept (P := P) h conid).own m hm
  rw [hof.conid]
  exact (mem_fillsOf.mp hmem).2

theorem trips_filter_conid (h : ValidFills fills) (conid : Int) :
    (projection P fills).trips.filter (fun t => t.conid = conid) = (walkOf P fills conid).allTrips P := by
  refine (filter_flatMap_key (nodup_conidsOf fills) (allTrips_conid h) conid).trans ?_
  split
  · rfl
  · rename_i hc
    rw [walkOf_absent hc]
    rfl

theorem moves_filter_conid (h : ValidFills fills) (conid : Int) :
    (projection P fills).moves.filter (fun m => m.piece.conid = conid) = (walkOf P fills conid).moves := by
  refine (filter_flatMap_key (nodup_conidsOf fills) (moves_conid h) conid).trans ?_
  split
  · rfl
  · rename_i hc
    rw [walkOf_absent hc]
    rfl

theorem moves_filter_execId (h : ValidFills fills) {f : FillFact} (hf : f ∈ fills) :
    (projection P fills).moves.filter (fun m => m.piece.execId = f.execId) =
      (walkOf P fills f.conid).moves.filter fun m => m.piece.execId = f.execId := by
  refine (List.filter_flatMap).trans (flatMap_eq_single (nodup_conidsOf fills) (mem_conidsOf.mpr ⟨f, hf, rfl⟩) fun c _ hne => ?_)
  refine List.filter_eq_nil_iff.mpr fun m hm heq => hne ?_
  have heq : m.piece.execId = f.execId := of_decide_eq_true heq
  obtain ⟨hmem, hof⟩ := (walkOf_kept (P := P) h c).own m hm
  have hfill : m.fill = f := h.eq_of_execId (mem_fillsOf.mp hmem).1 hf (hof.execId.symm.trans heq)
  rw [← (mem_fillsOf.mp hmem).2, hfill]

end

/-! ## What a projection says -/

def cashFlow (ms : List Move) : ℚ :=
  ((ms.filter fun m => m.fill.side = "SELL").map Move.value).sum - ((ms.filter fun m => m.fill.side = "BUY").map Move.value).sum

structure ClosedFrom (part : List Move) (t : RoundTrip) : Prop where
  entered : t.entryQty = enteredQty part
  exited : t.exitQty = exitedQty part
  balanced : t.entryQty = t.exitQty
  gross : t.grossPnlUsd = cashFlow part
  /-- The net profit is known exactly when every fee is. -/
  net : t.netPnlUsd = if ∀ m ∈ part, m.piece.fee.isSome then
    some (t.grossPnlUsd - (part.map fun m => m.piece.fee.getD 0).sum) else none
  execIds : ∀ execId, execId ∈ t.execIds ↔ ∃ m ∈ part, m.fill.execId = execId

def netShares (fills : List FillFact) (conid : Int) : ℚ := ((fills.filter fun f => f.conid = conid).map (·.signed)).sum

/-- The text that names a trip which starts with the fill. -/
def seedOf (P : Projector) (f : FillFact) : String := P.accountId ++ "|" ++ toString f.conid ++ "|" ++ f.execId

structure Accounted (P : Projector) (fills : List FillFact) (p : Projection) : Prop where
  sizes : ∀ f ∈ fills, ((p.moves.filter fun m => m.piece.execId = f.execId).map (·.size)).sum = f.quantity
  fees : ∀ f ∈ fills, ∀ commission, f.commission = some commission →
    ∃ amounts : List ℚ, (p.moves.filter fun m => m.piece.execId = f.execId).map (·.piece.fee) = amounts.map some ∧
      amounts.sum = commission
  flat : ∀ conid, netShares fills conid = 0 ↔ ∀ t ∈ p.trips, t.conid = conid → t.status = .CLOSED
  open_trip : ∀ conid, netShares fills conid ≠ 0 →
    ∃ t, (p.trips.filter fun t => t.conid = conid).filter (fun t => t.status = .OPEN) = [t] ∧
      t.entryQty - t.exitQty = |netShares fills conid| ∧ (t.direction = .LONG ↔ 0 < netShares fills conid)
  closed : ∀ conid, List.Forall₂ ClosedFrom (splitTrips (p.moves.filter fun m => m.piece.conid = conid)).1
    ((p.trips.filter fun t => t.conid = conid).filter fun t => t.status = .CLOSED)
  /-- Trip ids are distinct, when the hash tells the names of the trips apart. -/
  ids : (∀ f ∈ fills, ∀ g ∈ fills, P.tripHash (seedOf P f) = P.tripHash (seedOf P g) → seedOf P f = seedOf P g) →
    (p.trips.map (·.roundTripId)).Nodup
  /-- An execution is in one trip, or in two consecutive ones when it crosses zero. -/
  once : ∀ f ∈ fills, ∃ i, ∀ j, (∃ t, p.trips[j]? = some t ∧ f.execId ∈ t.execIds) ↔
    j = i ∨ CrossesZero (fillsOf fills f.conid) f ∧ j = i + 1

theorem netShares_eq (fills : List FillFact) (conid : Int) :
    netShares fills conid = ((fillsOf fills conid).map (·.signed)).sum :=
  ((List.perm_insertionSort _ _).map _).sum_eq.symm

theorem position_walkOf (h : ValidFills fills) (conid : Int) :
    (walkOf P fills conid).position = netShares fills conid := by
  rw [netShares_eq]
  exact (walkOf_kept h conid).position

theorem fees_eq (h : ValidFills fills) (hf : f ∈ fills) {commission : ℚ} (hc : f.commission = some commission) :
    ∃ amounts : List ℚ,
      ((projection P fills).moves.filter fun m => m.piece.execId = f.execId).map (·.piece.fee) = amounts.map some ∧
        amounts.sum = commission := by
  have hk := walkOf_kept (P := P) h f.conid
  have hin : f ∈ fillsOf fills f.conid := mem_fillsOf.mpr ⟨hf, rfl⟩
  have hsizes := hk.sizes f hin
  rw [moves_filter_execId h hf]
  refine ⟨((walkOf P fills f.conid).moves.filter fun m => m.piece.execId = f.execId).map fun m =>
    commission * m.size / f.quantity, ?_, ?_⟩
  · rw [List.map_map]
    refine List.map_congr_left fun m hm => ?_
    obtain ⟨hmem, heq⟩ := List.mem_filter.mp hm
    have heq : m.piece.execId = f.execId := of_decide_eq_true heq
    obtain ⟨hfill, hof⟩ := hk.own m hmem
    have hfill : m.fill = f := (h.fillsOf _).eq_of_execId hfill hin (hof.execId.symm.trans heq)
    rw [hof.fee, hfill, FillFact.feeOf, hc]
    rfl
  · have hfactor : ∀ ms : List Move, (ms.map fun m => commission * m.size / f.quantity).sum =
        commission * (ms.map (·.size)).sum / f.quantity := by
      intro ms
      induction ms with
      | nil => simp
      | cons m ms ih =>
        rw [List.map_cons, List.sum_cons, ih, List.map_cons, List.sum_cons]
        ring
    have hquantity := ((h.valid f hf).quantity).ne'
    rw [hfactor, hsizes]
    field_simp

variable {part : List Move} {t : RoundTrip}

theorem ClosedTrip.closedFrom (h : ClosedTrip P part t) (hvalid : ∀ m ∈ part, m.fill.Valid) : ClosedFrom part t := by
  obtain ⟨b, hbooks, rfl, hbalanced, hgross⟩ := h
  have hsell : ∀ m ∈ part, (m.fill.side = "SELL" ↔ ¬ m.fill.side = "BUY") := by
    intro m hm
    rcases (hvalid m hm).side with hs | hs <;> rw [hs] <;> decide
  have hcash : b.direction.sign * (b.exitValue - b.entryCost) = cashFlow part := by
    unfold cashFlow
    rw [hbooks.exitValue, hbooks.entryCost]
    unfold exitedValue enteredValue
    cases hd : b.direction with
    | LONG =>
      have hbuy : ∀ m ∈ part, (m.opening = true ↔ m.fill.side = "BUY") := fun m hm =>
        (hbooks.sides m hm).trans (by rw [hd]; simp)
      rw [List.filter_congr fun m hm => decide_eq_decide.mpr (hbuy m hm),
        List.filter_congr fun m hm => decide_eq_decide.mpr ((not_congr (hbuy m hm)).trans (hsell m hm).symm)]
      exact one_mul _
    | SHORT =>
      have hbuy : ∀ m ∈ part, (m.opening = true ↔ m.fill.side = "SELL") := fun m hm =>
        (hbooks.sides m hm).trans (by rw [hd, hsell m hm]; simp)
      rw [List.filter_congr fun m hm => decide_eq_decide.mpr (hbuy m hm),
        List.filter_congr fun m hm => decide_eq_decide.mpr ((not_congr (hbuy m hm)).trans
          ((not_congr (hsell m hm)).trans not_not))]
      change (-1 : ℚ) * _ = _
      ring
  have hfees : b.knownFees = if ∀ m ∈ part, m.piece.fee.isSome then some (part.map fun m => m.piece.fee.getD 0).sum else none := by
    unfold TripBuilder.knownFees
    rw [hbooks.fees, List.map_map]
    exact if_congr (by simp) rfl rfl
  refine ⟨hbooks.entryQty, hbooks.exitQty, hbalanced, hgross.trans hcash, ?_, hbooks.ids⟩
  change (if TripStatus.CLOSED = .CLOSED then b.knownFees.map (b.gross - ·) else none) = _
  rw [if_pos rfl, hfees]
  split <;> rfl

/-! ## Trip ids -/

theorem heads_sublist (parts : List (List Move)) (h : ∀ part ∈ parts, ∃ m rest, part = m :: rest ∧ m.opening = true) :
    (parts.filterMap List.head?).Sublist (parts.flatten.filter fun m => m.opening = true) := by
  induction parts with
  | nil => exact List.Sublist.refl _
  | cons part parts ih =>
    obtain ⟨m, rest, rfl, hopening⟩ := h part List.mem_cons_self
    rw [List.filterMap_cons, List.flatten_cons, List.cons_append, List.filter_cons_of_pos (by simp [hopening]),
      List.filter_append]
    exact ((ih fun part hp => h part (List.mem_cons_of_mem _ hp)).trans (List.sublist_append_right _ _)).cons_cons m

/-- The names of trips with different first executions differ. -/
theorem seedOf_inj (h : seedOf P f = seedOf P g) : f.execId = g.execId := by
  have hchars := congrArg String.toList h
  have hsep : ("|" : String).toList = ['|'] := rfl
  have hdigits : ∀ n : Int, '|' ∉ (toString n).toList := by
    intro n hn
    rcases mem_toString_int hn with h | h
    · exact absurd h (by decide)
    · exact absurd h (by decide)
  unfold seedOf at hchars
  simp only [String.toList_append, hsep, List.append_assoc] at hchars
  have hrest := List.append_cancel_left (List.append_cancel_left hchars)
  exact String.toList_inj.mp (append_cons_inj (hdigits _) (hdigits _) hrest).2

def firstMoves (w : Walk) : List Move := (tripMoves w.moves).filterMap List.head?

theorem Walk.Booked.books_of_part {w : Walk} (h : w.Booked P) (hpart : part ∈ tripMoves w.moves) :
    ∃ m rest, part = m :: rest ∧ m.opening = true := by
  obtain ⟨t, -, b, status, hbooks, -⟩ := forall₂_right h.tripOf hpart
  obtain ⟨m, rest, heq, -, hopening⟩ := hbooks.head
  exact ⟨m, rest, heq, hopening⟩

theorem Walk.Kept.nodup_firstMoves {fs : List FillFact} {w : Walk} (h : w.Kept P fs) :
    ((firstMoves w).map (·.fill.execId)).Nodup := by
  have hsub := heads_sublist (tripMoves w.moves) fun part hpart => h.booked.books_of_part hpart
  rw [tripMoves_flatten] at hsub
  exact (hsub.map _).nodup h.openings

theorem Walk.Booked.trip_ids {w : Walk} (h : w.Booked P) : (w.allTrips P).map (·.roundTripId) =
    (firstMoves w).map fun m => P.tripHash (seedOf P m.fill) := by
  have hall := h.tripOf
  unfold firstMoves
  generalize w.allTrips P = trips at hall
  generalize tripMoves w.moves = parts at hall
  induction hall with
  | nil => rfl
  | cons ht _ ih =>
    obtain ⟨b, status, hbooks, rfl⟩ := ht
    obtain ⟨m, rest, rfl, hfirst, -⟩ := hbooks.head
    rw [List.map_cons, ih, List.filterMap_cons]
    change _ = P.tripHash (seedOf P m.fill) :: _
    rw [hfirst]
    rfl

theorem mem_firstMoves {w : Walk} {m : Move} (hm : m ∈ firstMoves w) : m ∈ w.moves := by
  obtain ⟨part, hpart, hhead⟩ := List.mem_filterMap.mp hm
  exact mem_of_tripMoves hpart (List.mem_of_head? hhead)

/-- **Trip ids are distinct.** -/
theorem trip_ids_nodup (h : ValidFills fills)
    (hhash : ∀ f ∈ fills, ∀ g ∈ fills, P.tripHash (seedOf P f) = P.tripHash (seedOf P g) → seedOf P f = seedOf P g) :
    ((projection P fills).trips.map (·.roundTripId)).Nodup := by
  have hin : ∀ c, ∀ m ∈ firstMoves (walkOf P fills c), m.fill ∈ fills ∧ m.fill.conid = c := fun c m hm =>
    mem_fillsOf.mp ((walkOf_kept h c).own m (mem_firstMoves hm)).1
  have hids : (projection P fills).trips.map (·.roundTripId) =
      ((conidsOf fills).flatMap fun c => firstMoves (walkOf P fills c)).map fun m => P.tripHash (seedOf P m.fill) := by
    unfold projection
    rw [List.map_flatMap, List.map_flatMap]
    exact congrArg (fun g => (conidsOf fills).flatMap g) (funext fun c => (walkOf_kept h c).booked.trip_ids)
  have hmem : ∀ m ∈ (conidsOf fills).flatMap fun c => firstMoves (walkOf P fills c), m.fill ∈ fills := by
    intro m hm
    obtain ⟨c, -, hm⟩ := List.mem_flatMap.mp hm
    exact (hin c m hm).1
  have hfirst : (((conidsOf fills).flatMap fun c => firstMoves (walkOf P fills c)).map (·.fill.execId)).Nodup := by
    rw [List.map_flatMap, List.nodup_flatMap]
    refine ⟨fun c _ => (walkOf_kept h c).nodup_firstMoves, (nodup_conidsOf fills).imp fun {c c'} hne => ?_⟩
    intro x hx hx'
    obtain ⟨m, hm, rfl⟩ := List.mem_map.mp hx
    obtain ⟨m', hm', heq⟩ := List.mem_map.mp hx'
    have hfill := h.eq_of_execId (hin c' m' hm').1 (hin c m hm).1 heq
    exact hne (by rw [← (hin c m hm).2, ← (hin c' m' hm').2, hfill])
  rw [hids]
  unfold List.Nodup at hfirst ⊢
  rw [List.pairwise_map] at hfirst ⊢
  refine hfirst.imp_of_mem fun hm hm' hne heq => hne ?_
  exact seedOf_inj (hhash _ (hmem _ hm) _ (hmem _ hm') heq)

/-! ## The place of an execution -/

theorem not_mem_other (h : ValidFills fills) (hf : f ∈ fills) {conid : Int} (hne : conid ≠ f.conid) :
    ∀ t ∈ (walkOf P fills conid).allTrips P, f.execId ∉ t.execIds := by
  intro t ht hmem
  have hk := walkOf_kept (P := P) h conid
  obtain ⟨part, hpart, htrip⟩ := mem_allTrips hk.booked ht
  obtain ⟨m, hm, heq⟩ := (htrip.mem_execIds _).mp hmem
  obtain ⟨hfill, hconid⟩ := mem_fillsOf.mp (hk.own m (mem_of_tripMoves hpart hm)).1
  exact hne (by rw [← hconid, h.eq_of_execId hfill hf heq])

theorem getElem?_between {before after : List α} {p : α → Prop} (hbefore : ∀ a ∈ before, ¬ p a)
    (hafter : ∀ a ∈ after, ¬ p a) (j : Nat) :
    (∃ a, (before ++ (l ++ after))[j]? = some a ∧ p a) ↔
      before.length ≤ j ∧ ∃ a, l[j - before.length]? = some a ∧ p a := by
  rcases Nat.lt_or_ge j before.length with hj | hj
  · rw [List.getElem?_append_left hj]
    refine ⟨fun ⟨a, ha, hp⟩ => absurd hp (hbefore a (List.mem_of_getElem? ha)), fun hle => absurd hle.1 (by omega)⟩
  · rw [List.getElem?_append_right hj, and_iff_right hj]
    rcases Nat.lt_or_ge (j - before.length) l.length with hl | hl
    · rw [List.getElem?_append_left hl]
    · rw [List.getElem?_append_right hl, List.getElem?_eq_none hl]
      refine ⟨fun ⟨a, ha, hp⟩ => absurd hp (hafter a (List.mem_of_getElem? ha)), fun ⟨_, hnone, _⟩ => (nomatch hnone)⟩

theorem once_in_trips (h : ValidFills fills) (hf : f ∈ fills) :
    ∃ i, ∀ j, (∃ t, (projection P fills).trips[j]? = some t ∧ f.execId ∈ t.execIds) ↔
      j = i ∨ CrossesZero (fillsOf fills f.conid) f ∧ j = i + 1 := by
  have hk := walkOf_kept (P := P) h f.conid
  obtain ⟨i, hi⟩ := hk.once f (mem_fillsOf.mpr ⟨hf, rfl⟩)
  obtain ⟨pre, post, hconids⟩ := List.append_of_mem (mem_conidsOf.mpr ⟨f, hf, rfl⟩)
  have hnodup := nodup_conidsOf fills
  rw [hconids, List.nodup_append] at hnodup
  have htrips : (projection P fills).trips = (pre.flatMap fun c => (walkOf P fills c).allTrips P) ++
      ((walkOf P fills f.conid).allTrips P ++ post.flatMap fun c => (walkOf P fills c).allTrips P) := by
    change (conidsOf fills).flatMap (fun c => (walkOf P fills c).allTrips P) = _
    rw [hconids, List.flatMap_append, List.flatMap_cons]
  have hother : ∀ cs : List Int, f.conid ∉ cs → ∀ t ∈ cs.flatMap fun c => (walkOf P fills c).allTrips P, f.execId ∉ t.execIds := by
    intro cs hcs t ht
    obtain ⟨c, hc, ht⟩ := List.mem_flatMap.mp ht
    exact not_mem_other h hf (fun heq => hcs (heq ▸ hc)) t ht
  refine ⟨(pre.flatMap fun c => (walkOf P fills c).allTrips P).length + i, fun j => ?_⟩
  rw [htrips]
  refine (getElem?_between (p := fun t : RoundTrip => f.execId ∈ t.execIds)
    (hother pre fun hmem => hnodup.2.2 _ hmem _ List.mem_cons_self rfl)
    (hother post (List.nodup_cons.mp hnodup.2.1).1) j).trans ?_
  rw [← inTrip_iff_allTrips hk.booked, hi]
  by_cases hcross : CrossesZero (fillsOf fills f.conid) f
  · simp only [hcross, true_and]
    omega
  · simp only [hcross, false_and, or_false]
    omega

/-! ## Later fills -/

theorem fills_append (P : Projector) (fuel : Nat) (w : Walk) (fs more : List FillFact) :
    w.fills P fuel (fs ++ more) = (w.fills P fuel fs).bind fun w' => w'.fills P fuel more := by
  induction fs generalizing w with
  | nil => rfl
  | cons f fs ih =>
    rw [List.cons_append, Walk.fills, Walk.fills, Option.bind_assoc]
    exact congrArg _ (funext fun w' => ih w')

variable {extra : List FillFact}

theorem fillsOf_append (h : ValidFills (fills ++ extra))
    (hafter : ∀ f ∈ fills, ∀ x ∈ extra, f.conid = x.conid → fillOrder f x) (conid : Int) :
    fillsOf (fills ++ extra) conid = fillsOf fills conid ++ fillsOf extra conid := by
  refine List.Perm.eq_of_pairwise (fun a b ha hb hab hba => ?_) (List.pairwise_insertionSort _ _)
    (List.pairwise_append.mpr ⟨List.pairwise_insertionSort _ _, List.pairwise_insertionSort _ _, fun a ha b hb => ?_⟩) ?_
  · have hb : b ∈ fills ++ extra := (List.mem_append.mp hb).elim
      (fun hb => List.mem_append_left _ (mem_fillsOf.mp hb).1) fun hb => List.mem_append_right _ (mem_fillsOf.mp hb).1
    exact h.eq_of_execId (mem_fillsOf.mp ha).1 hb (fillOrder_antisymm hab hba)
  · obtain ⟨ha, hac⟩ := mem_fillsOf.mp ha
    obtain ⟨hb, hbc⟩ := mem_fillsOf.mp hb
    exact hafter a ha b hb (hac.trans hbc.symm)
  · unfold fillsOf
    rw [List.filter_append]
    exact (List.perm_insertionSort _ _).trans
      ((List.perm_insertionSort _ _).append (List.perm_insertionSort _ _)).symm

theorem ValidFills.left (h : ValidFills (fills ++ extra)) : ValidFills fills :=
  ⟨fun f hf => h.valid f (List.mem_append_left _ hf),
    ((List.sublist_append_left fills extra).map _).nodup h.distinct⟩

/-- **Later fills never change a closed trip.** -/
theorem closed_trips_stay (h : ValidFills (fills ++ extra)) (hafter : ∀ f ∈ fills, ∀ x ∈ extra, f.conid = x.conid → fillOrder f x)
    (ht : t ∈ (projection P fills).trips) (hclosed : t.status = .CLOSED) : t ∈ (projection P (fills ++ extra)).trips := by
  have hk := walkOf_kept (P := P) h.left t.conid
  have hin : t ∈ (walkOf P fills t.conid).trips := by
    rw [← hk.booked.filter_closed, ← trips_filter_conid h.left]
    exact List.mem_filter.mpr ⟨List.mem_filter.mpr ⟨ht, decide_eq_true rfl⟩, decide_eq_true hclosed⟩
  have hsplit := fillsOf_append h hafter t.conid
  obtain ⟨w', hfills, -, htrips⟩ := hk.fills (fillsOf extra t.conid) (hsplit ▸ h.fillsOf t.conid)
  have hw : walkOf P (fills ++ extra) t.conid = w' := by
    unfold walkOf walked
    rw [hsplit, fills_append, (walked_spec (h.left.fillsOf t.conid)).1 0, Option.bind_some]
    exact (congrArg (Option.getD · Walk.start) (hfills 0)).trans rfl
  have hin' : t ∈ (walkOf P (fills ++ extra) t.conid).allTrips P := by
    rw [hw]
    exact List.mem_append_left _ (htrips.subset hin)
  rw [← trips_filter_conid h] at hin'
  exact List.mem_of_mem_filter hin'

/-! ## Everything together -/

theorem project_accounted (h : ValidFills fills) : Accounted P fills (projection P fills) where
  sizes := by
    intro f hf
    rw [moves_filter_execId h hf]
    exact (walkOf_kept h f.conid).sizes f (mem_fillsOf.mpr ⟨hf, rfl⟩)
  fees := fun f hf _ hc => fees_eq h hf hc
  flat := by
    intro conid
    have hk := walkOf_kept (P := P) h conid
    have hposition := position_walkOf (P := P) h conid
    have hmem : ∀ t, t ∈ (walkOf P fills conid).allTrips P ↔ t ∈ (projection P fills).trips ∧ t.conid = conid := by
      intro t
      rw [← trips_filter_conid h, List.mem_filter, decide_eq_true_eq]
    constructor
    · intro hzero t ht hc
      have hin := (hmem t).mpr ⟨ht, hc⟩
      cases htrip : (walkOf P fills conid).trip with
      | none =>
        rw [Walk.allTrips, htrip] at hin
        exact hk.booked.closed_status t ((List.mem_append.mp hin).resolve_right List.not_mem_nil)
      | some b => exact absurd (hposition.trans hzero) (hk.booked.current b htrip).ne
    · intro hall
      cases htrip : (walkOf P fills conid).trip with
      | none => exact hposition.symm.trans (hk.booked.flat htrip).1
      | some b =>
        have hin : b.build P .OPEN ∈ (walkOf P fills conid).allTrips P := by
          rw [Walk.allTrips, htrip]
          exact List.mem_append_right _ List.mem_cons_self
        obtain ⟨ht, hc⟩ := (hmem _).mp hin
        exact nomatch hall _ ht hc
  open_trip := by
    intro conid hne
    have hk := walkOf_kept (P := P) h conid
    have hposition := position_walkOf (P := P) h conid
    cases htrip : (walkOf P fills conid).trip with
    | none => exact absurd (hposition.symm.trans (hk.booked.flat htrip).1) hne
    | some b =>
      have ho := hk.booked.current b htrip
      refine ⟨b.build P .OPEN, ?_, ?_, ?_⟩
      · rw [trips_filter_conid h, hk.booked.filter_open, htrip]
        rfl
      · rw [← hposition]
        exact ho.quantity
      · rw [← hposition]
        exact ho.direction
  closed := by
    intro conid
    have hk := walkOf_kept (P := P) h conid
    rw [trips_filter_conid h, moves_filter_conid h, hk.booked.filter_closed]
    refine forall₂_imp hk.booked.closed fun part hpart t ht => ht.closedFrom fun m hm => ?_
    have hmem : m ∈ (walkOf P fills conid).moves := mem_of_tripMoves (List.mem_append_left _ hpart) hm
    exact h.valid _ (mem_fillsOf.mp (hk.own m hmem).1).1
  ids := trip_ids_nodup h
  once := fun _ hf => once_in_trips h hf

/-- **Round trips account for every fill**: for valid fills with distinct exec ids, in whatever order, the loops end and
the trips account for the fills; and fills that sort after those of their instrument leave the closed trips alone. -/
theorem round_trips_account_for_fills (P : Projector) (fills : List FillFact) (h : ValidFills fills) :
    (∀ fills', fills'.Perm fills → ∀ fuel, projectRoundTrips P (fuel + 3) fills' = .ok (some (projection P fills))) ∧
      Accounted P fills (projection P fills) ∧
      ∀ extra, ValidFills (fills ++ extra) → (∀ f ∈ fills, ∀ x ∈ extra, f.conid = x.conid → fillOrder f x) →
        ∀ t ∈ (projection P fills).trips, t.status = .CLOSED → t ∈ (projection P (fills ++ extra)).trips :=
  ⟨fun _ hperm => projectRoundTrips_perm h hperm, project_accounted h,
    fun _ hvalid hafter _ ht hclosed => closed_trips_stay hvalid hafter ht hclosed⟩

/-! ## A fill that crosses zero -/

/-- Sessions by day, and hashes that keep what they are given. -/
def plainProjector : Projector := ⟨fun _ => none, (· / 86400), id, fun items => toString items.length, "DU1"⟩

/-- Ten shares bought, fifteen sold, five bought back. -/
def crossingFills : List FillFact :=
  [⟨"e1", 265598, "BUY", 10, 100, some 1, 0, none, none⟩, ⟨"e2", 265598, "SELL", 15, 110, some 3, 60, none, none⟩,
   ⟨"e3", 265598, "BUY", 5, 90, none, 120, none, none⟩]

theorem crossingFills_valid : ValidFills crossingFills := by
  refine ⟨fun f hf => ?_, by decide⟩
  simp only [crossingFills, List.mem_cons, List.not_mem_nil, or_false] at hf
  rcases hf with rfl | rfl | rfl <;> exact ⟨by decide, by decide +kernel, by decide +kernel⟩

/-- The second fill is in both trips. -/
theorem crossing_fills_accounted :
    projectRoundTrips plainProjector 3 crossingFills = .ok (some (projection plainProjector crossingFills)) ∧
      Accounted plainProjector crossingFills (projection plainProjector crossingFills) ∧
      (projection plainProjector crossingFills).trips.map (·.execIds) = [["e1", "e2"], ["e2", "e3"]] :=
  have h := round_trips_account_for_fills plainProjector crossingFills crossingFills_valid
  ⟨h.1 crossingFills (List.Perm.refl _) 0, h.2.1, by decide +kernel⟩

end MmrTrader.Scoreboard
