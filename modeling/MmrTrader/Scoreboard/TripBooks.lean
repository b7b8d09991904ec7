import Mathlib.Algebra.BigOperators.Group.List.Basic
import Mathlib.Data.List.Induction
import Mathlib.Tactic.FieldSimp
import Mathlib.Tactic.Linarith
import Mathlib.Tactic.Ring
import MmrTrader.Scoreboard.RoundTrips

/-!
# The loop over one fill

* `FillFact.Valid` — what `validate` accepts; `checkFills_ok`.
* `spend_cases` — **the loop over a fill ends after at most two turns**: one piece, or an exit to zero and an opening.
-/

namespace MmrTrader.Scoreboard

/-! ## Valid fills -/

/-- What `validate` accepts. -/
structure FillFact.Valid (f : FillFact) : Prop where
  side : f.side = "BUY" ∨ f.side = "SELL"
  quantity : 0 < f.quantity
  price : 0 < f.price

theorem FillFact.Valid.validate {f : FillFact} (h : f.Valid) : validate f = .ok () := by
  unfold Scoreboard.validate
  have hside : ¬ f.side ∉ ["BUY", "SELL"] := by
    intro hn
    rcases h.side with hs | hs <;> exact hn (by rw [hs]; decide)
  rw [if_neg hside, if_neg (not_le.mpr h.quantity), if_neg (not_le.mpr h.price)]

/-- The fills of a projection: valid ones with distinct exec ids. -/
structure ValidFills (fills : List FillFact) : Prop where
  valid : ∀ f ∈ fills, f.Valid
  distinct : (fills.map (·.execId)).Nodup

theorem checkFills_ok {seen : List String} {fills : List FillFact} (h : ValidFills fills)
    (hseen : ∀ f ∈ fills, f.execId ∉ seen) : checkFills seen fills = .ok () := by
  induction fills generalizing seen with
  | nil => rfl
  | cons f rest ih =>
    have hdistinct := List.nodup_cons.mp (List.map_cons ▸ h.distinct)
    unfold checkFills
    rw [(h.valid f List.mem_cons_self).validate]
    dsimp only
    rw [if_neg (hseen f List.mem_cons_self)]
    refine ih ⟨fun g hg => h.valid g (List.mem_cons_of_mem _ hg), hdistinct.2⟩ fun g hg hmem => ?_
    rcases List.mem_cons.mp hmem with heq | hmem
    · exact hdistinct.1 (heq ▸ List.mem_map_of_mem hg)
    · exact hseen g (List.mem_cons_of_mem _ hg) hmem

namespace FillFact

variable {f : FillFact}

theorem Valid.abs_signed (h : f.Valid) : |f.signed| = f.quantity := by
  unfold signed
  split
  · exact abs_of_pos h.quantity
  · rw [abs_neg]
    exact abs_of_pos h.quantity

theorem Valid.signed_ne (h : f.Valid) : f.signed ≠ 0 := by
  rw [← abs_ne_zero, h.abs_signed]
  exact h.quantity.ne'

theorem Valid.signed_pos (h : f.Valid) : 0 < f.signed ↔ f.side = "BUY" := by
  unfold signed
  have := h.quantity
  by_cases hs : f.side = "BUY"
  · rw [if_pos hs]
    exact ⟨fun _ => hs, fun _ => h.quantity⟩
  · rw [if_neg hs]
    exact ⟨fun hpos => absurd hpos (by linarith), fun hb => absurd hb hs⟩

end FillFact

/-! ## What a turn does -/

section

variable (P : Projector) (w : Walk) (fill : FillFact)

/-- `1` for a long position, `-1` for a short one. -/
def Walk.sign : ℚ := if 0 < w.position then 1 else -1

def FillFact.feeOf (size : ℚ) : Option ℚ := fill.commission.map fun c => c * size / fill.quantity

def openMove (size : ℚ) : Move :=
  ⟨⟨fill.execId, fill.conid, P.sessionDate fill.fillTime, 0, fill.feeOf size, false⟩, fill, size, true⟩

/-- The trip that an opening piece is booked on. -/
def Walk.entered (left : ℚ) : TripBuilder :=
  (w.trip.getD (.start fill (if 0 < left then .LONG else .SHORT))).addEntry fill |left| (fill.feeOf |left|)

/-- The walk after an opening piece that takes all that is left. -/
def Walk.opened (left : ℚ) : Walk :=
  { w with
    position := w.position + left
    average := (|w.position| * w.average + |left| * fill.price) / (|w.position| + |left|)
    trip := some (w.entered fill left)
    moves := w.moves ++ [openMove P fill |left|] }

/-- The profit of an exit piece. -/
def Walk.realized (size : ℚ) : ℚ := (fill.price - w.average) * size * w.sign

def Walk.exitMove (size : ℚ) : Move :=
  ⟨⟨fill.execId, fill.conid, P.sessionDate fill.fillTime, w.realized fill size, fill.feeOf size,
    w.position - w.sign * size = 0⟩, fill, size, false⟩

def Walk.exited (size : ℚ) : Walk :=
  let trip := w.trip.map (·.addExit fill size (w.realized fill size) (fill.feeOf size))
  if w.position - w.sign * size = 0 then
    { w with
      position := w.position - w.sign * size, average := 0, trip := none
      trips := w.trips ++ (trip.map (·.build P .CLOSED)).toList
      moves := w.moves ++ [w.exitMove P fill size] }
  else { w with position := w.position - w.sign * size, trip := trip, moves := w.moves ++ [w.exitMove P fill size] }

variable {P w fill} {left : ℚ}

theorem turn_opens (hopens : w.Opens left) (hleft : left ≠ 0) : w.turn P fill left = (w.opened P fill left, 0) := by
  unfold Walk.turn
  dsimp only
  rw [if_pos hopens]
  by_cases hpos : 0 < left
  · simp only [Walk.opened, Walk.entered, openMove, FillFact.feeOf, if_pos hopens, if_pos hpos, abs_of_pos hpos, sub_self]
  · have hneg : left < 0 := lt_of_le_of_ne (not_lt.mp hpos) hleft
    simp only [Walk.opened, Walk.entered, openMove, FillFact.feeOf, if_pos hopens, if_neg hpos, abs_of_neg hneg,
      sub_neg_eq_add, add_neg_cancel]

theorem turn_reduces (hopens : ¬ w.Opens left) :
    w.turn P fill left = (w.exited P fill (min |left| |w.position|),
      if 0 < left then left - min |left| |w.position| else left + min |left| |w.position|) := by
  unfold Walk.turn
  dsimp only
  rw [if_neg hopens, if_neg hopens]
  unfold Walk.exited
  dsimp only
  by_cases hzero : w.position - w.sign * min |left| |w.position| = 0
  · rw [if_pos hzero]
    exact if_pos hzero
  · rw [if_neg hzero]
    exact if_neg hzero

theorem not_opens (hleft : left ≠ 0) : ¬ w.Opens left ↔ w.position * left < 0 := by
  unfold Walk.Opens
  rcases lt_trichotomy w.position 0 with hp | hp | hp
  · rcases lt_or_gt_of_ne hleft with hl | hl
    · have := mul_pos_of_neg_of_neg hp hl
      exact ⟨fun h => absurd (.inr ⟨fun hp' => absurd hp hp'.not_gt, fun hl' => absurd hl hl'.not_gt⟩) h,
        fun h => absurd h this.not_gt⟩
    · refine ⟨fun _ => mul_neg_of_neg_of_pos hp hl, fun _ => ?_⟩
      rintro (h | h)
      · exact hp.ne h
      · exact absurd (h.mpr hl) hp.not_gt
  · rw [hp, zero_mul]
    exact ⟨fun h => absurd (.inl rfl) h, fun h => absurd h (lt_irrefl _)⟩
  · rcases lt_or_gt_of_ne hleft with hl | hl
    · refine ⟨fun _ => mul_neg_of_pos_of_neg hp hl, fun _ => ?_⟩
      rintro (h | h)
      · exact hp.ne' h
      · exact absurd (h.mp hp) hl.not_gt
    · have := mul_pos hp hl
      exact ⟨fun h => absurd (.inr ⟨fun _ => hl, fun _ => hp⟩) h, fun h => absurd h this.not_gt⟩

theorem sign_mul_abs : w.sign * |w.position| = w.position := by
  unfold Walk.sign
  split
  · rename_i h
    rw [abs_of_pos h, one_mul]
  · rename_i h
    rw [abs_of_nonpos (not_lt.mp h)]
    ring

/-- A fill on the other side moves the position towards zero by its size. -/
theorem sign_mul_abs_left (hopposite : w.position * left < 0) : w.sign * |left| = - left := by
  unfold Walk.sign
  split
  · rename_i h
    rw [abs_of_neg (neg_of_mul_neg_right hopposite h.le), one_mul]
  · rename_i h
    rw [abs_of_pos (pos_of_mul_neg_right hopposite (not_lt.mp h))]
    ring

theorem exited_position (size : ℚ) : (w.exited P fill size).position = w.position - w.sign * size := by
  unfold Walk.exited
  dsimp only
  split <;> rfl

theorem exited_moves (size : ℚ) : (w.exited P fill size).moves = w.moves ++ [w.exitMove P fill size] := by
  unfold Walk.exited
  dsimp only
  split <;> rfl

theorem turn_exits (hopposite : w.position * left < 0) (hle : |left| ≤ |w.position|) :
    w.turn P fill left = (w.exited P fill |left|, 0) := by
  have hleft : left ≠ 0 := right_ne_zero_of_mul hopposite.ne
  rw [turn_reduces ((not_opens hleft).mpr hopposite), min_eq_left hle]
  refine Prod.ext rfl ?_
  by_cases hpos : 0 < left
  · simp only [if_pos hpos, abs_of_pos hpos, sub_self]
  · simp only [if_neg hpos, abs_of_nonpos (not_lt.mp hpos), add_neg_cancel]

theorem turn_crosses (hopposite : w.position * left < 0) (hlt : |w.position| < |left|) :
    w.turn P fill left = (w.exited P fill |w.position|, left + w.position) := by
  have hleft : left ≠ 0 := right_ne_zero_of_mul hopposite.ne
  rw [turn_reduces ((not_opens hleft).mpr hopposite), min_eq_right hlt.le]
  refine Prod.ext rfl ?_
  by_cases hpos : 0 < left
  · have hneg : w.position < 0 := neg_of_mul_neg_left hopposite hpos.le
    simp only [if_pos hpos, abs_of_neg hneg, sub_neg_eq_add]
  · have hp : 0 < w.position := pos_of_mul_neg_left hopposite (not_lt.mp hpos)
    simp only [if_neg hpos, abs_of_pos hp]

/-- **The loop over a fill ends**: the fill opens, or reduces, or closes the position and opens the other side. -/
theorem spend_cases (P : Projector) (w : Walk) (fill : FillFact) (hleft : left ≠ 0) :
    ∃ w', (∀ fuel, w.spend P fill (fuel + 3) left = some w') ∧
      ((w.Opens left ∧ w' = w.opened P fill left) ∨
      (w.position * left < 0 ∧ |left| ≤ |w.position| ∧ w' = w.exited P fill |left|) ∨
      (w.position * left < 0 ∧ |w.position| < |left| ∧ left + w.position ≠ 0 ∧
        w' = (w.exited P fill |w.position|).opened P fill (left + w.position))) := by
  have hspend : ∀ fuel, w.spend P fill (fuel + 3) left =
      Walk.spend P fill (fuel + 2) (w.turn P fill left).1 (w.turn P fill left).2 := by
    intro fuel
    rw [Walk.spend, if_neg hleft]
  by_cases hopens : w.Opens left
  · refine ⟨_, fun fuel => ?_, .inl ⟨hopens, rfl⟩⟩
    rw [hspend, turn_opens hopens hleft, Walk.spend, if_pos rfl]
  · have hopposite := (not_opens hleft).mp hopens
    by_cases hle : |left| ≤ |w.position|
    · refine ⟨_, fun fuel => ?_, .inr (.inl ⟨hopposite, hle, rfl⟩)⟩
      rw [hspend, turn_exits hopposite hle, Walk.spend, if_pos rfl]
    · have hlt := not_le.mp hle
      have hrest : left + w.position ≠ 0 := by
        intro h
        rw [show left = - w.position by linarith, abs_neg] at hlt
        exact lt_irrefl _ hlt
      have hflat : (w.exited P fill |w.position|).position = 0 := by
        rw [exited_position, sign_mul_abs, sub_self]
      refine ⟨_, fun fuel => ?_, .inr (.inr ⟨hopposite, hlt, hrest, rfl⟩)⟩
      rw [hspend, turn_crosses hopposite hlt, Walk.spend, if_neg hrest]
      dsimp only
      rw [turn_opens (.inl hflat) hrest, Walk.spend, if_pos rfl]

end

end MmrTrader.Scoreboard

/-!
## The books of a walk

* `OpenTrip`, `ClosedTrip`, `Walk.Booked` — position, average and trips agree with the moves.
* `Walk.Booked.opened`, `Walk.Booked.exited` — both turns keep the books.

The average cost is tied to the books by one equation: what the trip has cost, less the cost of the open shares, is
the cost of the shares that were closed (`OpenTrip.gross`).
-/

namespace MmrTrader.Scoreboard

/-! ## Moves, cut into trips -/

def splitTrip (s : List (List Move) × List Move) (m : Move) : List (List Move) × List Move :=
  if m.piece.closesTrip then (s.1 ++ [s.2 ++ [m]], []) else (s.1, s.2 ++ [m])

def splitTrips (ms : List Move) : List (List Move) × List Move := ms.foldl splitTrip ([], [])

def tripMoves (ms : List Move) : List (List Move) :=
  (splitTrips ms).1 ++ if (splitTrips ms).2 = [] then [] else [(splitTrips ms).2]

/-- The trip at this place has a piece of the execution. -/
def InTrip (ms : List Move) (j : Nat) (execId : String) : Prop :=
  ∃ part, (tripMoves ms)[j]? = some part ∧ ∃ m ∈ part, m.fill.execId = execId

theorem splitTrips_concat (ms : List Move) (m : Move) : splitTrips (ms ++ [m]) = splitTrip (splitTrips ms) m := by
  simp [splitTrips, List.foldl_append]

theorem tripMoves_concat (ms : List Move) (m : Move) :
    tripMoves (ms ++ [m]) = (splitTrips ms).1 ++ [(splitTrips ms).2 ++ [m]] := by
  unfold tripMoves
  rw [splitTrips_concat, splitTrip]
  by_cases hcloses : m.piece.closesTrip = true
  · rw [if_pos hcloses]
    simp
  · rw [if_neg hcloses]
    simp

theorem splitTrips_flatten (ms : List Move) : (splitTrips ms).1.flatten ++ (splitTrips ms).2 = ms := by
  induction ms using List.reverseRecOn with
  | nil => rfl
  | append_singleton ms m ih =>
    rw [splitTrips_concat, splitTrip]
    by_cases hcloses : m.piece.closesTrip = true
    · rw [if_pos hcloses, List.flatten_append, List.flatten_singleton, List.append_nil, ← List.append_assoc, ih]
    · rw [if_neg hcloses, ← List.append_assoc, ih]

theorem tripMoves_flatten (ms : List Move) : (tripMoves ms).flatten = ms := by
  unfold tripMoves
  rw [List.flatten_append]
  by_cases hempty : (splitTrips ms).2 = []
  · have := splitTrips_flatten ms
    rw [hempty] at this
    rw [if_pos hempty]
    exact this
  · rw [if_neg hempty, List.flatten_singleton]
    exact splitTrips_flatten ms

theorem inTrip_iff (ms : List Move) (j : Nat) (execId : String) : InTrip ms j execId ↔
    (∃ part, (splitTrips ms).1[j]? = some part ∧ ∃ m ∈ part, m.fill.execId = execId) ∨
      j = (splitTrips ms).1.length ∧ ∃ m ∈ (splitTrips ms).2, m.fill.execId = execId := by
  unfold InTrip tripMoves
  by_cases hempty : (splitTrips ms).2 = []
  · rw [if_pos hempty, List.append_nil, hempty]
    simp
  · rw [if_neg hempty]
    rcases lt_trichotomy j (splitTrips ms).1.length with hj | hj | hj
    · rw [List.getElem?_append_left hj]
      exact ⟨.inl, fun h => h.resolve_right fun hr => absurd hr.1 hj.ne⟩
    · subst hj
      rw [List.getElem?_concat_length, List.getElem?_eq_none (le_refl _)]
      simp
    · rw [List.getElem?_eq_none (by simpa using Nat.succ_le_of_lt hj), List.getElem?_eq_none hj.le]
      refine ⟨fun ⟨_, hnone, _⟩ => (nomatch hnone), ?_⟩
      rintro (⟨_, hnone, _⟩ | hr)
      · cases hnone
      · exact absurd hr.1 hj.ne'

theorem inTrip_concat (ms : List Move) (m : Move) (j : Nat) (execId : String) :
    InTrip (ms ++ [m]) j execId ↔ InTrip ms j execId ∨ j = (splitTrips ms).1.length ∧ m.fill.execId = execId := by
  have hnew : InTrip (ms ++ [m]) j execId ↔
      (∃ part, (splitTrips ms).1[j]? = some part ∧ ∃ x ∈ part, x.fill.execId = execId) ∨
        j = (splitTrips ms).1.length ∧ ∃ x ∈ (splitTrips ms).2 ++ [m], x.fill.execId = execId := by
    unfold InTrip
    rw [tripMoves_concat]
    rcases lt_trichotomy j (splitTrips ms).1.length with hj | hj | hj
    · rw [List.getElem?_append_left hj]
      exact ⟨.inl, fun h => h.resolve_right fun hr => absurd hr.1 hj.ne⟩
    · subst hj
      rw [List.getElem?_concat_length, List.getElem?_eq_none (le_refl _)]
      simp
    · rw [List.getElem?_eq_none (by simpa using Nat.succ_le_of_lt hj), List.getElem?_eq_none hj.le]
      refine ⟨fun ⟨_, hnone, _⟩ => (nomatch hnone), ?_⟩
      rintro (⟨_, hnone, _⟩ | hr)
      · cases hnone
      · exact absurd hr.1 hj.ne'
  rw [hnew, inTrip_iff, or_assoc]
  refine or_congr_right ?_
  rw [← and_or_left]
  refine and_congr_right fun _ => ?_
  simp only [List.mem_append, List.mem_singleton, or_and_right, exists_or, exists_eq_left]

/-! ## What a builder has booked -/

def Move.value (m : Move) : ℚ := m.size * m.fill.price

def enteredQty (ms : List Move) : ℚ := ((ms.filter fun m => m.opening = true).map (·.size)).sum

def enteredValue (ms : List Move) : ℚ := ((ms.filter fun m => m.opening = true).map Move.value).sum

def exitedQty (ms : List Move) : ℚ := ((ms.filter fun m => ¬ m.opening = true).map (·.size)).sum

def exitedValue (ms : List Move) : ℚ := ((ms.filter fun m => ¬ m.opening = true).map Move.value).sum

structure TripBuilder.Books (b : TripBuilder) (ms : List Move) : Prop where
  entryQty : b.entryQty = enteredQty ms
  entryCost : b.entryCost = enteredValue ms
  exitQty : b.exitQty = exitedQty ms
  exitValue : b.exitValue = exitedValue ms
  fees : b.fees = ms.map (·.piece.fee)
  ids : ∀ execId, execId ∈ b.fills.map (·.execId) ↔ ∃ m ∈ ms, m.fill.execId = execId
  /-- The first move opens the trip. -/
  head : ∃ m rest, ms = m :: rest ∧ m.fill = b.first ∧ m.opening = true
  /-- Moves in the direction of the trip open, the others close. -/
  sides : ∀ m ∈ ms, (m.opening = true ↔ (m.fill.side = "BUY" ↔ b.direction = .LONG))

namespace TripBuilder

variable {b : TripBuilder} {ms : List Move} {P : Projector} {fill : FillFact} {size : ℚ}

theorem touch_ids (m : Move) (fee : Option ℚ) (h : ∀ x, x ∈ b.fills.map (·.execId) ↔ ∃ m ∈ ms, m.fill.execId = x)
    (hm : m.fill = fill) (x : String) :
    x ∈ (b.touch fill fee).fills.map (·.execId) ↔ ∃ m' ∈ ms ++ [m], m'.fill.execId = x := by
  have hnew : (∃ m' ∈ ms ++ [m], m'.fill.execId = x) ↔ x ∈ b.fills.map (·.execId) ∨ fill.execId = x := by
    rw [h]
    simp only [List.mem_append, List.mem_singleton, or_and_right, exists_or, exists_eq_left, hm]
  rw [hnew]
  unfold touch
  dsimp only
  by_cases hmem : fill.execId ∈ b.fills.map (·.execId)
  · rw [if_pos hmem]
    exact ⟨.inl, fun h => h.elim id fun heq => heq ▸ hmem⟩
  · rw [if_neg hmem, List.map_append, List.mem_append, List.map_singleton, List.mem_singleton]
    exact or_congr_right eq_comm

theorem Books.entry (h : b.Books ms) (hside : fill.side = "BUY" ↔ b.direction = .LONG) :
    (b.addEntry fill size (fill.feeOf size)).Books (ms ++ [openMove P fill size]) where
  entryQty := by
    change b.entryQty + size = _
    rw [h.entryQty]
    simp [enteredQty, openMove]
  entryCost := by
    change b.entryCost + size * fill.price = _
    rw [h.entryCost]
    simp [enteredValue, openMove, Move.value]
  exitQty := by
    change b.exitQty = _
    rw [h.exitQty]
    simp [exitedQty, openMove]
  exitValue := by
    change b.exitValue = _
    rw [h.exitValue]
    simp [exitedValue, openMove]
  fees := by
    change b.fees ++ [fill.feeOf size] = _
    rw [h.fees, List.map_append]
    rfl
  ids := fun x => touch_ids (b := { b with entryQty := b.entryQty + size, entryCost := b.entryCost + size * fill.price })
    (openMove P fill size) (fill.feeOf size) h.ids rfl x
  head := by
    obtain ⟨m, rest, rfl, hfirst, hopening⟩ := h.head
    exact ⟨m, rest ++ [openMove P fill size], rfl, hfirst, hopening⟩
  sides := by
    intro m hm
    rcases List.mem_append.mp hm with hm | hm
    · exact h.sides m hm
    · rw [List.mem_singleton.mp hm]
      exact iff_of_true rfl hside

theorem start_books {direction : Direction} (hside : fill.side = "BUY" ↔ direction = .LONG) :
    ((start fill direction).addEntry fill size (fill.feeOf size)).Books [openMove P fill size] where
  entryQty := by
    change 0 + size = _
    simp [enteredQty, openMove]
  entryCost := by
    change 0 + size * fill.price = _
    simp [enteredValue, openMove, Move.value]
  exitQty := by
    change (0 : ℚ) = _
    simp [exitedQty, openMove]
  exitValue := by
    change (0 : ℚ) = _
    simp [exitedValue, openMove]
  fees := rfl
  ids := fun x => by
    have hnone : ∀ y, y ∈ ([] : List FillFact).map (·.execId) ↔ ∃ m ∈ ([] : List Move), m.fill.execId = y := by simp
    exact touch_ids (b := { start fill direction with entryQty := 0 + size, entryCost := 0 + size * fill.price })
      (openMove P fill size) (fill.feeOf size) hnone rfl x
  head := ⟨_, [], rfl, rfl, rfl⟩
  sides := by
    intro m hm
    rw [List.mem_singleton.mp hm]
    exact iff_of_true rfl hside

theorem Books.exit (P : Projector) (w : Walk) (size : ℚ) (h : b.Books ms) (hside : ¬ (fill.side = "BUY" ↔ b.direction = .LONG)) :
    (b.addExit fill size (w.realized fill size) (fill.feeOf size)).Books (ms ++ [w.exitMove P fill size]) where
  entryQty := by
    change b.entryQty = _
    rw [h.entryQty]
    simp [enteredQty, Walk.exitMove]
  entryCost := by
    change b.entryCost = _
    rw [h.entryCost]
    simp [enteredValue, Walk.exitMove]
  exitQty := by
    change b.exitQty + size = _
    rw [h.exitQty]
    simp [exitedQty, Walk.exitMove]
  exitValue := by
    change b.exitValue + size * fill.price = _
    rw [h.exitValue]
    simp [exitedValue, Walk.exitMove, Move.value]
  fees := by
    change b.fees ++ [fill.feeOf size] = _
    rw [h.fees, List.map_append]
    rfl
  ids := fun x => touch_ids
    (b := { b with exitQty := b.exitQty + size, exitValue := b.exitValue + size * fill.price,
                   gross := b.gross + w.realized fill size }) (w.exitMove P fill size) (fill.feeOf size) h.ids rfl x
  head := by
    obtain ⟨m, rest, rfl, hfirst, hopening⟩ := h.head
    exact ⟨m, rest ++ [w.exitMove P fill size], rfl, hfirst, hopening⟩
  sides := by
    intro m hm
    rcases List.mem_append.mp hm with hm | hm
    · exact h.sides m hm
    · rw [List.mem_singleton.mp hm]
      exact iff_of_false Bool.false_ne_true hside

end TripBuilder

/-! ## The books of a walk -/

/-- The open trip: its books, its open shares, its direction and its profit. -/
structure OpenTrip (w : Walk) (b : TripBuilder) (ms : List Move) : Prop where
  books : b.Books ms
  quantity : b.entryQty - b.exitQty = |w.position|
  direction : b.direction = .LONG ↔ 0 < w.position
  ne : w.position ≠ 0
  /-- The profit is what the closed shares brought over their cost. -/
  gross : b.gross = w.sign * (b.exitValue - (b.entryCost - |w.position| * w.average))

/-- `1` for a long trip, `-1` for a short one. -/
def Direction.sign : Direction → ℚ
  | .LONG => 1
  | .SHORT => -1

def ClosedTrip (P : Projector) (ms : List Move) (t : RoundTrip) : Prop :=
  ∃ b : TripBuilder, b.Books ms ∧ t = b.build P .CLOSED ∧ b.entryQty = b.exitQty ∧
    b.gross = b.direction.sign * (b.exitValue - b.entryCost)

structure Walk.Booked (P : Projector) (w : Walk) : Prop where
  closed : List.Forall₂ (ClosedTrip P) (splitTrips w.moves).1 w.trips
  flat : w.trip = none → w.position = 0 ∧ (splitTrips w.moves).2 = []
  current : ∀ b, w.trip = some b → OpenTrip w b (splitTrips w.moves).2

section

variable {P : Projector} {w : Walk} {fill : FillFact} {left size : ℚ}

theorem Walk.Booked.start : Walk.Booked P .start := ⟨.nil, fun _ => ⟨rfl, rfl⟩, fun _ h => nomatch h⟩

theorem Walk.sign_eq (w : Walk) {d : Direction} (h : d = .LONG ↔ 0 < w.position) : w.sign = d.sign := by
  unfold Walk.sign
  cases d with
  | LONG => exact if_pos (h.mp rfl)
  | SHORT => exact if_neg fun hpos => nomatch h.mpr hpos

theorem openMove_splitTrips (ms : List Move) :
    splitTrips (ms ++ [openMove P fill size]) = ((splitTrips ms).1, (splitTrips ms).2 ++ [openMove P fill size]) := by
  rw [splitTrips_concat]
  rfl

theorem average_mul (position average price : ℚ) {left : ℚ} (hleft : left ≠ 0) :
    (|position| + |left|) * ((|position| * average + |left| * price) / (|position| + |left|)) =
      |position| * average + |left| * price := by
  have hpos : |position| + |left| ≠ 0 := by
    have := abs_nonneg position
    have := abs_pos.mpr hleft
    linarith
  field_simp

/-- **An opening turn keeps the books.** -/
theorem Walk.Booked.opened (h : w.Booked P) (hopens : w.Opens left) (hleft : left ≠ 0)
    (hside : 0 < left ↔ fill.side = "BUY") : (w.opened P fill left).Booked P := by
  have hmoves : (w.opened P fill left).moves = w.moves ++ [openMove P fill |left|] := rfl
  refine ⟨?_, fun hnone => (nomatch hnone), fun b hb => ?_⟩
  · rw [hmoves, openMove_splitTrips]
    exact h.closed
  · rw [hmoves, openMove_splitTrips]
    obtain rfl : w.entered fill left = b := Option.some.inj hb
    have haverage := average_mul w.position w.average fill.price hleft
    cases htrip : w.trip with
    | none =>
      obtain ⟨hzero, hempty⟩ := h.flat htrip
      have hposition : (w.opened P fill left).position = left := by
        change w.position + left = left
        rw [hzero, zero_add]
      have hentered : w.entered fill left =
          (TripBuilder.start fill (if 0 < left then .LONG else .SHORT)).addEntry fill |left| (fill.feeOf |left|) := by
        unfold Walk.entered
        rw [htrip]
        rfl
      have hdirection : (if 0 < left then Direction.LONG else .SHORT) = .LONG ↔ 0 < left := by
        split <;> simp_all
      rw [hentered, hempty]
      refine ⟨TripBuilder.start_books (hside.symm.trans hdirection.symm), ?_, ?_, ?_, ?_⟩
      · rw [hposition]
        change 0 + |left| - 0 = |left|
        ring
      · rw [hposition]
        exact hdirection
      · rw [hposition]
        exact hleft
      · rw [hposition]
        change (0 : ℚ) = _ * (0 - (0 + |left| * fill.price -
          |left| * ((|w.position| * w.average + |left| * fill.price) / (|w.position| + |left|))))
        rw [hzero, abs_zero, zero_mul, zero_add, zero_add] at haverage ⊢
        rw [haverage]
        ring
    | some b =>
      have ho := h.current b htrip
      have hsame : 0 < w.position ↔ 0 < left := hopens.resolve_left ho.ne
      have hentered : w.entered fill left = b.addEntry fill |left| (fill.feeOf |left|) := by
        unfold Walk.entered
        rw [htrip]
        rfl
      have hposition : (w.opened P fill left).position = w.position + left := rfl
      have habs : |w.position + left| = |w.position| + |left| := by
        rcases lt_or_gt_of_ne hleft with hneg | hpos
        · have : w.position < 0 := lt_of_le_of_ne (not_lt.mp fun hp => absurd hneg (hsame.mp hp).not_gt) ho.ne
          rw [abs_of_neg this, abs_of_neg hneg, abs_of_neg (by linarith)]
          ring
        · have : 0 < w.position := hsame.mpr hpos
          rw [abs_of_pos this, abs_of_pos hpos, abs_of_pos (by linarith)]
      have hsign : 0 < w.position + left ↔ 0 < w.position := by
        constructor
        · intro hp
          by_contra hn
          have : ¬ 0 < left := fun hl => hn (hsame.mpr hl)
          linarith [not_lt.mp hn, not_lt.mp this]
        · intro hp
          linarith [hsame.mp hp]
      rw [hentered]
      refine ⟨ho.books.entry (hside.symm.trans (hsame.symm.trans ho.direction.symm)), ?_, ?_, ?_, ?_⟩
      · rw [hposition, habs, ← ho.quantity]
        change b.entryQty + |left| - b.exitQty = _
        ring
      · rw [hposition, hsign]
        exact ho.direction
      · rw [hposition, ← abs_ne_zero, habs, ← habs, abs_ne_zero]
        intro hz
        have := abs_pos.mpr hleft
        have := abs_nonneg w.position
        rw [hz, abs_zero] at habs
        linarith
      · have hsigns : (w.opened P fill left).sign = w.sign := if_congr hsign rfl rfl
        rw [hsigns, hposition, habs]
        change b.gross = w.sign * (b.exitValue - (b.entryCost + |left| * fill.price -
          (|w.position| + |left|) * ((|w.position| * w.average + |left| * fill.price) / (|w.position| + |left|))))
        rw [haverage, ho.gross]
        ring

theorem abs_sub_sign (hle : size ≤ |w.position|) : |w.position - w.sign * size| = |w.position| - size := by
  unfold Walk.sign
  split
  · rename_i hpos
    rw [abs_of_pos hpos] at hle ⊢
    rw [abs_of_nonneg (by linarith)]
    ring
  · rename_i hpos
    rw [abs_of_nonpos (not_lt.mp hpos)] at hle ⊢
    rw [abs_of_nonpos (by linarith)]
    ring

/-- **An exit keeps the books.** -/
theorem Walk.Booked.exited (h : w.Booked P) (hne : w.position ≠ 0) (hle : size ≤ |w.position|)
    (hside : ¬ (fill.side = "BUY" ↔ 0 < w.position)) : (w.exited P fill size).Booked P := by
  cases htrip : w.trip with
  | none => exact absurd (h.flat htrip).1 hne
  | some b =>
    have ho := h.current b htrip
    have hbooks := ho.books.exit P w size fun hiff => hside (hiff.trans ho.direction)
    have hrealized : w.realized fill size = (fill.price - w.average) * size * w.sign := rfl
    have habs := abs_sub_sign hle
    by_cases hzero : w.position - w.sign * size = 0
    · have hwhole : size = |w.position| := by
        rw [hzero, abs_zero] at habs
        linarith
      have hexited : w.exited P fill size =
          { w with
            position := w.position - w.sign * size, average := 0, trip := none
            trips := w.trips ++ [(b.addExit fill size (w.realized fill size) (fill.feeOf size)).build P .CLOSED]
            moves := w.moves ++ [w.exitMove P fill size] } := by
        unfold Walk.exited
        dsimp only
        rw [if_pos hzero, htrip]
        rfl
      have hcloses : (w.exitMove P fill size).piece.closesTrip = true := decide_eq_true hzero
      have hsplit : splitTrips (w.moves ++ [w.exitMove P fill size]) =
          ((splitTrips w.moves).1 ++ [(splitTrips w.moves).2 ++ [w.exitMove P fill size]], []) := by
        rw [splitTrips_concat, splitTrip, if_pos hcloses]
      rw [hexited]
      refine ⟨?_, fun _ => ⟨hzero, ?_⟩, fun _ hb => nomatch hb⟩
      · change List.Forall₂ _ (splitTrips (w.moves ++ [w.exitMove P fill size])).1 _
        rw [hsplit]
        refine List.rel_append h.closed (.cons ⟨_, hbooks, rfl, ?_, ?_⟩ .nil)
        · change b.entryQty = b.exitQty + size
          rw [hwhole, ← ho.quantity]
          ring
        · change b.gross + w.realized fill size = b.direction.sign * (b.exitValue + size * fill.price - b.entryCost)
          rw [ho.gross, hrealized, ← w.sign_eq ho.direction, hwhole]
          ring
      · change (splitTrips (w.moves ++ [w.exitMove P fill size])).2 = []
        rw [hsplit]
    · have hexited : w.exited P fill size =
          { w with
            position := w.position - w.sign * size
            trip := some (b.addExit fill size (w.realized fill size) (fill.feeOf size))
            moves := w.moves ++ [w.exitMove P fill size] } := by
        unfold Walk.exited
        dsimp only
        rw [if_neg hzero, htrip]
        rfl
      have hcloses : ¬ (w.exitMove P fill size).piece.closesTrip = true := fun hc => hzero (of_decide_eq_true hc)
      have hsplit : splitTrips (w.moves ++ [w.exitMove P fill size]) =
          ((splitTrips w.moves).1, (splitTrips w.moves).2 ++ [w.exitMove P fill size]) := by
        rw [splitTrips_concat, splitTrip, if_neg hcloses]
      have hpart : size < |w.position| := by
        refine lt_of_le_of_ne hle fun heq => hzero ?_
        rw [heq, sign_mul_abs, sub_self]
      have hsign : 0 < w.position - w.sign * size ↔ 0 < w.position := by
        unfold Walk.sign
        split
        · rename_i hpos
          rw [abs_of_pos hpos] at hpart
          exact iff_of_true (by linarith) hpos
        · rename_i hpos
          rw [abs_of_nonpos (not_lt.mp hpos)] at hpart
          exact iff_of_false (by linarith) hpos
      rw [hexited]
      refine ⟨?_, fun hnone => (nomatch hnone), fun b' hb => ?_⟩
      · change List.Forall₂ _ (splitTrips (w.moves ++ [w.exitMove P fill size])).1 _
        rw [hsplit]
        exact h.closed
      · obtain rfl := Option.some.inj hb
        change OpenTrip _ _ (splitTrips (w.moves ++ [w.exitMove P fill size])).2
        rw [hsplit]
        refine ⟨hbooks, ?_, ?_, hzero, ?_⟩
        · change b.entryQty - (b.exitQty + size) = |w.position - w.sign * size|
          rw [habs, ← ho.quantity]
          ring
        · exact ho.direction.trans hsign.symm
        · change b.gross + w.realized fill size = (if 0 < w.position - w.sign * size then (1 : ℚ) else -1) *
            (b.exitValue + size * fill.price - (b.entryCost - |w.position - w.sign * size| * w.average))
          have hsigns : (if 0 < w.position - w.sign * size then (1 : ℚ) else -1) = w.sign := if_congr hsign rfl rfl
          rw [hsigns, habs, ho.gross, hrealized]
          ring

end

end MmrTrader.Scoreboard
