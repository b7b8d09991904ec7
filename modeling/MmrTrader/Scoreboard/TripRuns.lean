import MmrTrader.Scoreboard.TripBooks

/-!
# Walks over many fills

* `Walk.Kept` — what a walk over the fills of an instrument keeps: its books, its position, the sizes of every fill,
  one opening for each execution, and the one or two trips of each.
* `Walk.Kept.fill`, `Walk.Kept.fills` — one fill, and any number of them; closed trips stay.
-/

namespace MmrTrader.Scoreboard

variable {P : Projector} {w w' : Walk} {f : FillFact} {fs : List FillFact}

/-! ## One fill -/

structure Move.Of (m : Move) (f : FillFact) : Prop where
  fill : m.fill = f
  execId : m.piece.execId = f.execId
  conid : m.piece.conid = f.conid
  size : 0 < m.size
  fee : m.piece.fee = f.feeOf m.size

/-- The moves that a fill adds: one, or an exit to zero and an opening when it crosses. -/
structure FillMoves (w w' : Walk) (f : FillFact) (new : List Move) : Prop where
  moves : w'.moves = w.moves ++ new
  own : ∀ m ∈ new, m.Of f
  sizes : (new.map (·.size)).sum = f.quantity
  shape : (∃ m, new = [m] ∧ 0 ≤ w.position * w'.position) ∨
    ∃ m m', new = [m, m'] ∧ m.piece.closesTrip = true ∧ m.opening = false ∧ w.position * w'.position < 0

variable {size : ℚ}

theorem openMove_of (h : 0 < size) : (openMove P f size).Of f := ⟨rfl, rfl, rfl, h, rfl⟩

theorem exitMove_of (h : 0 < size) : (w.exitMove P f size).Of f := ⟨rfl, rfl, rfl, h, rfl⟩

theorem exited_trips (size : ℚ) : w.trips <+: (w.exited P f size).trips := by
  unfold Walk.exited
  dsimp only
  split
  · exact List.prefix_append _ _
  · exact List.prefix_refl _

theorem side_of_opposite (hf : f.Valid) (hopposite : w.position * f.signed < 0) : ¬ (f.side = "BUY" ↔ 0 < w.position) := by
  rw [← hf.signed_pos]
  intro hiff
  rcases lt_or_gt_of_ne hf.signed_ne with hneg | hpos
  · exact absurd hneg (hiff.mpr (pos_of_mul_neg_left hopposite hneg.le)).not_gt
  · exact absurd (hiff.mp hpos) (neg_of_mul_neg_left hopposite hpos.le).not_gt

/-- **One fill**: the loop ends, the books agree, the position moves by the fill, and closed trips stay. -/
theorem fill_step (h : w.Booked P) (hf : f.Valid) : ∃ w' new, (∀ fuel, w.spend P f (fuel + 3) f.signed = some w') ∧
    w'.Booked P ∧ w'.position = w.position + f.signed ∧ FillMoves w w' f new ∧ w.trips <+: w'.trips := by
  have hne := hf.signed_ne
  have habs := hf.abs_signed
  obtain ⟨w', hspend, ⟨hopens, rfl⟩ | ⟨hopposite, hle, rfl⟩ | ⟨hopposite, hlt, hrest, rfl⟩⟩ :=
    spend_cases P w f hne
  · have hsame : 0 ≤ w.position * (w.position + f.signed) := by
      rw [mul_add]
      have hsquare := mul_self_nonneg w.position
      have hcross : 0 ≤ w.position * f.signed := not_lt.mp fun hlt => (not_opens hne).mpr hlt hopens
      linarith
    refine ⟨_, [openMove P f |f.signed|], hspend, h.opened hopens hne hf.signed_pos, rfl, ⟨rfl, ?_, ?_, .inl ⟨_, rfl, hsame⟩⟩,
      List.prefix_refl _⟩
    · intro m hm
      rw [List.mem_singleton.mp hm]
      exact openMove_of (abs_pos.mpr hne)
    · change |f.signed| + 0 = f.quantity
      rw [habs, add_zero]
  · have hposition : (w.exited P f |f.signed|).position = w.position + f.signed := by
      rw [exited_position, sign_mul_abs_left hopposite]
      ring
    have hsame : 0 ≤ w.position * (w.exited P f |f.signed|).position := by
      rw [exited_position]
      have hrest := abs_sub_sign hle
      have hsigned := sign_mul_abs (w := w)
      have hfactor : w.position * (w.position - w.sign * |f.signed|) = w.sign * w.sign * (|w.position| * (|w.position| - |f.signed|)) := by
        calc w.position * (w.position - w.sign * |f.signed|)
            = (w.sign * |w.position|) * (w.sign * |w.position| - w.sign * |f.signed|) := by rw [hsigned]
          _ = _ := by ring
      rw [hfactor]
      exact mul_nonneg (mul_self_nonneg _) (mul_nonneg (abs_nonneg _) (by linarith))
    refine ⟨_, [w.exitMove P f |f.signed|], hspend,
      h.exited (left_ne_zero_of_mul hopposite.ne) hle (side_of_opposite hf hopposite), hposition,
      ⟨exited_moves _, ?_, ?_, .inl ⟨_, rfl, hsame⟩⟩, exited_trips _⟩
    · intro m hm
      rw [List.mem_singleton.mp hm]
      exact exitMove_of (abs_pos.mpr hne)
    · change |f.signed| + 0 = f.quantity
      rw [habs, add_zero]
  · have hpositionNe := left_ne_zero_of_mul hopposite.ne
    have hflat : (w.exited P f |w.position|).position = 0 := by
      rw [exited_position, sign_mul_abs, sub_self]
    have hbooked : (w.exited P f |w.position|).Booked P := h.exited hpositionNe (le_refl _) (side_of_opposite hf hopposite)
    have hside : 0 < f.signed + w.position ↔ f.side = "BUY" := by
      rw [← hf.signed_pos]
      rcases lt_or_gt_of_ne hne with hneg | hpos
      · have hp := pos_of_mul_neg_left hopposite hneg.le
        rw [abs_of_pos hp, abs_of_neg hneg] at hlt
        exact iff_of_false (by linarith) hneg.not_gt
      · have hp := neg_of_mul_neg_left hopposite hpos.le
        rw [abs_of_neg hp, abs_of_pos hpos] at hlt
        exact iff_of_true (by linarith) hpos
    have hopened : ((w.exited P f |w.position|).opened P f (f.signed + w.position)).Booked P :=
      hbooked.opened (.inl hflat) hrest hside
    have hposition : ((w.exited P f |w.position|).opened P f (f.signed + w.position)).position = w.position + f.signed := by
      change (w.exited P f |w.position|).position + (f.signed + w.position) = _
      rw [hflat]
      ring
    have hrestAbs : |f.signed + w.position| = |f.signed| - |w.position| := by
      rcases lt_or_gt_of_ne hne with hneg | hpos
      · have hp := pos_of_mul_neg_left hopposite hneg.le
        rw [abs_of_pos hp, abs_of_neg hneg] at hlt ⊢
        rw [abs_of_neg (by linarith)]
        ring
      · have hp := neg_of_mul_neg_left hopposite hpos.le
        rw [abs_of_neg hp, abs_of_pos hpos] at hlt ⊢
        rw [abs_of_pos (by linarith)]
        ring
    have hcrosses : w.position * ((w.exited P f |w.position|).opened P f (f.signed + w.position)).position < 0 := by
      rw [hposition]
      rcases lt_or_gt_of_ne hne with hneg | hpos
      · have hp := pos_of_mul_neg_left hopposite hneg.le
        rw [abs_of_pos hp, abs_of_neg hneg] at hlt
        exact mul_neg_of_pos_of_neg hp (by linarith)
      · have hp := neg_of_mul_neg_left hopposite hpos.le
        rw [abs_of_neg hp, abs_of_pos hpos] at hlt
        exact mul_neg_of_neg_of_pos hp (by linarith)
    refine ⟨_, [w.exitMove P f |w.position|, openMove P f |f.signed + w.position|], hspend, hopened, hposition,
      ⟨?_, ?_, ?_, .inr ⟨_, _, rfl, ?_, rfl, hcrosses⟩⟩, exited_trips _⟩
    · change (w.exited P f |w.position|).moves ++ [openMove P f |f.signed + w.position|] = _
      rw [exited_moves, List.append_assoc]
      rfl
    · intro m hm
      rcases List.mem_cons.mp hm with rfl | hm
      · exact exitMove_of (abs_pos.mpr hpositionNe)
      · rw [List.mem_singleton.mp hm]
        exact openMove_of (abs_pos.mpr hrest)
    · change |w.position| + (|f.signed + w.position| + 0) = f.quantity
      rw [hrestAbs, habs]
      ring
    · refine decide_eq_true ?_
      rw [sign_mul_abs, sub_self]

/-! ## Many fills -/

def positionBefore (fs : List FillFact) (f : FillFact) : ℚ := ((fs.takeWhile fun g => g.execId ≠ f.execId).map (·.signed)).sum

/-- The fill takes the position from one side of zero to the other. -/
def CrossesZero (fs : List FillFact) (f : FillFact) : Prop :=
  positionBefore fs f * (positionBefore fs f + f.signed) < 0

structure Walk.Kept (P : Projector) (fs : List FillFact) (w : Walk) : Prop where
  booked : w.Booked P
  position : w.position = (fs.map (·.signed)).sum
  own : ∀ m ∈ w.moves, m.fill ∈ fs ∧ m.Of m.fill
  sizes : ∀ f ∈ fs, ((w.moves.filter fun m => m.piece.execId = f.execId).map (·.size)).sum = f.quantity
  /-- An execution opens at most once. -/
  openings : ((w.moves.filter fun m => m.opening = true).map (·.fill.execId)).Nodup
  /-- An execution is in one trip, or in two that follow each other. -/
  once : ∀ f ∈ fs, ∃ i, ∀ j, InTrip w.moves j f.execId ↔ j = i ∨ CrossesZero fs f ∧ j = i + 1

theorem Walk.Kept.start : Walk.start.Kept P [] :=
  ⟨.start, rfl, List.forall_mem_nil _, List.forall_mem_nil _, List.nodup_nil, List.forall_mem_nil _⟩

theorem positionBefore_old {g : FillFact} (hg : g ∈ fs) (rest : List FillFact) :
    positionBefore (fs ++ rest) g = positionBefore fs g := by
  unfold positionBefore
  congr 2
  induction fs with
  | nil => cases hg
  | cons x fs ih =>
    rw [List.cons_append, List.takeWhile_cons, List.takeWhile_cons]
    by_cases hx : x.execId = g.execId
    · simp [hx]
    · have hmem : g ∈ fs := (List.mem_cons.mp hg).resolve_left fun heq => hx (heq ▸ rfl)
      rw [ih hmem]

theorem positionBefore_new (hfresh : f.execId ∉ fs.map (·.execId)) : positionBefore (fs ++ [f]) f = (fs.map (·.signed)).sum := by
  unfold positionBefore
  have hall : ∀ g ∈ fs, decide (g.execId ≠ f.execId) = true := fun g hg =>
    decide_eq_true fun heq => hfresh (heq ▸ List.mem_map_of_mem hg)
  rw [List.takeWhile_append_of_pos hall]
  simp

theorem Walk.Kept.not_inTrip (h : w.Kept P fs) (hfresh : f.execId ∉ fs.map (·.execId)) (j : Nat) :
    ¬ InTrip w.moves j f.execId := by
  rintro ⟨part, hpart, m, hm, hid⟩
  have hmem : m ∈ w.moves := by
    rw [← tripMoves_flatten w.moves]
    exact List.mem_flatten.mpr ⟨part, List.mem_of_getElem? hpart, hm⟩
  exact hfresh (hid ▸ List.mem_map_of_mem (h.own m hmem).1)

/-- **One more fill.** -/
theorem Walk.Kept.fill (h : w.Kept P fs) (hf : f.Valid) (hfresh : f.execId ∉ fs.map (·.execId)) :
    ∃ w', (∀ fuel, w.spend P f (fuel + 3) f.signed = some w') ∧ w'.Kept P (fs ++ [f]) ∧ w.trips <+: w'.trips := by
  obtain ⟨w', new, hspend, hbooked, hposition, hnew, htrips⟩ := fill_step h.booked hf
  refine ⟨w', hspend, ⟨hbooked, ?_, ?_, ?_, ?_, ?_⟩, htrips⟩
  · rw [hposition, h.position]
    simp
  · intro m hm
    rw [hnew.moves] at hm
    rcases List.mem_append.mp hm with hm | hm
    · exact ⟨List.mem_append_left _ (h.own m hm).1, (h.own m hm).2⟩
    · have hof := hnew.own m hm
      rw [hof.fill]
      exact ⟨List.mem_append_right _ List.mem_cons_self, hof⟩
  · -- the moves of an earlier fill are the old ones, those of this fill the new ones
    intro g hg
    rw [hnew.moves, List.filter_append, List.map_append, List.sum_append]
    rcases List.mem_append.mp hg with hg | hg
    · have hother : new.filter (fun m => m.piece.execId = g.execId) = [] := by
        refine List.filter_eq_nil_iff.mpr fun m hm heq => ?_
        have heq : m.piece.execId = g.execId := of_decide_eq_true heq
        exact hfresh ((hnew.own m hm).execId ▸ heq ▸ List.mem_map_of_mem hg)
      rw [hother, h.sizes g hg]
      simp
    · obtain rfl := List.mem_singleton.mp hg
      have hold : w.moves.filter (fun m => m.piece.execId = g.execId) = [] := by
        refine List.filter_eq_nil_iff.mpr fun m hm heq => ?_
        have heq : m.piece.execId = g.execId := of_decide_eq_true heq
        obtain ⟨hmem, hof⟩ := h.own m hm
        exact hfresh (heq ▸ hof.execId ▸ List.mem_map_of_mem hmem)
      have hall : new.filter (fun m => m.piece.execId = g.execId) = new :=
        List.filter_eq_self.mpr fun m hm => decide_eq_true (hnew.own m hm).execId
      rw [hold, hall, hnew.sizes]
      simp
  · rw [hnew.moves, List.filter_append, List.map_append, List.nodup_append]
    refine ⟨h.openings, ?_, ?_⟩
    · rcases hnew.shape with ⟨m, rfl, -⟩ | ⟨m, m', rfl, -, hexit, -⟩
      · exact ((List.filter_sublist (l := [m])).map _).nodup (List.nodup_singleton _)
      · rw [List.filter_cons_of_neg (by simp [hexit])]
        exact ((List.filter_sublist (l := [m'])).map _).nodup (List.nodup_singleton _)
    · rintro x hx y hy rfl
      obtain ⟨m, hm, rfl⟩ := List.mem_map.mp hx
      obtain ⟨m', hm', heq⟩ := List.mem_map.mp hy
      rw [(hnew.own m' (List.mem_of_mem_filter hm')).fill] at heq
      exact hfresh (heq ▸ List.mem_map_of_mem (h.own m (List.mem_of_mem_filter hm)).1)
  · intro g hg
    rcases List.mem_append.mp hg with hg | hg
    · -- an earlier fill stays where it is
      obtain ⟨i, hi⟩ := h.once g hg
      have hne : f.execId ≠ g.execId := fun heq => hfresh (heq ▸ List.mem_map_of_mem hg)
      refine ⟨i, fun j => ?_⟩
      have hcrosses : CrossesZero (fs ++ [f]) g ↔ CrossesZero fs g := by
        unfold CrossesZero
        rw [positionBefore_old hg]
      rw [hcrosses, ← hi j, hnew.moves]
      rcases hnew.shape with ⟨m, rfl, -⟩ | ⟨m, m', rfl, -, -, -⟩
      · rw [inTrip_concat, (hnew.own m List.mem_cons_self).fill]
        exact or_iff_left fun hor => hne hor.2
      · rw [show w.moves ++ [m, m'] = (w.moves ++ [m]) ++ [m'] by simp, inTrip_concat, inTrip_concat,
          (hnew.own m List.mem_cons_self).fill, (hnew.own m' (List.mem_cons_of_mem _ List.mem_cons_self)).fill, or_assoc]
        exact or_iff_left fun hor => hor.elim (fun h => hne h.2) fun h => hne h.2
    · obtain rfl := List.mem_singleton.mp hg
      refine ⟨(splitTrips w.moves).1.length, fun j => ?_⟩
      have hbefore := positionBefore_new hfresh
      unfold CrossesZero
      rw [hbefore, ← h.position, ← hposition, hnew.moves]
      rcases hnew.shape with ⟨m, rfl, hsame⟩ | ⟨m, m', rfl, hcloses, -, hcross⟩
      · rw [inTrip_concat, or_iff_right (h.not_inTrip hfresh j), (hnew.own m List.mem_cons_self).fill]
        exact ⟨fun hj => .inl hj.1, fun hj => ⟨hj.resolve_right fun hc => absurd hc.1 hsame.not_gt, rfl⟩⟩
      · have hlength : (splitTrips (w.moves ++ [m])).1.length = (splitTrips w.moves).1.length + 1 := by
          rw [splitTrips_concat, splitTrip, if_pos hcloses, List.length_append, List.length_singleton]
        rw [show w.moves ++ [m, m'] = (w.moves ++ [m]) ++ [m'] by simp, inTrip_concat, inTrip_concat,
          or_iff_right (h.not_inTrip hfresh j), (hnew.own m List.mem_cons_self).fill,
          (hnew.own m' (List.mem_cons_of_mem _ List.mem_cons_self)).fill, hlength]
        exact ⟨fun hj => hj.imp And.left fun hj => ⟨hcross, hj.1⟩, fun hj => hj.imp (fun hj => ⟨hj, rfl⟩) fun hj => ⟨hj.2, rfl⟩⟩

/-- **Any number of fills.** -/
theorem Walk.Kept.fills (h : w.Kept P fs) (more : List FillFact) (hvalid : ValidFills (fs ++ more)) :
    ∃ w', (∀ fuel, w.fills P (fuel + 3) more = some w') ∧ w'.Kept P (fs ++ more) ∧ w.trips <+: w'.trips := by
  induction more generalizing fs w with
  | nil => exact ⟨w, fun _ => rfl, by rw [List.append_nil]; exact h, List.prefix_refl _⟩
  | cons f more ih =>
    have hfresh : f.execId ∉ fs.map (·.execId) := by
      have hnodup := hvalid.distinct
      rw [List.map_append, List.map_cons, List.nodup_append] at hnodup
      exact fun hmem => hnodup.2.2 _ hmem _ List.mem_cons_self rfl
    obtain ⟨w', hspend, hkept, htrips⟩ := h.fill (hvalid.valid f (List.mem_append_right _ List.mem_cons_self)) hfresh
    have hassoc : fs ++ [f] ++ more = fs ++ f :: more := by simp
    obtain ⟨w'', hfills, hkept', htrips'⟩ := ih hkept (hassoc.symm ▸ hvalid)
    refine ⟨w'', fun fuel => ?_, hassoc ▸ hkept', htrips.trans htrips'⟩
    rw [Walk.fills, hspend]
    exact hfills fuel

end MmrTrader.Scoreboard
