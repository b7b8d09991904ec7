import MmrTrader.Simulation.TimeExits
import MmrTrader.Simulation.UpTo

/-!
# Fills at the next open

Without live rules, a signal that is queued at a bar waits for the next bar of its conid.

* `LastSeen` — the last bar of a conid; `accumulated_last`.
-/

namespace MmrTrader.Simulation

open Lib

variable {X S R : Type} {cfg : Config X R}

/-! ## The last bar of a conid -/

/-- The last moment of `gs` with a bar of the conid is `g`. -/
def LastSeen (gs : List (Group X)) (conid : Int) (g : Group X) (rows : Rows X) : Prop :=
  ∃ before between, gs = before ++ g :: between ∧ g.rows? conid = some rows ∧ ∀ g' ∈ between, g'.rows? conid = none

variable {rows : Rows X}
variable {conid : Int}

theorem LastSeen.append {gs : List (Group X)} {g g' : Group X} (h : LastSeen gs conid g rows)
    (hnone : g'.rows? conid = none) : LastSeen (gs ++ [g']) conid g rows := by
  obtain ⟨before, between, rfl, hrows, hbetween⟩ := h
  refine ⟨before, between ++ [g'], by simp, hrows, fun g'' hg'' => ?_⟩
  rcases List.mem_append.mp hg'' with hg'' | hg''
  · exact hbetween g'' hg''
  · rw [List.mem_singleton.mp hg'', hnone]

theorem LastSeen.now (gs : List (Group X)) {g : Group X} (hrows : g.rows? conid = some rows) :
    LastSeen (gs ++ [g]) conid g rows := ⟨gs, [], rfl, hrows, by simp⟩

theorem accumulated_run (cfg : Config X R) (strategy : Strategy X S) (data : Data X) (gs : List (Group X)) (c : Int) :
    (runGroups cfg strategy data gs).accumulated c = (gs.filterMap fun g => g.rows? c).flatMap Rows.toList := by
  induction gs using List.reverseRecOn with
  | nil => rfl
  | append_singleton gs g ih =>
    obtain ⟨before, after, hbefore, hafter, hbar⟩ := bar_market cfg strategy data (runGroups cfg strategy data gs) g
    have haccumulated : ((runGroups cfg strategy data gs).bar cfg strategy data g).accumulated = after.accumulated := by
      rw [hbar]
      split_ifs <;> rfl
    rw [runGroups_append, haccumulated, hafter.accumulated, (accumulate_conid g before c).2.1, hbefore.accumulated, ih,
      List.filterMap_append, List.flatMap_append]
    cases hrows : g.rows? c <;> simp [hrows]

variable {c : Int}

theorem accumulated_last (cfg : Config X R) (strategy : Strategy X S) (data : Data X) {gs : List (Group X)}
    {g : Group X} (h : LastSeen gs c g rows) (other : Bar X) :
    ((runGroups cfg strategy data gs).accumulated c).getLastD other = rows.last := by
  obtain ⟨before, between, rfl, hrows, hbetween⟩ := h
  have hnone : between.filterMap (fun g => g.rows? c) = [] := List.filterMap_eq_nil_iff.mpr hbetween
  have hseen : (g :: between).filterMap (fun g => g.rows? c) = [rows] := by
    rw [List.filterMap_cons]
    simp [hrows, hnone]
  rw [accumulated_run, List.filterMap_append, hseen, List.flatMap_append]
  simp [Rows.toList, Rows.last, List.getLast?_cons]

/-! ## The queue and the fills -/

/-- The signal was decided at the last bar of its conid, and not in the warm-up. -/
def Queued (cfg : Config X R) (gs : List (Group X)) (p : Pending) : Prop :=
  ∃ g rows, LastSeen gs p.conid g rows ∧ g.time = p.decidedAt ∧ cfg.warming g.time = false

/-- The fill stands at the open of `g'`, the next bar of its conid after the one that it was decided at; its costs are computed
from that earlier bar. -/
structure FilledAt (cfg : Config X R) (f : Fill X) (rows : Rows X) (g' : Group X) (rows' : Rows X) : Prop where
  opened : g'.rows? f.trade.conid = some rows'
  timestamp : f.trade.timestamp = g'.time
  basis : f.basis = rows'.first.openPrice
  reference : f.reference = rows.last
  charged : cfg.costs.Charged f.trade.conid f.basis f.trade.action f.reference f.trade.quantity f.trade.price f.trade.commission

def FilledNext (cfg : Config X R) (gs : List (Group X)) (f : Fill X) : Prop :=
  ∃ before g' after, gs = before ++ g' :: after ∧ ∃ g rows rows', LastSeen before f.trade.conid g rows ∧
    g.time = f.decidedAt ∧ cfg.warming g.time = false ∧ FilledAt cfg f rows g' rows'

variable {f : Fill X}

theorem FilledNext.append {gs : List (Group X)} (h : FilledNext cfg gs f) (g : Group X) : FilledNext cfg (gs ++ [g]) f := by
  obtain ⟨before, g', after, rfl, h⟩ := h
  exact ⟨before, g', after ++ [g], by simp, h⟩

theorem fills_execute (market : Market R) (a : Account X) (signal : Signal) (conid decidedAt barTime : Int) (reference : Bar X)
    (basis : ℚ) (hf : f ∈ (executeSignal cfg market a signal conid decidedAt barTime reference basis).fills) :
    f ∈ a.fills ∨ f.trade.conid = conid ∧ f.trade.timestamp = barTime ∧ f.decidedAt = decidedAt ∧ f.basis = basis ∧
      f.reference = reference ∧
      cfg.costs.Charged conid basis f.trade.action reference f.trade.quantity f.trade.price f.trade.commission := by
  have hcases := executed cfg market a signal conid decidedAt barTime reference basis
  generalize executeSignal cfg market a signal conid decidedAt barTime reference basis = a' at hcases hf
  cases hcases with
  | skipped blocks => exact .inl hf
  | bought quantity price commission haction hpos hcost hcharged =>
    rcases List.mem_append.mp hf with hf | hf
    · exact .inl hf
    · rw [List.mem_singleton.mp hf]
      exact .inr ⟨rfl, rfl, rfl, rfl, rfl, hcharged⟩
  | sold quantity price commission haction hpos hheld hcharged =>
    rcases List.mem_append.mp hf with hf | hf
    · rw [fills_sell] at hf
      exact .inl hf
    · rw [List.mem_singleton.mp hf]
      exact .inr ⟨rfl, rfl, rfl, rfl, rfl, hcharged⟩
  | neutral quantity price commission haction hpos hcharged =>
    rcases List.mem_append.mp hf with hf | hf
    · exact .inl hf
    · rw [List.mem_singleton.mp hf]
      exact .inr ⟨rfl, rfl, rfl, rfl, rfl, hcharged⟩

/-- The queue and the fills of a run over `gs`. -/
structure NextOpen (cfg : Config X R) (gs : List (Group X)) (l : Loop X S R) : Prop where
  pending : ∀ p ∈ l.pending, Queued cfg gs p
  fills : ∀ f ∈ l.account.fills, FilledNext cfg gs f

variable {gs : List (Group X)} {l : Loop X S R} {g : Group X}

/-- Part 1: `last` is the last bar of each conid before `g`. -/
theorem fillAll_fills (queue : List Pending) (hqueue : ∀ p ∈ queue, Queued cfg gs p)
    (hlast : ∀ c g' rows, LastSeen gs c g' rows → ∀ other, (l.accumulated c).getLastD other = rows.last)
    (hfills : ∀ f ∈ l.account.fills, FilledNext cfg (gs ++ [g]) f) :
    ∀ f ∈ (queue.foldl (Loop.fillOne cfg g) l).account.fills, FilledNext cfg (gs ++ [g]) f := by
  induction queue generalizing l with
  | nil => exact hfills
  | cons p queue ih =>
    obtain ⟨g₀, rows, hseen, htime, hlive⟩ := hqueue p List.mem_cons_self
    refine ih (fun p' hp' => hqueue p' (List.mem_cons_of_mem _ hp')) ?_ ?_
    · intro c g' rows' hseen' other
      have hmarket := (fillAll_frame cfg g [p] l).1
      rw [List.foldl_cons, List.foldl_nil] at hmarket
      rw [hmarket.accumulated]
      exact hlast c g' rows' hseen' other
    · intro f hf
      unfold Loop.fillOne at hf
      split at hf
      · exact hfills f hf
      · rename_i rows' hrows'
        rcases fills_execute _ _ _ _ _ _ _ _ hf with hf | ⟨hconid, hstamp, hdecided, hbasis, hreference, hcharged⟩
        · exact hfills f hf
        · refine ⟨gs, g, [], rfl, g₀, rows, rows', ?_, htime.trans hdecided.symm, hlive, ?_⟩
          · rw [hconid]
            exact hseen
          · exact ⟨by rw [hconid]; exact hrows', hstamp, hbasis, by rw [hreference]; exact hlast _ _ _ hseen _,
              by rw [hconid, hbasis, hreference]; exact hcharged⟩

theorem NextOpen.take (h : NextOpen cfg (gs ++ [g]) l) (hpolicy : cfg.fillPolicy ≠ "same_close")
    (hlive : cfg.warming g.time = false) (hrows : g.rows? c = some rows) (signal : Signal) :
    NextOpen cfg (gs ++ [g]) (l.take cfg g signal c rows) := by
  rw [take_queued hpolicy]
  refine ⟨fun p hp => ?_, h.fills⟩
  rcases List.mem_append.mp hp with hp | hp
  · exact h.pending p hp
  · rw [List.mem_singleton.mp hp]
    exact ⟨g, rows, .now gs hrows, rfl, hlive⟩

theorem NextOpen.fillPending (h : NextOpen cfg gs l) (hpolicy : cfg.fillPolicy = "next_open") (g : Group X)
    (hlast : ∀ c g' rows, LastSeen gs c g' rows → ∀ other, (l.accumulated c).getLastD other = rows.last) :
    NextOpen cfg (gs ++ [g]) (l.fillPending cfg g) := by
  have hpending := (fillPending_frame cfg g l).2.2
  rw [if_pos hpolicy] at hpending
  refine ⟨fun p hp => ?_, ?_⟩
  · rw [hpending] at hp
    obtain ⟨hp, hnone⟩ := List.mem_filter.mp hp
    obtain ⟨g', rows, hseen, htime, hlive⟩ := h.pending p hp
    exact ⟨g', rows, hseen.append (of_decide_eq_true hnone), htime, hlive⟩
  · unfold Loop.fillPending
    rw [if_pos hpolicy]
    exact fillAll_fills (l := { l with pending := [] }) l.pending h.pending hlast fun f hf => (h.fills f hf).append g

theorem NextOpen.bar (h : NextOpen cfg gs l) (hrules : cfg.liveRules = none) (hpolicy : cfg.fillPolicy = "next_open")
    (strategy : Strategy X S) (data : Data X) (hlive : cfg.warming g.time = false)
    (hlast : ∀ c g' rows, LastSeen gs c g' rows → ∀ other, (l.accumulated c).getLastD other = rows.last) :
    NextOpen cfg (gs ++ [g]) (l.bar cfg strategy data g) := by
  have hopen : cfg.fillPolicy ≠ "same_close" := by
    rw [hpolicy]
    decide
  have hflatten : l.flatten cfg g = l := by simp [Loop.flatten, hrules]
  have hfilled := h.fillPending hpolicy g hlast
  unfold Loop.bar
  rw [if_neg (by simp [hlive]), hflatten]
  generalize l.fillPending cfg g = filled at hfilled
  obtain ⟨haccount, hqueue, _⟩ := accumulate_frame g filled
  have haccumulated : NextOpen cfg (gs ++ [g]) (filled.accumulate g) :=
    ⟨hqueue.symm ▸ hfilled.pending, haccount.symm ▸ hfilled.fills⟩
  have hchecked : NextOpen cfg (gs ++ [g]) ((filled.accumulate g).checkExits cfg g) := by
    refine List.foldlRecOn (motive := NextOpen cfg (gs ++ [g])) _ _ haccumulated fun l' h c _ => ?_
    have hcases := checked cfg g l' c
    generalize l'.checkExit cfg g c = l'' at hcases ⊢
    cases hcases with
    | quiet conditions => exact ⟨h.pending, h.fills⟩
    | exit conditions rows reason hrows hheld =>
      apply NextOpen.take _ hopen hlive hrows
      exact ⟨h.pending, h.fills⟩
  have hrun : NextOpen cfg (gs ++ [g]) (((filled.accumulate g).checkExits cfg g).runStrategy cfg strategy data false g) := by
    refine List.foldlRecOn (motive := NextOpen cfg (gs ++ [g])) g.bars.rows _ hchecked fun l' h bar hbar => ?_
    have hcases := ran cfg strategy data false g l' bar
    generalize l'.runOne cfg strategy data false g bar = l'' at hcases ⊢
    cases hcases with
    | quiet calls dropped => exact ⟨h.pending, h.fills⟩
    | signal calls name body _ =>
      apply NextOpen.take _ hopen hlive (Group.rows?_eq_some.mpr hbar)
      exact ⟨h.pending, h.fills⟩
  exact ⟨hrun.pending, hrun.fills⟩

theorem warming_bar (hidle : Idle l) (hwarming : cfg.warming g.time = true) (strategy : Strategy X S) (data : Data X) :
    (l.bar cfg strategy data g).pending = l.pending ∧ (l.bar cfg strategy data g).account.fills = l.account.fills := by
  have haccumulated : Idle (l.accumulate g) ∧ (l.accumulate g).pending = l.pending ∧
      (l.accumulate g).account.fills = l.account.fills := by
    obtain ⟨haccount, hpending, htriggered⟩ := accumulate_frame g l
    rw [haccount]
    exact ⟨⟨haccount.symm ▸ hidle.positions, htriggered.trans hidle.triggered, hpending.symm ▸ hidle.none⟩, hpending, rfl⟩
  have hchecked : Idle ((l.accumulate g).checkExits cfg g) ∧ ((l.accumulate g).checkExits cfg g).pending = l.pending ∧
      ((l.accumulate g).checkExits cfg g).account.fills = l.account.fills := by
    refine List.foldlRecOn (motive := fun l' : Loop X S R => Idle l' ∧ l'.pending = l.pending ∧
      l'.account.fills = l.account.fills) _ _ haccumulated fun l' h c _ => ?_
    have hcases := checked cfg g l' c
    generalize l'.checkExit cfg g c = l'' at hcases ⊢
    cases hcases with
    | quiet conditions => exact ⟨⟨h.1.positions, h.1.triggered, h.1.none⟩, h.2⟩
    | exit conditions rows reason hrows hheld => exact absurd (h.1.held c) hheld.ne'
  unfold Loop.bar
  rw [if_pos hwarming]
  refine List.foldlRecOn (motive := fun l' : Loop X S R => l'.pending = l.pending ∧ l'.account.fills = l.account.fills)
    g.bars.rows _ hchecked.2 fun l' h bar _ => ?_
  have hcases := ran cfg strategy data true g l' bar
  generalize l'.runOne cfg strategy data true g bar = l'' at hcases ⊢
  cases hcases with
  | quiet calls dropped => exact h
  | signal calls name body hlive => cases hlive

theorem warming_run (cfg : Config X R) (strategy : Strategy X S) (data : Data X) (hall : ∀ g ∈ gs, cfg.warming g.time = true) :
    (runGroups cfg strategy data gs).pending = [] ∧ (runGroups cfg strategy data gs).account.fills = [] := by
  induction gs using List.reverseRecOn with
  | nil => exact ⟨rfl, rfl⟩
  | append_singleton gs g ih =>
    have hbefore : ∀ g' ∈ gs, cfg.warming g'.time = true := fun g' hg' => hall g' (List.mem_append_left _ hg')
    obtain ⟨hpending, hfills⟩ := warming_bar (idle_run cfg strategy data hbefore) (hall g (by simp)) strategy data
    rw [runGroups_append, hpending, hfills]
    exact ih hbefore

theorem nextOpen_run (hrules : cfg.liveRules = none) (hpolicy : cfg.fillPolicy = "next_open") (strategy : Strategy X S)
    (data : Data X) (hsorted : gs.Pairwise fun g g' => g.time < g'.time) :
    NextOpen cfg gs (runGroups cfg strategy data gs) := by
  induction gs using List.reverseRecOn with
  | nil => exact ⟨by simp [runGroups, Loop.start], by simp [runGroups, Loop.start]⟩
  | append_singleton gs g ih =>
    cases hwarming : cfg.warming g.time with
    | true =>
      obtain ⟨hpending, hfills⟩ := warming_run cfg strategy data (warming_all hsorted hwarming)
      exact ⟨by simp [hpending], by simp [hfills]⟩
    | false =>
      rw [runGroups_append]
      exact (ih (List.pairwise_append.mp hsorted).1).bar hrules hpolicy strategy data hwarming
        fun c g' rows hseen other => accumulated_last cfg strategy data hseen other

end MmrTrader.Simulation

/-!
## A backtest does not look ahead

* `no_lookahead` — what a run records up to a time is a function of the bars up to that time, and each fill stands at the open of
  the next bar of its conid.
* `event_waits_for_fill` — the event of a signal is recorded with its fill, under the time of its decision.
-/

namespace MmrTrader.Simulation

open Lib

variable {X S R : Type}

/-- **A backtest at the next open does not look ahead.** -/
theorem no_lookahead {cfg : Config X R} (hrules : cfg.liveRules = none) (hpolicy : cfg.fillPolicy = "next_open")
    (strategy : Strategy X Unit) {data data' : Data X} (hs : data.Sorted) (hs' : data'.Sorted) {t : Int}
    (h : SameUpTo t data data') :
    ((run cfg strategy data).account.trades.filter fun trade => trade.timestamp ≤ t) =
        ((run cfg strategy data').account.trades.filter fun trade => trade.timestamp ≤ t) ∧
      ((run cfg strategy data).equity.filter fun point => point.1 ≤ t) =
        ((run cfg strategy data').equity.filter fun point => point.1 ≤ t) ∧
      (upTo cfg strategy data t).account.signals = (upTo cfg strategy data' t).account.signals ∧
      (upTo cfg strategy data t).account.signals <+: (run cfg strategy data).account.signals ∧
      ∀ f ∈ (run cfg strategy data).account.fills, FilledNext cfg (timeline data) f := by
  obtain ⟨htrades, hequity, hsignals⟩ := recorded_upTo cfg strategy data t
  obtain ⟨htrades', hequity', _⟩ := recorded_upTo cfg strategy data' t
  have hsame := upTo_congr cfg strategy h hs hs'
  refine ⟨?_, ?_, ?_, hsignals, ?_⟩
  · rw [htrades, htrades', hsame]
  · rw [hequity, hequity', hsame]
  · rw [hsame]
  · exact (nextOpen_run hrules hpolicy strategy data (timeline_sorted data)).fills

/-! ## The first bars -/

/-- Another fifth bar, and a second instrument. -/
def otherEnd : Data Unit :=
  ⟨[(9, [⟨4, 20, 21, ()⟩]), (7, [⟨0, 10, 11, ()⟩, ⟨1, 12, 12, ()⟩, ⟨2, 13, 14, ()⟩, ⟨3, 15, 15, ()⟩, ⟨4, 9, 8, ()⟩])], by simp⟩

def firstBar : Data Unit := ⟨[(7, [⟨0, 10, 11, ()⟩])], by simp⟩

theorem fiveBars_sorted : fiveBars.Sorted := by
  simp [Data.Sorted, fiveBars]

theorem otherEnd_sorted : otherEnd.Sorted := by
  simp [Data.Sorted, otherEnd]

theorem firstBar_sorted : firstBar.Sorted := by
  simp [Data.Sorted, firstBar]

theorem otherEnd_same : SameUpTo 3 fiveBars otherEnd := by
  intro conid
  by_cases h7 : 7 = conid
  · subst h7
    decide +kernel
  · by_cases h9 : 9 = conid
    · subst h9
      decide +kernel
    · simp [Data.frame, Table.get?, fiveBars, otherEnd, h7, h9]

theorem firstBar_same : SameUpTo 0 firstBar fiveBars := by
  intro conid
  by_cases h7 : 7 = conid
  · subst h7
    decide +kernel
  · simp [Data.frame, Table.get?, fiveBars, firstBar, h7]

theorem round_trip_with_another_end :
    ((run dollarFee holdTwoBars fiveBars).account.trades.filter fun trade => trade.timestamp ≤ 3) =
        ((run dollarFee holdTwoBars otherEnd).account.trades.filter fun trade => trade.timestamp ≤ 3) ∧
      ((run dollarFee holdTwoBars fiveBars).account.trades.filter fun trade => trade.timestamp ≤ 3).length = 2 :=
  ⟨(no_lookahead rfl rfl holdTwoBars fiveBars_sorted otherEnd_sorted otherEnd_same).1, by decide +kernel⟩

/-- The signal of the first bar is on record only when a second bar has filled it. -/
theorem event_waits_for_fill :
    dollarFee.liveRules.isNone ∧ dollarFee.fillPolicy = "next_open" ∧
      ¬ ∀ data data' : Data Unit, data.Sorted → data'.Sorted → SameUpTo 0 data data' →
        ((run dollarFee holdTwoBars data).account.signals.filter fun event => event.timestamp ≤ 0) =
          (run dollarFee holdTwoBars data').account.signals.filter fun event => event.timestamp ≤ 0 := by
  refine ⟨rfl, rfl, fun h => ?_⟩
  have hsame := h firstBar fiveBars firstBar_sorted fiveBars_sorted firstBar_same
  have hnone : ((run dollarFee holdTwoBars firstBar).account.signals.filter fun event => event.timestamp ≤ 0).length = 0 := by
    decide +kernel
  have hone : ((run dollarFee holdTwoBars fiveBars).account.signals.filter fun event => event.timestamp ≤ 0).length = 1 := by
    decide +kernel
  rw [hsame, hone] at hnone
  cases hnone

end MmrTrader.Simulation
