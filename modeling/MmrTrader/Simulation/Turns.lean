import Mathlib.Data.List.Induction
import MmrTrader.Simulation.BookLaws

/-!
# The parts of a turn

What each part of a turn does to the queue, the exits and the market, and what it leaves alone.

* `SameMarket` — only part 2 changes what is known of the market, and only part 4 the equity.
* `flatten_frame`, `fillPending_frame`, `take_frame` — the queue.
* `Checked`, `Ran` — all that part 2b can do about a conid, and part 3 about a bar.
-/

namespace MmrTrader.Simulation

open Lib

variable {X S R : Type} (cfg : Config X R)

/-! ## What a part of a turn leaves alone -/

/-- The market as the signals see it, and what is written down of it, have not changed. -/
structure SameMarket (l l' : Loop X S R) : Prop where
  lastPrices : l'.lastPrices = l.lastPrices
  accumulated : l'.accumulated = l.accumulated
  barIndex : l'.barIndex = l.barIndex
  equity : l'.equity = l.equity

variable {l l' : Loop X S R}

theorem SameMarket.refl (l : Loop X S R) : SameMarket l l := ⟨rfl, rfl, rfl, rfl⟩

theorem SameMarket.trans {l'' : Loop X S R} (h : SameMarket l l') (h' : SameMarket l' l'') : SameMarket l l'' :=
  ⟨h'.lastPrices.trans h.lastPrices, h'.accumulated.trans h.accumulated, h'.barIndex.trans h.barIndex, h'.equity.trans h.equity⟩

theorem flattenOne_frame (g : Group X) (l : Loop X S R) (conid : Int) :
    SameMarket l (l.flattenOne cfg g conid) ∧ (l.flattenOne cfg g conid).pending = l.pending ∧
      (l.flattenOne cfg g conid).triggered = l.triggered := by
  unfold Loop.flattenOne
  split
  · exact ⟨.refl l, rfl, rfl⟩
  · split_ifs
    · exact ⟨.refl l, rfl, rfl⟩
    · exact ⟨⟨rfl, rfl, rfl, rfl⟩, rfl, rfl⟩

/-- Part 0 removes no `SELL` from the queue. -/
theorem flatten_frame (g : Group X) (l : Loop X S R) :
    SameMarket l (l.flatten cfg g) ∧ (l.flatten cfg g).triggered = l.triggered ∧
      ((l.flatten cfg g).pending = l.pending ∨ (l.flatten cfg g).pending = l.pending.filter fun p => p.signal.action ≠ .BUY) := by
  have hfold : ∀ (conids : List Int) (l : Loop X S R), SameMarket l (conids.foldl (Loop.flattenOne cfg g) l) ∧
      (conids.foldl (Loop.flattenOne cfg g) l).pending = l.pending ∧
      (conids.foldl (Loop.flattenOne cfg g) l).triggered = l.triggered := fun conids l =>
    List.foldlRecOn (motive := fun l' : Loop X S R => SameMarket l l' ∧ l'.pending = l.pending ∧ l'.triggered = l.triggered)
      conids _ ⟨.refl l, rfl, rfl⟩ fun l' h conid _ =>
        let frame := flattenOne_frame cfg g l' conid
        ⟨h.1.trans frame.1, frame.2.1.trans h.2.1, frame.2.2.trans h.2.2⟩
  unfold Loop.flatten
  split
  · simp only
    split_ifs
    · obtain ⟨hmarket, hpending, htriggered⟩ := hfold (l.account.positions.rows.map Prod.fst) { l with rules := some _ }
      exact ⟨⟨hmarket.lastPrices, hmarket.accumulated, hmarket.barIndex, hmarket.equity⟩, htriggered, .inr (by rw [hpending])⟩
    · exact ⟨⟨rfl, rfl, rfl, rfl⟩, rfl, .inl rfl⟩
  · exact ⟨.refl l, rfl, .inl rfl⟩

theorem fillAll_frame (g : Group X) (queue : List Pending) (l : Loop X S R) :
    SameMarket l (queue.foldl (Loop.fillOne cfg g) l) ∧ (queue.foldl (Loop.fillOne cfg g) l).triggered = l.triggered ∧
      (queue.foldl (Loop.fillOne cfg g) l).pending = l.pending ++ queue.filter fun p => g.rows? p.conid = none := by
  induction queue generalizing l with
  | nil => exact ⟨.refl l, rfl, by simp⟩
  | cons p queue ih =>
    obtain ⟨hmarket, htriggered, hpending⟩ := ih (l.fillOne cfg g p)
    rw [List.foldl_cons]
    cases hrows : g.rows? p.conid with
    | none =>
      have hwait : l.fillOne cfg g p = { l with pending := l.pending ++ [p] } := by simp [Loop.fillOne, hrows]
      rw [hwait] at hmarket htriggered hpending ⊢
      exact ⟨⟨hmarket.lastPrices, hmarket.accumulated, hmarket.barIndex, hmarket.equity⟩, htriggered, by simp [hpending, hrows]⟩
    | some rows =>
      have hfill : (l.fillOne cfg g p).pending = l.pending ∧ (l.fillOne cfg g p).triggered = l.triggered ∧
          SameMarket l (l.fillOne cfg g p) := by
        unfold Loop.fillOne
        rw [hrows]
        exact ⟨rfl, rfl, rfl, rfl, rfl, rfl⟩
      exact ⟨hfill.2.2.trans hmarket, htriggered.trans hfill.2.1, by simp [hpending, hfill.1, hrows]⟩

theorem fillPending_frame (g : Group X) (l : Loop X S R) :
    SameMarket l (l.fillPending cfg g) ∧ (l.fillPending cfg g).triggered = l.triggered ∧
      (l.fillPending cfg g).pending =
        if cfg.fillPolicy = "next_open" then l.pending.filter fun p => g.rows? p.conid = none else l.pending := by
  unfold Loop.fillPending
  split_ifs
  · obtain ⟨hmarket, htriggered, hpending⟩ := fillAll_frame cfg g l.pending { l with pending := [] }
    exact ⟨⟨hmarket.lastPrices, hmarket.accumulated, hmarket.barIndex, hmarket.equity⟩, htriggered, by simpa using hpending⟩
  · exact ⟨.refl l, rfl, rfl⟩

theorem take_frame (g : Group X) (l : Loop X S R) (signal : Signal) (conid : Int) (rows : Rows X) :
    SameMarket l (l.take cfg g signal conid rows) ∧ (l.take cfg g signal conid rows).triggered = l.triggered ∧
      (l.take cfg g signal conid rows).pending =
        if cfg.fillPolicy = "same_close" then l.pending else l.pending ++ [⟨signal, conid, g.time⟩] := by
  unfold Loop.take
  split_ifs
  · exact ⟨⟨rfl, rfl, rfl, rfl⟩, rfl, rfl⟩
  · exact ⟨⟨rfl, rfl, rfl, rfl⟩, rfl, rfl⟩

theorem take_queued {cfg : Config X R} (hpolicy : cfg.fillPolicy ≠ "same_close") (g : Group X) (l : Loop X S R)
    (signal : Signal) (conid : Int) (rows : Rows X) : l.take cfg g signal conid rows = { l with pending := l.pending ++ [⟨signal, conid, g.time⟩] } :=
  if_neg hpolicy

/-- All that part 2b can do about a conid. -/
inductive Checked (cfg : Config X R) (g : Group X) (l : Loop X S R) (conid : Int) : Loop X S R → Prop where
  | quiet (conditions : Table ExitCondition.conid) :
      Checked cfg g l conid { l with account := { l.account with exitConditions := conditions } }
  | exit (conditions : Table ExitCondition.conid) (rows : Rows X) (reason : ExitReason) (hrows : g.rows? conid = some rows)
      (hheld : 0 < l.account.held conid) :
      Checked cfg g l conid
        (Loop.take cfg g
          { l with
            account := { l.account with exitConditions := conditions }
            triggered := l.triggered ++ [⟨g.time, conid, l.account.trades.length⟩] }
          (exitSignal reason (l.account.held conid)) conid rows)

theorem checked (g : Group X) (l : Loop X S R) (conid : Int) : Checked cfg g l conid (l.checkExit cfg g conid) := by
  unfold Loop.checkExit
  split
  · exact .quiet l.account.exitConditions
  · split_ifs with hheld
    · exact .quiet _
    · exact .quiet l.account.exitConditions
    · split
      · exact .quiet l.account.exitConditions
      · rename_i hrows
        split
        · exact .quiet l.account.exitConditions
        · exact .exit _ _ _ hrows (not_le.mp hheld)

/-- All that part 3 can do about a bar. -/
inductive Ran (cfg : Config X R) (warming : Bool) (g : Group X) (l : Loop X S R) (bar : Int × Rows X) : Loop X S R → Prop where
  | quiet (calls : List (List (Bar X) × S)) (dropped : Nat) :
      Ran cfg warming g l bar { l with calls := calls, warmupSignalsDropped := dropped }
  | signal (calls : List (List (Bar X) × S)) (name : String) (body : SignalBody) (hlive : warming = false) :
      Ran cfg warming g l bar (Loop.take cfg g { l with calls := calls } { body with source := .strategy name } bar.1 bar.2)

theorem ran (strategy : Strategy X S) (data : Data X) (warming : Bool) (g : Group X) (l : Loop X S R) (bar : Int × Rows X) :
    Ran cfg warming g l bar (l.runOne cfg strategy data warming g bar) := by
  unfold Loop.runOne
  simp only
  split
  · exact .quiet _ l.warmupSignalsDropped
  · split_ifs with hwarming
    · exact .quiet _ _
    · exact .signal _ _ _ (by simpa using hwarming)

theorem checkExit_market (g : Group X) (l : Loop X S R) (conid : Int) : SameMarket l (l.checkExit cfg g conid) := by
  have hcases := checked cfg g l conid
  generalize l.checkExit cfg g conid = l' at hcases ⊢
  cases hcases with
  | quiet conditions => exact ⟨rfl, rfl, rfl, rfl⟩
  | exit conditions rows reason hrows hheld =>
    have hmarket := (take_frame cfg g { l with
      account := { l.account with exitConditions := conditions }
      triggered := l.triggered ++ [⟨g.time, conid, l.account.trades.length⟩] }
      (exitSignal reason (l.account.held conid)) conid rows).1
    exact ⟨hmarket.lastPrices, hmarket.accumulated, hmarket.barIndex, hmarket.equity⟩

theorem checkExits_market (g : Group X) (l : Loop X S R) : SameMarket l (l.checkExits cfg g) :=
  List.foldlRecOn (motive := SameMarket l) _ _ (.refl l) fun l' h conid _ => h.trans (checkExit_market cfg g l' conid)

theorem runOne_market (strategy : Strategy X S) (data : Data X) (warming : Bool) (g : Group X) (l : Loop X S R)
    (bar : Int × Rows X) : SameMarket l (l.runOne cfg strategy data warming g bar) := by
  have hcases := ran cfg strategy data warming g l bar
  generalize l.runOne cfg strategy data warming g bar = l' at hcases ⊢
  cases hcases with
  | quiet calls dropped => exact ⟨rfl, rfl, rfl, rfl⟩
  | signal calls name body hlive =>
    have hmarket := (take_frame cfg g { l with calls := calls } { body with source := .strategy name } bar.1 bar.2).1
    exact ⟨hmarket.lastPrices, hmarket.accumulated, hmarket.barIndex, hmarket.equity⟩

theorem runStrategy_market (strategy : Strategy X S) (data : Data X) (warming : Bool) (g : Group X) (l : Loop X S R) :
    SameMarket l (l.runStrategy cfg strategy data warming g) :=
  List.foldlRecOn (motive := SameMarket l) _ _ (.refl l) fun l' h bar _ =>
    h.trans (runOne_market cfg strategy data warming g l' bar)

/-! ## The last closes -/

theorem accumulateAll_conid (bars : List (Int × Rows X)) (hnodup : (bars.map Prod.fst).Nodup) (l : Loop X S R) (c : Int) :
    let rows? := (bars.find? fun b => b.1 = c).map Prod.snd
    (bars.foldl Loop.accumulateOne l).lastPrices c = (rows?.map fun rows => rows.last.close).getD (l.lastPrices c) ∧
      (bars.foldl Loop.accumulateOne l).accumulated c = l.accumulated c ++ (rows?.map Rows.toList).getD [] ∧
      (bars.foldl Loop.accumulateOne l).barIndex c = l.barIndex c + if rows?.isSome then 1 else 0 := by
  induction bars generalizing l with
  | nil => simp
  | cons b bars ih =>
    obtain ⟨hprices, haccumulated, hindex⟩ := ih (List.nodup_cons.mp hnodup).2 (l.accumulateOne b)
    simp only [List.foldl_cons]
    by_cases hc : b.1 = c
    · subst hc
      have hnone : bars.find? (fun b' => decide (b'.1 = b.1)) = none := by
        rw [List.find?_eq_none]
        intro b' hb' h
        exact (List.nodup_cons.mp hnodup).1 (List.mem_map.mpr ⟨b', hb', of_decide_eq_true h⟩)
      rw [hprices, haccumulated, hindex, hnone]
      simp [Loop.accumulateOne]
    · rw [hprices, haccumulated, hindex, List.find?_cons_of_neg (by simpa using hc)]
      simp [Loop.accumulateOne, Function.update_of_ne (Ne.symm hc)]

theorem accumulate_conid (g : Group X) (l : Loop X S R) (c : Int) :
    (l.accumulate g).lastPrices c = ((g.rows? c).map fun rows => rows.last.close).getD (l.lastPrices c) ∧
      (l.accumulate g).accumulated c = l.accumulated c ++ ((g.rows? c).map Rows.toList).getD [] ∧
      (l.accumulate g).barIndex c = l.barIndex c + if (g.rows? c).isSome then 1 else 0 :=
  accumulateAll_conid g.bars.rows g.bars.nodup l c

def lastClose (gs : List (Group X)) (conid : Int) : ℚ :=
  (((gs.filterMap fun g => g.rows? conid).getLast?).map fun rows => rows.last.close).getD 0

theorem lastClose_append (gs : List (Group X)) (g : Group X) (c : Int) :
    lastClose (gs ++ [g]) c = ((g.rows? c).map fun rows => rows.last.close).getD (lastClose gs c) := by
  cases h : g.rows? c <;> simp [lastClose, List.filterMap_append, h]

theorem runGroups_append (cfg : Config X R) (strategy : Strategy X S) (data : Data X) (gs : List (Group X)) (g : Group X) :
    runGroups cfg strategy data (gs ++ [g]) = (runGroups cfg strategy data gs).bar cfg strategy data g := by
  simp [runGroups]

theorem bar_market (strategy : Strategy X S) (data : Data X) (l : Loop X S R) (g : Group X) :
    ∃ before after : Loop X S R, SameMarket l before ∧ SameMarket (before.accumulate g) after ∧
      l.bar cfg strategy data g = if cfg.warming g.time then after else after.mark g := by
  unfold Loop.bar
  split_ifs
  · exact ⟨l, _, .refl l, (checkExits_market cfg g _).trans (runStrategy_market cfg strategy data true g _), rfl⟩
  · exact ⟨_, _, (flatten_frame cfg g l).1.trans (fillPending_frame cfg g _).1,
      (checkExits_market cfg g _).trans (runStrategy_market cfg strategy data false g _), rfl⟩

theorem lastPrices_run (cfg : Config X R) (strategy : Strategy X S) (data : Data X) (gs : List (Group X)) :
    (runGroups cfg strategy data gs).lastPrices = lastClose gs := by
  induction gs using List.reverseRecOn with
  | nil => rfl
  | append_singleton gs g ih =>
    obtain ⟨before, after, hbefore, hafter, hbar⟩ := bar_market cfg strategy data (runGroups cfg strategy data gs) g
    funext c
    have hprices : ((runGroups cfg strategy data gs).bar cfg strategy data g).lastPrices = after.lastPrices := by
      rw [hbar]
      split_ifs <;> rfl
    rw [runGroups_append, hprices, hafter.lastPrices, (accumulate_conid g before c).1, hbefore.lastPrices, ih, lastClose_append]

def Account.value (a : Account X) (lastPrices : Int → ℚ) : ℚ :=
  a.cash + (a.positions.rows.map fun p => p.2 * lastPrices p.1).sum

theorem equity_run (cfg : Config X R) (strategy : Strategy X S) (data : Data X) (gs : List (Group X)) (g : Group X) :
    (runGroups cfg strategy data (gs ++ [g])).equity =
      (runGroups cfg strategy data gs).equity ++
        if cfg.warming g.time then []
        else [(g.time, (runGroups cfg strategy data (gs ++ [g])).account.value (lastClose (gs ++ [g])))] := by
  have hprices := lastPrices_run cfg strategy data (gs ++ [g])
  rw [← hprices]
  rw [runGroups_append]
  obtain ⟨before, after, hbefore, hafter, hbar⟩ := bar_market cfg strategy data (runGroups cfg strategy data gs) g
  have hequity : after.equity = (runGroups cfg strategy data gs).equity := by
    rw [hafter.equity, ← hbefore.equity]
    exact List.foldlRecOn (motive := fun l : Loop X S R => l.equity = before.equity) g.bars.rows Loop.accumulateOne rfl
      fun _ h _ _ => h
  rw [hbar]
  split_ifs
  · rw [hequity, List.append_nil]
  · rw [← hequity]
    rfl

end MmrTrader.Simulation
