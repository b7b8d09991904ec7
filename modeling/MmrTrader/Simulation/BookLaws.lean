import Mathlib.Tactic.Linarith
import Mathlib.Tactic.FieldSimp
import Mathlib.Tactic.LinearCombination
import MmrTrader.Lib.TableSum
import MmrTrader.Simulation.Backtester

/-!
# The books of a backtest

* `Executed` — all that a signal can do to the account.
* `bookCash` — what the trades leave of the capital.
* `Balanced` — the account agrees with its trades, in cash, shares and cost; `Balanced.execute` keeps it.
* `Kept.bar` — what a signal and a change of the exit conditions keep is kept by a turn; `balanced_run`.
-/

namespace MmrTrader.Simulation

open Lib

variable {X S R : Type}

/-! ## What a signal can do -/

/-- A price and a commission, as the cost model gives them; a `SELL` is priced before it is clipped. -/
def Costs.Charged (costs : Costs X) (conid : Int) (basis : ℚ) (action : Action) (reference : Bar X)
    (quantity price commission : ℚ) : Prop :=
  (∃ asked, price = costs.fillPrice conid basis asked action reference) ∧ commission = costs.commission conid quantity price

inductive Executed (cfg : Config X R) (market : Market R) (signal : Signal) (conid decidedAt barTime : Int) (reference : Bar X)
    (basis : ℚ) (a : Account X) : Account X → Prop where
  | skipped (blocks : String → Nat) :
      Executed cfg market signal conid decidedAt barTime reference basis a
        { a.logSignal signal conid decidedAt with blocks := blocks }
  | bought (quantity price commission : ℚ) (haction : signal.action = .BUY) (hpos : 0 < quantity)
      (hcost : quantity * price + commission ≤ a.cash)
      (hcharged : cfg.costs.Charged conid basis signal.action reference quantity price commission) :
      Executed cfg market signal conid decidedAt barTime reference basis a
        (((a.logSignal signal conid decidedAt).buy market signal conid quantity price commission).record signal conid decidedAt
          barTime reference basis quantity price commission)
  | sold (quantity price commission : ℚ) (haction : signal.action = .SELL) (hpos : 0 < quantity)
      (hheld : quantity ≤ a.held conid)
      (hcharged : cfg.costs.Charged conid basis signal.action reference quantity price commission) :
      Executed cfg market signal conid decidedAt barTime reference basis a
        (((a.logSignal signal conid decidedAt).sell conid quantity price commission).record signal conid decidedAt barTime
          reference basis quantity price commission)
  | neutral (quantity price commission : ℚ) (haction : signal.action = .NEUTRAL) (hpos : 0 < quantity)
      (hcharged : cfg.costs.Charged conid basis signal.action reference quantity price commission) :
      Executed cfg market signal conid decidedAt barTime reference basis a
        ((a.logSignal signal conid decidedAt).record signal conid decidedAt barTime reference basis quantity price commission)

theorem executed (cfg : Config X R) (market : Market R) (a : Account X) (signal : Signal) (conid decidedAt barTime : Int)
    (reference : Bar X) (basis : ℚ) :
    Executed cfg market signal conid decidedAt barTime reference basis a
      (executeSignal cfg market a signal conid decidedAt barTime reference basis) := by
  unfold executeSignal
  simp only
  generalize Account.quantityOf cfg (a.logSignal signal conid decidedAt) signal conid basis = quantity
  by_cases hskip : basis ≤ 0 ∨ quantity ≤ 0
  · rw [if_pos hskip]
    exact .skipped a.blocks
  rw [if_neg hskip]
  have hpos : 0 < quantity := lt_of_not_ge (not_or.mp hskip).2
  generalize hprice : cfg.costs.fillPrice conid basis quantity signal.action reference = price
  split
  · rename_i haction
    split
    · exact .skipped _
    · split_ifs with hcost
      · exact .skipped a.blocks
      · exact .bought _ _ _ haction hpos (not_lt.mp hcost) ⟨⟨quantity, hprice.symm⟩, rfl⟩
  · rename_i haction
    split_ifs with hheld
    · exact .skipped a.blocks
    · exact .sold _ _ _ haction (lt_min hpos (not_le.mp hheld)) (min_le_right _ _) ⟨⟨quantity, hprice.symm⟩, rfl⟩
  · rename_i haction
    exact .neutral _ _ _ haction hpos ⟨⟨quantity, hprice.symm⟩, rfl⟩

/-! ## Shares -/

theorem held_buy (market : Market R) (a : Account X) (signal : Signal) (conid : Int) (quantity price commission : ℚ) (c : Int) :
    (a.buy market signal conid quantity price commission).held c = if conid = c then a.held conid + quantity else a.held c := by
  simp only [Account.held, Account.buy, Table.get?_upsert]
  split_ifs <;> rfl

theorem held_sell (a : Account X) (conid : Int) (quantity price commission : ℚ) (c : Int) :
    (a.sell conid quantity price commission).held c = if conid = c then a.held conid - quantity else a.held c := by
  unfold Account.sell
  by_cases hnone : a.held conid - quantity = 0
  · simp only [if_pos hnone]
    simp only [Account.held, Table.get?_deleteKey]
    split_ifs
    · exact hnone.symm
    · rfl
  · simp only [if_neg hnone]
    simp only [Account.held, Table.get?_upsert]
    split_ifs <;> rfl

@[simp] theorem held_record (a : Account X) (signal : Signal) (conid decidedAt barTime : Int) (reference : Bar X)
    (basis quantity price commission : ℚ) (c : Int) :
    (a.record signal conid decidedAt barTime reference basis quantity price commission).held c = a.held c := rfl

@[simp] theorem held_logSignal (a : Account X) (signal : Signal) (conid decidedAt c : Int) :
    (a.logSignal signal conid decidedAt).held c = a.held c := rfl

/-! ## Cash -/

/-- What the trades leave of the capital. -/
def bookCash (initial : ℚ) (trades : List Trade) : ℚ :=
  initial - ((trades.filter fun t => t.action = .BUY).map fun t => t.quantity * t.price + t.commission).sum
    + ((trades.filter fun t => t.action = .SELL).map fun t => t.quantity * t.price - t.commission).sum

variable {t : Trade}

theorem bookCash_buy (initial : ℚ) (trades : List Trade) (h : t.action = .BUY) :
    bookCash initial (trades ++ [t]) = bookCash initial trades - (t.quantity * t.price + t.commission) := by
  simp [bookCash, List.filter_append, h]
  ring

theorem bookCash_sell (initial : ℚ) (trades : List Trade) (h : t.action = .SELL) :
    bookCash initial (trades ++ [t]) = bookCash initial trades + (t.quantity * t.price - t.commission) := by
  simp [bookCash, List.filter_append, h]
  ring

theorem bookCash_neutral (initial : ℚ) (trades : List Trade) (h : t.action = .NEUTRAL) :
    bookCash initial (trades ++ [t]) = bookCash initial trades := by
  simp [bookCash, List.filter_append, h]

/-! ## Round trips -/

theorem averages_append (trades : List Trade) (t : Trade) : averages (trades ++ [t]) = (averages trades).trade t := by
  simp [averages]

def Averages.perShare (v : Averages) (conid : Int) : ℚ := v.avgEntry conid + v.avgBuyComm conid

/-- What the open positions have cost. -/
def Averages.invested (v : Averages) (positions : Table (Prod.fst : Int × ℚ → Int)) : ℚ :=
  (positions.rows.map fun p => p.2 * v.perShare p.1).sum

theorem perShare_trade (v : Averages) {c : Int} (h : c ≠ t.conid) : (v.trade t).perShare c = v.perShare c := by
  simp only [Averages.perShare, Averages.trade]
  cases t.action with
  | BUY =>
    simp only [Averages.buy]
    split_ifs <;> simp [Function.update_of_ne h]
  | SELL =>
    simp only [Averages.sell]
    split_ifs <;> simp [Function.update_of_ne h]
  | NEUTRAL => rfl

theorem perShare_buy (v : Averages) (h : 0 < v.avgQty t.conid + t.quantity) :
    (v.avgQty t.conid + t.quantity) * (v.buy t).perShare t.conid =
      v.avgQty t.conid * v.perShare t.conid + (t.quantity * t.price + t.commission) := by
  have hne := h.ne'
  simp only [Averages.perShare, Averages.buy, if_pos h, Function.update_self]
  field_simp
  ring

/-! ## The books -/

structure Balanced (initial : ℚ) (a : Account X) : Prop where
  positions : ∀ p ∈ a.positions.rows, 0 < p.2
  quantity : ∀ t ∈ a.trades, 0 < t.quantity
  covered : ∀ trades t, trades ++ [t] <+: a.trades → t.action = .BUY → 0 ≤ bookCash initial (trades ++ [t])
  cash : a.cash = bookCash initial a.trades
  shares : ∀ c, (averages a.trades).avgQty c = a.held c
  cost : initial + (averages a.trades).roundTripPnl.sum - (averages a.trades).invested a.positions = a.cash

theorem Balanced.start (initial : ℚ) (blocks : String → Nat) :
    Balanced initial (⟨initial, .empty, .empty, [], [], blocks⟩ : Account X) where
  positions _ h := by cases h
  quantity _ h := by cases h
  covered trades t h := by simp [Account.trades] at h
  cash := by simp [bookCash, Account.trades]
  shares _ := rfl
  cost := by simp [Averages.invested, averages, Averages.start, Account.trades]

variable {initial : ℚ} {a a' : Account X}

theorem Balanced.held_nonneg (h : Balanced initial a) (c : Int) : 0 ≤ a.held c := by
  unfold Account.held
  cases hg : a.positions.get? c with
  | none => exact le_rfl
  | some p => exact (h.positions p (Table.get?_eq_some.mp hg).1).le

/-- Nothing that the books speak of has changed. -/
theorem Balanced.same (h : Balanced initial a) (hcash : a'.cash = a.cash) (hpositions : a'.positions = a.positions)
    (htrades : a'.trades = a.trades) : Balanced initial a' where
  positions := hpositions ▸ h.positions
  quantity := htrades ▸ h.quantity
  covered := htrades ▸ h.covered
  cash := by rw [hcash, htrades, h.cash]
  shares c := by rw [htrades, h.shares, Account.held, Account.held, hpositions]
  cost := by rw [hcash, htrades, hpositions, h.cost]

theorem positions_upsert {t : Table (Prod.fst : Int × ℚ → Int)} (h : ∀ p ∈ t.rows, 0 < p.2) (c : Int) {quantity : ℚ}
    (hquantity : 0 < quantity) : ∀ p ∈ (t.upsert (c, quantity)).rows, 0 < p.2 := by
  intro p hp
  rcases Table.mem_upsert.mp hp with rfl | ⟨hp, _⟩
  · exact hquantity
  · exact h p hp

variable {trades : List Trade}

theorem quantity_append (h : ∀ t ∈ trades, 0 < t.quantity) (ht : 0 < t.quantity) : ∀ t' ∈ trades ++ [t], 0 < t'.quantity := by
  intro t' ht'
  rcases List.mem_append.mp ht' with ht' | ht'
  · exact h t' ht'
  · rw [List.mem_singleton.mp ht']
    exact ht

theorem covered_append (h : ∀ ts t', ts ++ [t'] <+: trades → t'.action = .BUY → 0 ≤ bookCash initial (ts ++ [t']))
    (ht : t.action = .BUY → 0 ≤ bookCash initial (trades ++ [t])) (ts : List Trade) (t' : Trade)
    (hts : ts ++ [t'] <+: trades ++ [t]) (hbuy : t'.action = .BUY) : 0 ≤ bookCash initial (ts ++ [t']) := by
  rcases List.prefix_concat_iff.mp hts with heq | hts
  · obtain ⟨rfl, htt⟩ := List.append_inj' heq rfl
    cases htt
    exact ht hbuy
  · exact h ts t' hts hbuy

theorem invested_held (v : Averages) (a : Account X) (c : Int) :
    ((a.positions.get? c).map fun p => p.2 * v.perShare p.1).getD 0 = a.held c * v.perShare c := by
  unfold Account.held
  cases hg : a.positions.get? c with
  | none => simp
  | some p =>
    obtain ⟨_, rfl⟩ := Table.get?_eq_some.mp hg
    rfl

theorem Balanced.buy (h : Balanced initial a) (htrades : a'.trades = a.trades ++ [t])
    (haction : t.action = .BUY) (hpos : 0 < t.quantity) (hcost : t.quantity * t.price + t.commission ≤ a.cash)
    (hcash : a'.cash = a.cash - (t.quantity * t.price + t.commission))
    (hpositions : a'.positions = a.positions.upsert (t.conid, a.held t.conid + t.quantity)) : Balanced initial a' := by
  have hheld : 0 < a.held t.conid + t.quantity := by linarith [h.held_nonneg t.conid]
  have hqty := h.shares t.conid
  have hnew : 0 < (averages a.trades).avgQty t.conid + t.quantity := hqty.symm ▸ hheld
  have htrade : (averages a.trades).trade t = (averages a.trades).buy t := by simp [Averages.trade, haction]
  have hbook : a'.cash = bookCash initial (a.trades ++ [t]) := by rw [hcash, bookCash_buy _ _ haction, h.cash]
  refine ⟨?_, ?_, ?_, ?_, fun c => ?_, ?_⟩
  · rw [hpositions]
    exact positions_upsert h.positions _ hheld
  · rw [htrades]
    exact quantity_append h.quantity hpos
  · rw [htrades]
    refine covered_append h.covered fun _ => ?_
    rw [← hbook, hcash]
    linarith
  · rw [htrades, hbook]
  · rw [htrades, averages_append, htrade, Account.held, hpositions, Table.get?_upsert]
    simp only [Averages.buy, if_pos hnew]
    by_cases hc : t.conid = c
    · subst hc
      simp [hqty]
    · rw [Function.update_of_ne (Ne.symm hc), if_neg hc]
      exact h.shares c
  · have hsum := Table.sum_upsert a.positions (t.conid, a.held t.conid + t.quantity)
      (f := fun p => p.2 * (averages a.trades).perShare p.1) (g := fun p => p.2 * ((averages a.trades).trade t).perShare p.1)
      fun p hp => by rw [perShare_trade _ hp]
    rw [invested_held] at hsum
    have hshare := perShare_buy (averages a.trades) hnew
    rw [hqty, ← htrade] at hshare
    have hpnl : ((averages a.trades).trade t).roundTripPnl = (averages a.trades).roundTripPnl := by
      rw [htrade]
      simp [Averages.buy, if_pos hnew]
    have hold := h.cost
    rw [htrades, averages_append, hpnl, hpositions, hcash]
    unfold Averages.invested at hold ⊢
    linarith

theorem invested_sell (v : Averages) (a : Account X) (haction : t.action = .SELL)
    (hqty : v.avgQty t.conid = a.held t.conid) (hheld : t.quantity ≤ a.held t.conid)
    {positions : Table (Prod.fst : Int × ℚ → Int)}
    (hpositions : positions = if a.held t.conid - t.quantity = 0 then a.positions.deleteWhere fun p => p.1 = t.conid
      else a.positions.upsert (t.conid, a.held t.conid - t.quantity)) :
    (v.trade t).invested positions + t.quantity * v.perShare t.conid = v.invested a.positions := by
  have hold := invested_held v a t.conid
  have hne : ∀ p : Int × ℚ, p.1 ≠ t.conid → p.2 * v.perShare p.1 = p.2 * (v.trade t).perShare p.1 :=
    fun p hp => by rw [perShare_trade _ hp]
  unfold Averages.invested
  by_cases hnone : a.held t.conid - t.quantity = 0
  · rw [if_pos hnone] at hpositions
    have hsum := Table.sum_deleteKey a.positions t.conid hne
    rw [hold] at hsum
    rw [hpositions, ← hsum, sub_eq_zero.mp hnone]
  · rw [if_neg hnone] at hpositions
    have hleft : ¬ v.avgQty t.conid - t.quantity ≤ 0 := fun h => hnone (le_antisymm (hqty ▸ h) (sub_nonneg.mpr hheld))
    have hsum := Table.sum_upsert a.positions (t.conid, a.held t.conid - t.quantity) hne
    have hshare : (v.trade t).perShare t.conid = v.perShare t.conid := by
      simp only [Averages.perShare, Averages.trade, haction, Averages.sell, if_neg hleft]
    simp only [hold, hshare] at hsum
    rw [hpositions]
    linarith

theorem Balanced.sell (h : Balanced initial a) (htrades : a'.trades = a.trades ++ [t])
    (haction : t.action = .SELL) (hpos : 0 < t.quantity)
    (hheld : t.quantity ≤ a.held t.conid) (hcash : a'.cash = a.cash + (t.quantity * t.price - t.commission))
    (hpositions : a'.positions = if a.held t.conid - t.quantity = 0 then a.positions.deleteWhere fun p => p.1 = t.conid
      else a.positions.upsert (t.conid, a.held t.conid - t.quantity)) : Balanced initial a' := by
  have hqty := h.shares t.conid
  have htrade : (averages a.trades).trade t = (averages a.trades).sell t := by simp [Averages.trade, haction]
  refine ⟨?_, ?_, ?_, ?_, fun c => ?_, ?_⟩
  · rw [hpositions]
    split_ifs with hnone
    · exact fun p hp => h.positions p (Table.mem_deleteWhere.mp hp).1
    · exact positions_upsert h.positions _ (lt_of_le_of_ne (sub_nonneg.mpr hheld) (Ne.symm hnone))
  · rw [htrades]
    exact quantity_append h.quantity hpos
  · rw [htrades]
    exact covered_append h.covered fun hbuy => by cases haction.symm.trans hbuy
  · rw [htrades, hcash, bookCash_sell _ _ haction, h.cash]
  · rw [htrades, averages_append, htrade, Account.held, hpositions]
    by_cases hnone : a.held t.conid - t.quantity = 0
    · rw [if_pos hnone, Table.get?_deleteKey]
      simp only [Averages.sell, hqty, hnone, le_refl, if_true]
      by_cases hc : t.conid = c
      · subst hc
        simp
      · rw [Function.update_of_ne (Ne.symm hc), if_neg hc]
        exact h.shares c
    · have hleft : ¬ a.held t.conid - t.quantity ≤ 0 := fun hle => hnone (le_antisymm hle (sub_nonneg.mpr hheld))
      rw [if_neg hnone, Table.get?_upsert]
      simp only [Averages.sell, hqty, if_neg hleft]
      by_cases hc : t.conid = c
      · subst hc
        simp
      · rw [Function.update_of_ne (Ne.symm hc), if_neg hc]
        exact h.shares c
  · have hinvested := invested_sell (averages a.trades) a haction hqty hheld hpositions
    have hpnl : ((averages a.trades).trade t).roundTripPnl.sum = (averages a.trades).roundTripPnl.sum +
        (t.quantity * t.price - t.commission - t.quantity * (averages a.trades).perShare t.conid) := by
      rw [htrade]
      simp only [Averages.sell, Averages.perShare]
      split_ifs <;> simp only [List.sum_append, List.sum_singleton] <;> ring
    have hold := h.cost
    rw [htrades, averages_append, hpnl, hcash]
    linarith

theorem Balanced.neutral (h : Balanced initial a) (htrades : a'.trades = a.trades ++ [t])
    (haction : t.action = .NEUTRAL) (hpos : 0 < t.quantity) (hcash : a'.cash = a.cash)
    (hpositions : a'.positions = a.positions) : Balanced initial a' := by
  have htrade : averages a'.trades = averages a.trades := by simp [htrades, averages_append, Averages.trade, haction]
  refine ⟨?_, ?_, ?_, ?_, fun c => ?_, ?_⟩
  · rw [hpositions]
    exact h.positions
  · rw [htrades]
    exact quantity_append h.quantity hpos
  · rw [htrades]
    exact covered_append h.covered fun hbuy => by cases haction.symm.trans hbuy
  · rw [htrades, hcash, bookCash_neutral _ _ haction, h.cash]
  · rw [htrade, Account.held, hpositions]
    exact h.shares c
  · rw [htrade, hpositions, hcash]
    exact h.cost

theorem trades_record (a : Account X) (signal : Signal) (conid decidedAt barTime : Int) (reference : Bar X)
    (basis quantity price commission : ℚ) :
    (a.record signal conid decidedAt barTime reference basis quantity price commission).trades =
      a.trades ++ [⟨barTime, conid, signal.action, quantity, price, commission, signal.probability, signal.risk⟩] := by
  simp [Account.trades, Account.record]

theorem fills_sell (a : Account X) (conid : Int) (quantity price commission : ℚ) :
    (a.sell conid quantity price commission).fills = a.fills := by
  unfold Account.sell
  simp only
  split_ifs <;> rfl

theorem trades_sell (a : Account X) (conid : Int) (quantity price commission : ℚ) :
    (a.sell conid quantity price commission).trades = a.trades := by
  rw [Account.trades, fills_sell]
  rfl

theorem cash_sell (a : Account X) (conid : Int) (quantity price commission : ℚ) :
    (a.sell conid quantity price commission).cash = a.cash + (quantity * price - commission) := by
  unfold Account.sell
  simp only
  split_ifs <;> rfl

theorem positions_sell (a : Account X) (conid : Int) (quantity price commission : ℚ) :
    (a.sell conid quantity price commission).positions =
      if a.held conid - quantity = 0 then a.positions.deleteWhere fun p => p.1 = conid
      else a.positions.upsert (conid, a.held conid - quantity) := by
  unfold Account.sell
  simp only
  split_ifs <;> rfl

theorem Balanced.execute (h : Balanced initial a) (cfg : Config X R) (market : Market R) (signal : Signal)
    (conid decidedAt barTime : Int) (reference : Bar X) (basis : ℚ) :
    Balanced initial (executeSignal cfg market a signal conid decidedAt barTime reference basis) := by
  have hcases := executed cfg market a signal conid decidedAt barTime reference basis
  generalize executeSignal cfg market a signal conid decidedAt barTime reference basis = a' at hcases ⊢
  cases hcases with
  | skipped blocks => exact h.same rfl rfl rfl
  | bought quantity price commission haction hpos hcost =>
    have htrades := trades_record ((a.logSignal signal conid decidedAt).buy market signal conid quantity price commission) signal
      conid decidedAt barTime reference basis quantity price commission
    exact h.buy htrades haction hpos hcost rfl rfl
  | sold quantity price commission haction hpos hheld =>
    have htrades := trades_record ((a.logSignal signal conid decidedAt).sell conid quantity price commission) signal conid
      decidedAt barTime reference basis quantity price commission
    rw [trades_sell] at htrades
    exact h.sell htrades haction hpos hheld (cash_sell _ _ _ _ _) (positions_sell _ _ _ _ _)
  | neutral quantity price commission haction hpos =>
    have htrades := trades_record (a.logSignal signal conid decidedAt) signal conid decidedAt barTime reference basis quantity
      price commission
    exact h.neutral htrades haction hpos rfl rfl

/-! ## A turn -/

variable {S : Type} {P : Account X → Prop} {cfg : Config X R}

/-- `P` is kept by each signal at a time, and by a change of the exit conditions. -/
structure Kept (cfg : Config X R) (time : Int) (P : Account X → Prop) : Prop where
  execute : ∀ a market signal conid decidedAt reference basis, P a →
    P (executeSignal cfg market a signal conid decidedAt time reference basis)
  conditions : ∀ a conditions, P a → P { a with exitConditions := conditions }

variable {g : Group X} {l : Loop X S R}

theorem Kept.flattenOne (hP : Kept cfg g.time P) (h : P l.account) (conid : Int) : P (l.flattenOne cfg g conid).account := by
  unfold Loop.flattenOne
  split
  · exact h
  · split_ifs
    · exact h
    · dsimp only
      exact hP.execute _ _ _ _ _ _ _ h

theorem Kept.flatten (hP : Kept cfg g.time P) (h : P l.account) : P (l.flatten cfg g).account := by
  unfold Loop.flatten
  split
  · simp only
    split_ifs
    · exact List.foldlRecOn (motive := fun l : Loop X S R => P l.account) _ _ h fun _ hl conid _ => hP.flattenOne hl conid
    · exact h
  · exact h

theorem Kept.fillOne (hP : Kept cfg g.time P) (h : P l.account) (p : Pending) : P (l.fillOne cfg g p).account := by
  unfold Loop.fillOne
  split
  · exact h
  · dsimp only
    exact hP.execute _ _ _ _ _ _ _ h

theorem Kept.fillPending (hP : Kept cfg g.time P) (h : P l.account) : P (l.fillPending cfg g).account := by
  unfold Loop.fillPending
  split_ifs
  · exact List.foldlRecOn (motive := fun l : Loop X S R => P l.account) _ _ h fun _ hl p _ => hP.fillOne hl p
  · exact h

/-- Part 2 leaves the account, the queue and the exits alone. -/
theorem accumulate_frame (g : Group X) (l : Loop X S R) :
    (l.accumulate g).account = l.account ∧ (l.accumulate g).pending = l.pending ∧ (l.accumulate g).triggered = l.triggered :=
  List.foldlRecOn (motive := fun l' : Loop X S R => l'.account = l.account ∧ l'.pending = l.pending ∧ l'.triggered = l.triggered)
    g.bars.rows Loop.accumulateOne ⟨rfl, rfl, rfl⟩ fun _ h _ _ => h

theorem Kept.take (hP : Kept cfg g.time P) (h : P l.account) (signal : Signal) (conid : Int)
    (rows : Rows X) : P (l.take cfg g signal conid rows).account := by
  unfold Loop.take
  split_ifs
  · dsimp only
    exact hP.execute _ _ _ _ _ _ _ h
  · exact h

theorem Kept.checkExit (hP : Kept cfg g.time P) (h : P l.account) (conid : Int) : P (l.checkExit cfg g conid).account := by
  unfold Loop.checkExit
  split
  · exact h
  · split_ifs
    · exact hP.conditions _ _ h
    · exact h
    · split
      · exact h
      · split
        · exact h
        · apply hP.take
          exact hP.conditions _ _ h

theorem Kept.checkExits (hP : Kept cfg g.time P) (h : P l.account) : P (l.checkExits cfg g).account :=
  List.foldlRecOn (motive := fun l : Loop X S R => P l.account) _ _ h fun _ hl conid _ => hP.checkExit hl conid

theorem Kept.runOne (hP : Kept cfg g.time P) (strategy : Strategy X S) (data : Data X) (warming : Bool)
    (h : P l.account) (bar : Int × Rows X) : P (l.runOne cfg strategy data warming g bar).account := by
  unfold Loop.runOne
  simp only
  split
  · exact h
  · split_ifs
    · exact h
    · apply hP.take
      exact h

theorem Kept.runStrategy (hP : Kept cfg g.time P) (strategy : Strategy X S) (data : Data X) (warming : Bool)
    (h : P l.account) : P (l.runStrategy cfg strategy data warming g).account :=
  List.foldlRecOn (motive := fun l : Loop X S R => P l.account) _ _ h fun _ hl bar _ =>
    hP.runOne strategy data warming hl bar

/-- What a signal and a change of the exit conditions keep is kept by a turn. -/
theorem Kept.bar (hP : Kept cfg g.time P) (strategy : Strategy X S) (data : Data X) (h : P l.account) :
    P (l.bar cfg strategy data g).account := by
  have haccumulate : ∀ l : Loop X S R, P l.account → P (l.accumulate g).account :=
    fun l hl => (accumulate_frame g l).1.symm ▸ hl
  unfold Loop.bar
  split_ifs
  · exact hP.runStrategy _ _ _ (hP.checkExits (haccumulate _ h))
  · exact hP.runStrategy _ _ _ (hP.checkExits (haccumulate _ (hP.fillPending (hP.flatten h))))

theorem Kept.runGroups (hP : ∀ time, Kept cfg time P) (strategy : Strategy X S) (data : Data X) (gs : List (Group X))
    (h : P (Loop.start (S := S) cfg).account) : P (runGroups cfg strategy data gs).account :=
  List.foldlRecOn (motive := fun l : Loop X S R => P l.account) gs _ h fun _ hl g _ => (hP g.time).bar strategy data hl

theorem Balanced.kept (cfg : Config X R) (initial : ℚ) (time : Int) : Kept cfg time (Balanced initial (X := X)) where
  execute _ _ _ _ _ _ _ h := h.execute _ _ _ _ _ _ _ _
  conditions _ _ h := h.same rfl rfl rfl

theorem balanced_run (cfg : Config X R) (strategy : Strategy X S) (data : Data X) (gs : List (Group X)) :
    Balanced cfg.initialCapital (runGroups cfg strategy data gs).account :=
  Kept.runGroups (Balanced.kept cfg cfg.initialCapital) strategy data gs (Balanced.start _ _)

end MmrTrader.Simulation
