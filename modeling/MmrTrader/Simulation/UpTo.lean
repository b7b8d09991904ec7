import MmrTrader.Lib.StableSort
import MmrTrader.Simulation.Turns

/-!
# The beginning of a timeline

The moments of a timeline up to a time are given by the bars up to that time: which bars come later, and how many, and the
order in which the instruments were loaded make no difference.

* `Data.Sorted`, `SameUpTo` — the frames are in order; two inputs agree up to a time.
* `combined_upTo`, `timeline_upTo` — so do their bars in order, and the moments of their timelines.
* `moments_le` — an instrument has no more moments than bars.
-/

namespace MmrTrader.Simulation

open Lib

variable {X : Type}

def Data.Sorted (data : Data X) : Prop := ∀ frame ∈ data.rows, frame.2.Pairwise fun a b => a.time ≤ b.time

def SameUpTo (t : Int) (data data' : Data X) : Prop :=
  ∀ conid, ((data.frame conid).filter fun bar => bar.time ≤ t) = (data'.frame conid).filter fun bar => bar.time ≤ t

/-! ## The bars in order -/

theorem concatenated_conid (data : Data X) (conid : Int) :
    ((concatenated data).filter fun r => r.1 = conid) = (data.frame conid).map (Prod.mk conid) := by
  obtain ⟨frames, nodup⟩ := data
  induction frames with
  | nil => rfl
  | cons frame frames ih =>
    obtain ⟨hfresh, hnodup⟩ := List.nodup_cons.mp nodup
    have hrest := ih hnodup
    simp only [concatenated, Data.frame, Table.get?, List.flatMap_cons, List.filter_append] at hrest ⊢
    by_cases hc : frame.1 = conid
    · subst hc
      have hnone : frames.find? (fun r => decide (r.1 = frame.1)) = none := by
        rw [List.find?_eq_none]
        intro r hr h
        exact hfresh (List.mem_map.mpr ⟨r, hr, of_decide_eq_true h⟩)
      rw [hnone] at hrest
      rw [hrest, List.find?_cons_of_pos (by simp), List.filter_eq_self.mpr (by simp)]
      simp
    · rw [hrest, List.find?_cons_of_neg (by simpa using hc), List.filter_eq_nil_iff.mpr (by simpa using fun _ _ => hc)]
      rfl

theorem combined_moment (data : Data X) (time : Int) :
    ((combined data).filter fun r => r.2.time = time) =
      ((concatenated data).insertionSort fun a b => a.1 ≤ b.1).filter fun r => r.2.time = time :=
  filter_insertionSort (fun a b ha hb => by simp at ha hb; omega) _

theorem combined_fibre (data : Data X) (conid time : Int) :
    (((combined data).filter fun r => r.2.time = time).filter fun r => r.1 = conid) =
      ((data.frame conid).filter fun bar => bar.time = time).map (Prod.mk conid) := by
  rw [combined_moment, List.filter_comm, filter_insertionSort (fun a b ha hb => by simp at ha hb; omega), concatenated_conid,
    List.filter_map]
  rfl

variable {data data' : Data X} {t : Int}

theorem moment_upTo (h : SameUpTo t data data') {time : Int} (htime : time ≤ t) :
    ((combined data).filter fun r => r.2.time = time) = (combined data').filter fun r => r.2.time = time := by
  have hsorted : ∀ data : Data X, ((combined data).filter fun r => r.2.time = time).Pairwise fun a b => a.1 ≤ b.1 := by
    intro data
    rw [combined_moment]
    exact (List.pairwise_insertionSort (fun a b : Int × Bar X => a.1 ≤ b.1) _).filter _
  refine eq_of_fibres Prod.fst (hsorted data) (hsorted data') fun conid => ?_
  have hbars : ∀ data : Data X, ((data.frame conid).filter fun bar => bar.time = time) =
      ((data.frame conid).filter fun bar => bar.time ≤ t).filter fun bar => bar.time = time := by
    intro data
    rw [List.filter_filter]
    refine List.filter_congr fun bar _ => ?_
    by_cases hbar : bar.time = time <;> simp [hbar, htime]
  rw [combined_fibre, combined_fibre, hbars data, hbars data', h conid]

theorem combined_upTo (h : SameUpTo t data data') :
    ((combined data).filter fun r => r.2.time ≤ t) = (combined data').filter fun r => r.2.time ≤ t := by
  have hsorted : ∀ data : Data X, ((combined data).filter fun r => r.2.time ≤ t).Pairwise fun a b => a.2.time ≤ b.2.time :=
    fun data => (List.pairwise_insertionSort (fun a b : Int × Bar X => a.2.time ≤ b.2.time) _).filter _
  refine eq_of_fibres (fun r : Int × Bar X => r.2.time) (hsorted data) (hsorted data') fun time => ?_
  rw [List.filter_comm, List.filter_comm (l := combined data')]
  by_cases htime : time ≤ t
  · rw [moment_upTo h htime]
  · have hnone : ∀ data : Data X, (((combined data).filter fun r => r.2.time = time).filter fun r => r.2.time ≤ t) = [] := by
      intro data
      refine List.filter_eq_nil_iff.mpr fun r hr => ?_
      have := (List.mem_filter.mp hr).2
      simp at this ⊢
      omega
    rw [hnone data, hnone data']

/-! ## The moments -/

theorem times_filter (rows : List (Int × Bar X)) (t : Int) :
    (((rows.map fun r => r.2.time).dedup.insertionSort (· ≤ ·)).filter fun time => time ≤ t) =
      ((rows.filter fun r => r.2.time ≤ t).map fun r => r.2.time).dedup.insertionSort (· ≤ ·) := by
  have hstrict : ∀ l : List Int, (l.dedup.insertionSort (· ≤ ·)).Pairwise (· < ·) := fun l =>
    ((List.pairwise_insertionSort (· ≤ ·) l.dedup).and
      ((List.perm_insertionSort _ _).nodup_iff.mpr (List.nodup_dedup l))).imp fun h => lt_of_le_of_ne h.1 h.2
  refine ((hstrict _).filter _).eq_of_mem_iff (hstrict _) fun time => ?_
  simp only [List.mem_filter, List.mem_insertionSort, List.mem_dedup, List.mem_map, decide_eq_true_eq]
  constructor
  · rintro ⟨⟨r, hr, rfl⟩, hle⟩
    exact ⟨r, ⟨hr, hle⟩, rfl⟩
  · rintro ⟨r, ⟨hr, hle⟩, rfl⟩
    exact ⟨⟨r, hr, rfl⟩, hle⟩

theorem groups_filter (rows : List (Int × Bar X)) (t : Int) :
    ((groups rows).filter fun g => g.time ≤ t) = groups (rows.filter fun r => r.2.time ≤ t) := by
  rw [groups, groups, List.filter_map, ← times_filter]
  refine List.map_congr_left fun time htime => ?_
  have hle : time ≤ t := by simpa using (List.mem_filter.mp htime).2
  rw [List.filter_filter]
  congr 2
  refine List.filter_congr fun r _ => ?_
  by_cases hr : r.2.time = time <;> simp [hr, hle]

/-- The moments up to `t`, and their bars, are given by the bars up to `t`. -/
theorem timeline_upTo (h : SameUpTo t data data') :
    ((timeline data).filter fun g => g.time ≤ t) = (timeline data').filter fun g => g.time ≤ t := by
  rw [timeline, timeline, groups_filter, groups_filter, combined_upTo h]

theorem mem_frame {frame : Int × List (Bar X)} (h : frame ∈ data.rows) : data.frame frame.1 = frame.2 := by
  rw [Data.frame, Table.get?_of_mem h]
  rfl

theorem moments_le {gs : List (Group X)} (hgs : gs.Sublist (timeline data)) (hle : ∀ g ∈ gs, g.time ≤ t) (conid : Int) :
    (gs.filter fun g => (g.rows? conid).isSome).length ≤ ((data.frame conid).filter fun bar => bar.time ≤ t).length := by
  have hnodup : ((gs.filter fun g => (g.rows? conid).isSome).map Group.time).Nodup := by
    have hsub : (gs.filter fun g => (g.rows? conid).isSome).Sublist (timeline data) := List.filter_sublist.trans hgs
    exact List.pairwise_map.mpr (((timeline_sorted data).sublist hsub).imp fun h => h.ne)
  have hsubset : ((gs.filter fun g => (g.rows? conid).isSome).map Group.time) ⊆
      ((data.frame conid).filter fun bar => bar.time ≤ t).map Bar.time := by
    intro time htime
    obtain ⟨g, hg, rfl⟩ := List.mem_map.mp htime
    obtain ⟨hseen, hsome⟩ := List.mem_filter.mp hg
    obtain ⟨rows, hrows⟩ := Option.isSome_iff_exists.mp hsome
    obtain ⟨heq, frame, hframe, rfl, hmem⟩ := mem_timeline (hgs.subset hseen) hrows rows.first List.mem_cons_self
    rw [mem_frame hframe]
    exact List.mem_map.mpr ⟨rows.first, List.mem_filter.mpr ⟨hmem, by simpa [heq] using hle g hseen⟩, heq⟩
  calc _ = ((gs.filter fun g => (g.rows? conid).isSome).map Group.time).length := (List.length_map _).symm
    _ ≤ (((data.frame conid).filter fun bar => bar.time ≤ t).map Bar.time).length :=
      (List.subperm_of_subset hnodup hsubset).length_le
    _ = _ := List.length_map _

/-- The first bars of an instrument, as many as have a moment up to `t`. -/
theorem take_frame_upTo (h : SameUpTo t data data') (hs : data.Sorted) (hs' : data'.Sorted) (conid : Int) {n : Nat}
    (hn : n ≤ ((data.frame conid).filter fun bar => bar.time ≤ t).length) :
    (data.frame conid).take n = (data'.frame conid).take n := by
  have htake : ∀ data : Data X, data.Sorted → n ≤ ((data.frame conid).filter fun bar => bar.time ≤ t).length →
      (data.frame conid).take n = ((data.frame conid).filter fun bar => bar.time ≤ t).take n := by
    intro data hs hn
    have hsorted : (data.frame conid).Pairwise fun a b => a.time ≤ b.time := by
      unfold Data.frame
      cases hget : data.get? conid with
      | none => exact .nil
      | some frame => exact hs frame (Table.get?_eq_some.mp hget).1
    calc (data.frame conid).take n = (((data.frame conid).filter fun bar => bar.time ≤ t) ++
          (data.frame conid).filter fun bar => ¬ bar.time ≤ t).take n := by rw [filter_append_of_sorted hsorted]
      _ = _ := List.take_append_of_le_length hn
  rw [htake data hs hn, htake data' hs' (h conid ▸ hn), h conid]

end MmrTrader.Simulation

/-!
## A backtest up to a time

* `upTo` — the state of a run when all bars up to a time have been processed.
* `trades_upTo`, `equity_upTo`, `signals_upTo` — what a run has recorded by then.
* `upTo_congr` — the state is a function of the bars up to that time.
-/

namespace MmrTrader.Simulation

open Lib

variable {X S R : Type} (cfg : Config X R)

def upTo (strategy : Strategy X S) (data : Data X) (t : Int) : Loop X S R :=
  runGroups cfg strategy data ((timeline data).filter fun g => g.time ≤ t)

theorem timeline_split (data : Data X) (t : Int) :
    ((timeline data).filter fun g => g.time ≤ t) ++ ((timeline data).filter fun g => ¬ g.time ≤ t) = timeline data :=
  filter_append_of_sorted ((timeline_sorted data).imp fun h => h.le) t

/-! ## What a turn records -/

def Grown (time : Int) (a a' : Account X) : Prop :=
  (∃ new, a'.trades = a.trades ++ new ∧ ∀ t ∈ new, t.timestamp = time) ∧ a.signals <+: a'.signals

theorem Grown.refl (time : Int) (a : Account X) : Grown time a a := ⟨⟨[], by simp⟩, List.prefix_rfl⟩

theorem Grown.append {time : Int} {a₀ a a' : Account X} (h : Grown time a₀ a) {t : Trade} (htrades : a'.trades = a.trades ++ [t])
    (htime : t.timestamp = time) (hsignals : a.signals <+: a'.signals) : Grown time a₀ a' := by
  obtain ⟨⟨new, hnew, htimes⟩, hold⟩ := h
  refine ⟨⟨new ++ [t], by rw [htrades, hnew, List.append_assoc], fun t' ht' => ?_⟩, hold.trans hsignals⟩
  rcases List.mem_append.mp ht' with ht' | ht'
  · exact htimes t' ht'
  · rw [List.mem_singleton.mp ht', htime]

theorem signals_sell (a : Account X) (conid : Int) (quantity price commission : ℚ) :
    (a.sell conid quantity price commission).signals = a.signals := by
  unfold Account.sell
  simp only
  split_ifs <;> rfl

theorem Grown.kept (time : Int) (a₀ : Account X) : Kept cfg time (Grown time a₀) where
  execute a market signal conid decidedAt reference basis h := by
    have hlogged : a.signals <+: (a.logSignal signal conid decidedAt).signals := List.prefix_append _ _
    have hcases := executed cfg market a signal conid decidedAt time reference basis
    generalize executeSignal cfg market a signal conid decidedAt time reference basis = a' at hcases ⊢
    cases hcases with
    | skipped blocks => exact ⟨h.1, h.2.trans hlogged⟩
    | bought quantity price commission haction hpos hcost => exact h.append (trades_record _ _ _ _ _ _ _ _ _ _) rfl hlogged
    | sold quantity price commission haction hpos hheld =>
      refine h.append (by rw [trades_record, trades_sell]; rfl) rfl ?_
      rw [Account.record, signals_sell]
      exact hlogged
    | neutral quantity price commission haction hpos => exact h.append (trades_record _ _ _ _ _ _ _ _ _ _) rfl hlogged
  conditions a conditions h := h

theorem grown_bar (strategy : Strategy X S) (data : Data X) (l : Loop X S R) (g : Group X) :
    Grown g.time l.account (l.bar cfg strategy data g).account :=
  (Grown.kept cfg g.time l.account).bar strategy data (.refl g.time l.account)

variable (strategy : Strategy X S) (data : Data X) {t : Int}

theorem recorded_before (gs : List (Group X)) (h : ∀ g ∈ gs, g.time ≤ t) :
    (∀ trade ∈ (runGroups cfg strategy data gs).account.trades, trade.timestamp ≤ t) ∧
      ∀ point ∈ (runGroups cfg strategy data gs).equity, point.1 ≤ t := by
  induction gs using List.reverseRecOn with
  | nil => exact ⟨by simp [runGroups, Loop.start, Account.trades], by simp [runGroups, Loop.start]⟩
  | append_singleton gs g ih =>
    obtain ⟨htrades, hequity⟩ := ih fun g' hg' => h g' (List.mem_append_left _ hg')
    have hg := h g (by simp)
    constructor
    · rw [runGroups_append]
      obtain ⟨⟨new, hnew, htimes⟩, _⟩ := grown_bar cfg strategy data (runGroups cfg strategy data gs) g
      intro trade htrade
      rw [hnew] at htrade
      rcases List.mem_append.mp htrade with htrade | htrade
      · exact htrades trade htrade
      · exact (htimes trade htrade).le.trans hg
    · intro point hpoint
      rw [equity_run] at hpoint
      rcases List.mem_append.mp hpoint with hpoint | hpoint
      · exact hequity point hpoint
      · split_ifs at hpoint
        · cases hpoint
        · rw [List.mem_singleton.mp hpoint]
          exact hg

theorem recorded_later (gs more : List (Group X)) (h : ∀ g ∈ more, t < g.time) :
    ((runGroups cfg strategy data (gs ++ more)).account.trades.filter fun trade => trade.timestamp ≤ t) =
        ((runGroups cfg strategy data gs).account.trades.filter fun trade => trade.timestamp ≤ t) ∧
      ((runGroups cfg strategy data (gs ++ more)).equity.filter fun point => point.1 ≤ t) =
        ((runGroups cfg strategy data gs).equity.filter fun point => point.1 ≤ t) ∧
      (runGroups cfg strategy data gs).account.signals <+: (runGroups cfg strategy data (gs ++ more)).account.signals := by
  induction more using List.reverseRecOn with
  | nil => simp
  | append_singleton more g ih =>
    obtain ⟨htrades, hequity, hsignals⟩ := ih fun g' hg' => h g' (List.mem_append_left _ hg')
    have hg := h g (by simp)
    rw [← List.append_assoc]
    refine ⟨?_, ?_, ?_⟩
    · rw [runGroups_append]
      obtain ⟨⟨new, hnew, htimes⟩, _⟩ := grown_bar cfg strategy data (runGroups cfg strategy data (gs ++ more)) g
      have hnone : (new.filter fun trade => decide (trade.timestamp ≤ t)) = [] :=
        List.filter_eq_nil_iff.mpr fun trade htrade => by simp [htimes trade htrade, hg]
      rw [hnew, List.filter_append, hnone, List.append_nil, htrades]
    · rw [equity_run, List.filter_append, hequity]
      split_ifs
      · simp
      · simp [hg]
    · rw [runGroups_append]
      exact hsignals.trans (grown_bar cfg strategy data _ g).2

theorem recorded_upTo (t : Int) :
    ((run cfg strategy data).account.trades.filter fun trade => trade.timestamp ≤ t) = (upTo cfg strategy data t).account.trades ∧
      ((run cfg strategy data).equity.filter fun point => point.1 ≤ t) = (upTo cfg strategy data t).equity ∧
      (upTo cfg strategy data t).account.signals <+: (run cfg strategy data).account.signals := by
  have hbefore := recorded_before (t := t) cfg strategy data ((timeline data).filter fun g => g.time ≤ t)
    fun g hg => by simpa using (List.mem_filter.mp hg).2
  have hlater := recorded_later (t := t) cfg strategy data ((timeline data).filter fun g => g.time ≤ t)
    ((timeline data).filter fun g => ¬ g.time ≤ t) fun g hg => by simpa using (List.mem_filter.mp hg).2
  rw [timeline_split] at hlater
  exact ⟨hlater.1.trans (List.filter_eq_self.mpr fun trade htrade => by simpa using hbefore.1 trade htrade),
    hlater.2.1.trans (List.filter_eq_self.mpr fun point hpoint => by simpa using hbefore.2 point hpoint), hlater.2.2⟩

/-! ## Two inputs -/

/-- As many bars of a conid are known as it has had moments. -/
theorem barIndex_run (gs : List (Group X)) (c : Int) :
    (runGroups cfg strategy data gs).barIndex c = ((gs.filter fun g => (g.rows? c).isSome).length : Int) - 1 := by
  induction gs using List.reverseRecOn with
  | nil => rfl
  | append_singleton gs g ih =>
    obtain ⟨before, after, hbefore, hafter, hbar⟩ := bar_market cfg strategy data (runGroups cfg strategy data gs) g
    have hindex : ((runGroups cfg strategy data gs).bar cfg strategy data g).barIndex = after.barIndex := by
      rw [hbar]
      split_ifs <;> rfl
    rw [runGroups_append, hindex, hafter.barIndex, (accumulate_conid g before c).2.2, hbefore.barIndex, ih, List.filter_append,
      List.length_append]
    cases hrows : g.rows? c <;> simp [hrows]

variable {data}

theorem runStrategy_congr (strategy : Strategy X Unit) {data' : Data X} (warming : Bool) (g : Group X) (l : Loop X Unit R)
    (h : ∀ bar ∈ g.bars.rows, (data.frame bar.1).take (l.barIndex bar.1 + 1).toNat =
      (data'.frame bar.1).take (l.barIndex bar.1 + 1).toNat) :
    l.runStrategy cfg strategy data warming g = l.runStrategy cfg strategy data' warming g := by
  unfold Loop.runStrategy
  generalize g.bars.rows = bars at h
  induction bars generalizing l with
  | nil => rfl
  | cons bar bars ih =>
    have hone : l.runOne cfg strategy data warming g bar = l.runOne cfg strategy data' warming g bar := by
      simp only [Loop.runOne, h bar List.mem_cons_self]
    rw [List.foldl_cons, List.foldl_cons, ← hone]
    refine ih _ fun bar' hbar' => ?_
    rw [(runOne_market cfg strategy data warming g l bar).barIndex]
    exact h bar' (List.mem_cons_of_mem _ hbar')

/-- One turn, on two inputs that agree on the bars so far. -/
theorem bar_congr (strategy : Strategy X Unit) {data' : Data X} (l : Loop X Unit R) (g : Group X)
    (h : ∀ c, (g.rows? c).isSome → (data.frame c).take (l.barIndex c + 2).toNat = (data'.frame c).take (l.barIndex c + 2).toNat) :
    l.bar cfg strategy data g = l.bar cfg strategy data' g := by
  have hstrategy : ∀ (warming : Bool) (before : Loop X Unit R), before.barIndex = l.barIndex →
      ((before.accumulate g).checkExits cfg g).runStrategy cfg strategy data warming g =
        ((before.accumulate g).checkExits cfg g).runStrategy cfg strategy data' warming g := by
    intro warming before hbefore
    refine runStrategy_congr cfg strategy warming g _ fun bar hbar => ?_
    have hrows : g.rows? bar.1 = some bar.2 := Group.rows?_eq_some.mpr hbar
    have hindex : ((before.accumulate g).checkExits cfg g).barIndex bar.1 + 1 = l.barIndex bar.1 + 2 := by
      rw [(checkExits_market cfg g _).barIndex, (accumulate_conid g before bar.1).2.2, hrows, hbefore]
      simp only [Option.isSome_some, if_true]
      omega
    rw [hindex]
    exact h bar.1 (by simp [hrows])
  unfold Loop.bar
  split_ifs
  · exact hstrategy true l rfl
  · rw [hstrategy false _ (by rw [(fillPending_frame cfg g _).1.barIndex, (flatten_frame cfg g l).1.barIndex])]

/-- The same moments, with the same bars to be seen at each of them. -/
theorem runGroups_congr (strategy : Strategy X Unit) {data' : Data X} (gs : List (Group X))
    (h : ∀ c n, n ≤ (gs.filter fun g => (g.rows? c).isSome).length → (data.frame c).take n = (data'.frame c).take n) :
    runGroups cfg strategy data gs = runGroups cfg strategy data' gs := by
  induction gs using List.reverseRecOn with
  | nil => rfl
  | append_singleton gs g ih =>
    have hsame := ih fun c n hn => h c n (hn.trans (by simp))
    rw [runGroups_append, runGroups_append, ← hsame]
    refine bar_congr cfg strategy _ g fun c hsome => ?_
    rw [barIndex_run]
    refine h c _ ?_
    have hone : ([g].filter fun g => (g.rows? c).isSome).length = 1 := by simp [hsome]
    rw [List.filter_append, List.length_append, hone]
    omega

/-- The state up to `t` is a function of the bars up to `t`. -/
theorem upTo_congr (strategy : Strategy X Unit) {data' : Data X} (h : SameUpTo t data data') (hs : data.Sorted)
    (hs' : data'.Sorted) : upTo cfg strategy data t = upTo cfg strategy data' t := by
  unfold upTo
  rw [← timeline_upTo h]
  refine runGroups_congr cfg strategy _ fun c n hn => take_frame_upTo h hs hs' c (hn.trans ?_)
  exact moments_le List.filter_sublist (fun g hg => by simpa using (List.mem_filter.mp hg).2) c

end MmrTrader.Simulation
