import MmrTrader.Simulation.Turns

/-!
# The time exits of a backtest

An exit that has triggered is a `SELL` of the whole position, the first of its conid in the queue; the next bar of the
conid fills it.

* `AtMost` — a conid was bought since its exit has triggered, or is held up to some quantity; `AtMost.kept`.
* `Exits` — what waits for the next open; one lemma for each part of a turn, then `Exits.bar`.
* `AtClose` — the exits that are filled at the close; `Idle` — nothing has been bought.
* `Due` — the invariant of a run, `due_run`; `sold_at_next_bar` — what has triggered is sold at the next bar.
-/

namespace MmrTrader.Simulation

open Lib

variable {X S R : Type} {cfg : Config X R}

/-! ## Since an exit has triggered -/

/-- The conid was bought since, or no more than `quantity` is held. -/
def AtMost (e : Triggered) (quantity : ℚ) (a : Account X) : Prop :=
  e.trades ≤ a.trades.length ∧
    ((∃ t ∈ a.trades.drop e.trades, t.action = .BUY ∧ t.conid = e.conid) ∨ a.held e.conid ≤ quantity)

variable {e : Triggered} {quantity : ℚ} {a : Account X}
variable {a' : Account X}

theorem AtMost.append (h : AtMost e quantity a) {t : Trade} (htrades : a'.trades = a.trades ++ [t])
    (hheld : t.action = .BUY ∧ t.conid = e.conid ∨ a'.held e.conid ≤ a.held e.conid) : AtMost e quantity a' := by
  obtain ⟨hlength, h⟩ := h
  refine ⟨by rw [htrades, List.length_append]; omega, ?_⟩
  rw [htrades, List.drop_append_of_le_length hlength]
  rcases h with ⟨t', ht', hbuy⟩ | hle
  · exact .inl ⟨t', List.mem_append_left _ ht', hbuy⟩
  · rcases hheld with hbuy | hless
    · exact .inl ⟨t, List.mem_append_right _ (List.mem_singleton.mpr rfl), hbuy⟩
    · exact .inr (hless.trans hle)

theorem AtMost.same (h : AtMost e quantity a) (htrades : a'.trades = a.trades)
    (hpositions : a'.positions = a.positions) : AtMost e quantity a' := by
  unfold AtMost Account.held at h ⊢
  rw [htrades, hpositions]
  exact h

theorem AtMost.execute (h : AtMost e quantity a) (market : Market R)
    (signal : Signal) (conid decidedAt barTime : Int) (reference : Bar X) (basis : ℚ) :
    AtMost e quantity (executeSignal cfg market a signal conid decidedAt barTime reference basis) := by
  have hcases := executed cfg market a signal conid decidedAt barTime reference basis
  generalize executeSignal cfg market a signal conid decidedAt barTime reference basis = a' at hcases ⊢
  cases hcases with
  | skipped blocks => exact h.same rfl rfl
  | bought quantity' price commission haction hpos hcost =>
    refine h.append (trades_record _ _ _ _ _ _ _ _ _ _) ?_
    rw [held_record, held_buy]
    split_ifs with hc
    · exact .inl ⟨haction, hc⟩
    · exact .inr le_rfl
  | sold quantity' price commission haction hpos hheld =>
    refine h.append (by rw [trades_record, trades_sell]; rfl) (.inr ?_)
    rw [held_record, held_sell]
    split_ifs with hc
    · subst hc
      simp only [held_logSignal]
      linarith
    · exact le_rfl
  | neutral quantity' price commission haction hpos => exact h.append (trades_record _ _ _ _ _ _ _ _ _ _) (.inr le_rfl)

variable {time : Int}

theorem AtMost.kept (cfg : Config X R) (e : Triggered) (quantity : ℚ) :
    Kept cfg time (AtMost e quantity (X := X)) where
  execute _ _ _ _ _ _ _ h := h.execute _ _ _ _ _ _ _
  conditions _ _ h := h.same rfl rfl

variable {signal : Signal} {conid : Int} {basis : ℚ}

/-- A `SELL` of all that is held leaves nothing. -/
theorem sold_all (hheld : a.held conid ≤ signal.quantity)
    (haction : signal.action = .SELL) (hquantity : 0 < signal.quantity) (hbasis : 0 < basis) (market : Market R)
    (decidedAt barTime : Int) (reference : Bar X) :
    (executeSignal cfg market a signal conid decidedAt barTime reference basis).held conid ≤ 0 := by
  have hasked : Account.quantityOf cfg (a.logSignal signal conid decidedAt) signal conid basis = signal.quantity :=
    if_pos hquantity
  unfold executeSignal
  simp only [hasked, haction]
  rw [if_neg (not_or.mpr ⟨not_le.mpr hbasis, not_le.mpr hquantity⟩)]
  split_ifs with hnone
  · exact hnone
  · rw [held_record, held_sell, if_pos rfl, held_logSignal, min_eq_right hheld, sub_self]

theorem AtMost.sold (h : AtMost e signal.quantity a)
    (haction : signal.action = .SELL) (hquantity : 0 < signal.quantity) (hbasis : 0 < basis) (market : Market R)
    (decidedAt barTime : Int) (reference : Bar X) :
    AtMost e 0 (executeSignal cfg market a signal e.conid decidedAt barTime reference basis) := by
  rcases h.2 with hbought | hheld
  · exact AtMost.execute ⟨h.1, .inl hbought⟩ market signal e.conid decidedAt barTime reference basis
  · exact ⟨(h.execute market signal e.conid decidedAt barTime reference basis).1,
      .inr (sold_all hheld haction hquantity hbasis market decidedAt barTime reference)⟩

/-! ## What waits for the next open -/

def Source.isTimeExit : Source → Bool
  | .timeExit _ => true
  | _ => false

def Loop.exitsWaiting (l : Loop X S R) (conid : Int) : Nat :=
  l.pending.countP fun p => p.conid = conid && p.signal.source.isTimeExit

def Waiting (e : Triggered) (l : Loop X S R) : Prop :=
  ∃ p, l.pending.find? (fun p => p.conid = e.conid) = some p ∧ p.signal.action = .SELL ∧ 0 < p.signal.quantity ∧
    AtMost e p.signal.quantity l.account

structure Exits (l : Loop X S R) : Prop where
  one : ∀ c, l.exitsWaiting c ≤ 1
  due : ∀ e ∈ l.triggered, AtMost e 0 l.account ∨ Waiting e l

theorem find?_filter_of_keeps {α : Type} {p q : α → Bool} {l : List α} {a : α} (h : l.find? p = some a) (hq : q a = true) :
    (l.filter q).find? p = some a := by
  obtain ⟨hp, before, after, rfl, hbefore⟩ := List.find?_eq_some_iff_append.mp h
  rw [List.filter_append, List.filter_cons_of_pos hq]
  exact List.find?_eq_some_iff_append.mpr ⟨hp, _, _, rfl, fun b hb => hbefore b (List.mem_filter.mp hb).1⟩

variable {l l' : Loop X S R}

/-- The account has gone on, and the queue has kept its first `SELL`s. -/
theorem Waiting.moved (h : Waiting e l) {k : Pending → Bool} {more : List Pending}
    (haccount : ∀ quantity, AtMost e quantity l.account → AtMost e quantity l'.account)
    (hpending : l'.pending = l.pending.filter k ++ more)
    (hkeep : ∀ p, p.conid = e.conid → p.signal.action = .SELL → k p = true) : Waiting e l' := by
  obtain ⟨p, hfind, haction, hquantity, hmost⟩ := h
  have hconid : p.conid = e.conid := by simpa using List.find?_some hfind
  refine ⟨p, ?_, haction, hquantity, haccount _ hmost⟩
  rw [hpending, List.find?_append, find?_filter_of_keeps hfind (hkeep p hconid haction)]
  rfl

theorem Exits.moved (h : Exits l) (keep : Pending → Bool) (more : List Pending)
    (haccount : ∀ e quantity, AtMost e quantity l.account → AtMost e quantity l'.account)
    (hpending : l'.pending = l.pending.filter keep ++ more) (htriggered : l'.triggered = l.triggered)
    (hmore : ∀ p ∈ more, p.signal.source.isTimeExit = false)
    (hkeep : ∀ e ∈ l.triggered, AtMost e 0 l'.account ∨ ∀ p, p.conid = e.conid → p.signal.action = .SELL → keep p = true) :
    Exits l' := by
  refine ⟨fun c => ?_, fun e he => ?_⟩
  · have hnone : more.countP (fun p => p.conid = c && p.signal.source.isTimeExit) = 0 :=
      List.countP_eq_zero.mpr fun p hp => by simp [hmore p hp]
    rw [Loop.exitsWaiting, hpending, List.countP_append, hnone]
    exact (List.filter_sublist.countP_le).trans (h.one c)
  · rw [htriggered] at he
    rcases h.due e he with hsettled | hwaiting
    · exact .inl (haccount e 0 hsettled)
    · exact (hkeep e he).imp id fun hkeep => hwaiting.moved (haccount e) hpending hkeep

theorem Exits.flatten (h : Exits l) (cfg : Config X R) (g : Group X) : Exits (l.flatten cfg g) := by
  obtain ⟨_, htriggered, hpending⟩ := flatten_frame cfg g l
  have haccount : ∀ e quantity, AtMost e quantity l.account → AtMost e quantity (l.flatten cfg g).account :=
    fun e quantity hmost => (AtMost.kept cfg e quantity).flatten hmost
  rcases hpending with hpending | hpending
  · exact h.moved (fun _ => true) [] haccount (by simpa using hpending) htriggered (by simp)
      fun _ _ => .inr fun _ _ _ => rfl
  · exact h.moved _ [] haccount (by simpa using hpending) htriggered (by simp)
      fun _ _ => .inr fun p _ haction => by simp [haction]

variable {g : Group X}

theorem Waiting.filled (h : Waiting e l) (hpolicy : cfg.fillPolicy = "next_open") {rows : Rows X}
    (hrows : g.rows? e.conid = some rows) (hprice : 0 < rows.first.openPrice) : AtMost e 0 (l.fillPending cfg g).account := by
  obtain ⟨p, hfind, haction, hquantity, hmost⟩ := h
  have hconid : p.conid = e.conid := by simpa using List.find?_some hfind
  obtain ⟨_, before, after, hqueue, _⟩ := List.find?_eq_some_iff_append.mp hfind
  have hkept : ∀ (quantity : ℚ) (queue : List Pending) (l : Loop X S R), AtMost e quantity l.account →
      AtMost e quantity (queue.foldl (Loop.fillOne cfg g) l).account := fun quantity queue l hl =>
    List.foldlRecOn (motive := fun l : Loop X S R => AtMost e quantity l.account) queue _ hl
      fun _ hl p _ => (AtMost.kept cfg e quantity).fillOne hl p
  unfold Loop.fillPending
  rw [if_pos hpolicy, hqueue, List.foldl_append, List.foldl_cons]
  refine hkept 0 after _ ?_
  have hreached := hkept p.signal.quantity before { l with pending := [] } hmost
  generalize before.foldl (Loop.fillOne cfg g) { l with pending := [] } = l' at hreached ⊢
  unfold Loop.fillOne
  rw [hconid, hrows]
  exact hreached.sold haction hquantity hprice _ _ _ _

theorem Exits.fillPending (h : Exits l) (hpolicy : cfg.fillPolicy = "next_open")
    (hpriced : ∀ c rows, g.rows? c = some rows → 0 < rows.first.openPrice) :
    Exits (l.fillPending cfg g) ∧
      ∀ e ∈ l.triggered, (g.rows? e.conid).isSome → AtMost e 0 (l.fillPending cfg g).account := by
  obtain ⟨_, htriggered, hpending⟩ := fillPending_frame cfg g l
  rw [if_pos hpolicy] at hpending
  have haccount : ∀ e quantity, AtMost e quantity l.account → AtMost e quantity (l.fillPending cfg g).account :=
    fun e quantity hmost => (AtMost.kept cfg e quantity).fillPending hmost
  have hsold : ∀ e ∈ l.triggered, (g.rows? e.conid).isSome → AtMost e 0 (l.fillPending cfg g).account := by
    intro e he hsome
    obtain ⟨rows, hrows⟩ := Option.isSome_iff_exists.mp hsome
    rcases h.due e he with hsettled | hwaiting
    · exact haccount e 0 hsettled
    · exact hwaiting.filled hpolicy hrows (hpriced _ _ hrows)
  refine ⟨h.moved _ [] haccount (by simpa using hpending) htriggered (by simp) fun e he => ?_, hsold⟩
  cases hrows : g.rows? e.conid with
  | none => exact .inr fun p hconid _ => by simp [hconid, hrows]
  | some rows => exact .inl (hsold e he (by simp [hrows]))

theorem Exits.same (h : Exits l) (htrades : l'.account.trades = l.account.trades)
    (hpositions : l'.account.positions = l.account.positions) (hpending : l'.pending = l.pending)
    (htriggered : l'.triggered = l.triggered) : Exits l' :=
  h.moved (fun _ => true) [] (fun _ _ hmost => hmost.same htrades hpositions) (by simpa using hpending) htriggered (by simp)
    fun _ _ => .inr fun _ _ _ => rfl

theorem Exits.trigger (h : Exits l) (hfree : ∀ p ∈ l.pending, p.conid ≠ conid) (hheld : 0 < l.account.held conid)
    (reason : ExitReason) (time : Int) (htrades : l'.account.trades = l.account.trades)
    (hpositions : l'.account.positions = l.account.positions)
    (hpending : l'.pending = l.pending ++ [⟨exitSignal reason (l.account.held conid), conid, time⟩])
    (htriggered : l'.triggered = l.triggered ++ [⟨time, conid, l.account.trades.length⟩]) : Exits l' := by
  have haccount : ∀ e quantity, AtMost e quantity l.account → AtMost e quantity l'.account :=
    fun e quantity hmost => hmost.same htrades hpositions
  refine ⟨fun c => ?_, fun e he => ?_⟩
  · rw [Loop.exitsWaiting, hpending, List.countP_append, List.countP_singleton]
    by_cases hc : conid = c
    · subst hc
      have hnone : l.pending.countP (fun p => p.conid = conid && p.signal.source.isTimeExit) = 0 :=
        List.countP_eq_zero.mpr fun p hp => by simp [hfree p hp]
      rw [hnone]
      split_ifs <;> omega
    · have hold := h.one c
      rw [Loop.exitsWaiting] at hold
      simpa [hc] using hold
  · rw [htriggered] at he
    rcases List.mem_append.mp he with he | he
    · rcases h.due e he with hsettled | hwaiting
      · exact .inl (haccount e 0 hsettled)
      · exact .inr (hwaiting.moved (k := fun _ => true) (haccount e) (by simpa using hpending) fun _ _ _ => rfl)
    · obtain rfl := List.mem_singleton.mp he
      refine .inr ⟨⟨exitSignal reason (l.account.held conid), conid, time⟩, ?_, rfl, hheld,
        haccount _ _ ⟨le_rfl, .inr le_rfl⟩⟩
      have hnone : l.pending.find? (fun p => decide (p.conid = conid)) = none :=
        List.find?_eq_none.mpr fun p hp => by simpa using hfree p hp
      simp [hpending, List.find?_append, hnone]

/-- Part 2b; `conids` are still to be checked. -/
theorem Exits.checkAll (hpolicy : cfg.fillPolicy ≠ "same_close") (g : Group X) (conids : List Int) (hnodup : conids.Nodup)
    {l : Loop X S R} (h : Exits l) (hfree : ∀ c ∈ conids, (g.rows? c).isSome → ∀ p ∈ l.pending, p.conid ≠ c) :
    Exits (conids.foldl (Loop.checkExit cfg g) l) := by
  induction conids generalizing l with
  | nil => exact h
  | cons c conids ih =>
    obtain ⟨hc, hnodup⟩ := List.nodup_cons.mp hnodup
    rw [List.foldl_cons]
    have hcases := checked cfg g l c
    generalize l.checkExit cfg g c = l' at hcases ⊢
    cases hcases with
    | quiet conditions =>
      exact ih hnodup (h.same rfl rfl rfl rfl) fun c' hc' => hfree c' (List.mem_cons_of_mem _ hc')
    | exit conditions rows reason hrows hheld =>
      rw [take_queued hpolicy]
      refine ih hnodup (h.trigger (hfree c List.mem_cons_self (by simp [hrows])) hheld reason g.time rfl rfl rfl rfl) ?_
      intro c' hc' hsome p hp
      rcases List.mem_append.mp hp with hp | hp
      · exact hfree c' (List.mem_cons_of_mem _ hc') hsome p hp
      · rw [List.mem_singleton.mp hp]
        rintro rfl
        exact hc hc'

theorem Exits.runStrategy (h : Exits l) (hpolicy : cfg.fillPolicy ≠ "same_close") (strategy : Strategy X S) (data : Data X)
    (warming : Bool) (g : Group X) : Exits (l.runStrategy cfg strategy data warming g) := by
  refine List.foldlRecOn (motive := Exits) g.bars.rows _ h fun l' h bar _ => ?_
  have hcases := ran cfg strategy data warming g l' bar
  generalize l'.runOne cfg strategy data warming g bar = l'' at hcases ⊢
  cases hcases with
  | quiet calls dropped => exact h.same rfl rfl rfl rfl
  | signal calls name body hlive =>
    rw [take_queued hpolicy]
    refine h.moved (fun _ => true) [⟨{ body with source := .strategy name }, bar.1, g.time⟩] (fun _ _ hmost => hmost)
      (by simp) rfl (fun p hp => ?_) fun _ _ => .inr fun _ _ _ => rfl
    rw [List.mem_singleton.mp hp]
    rfl

theorem Exits.bar (h : Exits l) (hpolicy : cfg.fillPolicy = "next_open") (strategy : Strategy X S) (data : Data X)
    (hlive : cfg.warming g.time = false) (hpriced : ∀ c rows, g.rows? c = some rows → 0 < rows.first.openPrice) :
    Exits (l.bar cfg strategy data g) ∧
      ∀ e ∈ l.triggered, (g.rows? e.conid).isSome → AtMost e 0 (l.bar cfg strategy data g).account := by
  have hopen : cfg.fillPolicy ≠ "same_close" := by
    rw [hpolicy]
    decide
  have hflatten := (flatten_frame cfg g l).2.1
  obtain ⟨hfilled, hsold⟩ := (h.flatten cfg g).fillPending hpolicy hpriced
  have hpending := (fillPending_frame cfg g (l.flatten cfg g)).2.2
  rw [if_pos hpolicy] at hpending
  rw [hflatten] at hsold
  unfold Loop.bar
  rw [if_neg (by simp [hlive])]
  generalize (l.flatten cfg g).fillPending cfg g = filled at hfilled hsold hpending
  obtain ⟨haccount, hqueue, htriggered⟩ := accumulate_frame g filled
  have hfree : ∀ c, (g.rows? c).isSome → ∀ p ∈ (filled.accumulate g).pending, p.conid ≠ c := by
    rintro c hsome p hp rfl
    rw [hqueue, hpending] at hp
    simp [of_decide_eq_true (List.mem_filter.mp hp).2] at hsome
  have haccumulated : Exits (filled.accumulate g) :=
    hfilled.same (by rw [haccount]) (by rw [haccount]) hqueue htriggered
  have hchecked := haccumulated.checkAll hopen g _ (filled.accumulate g).account.exitConditions.nodup fun c _ => hfree c
  refine ⟨(hchecked.runStrategy hopen strategy data false g).same rfl rfl rfl rfl, fun e he hsome => ?_⟩
  have hkept : Kept cfg g.time (AtMost e 0 (X := X)) := AtMost.kept cfg e 0
  have hsettled : AtMost e 0 (filled.accumulate g).account := haccount.symm ▸ hsold e he hsome
  exact hkept.runStrategy strategy data false (hkept.checkExits hsettled)

/-! ## Exits at the close -/

structure AtClose (l : Loop X S R) : Prop where
  none : ∀ p ∈ l.pending, p.signal.source.isTimeExit = false
  sold : ∀ e ∈ l.triggered, AtMost e 0 l.account

theorem AtClose.exits (h : AtClose l) : Exits l where
  one c := by
    rw [Loop.exitsWaiting, List.countP_eq_zero.mpr fun p hp => by simp [h.none p hp]]
    omega
  due e he := .inl (h.sold e he)

theorem AtClose.moved (h : AtClose l) (haccount : ∀ e quantity, AtMost e quantity l.account → AtMost e quantity l'.account)
    (hpending : ∀ p ∈ l'.pending, p ∈ l.pending) (htriggered : l'.triggered = l.triggered) : AtClose l' where
  none p hp := h.none p (hpending p hp)
  sold e he := haccount e 0 (h.sold e (htriggered ▸ he))

theorem AtClose.checkAll (hpolicy : cfg.fillPolicy = "same_close") (g : Group X) (conids : List Int) {l : Loop X S R}
    (h : AtClose l) (hpriced : ∀ c, (g.rows? c).isSome → 0 < l.lastPrices c) :
    AtClose (conids.foldl (Loop.checkExit cfg g) l) := by
  induction conids generalizing l with
  | nil => exact h
  | cons c conids ih =>
    rw [List.foldl_cons]
    have hmarket := checkExit_market cfg g l c
    refine ih ?_ fun c' hsome => hmarket.lastPrices ▸ hpriced c' hsome
    have hcases := checked cfg g l c
    generalize l.checkExit cfg g c = l' at hcases ⊢
    cases hcases with
    | quiet conditions => exact h.moved (fun _ _ hmost => hmost.same rfl rfl) (fun _ hp => hp) rfl
    | exit conditions rows reason hrows hheld =>
      obtain ⟨_, htriggered, hpending⟩ := take_frame cfg g { l with
        account := { l.account with exitConditions := conditions }
        triggered := l.triggered ++ [⟨g.time, c, l.account.trades.length⟩] }
        (exitSignal reason (l.account.held c)) c rows
      rw [if_pos hpolicy] at hpending
      refine ⟨fun p hp => h.none p (hpending ▸ hp), fun e he => ?_⟩
      rw [htriggered] at he
      rcases List.mem_append.mp he with he | he
      · apply (AtMost.kept cfg e 0).take
        exact (h.sold e he).same rfl rfl
      · obtain rfl := List.mem_singleton.mp he
        unfold Loop.take
        rw [if_pos hpolicy]
        dsimp only
        exact AtMost.sold ⟨le_rfl, .inr le_rfl⟩ rfl hheld (hpriced c (by simp [hrows])) _ _ _ _

theorem AtClose.runStrategy (h : AtClose l) (hpolicy : cfg.fillPolicy = "same_close") (strategy : Strategy X S) (data : Data X)
    (warming : Bool) (g : Group X) : AtClose (l.runStrategy cfg strategy data warming g) := by
  refine List.foldlRecOn (motive := AtClose) g.bars.rows _ h fun l' h bar _ => ?_
  have haccount : ∀ e quantity, AtMost e quantity l'.account →
      AtMost e quantity (l'.runOne cfg strategy data warming g bar).account :=
    fun e quantity hmost => (AtMost.kept cfg e quantity).runOne strategy data warming hmost bar
  have hcases := ran cfg strategy data warming g l' bar
  generalize l'.runOne cfg strategy data warming g bar = l'' at hcases haccount ⊢
  cases hcases with
  | quiet calls dropped => exact h.moved haccount (fun _ hp => hp) rfl
  | signal calls name body hlive =>
    obtain ⟨_, htriggered, hpending⟩ :=
      take_frame cfg g { l' with calls := calls } { body with source := .strategy name } bar.1 bar.2
    rw [if_pos hpolicy] at hpending
    exact h.moved haccount (fun p hp => hpending ▸ hp) htriggered

theorem AtClose.bar (h : AtClose l) (hpolicy : cfg.fillPolicy = "same_close") (strategy : Strategy X S) (data : Data X)
    (hlive : cfg.warming g.time = false) (hpriced : ∀ c rows, g.rows? c = some rows → 0 < rows.last.close) :
    AtClose (l.bar cfg strategy data g) := by
  have hopen : cfg.fillPolicy ≠ "next_open" := by
    rw [hpolicy]
    decide
  have hflatten : AtClose (l.flatten cfg g) := by
    obtain ⟨_, htriggered, hpending⟩ := flatten_frame cfg g l
    refine h.moved (fun e quantity hmost => (AtMost.kept cfg e quantity).flatten hmost) (fun p hp => ?_) htriggered
    rcases hpending with hpending | hpending
    · exact hpending ▸ hp
    · rw [hpending] at hp
      exact (List.mem_filter.mp hp).1
  have hfill : (l.flatten cfg g).fillPending cfg g = l.flatten cfg g := if_neg hopen
  unfold Loop.bar
  rw [if_neg (by simp [hlive]), hfill]
  generalize l.flatten cfg g = flattened at hflatten
  obtain ⟨haccount, hpending, htriggered⟩ := accumulate_frame g flattened
  have haccumulated : AtClose (flattened.accumulate g) :=
    hflatten.moved (fun e quantity hmost => haccount.symm ▸ hmost) (fun p hp => hpending ▸ hp) htriggered
  have hprices : ∀ c, (g.rows? c).isSome → 0 < (flattened.accumulate g).lastPrices c := by
    intro c hsome
    obtain ⟨rows, hrows⟩ := Option.isSome_iff_exists.mp hsome
    rw [(accumulate_conid g flattened c).1, hrows]
    exact hpriced c rows hrows
  have hchecked : AtClose ((flattened.accumulate g).checkExits cfg g) := haccumulated.checkAll hpolicy g _ hprices
  have hrun := hchecked.runStrategy hpolicy strategy data false g
  exact ⟨hrun.none, hrun.sold⟩

/-! ## Before the first purchase -/

structure Idle (l : Loop X S R) : Prop where
  positions : l.account.positions.rows = []
  triggered : l.triggered = []
  none : ∀ p ∈ l.pending, p.signal.source.isTimeExit = false

theorem Idle.atClose (h : Idle l) : AtClose l where
  none := h.none
  sold e he := by simp [h.triggered] at he

theorem Idle.held (h : Idle l) (c : Int) : l.account.held c = 0 := by
  simp [Account.held, Table.get?, h.positions]

theorem Idle.checkExits (h : Idle l) (cfg : Config X R) (g : Group X) : Idle (l.checkExits cfg g) := by
  refine List.foldlRecOn (motive := Idle) _ _ h fun l' h c _ => ?_
  have hcases := checked cfg g l' c
  generalize l'.checkExit cfg g c = l'' at hcases ⊢
  cases hcases with
  | quiet conditions => exact ⟨h.positions, h.triggered, h.none⟩
  | exit conditions rows reason hrows hheld => exact absurd (h.held c) hheld.ne'

theorem Idle.runStrategy (h : Idle l) (strategy : Strategy X S) (data : Data X) (warming : Bool)
    (hquiet : warming = true ∨ cfg.fillPolicy ≠ "same_close") (g : Group X) :
    Idle (l.runStrategy cfg strategy data warming g) := by
  refine List.foldlRecOn (motive := Idle) g.bars.rows _ h fun l' h bar _ => ?_
  have hcases := ran cfg strategy data warming g l' bar
  generalize l'.runOne cfg strategy data warming g bar = l'' at hcases ⊢
  cases hcases with
  | quiet calls dropped => exact ⟨h.positions, h.triggered, h.none⟩
  | signal calls name body hlive =>
    rw [take_queued (hquiet.resolve_left (by simp [hlive]))]
    refine ⟨h.positions, h.triggered, fun p hp => ?_⟩
    rcases List.mem_append.mp hp with hp | hp
    · exact h.none p hp
    · rw [List.mem_singleton.mp hp]
      rfl

theorem Idle.flatten (h : Idle l) (cfg : Config X R) (g : Group X) : Idle (l.flatten cfg g) := by
  have hpositions : (l.flatten cfg g).account.positions = l.account.positions := by
    unfold Loop.flatten
    split
    · simp only [h.positions, ne_eq, not_true_eq_false, false_and, if_false]
    · rfl
  obtain ⟨_, htriggered, hpending⟩ := flatten_frame cfg g l
  refine ⟨hpositions ▸ h.positions, htriggered.trans h.triggered, fun p hp => ?_⟩
  rcases hpending with hpending | hpending
  · exact h.none p (hpending ▸ hp)
  · rw [hpending] at hp
    exact h.none p (List.mem_filter.mp hp).1

theorem Idle.bar (h : Idle l) (strategy : Strategy X S) (data : Data X)
    (hquiet : cfg.warming g.time = true ∨ cfg.fillPolicy ≠ "next_open" ∧ cfg.fillPolicy ≠ "same_close") :
    Idle (l.bar cfg strategy data g) := by
  have haccumulate : ∀ l : Loop X S R, Idle l → Idle (l.accumulate g) := by
    intro l h
    obtain ⟨haccount, hpending, htriggered⟩ := accumulate_frame g l
    exact ⟨haccount.symm ▸ h.positions, htriggered.trans h.triggered, fun p hp => h.none p (hpending ▸ hp)⟩
  unfold Loop.bar
  split_ifs with hwarming
  · exact ((haccumulate l h).checkExits cfg g).runStrategy strategy data true (.inl rfl) g
  · obtain ⟨hopen, hclose⟩ := hquiet.resolve_left hwarming
    have hfill : (l.flatten cfg g).fillPending cfg g = l.flatten cfg g := if_neg hopen
    rw [hfill]
    have hrun := ((haccumulate _ (h.flatten cfg g)).checkExits cfg g).runStrategy strategy data false (.inr hclose) g
    exact ⟨hrun.positions, hrun.triggered, hrun.none⟩

/-! ## A run -/

structure Due (cfg : Config X R) (l : Loop X S R) : Prop where
  exits : cfg.fillPolicy = "next_open" → Exits l
  atClose : cfg.fillPolicy = "same_close" → AtClose l
  idle : cfg.fillPolicy ≠ "next_open" → cfg.fillPolicy ≠ "same_close" → Idle l

theorem Idle.due (h : Idle l) : Due cfg l := ⟨fun _ => h.atClose.exits, fun _ => h.atClose, fun _ _ => h⟩

theorem Due.all (h : Due cfg l) : Exits l := by
  by_cases hopen : cfg.fillPolicy = "next_open"
  · exact h.exits hopen
  by_cases hclose : cfg.fillPolicy = "same_close"
  · exact (h.atClose hclose).exits
  · exact (h.idle hopen hclose).atClose.exits

/-- Every price of a moment is positive. -/
def Group.Priced (g : Group X) : Prop := ∀ c rows, g.rows? c = some rows → 0 < rows.first.openPrice ∧ 0 < rows.last.close

theorem timeline_priced {data : Data X} (h : data.Priced) : ∀ g ∈ timeline data, g.Priced := by
  intro g hg c rows hrows
  have hmem := mem_timeline hg hrows
  obtain ⟨_, frame, hframe, _, hfirst⟩ := hmem rows.first List.mem_cons_self
  obtain ⟨_, frame', hframe', _, hlast⟩ := hmem rows.last rows.last_mem
  exact ⟨(h frame hframe _ hfirst).1, (h frame' hframe' _ hlast).2⟩

theorem warming_before {time' : Int} (h : cfg.warming time' = true) (hle : time ≤ time') : cfg.warming time = true := by
  unfold Config.warming at h ⊢
  cases hstart : cfg.tradingStart with
  | none => simp [hstart] at h
  | some start =>
    simp only [hstart, decide_eq_true_eq] at h ⊢
    omega

variable {gs : List (Group X)}

theorem idle_run (cfg : Config X R) (strategy : Strategy X S) (data : Data X)
    (hall : ∀ g ∈ gs, cfg.warming g.time = true) : Idle (runGroups cfg strategy data gs) := by
  induction gs using List.reverseRecOn with
  | nil => exact ⟨rfl, rfl, by simp [runGroups, Loop.start]⟩
  | append_singleton gs g ih =>
    rw [runGroups_append]
    exact (ih fun g' hg' => hall g' (List.mem_append_left _ hg')).bar strategy data (.inl (hall g (by simp)))

theorem warming_all (hsorted : (gs ++ [g]).Pairwise fun g g' => g.time < g'.time)
    (hwarming : cfg.warming g.time = true) : ∀ g' ∈ gs ++ [g], cfg.warming g'.time = true := by
  intro g' hg'
  rcases List.mem_append.mp hg' with hg' | hg'
  · exact warming_before hwarming ((List.pairwise_append.mp hsorted).2.2 g' hg' g (List.mem_singleton.mpr rfl)).le
  · rw [List.mem_singleton.mp hg']
    exact hwarming

theorem due_run (cfg : Config X R) (strategy : Strategy X S) (data : Data X)
    (hsorted : gs.Pairwise fun g g' => g.time < g'.time) (hpriced : ∀ g ∈ gs, g.Priced) :
    Due cfg (runGroups cfg strategy data gs) := by
  induction gs using List.reverseRecOn with
  | nil =>
    have hidle : Idle (runGroups cfg strategy data []) := ⟨rfl, rfl, by simp [runGroups, Loop.start]⟩
    exact hidle.due
  | append_singleton gs g ih =>
    cases hwarming : cfg.warming g.time with
    | true => exact (idle_run cfg strategy data (warming_all hsorted hwarming)).due
    | false =>
      have hdue := ih (List.pairwise_append.mp hsorted).1 fun g' hg' => hpriced g' (List.mem_append_left _ hg')
      have hprices := hpriced g (by simp)
      rw [runGroups_append]
      refine ⟨fun hopen => ?_, fun hclose => ?_, fun hopen hclose => ?_⟩
      · exact ((hdue.exits hopen).bar hopen strategy data hwarming fun c rows hrows => (hprices c rows hrows).1).1
      · exact (hdue.atClose hclose).bar hclose strategy data hwarming fun c rows hrows => (hprices c rows hrows).2
      · exact (hdue.idle hopen hclose).bar strategy data (.inr ⟨hopen, hclose⟩)

theorem triggered_bar (cfg : Config X R) (strategy : Strategy X S) (data : Data X) (l : Loop X S R) (g : Group X)
    (he : e ∈ l.triggered) : e ∈ (l.bar cfg strategy data g).triggered := by
  have hcheck : ∀ l : Loop X S R, e ∈ l.triggered → e ∈ (l.checkExits cfg g).triggered := by
    refine fun l he => List.foldlRecOn (motive := fun l : Loop X S R => e ∈ l.triggered) _ _ he fun l' h c _ => ?_
    have hcases := checked cfg g l' c
    generalize l'.checkExit cfg g c = l'' at hcases ⊢
    cases hcases with
    | quiet conditions => exact h
    | exit conditions rows reason hrows hheld =>
      rw [(take_frame cfg g _ _ _ _).2.1]
      exact List.mem_append_left _ h
  have hstrategy : ∀ (warming : Bool) (l : Loop X S R), e ∈ l.triggered →
      e ∈ (l.runStrategy cfg strategy data warming g).triggered := by
    refine fun warming l he => List.foldlRecOn (motive := fun l : Loop X S R => e ∈ l.triggered) g.bars.rows _ he
      fun l' h bar _ => ?_
    have hcases := ran cfg strategy data warming g l' bar
    generalize l'.runOne cfg strategy data warming g bar = l'' at hcases ⊢
    cases hcases with
    | quiet calls dropped => exact h
    | signal calls name body hlive =>
      rw [(take_frame cfg g _ _ _ _).2.1]
      exact h
  unfold Loop.bar
  split_ifs
  · exact hstrategy true _ (hcheck _ ((accumulate_frame g l).2.2.symm ▸ he))
  · have hfilled : e ∈ ((l.flatten cfg g).fillPending cfg g).triggered := by
      rw [(fillPending_frame cfg g _).2.1, (flatten_frame cfg g l).2.1]
      exact he
    exact hstrategy false _ (hcheck _ ((accumulate_frame g _).2.2.symm ▸ hfilled))

theorem triggered_run (cfg : Config X R) (strategy : Strategy X S) (data : Data X) (gs more : List (Group X))
    (he : e ∈ (runGroups cfg strategy data gs).triggered) : e ∈ (runGroups cfg strategy data (gs ++ more)).triggered := by
  induction more using List.reverseRecOn with
  | nil => simpa using he
  | append_singleton more g ih =>
    rw [← List.append_assoc, runGroups_append]
    exact triggered_bar cfg strategy data _ g ih

theorem sold_at_next_bar (cfg : Config X R) (strategy : Strategy X S) (data : Data X)
    (hsorted : (gs ++ [g]).Pairwise fun g g' => g.time < g'.time) (hpriced : ∀ g' ∈ gs ++ [g], g'.Priced)
    (he : e ∈ (runGroups cfg strategy data gs).triggered) (hsome : (g.rows? e.conid).isSome) :
    AtMost e 0 (runGroups cfg strategy data (gs ++ [g])).account := by
  have hafter := due_run cfg strategy data hsorted hpriced
  have hkept := triggered_run cfg strategy data gs [g] he
  by_cases hopen : cfg.fillPolicy = "next_open"
  · have hdue := due_run cfg strategy data (List.pairwise_append.mp hsorted).1
      fun g' hg' => hpriced g' (List.mem_append_left _ hg')
    cases hwarming : cfg.warming g.time with
    | true => simp [(idle_run cfg strategy data (warming_all hsorted hwarming)).triggered] at hkept
    | false =>
      rw [runGroups_append]
      exact ((hdue.exits hopen).bar hopen strategy data hwarming fun c rows hrows => (hpriced g (by simp) c rows hrows).1).2 e he
        hsome
  by_cases hclose : cfg.fillPolicy = "same_close"
  · exact (hafter.atClose hclose).sold e hkept
  · simp [(hafter.idle hopen hclose).triggered] at hkept

end MmrTrader.Simulation

/-!
## The books of a backtest balance

* `books_balance` — cash, shares and round trips agree with the trades after every bar, the equity points with the last
  closes, and an exit that has triggered is sold with the next bar of its conid.
-/

namespace MmrTrader.Simulation

open Lib

variable {X S R : Type}

/-- The run after the first `n` moments. -/
def afterBars (cfg : Config X R) (strategy : Strategy X S) (data : Data X) (n : Nat) : Loop X S R :=
  runGroups cfg strategy data ((timeline data).take n)

variable {n : Nat}

theorem take_succ_timeline {data : Data X} {g : Group X} (h : (timeline data)[n]? = some g) :
    (timeline data).take (n + 1) = (timeline data).take n ++ [g] := by
  rw [List.take_add_one, h]
  rfl

theorem take_split (data : Data X) {m : Nat} (h : m ≤ n) : ∃ more, (timeline data).take n = (timeline data).take m ++ more :=
  ⟨((timeline data).take n).drop m, by
    calc (timeline data).take n = ((timeline data).take n).take m ++ ((timeline data).take n).drop m :=
          (List.take_append_drop m _).symm
      _ = _ := by rw [List.take_take, min_eq_left h]⟩

/-- **The books of a backtest balance, and its time exits are sold at the next bar.** -/
theorem books_balance (cfg : Config X R) (strategy : Strategy X S) (data : Data X) (hpriced : data.Priced) :
    (∀ n, Balanced cfg.initialCapital (afterBars cfg strategy data n).account ∧
      ∀ c, (afterBars cfg strategy data n).exitsWaiting c ≤ 1) ∧
    (∀ n g, (timeline data)[n]? = some g →
      (afterBars cfg strategy data (n + 1)).equity = (afterBars cfg strategy data n).equity ++
        if cfg.warming g.time then []
        else [(g.time, (afterBars cfg strategy data (n + 1)).account.value (lastClose ((timeline data).take (n + 1))))]) ∧
    ∀ m n g e, m ≤ n → (timeline data)[n]? = some g → e ∈ (afterBars cfg strategy data m).triggered →
      (g.rows? e.conid).isSome →
      (afterBars cfg strategy data (n + 1)).account.held e.conid = 0 ∨
        ∃ t ∈ (afterBars cfg strategy data (n + 1)).account.trades.drop e.trades, t.action = .BUY ∧ t.conid = e.conid := by
  have hbalanced : ∀ n, Balanced cfg.initialCapital (afterBars cfg strategy data n).account :=
    fun n => balanced_run cfg strategy data _
  have hsorted : ∀ n, ((timeline data).take n).Pairwise fun g g' => g.time < g'.time :=
    fun n => (timeline_sorted data).sublist (List.take_sublist _ _)
  have hprices : ∀ n, ∀ g ∈ (timeline data).take n, g.Priced :=
    fun n g hg => timeline_priced hpriced g (List.mem_of_mem_take hg)
  refine ⟨fun n => ⟨hbalanced n, (due_run cfg strategy data (hsorted n) (hprices n)).all.one⟩, fun n g hg => ?_,
    fun m n g e hmn hg he hsome => ?_⟩
  · rw [afterBars, take_succ_timeline hg]
    exact equity_run cfg strategy data _ g
  · obtain ⟨more, hmore⟩ := take_split data hmn
    have hbefore : e ∈ (afterBars cfg strategy data n).triggered := by
      rw [afterBars, hmore]
      exact triggered_run cfg strategy data _ more he
    have hsold := hsorted (n + 1)
    have hall := hprices (n + 1)
    rw [take_succ_timeline hg] at hsold hall
    have hmost := sold_at_next_bar cfg strategy data hsold hall hbefore hsome
    rw [← take_succ_timeline hg] at hmost
    rcases hmost.2 with hbought | hheld
    · exact .inr hbought
    · exact .inl (le_antisymm hheld ((hbalanced (n + 1)).held_nonneg e.conid))

/-! ## A round trip -/

/-- Ten shares are bought, and sold two bars later. -/
def holdTwoBars : Strategy Unit Unit where
  precompute _ := ()
  onBar calls :=
    if calls.length = 1 then some ("hold", ⟨.BUY, 1, 0, 10, some 2, none, none⟩)
    else none

def dollarFee : Config Unit Unit where
  initialCapital := 1000
  costs := ⟨fun _ basis _ _ _ => basis, fun _ _ _ => 1⟩
  orderNotional := none
  liveRules := none
  fillPolicy := "next_open"
  tradingStart := none
  timeOfDay _ time := time

def fiveBars : Data Unit :=
  ⟨[(7, [⟨0, 10, 11, ()⟩, ⟨1, 12, 12, ()⟩, ⟨2, 13, 14, ()⟩, ⟨3, 15, 15, ()⟩, ⟨4, 14, 13, ()⟩])], by simp⟩

theorem fiveBars_priced : fiveBars.Priced := by
  simp [Data.Priced, fiveBars]

/-- The exit triggers at the third bar and is filled at the open of the fourth. -/
theorem round_trip_balances :
    fiveBars.Priced ∧ (afterBars dollarFee holdTwoBars fiveBars 3).triggered = [⟨2, 7, 1⟩] ∧
      (afterBars dollarFee holdTwoBars fiveBars 4).account.cash = 1028 ∧
      Balanced 1000 (afterBars dollarFee holdTwoBars fiveBars 4).account ∧
      ((afterBars dollarFee holdTwoBars fiveBars 4).account.held 7 = 0 ∨
        ∃ t ∈ (afterBars dollarFee holdTwoBars fiveBars 4).account.trades.drop 1, t.action = .BUY ∧ t.conid = 7) := by
  have htriggered : (afterBars dollarFee holdTwoBars fiveBars 3).triggered = [⟨2, 7, 1⟩] := by decide +kernel
  obtain ⟨hbalanced, _, hsold⟩ := books_balance dollarFee holdTwoBars fiveBars fiveBars_priced
  have hbar : ∃ g, (timeline fiveBars)[3]? = some g ∧ (g.rows? 7).isSome := by decide +kernel
  obtain ⟨g, hg, hsome⟩ := hbar
  exact ⟨fiveBars_priced, htriggered, by decide +kernel, (hbalanced 4).1,
    hsold 3 3 g ⟨2, 7, 1⟩ le_rfl hg (by rw [htriggered]; exact List.mem_singleton.mpr rfl) hsome⟩

end MmrTrader.Simulation
