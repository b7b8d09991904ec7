import MmrTrader.Scoreboard.Simulator

/-!
# The bracket simulation looks only at what happened up to the exit

* `simulateLongBracket_perm` — the order of the bars does not matter, whatever the bars are.
* `Exits` — the bars up to and including an exit bar, as a condition on these bars alone.
* `simulateUsed_of_exits`, `exits_of_complete` — a result is COMPLETE exactly through such bars.
* `bracket_looks_back` — **the exit bar, its price, and that no bar after it matters.**
-/

namespace MmrTrader.Scoreboard

variable {D : BarText} {trade : SimInput} {used bars bars' : List Bar}

/-! ## The order of the bars -/

theorem mem_usedBars {b : Bar} : b ∈ usedBars trade bars ↔
    b ∈ bars ∧ trade.firstStart ≤ b.start ∧ b.start < trade.flattenStartUtc + FLATTEN_BAR_WINDOW := by
  unfold usedBars
  rw [List.mem_insertionSort, List.mem_filter, decide_eq_true_eq]

theorem usedBars_perm (hperm : bars'.Perm bars) : (usedBars trade bars').Perm (usedBars trade bars) :=
  (List.perm_insertionSort _ _).trans ((hperm.filter _).trans (List.perm_insertionSort _ _).symm)

theorem usedBars_nodup (h : (bars.map Bar.start).Nodup) : ((usedBars trade bars).map Bar.start).Nodup :=
  ((List.perm_insertionSort _ _).map _).nodup_iff.mpr ((List.filter_sublist.map _).nodup h)

theorem usedBars_sorted : (usedBars trade bars).Pairwise fun a b => a.start ≤ b.start := by
  have : Std.Total fun a b : Bar => a.start ≤ b.start := ⟨fun a b => le_total a.start b.start⟩
  have : IsTrans Bar fun a b => a.start ≤ b.start := ⟨fun _ _ _ => le_trans⟩
  exact List.pairwise_insertionSort _ _

theorem eq_of_perm_sorted {xs ys : List Bar} (hperm : xs.Perm ys) (hnodup : (ys.map Bar.start).Nodup)
    (hx : xs.Pairwise fun a b => a.start ≤ b.start) (hy : ys.Pairwise fun a b => a.start ≤ b.start) : xs = ys := by
  refine hperm.eq_of_pairwise (fun a b ha hb hab hba => ?_) hx hy
  exact List.inj_on_of_nodup_map hnodup (hperm.mem_iff.mp ha) hb (le_antisymm hab hba)

/-- **The order of the bars does not matter.** -/
theorem simulateLongBracket_perm (hperm : bars'.Perm bars) :
    simulateLongBracket D trade bars' = simulateLongBracket D trade bars := by
  have hused : (usedBars trade bars').Perm (usedBars trade bars) := usedBars_perm hperm
  by_cases hnodup : ((usedBars trade bars).map Bar.start).Nodup
  · unfold simulateLongBracket
    rw [eq_of_perm_sorted hused hnodup usedBars_sorted usedBars_sorted]
  · have hnodup' : ¬ ((usedBars trade bars').map Bar.start).Nodup := fun h => hnodup ((hused.map _).nodup_iff.mp h)
    have hne : usedBars trade bars ≠ [] := fun h => hnodup (by rw [h]; exact List.nodup_nil)
    have hne' : usedBars trade bars' ≠ [] := fun h => hnodup' (by rw [h]; exact List.nodup_nil)
    simp only [simulateLongBracket, if_neg hne, if_neg hne', if_pos hnodup, if_pos hnodup']

/-! ## The bars up to the exit -/

/-- What an exit at this bar is: a scanned bar has to be hit, a bar of the flatten window is one at its open. -/
def exitOf (trade : SimInput) (bar : Bar) : Option (ExitKind × ℚ) :=
  if bar.start < trade.flattenStartUtc then hit trade bar else some (.FLATTEN, bar.openPrice)

/-- No start is more than `MAX_BAR_GAP` after the one before. -/
abbrev NoGap (starts : List Int) : Prop := starts.IsChain fun a b => b - a ≤ MAX_BAR_GAP

variable {previous : Int}
variable {starts : List Int}

theorem NoGap.cons {start : Int} (hgap : start - previous ≤ MAX_BAR_GAP)
    (h : NoGap (start :: starts)) : NoGap (previous :: start :: starts) := List.isChain_cons_cons.mpr ⟨hgap, h⟩

/-- After the bars `seen` the position is closed at `bar`. -/
structure Exits (trade : SimInput) (seen : List Bar) (bar : Bar) (kind : ExitKind) (price : ℚ) : Prop where
  quiet : ∀ b ∈ seen, b.start < trade.flattenStartUtc ∧ hit trade b = none
  gaps : NoGap (floorMinute trade.decidedAt :: ((seen ++ [bar]).map Bar.start))
  out : exitOf trade bar = some (kind, price)

variable {next : Int}

theorem scan_quiet (D : BarText) (used : List Bar) {seen : List Bar} (rest : List Bar)
    (hquiet : ∀ b ∈ seen, hit trade b = none) (hgaps : NoGap (previous :: (seen.map Bar.start ++ [next]))) :
    ∃ last, scan D trade used previous (seen ++ rest) = scan D trade used last rest ∧ next - last ≤ MAX_BAR_GAP := by
  induction seen generalizing previous with
  | nil =>
    refine ⟨previous, rfl, ?_⟩
    simpa [NoGap] using hgaps
  | cons b seen ih =>
    obtain ⟨hgap, hrest⟩ : b.start - previous ≤ MAX_BAR_GAP ∧ NoGap (b.start :: (seen.map Bar.start ++ [next])) := by
      simpa [NoGap] using hgaps
    obtain ⟨last, hscan, hlast⟩ := ih (fun c hc => hquiet c (List.mem_cons_of_mem _ hc)) hrest
    refine ⟨last, ?_, hlast⟩
    rw [List.cons_append, scan, if_neg (not_lt.mpr hgap), hquiet b List.mem_cons_self]
    exact hscan

variable {scanned : List Bar}

theorem scan_complete {result : SimResult}
    (h : scan D trade used previous scanned = .inl result) (hcomplete : result.status = .COMPLETE) :
    ∃ seen bar rest kind price, scanned = seen ++ bar :: rest ∧ (∀ b ∈ seen, hit trade b = none) ∧
      NoGap (previous :: ((seen ++ [bar]).map Bar.start)) ∧ hit trade bar = some (kind, price) := by
  induction scanned generalizing previous with
  | nil => cases h
  | cons b rest ih =>
    rw [scan] at h
    split at h
    · cases h
      cases hcomplete
    · rename_i hgap
      have hgap := not_lt.mp hgap
      split at h
      · rename_i kind price hhit
        exact ⟨[], b, rest, kind, price, rfl, by simp, by simpa [NoGap] using hgap, hhit⟩
      · rename_i hhit
        obtain ⟨seen, bar, rest', kind, price, rfl, hquiet, hgaps, hout⟩ := ih h
        refine ⟨b :: seen, bar, rest', kind, price, rfl, ?_, ?_, hout⟩
        · intro c hc
          rcases List.mem_cons.mp hc with rfl | hc
          · exact hhit
          · exact hquiet c hc
        · exact NoGap.cons hgap hgaps

theorem scan_through {last : Int} (h : scan D trade used previous scanned = .inr last) (hnext : next - last ≤ MAX_BAR_GAP) :
    (∀ b ∈ scanned, hit trade b = none) ∧ NoGap (previous :: (scanned.map Bar.start ++ [next])) := by
  induction scanned generalizing previous with
  | nil =>
    obtain rfl : previous = last := Sum.inr.inj h
    exact ⟨by simp, by simpa [NoGap] using hnext⟩
  | cons b rest ih =>
    rw [scan] at h
    split at h
    · cases h
    · rename_i hgap
      split at h
      · cases h
      · rename_i hhit
        obtain ⟨hquiet, hgaps⟩ := ih h
        refine ⟨?_, NoGap.cons (not_lt.mp hgap) hgaps⟩
        intro c hc
        rcases List.mem_cons.mp hc with rfl | hc
        · exact hhit
        · exact hquiet c hc

variable {bar : Bar}

theorem upTo_split {seen later : List Bar} (hsorted : (seen ++ bar :: later).Pairwise fun a b => a.start < b.start) :
    upTo (seen ++ bar :: later) bar.start = seen ++ [bar] := by
  obtain ⟨-, hlater, hseen⟩ := List.pairwise_append.mp hsorted
  have hfirst : seen.filter (fun b => b.start ≤ bar.start) = seen :=
    List.filter_eq_self.mpr fun b hb => decide_eq_true (hseen b hb bar List.mem_cons_self).le
  have hlast : later.filter (fun b => b.start ≤ bar.start) = [] :=
    List.filter_eq_nil_iff.mpr fun b hb => by simpa using List.rel_of_pairwise_cons hlater hb
  rw [upTo, List.filter_append, hfirst, List.filter_cons_of_pos (by simp), hlast]

theorem filter_before_flatten {seen later : List Bar} (hbar : trade.flattenStartUtc ≤ bar.start)
    (hseen : ∀ b ∈ seen, b.start < trade.flattenStartUtc)
    (hsorted : (seen ++ bar :: later).Pairwise fun a b => a.start < b.start) :
    (seen ++ bar :: later).filter (fun b => b.start < trade.flattenStartUtc) = seen := by
  obtain ⟨-, hlater, -⟩ := List.pairwise_append.mp hsorted
  have hfirst : seen.filter (fun b => b.start < trade.flattenStartUtc) = seen :=
    List.filter_eq_self.mpr fun b hb => decide_eq_true (hseen b hb)
  have hlast : (bar :: later).filter (fun b => b.start < trade.flattenStartUtc) = [] := by
    refine List.filter_eq_nil_iff.mpr fun b hb => ?_
    rcases List.mem_cons.mp hb with rfl | hb
    · simpa using hbar
    · simpa using hbar.trans (List.rel_of_pairwise_cons hlater hb).le
  rw [List.filter_append, hfirst, hlast, List.append_nil]

theorem find_flatten {seen later : List Bar} (hbar : trade.flattenStartUtc ≤ bar.start)
    (hseen : ∀ b ∈ seen, b.start < trade.flattenStartUtc) :
    (seen ++ bar :: later).find? (fun b => trade.flattenStartUtc ≤ b.start) = some bar := by
  have hnone : seen.find? (fun b => trade.flattenStartUtc ≤ b.start) = none :=
    List.find?_eq_none.mpr fun b hb => by simpa using hseen b hb
  rw [List.find?_append, hnone, Option.none_or, List.find?_cons_of_pos (by simpa using hbar)]

theorem simulateUsed_of_exits {seen later : List Bar} {kind : ExitKind} {price : ℚ}
    (hsorted : (seen ++ bar :: later).Pairwise fun a b => a.start < b.start) (h : Exits trade seen bar kind price) :
    simulateUsed D trade (seen ++ bar :: later) = complete D trade kind bar.start price (seen ++ [bar]) := by
  have hquiet : ∀ b ∈ seen, hit trade b = none := fun b hb => (h.quiet b hb).2
  have hgaps : NoGap (floorMinute trade.decidedAt :: (seen.map Bar.start ++ [bar.start])) := by
    simpa using h.gaps
  have hout := h.out
  unfold exitOf at hout
  split at hout
  · rename_i hbar
    have hfilter : (seen ++ bar :: later).filter (fun b => b.start < trade.flattenStartUtc) =
        seen ++ bar :: later.filter fun b => b.start < trade.flattenStartUtc := by
      rw [List.filter_append, List.filter_eq_self.mpr fun b hb => decide_eq_true (h.quiet b hb).1,
        List.filter_cons_of_pos (by simpa using hbar)]
    obtain ⟨last, hscan, hlast⟩ := scan_quiet D (seen ++ bar :: later)
      (bar :: later.filter fun b => b.start < trade.flattenStartUtc) hquiet hgaps
    unfold simulateUsed
    rw [hfilter, hscan, scan, if_neg (not_lt.mpr hlast), hout, upTo_split hsorted]
  · rename_i hbar
    have hbar := not_lt.mp hbar
    obtain ⟨rfl, rfl⟩ : kind = .FLATTEN ∧ price = bar.openPrice := by
      simpa [eq_comm] using hout
    obtain ⟨last, hscan, hlast⟩ := scan_quiet D (seen ++ bar :: later) [] hquiet hgaps
    rw [List.append_nil, scan] at hscan
    unfold simulateUsed
    rw [filter_before_flatten hbar (fun b hb => (h.quiet b hb).1) hsorted, hscan]
    simp only [find_flatten hbar fun b hb => (h.quiet b hb).1]
    rw [if_neg (not_lt.mpr hlast), upTo_split hsorted]

/-- A sorted list is cut at a moment. -/
theorem split_at_start (hsorted : used.Pairwise fun a b => a.start < b.start) (limit : Int) :
    used = used.filter (fun b => b.start < limit) ++ used.filter (fun b => limit ≤ b.start) := by
  induction used with
  | nil => rfl
  | cons b used ih =>
    by_cases hb : b.start < limit
    · rw [List.filter_cons_of_pos (by simpa using hb), List.filter_cons_of_neg (by simpa using hb), List.cons_append,
        ← ih hsorted.of_cons]
    · have hall : ∀ c ∈ b :: used, limit ≤ c.start := by
        intro c hc
        rcases List.mem_cons.mp hc with rfl | hc
        · exact not_lt.mp hb
        · exact (not_lt.mp hb).trans (List.rel_of_pairwise_cons hsorted hc).le
      rw [List.filter_eq_self.mpr fun c hc => decide_eq_true (hall c hc),
        List.filter_eq_nil_iff.mpr fun c hc => by simpa using hall c hc, List.nil_append]

theorem exits_of_complete (hsorted : used.Pairwise fun a b => a.start < b.start)
    (h : (simulateUsed D trade used).status = .COMPLETE) :
    ∃ seen bar later kind price, used = seen ++ bar :: later ∧ Exits trade seen bar kind price := by
  have hsplit : used = used.filter (fun b => b.start < trade.flattenStartUtc) ++
      used.filter (fun b => trade.flattenStartUtc ≤ b.start) := split_at_start hsorted _
  have hbefore : ∀ b ∈ used.filter (fun b => b.start < trade.flattenStartUtc), b.start < trade.flattenStartUtc :=
    fun b hb => of_decide_eq_true (List.mem_filter.mp hb).2
  unfold simulateUsed at h
  split at h
  · rename_i result hscan
    obtain ⟨seen, bar, rest, kind, price, hscanned, hquiet, hgaps, hhit⟩ := scan_complete hscan h
    rw [hscanned] at hbefore
    refine ⟨seen, bar, rest ++ used.filter (fun b => trade.flattenStartUtc ≤ b.start), kind, price, ?_, ?_⟩
    · rw [hscanned] at hsplit
      exact hsplit.trans (by rw [List.append_assoc, List.cons_append])
    · refine ⟨fun b hb => ⟨hbefore b (List.mem_append_left _ hb), hquiet b hb⟩, hgaps, ?_⟩
      rw [exitOf, if_pos (hbefore bar (by simp)), hhit]
  · rename_i last hscan
    split at h
    · cases h
    · rename_i bar hfind
      split at h
      · cases h
      · rename_i hgap
        obtain ⟨hquiet, hgaps⟩ := scan_through hscan (not_lt.mp hgap)
        have hhead : (used.filter fun b => trade.flattenStartUtc ≤ b.start).head? = some bar := by
          rw [List.head?_filter, hfind]
        obtain ⟨later, hlater⟩ := List.head?_eq_some_iff.mp hhead
        rw [hlater] at hsplit
        have hbar : trade.flattenStartUtc ≤ bar.start := by simpa using List.find?_some hfind
        refine ⟨_, bar, later, .FLATTEN, bar.openPrice, hsplit, fun b hb => ⟨hbefore b hb, hquiet b hb⟩, ?_, ?_⟩
        · simpa using hgaps
        · rw [exitOf, if_neg (not_lt.mpr hbar)]

/-! ## The exit bar among all bars -/

def Bar.Touches (trade : SimInput) (b : Bar) : Prop := b.low ≤ trade.stopPrice ∨ trade.targetPrice ≤ b.high

/-- A bar after the minute of the decision and before the flatten. -/
def Scanned (trade : SimInput) (b : Bar) : Prop := trade.firstStart ≤ b.start ∧ b.start < trade.flattenStartUtc

def InWindow (trade : SimInput) (b : Bar) : Prop :=
  trade.flattenStartUtc ≤ b.start ∧ b.start < trade.flattenStartUtc + FLATTEN_BAR_WINDOW

/-- The first scanned bar that reaches the stop or the target, or the first bar of the flatten window after the minute
of the decision when there is none. -/
inductive ExitBar (trade : SimInput) (bars : List Bar) (x : Bar) : Prop
  | touched (mem : x ∈ bars) (scanned : Scanned trade x) (touches : x.Touches trade)
      (first : ∀ b ∈ bars, Scanned trade b → b.Touches trade → x.start ≤ b.start)
  | flattened (mem : x ∈ bars) (decided : trade.firstStart ≤ x.start) (window : InWindow trade x)
      (quiet : ∀ b ∈ bars, Scanned trade b → ¬ b.Touches trade)
      (first : ∀ b ∈ bars, trade.firstStart ≤ b.start → InWindow trade b → x.start ≤ b.start)

theorem hit_eq_none {b : Bar} : hit trade b = none ↔ ¬ b.Touches trade := by
  unfold hit Bar.Touches
  split <;> rename_i hlow
  · simp [hlow]
  · split <;> rename_i hhigh <;> simp [hlow, hhigh]

theorem Scanned.isUsed {b : Bar} (h : Scanned trade b) (hb : b ∈ bars) : b ∈ usedBars trade bars := by
  have hwindow : (0 : Int) ≤ FLATTEN_BAR_WINDOW := by decide
  exact mem_usedBars.mpr ⟨hb, h.1, by have := h.2; omega⟩

theorem InWindow.isUsed {b : Bar} (h : InWindow trade b) (hdecided : trade.firstStart ≤ b.start) (hb : b ∈ bars) :
    b ∈ usedBars trade bars := mem_usedBars.mpr ⟨hb, hdecided, h.2⟩

section
variable {seen later : List Bar} {x : Bar} {kind : ExitKind} {price : ℚ}
  (hsorted : (seen ++ x :: later).Pairwise fun a b => a.start < b.start)

include hsorted

theorem start_lt_later {b : Bar} (hb : b ∈ later) : x.start < b.start :=
  List.rel_of_pairwise_cons (List.pairwise_append.mp hsorted).2.1 hb

theorem exitBar_of_exits (hused : usedBars trade bars = seen ++ x :: later) (h : Exits trade seen x kind price) :
    ExitBar trade bars x := by
  obtain ⟨hmem, hdecided, hwindow⟩ := mem_usedBars.mp (show x ∈ usedBars trade bars by rw [hused]; simp)
  have hcases : ∀ b ∈ usedBars trade bars, b ∈ seen ∨ x.start ≤ b.start := by
    intro b hb
    rw [hused] at hb
    rcases List.mem_append.mp hb with hb | hb
    · exact .inl hb
    · rcases List.mem_cons.mp hb with rfl | hb
      · exact .inr le_rfl
      · exact .inr (start_lt_later hsorted hb).le
  have hout := h.out
  unfold exitOf at hout
  split at hout
  · rename_i hbefore
    have htouches : x.Touches trade := by
      by_contra hnot
      rw [hit_eq_none.mpr hnot] at hout
      cases hout
    refine .touched hmem ⟨hdecided, hbefore⟩ htouches fun b hb hscanned hb' => ?_
    rcases hcases b (hscanned.isUsed hb) with hseen | hle
    · exact absurd hb' (hit_eq_none.mp (h.quiet b hseen).2)
    · exact hle
  · rename_i hafter
    have hafter := not_lt.mp hafter
    refine .flattened hmem hdecided ⟨hafter, hwindow⟩ (fun b hb hscanned => ?_) fun b hb hdec hin => ?_
    · rcases hcases b (hscanned.isUsed hb) with hseen | hle
      · exact hit_eq_none.mp (h.quiet b hseen).2
      · exact absurd (hafter.trans hle) (not_le.mpr hscanned.2)
    · rcases hcases b (hin.isUsed hdec hb) with hseen | hle
      · exact absurd hin.1 (not_le.mpr (h.quiet b hseen).1)
      · exact hle

end

theorem ExitBar.unique (hnodup : (bars.map Bar.start).Nodup) {x y : Bar} (hx : ExitBar trade bars x)
    (hy : ExitBar trade bars y) : x = y := by
  cases hx with
  | touched hxm hxs hxt hxf =>
    cases hy with
    | touched hym hys hyt hyf =>
      exact List.inj_on_of_nodup_map hnodup hxm hym (le_antisymm (hxf y hym hys hyt) (hyf x hxm hxs hxt))
    | flattened hym hyd hyw hyq hyf => exact absurd hxt (hyq x hxm hxs)
  | flattened hxm hxd hxw hxq hxf =>
    cases hy with
    | touched hym hys hyt hyf => exact absurd hyt (hxq y hym hys)
    | flattened hym hyd hyw hyq hyf =>
      exact List.inj_on_of_nodup_map hnodup hxm hym (le_antisymm (hxf y hym hyd hyw) (hyf x hxm hxd hxw))

/-! ## The whole simulation -/

structure CleanBars (bars : List Bar) : Prop where
  distinct : (bars.map Bar.start).Nodup
  valid : ∀ b ∈ bars, b.isValid = true

theorem CleanBars.sorted (h : CleanBars bars) (trade : SimInput) : (usedBars trade bars).Pairwise fun a b => a.start < b.start := by
  have hne : (usedBars trade bars).Pairwise fun a b => a.start ≠ b.start := List.pairwise_map.mp (usedBars_nodup h.distinct)
  exact (usedBars_sorted.and hne).imp fun hab => lt_of_le_of_ne hab.1 hab.2

theorem CleanBars.simulate_eq (h : CleanBars bars) (hne : usedBars trade bars ≠ []) :
    simulateLongBracket D trade bars = simulateUsed D trade (usedBars trade bars) := by
  have hvalid : (usedBars trade bars).all Bar.isValid = true :=
    List.all_eq_true.mpr fun b hb => h.valid b (mem_usedBars.mp hb).1
  simp only [simulateLongBracket, if_neg hne, not_not.mpr (usedBars_nodup h.distinct), hvalid, not_true, if_false]

theorem CleanBars.simulate_of_exits {seen later : List Bar} {x : Bar} {kind : ExitKind} {price : ℚ} (h : CleanBars bars)
    (hused : usedBars trade bars = seen ++ x :: later) (hexits : Exits trade seen x kind price) :
    simulateLongBracket D trade bars = complete D trade kind x.start price (seen ++ [x]) := by
  have hsorted := h.sorted trade
  rw [h.simulate_eq (by rw [hused]; simp), hused]
  rw [hused] at hsorted
  exact simulateUsed_of_exits hsorted hexits

theorem CleanBars.exits (h : CleanBars bars) (hcomplete : (simulateLongBracket D trade bars).status = .COMPLETE) :
    ∃ seen x later kind price, usedBars trade bars = seen ++ x :: later ∧ Exits trade seen x kind price := by
  have hne : usedBars trade bars ≠ [] := by
    intro hnil
    rw [simulateLongBracket, if_pos hnil] at hcomplete
    cases hcomplete
  rw [h.simulate_eq hne] at hcomplete
  exact exits_of_complete (h.sorted trade) hcomplete

theorem CleanBars.same_beginning {seen later : List Bar} {x : Bar} (h : CleanBars bars) (h' : CleanBars bars')
    (hused : usedBars trade bars = seen ++ x :: later) (hsame : ∀ b, b.start ≤ x.start → (b ∈ bars' ↔ b ∈ bars)) :
    ∃ later', usedBars trade bars' = seen ++ x :: later' := by
  have hsorted := h.sorted trade
  have hsorted' := h'.sorted trade
  have hcut : upTo (usedBars trade bars) x.start = seen ++ [x] := by
    rw [hused] at hsorted ⊢
    exact upTo_split hsorted
  have hcut' : upTo (usedBars trade bars') x.start = upTo (usedBars trade bars) x.start := by
    refine eq_of_perm_sorted ?_ ?_ (usedBars_sorted.sublist List.filter_sublist)
      (usedBars_sorted.sublist List.filter_sublist)
    · refine (List.perm_ext_iff_of_nodup ?_ ?_).mpr fun b => ?_
      · exact List.filter_sublist.nodup (usedBars_nodup h'.distinct).of_map
      · exact List.filter_sublist.nodup (usedBars_nodup h.distinct).of_map
      · simp only [upTo, List.mem_filter, mem_usedBars, decide_eq_true_eq]
        constructor
        · rintro ⟨⟨hb, hwindow⟩, hle⟩
          exact ⟨⟨(hsame b hle).mp hb, hwindow⟩, hle⟩
        · rintro ⟨⟨hb, hwindow⟩, hle⟩
          exact ⟨⟨(hsame b hle).mpr hb, hwindow⟩, hle⟩
    · exact (List.filter_sublist.map _).nodup (usedBars_nodup h.distinct)
  have hsplit := split_at_start hsorted' (x.start + 1)
  have hfilter : (usedBars trade bars').filter (fun b => b.start < x.start + 1) = seen ++ [x] := by
    rw [← hcut, ← hcut']
    exact List.filter_congr fun b _ => decide_eq_decide.mpr Int.lt_add_one_iff
  rw [hfilter, List.append_assoc, List.singleton_append] at hsplit
  exact ⟨_, hsplit⟩

/-! ## Gaps -/

/-- The minute of the decision, and the starts of the used bars. -/
def usedStarts (trade : SimInput) (bars : List Bar) : List Int :=
  floorMinute trade.decidedAt :: (usedBars trade bars).map Bar.start

variable {c : Int}

/-- Of two starts of a gapless list with none between them, the second is near the first. -/
theorem gap_of_noGap (hsorted : starts.Pairwise (· < ·)) (hgaps : NoGap starts) {a : Int}
    (ha : a ∈ starts) (hc : c ∈ starts) (hac : a < c) (hbetween : ∀ d ∈ starts, d ≤ a ∨ c ≤ d) : c - a ≤ MAX_BAR_GAP := by
  induction starts with
  | nil => cases ha
  | cons s starts ih =>
    have hlt : ∀ d ∈ starts, s < d := fun d hd => List.rel_of_pairwise_cons hsorted hd
    have hcs : c ∈ starts := by
      rcases List.mem_cons.mp hc with rfl | hc
      · rcases List.mem_cons.mp ha with rfl | ha
        · exact absurd hac (lt_irrefl _)
        · exact absurd (hlt a ha) (not_lt.mpr hac.le)
      · exact hc
    rcases List.mem_cons.mp ha with rfl | ha
    · cases starts with
      | nil => cases hcs
      | cons d starts =>
        obtain ⟨hgap, -⟩ := List.isChain_cons_cons.mp hgaps
        rcases hbetween d (by simp) with hd | hd
        · exact absurd (hlt d (by simp)) (not_lt.mpr hd)
        · omega
    · exact ih hsorted.of_cons hgaps.of_cons ha hcs fun d hd => hbetween d (List.mem_cons_of_mem _ hd)

theorem SimStatus.eq_incomplete {s : SimStatus} (h : s ≠ .COMPLETE) : s = .INCOMPLETE := by
  cases s with
  | COMPLETE => exact absurd rfl h
  | INCOMPLETE => rfl

theorem CleanBars.incomplete_of_gap (h : CleanBars bars) {x : Bar} (hx : ExitBar trade bars x) {a : Int}
    (ha : a ∈ usedStarts trade bars) (hc : c ∈ usedStarts trade bars) (hac : a < c)
    (hbetween : ∀ d ∈ usedStarts trade bars, d ≤ a ∨ c ≤ d) (hcx : c ≤ x.start) (hgap : MAX_BAR_GAP < c - a) :
    (simulateLongBracket D trade bars).status = .INCOMPLETE := by
  refine SimStatus.eq_incomplete fun hcomplete => ?_
  obtain ⟨seen, y, later, kind, price, hused, hexits⟩ := h.exits hcomplete
  have hsorted := h.sorted trade
  rw [hused] at hsorted
  obtain rfl : y = x := (exitBar_of_exits hsorted hused hexits).unique h.distinct hx
  have hstarts : usedStarts trade bars = floorMinute trade.decidedAt :: (seen ++ [y]).map Bar.start ++ later.map Bar.start := by
    simp [usedStarts, hused]
  have hall : (usedStarts trade bars).Pairwise (· < ·) := by
    refine List.pairwise_cons.mpr ⟨fun m hm => ?_, ?_⟩
    · obtain ⟨b, hb, rfl⟩ := List.mem_map.mp hm
      have hfirst := (mem_usedBars.mp hb).2.1
      have hminute : (0 : Int) < MINUTE := by decide
      unfold SimInput.firstStart at hfirst
      omega
    · rw [hused]
      exact List.pairwise_map.mpr hsorted
  have hlater : ∀ m ∈ later.map Bar.start, y.start < m := by
    intro m hm
    obtain ⟨b, hb, rfl⟩ := List.mem_map.mp hm
    exact start_lt_later hsorted hb
  have hearly : ∀ m ∈ usedStarts trade bars, m ≤ y.start → m ∈ floorMinute trade.decidedAt :: (seen ++ [y]).map Bar.start := by
    intro m hm hle
    rw [hstarts] at hm
    rcases List.mem_append.mp hm with hm | hm
    · exact hm
    · exact absurd (hlater m hm) (not_lt.mpr hle)
  have hsub : ∀ m ∈ floorMinute trade.decidedAt :: (seen ++ [y]).map Bar.start, m ∈ usedStarts trade bars := by
    intro m hm
    rw [hstarts]
    exact List.mem_append_left _ hm
  rw [hstarts] at hall
  have hnear := gap_of_noGap (List.pairwise_append.mp hall).1 hexits.gaps (hearly a ha (hac.le.trans hcx)) (hearly c hc hcx)
    hac fun d hd => hbetween d (hsub d hd)
  omega

/-! ## The price -/

theorem Bar.isValid_bounds {b : Bar} (h : b.isValid = true) : b.openPrice ≤ b.high := by
  unfold Bar.isValid at h
  exact (le_max_left _ _).trans (of_decide_eq_true h).2.2

theorem exitOf_price {b : Bar} (hvalid : b.isValid = true) {kind : ExitKind} {price : ℚ}
    (h : exitOf trade b = some (kind, price)) : price ≤ b.high ∧ (kind = .STOP → price ≤ trade.stopPrice) := by
  unfold exitOf hit at h
  split at h
  · split at h
    · cases h
      exact ⟨(min_le_right _ _).trans (Bar.isValid_bounds hvalid), fun _ => min_le_left _ _⟩
    · split at h
      · rename_i htarget
        cases h
        exact ⟨htarget, nofun⟩
      · cases h
  · cases h
    exact ⟨Bar.isValid_bounds hvalid, nofun⟩

/-- **The simulation looks only at what happened up to the exit.**  For every trade and all valid bars with distinct
starts: the order of the bars does not matter; a complete result is an exit at the bar that the bars call for, at what
`exitOf` says of it, no higher than the bar, at a stop no higher than the stop; all valid bars that start later may be
others; and two starts up to the exit that are too far apart make the result incomplete. -/
theorem bracket_looks_back (D : BarText) (trade : SimInput) (bars : List Bar) (h : CleanBars bars) :
    (∀ bars' : List Bar, bars'.Perm bars → simulateLongBracket D trade bars' = simulateLongBracket D trade bars) ∧
    ((simulateLongBracket D trade bars).status = .COMPLETE → ∃ x kind price,
      ExitBar trade bars x ∧ exitOf trade x = some (kind, price) ∧
      simulateLongBracket D trade bars =
        complete D trade kind x.start price ((usedBars trade bars).filter fun b => b.start ≤ x.start) ∧
      price ≤ x.high ∧ (kind = .STOP → price ≤ trade.stopPrice) ∧
      ∀ bars' : List Bar, CleanBars bars' → (∀ b, b.start ≤ x.start → (b ∈ bars' ↔ b ∈ bars)) →
        simulateLongBracket D trade bars' = simulateLongBracket D trade bars) ∧
    (∀ x, ExitBar trade bars x → ∀ a ∈ usedStarts trade bars, ∀ c ∈ usedStarts trade bars, a < c →
      (∀ d ∈ usedStarts trade bars, d ≤ a ∨ c ≤ d) → c ≤ x.start → MAX_BAR_GAP < c - a →
      (simulateLongBracket D trade bars).status = .INCOMPLETE) := by
  refine ⟨fun bars' hperm => simulateLongBracket_perm hperm, fun hcomplete => ?_, ?_⟩
  · obtain ⟨seen, x, later, kind, price, hused, hexits⟩ := h.exits hcomplete
    have hsorted := h.sorted trade
    rw [hused] at hsorted
    have hx := exitBar_of_exits hsorted hused hexits
    have hmem : x ∈ bars := by
      cases hx with
      | touched mem => exact mem
      | flattened mem => exact mem
    have hresult := h.simulate_of_exits (D := D) hused hexits
    obtain ⟨hhigh, hstop⟩ := exitOf_price (h.valid x hmem) hexits.out
    refine ⟨x, kind, price, hx, hexits.out, ?_, hhigh, hstop, fun bars' h' hsame => ?_⟩
    · rw [hresult, hused]
      exact congrArg _ (upTo_split hsorted).symm
    · obtain ⟨later', hused'⟩ := h.same_beginning h' hused hsame
      rw [hresult]
      exact h'.simulate_of_exits hused' hexits
  · intro x hx a ha c hc hac hbetween hcx hgap
    exact h.incomplete_of_gap hx ha hc hac hbetween hcx hgap

/-! ## Two runs -/

def plainText : BarText := ⟨fun _ => "", fun _ => "", fun _ => ""⟩

/-- Decided at the start of the day, to be flattened ten minutes later. -/
def quietTrade : SimInput := ⟨265598, 10, 100, 98, 104, 0, 10 * MINUTE⟩

/-- A stop one minute after the decision, and the bar of the flatten. -/
def stoppedBars : List Bar := [⟨10 * MINUTE, 99, 99, 97, 98⟩, ⟨MINUTE, 100, 101, 97, 99⟩]

theorem bracket_looks_back_stopped :
    simulateLongBracket plainText quietTrade stoppedBars.reverse = simulateLongBracket plainText quietTrade stoppedBars ∧
      simulateLongBracket plainText quietTrade [⟨MINUTE, 100, 101, 97, 99⟩] =
        simulateLongBracket plainText quietTrade stoppedBars := by
  have h := bracket_looks_back plainText quietTrade stoppedBars ⟨by decide, by decide⟩
  obtain ⟨x, kind, price, -, -, hresult, -, -, hsame⟩ := h.2.1 (by decide)
  have hx : x.start = MINUTE := by
    have hat : (simulateLongBracket plainText quietTrade stoppedBars).exitAt = some MINUTE := by decide
    rw [hresult] at hat
    exact Option.some.inj hat
  refine ⟨h.1 _ (List.reverse_perm _), hsame _ ⟨by decide, by decide⟩ fun b hb => ?_⟩
  rw [hx] at hb
  simp only [stoppedBars, List.mem_cons, List.not_mem_nil, or_false]
  refine ⟨.inr, fun h => h.resolve_left ?_⟩
  rintro rfl
  exact absurd hb (by decide)

/-- Decided two minutes into the flatten window. -/
def windowTrade : SimInput := ⟨265598, 10, 100, 98, 104, 2 * MINUTE, 0⟩

def windowBars : List Bar := [⟨0, 100, 100, 100, 100⟩, ⟨3 * MINUTE, 101, 101, 101, 101⟩]

/-- No bar is scanned, and the exit is not the first bar of the flatten window: that one is before the decision. -/
theorem window_bar_before_decision_skipped :
    windowTrade.stopPrice < windowTrade.targetPrice ∧ CleanBars windowBars ∧ (∀ b ∈ windowBars, ¬ Scanned windowTrade b) ∧
      (simulateLongBracket plainText windowTrade windowBars).status = .COMPLETE ∧
      (simulateLongBracket plainText windowTrade windowBars).exitAt = some (3 * MINUTE) ∧
      ∃ first ∈ windowBars, InWindow windowTrade first ∧ first.start < 3 * MINUTE := by
  refine ⟨by decide, ⟨by decide, by decide⟩, ?_, by decide, by decide, ⟨0, 100, 100, 100, 100⟩, by decide, ?_, by decide⟩
  · intro b _ hscanned
    have hafter : windowTrade.flattenStartUtc ≤ windowTrade.firstStart := by decide
    have hlate := hafter.trans hscanned.1
    exact absurd hscanned.2 (not_lt.mpr hlate)
  · exact ⟨by decide, by decide⟩

end MmrTrader.Scoreboard
