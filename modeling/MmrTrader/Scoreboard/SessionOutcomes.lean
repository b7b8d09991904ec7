import Mathlib.Data.Finset.Max
import MmrTrader.Scoreboard.SimulatorLaws

/-!
# Simulated outcomes are final

* `CacheOk` — what a run has cached serves every decision it has still to take; `simulate_cached` — a cached read and a
  fresh one give one outcome.
* `Write.Ok`, `Write.Backed` — what an outcome was written from, and the shares that back it.
* `Inv` — the invariant of all runs; `Run.turn_spec` is one statement of a run, `inv_run` any sequence of them.
* `matched_sum_le` — the matched outcomes of a trip, from the last decision that has shares.
* `simulated_outcomes_final` — **for every table of decisions and every order of runs.**
-/

namespace MmrTrader.Scoreboard.SessionSimulator

open Lib

variable {S : Setup}

/-! ## The cache -/

theorem floorMinute_mono {a b : Int} (h : a ≤ b) : floorMinute a ≤ floorMinute b := by
  have hminute : (0 : Int) < MINUTE := by decide
  exact Int.mul_le_mul_of_nonneg_right (Int.ediv_le_ediv hminute h) hminute.le

/-- Each entry holds all bars of its source from a start that no decision left to do comes before. -/
def CacheOk (S : Setup) (feed : Feed) (cache : Cache) (todo : List Decision) : Prop :=
  ∀ name conid date bars, ((name, conid, date), bars) ∈ cache → ∃ flattenStart all start,
    S.calendar date = some flattenStart ∧ feed name conid = .ok all ∧
    bars = all.filter (fun b => start ≤ b.start ∧ b.start < flattenStart + FLATTEN_BAR_WINDOW) ∧
    ∀ row ∈ todo, row.sessionDate = date → start ≤ floorMinute row.decidedAt + MINUTE

abbrev InOrder (todo : List Decision) : Prop :=
  todo.Pairwise fun a b => a.sessionDate = b.sessionDate → a.decidedAt ≤ b.decidedAt

theorem CacheOk.nil (feed : Feed) (todo : List Decision) : CacheOk S feed [] todo := by
  intro name conid date bars h
  cases h

variable {feed : Feed} {cache : Cache}

theorem CacheOk.sub {todo todo' : List Decision} (h : CacheOk S feed cache todo)
    (hsub : ∀ d ∈ todo', d ∈ todo) : CacheOk S feed cache todo' := by
  intro name conid date bars hmem
  obtain ⟨flattenStart, all, start, hcal, hall, hbars, hstart⟩ := h name conid date bars hmem
  exact ⟨flattenStart, all, start, hcal, hall, hbars, fun row hrow => hstart row (hsub row hrow)⟩

variable {trade : SimInput}

theorem usedBars_filter {all : List Bar} {start : Int} (hstart : start ≤ trade.firstStart) :
    usedBars trade (all.filter fun b => start ≤ b.start ∧ b.start < trade.flattenStartUtc + FLATTEN_BAR_WINDOW) =
      usedBars trade all := by
  unfold usedBars
  rw [List.filter_filter]
  congr 1
  refine List.filter_congr fun b _ => ?_
  have himp : trade.firstStart ≤ b.start → start ≤ b.start := fun h => hstart.trans h
  rw [← Bool.decide_and, decide_eq_decide]
  exact ⟨fun h => h.1, fun h => ⟨h, himp h.1, h.2⟩⟩

theorem simulateBars_congr {D : BarText} {xs ys : List Bar} (h : usedBars trade xs = usedBars trade ys) :
    simulateBars D trade xs = simulateBars D trade ys := by
  have hnil : ∀ bars : List Bar, simulateBars D trade bars = simulateLongBracket D trade bars := by
    intro bars
    unfold simulateBars
    split
    · rename_i hempty
      rw [hempty]
      rfl
    · rfl
  rw [hnil, hnil, simulateLongBracket, simulateLongBracket, h]

variable {row : Decision} {rest : List Decision}

/-- A read through the cache: the error of the source, or bars with the used bars of the source's own. -/
theorem readBars_spec (hcal : S.calendar row.sessionDate = some trade.flattenStartUtc)
    (hfirst : trade.firstStart = floorMinute row.decidedAt + MINUTE) (h : CacheOk S feed cache (row :: rest))
    (horder : InOrder (row :: rest)) (name : String) :
    let read := readBars feed row trade.firstStart (trade.flattenStartUtc + FLATTEN_BAR_WINDOW) name cache
    CacheOk S feed read.2 (row :: rest) ∧
      ((∃ code, feed name row.conid = .error code ∧ read.1 = .error code) ∨
        ∃ all bars, feed name row.conid = .ok all ∧ read.1 = .ok bars ∧ usedBars trade bars = usedBars trade all) := by
  intro read
  cases hlookup : cache.lookup (name, row.conid, row.sessionDate) with
  | some bars =>
    have hread : read = (.ok bars, cache) := by
      simp only [read, readBars, hlookup]
    rw [hread]
    obtain ⟨before, after, hcache, -⟩ := List.lookup_eq_some_iff.mp hlookup
    obtain ⟨flattenStart, all, start, hcal', hall, hbars, hstart⟩ :=
      h name row.conid row.sessionDate bars (by rw [hcache]; simp)
    obtain rfl : trade.flattenStartUtc = flattenStart := Option.some.inj (hcal.symm.trans hcal')
    refine ⟨h, .inr ⟨all, bars, hall, rfl, ?_⟩⟩
    rw [hbars]
    exact usedBars_filter (hfirst ▸ hstart row List.mem_cons_self rfl)
  | none =>
    cases hfeed : feed name row.conid with
    | error code =>
      have hread : read = (.error code, cache) := by
        simp only [read, readBars, hlookup, Feed.bars, hfeed, Except.map]
      rw [hread]
      exact ⟨h, .inl ⟨code, rfl, rfl⟩⟩
    | ok all =>
      have hread : read = (.ok (all.filter fun b =>
            trade.firstStart ≤ b.start ∧ b.start < trade.flattenStartUtc + FLATTEN_BAR_WINDOW),
          ((name, row.conid, row.sessionDate), all.filter fun b =>
            trade.firstStart ≤ b.start ∧ b.start < trade.flattenStartUtc + FLATTEN_BAR_WINDOW) :: cache) := by
        simp only [read, readBars, hlookup, Feed.bars, hfeed, Except.map]
      rw [hread]
      refine ⟨?_, .inr ⟨all, _, rfl, rfl, usedBars_filter le_rfl⟩⟩
      intro name' conid' date' bars' hmem
      rcases List.mem_cons.mp hmem with heq | hmem
      · cases heq
        refine ⟨trade.flattenStartUtc, all, trade.firstStart, hcal, hfeed, rfl, fun d hd hdate => ?_⟩
        have hdecided : row.decidedAt ≤ d.decidedAt := by
          rcases List.mem_cons.mp hd with rfl | hd
          · exact le_rfl
          · exact List.rel_of_pairwise_cons horder hd hdate.symm
        have hfloor := floorMinute_mono hdecided
        omega
      · exact h name' conid' date' bars' hmem

theorem trySources_cached (hcal : S.calendar row.sessionDate = some trade.flattenStartUtc)
    (hfirst : trade.firstStart = floorMinute row.decidedAt + MINUTE) (horder : InOrder (row :: rest)) (names : List String) :
    ∀ (reasons : List String) (cache cache' : Cache), CacheOk S feed cache (row :: rest) →
      CacheOk S feed cache' (row :: rest) →
      CacheOk S feed (trySources S.text feed row trade names reasons cache).2 (row :: rest) ∧
        (trySources S.text feed row trade names reasons cache).1 = (trySources S.text feed row trade names reasons cache').1 := by
  induction names with
  | nil => exact fun reasons cache cache' h h' => ⟨h, rfl⟩
  | cons name names ih =>
    intro reasons cache cache' h h'
    obtain ⟨hok, hread⟩ := readBars_spec hcal hfirst h horder name
    obtain ⟨hok', hread'⟩ := readBars_spec hcal hfirst h' horder name
    rw [trySources, trySources]
    rcases hread with ⟨code, hfeed, hread⟩ | ⟨all, bars, hfeed, hread, hused⟩ <;>
      rcases hread' with ⟨code', hfeed', hread'⟩ | ⟨all', bars', hfeed', hread', hused'⟩ <;> rw [hfeed] at hfeed' <;>
      cases hfeed' <;> simp only [hread, hread']
    · exact ih _ _ _ hok hok'
    · rw [← simulateBars_congr (hused.trans hused'.symm)]
      split
      · exact ⟨hok, rfl⟩
      · exact ih _ _ _ hok hok'

/-- **The cache changes nothing.**  A decision taken in order has the outcome of its own fresh read. -/
theorem simulate_cached (quantity : Int) (h : CacheOk S feed cache (row :: rest)) (horder : InOrder (row :: rest)) :
    CacheOk S feed (simulate S feed row quantity cache).2 (row :: rest) ∧
      (simulate S feed row quantity cache).1 = (simulate S feed row quantity []).1 := by
  unfold simulate
  cases hcal : S.calendar row.sessionDate with
  | none => exact ⟨h, rfl⟩
  | some flattenStart =>
    by_cases hsources : S.sources = []
    · simp only [if_pos hsources]
      exact ⟨h, trivial⟩
    · simp only [if_neg hsources]
      have hcal : S.calendar row.sessionDate = some (row.trade quantity flattenStart).flattenStartUtc := hcal
      exact trySources_cached hcal rfl horder S.sources [] cache [] h (CacheOk.nil feed _)

/-! ## What an outcome is written from -/

structure Write.Ok (S : Setup) (x : Write) : Prop where
  row : x.row ∈ S.decisions.rows
  deadline : x.result.status = .INCOMPLETE → S.dataReadyAt x.row.sessionDate + S.grace ≤ x.now
  fresh : x.simulated = true → (x.result, x.source) = (simulate S x.feed x.row x.quantity []).1
  final : x.simulated = false → x.row.baselineId = MATCHED_ENTRY ∧ x.source = "none" ∧ (x.result = UNPROVEN ∨ x.result = NO_SHARES)
  unmatched : x.row.baselineId ≠ MATCHED_ENTRY → x.quantity = x.row.quantity

/-- Shares `quantity` of a matched decision: every earlier close of its trip is settled, all together fit the trip's
entry, and the close was proven to have removed as many. -/
structure Backed (S : Setup) (outcomes : Table Outcome.recordId) (entryQty : String → String → ℚ≥0) (row : Decision)
    (fill : CloseFill) (quantity : Int) : Prop where
  positive : 1 ≤ quantity
  entry : ∃ trip counted, row.linkedRoundTripId = some trip ∧ countEarlier S outcomes row = some counted ∧
    counted + quantity ≤ ⌊entryQty row.experimentId trip⌋₊
  proven : ∃ shares, fill = some shares ∧ quantity ≤ shares

def Write.Backed (S : Setup) (w : World) (x : Write) : Prop :=
  x.row.baselineId = MATCHED_ENTRY → ∀ quantity, x.outcome.quantity = some quantity →
    SessionSimulator.Backed S w.outcomes w.entryQty x.row x.fill quantity

structure Grows (w w' : World) : Prop where
  outcomes : ∃ added, w'.outcomes.rows = w.outcomes.rows ++ added
  entryQty : ∀ e t, w.entryQty e t ≤ w'.entryQty e t

theorem Grows.refl (w : World) : Grows w w := ⟨⟨[], (List.append_nil _).symm⟩, fun _ _ => le_rfl⟩

variable {w : World}

theorem Grows.trans {u v : World} (huv : Grows u v) (hvw : Grows v w) : Grows u w := by
  obtain ⟨⟨xs, hxs⟩, hu⟩ := huv
  obtain ⟨⟨ys, hys⟩, hv⟩ := hvw
  refine ⟨⟨xs ++ ys, ?_⟩, fun e t => (hu e t).trans (hv e t)⟩
  rw [hys, hxs, List.append_assoc]

variable {w' : World}

theorem Grows.get? (h : Grows w w') {id : String} {o : Outcome} (ho : w.outcomes.get? id = some o) :
    w'.outcomes.get? id = some o := by
  obtain ⟨⟨added, hadded⟩, -⟩ := h
  obtain ⟨hmem, hid⟩ := Table.get?_eq_some.mp ho
  exact Table.get?_eq_some.mpr ⟨by rw [hadded]; exact List.mem_append_left _ hmem, hid⟩

variable {d : Decision}

theorem settledQuantity_same (h : Grows w w') (hd : w.outcomes.get? d.recordId ≠ none) :
    settledQuantity w'.outcomes d = settledQuantity w.outcomes d := by
  obtain ⟨o, ho⟩ := Option.ne_none_iff_exists'.mp hd
  unfold settledQuantity
  rw [ho, h.get? ho]

theorem Grows.countEarlier {w w' : World} (h : Grows w w') {row : Decision} {counted : Int}
    (hcount : countEarlier S w.outcomes row = some counted) : countEarlier S w'.outcomes row = some counted := by
  unfold SessionSimulator.countEarlier at hcount ⊢
  split at hcount
  · cases hcount
  · rename_i hopen
    cases hcount
    have hsettled : ∀ d ∈ S.earlier row, w.outcomes.get? d.recordId ≠ none := fun d hd hnone => hopen ⟨d, hd, hnone⟩
    rw [if_neg]
    · rw [List.map_congr_left fun d hd => settledQuantity_same h (hsettled d hd)]
    · rintro ⟨d, hd, hnone⟩
      obtain ⟨o, ho⟩ := Option.ne_none_iff_exists'.mp (hsettled d hd)
      cases hnone.symm.trans (h.get? ho)

variable {fill : CloseFill} {quantity : Int}

theorem Backed.grow (h : Grows w w')
    (hb : Backed S w.outcomes w.entryQty row fill quantity) : Backed S w'.outcomes w'.entryQty row fill quantity := by
  obtain ⟨hpos, ⟨trip, counted, htrip, hcount, hle⟩, hproven⟩ := hb
  refine ⟨hpos, ⟨trip, counted, htrip, h.countEarlier hcount, hle.trans ?_⟩, hproven⟩
  exact_mod_cast Nat.floor_mono (h.entryQty row.experimentId trip)

variable {x : Write}

theorem Write.Backed.grow (h : Grows w w') (hx : x.Backed S w) : x.Backed S w' :=
  fun hm q hq => SessionSimulator.Backed.grow h (hx hm q hq)

variable {counted : Int} {entryQty : Option ℚ≥0}

theorem matchedQuantity_quantity (h : matchedQuantity row counted entryQty fill = .inr quantity) :
    1 ≤ quantity ∧ ∃ entry shares, entryQty = some entry ∧ fill = some shares ∧ quantity ≤ shares ∧
      counted + quantity ≤ ⌊entry⌋₊ := by
  unfold matchedQuantity at h
  split at h
  · rename_i entry shares
    split at h
    · cases h
    · dsimp only at h
      split at h
      · rename_i hpos
        obtain rfl := Sum.inr.inj h
        have hshares := (min_le_right row.quantity _).trans (min_le_left shares ((⌊entry⌋₊ : Int) - counted))
        have hentry := (min_le_right row.quantity _).trans (min_le_right shares ((⌊entry⌋₊ : Int) - counted))
        exact ⟨hpos, entry, shares, rfl, rfl, hshares, by omega⟩
      · cases h
  · cases h

theorem matchedQuantity_final {result : SimResult}
    (h : matchedQuantity row counted entryQty fill = .inl result) : result = UNPROVEN ∨ result = NO_SHARES := by
  unfold matchedQuantity at h
  split at h
  · split at h
    · exact .inr (Sum.inl.inj h).symm
    · dsimp only at h
      split at h
      · cases h
      · exact .inl (Sum.inl.inj h).symm
  · exact .inl (Sum.inl.inj h).symm

/-! ## Runs -/

def Run.todo (r : Run) : List Decision :=
  match r.phase with
  | .matched row _ => row :: r.rows
  | _ => r.rows

def PhaseOk (S : Setup) (w : World) : Phase → Prop
  | .next => True
  | .matched row counted => row.baselineId = MATCHED_ENTRY ∧ countEarlier S w.outcomes row = some counted
  | .write x => x.Ok S ∧ x.Backed S w

structure Run.Ok (S : Setup) (w : World) (r : Run) : Prop where
  sub : ∀ d ∈ r.todo, d ∈ S.decisions.rows
  order : InOrder r.todo
  cache : CacheOk S r.feed r.cache r.todo
  phase : PhaseOk S w r.phase

structure Inv (S : Setup) (w : World) : Prop where
  table : w.outcomes.rows = S.ingested.rows ++ w.writes.map Write.outcome
  written : ∀ x ∈ w.writes, x.Ok S ∧ x.Backed S w
  runs : ∀ r ∈ w.runs, r.Ok S w

theorem PhaseOk.grow (h : Grows w w') {p : Phase} (hp : PhaseOk S w p) : PhaseOk S w' p := by
  cases p with
  | next => trivial
  | matched row counted => exact ⟨hp.1, h.countEarlier hp.2⟩
  | write x => exact ⟨hp.1, hp.2.grow h⟩

variable {r : Run}

theorem Run.Ok.grow (h : Grows w w') (hr : r.Ok S w) : r.Ok S w' :=
  ⟨hr.sub, hr.order, hr.cache, hr.phase.grow h⟩

theorem Run.Ok.onward (hr : r.Ok S w) : { r with phase := .next }.Ok S w := by
  have hsub : r.rows.Sublist r.todo := by
    unfold Run.todo
    split
    · exact List.sublist_cons_self _ _
    · exact List.Sublist.refl _
  exact ⟨fun d hd => hr.sub d (hsub.subset hd), hr.order.sublist hsub, hr.cache.sub fun d hd => hsub.subset hd, trivial⟩

theorem Run.Ok.afterBars (hsub : ∀ d ∈ row :: r.rows, d ∈ S.decisions.rows) (horder : InOrder (row :: r.rows))
    (hcache : CacheOk S r.feed r.cache (row :: r.rows)) (hunmatched : row.baselineId ≠ MATCHED_ENTRY → quantity = row.quantity)
    (hbacked : row.baselineId = MATCHED_ENTRY → Backed S w.outcomes w.entryQty row fill quantity) :
    (r.afterBars S row quantity fill).Ok S w := by
  obtain ⟨hcache', hfresh⟩ := simulate_cached quantity hcache horder
  unfold Run.afterBars
  generalize hsim : simulate S r.feed row quantity r.cache = sim at hcache' hfresh
  obtain ⟨⟨result, source⟩, cache⟩ := sim
  have hrows : ∀ d ∈ r.rows, d ∈ row :: r.rows := fun d hd => List.mem_cons_of_mem _ hd
  dsimp only at hcache' hfresh ⊢
  split
  · exact ⟨fun d hd => hsub d (hrows d hd), horder.of_cons, hcache'.sub hrows, trivial⟩
  · rename_i hdue
    refine ⟨fun d hd => hsub d (hrows d hd), horder.of_cons, hcache'.sub hrows, ?_, ?_⟩
    · refine ⟨hsub row List.mem_cons_self, fun hinc => ?_, fun _ => hfresh, nofun, hunmatched⟩
      exact not_lt.mp fun hlt => hdue ⟨hinc, hlt⟩
    · intro hm q hq
      have hquantity : quantity = q := by
        simp only [Write.outcome] at hq
        split at hq
        · exact Option.some.inj hq
        · cases hq
      exact hquantity ▸ hbacked hm

theorem Inv.quiet (h : Inv S w) (hgrows : Grows w w') (houtcomes : w'.outcomes = w.outcomes)
    (hwrites : w'.writes = w.writes) (hruns : ∀ r ∈ w'.runs, r.Ok S w') : Inv S w' := by
  refine ⟨?_, fun x hx => ?_, hruns⟩
  · rw [houtcomes, hwrites]
    exact h.table
  · rw [hwrites] at hx
    exact ⟨(h.written x hx).1, (h.written x hx).2.grow hgrows⟩

theorem Inv.wrote (h : Inv S w) (hx : x.Ok S ∧ x.Backed S w) (hgrows : Grows w w')
    (houtcomes : w'.outcomes.rows = w.outcomes.rows ++ [x.outcome]) (hwrites : w'.writes = w.writes ++ [x])
    (hruns : w'.runs = w.runs) : Inv S w' := by
  refine ⟨?_, fun y hy => ?_, fun r hr => (h.runs r (hruns ▸ hr)).grow hgrows⟩
  · rw [houtcomes, hwrites, h.table, List.map_append, List.append_assoc]
    rfl
  · rw [hwrites] at hy
    rcases List.mem_append.mp hy with hy | hy
    · exact ⟨(h.written y hy).1, (h.written y hy).2.grow hgrows⟩
    · obtain rfl := List.mem_singleton.mp hy
      exact ⟨hx.1, hx.2.grow hgrows⟩

/-- What one statement of a run leaves. -/
structure Turned (S : Setup) (w : World) (next : World × Option Run) : Prop where
  grows : Grows w next.1
  inv : Inv S next.1
  runs : next.1.runs = w.runs
  ok : ∀ r, next.2 = some r → r.Ok S next.1

theorem Turned.ended (h : Inv S w) : Turned S w (w, none) := ⟨.refl w, h, rfl, fun _ hnone => nomatch hnone⟩

theorem Turned.same (h : Inv S w) (hr : r.Ok S w) : Turned S w (w, some r) := by
  refine ⟨.refl w, h, rfl, ?_⟩
  rintro _ ⟨⟩
  exact hr

theorem Turned.tried (h : Inv S w) (hr : r.Ok S w) (lastTry : String → Option Int) :
    Turned S w ({ w with lastTry := lastTry }, some r) := by
  have hgrows : Grows w { w with lastTry := lastTry } := ⟨⟨[], (List.append_nil _).symm⟩, fun _ _ => le_rfl⟩
  refine ⟨hgrows, h.quiet hgrows rfl rfl fun x hx => (h.runs x hx).grow hgrows, rfl, ?_⟩
  rintro _ ⟨⟩
  exact hr.grow hgrows

/-- **One statement of a run.** -/
theorem Run.turn_spec (h : Inv S w) (hr : r.Ok S w) (a : Answer) : Turned S w (r.turn S w a) := by
  obtain ⟨now, feed, rows, cache, phase⟩ := r
  have hnext := hr.onward
  obtain ⟨hsub, horder, hcache, hok⟩ := hr
  cases phase with
  | next =>
    cases rows with
    | nil => exact Turned.ended h
    | cons row rest =>
      have hskip : (⟨now, feed, rest, cache, .next⟩ : Run).Ok S w :=
        ⟨fun d hd => hsub d (List.mem_cons_of_mem _ hd), horder.of_cons,
          hcache.sub fun d hd => List.mem_cons_of_mem _ hd, trivial⟩
      unfold Run.turn
      dsimp only
      split
      · exact Turned.same h hskip
      · split
        · exact Turned.same h hskip
        · split
          · rename_i hmatched
            cases hcount : countEarlier S w.outcomes row with
            | none => exact Turned.tried h hskip _
            | some counted =>
              exact Turned.tried (r := ⟨now, feed, rest, cache, .matched row counted⟩) h
                ⟨hsub, horder, hcache, hmatched, hcount⟩ _
          · rename_i hmatched
            refine Turned.tried h (Run.Ok.afterBars (r := ⟨now, feed, rest, cache, .next⟩) hsub horder hcache
              (fun _ => rfl) ?_) _
            exact fun heq => absurd heq hmatched
  | matched row counted =>
    obtain ⟨hmatched, hcount⟩ := hok
    unfold Run.turn
    dsimp only
    cases hverdict : matchedQuantity row counted (w.tripOf row a) (a.removed row.linkedRoundTripId row.opportunityId) with
    | inl result =>
      have hresult := matchedQuantity_final hverdict
      dsimp only
      split
      · exact Turned.same h hnext
      · rename_i hdue
        refine Turned.same h ⟨hnext.sub, hnext.order, hnext.cache, ?_, ?_⟩
        · refine ⟨hsub row List.mem_cons_self, fun hinc => ?_, nofun, fun _ => ⟨hmatched, rfl, hresult⟩,
            fun hne => absurd hmatched hne⟩
          refine not_lt.mp fun hlt => hdue ⟨?_, hlt⟩
          rcases hresult with hresult | hresult
          · exact hresult
          · rw [hresult] at hinc
            cases hinc
        · intro _ q hq
          rcases hresult with rfl | rfl
          · cases hq
          · cases hq
    | inr quantity =>
      obtain ⟨hpos, entry, shares, htrip, hfill, hshares, hentry⟩ := matchedQuantity_quantity hverdict
      refine Turned.same h (Run.Ok.afterBars (r := ⟨now, feed, rows, cache, .next⟩) hsub horder hcache
        (fun hne => absurd hmatched hne) fun _ => ?_)
      refine ⟨hpos, ?_, shares, hfill, hshares⟩
      unfold World.tripOf at htrip
      split at htrip
      · obtain ⟨trip, hlinked, rfl⟩ := Option.map_eq_some_iff.mp htrip
        exact ⟨trip, counted, hlinked, hcount, hentry⟩
      · cases htrip
  | write x =>
    unfold Run.turn
    dsimp only
    cases hins : w.outcomes.insert? x.outcome with
    | none => exact Turned.same h hnext
    | some outcomes =>
      obtain ⟨-, hrows⟩ := Table.insert?_eq_some hins
      have hgrows : Grows w { w with
          outcomes := outcomes
          lastTry := Function.update w.lastTry x.row.recordId none
          writes := w.writes ++ [x] } := ⟨⟨[x.outcome], hrows⟩, fun _ _ => le_rfl⟩
      refine ⟨hgrows, h.wrote hok hgrows hrows rfl rfl, rfl, ?_⟩
      rintro _ ⟨⟩
      exact hnext.grow hgrows

theorem pending_ok (w : World) (now : Int) (feed : Feed) : (⟨now, feed, pending S w.outcomes, [], .next⟩ : Run).Ok S w := by
  refine ⟨fun d hd => ?_, ?_, CacheOk.nil feed _, trivial⟩
  · exact (List.mem_filter.mp ((List.mem_insertionSort _).mp hd)).1
  · have : Std.Total fun a b : Decision => a.sortKey ≤ b.sortKey := ⟨fun a b => le_total a.sortKey b.sortKey⟩
    have : IsTrans Decision fun a b => a.sortKey ≤ b.sortKey := ⟨fun _ _ _ => le_trans⟩
    refine (List.pairwise_insertionSort _ _).imp fun {a b} hle hdate => ?_
    have hle := (Prod.Lex.le_iff.mp hle).resolve_left fun hlt => absurd hdate hlt.ne
    exact (Prod.Lex.le_iff.mp hle.2).elim (fun hlt => hlt.le) fun heq => heq.1.le

theorem Inv.start (entryQty : String → String → ℚ≥0) : Inv S (World.start S entryQty) :=
  ⟨(List.append_nil _).symm, fun _ hx => absurd hx List.not_mem_nil, fun _ hr => absurd hr List.not_mem_nil⟩

theorem Inv.step (h : Inv S w) (act : Act) : Grows w (w.step S act) ∧ Inv S (w.step S act) := by
  cases act with
  | runDue now feed =>
    have hgrows : Grows w (w.step S (.runDue now feed)) := ⟨⟨[], (List.append_nil _).symm⟩, fun _ _ => le_rfl⟩
    refine ⟨hgrows, h.quiet hgrows rfl rfl fun r hr => ?_⟩
    rcases List.mem_append.mp hr with hr | hr
    · exact (h.runs r hr).grow hgrows
    · rw [List.mem_singleton.mp hr]
      exact (pending_ok w now feed).grow hgrows
  | turn i a =>
    cases hi : w.runs[i]? with
    | none =>
      have hstep : w.step S (.turn i a) = w := by
        simp only [World.step, hi]
      rw [hstep]
      exact ⟨.refl w, h⟩
    | some r =>
      have hturn := r.turn_spec h (h.runs r (List.mem_of_getElem? hi)) a
      cases hnext : r.turn S w a with
      | mk w' r' =>
        rw [hnext] at hturn
        obtain ⟨hgrows, hinv, -, hok⟩ := hturn
        cases r' with
        | none =>
          have hstep : w.step S (.turn i a) = { w' with runs := w'.runs.eraseIdx i } := by
            simp only [World.step, hi, hnext]
          have hgrows' : Grows w' { w' with runs := w'.runs.eraseIdx i } :=
            ⟨⟨[], (List.append_nil _).symm⟩, fun _ _ => le_rfl⟩
          rw [hstep]
          refine ⟨hgrows.trans hgrows', hinv.quiet hgrows' rfl rfl fun x hx => ?_⟩
          exact (hinv.runs x (List.mem_of_mem_eraseIdx hx)).grow hgrows'
        | some r' =>
          have hstep : w.step S (.turn i a) = { w' with runs := w'.runs.set i r' } := by
            simp only [World.step, hi, hnext]
          have hgrows' : Grows w' { w' with runs := w'.runs.set i r' } :=
            ⟨⟨[], (List.append_nil _).symm⟩, fun _ _ => le_rfl⟩
          rw [hstep]
          refine ⟨hgrows.trans hgrows', hinv.quiet hgrows' rfl rfl fun x hx => ?_⟩
          rcases List.mem_or_eq_of_mem_set hx with hx | rfl
          · exact (hinv.runs x hx).grow hgrows'
          · exact (hok _ rfl).grow hgrows'
  | raises i =>
    have hgrows : Grows w (w.step S (.raises i)) := ⟨⟨[], (List.append_nil _).symm⟩, fun _ _ => le_rfl⟩
    exact ⟨hgrows, h.quiet hgrows rfl rfl fun r hr => (h.runs r (List.mem_of_mem_eraseIdx hr)).grow hgrows⟩
  | restart =>
    have hgrows : Grows w (w.step S .restart) := ⟨⟨[], (List.append_nil _).symm⟩, fun _ _ => le_rfl⟩
    exact ⟨hgrows, h.quiet hgrows rfl rfl fun r hr => absurd hr List.not_mem_nil⟩
  | project entryQty =>
    have hgrows : Grows w (w.step S (.project entryQty)) :=
      ⟨⟨[], (List.append_nil _).symm⟩, fun e t => le_max_left _ _⟩
    exact ⟨hgrows, h.quiet hgrows rfl rfl fun r hr => (h.runs r hr).grow hgrows⟩

theorem Inv.run (h : Inv S w) (acts : List Act) : Grows w (w.run S acts) ∧ Inv S (w.run S acts) := by
  induction acts generalizing w with
  | nil => exact ⟨.refl w, h⟩
  | cons act acts ih =>
    obtain ⟨hgrows, hinv⟩ := h.step act
    obtain ⟨hrest, hend⟩ := ih hinv
    exact ⟨hgrows.trans hrest, hend⟩

/-! ## The shares of a trip -/

def Setup.matched (S : Setup) (experimentId trip : String) : List Decision :=
  S.decisions.rows.filter fun d =>
    d.experimentId = experimentId ∧ d.baselineId = MATCHED_ENTRY ∧ d.linkedRoundTripId = some trip

variable {e t : String}

theorem mem_matched : d ∈ S.matched e t ↔
    d ∈ S.decisions.rows ∧ d.experimentId = e ∧ d.baselineId = MATCHED_ENTRY ∧ d.linkedRoundTripId = some t := by
  unfold Setup.matched
  rw [List.mem_filter, decide_eq_true_eq]

/-- The order in which the closes of a trip are counted. -/
def Decision.countKey (d : Decision) : Int ×ₗ String := toLex (d.recordedAt, d.recordId)

theorem earlier_eq (h : row ∈ S.matched e t) : S.earlier row = (S.matched e t).filter fun d => d.countKey < row.countKey := by
  obtain ⟨-, he, -, ht⟩ := mem_matched.mp h
  unfold Setup.earlier Setup.matched
  rw [List.filter_filter]
  refine List.filter_congr fun d _ => ?_
  rw [← Bool.decide_and, decide_eq_decide]
  unfold Decision.Earlier Decision.countKey
  constructor
  · rintro ⟨hexp, hbase, hlink, -, hlt⟩
    exact ⟨hlt, hexp.trans he, hbase, hlink.trans ht⟩
  · rintro ⟨hlt, hexp, hbase, hlink⟩
    exact ⟨hexp.trans he.symm, hbase, hlink.trans ht.symm, by rw [hlink]; exact nofun, hlt⟩

theorem sum_eq_filter_add {α : Type} {xs : List α} {f : α → Int} {p : α → Bool} {m : α} (hnodup : xs.Nodup) (hm : m ∈ xs)
    (hpm : p m = false) (hzero : ∀ x ∈ xs, p x = false → x ≠ m → f x = 0) :
    (xs.map f).sum = ((xs.filter p).map f).sum + f m := by
  induction xs with
  | nil => cases hm
  | cons x xs ih =>
    obtain ⟨hx, hnodup⟩ := List.nodup_cons.mp hnodup
    have hzero' : ∀ y ∈ xs, p y = false → y ≠ m → f y = 0 := fun y hy => hzero y (List.mem_cons_of_mem _ hy)
    rcases List.mem_cons.mp hm with rfl | hm
    · have hrest : ∀ ys : List α, (∀ y ∈ ys, p y = false → f y = 0) → (ys.map f).sum = ((ys.filter p).map f).sum := by
        intro ys
        induction ys with
        | nil => exact fun _ => rfl
        | cons y ys ihy =>
          intro h
          have ihy := ihy fun z hz => h z (List.mem_cons_of_mem _ hz)
          cases hy : p y with
          | true => simp [hy, ihy]
          | false => simp [hy, ihy, h y List.mem_cons_self hy]
      have hsum := hrest xs fun y hy hpy => hzero' y hy hpy fun heq => hx (heq ▸ hy)
      simp only [List.map_cons, List.sum_cons, List.filter_cons, hpm, hsum]
      exact add_comm _ _
    · have ih := ih hnodup hm hzero'
      cases hpx : p x with
      | true =>
        simp only [List.map_cons, List.sum_cons, List.filter_cons, hpx, if_true, ih]
        exact (add_assoc _ _ _).symm
      | false =>
        have hfx : f x = 0 := hzero x List.mem_cons_self hpx fun heq => hx (heq ▸ hm)
        simpa [hpx, hfx] using ih

/-- Shares that an outcome accounts for were written by a run. -/
theorem Inv.settled_write (h : Inv S w) (hd : d ∈ S.decisions.rows) (hne : settledQuantity w.outcomes d ≠ 0) :
    ∃ x ∈ w.writes, x.row = d ∧ x.outcome.quantity = some (settledQuantity w.outcomes d) := by
  unfold settledQuantity at hne ⊢
  split at hne
  · rename_i o ho
    obtain ⟨hmem, hid⟩ := Table.get?_eq_some.mp ho
    split at hne
    · rename_i hcomplete
      rw [h.table] at hmem
      rcases List.mem_append.mp hmem with hmem | hmem
      · rw [S.ingested_quantity o hmem] at hne
        exact absurd rfl hne
      · obtain ⟨x, hx, rfl⟩ := List.mem_map.mp hmem
        refine ⟨x, hx, S.decisions.eq_of_key (h.written x hx).1.row hd hid, ?_⟩
        cases hq : x.outcome.quantity with
        | none =>
          rw [hq] at hne
          exact absurd rfl hne
        | some q => simp [hcomplete]
    · exact absurd rfl hne
  · exact absurd rfl hne

theorem Inv.settled_backed (h : Inv S w) (hd : d ∈ S.decisions.rows)
    (hmatched : d.baselineId = MATCHED_ENTRY) (hne : settledQuantity w.outcomes d ≠ 0) :
    ∃ x ∈ w.writes, x.row = d ∧ Backed S w.outcomes w.entryQty d x.fill (settledQuantity w.outcomes d) := by
  obtain ⟨x, hx, rfl, hq⟩ := h.settled_write hd hne
  exact ⟨x, hx, rfl, (h.written x hx).2 hmatched _ hq⟩

/-- **The matched closes of a trip fit its entry.**  The last one that removed shares was written when all before it
were settled. -/
theorem matched_sum_le (h : Inv S w) (e t : String) :
    ((S.matched e t).map (settledQuantity w.outcomes)).sum ≤ ⌊w.entryQty e t⌋₊ := by
  by_cases hall : ∀ d ∈ S.matched e t, settledQuantity w.outcomes d = 0
  · have hsum : ((S.matched e t).map (settledQuantity w.outcomes)).sum = 0 := by
      refine List.sum_eq_zero fun q hq => ?_
      obtain ⟨d, hd, rfl⟩ := List.mem_map.mp hq
      exact hall d hd
    rw [hsum]
    exact Int.natCast_nonneg _
  · push Not at hall
    obtain ⟨d₀, hd₀, hne₀⟩ := hall
    obtain ⟨m, hm, hlast⟩ := ((S.matched e t).toFinset.filter fun d => settledQuantity w.outcomes d ≠ 0).exists_max_image
      Decision.countKey ⟨d₀, by simp [hd₀, hne₀]⟩
    simp only [Finset.mem_filter, List.mem_toFinset] at hm hlast
    obtain ⟨hmem, hne⟩ := hm
    obtain ⟨hrow, he, hmatched, ht⟩ := mem_matched.mp hmem
    obtain ⟨x, -, -, -, ⟨trip, counted, htrip, hcount, hle⟩, -⟩ := h.settled_backed hrow hmatched hne
    obtain rfl : t = trip := Option.some.inj (ht.symm.trans htrip)
    subst he
    have hnodup : (S.matched m.experimentId t).Nodup := List.filter_sublist.nodup S.decisions.nodup.of_map
    have hsum := sum_eq_filter_add (f := settledQuantity w.outcomes) (p := fun d => d.countKey < m.countKey) hnodup hmem
      (by simp) fun d hd hnot hdm => by
        by_contra hd0
        have hkey := hlast d ⟨hd, hd0⟩
        have hlt : ¬ d.countKey < m.countKey := by simpa using hnot
        have heq : d.countKey = m.countKey := le_antisymm hkey (not_lt.mp hlt)
        have hid : d.recordId = m.recordId := congrArg (fun k => (ofLex k).2) heq
        exact hdm (S.decisions.eq_of_key (mem_matched.mp hd).1 hrow hid)
    have hcounted : counted = ((S.earlier m).map (settledQuantity w.outcomes)).sum := by
      unfold countEarlier at hcount
      split at hcount
      · cases hcount
      · exact (Option.some.inj hcount).symm
    rw [hsum, ← earlier_eq hmem, ← hcounted]
    exact hle

/-- **Simulated outcomes are final.**  For every table of decisions and every order of the statements of any number of
runs: outcomes are only ever added, one for a decision; each is what its decision's own fresh read gives, or follows from
the facts of its close alone; none is incomplete before its deadline; and the matched outcomes of a trip stay within its
entry, each within the shares that its close was proven to have removed. -/
theorem simulated_outcomes_final (S : Setup) (entryQty : String → String → ℚ≥0) (acts : List Act) :
    let w := (World.start S entryQty).run S acts
    (∀ more, ∃ added, (w.run S more).outcomes.rows = w.outcomes.rows ++ added) ∧
    (w.outcomes.rows.map Outcome.recordId).Nodup ∧
    w.outcomes.rows = S.ingested.rows ++ w.writes.map Write.outcome ∧
    (∀ x ∈ w.writes, x.row ∈ S.decisions.rows ∧
      (x.simulated = true → (x.result, x.source) = (simulate S x.feed x.row x.quantity []).1) ∧
      (x.simulated = false → x.row.baselineId = MATCHED_ENTRY ∧ (x.result = UNPROVEN ∨ x.result = NO_SHARES)) ∧
      (x.outcome.status = .INCOMPLETE → S.dataReadyAt x.row.sessionDate + S.grace ≤ x.now)) ∧
    (∀ e t, ((((S.matched e t).map (settledQuantity w.outcomes)).sum : Int) : ℚ) ≤ w.entryQty e t) ∧
    (∀ d ∈ S.decisions.rows, d.baselineId = MATCHED_ENTRY → settledQuantity w.outcomes d ≠ 0 →
      ∃ x ∈ w.writes, x.row = d ∧ ∃ shares, x.fill = some shares ∧ settledQuantity w.outcomes d ≤ shares) := by
  intro w
  have h : Inv S w := ((Inv.start entryQty).run acts).2
  refine ⟨fun more => (h.run more).1.outcomes, w.outcomes.nodup, h.table, fun x hx => ?_, fun e t => ?_, fun d hd hm hne => ?_⟩
  · obtain ⟨hok, -⟩ := h.written x hx
    exact ⟨hok.row, hok.fresh, fun hf => ⟨(hok.final hf).1, (hok.final hf).2.2⟩, hok.deadline⟩
  · have hfloor : ((⌊w.entryQty e t⌋₊ : ℚ≥0) : ℚ) ≤ w.entryQty e t := by
      exact_mod_cast Nat.floor_le zero_le
    have hsum : ((((S.matched e t).map (settledQuantity w.outcomes)).sum : Int) : ℚ) ≤ (⌊w.entryQty e t⌋₊ : Int) := by
      exact_mod_cast matched_sum_le h e t
    exact hsum.trans (by exact_mod_cast hfloor)
  · obtain ⟨x, hx, hrow, hbacked⟩ := h.settled_backed hd hm hne
    exact ⟨x, hx, hrow, hbacked.proven⟩

end MmrTrader.Scoreboard.SessionSimulator
