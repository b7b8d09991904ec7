import Mathlib.Algebra.Order.BigOperators.Group.List
import Mathlib.Data.List.Induction
import MmrTrader.Ai.Budget
import MmrTrader.Lib.GuardedRun

/-!
# The model budget is never overspent

* `Moves.shape` — a call closes rows or appends the reservation it accepted.
* `committed_le` — only a reservation raises what a window holds.
* `budget_never_overspent` — over every sequence of calls whose settlements stay within what was reserved.
-/

namespace MmrTrader.Ai

open Lib

variable {B : Budget} {now : Int} {db db' : BudgetDb} {c : Call}

/-! ## Rows -/

/-- What a row keeps for its whole life. -/
def ReservationRow.Same (r r' : ReservationRow) : Prop :=
  r'.reservationId = r.reservationId ∧ r'.windowDate = r.windowDate ∧ r'.reservedMicros = r.reservedMicros ∧
    r'.createdAt = r.createdAt

def ReservationState.MayBecome (s s' : ReservationState) : Prop :=
  s' = s ∨ s = .opened ∨ s = .unknown ∧ s' = .settled

variable {r r' : ReservationRow}

theorem Closes.same (h : Closes c r r') : r.Same r' := by
  cases h <;> exact ⟨rfl, rfl, rfl, rfl⟩

theorem Closes.mayBecome (h : Closes c r r') : r.state.MayBecome r'.state := by
  cases h with
  | released id reason _ h => exact Or.inr (Or.inl h)
  | unknown id _ h => exact Or.inr (Or.inl h)
  | recovered _ h => exact Or.inr (Or.inl h)
  | settled id actual late _ hid h => exact Or.inr (h.imp (fun h => h) fun h => ⟨h, rfl⟩)

theorem Closes.not_settled (h : Closes c r r') : r.state ≠ .settled := by
  cases h with
  | released id reason _ h => rw [h]; decide
  | unknown id _ h => rw [h]; decide
  | recovered _ h => rw [h]; decide
  | settled id actual late _ hid h => rcases h with h | h <;> rw [h] <;> decide

theorem Closes.counts (h : Closes c r r') : r.counts = true := by
  have hstate : r.state ≠ .released := by
    cases h with
    | released id reason _ h => rw [h]; decide
    | unknown id _ h => rw [h]; decide
    | recovered _ h => rw [h]; decide
    | settled id actual late _ hid h => rcases h with h | h <;> rw [h] <;> decide
  simp [ReservationRow.counts, hstate]

/-- **A call closes rows, or appends the reservation it accepted.** -/
theorem Moves.shape (h : Moves B now db c db') :
    (∃ g : ReservationRow → ReservationRow, db'.reservations.rows = db.reservations.rows.map g ∧
      ∀ r ∈ db.reservations.rows, g r = r ∨ Closes c r (g r)) ∨
    ∃ id x s, c = .reserve id x ∧ 0 ≤ x ∧ db'.state = some s ∧
      db.committed (B.windowDate now) + x ≤ s.effective ∧ B.checkHourly db now = .ok () ∧
      db'.reservations.rows = db.reservations.rows ++ [⟨id, B.windowDate now, .opened, x, none, none, now⟩] := by
  have hsame : ∀ {d : BudgetDb}, d.reservations = db.reservations →
      ∃ g : ReservationRow → ReservationRow, d.reservations.rows = db.reservations.rows.map g ∧
        ∀ r ∈ db.reservations.rows, g r = r ∨ Closes c r (g r) :=
    fun hd => ⟨id, by rw [hd, List.map_id], fun r _ => Or.inl rfl⟩
  cases h with
  | initialized v hv h => exact Or.inl (hsame rfl)
  | lowered v s hv h hlt => exact Or.inl (hsame (B.roll_reservations now db))
  | unchanged s hv h => exact Or.inl (hsame (B.roll_reservations now db))
  | kept s p hv h hp hlt => exact Or.inl (hsame (B.roll_reservations now db))
  | scheduled v s hv h hlt => exact Or.inl (hsame (B.roll_reservations now db))
  | reserved id x s t hx h hcap hhour ht =>
    exact Or.inr ⟨id, x, s, rfl, hx, h, hcap, hhour, (Table.insert?_eq_some ht).2⟩
  | closed _ hc p f hf h =>
    refine Or.inl ⟨fun r => if p r then f r else r, rfl, ?_⟩
    intro r hr
    by_cases hp : p r = true
    · refine Or.inr ?_
      show Closes c r (if p r then f r else r)
      rw [if_pos hp]
      exact h r hr hp
    · exact Or.inl (if_neg hp)
  | repeated id actual late => exact Or.inl (hsame rfl)
  | reported => exact Or.inl (hsame (B.roll_reservations now db))

theorem Moves.row (h : Moves B now db c db') (hr : r ∈ db.reservations.rows) :
    ∃ r' ∈ db'.reservations.rows, r' = r ∨ Closes c r r' := by
  rcases h.shape with ⟨g, hrows, hg⟩ | ⟨id, x, s, -, -, -, -, -, hrows⟩
  · exact ⟨g r, hrows ▸ List.mem_map_of_mem hr, hg r hr⟩
  · exact ⟨r, hrows ▸ List.mem_append_left _ hr, Or.inl rfl⟩

/-! ## What a window holds -/

def SettlesWithin (db : BudgetDb) (call : Int × Call) : Prop :=
  match call.2 with
  | .settle id actual _ => ∀ r ∈ db.reservations.rows, r.reservationId = id → actual ≤ r.reservedMicros
  | _ => True

def BudgetDb.NonNegative (db : BudgetDb) : Prop := ∀ r ∈ db.reservations.rows, 0 ≤ r.reservedMicros

theorem Moves.nonNegative (h : Moves B now db c db') (hn : db.NonNegative) : db'.NonNegative := by
  intro r' hr'
  rcases h.shape with ⟨g, hrows, hg⟩ | ⟨id, x, s, -, hx, -, -, -, hrows⟩
  · rw [hrows] at hr'
    obtain ⟨r, hr, rfl⟩ := List.mem_map.mp hr'
    rcases hg r hr with heq | hc
    · rw [heq]
      exact hn r hr
    · rw [hc.same.2.2.1]
      exact hn r hr
  · rw [hrows] at hr'
    rcases List.mem_append.mp hr' with hr | hr
    · exact hn r' hr
    · obtain rfl := List.mem_singleton.mp hr
      exact hx

/-- What one row holds of window `w`. -/
def ReservationRow.holds (w : Int) (r : ReservationRow) : Int := if r.windowDate = w then r.committed else 0

theorem committed_eq (db : BudgetDb) (w : Int) :
    db.committed w = (db.reservations.rows.map (ReservationRow.holds w)).sum := by
  unfold BudgetDb.committed
  induction db.reservations.rows with
  | nil => rfl
  | cons r rows ih =>
    by_cases hw : r.windowDate = w
    · simp [ReservationRow.holds, hw, ih]
    · simp [ReservationRow.holds, hw, ih]

theorem Closes.holds_le (h : Closes c r r') (hmem : r ∈ db.reservations.rows)
    (hn : 0 ≤ r.reservedMicros) (hs : SettlesWithin db (now, c)) (w : Int) : r'.holds w ≤ r.holds w := by
  have hle : r'.committed ≤ r.committed := by
    cases h with
    | released id reason _ h => simpa [ReservationRow.committed, h] using hn
    | unknown id _ h => simp [ReservationRow.committed, h]
    | recovered _ h => simp [ReservationRow.committed, h]
    | settled id actual late _ hid h =>
      have hle := hs r hmem hid
      rcases h with h | h <;> simpa [ReservationRow.committed, h] using hle
  unfold ReservationRow.holds
  rw [h.same.2.1]
  split
  · exact hle
  · exact le_refl _

/-- **Only a reservation raises what a window holds.** -/
theorem committed_le (h : Moves B now db c db') (hn : db.NonNegative) (hs : SettlesWithin db (now, c)) (w : Int) :
    db'.committed w ≤ db.committed w ∨
      w = B.windowDate now ∧ ∃ s, db'.state = some s ∧ db'.committed w ≤ s.effective := by
  rw [committed_eq, committed_eq]
  rcases h.shape with ⟨g, hrows, hg⟩ | ⟨id, x, s, -, hx, hstate, hcap, -, hrows⟩
  · left
    rw [hrows, List.map_map]
    refine List.sum_le_sum fun r hr => ?_
    rcases hg r hr with heq | hc
    · simp [heq]
    · exact hc.holds_le hr (hn r hr) hs w
  · rw [hrows, List.map_append, List.sum_append]
    by_cases hw : B.windowDate now = w
    · subst hw
      rw [committed_eq] at hcap
      exact Or.inr ⟨rfl, s, hstate, by simpa [ReservationRow.holds, ReservationRow.committed] using hcap⟩
    · exact Or.inl (by simp [ReservationRow.holds, hw])

/-! ## The hourly check -/

theorem recent_sorted (db : BudgetDb) (since : Int) : (db.recent since).Pairwise (· ≤ ·) :=
  List.pairwise_insertionSort _ _

/-- Calls after `since` and after `c`. -/
theorem recent_countP (db : BudgetDb) (since c : Int) :
    (db.recent since).countP (fun t => decide (c < t)) =
      db.reservations.rows.countP fun r => decide (c < r.createdAt) && (decide (since < r.createdAt) && r.counts) := by
  unfold BudgetDb.recent
  rw [(List.perm_insertionSort _ _).countP_eq, List.countP_map, List.countP_filter]
  rfl

theorem recent_length (db : BudgetDb) (since : Int) :
    (db.recent since).length = db.reservations.rows.countP fun r => decide (since < r.createdAt) && r.counts := by
  unfold BudgetDb.recent
  rw [List.length_insertionSort, List.length_map, ← List.countP_eq_length_filter]

theorem checkHourly_iff (db : BudgetDb) (t : Int) :
    B.checkHourly db t = .ok () ↔ (db.recent (t - hour)).length < B.callsPerHour := by
  unfold Budget.checkHourly
  by_cases h : B.callsPerHour ≤ (db.recent (t - hour)).length
  · simp [h]
  · simpa [h] using Nat.lt_of_not_le h

variable {leaves after : Int}

/-- **The time a refusal names is the first at which the check passes.** -/
theorem checkHourly_retry {t : Int} (h : B.checkHourly db t = .error (.hourlyLimit leaves after))
    (t' : Int) : B.checkHourly db t' = .ok () ↔ leaves ≤ t' := by
  rw [checkHourly_iff]
  have hpos := B.positive
  unfold Budget.checkHourly at h
  by_cases hlen : B.callsPerHour ≤ (db.recent (t - hour)).length
  · simp only [dif_pos hlen, Except.error.injEq, BudgetError.hourlyLimit.injEq] at h
    have hidx : (db.recent (t - hour)).length - B.callsPerHour < (db.recent (t - hour)).length := by omega
    have hleaves : (db.recent (t - hour))[(db.recent (t - hour)).length - B.callsPerHour] + hour = leaves := h.1
    rcases le_or_gt t t' with hle | hlt
    · -- later, what is still in the window is the end of the sorted list
      have hcount : (db.recent (t' - hour)).length =
          (db.recent (t - hour)).countP fun a => decide (t' - hour < a) := by
        rw [recent_countP, recent_length]
        refine List.countP_congr fun r _ => ?_
        simp only [Bool.and_eq_true, decide_eq_true_eq]
        constructor
        · rintro ⟨hin, hcounts⟩
          exact ⟨hin, by omega, hcounts⟩
        · rintro ⟨hin, -, hcounts⟩
          exact ⟨hin, hcounts⟩
      rw [hcount, countP_above_lt_iff (recent_sorted db _) hpos hlen]
      omega
    · have hmore : (db.recent (t - hour)).length ≤ (db.recent (t' - hour)).length := by
        rw [recent_length, recent_length]
        refine List.countP_mono_left fun r _ hr => ?_
        simp only [Bool.and_eq_true, decide_eq_true_eq] at hr ⊢
        exact ⟨by omega, hr.2⟩
      have hin : t - hour < (db.recent (t - hour))[(db.recent (t - hour)).length - B.callsPerHour] := by
        have hmem := List.getElem_mem hidx
        unfold BudgetDb.recent at hmem
        rw [(List.perm_insertionSort _ _).mem_iff, List.mem_map] at hmem
        obtain ⟨r, hr, hcreated⟩ := hmem
        have hafter := (List.mem_filter.mp hr).2
        simp only [Bool.and_eq_true, decide_eq_true_eq] at hafter
        exact hcreated ▸ hafter.1
      constructor
      · intro hfew
        omega
      · intro hlate
        omega
  · simp [hlen] at h

/-- The calls of one hour, from `a` on. -/
def BudgetDb.callsFrom (db : BudgetDb) (a : Int) : Nat :=
  db.reservations.rows.countP fun r => decide (a ≤ r.createdAt) && (decide (r.createdAt < a + hour) && r.counts)

theorem callsFrom_le (h : Moves B now db c db') (a : Int) (hdb : db.callsFrom a ≤ B.callsPerHour) :
    db'.callsFrom a ≤ B.callsPerHour := by
  unfold BudgetDb.callsFrom
  rcases h.shape with ⟨g, hrows, hg⟩ | ⟨id, x, s, -, -, -, -, hhour, hrows⟩
  · rw [hrows, List.countP_map]
    refine le_trans (List.countP_mono_left fun r hr hin => ?_) hdb
    rcases hg r hr with heq | hc
    · simpa [heq] using hin
    · simp only [Function.comp, hc.same.2.2.2, Bool.and_eq_true] at hin
      simp only [Bool.and_eq_true]
      exact ⟨hin.1, hin.2.1, hc.counts⟩
  · rw [hrows, List.countP_append]
    by_cases hin : a ≤ now ∧ now < a + hour
    · -- the others of the hour are among the calls the check saw
      have hseen := (checkHourly_iff db now).mp hhour
      rw [recent_length] at hseen
      have hold : db.reservations.rows.countP
          (fun r => decide (a ≤ r.createdAt) && (decide (r.createdAt < a + hour) && r.counts)) ≤
          db.reservations.rows.countP fun r => decide (now - hour < r.createdAt) && r.counts := by
        refine List.countP_mono_left fun r _ hr => ?_
        simp only [Bool.and_eq_true, decide_eq_true_eq] at hr ⊢
        exact ⟨by omega, hr.2.2⟩
      have hone := List.countP_le_length (p := fun r : ReservationRow => decide (a ≤ r.createdAt) &&
        (decide (r.createdAt < a + hour) && r.counts)) (l := [⟨id, B.windowDate now, .opened, x, none, none, now⟩])
      simp only [List.length_singleton] at hone
      omega
    · have hnone : [(⟨id, B.windowDate now, .opened, x, none, none, now⟩ : ReservationRow)].countP
          (fun r => decide (a ≤ r.createdAt) && (decide (r.createdAt < a + hour) && r.counts)) = 0 := by
        rw [List.countP_eq_zero]
        intro r hr
        obtain rfl := List.mem_singleton.mp hr
        simp only [Bool.and_eq_true, decide_eq_true_eq]
        exact fun hc => hin ⟨hc.1, hc.2.1⟩
      rw [hnone, Nat.add_zero]
      exact hdb

/-! ## Runs -/

theorem Budget.run_concat (B : Budget) (calls : List (Int × Call)) (call : Int × Call) :
    B.run (calls ++ [call]) = B.step (B.run calls) call := List.foldl_append

/-- `cap` was the effective cap right after a call that read its time in window `w`. -/
def EffectiveDuring (B : Budget) (calls : List (Int × Call)) (w cap : Int) : Prop :=
  ∃ pre call s, pre ++ [call] <+: calls ∧ B.windowDate call.1 = w ∧ (B.run (pre ++ [call])).state = some s ∧
    s.effective = cap

/-- Window `w` holds no more than the largest cap that was effective during it. -/
def WithinCap (B : Budget) (calls : List (Int × Call)) (w : Int) : Prop :=
  (B.run calls).committed w ≤ 0 ∨ ∃ cap, EffectiveDuring B calls w cap ∧ (B.run calls).committed w ≤ cap

theorem EffectiveDuring.later {calls : List (Int × Call)} {w cap : Int} (h : EffectiveDuring B calls w cap)
    (call : Int × Call) : EffectiveDuring B (calls ++ [call]) w cap := by
  obtain ⟨pre, call', s, hpre, hw, hs, hcap⟩ := h
  exact ⟨pre, call', s, hpre.trans (List.prefix_append _ _), hw, hs, hcap⟩

/-- What every state of a run keeps. -/
structure Bounded (B : Budget) (calls : List (Int × Call)) : Prop where
  nonNegative : (B.run calls).NonNegative
  hourly : ∀ a, (B.run calls).callsFrom a ≤ B.callsPerHour
  cap : ∀ w, WithinCap B calls w

theorem Bounded.call {calls : List (Int × Call)} {call : Int × Call} (h : Bounded B calls)
    (hs : SettlesWithin (B.run calls) call) : Bounded B (calls ++ [call]) := by
  have hrun := B.run_concat calls call
  rcases B.step_cases (B.run calls) call with ⟨-, hmoves⟩ | ⟨-, hsame⟩
  · rw [← hrun] at hmoves
    refine ⟨hmoves.nonNegative h.nonNegative, fun a => callsFrom_le hmoves a (h.hourly a), ?_⟩
    intro w
    rcases committed_le hmoves h.nonNegative hs w with hle | ⟨rfl, s, hstate, hcap⟩
    · refine (h.cap w).imp hle.trans ?_
      rintro ⟨cap, hcap, hbound⟩
      exact ⟨cap, hcap.later call, hle.trans hbound⟩
    · exact Or.inr ⟨s.effective, ⟨calls, call, s, List.prefix_refl _, rfl, hstate, rfl⟩, hcap⟩
  · rw [hsame] at hrun
    refine ⟨hrun ▸ h.nonNegative, fun a => hrun ▸ h.hourly a, ?_⟩
    intro w
    unfold WithinCap
    rw [hrun]
    refine (h.cap w).imp id ?_
    rintro ⟨cap, hcap, hbound⟩
    exact ⟨cap, hcap.later call, hbound⟩

theorem run_bounded (calls : List (Int × Call)) (hm : Meets B.step SettlesWithin .empty calls) : Bounded B calls := by
  induction calls using List.reverseRecOn with
  | nil =>
    exact ⟨fun r hr => absurd hr List.not_mem_nil, fun a => Nat.zero_le _, fun w => Or.inl (le_refl _)⟩
  | append_singleton calls call ih =>
    obtain ⟨hpre, hlast, -⟩ := Meets.append.mp hm
    exact (ih hpre).call hlast

theorem run_row (calls : List (Int × Call)) (call : Int × Call) (hr : r ∈ (B.run calls).reservations.rows) :
    ∃ r' ∈ (B.run (calls ++ [call])).reservations.rows, r' = r ∨ Closes call.2 r r' := by
  rw [B.run_concat]
  rcases B.step_cases (B.run calls) call with ⟨-, hmoves⟩ | ⟨-, hsame⟩
  · exact hmoves.row hr
  · exact ⟨r, hsame.symm ▸ hr, Or.inl rfl⟩

theorem run_settled (calls rest : List (Int × Call)) (hr : r ∈ (B.run calls).reservations.rows) (hs : r.state = .settled) :
    r ∈ (B.run (calls ++ rest)).reservations.rows := by
  induction rest using List.reverseRecOn with
  | nil => simpa using hr
  | append_singleton rest call ih =>
    rw [← List.append_assoc]
    obtain ⟨r', hr', rfl | hc⟩ := run_row (calls ++ rest) call ih
    · exact hr'
    · exact absurd hs hc.not_settled

theorem reserve_hourly {id : String} {x : Int} (h : B.commit (now, .reserve id x) db = .error (.hourlyLimit leaves after) db') :
    B.checkHourly db now = .error (.hourlyLimit leaves after) := by
  obtain ⟨mid, hbody⟩ := transaction_raised h
  have hbody := Tx.map_error hbody
  rcases Tx.refuseIf_bind_error hbody with ⟨-, he⟩ | ⟨-, hbody⟩
  · cases he
  rcases Tx.refuseIf_bind_error (Tx.get_bind_error hbody) with ⟨-, he⟩ | ⟨-, hbody⟩
  · cases he
  rcases Tx.bind_error hbody with hroll | ⟨_, next, hroll, hbody⟩
  · cases hroll
  cases hroll
  have hbody := Tx.get_bind_error hbody
  cases hs : (B.roll now db).state with
  | none =>
    simp only [hs] at hbody
    cases hbody
  | some s =>
    simp only [hs] at hbody
    rcases Tx.refuseIf_bind_error hbody with ⟨-, he⟩ | ⟨-, hbody⟩
    · cases he
    rcases Tx.check_bind_error hbody with hcheck | ⟨_, -, hbody⟩
    · rw [B.roll_checkHourly] at hcheck
      exact hcheck
    · rw [B.roll_reservations] at hbody
      cases ht : db.reservations.insert? ⟨id, B.windowDate now, .opened, x, none, none, now⟩ with
      | none =>
        simp only [ht] at hbody
        cases hbody
      | some t =>
        simp only [ht] at hbody
        cases hbody

/-- **The promise of the budget**, over the calls made so far. -/
structure NeverOverspent (B : Budget) (calls : List (Int × Call)) : Prop where
  /-- A window never holds more than the largest cap effective during it. -/
  withinCap : ∀ w, WithinCap B calls w
  /-- The reservations of any hour. -/
  hourly : ∀ a, (B.run calls).callsFrom a ≤ B.callsPerHour
  /-- A row keeps its identity, window, amount and time, and moves forward only. -/
  forward : ∀ call, ∀ r ∈ (B.run calls).reservations.rows, ∃ r' ∈ (B.run (calls ++ [call])).reservations.rows,
    r.Same r' ∧ r.state.MayBecome r'.state
  /-- A settlement is final, the figure included. -/
  settledOnce : ∀ rest, ∀ r ∈ (B.run calls).reservations.rows, r.state = .settled →
    r ∈ (B.run (calls ++ rest)).reservations.rows
  /-- Right after an accepted reservation its window is within the effective cap. -/
  accepted : ∀ now id x, B.commit (now, .reserve id x) (B.run calls) = .ok () (B.run (calls ++ [(now, .reserve id x)])) →
    ∃ s, (B.run (calls ++ [(now, .reserve id x)])).state = some s ∧
      (B.run (calls ++ [(now, .reserve id x)])).committed (B.windowDate now) ≤ s.effective
  /-- A refusal for the hour names the first time at which the check passes, if nothing else changes. -/
  retry : ∀ now id x leaves after db', B.commit (now, .reserve id x) (B.run calls) = .error (.hourlyLimit leaves after) db' →
    ∀ t, B.checkHourly (B.run calls) t = .ok () ↔ leaves ≤ t
  refused : ∀ call e db', B.commit call (B.run calls) = .error e db' →
    db' = B.run calls ∧ B.run (calls ++ [call]) = B.run calls

/-- **The model budget is never overspent**, over every sequence of calls whose settlements stay within what was
reserved: in every state of the run. -/
theorem budget_never_overspent (B : Budget) (calls : List (Int × Call)) (hm : Meets B.step SettlesWithin .empty calls) :
    ∀ pre, pre <+: calls → NeverOverspent B pre := by
  intro pre hpre
  have hb := run_bounded pre (hm.of_prefix hpre)
  refine ⟨hb.cap, hb.hourly, ?_, fun rest r hr hs => run_settled pre rest hr hs, ?_, ?_, ?_⟩
  · intro call r hr
    obtain ⟨r', hr', rfl | hc⟩ := run_row pre call hr
    · exact ⟨r', hr', ⟨rfl, rfl, rfl, rfl⟩, Or.inl rfl⟩
    · exact ⟨r', hr', hc.same, hc.mayBecome⟩
  · intro now id x hok
    obtain ⟨s, t, -, hs, hcap, -, ht, hdb, -⟩ := reserveInTx_ok (discard_ok (transaction_ok hok)).choose_spec
    rw [hdb]
    refine ⟨s, hs, ?_⟩
    rw [committed_eq, (Table.insert?_eq_some ht).2, List.map_append, List.sum_append, ← committed_eq]
    simpa [ReservationRow.holds, ReservationRow.committed] using hcap
  · intro now id x leaves after db' h
    exact checkHourly_retry (reserve_hourly h)
  · intro call e db' h
    refine ⟨transaction_error h, ?_⟩
    rw [B.run_concat]
    rcases B.step_cases (B.run pre) call with ⟨hok, -⟩ | ⟨-, hsame⟩
    · rw [hok] at h
      cases h
    · exact hsame

def sampleCalls : List (Int × Call) :=
  [(0, .setCap 100), (1, .reserve "a" 60), (2, .reserve "b" 30), (3, .settle "a" 50 false), (1 + hour, .reserve "b" 30)]

theorem budget_never_overspent_sample : NeverOverspent sampleBudget sampleCalls :=
  budget_never_overspent sampleBudget sampleCalls
    ⟨trivial, trivial, trivial, (by unfold SettlesWithin; decide +kernel), trivial, trivial⟩ _ (List.prefix_refl _)

example : ((sampleBudget.run sampleCalls).committed (-1), (sampleBudget.run sampleCalls).callsFrom 2) = (80, 1) := by
  decide +kernel

end MmrTrader.Ai
