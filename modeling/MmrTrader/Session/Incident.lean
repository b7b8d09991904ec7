import MmrTrader.Session.Deadlines

/-!
# A session ends flat or as an incident

Any calls of any number of processes, with ports that answer or raise as they like and processes that
die between two writes.

* `Overdue` — the stored row has its flatten issued and its deadline behind it, and is not FLAT.
* `overdue_turn` — a call on an overdue date, without a FLAT receipt, leaves INCIDENT: no port can
  keep it from it.
* `session_ends` — the law of the stored rows, what later states keep, and what one more call does.
* `late_flatten_not_incident` — a flatten first issued after its deadline gets a window of its own.
-/

namespace MmrTrader.Session

open MmrTrader.Lib

/-- The date's row: its flatten is issued, its deadline has passed, and it is not FLAT. -/
structure Overdue (now : Int) (r : SessionControllerState) : Prop where
  issued : r.flattenIssued = true
  deadline : Controller.reached r.flatDeadlineUtc now = true
  notFlat : r.state ≠ .FLAT

variable {c : Controller} {now : Int} {latest : Date} {w₀ : World} {mortal : Prop} {a : Answers}
  {s : SessionSchedule} {st : SessionControllerState}

variable {log : List Event}

theorem deadlines_issued (hb : Bound c log now s st) (hissued : st.flattenIssued = true) :
    c.deadlines a now st = (do
      let st' ← Controller.poll a now st
      c.missed now st') := by
  have hcancel := hb.flattened hissued
  have hcut := hb.cancelled hcancel
  have h₁ : Controller.entryCutoff now st = pure st := if_neg (by simp [hcut])
  have h₂ : c.cancelEntries a now st = pure st := if_neg (by simp [hcancel])
  have h₃ : c.protect a st = pure () := if_neg (by simp [hissued])
  have h₄ : c.flatten a now st = pure st := if_neg (by simp [hissued])
  unfold Controller.deadlines
  rw [h₁, pure_bind, h₂, pure_bind, h₃, pure_bind, h₄, pure_bind]

/-- **A pass over an overdue row** ends in INCIDENT, whatever the ports do short of a FLAT receipt. -/
theorem overdue_pass (hs : c.calendar.sessions st.sessionDate = some s) (hover : Overdue now st)
    (hflat : ¬ a.SaysFlat) :
    Tx.Spec (At c now latest w₀ mortal st) (c.runDueFrom a now st)
      (fun st' w => At c now latest w₀ mortal st' w ∧ st'.sessionDate = st.sessionDate ∧ st'.state = .INCIDENT)
      (Failed c now latest w₀ mortal False) := by
  have hord := c.calendar.sessions_ordered _ _ hs
  have hterminal : ∀ state : SessionState, state.isTerminal = true → state ≠ .FLAT → state = .INCIDENT := by
    intro state
    cases state <;> simp [SessionState.isTerminal]
  unfold Controller.runDueFrom
  split
  · rename_i hstop
    refine Tx.Spec.pure fun w hw => ⟨hw, rfl, ?_⟩
    rcases hstop with hterm | hnone
    · exact hterminal _ hterm hover.notFlat
    · rw [(hw.bound hs).columns.2.1] at hnone
      cases hnone
  · rename_i hgo
    have hopen : st.state.isTerminal = false := by simpa using fun h => hgo (Or.inl h)
    intro w hw
    rw [deadlines_issued (hw.bound hs) hover.issued]
    refine Tx.Spec.bind (poll_spec hs hopen fun _ h => hflat h) (fun st₁ => ?_) w hw
    refine Tx.Spec.of_pre (p := Settles st st₁ ∧ st₁.state ≠ .FLAT) (fun v hv => ⟨hv.2.1, fun h => hflat (hv.2.2 h)⟩) ?_
    rintro ⟨hset, hnot⟩
    have hs₁ : c.calendar.sessions st₁.sessionDate = some s := by rw [hset.date]; exact hs
    refine (missed_spec hs₁ (fun _ => by rw [hset.flatten]; exact hover.issued) hord).conseq (fun _ h => h.1) ?_
      fun _ _ => id
    rintro st₂ v ⟨hv, hset', hmissed, hkept⟩
    refine ⟨hv, hset'.date.trans hset.date, ?_⟩
    by_cases hterm : st₁.state.isTerminal = true
    · rw [hkept hterm]
      exact hterminal _ hterm hnot
    · exact hmissed (by simpa using hterm) (by rw [hset.deadline]; exact hover.deadline)

theorem overdue_session (hrow : RowOk c log now st) (hover : Overdue now st) :
    ∃ s, c.calendar.sessions st.sessionDate = some s ∧ Bound c log now s st := by
  cases hrow with
  | closed _ hr =>
    have := hover.issued
    rw [hr] at this
    cases this
  | bound s h hb => exact ⟨s, h, hb⟩

variable {r : SessionControllerState}

theorem overdue_recover (hlatest : c.calendar.dateOf now ≤ latest) (hover : Overdue now r) (hflat : ¬ a.SaysFlat) :
    Tx.Spec (fun w => Kept c now latest w₀ mortal w ∧ w.store.get? (c.calendar.dateOf now) = some r)
      (c.recover a now)
      (fun st w => At c now latest w₀ mortal st w ∧ st.sessionDate = c.calendar.dateOf now ∧ st.state = .INCIDENT)
      (Failed c now latest w₀ mortal False) := by
  unfold Controller.recover
  refine Tx.Spec.get_bind fun v => ?_
  refine Tx.Spec.of_pre (p := v.store.get? (c.calendar.dateOf now) = some r ∧
    ∃ s, c.calendar.sessions r.sessionDate = some s ∧ Bound c v.log now s r) ?_ ?_
  · rintro w ⟨⟨hk, hget⟩, rfl⟩
    exact ⟨hget, overdue_session (hk.inv.rows r (Table.get?_eq_some.mp hget).1) hover⟩
  rintro ⟨hget, s, hs, hb⟩
  have hkey := (Table.get?_eq_some.mp hget).2
  have hdate : s.sessionDate = c.calendar.dateOf now := (c.calendar.sessions_date _ _ hs).trans hkey
  have hresolve : c.calendar.resolve now = some s := by
    rw [Calendar.resolve, ← hkey]
    exact hs
  have hs' : c.calendar.sessions s.sessionDate = some s := by rw [hdate]; exact hresolve
  rw [hresolve]
  dsimp only
  rw [hdate, hget]
  dsimp only
  split
  · rename_i hincident
    refine (remember_spec (by rw [hkey]; exact hget)).conseq (fun _ h => ⟨h.1.1, h.2⟩) ?_ fun _ _ => id
    rintro st' w ⟨rfl, hw⟩
    exact ⟨hw, hkey, hincident⟩
  · unfold Controller.resume
    refine Tx.Spec.of_pre (p := StartsOk c now v.log) ?_ fun hstarts => ?_
    · rintro w ⟨⟨hk, -⟩, rfl⟩
      exact hk.inv.starts
    have hdl := keptFlatDeadline_eq hb hstarts hs'
    have hstate : (c.rebind s r).state = r.state := if_neg hb.opened
    refine Tx.Spec.bind (persist_spec ?_) fun _ => ?_
    · rintro w ⟨⟨hk, -⟩, rfl⟩
      refine ⟨hk, .bound s hs' (rebind_bound hb hstarts hs'), hdate.trans_le hlatest, fun r' hr' => ?_⟩
      rw [show (c.rebind s r).sessionDate = s.sessionDate from rfl, hdate, hget] at hr'
      cases hr'
      exact rebind_advances hb hstarts hs' (hdate.trans hkey.symm)
    · have hover' : Overdue now (c.rebind s r) :=
        ⟨hover.issued, (congrArg (Controller.reached · now) hdl).trans hover.deadline, by rw [hstate]; exact hover.notFlat⟩
      refine (overdue_pass hs' hover' hflat).conseq (fun _ h => h.1) ?_ fun _ _ => id
      rintro st' w ⟨hw, hd, hst⟩
      exact ⟨hw, hd.trans hdate, hst⟩

variable {t : Turn}

theorem overdue_act {d : Date} (hlatest : d ≤ latest)
    (hover : Overdue t.now r) (hfirst : ¬ t.first.SaysFlat) (hsecond : ¬ t.second.SaysFlat) :
    Tx.Spec (fun w => Kept c t.now latest w₀ mortal w ∧ t.date c w = d ∧ w.store.get? d = some r) (t.act c)
      (fun st w => At c t.now latest w₀ mortal st w ∧ st.sessionDate = d ∧ st.state = .INCIDENT)
      (Failed c t.now latest w₀ mortal False) := by
  cases hcall : t.call with
  | recover =>
    unfold Turn.act Turn.date
    rw [hcall]
    refine Tx.Spec.of_pre (p := c.calendar.dateOf t.now = d) (fun w hw => hw.2.1) fun hd => ?_
    subst hd
    exact (overdue_recover hlatest hover hfirst).conseq (fun _ h => ⟨h.1, h.2.2⟩) (fun _ _ => id) fun _ _ => id
  | runDue =>
    unfold Turn.act Turn.date
    rw [hcall]
    dsimp only
    unfold Controller.runDue Controller.requireState
    refine Tx.Spec.bind (Q := fun st w => At c t.now latest w₀ mortal st w ∧ st.sessionDate = d ∧
      (st.state = .INCIDENT ∨ st = r)) (Tx.Spec.get_bind fun v => ?_) fun st => ?_
    · cases hm : v.memory with
      | some st =>
        refine Tx.Spec.pure ?_
        rintro w ⟨⟨hk, hd, hget⟩, rfl⟩
        have hd' : st.sessionDate = d := by
          rw [workingDate, hm] at hd
          exact hd
        have hst := hk.inv.memory st hm
        rw [hd', hget] at hst
        cases hst
        exact ⟨⟨hk, hm⟩, hd', Or.inr rfl⟩
      | none =>
        refine Tx.Spec.of_pre (p := c.calendar.dateOf t.now = d) ?_ fun hd => ?_
        · rintro w ⟨⟨-, hd, -⟩, rfl⟩
          rw [workingDate, hm] at hd
          exact hd
        subst hd
        exact (overdue_recover hlatest hover hfirst).conseq (fun _ h => ⟨h.1.1, h.1.2.2⟩)
          (fun _ _ h => ⟨h.1, h.2.1, Or.inl h.2.2⟩) fun _ _ => id
    · refine Tx.Spec.of_pre (p := st.sessionDate = d ∧ (st.state = .INCIDENT ∨ st = r)) (fun w hw => hw.2) ?_
      rintro ⟨hd, hor⟩
      subst hd
      rcases hor with hincident | rfl
      · unfold Controller.runDueFrom
        rw [if_pos (Or.inl (by rw [hincident]; rfl))]
        exact Tx.Spec.pure fun w hw => ⟨hw.1, rfl, hincident⟩
      · refine Tx.Spec.of_pre (p := ∃ s, c.calendar.sessions st.sessionDate = some s) (fun w hw => ?_) ?_
        · obtain ⟨s, hs, -⟩ := overdue_session hw.1.row.2 hover
          exact ⟨s, hs⟩
        rintro ⟨s, hs⟩
        exact (overdue_pass hs hover hsecond).conseq (fun _ h => h.1) (fun _ _ => id) fun _ _ => id

variable {w : World}

/-- **An overdue date**: the next call on it that is not cut short leaves INCIDENT. -/
theorem overdue_turn (h : Inv c now (c.calendar.dateOf now) w) (hnow : now ≤ t.now) (hlives : t.crash = none)
    (hget : w.row (t.date c w) = some r) (hover : Overdue t.now r) (hfirst : ¬ t.first.SaysFlat) (hsecond : ¬ t.second.SaysFlat) :
    ∃ r', (turn c w t).row (t.date c w) = some r' ∧ r'.state = .INCIDENT := by
  have hpre : Kept c t.now (c.calendar.dateOf t.now) w False { w with lives := t.crash } ∧
      t.date c { w with lives := t.crash } = t.date c w ∧ w.store.get? (t.date c w) = some r := by
    refine ⟨?_, rfl, hget⟩
    have hk := (h.mono hnow (c.calendar.dateOf_mono hnow)).kept t.crash
    exact ⟨hk.inv, hk.later, fun _ => hlives⟩
  have hspec : Tx.Spec (fun v => Kept c t.now (c.calendar.dateOf t.now) w False v ∧ t.date c v = t.date c w ∧
      v.store.get? (t.date c w) = some r) (t.act c)
      (fun st v => At c t.now (c.calendar.dateOf t.now) w False st v ∧ st.sessionDate = t.date c w ∧
        st.state = .INCIDENT) (Failed c t.now (c.calendar.dateOf t.now) w False False) :=
    overdue_act (Turn.date_le h hnow) hover hfirst hsecond
  cases hact : t.act c { w with lives := t.crash } with
  | ok st w' =>
    obtain ⟨hat, hd, hst⟩ := hspec.of_ok hpre hact
    refine ⟨st, ?_, hst⟩
    unfold turn World.row
    rw [hact, ← hd]
    exact hat.inv.memory st hat.holds
  | error e w' =>
    obtain ⟨-, hcrash, hblame⟩ := hspec.of_error hpre hact
    by_cases he : e = .crashed
    · exact (hcrash he).elim
    · exact (hblame he).elim

/-! ## The law of the session -/

/-- The stored rows.  A flatten is issued for the one cause of its date, with the scheduled deadline, or, first issued
at or after that, a window of its own; FLAT rests on a FLAT receipt of the stored root, INCIDENT on a breaker signal. -/
structure SessionLaw (c : Controller) (w : World) : Prop where
  deadline : ∀ r ∈ w.store.rows, r.flattenIssued = true → ∃ s at_ deadline root,
    c.calendar.sessions r.sessionDate = some s ∧
      Event.start r.sessionDate at_ (c.flattenCommandId r.sessionDate) deadline (some root) ∈ w.log ∧
      r.flattenCommandId = some root ∧ r.flatDeadlineUtc = some deadline ∧
      deadline = if at_ < s.flatDeadlineUtc then s.flatDeadlineUtc else at_ + LATE_FLATTEN_WINDOW
  confirmed : ∀ r ∈ w.store.rows, r.state = .FLAT →
    ∃ root, r.flattenCommandId = some root ∧ Event.receipt root "FLAT" ∈ w.log
  signalled : ∀ r ∈ w.store.rows, r.state = .INCIDENT →
    ∃ signal, Event.breaker signal ∈ w.log ∧ r.flattenCommandId = some signal.key
  oneCause : ∀ date at_ cause deadline root, Event.start date at_ cause deadline root ∈ w.log →
    cause = c.flattenCommandId date

/-- One more call.  When it returns at or after the flatten start, the flatten is issued; on an overdue date, without
a FLAT receipt, it leaves INCIDENT unless the process dies in it. -/
structure CallLaw (c : Controller) (w : World) (t : Turn) : Prop where
  issues : ∀ st s, t.Returns c w st → c.calendar.sessions (t.date c w) = some s → s.flattenStartUtc ≤ t.now →
    ∃ r, (turn c w t).row (t.date c w) = some r ∧ r.flattenIssued = true
  incident : ∀ r, t.crash = none → w.row (t.date c w) = some r → Overdue t.now r → ¬ t.first.SaysFlat →
    ¬ t.second.SaysFlat → ∃ r', (turn c w t).row (t.date c w) = some r' ∧ r'.state = .INCIDENT

theorem Inv.law (h : Inv c now latest w) : SessionLaw c w := by
  have hbound : ∀ r ∈ w.store.rows, r.state.isTerminal = true ∨ r.flattenIssued = true →
      ∃ s, c.calendar.sessions r.sessionDate = some s ∧ Bound c w.log now s r := by
    intro r hr hor
    cases h.rows r hr with
    | closed _ hc =>
      rw [hc] at hor
      rcases hor with hor | hor <;> cases hor
    | bound s hs hb => exact ⟨s, hs, hb⟩
  refine ⟨fun r hr hissued => ?_, fun r hr hflat => ?_, fun r hr hincident => ?_, fun date at_ cause deadline root he => ?_⟩
  · obtain ⟨s, hs, hb⟩ := hbound r hr (Or.inr hissued)
    obtain ⟨at_, deadline, root, -, hmem, hroot, hd⟩ := hb.issued hissued
    obtain ⟨-, -, s', hs', hdl⟩ := h.starts _ _ _ _ _ hmem
    have hdate := c.calendar.sessions_date _ _ hs
    rw [hdate] at hmem hs'
    rw [hs] at hs'
    cases hs'
    exact ⟨s, at_, deadline, root, hs, hmem, hroot, hd, hdl⟩
  · obtain ⟨s, -, hb⟩ := hbound r hr (Or.inl (by rw [hflat]; rfl))
    exact hb.confirmed hflat
  · obtain ⟨s, -, hb⟩ := hbound r hr (Or.inl (by rw [hincident]; rfl))
    exact hb.signalled hincident
  · exact (h.starts _ _ _ _ _ he).1

/-- **A session ends flat or as an incident**, over every sequence of calls at nondecreasing times, whatever the
ports do and wherever processes die. -/
theorem session_ends (c : Controller) (pre post : List Turn)
    (hmono : (pre ++ post).Pairwise fun t u => t.now ≤ u.now) :
    SessionLaw c (turns c .empty pre) ∧ Later (turns c .empty pre) (turns c .empty (pre ++ post)) ∧
      ∀ t, (∀ u ∈ pre, u.now ≤ t.now) → CallLaw c (turns c .empty pre) t := by
  obtain ⟨hpre, hpost, hcross⟩ := List.pairwise_append.mp hmono
  refine ⟨?_, ?_, fun t ht => ?_⟩
  · obtain ⟨now, hnow⟩ := exists_clock pre
    exact (history_inv c hpre hnow).law
  · have hsplit : turns c .empty (pre ++ post) = turns c (turns c .empty pre) post := by
      simp [turns, List.foldl_append]
    rw [hsplit]
    cases post with
    | nil => exact Later.refl _
    | cons t ts =>
      have hinv : Inv c t.now (c.calendar.dateOf t.now) (turns c .empty pre) :=
        history_inv c hpre fun u hu => hcross u hu t List.mem_cons_self
      refine (turns_spec hinv (fun u hu => ?_) hpost).1
      rcases List.mem_cons.mp hu with rfl | hu
      · exact le_refl _
      · exact (List.pairwise_cons.mp hpost).1 u hu
  · have hinv := history_inv c hpre ht
    refine ⟨fun st s hret hs hdue => ?_, fun r hlives hget hover hf hs' => ?_⟩
    · obtain ⟨hi, -, hreturned, -⟩ := turn_spec hinv (le_refl _) (le_refl _) (Turn.date_le hinv (le_refl _))
      obtain ⟨hmem, hpassed⟩ := hreturned st hret
      refine ⟨st, ?_, (hpassed.2 s hs).flatten hdue⟩
      rw [World.row, ← hpassed.1]
      exact hi.memory st hmem
    · exact overdue_turn hinv (le_refl _) hlives hget hover hf hs'

/-! ## A flatten issued late -/

def Event.isFlatReceipt : Event → Bool
  | .receipt _ state => state = "FLAT"
  | _ => false

/-- One reading of the law: a call one late window past the scheduled deadline, with no FLAT receipt so far, leaves
INCIDENT. -/
def IncidentAfterWindow (c : Controller) (history : List Turn) (t : Turn) (s : SessionSchedule) : Prop :=
  s.flatDeadlineUtc + LATE_FLATTEN_WINDOW ≤ t.now →
    (turn c (turns c .empty history) t).log.any Event.isFlatReceipt = false →
    ∃ r, (turn c (turns c .empty history) t).row s.sessionDate = some r ∧ r.state = .INCIDENT

/-- The trader was down until after the window: the flatten is issued then, and the next call waits for it. -/
theorem late_flatten_not_incident :
    ¬ IncidentAfterWindow sampleController [⟨.recover, 162400000000, quietAnswers, quietAnswers, none⟩]
      ⟨.runDue, 162405000000, quietAnswers, quietAnswers, none⟩ sampleSchedule := by
  intro h
  obtain ⟨r, hr, hstate⟩ := h (by decide) rfl
  have hrow : ((turn sampleController (turns sampleController .empty
      [⟨.recover, 162400000000, quietAnswers, quietAnswers, none⟩])
      ⟨.runDue, 162405000000, quietAnswers, quietAnswers, none⟩).row 1).map (·.state) = some .FLATTENING := rfl
  rw [show sampleSchedule.sessionDate = 1 from rfl] at hr
  rw [hr, Option.map_some, hstate] at hrow
  cases hrow

/-- Started in time, with no receipt at all, the session is an incident at its deadline. -/
theorem silent_session_incident :
    CallLaw sampleController (turns sampleController .empty
      [⟨.recover, 161100000000, quietAnswers, quietAnswers, none⟩])
      ⟨.runDue, 161700000000, quietAnswers, quietAnswers, none⟩ :=
  (session_ends sampleController [⟨.recover, 161100000000, quietAnswers, quietAnswers, none⟩] []
    (by simp)).2.2 _ (by simp)

end MmrTrader.Session
