import MmrTrader.Session.ControllerLaws

/-!
# Deadlines over a multi-day run

One process as the service drives it: one `recover`, then `run_due` at nondecreasing times that may
cross any number of dates.

* `DeadlinesMet` — what a tick on a session date is to leave.
* `OnTime` — the tick is on the date the process was started on, or nothing is due yet; and the
  entry window of the start date does not outlast the date's own.
* `session_deadlines_iff` — every tick meets its deadlines exactly when every tick is on time.
* `next_session_unbound` — a process started on a closed day leaves the next session without any.
-/

namespace MmrTrader.Session

open MmrTrader.Lib

def World.row (w : World) (date : Date) : Option SessionControllerState := w.store.get? date

/-- What a tick at `now`, on the date of `s`, is to leave. -/
structure DeadlinesMet (c : Controller) (w : World) (now : Int) (s : SessionSchedule) : Prop where
  cutoff : s.entryCutoffUtc ≤ now → ∃ r, w.row s.sessionDate = some r ∧ r.entryCutoffReached = true
  cancel : s.cancelEntriesUtc ≤ now → ∃ r, w.row s.sessionDate = some r ∧ r.cancelIssued = true
  flatten : s.flattenStartUtc ≤ now → ∃ r, w.row s.sessionDate = some r ∧ r.flattenIssued = true ∧
    ∃ at_ deadline root, r.flattenCommandId = some root ∧
      Event.start s.sessionDate at_ (c.flattenCommandId s.sessionDate) deadline (some root) ∈ w.log
  entries : c.entriesAllowed w.memory now = true → allowsNewEntry now s = true

/-- A tick of a process that was started at `start`. -/
structure OnTime (cal : Calendar) (start now : Int) (s : SessionSchedule) : Prop where
  bound : s.sessionDate = cal.dateOf start ∨ now < s.entryCutoffUtc
  window : ∀ b, cal.resolve start = some b → b.openUtc ≤ now → now < b.entryCutoffUtc → now < b.closeUtc →
    allowsNewEntry now s = true

def tickTurn (t : Int × Answers) : Turn := ⟨.runDue, t.1, t.2, t.2, none⟩

/-- The process started at `start`, after the ticks. -/
def process (c : Controller) (w : World) (start : Int) (a : Answers) (ticks : List (Int × Answers)) : World :=
  turns c (turn c { w with memory := none } ⟨.recover, start, a, a, none⟩) (ticks.map tickTurn)

/-- Between two ticks the process is bound to the date it was started on, and knows no later one. -/
structure Running (c : Controller) (start now : Int) (w : World) : Prop where
  inv : Inv c now (c.calendar.dateOf start) w
  holds : ∃ st, w.memory = some st ∧ st.sessionDate = c.calendar.dateOf start

variable {c : Controller} {start now : Int} {w : World}
variable {s : SessionSchedule}

theorem allowsNewEntry_iff :
    allowsNewEntry now s = true ↔
      s.openingStabilizationEndUtc ≤ now ∧ now < s.entryCutoffUtc ∧ s.openUtc ≤ now ∧ now < s.closeUtc := by
  unfold allowsNewEntry
  split
  · simp; omega
  · split
    · simp; omega
    · split
      · simp; omega
      · simp; omega

/-- **Entries are allowed by the schedule the process was started on**, whatever the date is now. -/
theorem entriesAllowed_iff (h : Running c start now w) :
    c.entriesAllowed w.memory now = true ↔
      ∃ b, c.calendar.resolve start = some b ∧ b.openUtc ≤ now ∧ now < b.entryCutoffUtc ∧ now < b.closeUtc := by
  obtain ⟨st, hmem, hdate⟩ := h.holds
  have hrow : RowOk c w.log now st := h.inv.rows st (Table.get?_eq_some.mp (h.inv.memory st hmem)).1
  rw [hmem]
  cases hrow with
  | closed hnone hst =>
    have hresolve : c.calendar.resolve start = none := by
      rw [Calendar.resolve, ← hdate]
      exact hnone
    constructor
    · intro hallowed
      rw [hst] at hallowed
      cases hallowed
    · rintro ⟨b, hb, -⟩
      rw [hresolve] at hb
      cases hb
  | bound b hb hbound =>
    have hresolve : c.calendar.resolve start = some b := by
      rw [Calendar.resolve, ← hdate]
      exact hb
    obtain ⟨hopen, hclose, hcut, hcancel, hflat⟩ := hbound.columns
    constructor
    · intro hallowed
      simp only [Controller.entriesAllowed] at hallowed
      by_cases hreached : st.entryCutoffReached = true
      · simp [hreached] at hallowed
      by_cases hstate : st.state = .OPEN
      · have hissued : st.flattenIssued = false := by
          by_contra hi
          exact hreached (hbound.cancelled (hbound.flattened (by simpa using hi)))
        simp only [hreached, hstate, Controller.scheduleOfRow, hopen, hclose, hcut, hcancel, hflat,
          hbound.deadline hissued] at hallowed
        have hallowed' := allowsNewEntry_iff.mp hallowed
        exact ⟨b, hresolve, hallowed'.2.2.1, hallowed'.2.1, hallowed'.2.2.2⟩
      · simp [hstate] at hallowed
    · rintro ⟨b', hb', hfrom, hto, hclosed⟩
      rw [hresolve] at hb'
      cases hb'
      have hreached : st.entryCutoffReached = false := by
        by_contra hr
        have := hbound.past (by simpa using hr)
        omega
      have hstate : st.state = .OPEN := by
        by_contra hne
        rw [hbound.cutoff.mpr hne] at hreached
        cases hreached
      have hissued : st.flattenIssued = false := by
        by_contra hi
        have := hbound.cancelled (hbound.flattened (by simpa using hi))
        rw [hreached] at this
        cases this
      simp only [Controller.entriesAllowed, hreached, hstate, Controller.scheduleOfRow, hopen, hclose, hcut, hcancel,
        hflat, hbound.deadline hissued]
      exact allowsNewEntry_iff.mpr ⟨hfrom, hto, hfrom, hclosed⟩

variable {t : Int × Answers}

theorem tick_running (h : Running c start now w) (hnow : now ≤ t.1) (ht : t.2.Succeed) :
    Running c start t.1 (turn c w (tickTurn t)) ∧
      ∃ st, (turn c w (tickTurn t)).memory = some st ∧ Passed c t.1 (c.calendar.dateOf start) st := by
  obtain ⟨st, hmem, hdate⟩ := h.holds
  have hworking : (tickTurn t).date c w = c.calendar.dateOf start := by
    change workingDate c w t.1 = _
    rw [workingDate, hmem]
    exact hdate
  obtain ⟨hinv, -, hreturned, hsucceed⟩ := turn_spec (t := tickTurn t) h.inv hnow (le_refl _) hworking.le
  obtain ⟨st', hret⟩ := hsucceed rfl ht ht
  obtain ⟨hmem', hpassed⟩ := hreturned st' hret
  rw [hworking] at hpassed
  exact ⟨⟨hinv, st', hmem', hpassed.1⟩, st', hmem', hpassed⟩

/-- **A tick meets its deadlines exactly when it is on time.** -/
theorem tick_met_iff (h : Running c start now w) (hstart : start ≤ t.1) (hnow : now ≤ t.1)
    (ht : t.2.Succeed) (hs : c.calendar.resolve t.1 = some s) :
    DeadlinesMet c (turn c w (tickTurn t)) t.1 s ↔ OnTime c.calendar start t.1 s := by
  obtain ⟨hrunning, st, hmem, hpassed⟩ := tick_running h hnow ht
  have hdate : s.sessionDate = c.calendar.dateOf t.1 := c.calendar.sessions_date _ _ hs
  have hentries := entriesAllowed_iff hrunning
  constructor
  · intro hmet
    refine ⟨?_, fun b hb hfrom hto hclose => hmet.entries (hentries.mpr ⟨b, hb, hfrom, hto, hclose⟩)⟩
    by_contra hno
    push Not at hno
    obtain ⟨r, hr, -⟩ := hmet.cutoff hno.2
    -- no row of a date after the start can be there
    have hle := hrunning.inv.dates r (Table.get?_eq_some.mp hr).1
    rw [(Table.get?_eq_some.mp hr).2, hdate] at hle
    have hge := c.calendar.dateOf_mono hstart
    exact hno.1 (hdate.trans (le_antisymm hle hge))
  · intro hon
    have hwindow : c.entriesAllowed (turn c w (tickTurn t)).memory t.1 = true → allowsNewEntry t.1 s = true := by
      intro hallowed
      obtain ⟨b, hb, hfrom, hto, hclose⟩ := hentries.mp hallowed
      exact hon.window b hb hfrom hto hclose
    have hord := c.calendar.sessions_ordered _ _ hs
    rcases hon.bound with hbound | hearly
    · have hsessions : c.calendar.sessions (c.calendar.dateOf start) = some s := by
        rw [← hbound, hdate]
        exact hs
      have hdue := hpassed.2 s hsessions
      have hget : (turn c w (tickTurn t)).row s.sessionDate = some st := by
        rw [hbound, ← hpassed.1]
        exact hrunning.inv.memory st hmem
      have hb : Bound c (turn c w (tickTurn t)).log t.1 s st :=
        (hrunning.inv.rows st (Table.get?_eq_some.mp hget).1).bound_of (by rw [hpassed.1]; exact hsessions)
      refine ⟨fun hc => ⟨st, hget, hdue.cutoff hc⟩, fun hc => ⟨st, hget, hdue.cancel hc⟩, fun hc => ?_, hwindow⟩
      obtain ⟨at_, deadline, root, -, hstarted, hroot, -⟩ := hb.issued (hdue.flatten hc)
      exact ⟨st, hget, hdue.flatten hc, at_, deadline, root, hroot, hstarted⟩
    · exact ⟨fun hc => by omega, fun hc => by have := hord.1; omega,
        fun hc => by have := hord.1; have := hord.2.1; omega, hwindow⟩

theorem process_running {history : List Turn} {a : Answers} (ha : a.Succeed)
    (htimes : ∀ t ∈ history, t.now ≤ start) (hmono : history.Pairwise fun t u => t.now ≤ u.now) :
    Running c start start (process c (turns c .empty history) start a []) := by
  have hinv := history_inv c hmono htimes
  have hfresh : Inv c start (c.calendar.dateOf start) { turns c .empty history with memory := none } :=
    ⟨hinv.rows, hinv.dates, fun _ hm => (Option.some_ne_none _ hm.symm).elim, hinv.starts⟩
  obtain ⟨hinv', -, hreturned, hsucceed⟩ :=
    turn_spec (t := ⟨.recover, start, a, a, none⟩) hfresh (le_refl _) (le_refl _) (le_refl _)
  obtain ⟨st, hret⟩ := hsucceed rfl ha ha
  obtain ⟨hmem, hpassed⟩ := hreturned st hret
  exact ⟨hinv', st, hmem, hpassed.1⟩

theorem process_ticks {ticks : List (Int × Answers)} (h : Running c start now w)
    (hticks : ∀ t ∈ ticks, now ≤ t.1 ∧ t.2.Succeed) (hmono : ticks.Pairwise fun t u => t.1 ≤ u.1) {last : Int}
    (hnow : now ≤ last) (hlast : ∀ t ∈ ticks, t.1 ≤ last) : Running c start last (turns c w (ticks.map tickTurn)) := by
  induction ticks generalizing w now with
  | nil => exact ⟨h.inv.mono hnow (le_refl _), h.holds⟩
  | cons t ts ih =>
    obtain ⟨ht, hok⟩ := hticks t List.mem_cons_self
    obtain ⟨hrest, hmono'⟩ := List.pairwise_cons.mp hmono
    exact ih (tick_running h ht hok).1
      (fun u hu => ⟨hrest u hu, (hticks u (List.mem_cons_of_mem _ hu)).2⟩) hmono' (hlast t List.mem_cons_self)
      fun u hu => hlast u (List.mem_cons_of_mem _ hu)

/-- **Every tick of the run meets its deadlines exactly when every tick is on time.**  The process may find whatever
earlier processes left, crashed ones and ones with failing ports included. -/
theorem session_deadlines_iff (c : Controller) (history : List Turn) (start : Int) (a : Answers)
    (ticks : List (Int × Answers)) (hhistory : ∀ t ∈ history, t.now ≤ start)
    (hmonoHistory : history.Pairwise fun t u => t.now ≤ u.now) (hfrom : ∀ t ∈ ticks, start ≤ t.1)
    (hmono : ticks.Pairwise fun t u => t.1 ≤ u.1) (ha : a.Succeed) (hticks : ∀ t ∈ ticks, t.2.Succeed) :
    (∀ pre t post s, ticks = pre ++ t :: post → c.calendar.resolve t.1 = some s →
      DeadlinesMet c (process c (turns c .empty history) start a (pre ++ [t])) t.1 s) ↔
    ∀ t ∈ ticks, ∀ s, c.calendar.resolve t.1 = some s → OnTime c.calendar start t.1 s := by
  have hrun := process_running (c := c) ha hhistory hmonoHistory
  have htick : ∀ pre t post s, ticks = pre ++ t :: post → c.calendar.resolve t.1 = some s →
      (DeadlinesMet c (process c (turns c .empty history) start a (pre ++ [t])) t.1 s ↔
        OnTime c.calendar start t.1 s) := by
    rintro pre t post s rfl hs
    obtain ⟨hpre, hrest, hcross⟩ := List.pairwise_append.mp hmono
    have hstart : start ≤ t.1 := hfrom t (by simp)
    have hbefore : Running c start t.1
        (turns c (process c (turns c .empty history) start a []) (pre.map tickTurn)) :=
      process_ticks hrun (fun u hu => ⟨hfrom u (by simp [hu]), hticks u (by simp [hu])⟩) hpre hstart
        fun u hu => hcross u hu t (by simp)
    have hlast : process c (turns c .empty history) start a (pre ++ [t]) =
        turn c (turns c (process c (turns c .empty history) start a []) (pre.map tickTurn)) (tickTurn t) := by
      simp [process, turns, List.foldl_append]
    rw [hlast]
    exact tick_met_iff hbefore hstart (le_refl _) (hticks t (by simp)) hs
  constructor
  · intro hall t ht s hs
    obtain ⟨pre, post, rfl⟩ := List.append_of_mem ht
    exact (htick pre t post s rfl hs).mp (hall pre t post s rfl hs)
  · intro hall pre t post s heq hs
    exact (htick pre t post s heq hs).mpr (hall t (by rw [heq]; simp) s hs)

/-! ## A process started on a closed day -/

def sampleSchedule : SessionSchedule where
  sessionDate := 1
  openUtc := 138600000000
  closeUtc := 162000000000
  entryCutoffUtc := 160200000000
  cancelEntriesUtc := 160500000000
  flattenStartUtc := 161100000000
  flatDeadlineUtc := 161700000000
  openingStabilizationEndUtc := 138900000000
  isEarlyClose := false
  calendarName := "XNYS"
  calendarVersion := "4.5"

def sampleCalendar : Calendar where
  dateOf t := t / 86400000000
  dateOf_mono h := Int.ediv_le_ediv (by decide) h
  sessions d := if d = 1 then some sampleSchedule else none
  sessions_date d s h := by
    split at h
    · rename_i hd
      cases h
      exact hd.symm
    · cases h
  sessions_ordered d s h := by
    split at h
    · cases h
      decide
    · cases h
  name := "XNYS"
  version := "4.5"

def sampleController : Controller where
  accountId := "DU1"
  calendar := sampleCalendar
  sha256Digest domain _ := domain
  isoDate _ := "2026-10-05"
  iso _ := "2026-10-05T19:55:00Z"

/-- Ports with nothing to report; the flatten opens its own root. -/
def quietAnswers : Answers where
  cancelCapture := .ok ⟨[], []⟩
  protectCapture := .snapshot ⟨[], []⟩
  requestExit _ := .ok ()
  start := .returned (some "session-flatten-session-flatten")
  receipt := .ok none

theorem quietAnswers_succeed : quietAnswers.Succeed where
  capture := nofun
  exits _ := rfl
  start := Or.inr ⟨_, by decide, rfl⟩
  receipt := nofun

/-- Started on day 0, the process has no row for day 1 when its entry cutoff passes. -/
theorem next_session_unbound :
    sampleController.calendar.resolve 160200000000 = some sampleSchedule ∧
      ¬ DeadlinesMet sampleController
        (process sampleController .empty 100 quietAnswers [(160200000000, quietAnswers)]) 160200000000 sampleSchedule := by
  refine ⟨rfl, fun h => ?_⟩
  obtain ⟨r, hr, -⟩ := h.cutoff (by decide)
  cases hr

/-- Started on day 1, the process flattens it. -/
theorem started_on_time :
    DeadlinesMet sampleController
      (process sampleController .empty 140000000000 quietAnswers [(161100000000, quietAnswers)]) 161100000000 sampleSchedule := by
  refine (session_deadlines_iff sampleController [] 140000000000 quietAnswers [(161100000000, quietAnswers)]
    (by simp) (by simp) (by simp) (by simp) quietAnswers_succeed (by simp [quietAnswers_succeed])).mpr ?_ [] _ [] _ rfl rfl
  rintro t ht s hs
  obtain rfl := List.mem_singleton.mp ht
  cases hs
  exact ⟨Or.inl rfl, fun b hb hfrom hto hclose => by cases hb; revert hto; decide⟩

end MmrTrader.Session
