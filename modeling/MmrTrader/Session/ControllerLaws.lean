import MmrTrader.Session.Controller

/-!
# What every call of the session controller keeps

* `RowOk` — a stored row: the schedule columns are its date's, the flags follow each other, a FLAT row
  has a FLAT receipt of its root and an INCIDENT row a breaker signal.
* `Inv` — the invariant of a world; `Later` — what a later world keeps of an earlier one.
* `Kept` — both, along one call; one spec lemma for each step of `run_due`, then for the calls.
* `turn_inv`, `turns_inv` — the step lemma and the run lemma.
-/

namespace MmrTrader.Session

open MmrTrader.Lib

variable (c : Controller)

/-! ## Rows -/

/-- The row of a session date, at clock `now`. -/
structure Bound (log : List Event) (now : Int) (s : SessionSchedule) (r : SessionControllerState) : Prop where
  columns : r.openUtc = some s.openUtc ∧ r.closeUtc = some s.closeUtc ∧ r.entryCutoffUtc = some s.entryCutoffUtc ∧
    r.cancelEntriesUtc = some s.cancelEntriesUtc ∧ r.flattenStartUtc = some s.flattenStartUtc
  deadline : r.flattenIssued = false → r.flatDeadlineUtc = some s.flatDeadlineUtc
  opened : r.state ≠ .CLOSED
  cutoff : r.entryCutoffReached = true ↔ r.state ≠ .OPEN
  cancelled : r.cancelIssued = true → r.entryCutoffReached = true
  flattened : r.flattenIssued = true → r.cancelIssued = true
  terminal : r.state.isTerminal = true → r.flattenIssued = true
  past : r.entryCutoffReached = true → s.entryCutoffUtc ≤ now
  issued : r.flattenIssued = true → ∃ at_ deadline root, root ≠ "" ∧
    Event.start s.sessionDate at_ (c.flattenCommandId s.sessionDate) deadline (some root) ∈ log ∧
      r.flattenCommandId = some root ∧ r.flatDeadlineUtc = some deadline
  confirmed : r.state = .FLAT → ∃ root, r.flattenCommandId = some root ∧ Event.receipt root "FLAT" ∈ log
  signalled : r.state = .INCIDENT → ∃ signal, Event.breaker signal ∈ log ∧ r.flattenCommandId = some signal.key

inductive RowOk (log : List Event) (now : Int) (r : SessionControllerState) : Prop where
  | closed (h : c.calendar.sessions r.sessionDate = none) (hr : r = c.closedState r.sessionDate)
  | bound (s : SessionSchedule) (h : c.calendar.sessions r.sessionDate = some s) (hb : Bound c log now s r)

variable {c}
variable {log : List Event} {now' : Int} {r : SessionControllerState}
variable {log' : List Event}

theorem Bound.mono {now : Int} {s : SessionSchedule}
    (h : Bound c log now s r) (hlog : log ⊆ log') (hnow : now ≤ now') : Bound c log' now' s r where
  columns := h.columns
  deadline := h.deadline
  opened := h.opened
  cutoff := h.cutoff
  cancelled := h.cancelled
  flattened := h.flattened
  terminal := h.terminal
  past hr := (h.past hr).trans hnow
  issued hr := by
    obtain ⟨at_, deadline, root, hne, hmem, hrest⟩ := h.issued hr
    exact ⟨at_, deadline, root, hne, hlog hmem, hrest⟩
  confirmed hr := by
    obtain ⟨root, hroot, hmem⟩ := h.confirmed hr
    exact ⟨root, hroot, hlog hmem⟩
  signalled hr := by
    obtain ⟨signal, hmem, hkey⟩ := h.signalled hr
    exact ⟨signal, hlog hmem, hkey⟩

theorem RowOk.mono {now : Int} (h : RowOk c log now r) (hlog : log ⊆ log') (hnow : now ≤ now') : RowOk c log' now' r := by
  cases h with
  | closed h hr => exact .closed h hr
  | bound s h hb => exact .bound s h (hb.mono hlog hnow)

theorem RowOk.bound_of {now : Int} {s : SessionSchedule}
    (h : RowOk c log now r) (hs : c.calendar.sessions r.sessionDate = some s) : Bound c log now s r := by
  cases h with
  | closed h hr => rw [h] at hs; cases hs
  | bound s' h hb =>
    rw [h] at hs
    cases hs
    exact hb

/-- What a later row of the same date keeps. -/
structure Advances (r r' : SessionControllerState) : Prop where
  date : r'.sessionDate = r.sessionDate
  terminal : r.state.isTerminal = true → r'.state = r.state
  cutoff : r.entryCutoffReached = true → r'.entryCutoffReached = true
  cancel : r.cancelIssued = true → r'.cancelIssued = true
  flatten : r.flattenIssued = true → r'.flattenIssued = true ∧ r'.flattenCommandId = r.flattenCommandId ∧
    r'.flatDeadlineUtc = r.flatDeadlineUtc

theorem Advances.refl (r : SessionControllerState) : Advances r r :=
  ⟨rfl, fun _ => rfl, id, id, fun h => ⟨h, rfl, rfl⟩⟩

theorem Advances.trans {s t : SessionControllerState} (h : Advances r s) (h' : Advances s t) : Advances r t where
  date := h'.date.trans h.date
  terminal hr := by
    have hs := h.terminal hr
    exact (h'.terminal (by rw [hs]; exact hr)).trans hs
  cutoff hr := h'.cutoff (h.cutoff hr)
  cancel hr := h'.cancel (h.cancel hr)
  flatten hr := by
    obtain ⟨hs, hroot, hd⟩ := h.flatten hr
    obtain ⟨ht, hroot', hd'⟩ := h'.flatten hs
    exact ⟨ht, hroot'.trans hroot, hd'.trans hd⟩

/-! ## Worlds -/

/-- The session's own flattens: one cause for each date, and the deadline each was given. -/
def StartsOk (c : Controller) (now : Int) (log : List Event) : Prop :=
  ∀ date at_ cause deadline root, Event.start date at_ cause deadline root ∈ log →
    cause = c.flattenCommandId date ∧ at_ ≤ now ∧ ∃ s, c.calendar.sessions date = some s ∧
      deadline = Controller.flattenDeadline (some s.flatDeadlineUtc) at_

structure Inv (c : Controller) (now : Int) (latest : Date) (w : World) : Prop where
  rows : ∀ r ∈ w.store.rows, RowOk c w.log now r
  dates : ∀ r ∈ w.store.rows, r.sessionDate ≤ latest
  memory : ∀ st, w.memory = some st → w.store.get? st.sessionDate = some st
  starts : StartsOk c now w.log

def Later (w w' : World) : Prop :=
  (∀ r ∈ w.store.rows, ∃ r' ∈ w'.store.rows, Advances r r') ∧ w.log <+: w'.log

theorem Later.refl (w : World) : Later w w :=
  ⟨fun r hr => ⟨r, hr, .refl r⟩, List.prefix_refl _⟩

theorem Later.trans {a b d : World} (h : Later a b) (h' : Later b d) : Later a d := by
  refine ⟨fun r hr => ?_, h.2.trans h'.2⟩
  obtain ⟨s, hs, hrs⟩ := h.1 r hr
  obtain ⟨t, ht, hst⟩ := h'.1 s hs
  exact ⟨t, ht, hrs.trans hst⟩

theorem inv_empty (c : Controller) (now : Int) (latest : Date) : Inv c now latest .empty where
  rows r hr := by cases hr
  dates r hr := by cases hr
  memory st h := by cases h
  starts date at_ cause deadline root h := by cases h

variable {w : World}
variable {latest' : Date}

theorem Inv.mono {now : Int} {latest : Date} (h : Inv c now latest w) (hnow : now ≤ now')
    (hlatest : latest ≤ latest') : Inv c now' latest' w where
  rows r hr := (h.rows r hr).mono (fun _ => id) hnow
  dates r hr := (h.dates r hr).trans hlatest
  memory := h.memory
  starts date at_ cause deadline root he := by
    obtain ⟨hc, hat, hs⟩ := h.starts date at_ cause deadline root he
    exact ⟨hc, hat.trans hnow, hs⟩

/-- Along one call: the invariant, what is kept since the call began, and a process that is not to die does not. -/
structure Kept (c : Controller) (now : Int) (latest : Date) (w₀ : World) (mortal : Prop) (w : World) : Prop where
  inv : Inv c now latest w
  later : Later w₀ w
  alive : ¬ mortal → w.lives = none

structure At (c : Controller) (now : Int) (latest : Date) (w₀ : World) (mortal : Prop)
    (st : SessionControllerState) (w : World) : Prop extends Kept c now latest w₀ mortal w where
  holds : w.memory = some st

/-- A call that does not return: the process died, or a port is to blame. -/
def Failed (c : Controller) (now : Int) (latest : Date) (w₀ : World) (mortal blame : Prop) (e : Raised) (w : World) :
    Prop :=
  Kept c now latest w₀ mortal w ∧ (e = .crashed → mortal) ∧ (e ≠ .crashed → blame)

variable {now : Int} {latest : Date} {w₀ : World} {mortal blame : Prop}

theorem At.row {st : SessionControllerState} (h : At c now latest w₀ mortal st w) : st ∈ w.store.rows ∧ RowOk c w.log now st := by
  have hmem := (Table.get?_eq_some.mp (h.inv.memory st h.holds)).1
  exact ⟨hmem, h.inv.rows st hmem⟩

theorem At.bound {st : SessionControllerState} {s : SessionSchedule} (h : At c now latest w₀ mortal st w)
    (hs : c.calendar.sessions st.sessionDate = some s) : Bound c w.log now s st :=
  h.row.2.bound_of hs

variable {e : Event}

/-- An event other than a saved row. -/
theorem Kept.note (h : Kept c now latest w₀ mortal w)
    (he : ∀ date at_ cause deadline root, e = .start date at_ cause deadline root →
      cause = c.flattenCommandId date ∧ at_ ≤ now ∧ ∃ s, c.calendar.sessions date = some s ∧
        deadline = Controller.flattenDeadline (some s.flatDeadlineUtc) at_) : Kept c now latest w₀ mortal (w.note e) where
  inv :=
    { rows := fun r hr => (h.inv.rows r hr).mono (List.subset_append_left _ _) (le_refl _)
      dates := h.inv.dates
      memory := h.inv.memory
      starts := by
        intro date at_ cause deadline root hmem
        rcases List.mem_append.mp hmem with hmem | hmem
        · exact h.inv.starts date at_ cause deadline root hmem
        · exact he date at_ cause deadline root (List.mem_singleton.mp hmem).symm }
  later := ⟨h.later.1, h.later.2.trans (List.prefix_append _ _)⟩
  alive hm := by simp [World.note, h.alive hm]

variable {P : World → Prop}

theorem emit_spec (hP : ∀ w, P w → Kept c now latest w₀ mortal w) :
    Tx.Spec P (emit e) (fun _ w => ∃ v, P v ∧ w = v.note e) (Failed c now latest w₀ mortal blame) := by
  intro w hw
  by_cases hlives : w.lives = some 0
  · have hx : emit e w = .error .crashed w := if_pos hlives
    rw [hx]
    refine ⟨hP w hw, fun _ => ?_, fun hne => (hne rfl).elim⟩
    by_contra hm
    rw [(hP w hw).alive hm] at hlives
    cases hlives
  · have hx : emit e w = .ok () (w.note e) := if_neg hlives
    rw [hx]
    exact ⟨w, hw, rfl⟩

/-- **Saving a row** that is right for its date and keeps what the stored one had. -/
theorem persist_spec {st : SessionControllerState}
    (hP : ∀ w, P w → Kept c now latest w₀ mortal w ∧ RowOk c w.log now st ∧ st.sessionDate ≤ latest ∧
      ∀ r, w.store.get? st.sessionDate = some r → Advances r st) :
    Tx.Spec P (persist st) (fun _ w => At c now latest w₀ mortal st w ∧
      ∃ v, P v ∧ w.log = v.log ++ [.saved st]) (Failed c now latest w₀ mortal blame) := by
  intro w hw
  obtain ⟨hk, hrow, hdate, hadv⟩ := hP w hw
  by_cases hlives : w.lives = some 0
  · have hx : persist st w = .error .crashed w := if_pos hlives
    rw [hx]
    refine ⟨hk, fun _ => ?_, fun hne => (hne rfl).elim⟩
    by_contra hm
    rw [hk.alive hm] at hlives
    cases hlives
  · have hx : persist st w =
        .ok () { w.note (.saved st) with store := w.store.upsert st, memory := some st } := if_neg hlives
    rw [hx]
    have hlater : Later w { w.note (.saved st) with store := w.store.upsert st, memory := some st } := by
      refine ⟨fun r hr => ?_, List.prefix_append _ _⟩
      by_cases hkey : r.sessionDate = st.sessionDate
      · have hget : w.store.get? st.sessionDate = some r := Table.get?_eq_some.mpr ⟨hr, hkey⟩
        exact ⟨st, Table.mem_upsert.mpr (Or.inl rfl), hadv r hget⟩
      · exact ⟨r, Table.mem_upsert.mpr (Or.inr ⟨hr, hkey⟩), .refl r⟩
    have hold : ∀ r ∈ (w.store.upsert st).rows, r = st ∨ r ∈ w.store.rows := by
      intro r hr
      rcases Table.mem_upsert.mp hr with rfl | ⟨hr, -⟩
      · exact Or.inl rfl
      · exact Or.inr hr
    have hsub : w.log ⊆ w.log ++ [.saved st] := List.subset_append_left _ _
    refine ⟨⟨⟨⟨?_, ?_, ?_, ?_⟩, hk.later.trans hlater, ?_⟩, rfl⟩, w, hw, rfl⟩
    · intro r hr
      rcases hold r hr with rfl | hr
      · exact hrow.mono hsub (le_refl _)
      · exact (hk.inv.rows r hr).mono hsub (le_refl _)
    · intro r hr
      rcases hold r hr with rfl | hr
      · exact hdate
      · exact hk.inv.dates r hr
    · intro st' hst'
      cases hst'
      exact Table.get?_eq_some.mpr ⟨Table.mem_upsert.mpr (Or.inl rfl), rfl⟩
    · intro date at_ cause deadline root hmem
      rcases List.mem_append.mp hmem with hmem | hmem
      · exact hk.inv.starts date at_ cause deadline root hmem
      · cases List.mem_singleton.mp hmem
    · intro hm
      simp [World.note, hk.alive hm]

/-! ## The steps of `run_due` -/

/-- The ports succeed: nothing unreadable, no refusal, and a started flatten has a root. -/
structure Answers.Succeed (a : Answers) : Prop where
  capture : a.protectCapture ≠ .malformed
  exits : ∀ conid, a.requestExit conid = .ok ()
  start : a.start = .busy ∨ ∃ root, root ≠ "" ∧ a.start = .returned (some root)
  receipt : ∀ r, a.receipt = .ok (some r) → r.generationId ≠ .error ()

variable {a : Answers} {s : SessionSchedule} {st : SessionControllerState}
variable {st' : SessionControllerState}

theorem advance_spec {st : SessionControllerState} (hs : c.calendar.sessions st.sessionDate = some s) (hadv : Advances st st')
    (hP : ∀ w, P w → At c now latest w₀ mortal st w) (hb : ∀ w, P w → Bound c w.log now s st → Bound c w.log now s st') :
    Tx.Spec P (do persist st'; return st') (fun r w => r = st' ∧ At c now latest w₀ mortal st' w)
      (Failed c now latest w₀ mortal blame) := by
  refine Tx.Spec.bind (persist_spec fun w hw => ?_) fun _ => Tx.Spec.pure fun w hw => ⟨rfl, hw.1⟩
  have h := hP w hw
  refine ⟨h.toKept, .bound s (by rw [hadv.date]; exact hs) (hb w hw (h.bound hs)), ?_, ?_⟩
  · rw [hadv.date]
    exact h.inv.dates st h.row.1
  · intro r hr
    rw [hadv.date, h.inv.memory st h.holds] at hr
    cases hr
    exact hadv

/-- An event that is no flatten start leaves the controller where it is. -/
theorem emit_at (hP : ∀ w, P w → At c now latest w₀ mortal st w)
    (he : ∀ date at_ cause deadline root, e ≠ .start date at_ cause deadline root) :
    Tx.Spec P (emit e) (fun _ w => At c now latest w₀ mortal st w ∧ ∃ v, P v ∧ w = v.note e)
      (Failed c now latest w₀ mortal blame) := by
  refine (emit_spec fun w hw => (hP w hw).toKept).conseq (fun _ => id) ?_ fun _ _ => id
  rintro u w ⟨v, hv, rfl⟩
  refine ⟨⟨(hP v hv).toKept.note fun date at_ cause deadline root h => (he _ _ _ _ _ h).elim, (hP v hv).holds⟩,
    v, hv, rfl⟩

theorem emit_keeps (he : ∀ date at_ cause deadline root, e ≠ .start date at_ cause deadline root) :
    Tx.Spec (At c now latest w₀ mortal st) (emit e) (fun _ w => At c now latest w₀ mortal st w)
      (Failed c now latest w₀ mortal blame) :=
  (emit_at (fun _ => id) he).conseq (fun _ => id) (fun _ _ h => h.1) fun _ _ => id

theorem reached_some {d now : Int} : Controller.reached (some d) now = true ↔ d ≤ now := by
  simp [Controller.reached]

theorem entryCutoff_spec (hs : c.calendar.sessions st.sessionDate = some s) (hopen : st.state.isTerminal = false) :
    Tx.Spec (At c now latest w₀ mortal st) (Controller.entryCutoff now st)
      (fun st' w => At c now latest w₀ mortal st' w ∧ st'.sessionDate = st.sessionDate ∧
        st'.state.isTerminal = false ∧ (s.entryCutoffUtc ≤ now → st'.entryCutoffReached = true))
      (Failed c now latest w₀ mortal blame) := by
  unfold Controller.entryCutoff
  split
  · rename_i hdue
    refine (advance_spec hs ?_ (fun _ => id) fun w hw hb => ?_).conseq (fun _ => id) ?_ fun _ _ => id
    · exact ⟨rfl, fun h => (by rw [hopen] at h; cases h), fun _ => rfl, id, fun h => ⟨h, rfl, rfl⟩⟩
    · have hcut : s.entryCutoffUtc ≤ now := by
        rw [hb.columns.2.2.1] at hdue
        exact reached_some.mp hdue.1
      have hstate : st.state = .OPEN := by
        by_contra hne
        rw [hb.cutoff.mpr hne] at hdue
        cases hdue.2
      refine ⟨hb.columns, hb.deadline, ?_, ?_, fun _ => rfl, hb.flattened, ?_, fun _ => hcut, hb.issued, ?_, ?_⟩
      all_goals simp [hstate, SessionState.isTerminal]
    · rintro r w ⟨rfl, hw⟩
      refine ⟨hw, rfl, ?_, fun _ => rfl⟩
      dsimp only
      split
      · rfl
      · exact hopen
  · rename_i hdue
    refine Tx.Spec.pure fun w hw => ⟨hw, rfl, hopen, fun hcut => ?_⟩
    by_contra hno
    refine hdue ⟨?_, by simpa using hno⟩
    rw [(hw.bound hs).columns.2.2.1]
    exact reached_some.mpr hcut

theorem cancelWorkingEntries_spec {date : Date} :
    Tx.Spec (At c now latest w₀ mortal st) (c.cancelWorkingEntries a date)
      (fun _ w => At c now latest w₀ mortal st w) (Failed c now latest w₀ mortal blame) := by
  unfold Controller.cancelWorkingEntries
  split
  · exact Tx.Spec.pure fun _ => id
  · refine Tx.Spec.onlyIf (fun _ => ?_) fun _ _ => id
    exact emit_keeps (by intros; exact nofun)

theorem cancelEntries_spec (hs : c.calendar.sessions st.sessionDate = some s) (hopen : st.state.isTerminal = false)
    (hord : s.Ordered) :
    Tx.Spec (At c now latest w₀ mortal st) (c.cancelEntries a now st)
      (fun st' w => At c now latest w₀ mortal st' w ∧ st'.sessionDate = st.sessionDate ∧
        st'.state.isTerminal = false ∧ (st.entryCutoffReached = true → st'.entryCutoffReached = true) ∧
        (s.cancelEntriesUtc ≤ now → st'.cancelIssued = true))
      (Failed c now latest w₀ mortal blame) := by
  unfold Controller.cancelEntries
  split
  · rename_i hdue
    unfold Controller.issueCancel
    refine Tx.Spec.bind cancelWorkingEntries_spec fun _ => ?_
    refine (advance_spec hs ?_ (fun _ => id) fun w hw hb => ?_).conseq (fun _ => id) ?_ fun _ _ => id
    · exact ⟨rfl, fun h => (by rw [hopen] at h; cases h), fun _ => rfl, fun _ => rfl, fun h => ⟨h, rfl, rfl⟩⟩
    · have hcut : s.entryCutoffUtc ≤ now := by
        rw [hb.columns.2.2.2.1] at hdue
        exact hord.1.trans (reached_some.mp hdue.1)
      exact ⟨hb.columns, hb.deadline, by simp, by simp, fun _ => rfl, fun _ => rfl, by simp [SessionState.isTerminal],
        fun _ => hcut, hb.issued, by simp, by simp⟩
    · rintro r w ⟨rfl, hw⟩
      exact ⟨hw, rfl, rfl, fun _ => rfl, fun _ => rfl⟩
  · rename_i hdue
    refine Tx.Spec.pure fun w hw => ⟨hw, rfl, hopen, id, fun hcut => ?_⟩
    by_contra hno
    refine hdue ⟨?_, by simpa using hno⟩
    rw [(hw.bound hs).columns.2.2.2.1]
    exact reached_some.mpr hcut

theorem requestExit_spec {date : Date} {conid : Int} {quantity : ℚ} :
    Tx.Spec (At c now latest w₀ mortal st) (c.requestExit a date conid quantity)
      (fun _ w => At c now latest w₀ mortal st w) (Failed c now latest w₀ mortal (¬ a.Succeed)) := by
  unfold Controller.requestExit
  refine Tx.Spec.bind (emit_keeps (by intros; exact nofun)) fun _ => ?_
  cases hexit : a.requestExit conid with
  | ok u => exact Tx.Spec.pure fun _ => id
  | error u =>
    refine Tx.Spec.throw fun w hw => ⟨hw.toKept, nofun, fun _ hok => ?_⟩
    rw [hok.exits conid] at hexit
    cases hexit

theorem requestExits_spec {date : Date} {snapshot : Snapshot} (l : List (Int × ℚ)) :
    Tx.Spec (At c now latest w₀ mortal st) (c.requestExits a date snapshot l)
      (fun _ w => At c now latest w₀ mortal st w) (Failed c now latest w₀ mortal (¬ a.Succeed)) := by
  induction l with
  | nil => exact Tx.Spec.pure fun _ => id
  | cons h rest ih =>
    obtain ⟨conid, quantity⟩ := h
    exact Tx.Spec.bind (Tx.Spec.onlyIf (fun _ => requestExit_spec) fun _ _ => id) fun _ => ih

theorem protect_spec :
    Tx.Spec (At c now latest w₀ mortal st) (c.protect a st)
      (fun _ w => At c now latest w₀ mortal st w) (Failed c now latest w₀ mortal (¬ a.Succeed)) := by
  refine Tx.Spec.onlyIf (fun _ => ?_) fun _ _ => id
  unfold Controller.closeOversizedProtection
  split
  · exact Tx.Spec.pure fun _ => id
  · rename_i hmal
    exact Tx.Spec.throw fun w hw => ⟨hw.toKept, nofun, fun _ hok => hok.capture hmal⟩
  · exact requestExits_spec _

/-- What the start of the flatten leaves: its call in the log, with the root the session then follows. -/
def Started (c : Controller) (now : Int) (date : Date) (deadline : Int) (root : String) (w : World) : Prop :=
  root ≠ "" ∧ Event.start date now (c.flattenCommandId date) deadline (some root) ∈ w.log

theorem flattenCommandId_ne (c : Controller) (date : Date) : c.flattenCommandId date ≠ "" := by
  intro h
  exact absurd (String.append_eq_empty_iff.mp h).1 (by decide)

theorem emit_start {root : Option String} (hs : c.calendar.sessions st.sessionDate = some s) :
    Tx.Spec (At c now latest w₀ mortal st)
      (emit (.start st.sessionDate now (c.flattenCommandId st.sessionDate)
        (Controller.flattenDeadline (some s.flatDeadlineUtc) now) root))
      (fun _ w => At c now latest w₀ mortal st w ∧ Event.start st.sessionDate now
        (c.flattenCommandId st.sessionDate) (Controller.flattenDeadline (some s.flatDeadlineUtc) now) root ∈ w.log)
      (Failed c now latest w₀ mortal blame) := by
  refine (emit_spec fun w hw => hw.toKept).conseq (fun _ => id) ?_ fun _ _ => id
  rintro u w ⟨v, hv, rfl⟩
  refine ⟨⟨hv.toKept.note ?_, hv.holds⟩, List.mem_append_right _ (List.mem_singleton.mpr rfl)⟩
  rintro date at_ cause deadline root' he
  cases he
  exact ⟨rfl, le_refl _, s, hs, rfl⟩

theorem startAccountFlatten_spec (hs : c.calendar.sessions st.sessionDate = some s) :
    Tx.Spec (At c now latest w₀ mortal st)
      (Controller.startAccountFlatten a st.sessionDate now (c.flattenCommandId st.sessionDate)
        (Controller.flattenDeadline (some s.flatDeadlineUtc) now))
      (fun root w => At c now latest w₀ mortal st w ∧
        Started c now st.sessionDate (Controller.flattenDeadline (some s.flatDeadlineUtc) now) root w)
      (Failed c now latest w₀ mortal (¬ a.Succeed)) := by
  unfold Controller.startAccountFlatten
  cases hstart : a.start with
  | busy =>
    refine Tx.Spec.bind (emit_start hs) fun _ => Tx.Spec.pure fun w hw => ?_
    exact ⟨hw.1, flattenCommandId_ne c _, hw.2⟩
  | raised =>
    refine Tx.Spec.bind (emit_start hs) fun _ => Tx.Spec.throw fun w hw => ?_
    refine ⟨hw.1.toKept, nofun, fun _ hok => ?_⟩
    rcases hok.start with h | ⟨root, -, h⟩ <;> rw [h] at hstart <;> cases hstart
  | returned root =>
    cases root with
    | none =>
      refine Tx.Spec.bind (emit_start hs) fun _ => Tx.Spec.throw fun w hw => ?_
      refine ⟨hw.1.toKept, nofun, fun _ hok => ?_⟩
      rcases hok.start with h | ⟨root, -, h⟩ <;> rw [h] at hstart <;> cases hstart
    | some root =>
      by_cases hempty : root = ""
      · simp only [hempty, if_true]
        refine Tx.Spec.bind (emit_start hs) fun _ => Tx.Spec.throw fun w hw => ?_
        refine ⟨hw.1.toKept, nofun, fun _ hok => ?_⟩
        rcases hok.start with h | ⟨root', hne, h⟩ <;> rw [h] at hstart <;> cases hstart
        exact hne hempty
      · simp only [hempty, if_false]
        exact Tx.Spec.bind (emit_start hs) fun _ => Tx.Spec.pure fun w hw => ⟨hw.1, hempty, hw.2⟩

theorem flatten_spec (hs : c.calendar.sessions st.sessionDate = some s) (hdate : s.sessionDate = st.sessionDate)
    (hopen : st.state.isTerminal = false) (hord : s.Ordered) :
    Tx.Spec (At c now latest w₀ mortal st) (c.flatten a now st)
      (fun st' w => At c now latest w₀ mortal st' w ∧ st'.sessionDate = st.sessionDate ∧
        st'.state.isTerminal = false ∧ (st.entryCutoffReached = true → st'.entryCutoffReached = true) ∧
        (st.cancelIssued = true → st'.cancelIssued = true) ∧ (s.flattenStartUtc ≤ now → st'.flattenIssued = true))
      (Failed c now latest w₀ mortal (¬ a.Succeed)) := by
  unfold Controller.flatten
  split
  · rename_i hdue
    unfold Controller.issueFlatten
    refine Tx.Spec.of_pre (p := st.flatDeadlineUtc = some s.flatDeadlineUtc)
      (fun w hw => (hw.bound hs).deadline hdue.2) fun hdl => ?_
    rw [hdl]
    refine Tx.Spec.bind (startAccountFlatten_spec hs) fun root => ?_
    refine (advance_spec hs ?_ (fun _ h => h.1) fun w hw hb => ?_).conseq (fun _ => id) ?_ fun _ _ => id
    · exact ⟨rfl, fun h => (by rw [hopen] at h; cases h), fun _ => rfl, fun _ => rfl,
        fun h => (by rw [hdue.2] at h; cases h)⟩
    · have hcut : s.entryCutoffUtc ≤ now := by
        have hd := hdue.1
        rw [hb.columns.2.2.2.2] at hd
        exact hord.1.trans (hord.2.1.trans (reached_some.mp hd))
      refine ⟨hb.columns, nofun, by simp, by simp, fun _ => rfl, fun _ => rfl, fun _ => rfl, fun _ => hcut,
        fun _ => ⟨now, _, root, hw.2.1, ?_, rfl, rfl⟩, by simp, by simp⟩
      rw [hdate]
      exact hw.2.2
    · rintro r w ⟨rfl, hw⟩
      exact ⟨hw, rfl, rfl, fun _ => rfl, fun _ => rfl, fun _ => rfl⟩
  · rename_i hdue
    refine Tx.Spec.pure fun w hw => ⟨hw, rfl, hopen, id, id, fun hcut => ?_⟩
    by_contra hno
    refine hdue ⟨?_, by simpa using hno⟩
    rw [(hw.bound hs).columns.2.2.2.2]
    exact reached_some.mpr hcut

/-- Only the state, the generation and the incident text change from here on. -/
structure Settles (st st' : SessionControllerState) : Prop where
  date : st'.sessionDate = st.sessionDate
  cutoff : st'.entryCutoffReached = st.entryCutoffReached
  cancel : st'.cancelIssued = st.cancelIssued
  flatten : st'.flattenIssued = st.flattenIssued
  root : st'.flattenCommandId = st.flattenCommandId
  deadline : st'.flatDeadlineUtc = st.flatDeadlineUtc

theorem Settles.refl (st : SessionControllerState) : Settles st st := ⟨rfl, rfl, rfl, rfl, rfl, rfl⟩

theorem Settles.advances {st : SessionControllerState} (h : Settles st st') (hopen : st.state.isTerminal = false) :
    Advances st st' where
  date := h.date
  terminal ht := by rw [hopen] at ht; cases ht
  cutoff ht := by rw [h.cutoff]; exact ht
  cancel ht := by rw [h.cancel]; exact ht
  flatten ht := ⟨by rw [h.flatten]; exact ht, h.root, h.deadline⟩

theorem Bound.settle {state : SessionState} {generation : Option Int} {incident : Option String}
    (hb : Bound c log now s st) (hissued : st.flattenIssued = true) (hstate : state ≠ .OPEN ∧ state ≠ .CLOSED)
    (hflat : state = .FLAT → ∃ root, st.flattenCommandId = some root ∧ Event.receipt root "FLAT" ∈ log)
    (hincident : state = .INCIDENT → ∃ signal, Event.breaker signal ∈ log ∧ st.flattenCommandId = some signal.key) :
    Bound c log now s
      { st with state := state, flatGeneration := generation, incident := incident } where
  columns := hb.columns
  deadline := hb.deadline
  opened := hstate.2
  cutoff := ⟨fun _ => hstate.1, fun _ => hb.cancelled (hb.flattened hissued)⟩
  cancelled := hb.cancelled
  flattened := hb.flattened
  terminal _ := hissued
  past := hb.past
  issued := hb.issued
  confirmed := hflat
  signalled := hincident

theorem readReceipt_eq {root : String} {receipt : Receipt} (h : Controller.readReceipt a st = some (root, receipt)) :
    st.flattenCommandId = some root ∧ a.receipt = .ok (some receipt) := by
  unfold Controller.readReceipt at h
  split at h
  · rename_i r rc hr hrc
    split at h
    · cases h
    · cases h
      exact ⟨hr, hrc⟩
  · cases h

def Answers.SaysFlat (a : Answers) : Prop := ∃ receipt, a.receipt = .ok (some receipt) ∧ receipt.state = "FLAT"

theorem pollFlat_spec (hs : c.calendar.sessions st.sessionDate = some s) (hopen : st.state.isTerminal = false)
    (hissued : st.flattenIssued = true) (hblame : ¬ a.Succeed → a.SaysFlat → blame) :
    Tx.Spec (At c now latest w₀ mortal st) (Controller.pollFlat a now st)
      (fun st' w => At c now latest w₀ mortal st' w ∧ Settles st st' ∧ (st'.state = .FLAT → a.SaysFlat))
      (Failed c now latest w₀ mortal blame) := by
  have hnotFlat : st.state ≠ .FLAT := fun h => by rw [h] at hopen; cases hopen
  unfold Controller.pollFlat
  cases hread : Controller.readReceipt a st with
  | none => exact Tx.Spec.pure fun w hw => ⟨hw, .refl st, fun h => (hnotFlat h).elim⟩
  | some found =>
    obtain ⟨root, receipt⟩ := found
    obtain ⟨hroot, hanswer⟩ := readReceipt_eq hread
    refine Tx.Spec.bind ((emit_at (fun _ => id) (by intros; exact nofun)).conseq (fun _ => id)
      (Q := fun _ w => At c now latest w₀ mortal st w ∧ Event.receipt root receipt.state ∈ w.log) ?_ fun _ _ => id)
      fun _ => ?_
    · rintro u w ⟨hw, v, -, rfl⟩
      exact ⟨hw, List.mem_append_right _ (List.mem_singleton.mpr rfl)⟩
    dsimp only
    split
    · refine Tx.Spec.bind ((emit_at (fun _ h => h.1) (by intros; exact nofun)).conseq (fun _ => id)
        (Q := fun _ w => At c now latest w₀ mortal st w ∧ ∃ signal, Event.breaker signal ∈ w.log ∧ signal.key = root)
        ?_ fun _ _ => id) fun _ => ?_
      · rintro u w ⟨hw, v, -, rfl⟩
        exact ⟨hw, _, List.mem_append_right _ (List.mem_singleton.mpr rfl), rfl⟩
      refine (advance_spec hs ?_ (fun _ h => h.1) fun w hw hb => ?_).conseq (fun _ => id) ?_ fun _ _ => id
      · exact Settles.advances ⟨rfl, rfl, rfl, rfl, rfl, rfl⟩ hopen
      · refine hb.settle hissued (by simp) (by simp) fun _ => ?_
        obtain ⟨signal, hmem, hkey⟩ := hw.2
        exact ⟨signal, hmem, by rw [hkey]; exact hroot⟩
      · rintro r w ⟨rfl, hw⟩
        exact ⟨hw, ⟨rfl, rfl, rfl, rfl, rfl, rfl⟩, nofun⟩
    · split
      · rename_i hflat
        cases hgen : receipt.generationId with
        | error u =>
          exact Tx.Spec.throw fun w hw => ⟨hw.1.toKept, nofun,
            fun _ => hblame (fun hok => hok.receipt _ hanswer hgen) ⟨receipt, hanswer, hflat⟩⟩
        | ok generation =>
          refine (advance_spec hs ?_ (fun _ h => h.1) fun w hw hb => ?_).conseq (fun _ => id) ?_ fun _ _ => id
          · exact Settles.advances ⟨rfl, rfl, rfl, rfl, rfl, rfl⟩ hopen
          · exact hb.settle hissued (by simp) (fun _ => ⟨root, hroot, hflat ▸ hw.2⟩) (by simp)
          · rintro r w ⟨rfl, hw⟩
            exact ⟨hw, ⟨rfl, rfl, rfl, rfl, rfl, rfl⟩, fun _ => ⟨receipt, hanswer, hflat⟩⟩
      · split
        · refine (advance_spec hs ?_ (fun _ h => h.1) fun w hw hb => ?_).conseq (fun _ => id) ?_ fun _ _ => id
          · exact Settles.advances ⟨rfl, rfl, rfl, rfl, rfl, rfl⟩ hopen
          · exact hb.settle hissued (by simp) (by simp) (by simp)
          · rintro r w ⟨rfl, hw⟩
            exact ⟨hw, ⟨rfl, rfl, rfl, rfl, rfl, rfl⟩, nofun⟩
        · exact Tx.Spec.pure fun w hw => ⟨hw.1, .refl st, fun h => (hnotFlat h).elim⟩

theorem poll_spec (hs : c.calendar.sessions st.sessionDate = some s) (hopen : st.state.isTerminal = false)
    (hblame : ¬ a.Succeed → a.SaysFlat → blame) :
    Tx.Spec (At c now latest w₀ mortal st) (Controller.poll a now st)
      (fun st' w => At c now latest w₀ mortal st' w ∧ Settles st st' ∧ (st'.state = .FLAT → a.SaysFlat))
      (Failed c now latest w₀ mortal blame) := by
  unfold Controller.poll
  split
  · rename_i h
    exact pollFlat_spec hs hopen h.1 hblame
  · exact Tx.Spec.pure fun w hw => ⟨hw, .refl st, fun h => by rw [h] at hopen; cases hopen⟩

theorem missed_spec (hs : c.calendar.sessions st.sessionDate = some s)
    (hissued : s.flattenStartUtc ≤ now → st.flattenIssued = true) (hord : s.Ordered) :
    Tx.Spec (At c now latest w₀ mortal st) (c.missed now st)
      (fun st' w => At c now latest w₀ mortal st' w ∧ Settles st st' ∧
        (st.state.isTerminal = false → Controller.reached st.flatDeadlineUtc now = true → st'.state = .INCIDENT) ∧
        (st.state.isTerminal = true → st' = st))
      (Failed c now latest w₀ mortal blame) := by
  unfold Controller.missed
  split
  · rename_i hdue
    refine Tx.Spec.of_pre (p := st.flattenIssued = true ∧ ∃ root, root ≠ "" ∧ st.flattenCommandId = some root)
      (fun w hw => ?_) ?_
    · have hb := hw.bound hs
      have hyes : st.flattenIssued = true := by
        by_contra hno
        have hdl := hb.deadline (by simpa using hno)
        rw [hdl] at hdue
        exact hno (hissued (hord.2.2.trans (reached_some.mp hdue.2)))
      obtain ⟨-, -, root, hne, -, hroot, -⟩ := hb.issued hyes
      exact ⟨hyes, root, hne, hroot⟩
    rintro ⟨hyes, root, hne, hroot⟩
    unfold Controller.missedFlat
    refine Tx.Spec.bind ((emit_at (fun _ => id) (by intros; exact nofun)).conseq (fun _ => id)
      (Q := fun _ w => At c now latest w₀ mortal st w ∧ ∃ signal, Event.breaker signal ∈ w.log ∧ signal.key = root)
      ?_ fun _ _ => id) fun _ => ?_
    · rintro u w ⟨hw, v, -, rfl⟩
      refine ⟨hw, _, List.mem_append_right _ (List.mem_singleton.mpr rfl), ?_⟩
      simp only [hroot, Option.filter_some]
      simp [hne]
    refine (advance_spec hs ?_ (fun _ h => h.1) fun w hw hb => ?_).conseq (fun _ => id) ?_ fun _ _ => id
    · exact Settles.advances ⟨rfl, rfl, rfl, rfl, rfl, rfl⟩ hdue.1
    · refine hb.settle hyes (by simp) (by simp) fun _ => ?_
      obtain ⟨signal, hmem, hkey⟩ := hw.2
      exact ⟨signal, hmem, by rw [hkey]; exact hroot⟩
    · rintro r w ⟨rfl, hw⟩
      exact ⟨hw, ⟨rfl, rfl, rfl, rfl, rfl, rfl⟩, fun _ _ => rfl, fun h => by rw [hdue.1] at h; cases h⟩
  · rename_i hno
    exact Tx.Spec.pure fun w hw => ⟨hw, .refl st, fun hopen hdue => (hno ⟨hopen, hdue⟩).elim, fun _ => rfl⟩

/-- What is due at `now` is done. -/
structure Due (s : SessionSchedule) (now : Int) (st : SessionControllerState) : Prop where
  cutoff : s.entryCutoffUtc ≤ now → st.entryCutoffReached = true
  cancel : s.cancelEntriesUtc ≤ now → st.cancelIssued = true
  flatten : s.flattenStartUtc ≤ now → st.flattenIssued = true

theorem Settles.due {st : SessionControllerState} (h : Settles st st') (hd : Due s now st) : Due s now st' where
  cutoff hc := by rw [h.cutoff]; exact hd.cutoff hc
  cancel hc := by rw [h.cancel]; exact hd.cancel hc
  flatten hc := by rw [h.flatten]; exact hd.flatten hc

/-- **The five steps**: when they return, everything due is done. -/
theorem deadlines_spec (hs : c.calendar.sessions st.sessionDate = some s) (hopen : st.state.isTerminal = false) :
    Tx.Spec (At c now latest w₀ mortal st) (c.deadlines a now st)
      (fun st' w => At c now latest w₀ mortal st' w ∧ st'.sessionDate = st.sessionDate ∧ Due s now st')
      (Failed c now latest w₀ mortal (¬ a.Succeed)) := by
  have hdate := c.calendar.sessions_date _ _ hs
  have hord := c.calendar.sessions_ordered _ _ hs
  unfold Controller.deadlines
  refine Tx.Spec.bind (entryCutoff_spec hs hopen) fun st₁ => ?_
  refine Tx.Spec.of_pre (p := st₁.sessionDate = st.sessionDate ∧ st₁.state.isTerminal = false ∧
    (s.entryCutoffUtc ≤ now → st₁.entryCutoffReached = true)) (fun w hw => hw.2) fun ⟨hd₁, ho₁, hc₁⟩ => ?_
  have hs₁ : c.calendar.sessions st₁.sessionDate = some s := by rw [hd₁]; exact hs
  refine Tx.Spec.bind ((cancelEntries_spec hs₁ ho₁ hord).conseq (fun _ h => h.1) (fun _ _ => id) fun _ _ => id)
    fun st₂ => ?_
  refine Tx.Spec.of_pre (p := st₂.sessionDate = st₁.sessionDate ∧ st₂.state.isTerminal = false ∧
    (st₁.entryCutoffReached = true → st₂.entryCutoffReached = true) ∧
    (s.cancelEntriesUtc ≤ now → st₂.cancelIssued = true)) (fun w hw => hw.2) fun ⟨hd₂, ho₂, hc₂, hx₂⟩ => ?_
  have hs₂ : c.calendar.sessions st₂.sessionDate = some s := by rw [hd₂]; exact hs₁
  refine Tx.Spec.bind (protect_spec.conseq (fun _ h => h.1) (fun _ _ => id) fun _ _ => id) fun _ => ?_
  refine Tx.Spec.bind (flatten_spec hs₂ (by rw [hdate, hd₂, hd₁]) ho₂ hord) fun st₃ => ?_
  refine Tx.Spec.of_pre (p := st₃.sessionDate = st₂.sessionDate ∧ st₃.state.isTerminal = false ∧
    (st₂.entryCutoffReached = true → st₃.entryCutoffReached = true) ∧
    (st₂.cancelIssued = true → st₃.cancelIssued = true) ∧
    (s.flattenStartUtc ≤ now → st₃.flattenIssued = true)) (fun w hw => hw.2) fun ⟨hd₃, ho₃, hc₃, hx₃, hf₃⟩ => ?_
  have hs₃ : c.calendar.sessions st₃.sessionDate = some s := by rw [hd₃]; exact hs₂
  have hdue : Due s now st₃ := ⟨fun h => hc₃ (hc₂ (hc₁ h)), fun h => hx₃ (hx₂ h), hf₃⟩
  refine Tx.Spec.bind ((poll_spec hs₃ ho₃ fun h _ => h).conseq (fun _ h => h.1) (fun _ _ => id) fun _ _ => id) fun st₄ => ?_
  refine Tx.Spec.of_pre (p := Settles st₃ st₄) (fun w hw => hw.2.1) fun hset => ?_
  have hs₄ : c.calendar.sessions st₄.sessionDate = some s := by rw [hset.date]; exact hs₃
  refine (missed_spec hs₄ (hset.due hdue).flatten hord).conseq (fun _ h => h.1) ?_ fun _ _ => id
  rintro st₅ w ⟨hw, hset', -, -⟩
  refine ⟨hw, ?_, hset'.due (hset.due hdue)⟩
  rw [hset'.date, hset.date, hd₃, hd₂, hd₁]

theorem runDueFrom_spec (hs : c.calendar.sessions st.sessionDate = some s) :
    Tx.Spec (At c now latest w₀ mortal st) (c.runDueFrom a now st)
      (fun st' w => At c now latest w₀ mortal st' w ∧ st'.sessionDate = st.sessionDate ∧ Due s now st')
      (Failed c now latest w₀ mortal (¬ a.Succeed)) := by
  unfold Controller.runDueFrom
  split
  · rename_i hstop
    refine Tx.Spec.pure fun w hw => ⟨hw, rfl, ?_⟩
    have hb := hw.bound hs
    have hissued : st.flattenIssued = true := by
      rcases hstop with hterm | hnone
      · exact hb.terminal hterm
      · rw [hb.columns.2.1] at hnone
        cases hnone
    exact ⟨fun _ => hb.cancelled (hb.flattened hissued), fun _ => hb.flattened hissued, fun _ => hissued⟩
  · rename_i hgo
    exact deadlines_spec hs (by simpa using fun h => hgo (Or.inl h))

/-- On a day without a session nothing is due. -/
theorem runDueFrom_closed (hs : c.calendar.sessions st.sessionDate = none) :
    Tx.Spec (At c now latest w₀ mortal st) (c.runDueFrom a now st)
      (fun st' w => At c now latest w₀ mortal st' w ∧ st' = st)
      (Failed c now latest w₀ mortal blame) := by
  refine Tx.Spec.of_pre (p := st = c.closedState st.sessionDate) (fun w hw => ?_) fun hst => ?_
  · cases hw.row.2 with
    | closed _ hr => exact hr
    | bound s h _ => rw [hs] at h; cases h
  · unfold Controller.runDueFrom
    rw [if_pos (Or.inr (by rw [hst]; rfl))]
    exact Tx.Spec.pure fun w hw => ⟨hw, rfl⟩

/-! ## The calls -/

/-- What the row holds after a pass, whatever its date. -/
def Passed (c : Controller) (now : Int) (date : Date) (st : SessionControllerState) : Prop :=
  st.sessionDate = date ∧ ∀ s, c.calendar.sessions date = some s → Due s now st

theorem pass_spec :
    Tx.Spec (At c now latest w₀ mortal st) (c.runDueFrom a now st)
      (fun st' w => At c now latest w₀ mortal st' w ∧ Passed c now st.sessionDate st')
      (Failed c now latest w₀ mortal (¬ a.Succeed)) := by
  cases hs : c.calendar.sessions st.sessionDate with
  | none =>
    refine (runDueFrom_closed hs).conseq (fun _ => id) ?_ fun _ _ => id
    rintro st' w ⟨hw, rfl⟩
    exact ⟨hw, rfl, fun s h => by rw [hs] at h; cases h⟩
  | some s =>
    refine (runDueFrom_spec hs).conseq (fun _ => id) ?_ fun _ _ => id
    rintro st' w ⟨hw, hd, hdue⟩
    exact ⟨hw, hd, fun s' h => by rw [hs] at h; cases h; exact hdue⟩

theorem fromSchedule_bound (s : SessionSchedule) :
    Bound c log now s (c.fromSchedule s .OPEN) where
  columns := ⟨rfl, rfl, rfl, rfl, rfl⟩
  deadline _ := rfl
  opened := by simp [Controller.fromSchedule]
  cutoff := by simp [Controller.fromSchedule]
  cancelled := by simp [Controller.fromSchedule]
  flattened := by simp [Controller.fromSchedule]
  terminal := by simp [Controller.fromSchedule, SessionState.isTerminal]
  past := by simp [Controller.fromSchedule]
  issued := by simp [Controller.fromSchedule]
  confirmed := by simp [Controller.fromSchedule]
  signalled := by simp [Controller.fromSchedule]

theorem flattenDeadline_some (d at_ : Int) :
    Controller.flattenDeadline (some d) at_ = if at_ < d then d else at_ + LATE_FLATTEN_WINDOW := rfl

theorem keptFlatDeadline_eq (hb : Bound c log now s r)
    (hstarts : StartsOk c now log) (hs : c.calendar.sessions s.sessionDate = some s) :
    Controller.keptFlatDeadline s r = r.flatDeadlineUtc := by
  unfold Controller.keptFlatDeadline
  by_cases hissued : r.flattenIssued = true
  · obtain ⟨at_, deadline, root, -, hmem, -, hd⟩ := hb.issued hissued
    obtain ⟨-, -, s', hs', hdl⟩ := hstarts _ _ _ _ _ hmem
    rw [hs] at hs'
    cases hs'
    rw [hd]
    by_cases hlate : s.flatDeadlineUtc < deadline
    · simp [hissued, hlate]
    · have heq : deadline = s.flatDeadlineUtc := by
        rw [hdl] at hlate ⊢
        rw [flattenDeadline_some] at hlate ⊢
        have : (0 : Int) < LATE_FLATTEN_WINDOW := by decide
        split at hlate <;> split <;> omega
      simp [heq]
  · have hd := hb.deadline (by simpa using hissued)
    rw [hd]
    simp [hissued]

theorem rebind_bound (hb : Bound c log now s r) (hstarts : StartsOk c now log) (hs : c.calendar.sessions s.sessionDate = some s) :
    Bound c log now s (c.rebind s r) := by
  have hdl := keptFlatDeadline_eq hb hstarts hs
  have hstate : (if r.state = .CLOSED then SessionState.OPEN else r.state) = r.state := if_neg hb.opened
  refine ⟨⟨rfl, rfl, rfl, rfl, rfl⟩, fun h => ?_, ?_, ?_, hb.cancelled, hb.flattened, fun h => ?_, hb.past,
    fun h => ?_, fun h => ?_, fun h => ?_⟩
  · exact hdl.trans (hb.deadline h)
  · exact fun h => hb.opened (hstate.symm.trans h)
  · exact hb.cutoff.trans (by rw [show (c.rebind s r).state = r.state from hstate])
  · exact hb.terminal (by rw [← hstate]; exact h)
  · obtain ⟨at_, deadline, root, hne, hmem, hroot, hd⟩ := hb.issued h
    exact ⟨at_, deadline, root, hne, hmem, hroot, hdl.trans hd⟩
  · exact hb.confirmed (hstate.symm.trans h)
  · exact hb.signalled (hstate.symm.trans h)

theorem rebind_advances (hb : Bound c log now s r)
    (hstarts : StartsOk c now log) (hs : c.calendar.sessions s.sessionDate = some s)
    (hdate : s.sessionDate = r.sessionDate) : Advances r (c.rebind s r) :=
  ⟨hdate, fun _ => if_neg hb.opened, id, id, fun h => ⟨h, rfl, keptFlatDeadline_eq hb hstarts hs⟩⟩

theorem remember_spec {v : World} (hget : v.store.get? st.sessionDate = some st) :
    Tx.Spec (fun w => Kept c now latest w₀ mortal w ∧ w = v) (Controller.remember st)
      (fun st' w => st' = st ∧ At c now latest w₀ mortal st w) (Failed c now latest w₀ mortal blame) := by
  rintro w ⟨hk, rfl⟩
  exact ⟨rfl, ⟨⟨hk.inv.rows, hk.inv.dates, fun st' h => by cases h; exact hget, hk.inv.starts⟩, hk.later, hk.alive⟩,
    rfl⟩

theorem resume_spec {st : SessionControllerState}
    (hP : ∀ w, P w → Kept c now latest w₀ mortal w ∧ RowOk c w.log now st ∧ st.sessionDate ≤ latest ∧
      ∀ r, w.store.get? st.sessionDate = some r → Advances r st) :
    Tx.Spec P (c.resume a now st)
      (fun st' w => At c now latest w₀ mortal st' w ∧ Passed c now st.sessionDate st')
      (Failed c now latest w₀ mortal (¬ a.Succeed)) :=
  Tx.Spec.bind (persist_spec hP) fun _ => pass_spec.conseq (fun _ h => h.1) (fun _ _ => id) fun _ _ => id

/-- **`recover`** binds the controller to the date of `now` and catches up. -/
theorem recover_spec (hlatest : c.calendar.dateOf now ≤ latest) :
    Tx.Spec (Kept c now latest w₀ mortal) (c.recover a now)
      (fun st w => At c now latest w₀ mortal st w ∧ Passed c now (c.calendar.dateOf now) st)
      (Failed c now latest w₀ mortal (¬ a.Succeed)) := by
  unfold Controller.recover
  refine Tx.Spec.get_bind fun v => ?_
  cases hresolve : c.calendar.resolve now with
  | none =>
    have hnone : c.calendar.sessions (c.calendar.dateOf now) = none := hresolve
    have hpassed : ∀ st : SessionControllerState, st.sessionDate = c.calendar.dateOf now →
        Passed c now (c.calendar.dateOf now) st :=
      fun st h => ⟨h, fun s hs => by rw [hnone] at hs; cases hs⟩
    dsimp only
    cases hget : v.store.get? (c.calendar.dateOf now) with
    | some existing =>
      have hdate := (Table.get?_eq_some.mp hget).2
      refine (remember_spec (by rw [hdate]; exact hget)).conseq (fun _ => id) ?_ fun _ _ => id
      rintro st' w ⟨rfl, hw⟩
      exact ⟨hw, hpassed _ hdate⟩
    | none =>
      refine Tx.Spec.bind (persist_spec ?_) fun _ => Tx.Spec.pure fun w hw => ⟨hw.1, hpassed _ rfl⟩
      rintro w ⟨hk, rfl⟩
      refine ⟨hk, .closed hnone rfl, hlatest, fun r hr => ?_⟩
      rw [show (c.closedState (c.calendar.dateOf now)).sessionDate = c.calendar.dateOf now from rfl, hget] at hr
      cases hr
  | some s =>
    have hs : c.calendar.sessions (c.calendar.dateOf now) = some s := hresolve
    have hdate := c.calendar.sessions_date _ _ hs
    have hs' : c.calendar.sessions s.sessionDate = some s := by rw [hdate]; exact hs
    dsimp only
    rw [← hdate]
    cases hget : v.store.get? s.sessionDate with
    | none =>
      refine resume_spec ?_
      rintro w ⟨hk, rfl⟩
      refine ⟨hk, .bound s hs' (fromSchedule_bound s), hdate.trans_le hlatest, fun r hr => ?_⟩
      rw [show (c.fromSchedule s .OPEN).sessionDate = s.sessionDate from rfl, hget] at hr
      cases hr
    | some existing =>
      have hkey := (Table.get?_eq_some.mp hget).2
      dsimp only
      split
      · rename_i hincident
        refine Tx.Spec.of_pre (p := Bound c v.log now s existing) (fun w hw => ?_) fun hb => ?_
        · obtain ⟨hk, rfl⟩ := hw
          exact (hk.inv.rows existing (Table.get?_eq_some.mp hget).1).bound_of (by rw [hkey]; exact hs')
        refine (remember_spec (by rw [hkey]; exact hget)).conseq (fun _ => id) ?_ fun _ _ => id
        rintro st' w ⟨rfl, hw⟩
        refine ⟨hw, hkey, fun s₁ h₁ => ?_⟩
        rw [hs'] at h₁
        cases h₁
        have hissued := hb.terminal (by rw [hincident]; rfl)
        exact ⟨fun _ => hb.cancelled (hb.flattened hissued), fun _ => hb.flattened hissued, fun _ => hissued⟩
      · refine resume_spec ?_
        rintro w ⟨hk, rfl⟩
        have hb : Bound c w.log now s existing :=
          (hk.inv.rows existing (Table.get?_eq_some.mp hget).1).bound_of (by rw [hkey]; exact hs')
        refine ⟨hk, .bound s hs' (rebind_bound hb hk.inv.starts hs'), hdate.trans_le hlatest, fun r hr => ?_⟩
        rw [show (c.rebind s existing).sessionDate = s.sessionDate from rfl, hget] at hr
        cases hr
        exact rebind_advances hb hk.inv.starts hs' hkey.symm

/-- The date a `run_due` works on: the row in memory, or the day it has to recover. -/
def workingDate (c : Controller) (w : World) (now : Int) : Date :=
  match w.memory with
  | some st => st.sessionDate
  | none => c.calendar.dateOf now

variable {d : Date}

theorem requireState_spec (hlatest : d ≤ latest) :
    Tx.Spec (fun w => Kept c now latest w₀ mortal w ∧ workingDate c w now = d) (c.requireState a now)
      (fun st w => At c now latest w₀ mortal st w ∧ st.sessionDate = d)
      (Failed c now latest w₀ mortal (¬ a.Succeed)) := by
  unfold Controller.requireState
  refine Tx.Spec.get_bind fun v => ?_
  cases hm : v.memory with
  | some st =>
    refine Tx.Spec.pure ?_
    rintro w ⟨⟨hk, hd⟩, rfl⟩
    refine ⟨⟨hk, hm⟩, ?_⟩
    rw [workingDate, hm] at hd
    exact hd
  | none =>
    refine Tx.Spec.of_pre (p := c.calendar.dateOf now = d) (fun w hw => ?_) fun hd => ?_
    · obtain ⟨⟨-, hd⟩, rfl⟩ := hw
      rw [workingDate, hm] at hd
      exact hd
    · subst hd
      exact (recover_spec hlatest).conseq (fun _ h => h.1.1) (fun _ _ h => ⟨h.1, h.2.1⟩) fun _ _ => id

/-- **`run_due`** works on one date, and when it returns everything due on that date is done. -/
theorem runDue_spec {first : Answers} (hlatest : d ≤ latest) :
    Tx.Spec (fun w => Kept c now latest w₀ mortal w ∧ workingDate c w now = d) (c.runDue first a now)
      (fun st w => At c now latest w₀ mortal st w ∧ Passed c now d st)
      (Failed c now latest w₀ mortal (¬ (first.Succeed ∧ a.Succeed))) := by
  unfold Controller.runDue
  refine Tx.Spec.bind ((requireState_spec hlatest).conseq (fun _ => id) (fun _ _ => id) ?_) fun st => ?_
  · rintro e w ⟨hk, hc, hb⟩
    exact ⟨hk, hc, fun hne hok => hb hne hok.1⟩
  refine Tx.Spec.of_pre (p := st.sessionDate = d) (fun w hw => hw.2) fun hd => ?_
  subst hd
  refine pass_spec.conseq (fun _ h => h.1) (fun _ _ => id) ?_
  rintro e w ⟨hk, hc, hb⟩
  exact ⟨hk, hc, fun hne hok => hb hne hok.2⟩

/-! ## Turns and runs -/

def Turn.date (c : Controller) (w : World) (t : Turn) : Date :=
  match t.call with
  | .recover => c.calendar.dateOf t.now
  | .runDue => workingDate c w t.now

/-- The call returns `st`: it neither raises nor dies. -/
def Turn.Returns (c : Controller) (w : World) (t : Turn) (st : SessionControllerState) : Prop :=
  ∃ w', t.act c { w with lives := t.crash } = .ok st w'

theorem act_spec (t : Turn) (hlatest : d ≤ latest) :
    Tx.Spec (fun w => Kept c t.now latest w₀ mortal w ∧ t.date c w = d) (t.act c)
      (fun st w => At c t.now latest w₀ mortal st w ∧ Passed c t.now d st)
      (Failed c t.now latest w₀ mortal (¬ (t.first.Succeed ∧ t.second.Succeed))) := by
  cases hcall : t.call with
  | recover =>
    unfold Turn.act Turn.date
    rw [hcall]
    refine Tx.Spec.of_pre (p := c.calendar.dateOf t.now = d) (fun w hw => hw.2) fun hd => ?_
    subst hd
    refine (recover_spec hlatest).conseq (fun _ h => h.1) (fun _ _ => id) ?_
    rintro e w ⟨hk, hc, hb⟩
    exact ⟨hk, hc, fun hne hok => hb hne hok.1⟩
  | runDue =>
    unfold Turn.act Turn.date
    rw [hcall]
    exact runDue_spec hlatest

theorem Inv.kept (h : Inv c now latest w) (crash : Option Nat) :
    Kept c now latest w (crash.isSome = true) { w with lives := crash } where
  inv := ⟨h.rows, h.dates, h.memory, h.starts⟩
  later := Later.refl w
  alive hno := by simpa using hno

theorem Inv.forget (h : Inv c now latest w) : Inv c now latest { w with lives := none, memory := none } :=
  ⟨h.rows, h.dates, fun _ hm => (Option.some_ne_none _ hm.symm).elim, h.starts⟩

variable {t : Turn}

/-- **Step lemma.** -/
theorem turn_spec (h : Inv c now latest w) (hnow : now ≤ t.now) (hlatest : latest ≤ latest') (hdate : t.date c w ≤ latest') :
    Inv c t.now latest' (turn c w t) ∧ Later w (turn c w t) ∧
      (∀ st, t.Returns c w st → (turn c w t).memory = some st ∧ Passed c t.now (t.date c w) st) ∧
      (t.crash = none → t.first.Succeed → t.second.Succeed → ∃ st, t.Returns c w st) := by
  have hpre : Kept c t.now latest' w (t.crash.isSome = true) { w with lives := t.crash } ∧
      t.date c { w with lives := t.crash } = t.date c w :=
    ⟨(h.mono hnow hlatest).kept t.crash, rfl⟩
  have hspec : Tx.Spec (fun v => Kept c t.now latest' w (t.crash.isSome = true) v ∧ t.date c v = t.date c w) (t.act c)
      (fun st v => At c t.now latest' w (t.crash.isSome = true) st v ∧ Passed c t.now (t.date c w) st)
      (Failed c t.now latest' w (t.crash.isSome = true) (¬ (t.first.Succeed ∧ t.second.Succeed))) :=
    act_spec t hdate
  unfold turn Turn.Returns
  cases hact : t.act c { w with lives := t.crash } with
  | ok st w' =>
    obtain ⟨hat, hpassed⟩ := hspec.of_ok hpre hact
    refine ⟨⟨hat.inv.rows, hat.inv.dates, hat.inv.memory, hat.inv.starts⟩, hat.later, ?_, fun _ _ _ => ⟨st, w', rfl⟩⟩
    rintro st' ⟨w'', heq⟩
    cases heq
    exact ⟨hat.holds, hpassed⟩
  | error e w' =>
    obtain ⟨hk, hcrash, hblame⟩ := hspec.of_error hpre hact
    have hnone : ∀ st, ¬ ∃ w'', EStateM.Result.error (α := SessionControllerState) e w' = .ok st w'' := by
      rintro st ⟨w'', heq⟩
      cases heq
    refine ⟨?_, ?_, fun st hr => (hnone st hr).elim, fun hno hf hs => ?_⟩
    · cases e with
      | crashed => exact hk.inv.forget
      | port => exact ⟨hk.inv.rows, hk.inv.dates, hk.inv.memory, hk.inv.starts⟩
      | noRoot => exact ⟨hk.inv.rows, hk.inv.dates, hk.inv.memory, hk.inv.starts⟩
      | malformed => exact ⟨hk.inv.rows, hk.inv.dates, hk.inv.memory, hk.inv.starts⟩
    · cases e with
      | crashed => exact hk.later
      | port => exact hk.later
      | noRoot => exact hk.later
      | malformed => exact hk.later
    · by_cases he : e = .crashed
      · have := hcrash he
        rw [hno] at this
        cases this
      · exact (hblame he ⟨hf, hs⟩).elim

theorem Turn.date_le (h : Inv c now (c.calendar.dateOf now) w) (hnow : now ≤ t.now) : t.date c w ≤ c.calendar.dateOf t.now := by
  unfold Turn.date
  cases t.call with
  | recover => exact le_refl _
  | runDue =>
    dsimp only [workingDate]
    cases hm : w.memory with
    | none => exact le_refl _
    | some st =>
      exact (h.dates st (Table.get?_eq_some.mp (h.memory st hm)).1).trans (c.calendar.dateOf_mono hnow)

/-- The calls of any number of processes, one after the other. -/
def turns (c : Controller) (w : World) (ts : List Turn) : World := ts.foldl (turn c) w

/-- **Run lemma.** -/
theorem turns_spec {ts : List Turn} (h : Inv c now (c.calendar.dateOf now) w)
    (hfrom : ∀ t ∈ ts, now ≤ t.now) (hmono : ts.Pairwise fun t u => t.now ≤ u.now) :
    Later w (turns c w ts) ∧ ∀ last, now ≤ last → (∀ t ∈ ts, t.now ≤ last) →
      Inv c last (c.calendar.dateOf last) (turns c w ts) := by
  induction ts generalizing w now with
  | nil => exact ⟨.refl w, fun last hnow _ => h.mono hnow (c.calendar.dateOf_mono hnow)⟩
  | cons t ts ih =>
    have ht := hfrom t List.mem_cons_self
    have hmono' := List.pairwise_cons.mp hmono
    obtain ⟨hinv, hlater, -, -⟩ := turn_spec h ht (c.calendar.dateOf_mono ht) (Turn.date_le h ht)
    obtain ⟨hlater', hinv'⟩ := ih hinv hmono'.1 hmono'.2
    exact ⟨hlater.trans hlater', fun last _ hlast => hinv' last (hlast t List.mem_cons_self)
      fun u hu => hlast u (List.mem_cons_of_mem _ hu)⟩

/-- The world that any earlier processes leave, at any clock not before their calls. -/
theorem history_inv (c : Controller) {history : List Turn} (hmono : history.Pairwise fun t u => t.now ≤ u.now)
    {now : Int} (hnow : ∀ t ∈ history, t.now ≤ now) :
    Inv c now (c.calendar.dateOf now) (turns c .empty history) := by
  cases history with
  | nil => exact inv_empty c now _
  | cons t ts =>
    have hfrom : ∀ u ∈ t :: ts, t.now ≤ u.now := by
      intro u hu
      rcases List.mem_cons.mp hu with rfl | hu
      · exact le_refl _
      · exact (List.pairwise_cons.mp hmono).1 u hu
    exact (turns_spec (inv_empty c t.now _) hfrom hmono).2 now (hnow t List.mem_cons_self) hnow

theorem exists_clock (ts : List Turn) : ∃ now, ∀ t ∈ ts, t.now ≤ now := by
  induction ts with
  | nil => exact ⟨0, by simp⟩
  | cons t ts ih =>
    obtain ⟨now, hnow⟩ := ih
    refine ⟨max t.now now, fun u hu => ?_⟩
    rcases List.mem_cons.mp hu with rfl | hu
    · exact le_max_left _ _
    · exact (hnow u hu).trans (le_max_right _ _)

end MmrTrader.Session
