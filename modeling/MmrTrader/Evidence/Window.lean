import Mathlib.Data.List.Dedup
import Mathlib.Data.List.Induction
import Mathlib.Data.List.Sort
import Mathlib.Data.String.Basic
import MmrTrader.Lib.Gregorian
import MmrTrader.Lib.PyValues
import MmrTrader.Lib.KeyedLog

/-!
# The evidence window of a strategy

Executable model of `project_evidence_window` and of `EvidenceWindow` (`trader/promotion/evidence_store.py`).

* `EventKind`, `EvidenceRow` — the raw rows; instants are in UTC, as `_as_utc` leaves them.
* `ordered`, `latestCorrectionTs`, `inWindow` — the sort, the reset and the rows that count.
* `latestUnresolvedAlerts` — the state of each alert; `projectEvidenceWindow`.
-/

set_option autoImplicit false

namespace MmrTrader.Evidence

open Lib PyJson
open Lib.CanonicalJson (Kind)

inductive EventKind where
  | session
  | roundTrip
  | instrument
  | correction
  | breakerTrip
  | costBreach
  | drawdownBreach
  | divergence
  | duplicate
  | unresolvedAlert
  | missedFlat
  | replayMismatch
  deriving DecidableEq

/-- A row of `promotion_evidence_events`, as `list_events` gives it. -/
structure EvidenceRow (F : Type) where
  evidenceKey : String
  strategyId : String
  eventKind : EventKind
  payload : Node F .fields
  sourceTimestamp : Timestamp
  recordedAt : Timestamp

/-- A payload, with what `dict` lookups read of it. -/
abbrev Dict (F : Type) := Node F .fields

structure EvidenceWindow (F : Type) where
  strategyId : String
  asOf : Timestamp
  windowResetAt : Option Timestamp
  firstEventAt : Option Timestamp
  lastEventAt : Option Timestamp
  calendarDays : List Text
  sessionIds : List Text
  roundTripIds : List Text
  instrumentIds : List Text
  corrections : List (Dict F)
  breakerTrips : List (Dict F)
  costBreaches : List (Dict F)
  drawdownBreaches : List (Dict F)
  stale : Bool
  eventCount : Nat
  divergences : List (Dict F)
  duplicates : List (Dict F)
  unresolvedAlerts : List (Dict F)
  missedFlats : List (Dict F)
  replayMismatches : List (Dict F)
  roundTripRecords : List (Dict F)

variable {F : Type}

/-- `elapsed_calendar_days`; `none` is a `ValueError` of `fromisoformat`. -/
def EvidenceWindow.elapsedCalendarDays (w : EvidenceWindow F) : Option Int :=
  match w.calendarDays.head?, w.calendarDays.getLast? with
  | some first, some last => do
    let first ← dateFromIsoformat first
    let last ← dateFromIsoformat last
    return (last.toordinal : Int) - first.toordinal + 1
  | _, _ => some 0

/-! ## The rows that count -/

/-- The key of the sort, `(source_timestamp, evidence_key)`, compared. -/
def Before (a b : EvidenceRow F) : Prop :=
  a.sourceTimestamp < b.sourceTimestamp ∨ a.sourceTimestamp = b.sourceTimestamp ∧ a.evidenceKey ≤ b.evidenceKey

instance (a b : EvidenceRow F) : Decidable (Before a b) := inferInstanceAs (Decidable (_ ∨ _))

/-- `sorted(events, key=…)`. -/
def ordered (events : List (EvidenceRow F)) : List (EvidenceRow F) := events.insertionSort Before

def latestCorrectionTs (orderedEvents : List (EvidenceRow F)) : Option Timestamp :=
  orderedEvents.foldl (fun latest event =>
    if event.eventKind = .correction then
      match latest with
      | none => some event.sourceTimestamp
      | some ts => if ts < event.sourceTimestamp then some event.sourceTimestamp else latest
    else latest) none

def counts (windowResetAt : Option Timestamp) (event : EvidenceRow F) : Bool :=
  match windowResetAt with
  | none => true
  | some reset => decide (reset ≤ event.sourceTimestamp)

def inWindow (events : List (EvidenceRow F)) : List (EvidenceRow F) :=
  (ordered events).filter (counts (latestCorrectionTs (ordered events)))

/-- `sorted(set(texts))`. -/
def sortedSet (texts : List Text) : List Text := texts.dedup.insertionSort (· ≤ ·)

def payloadsOf (kind : EventKind) (events : List (EvidenceRow F)) : List (Dict F) :=
  (events.filter fun event => event.eventKind = kind).map (·.payload)

/-- `payload.get(key)` is there and is not `None`. -/
def present (key : String) (payload : Dict F) : Option (Value F) :=
  match get? (text key) payload with
  | some .null => none
  | v => v

section
variable [PyFloat F] [UnicodeData]

def sessionId (event : EvidenceRow F) : Option Text :=
  if event.eventKind = .session then
    match get? (text "session_id") event.payload with
    | some v => if truthy v then some (pyStr v) else none
    | none => none
  else none

def roundTripId (event : EvidenceRow F) : Option Text :=
  if event.eventKind = .roundTrip then
    match orElse (get? (text "round_trip_id") event.payload) (get? (text "trade_id") event.payload) with
    | some v => if truthy v then some (pyStr v) else none
    | none => none
  else none

def instrumentId (event : EvidenceRow F) : Option Text :=
  if event.eventKind = .instrument ∨ event.eventKind = .roundTrip then
    ((present "instrument_id" event.payload).or (present "conid" event.payload)).map pyStr
  else none

def sessionDay (event : EvidenceRow F) : Option Text :=
  if event.eventKind = .session then some event.sourceTimestamp.date.iso else none

/-! ## Alerts -/

/-- The alert a row is about: its `alert_id`, or else the row itself. -/
def alertKey (event : EvidenceRow F) : Text :=
  match get? (text "alert_id") event.payload with
  | some v => if truthy v then pyStr v else text event.evidenceKey
  | none => text event.evidenceKey

/-- `payload.get("resolved") is True`. -/
def resolved (payload : Dict F) : Bool :=
  match get? (text "resolved") payload with
  | some (.bool true) => true
  | _ => false

/-- `latest_by_key[key] = payload`: a key keeps its place. -/
def setLatest {α : Type} (key : Text) (v : α) : List (Text × α) → List (Text × α)
  | [] => [(key, v)]
  | (k, w) :: rest => if k = key then (k, v) :: rest else (k, w) :: setLatest key v rest

def latestByKey (events : List (EvidenceRow F)) : List (Text × Dict F) :=
  events.foldl (fun latest event =>
    if event.eventKind = .unresolvedAlert then setLatest (alertKey event) event.payload latest else latest) []

def latestUnresolvedAlerts (events : List (EvidenceRow F)) : List (Dict F) :=
  ((latestByKey events).map Prod.snd).filter fun payload => !resolved payload

/-! ## The projection -/

/-- `{**payload, "evidence_key": …, "source_timestamp": …}`. -/
def correctionRecord (event : EvidenceRow F) : Dict F :=
  assign (text "source_timestamp") (.str event.sourceTimestamp.iso)
    (assign (text "evidence_key") (.str (text event.evidenceKey)) event.payload)

/-- `STALE_AFTER`, in microseconds. -/
def STALE_AFTER : Nat := 30 * 24 * 60 * 60 * 1000000

def projectEvidenceWindow (strategyId : String) (events : List (EvidenceRow F)) (asOf : Timestamp) : EvidenceWindow F :=
  let rows := ordered events
  let window := inWindow events
  { strategyId := strategyId
    asOf := asOf
    windowResetAt := latestCorrectionTs rows
    firstEventAt := rows.head?.map (·.sourceTimestamp)
    lastEventAt := rows.getLast?.map (·.sourceTimestamp)
    calendarDays := sortedSet (window.filterMap sessionDay)
    sessionIds := sortedSet (window.filterMap sessionId)
    roundTripIds := sortedSet (window.filterMap roundTripId)
    instrumentIds := sortedSet (window.filterMap instrumentId)
    corrections := (rows.filter fun event => event.eventKind = .correction).map correctionRecord
    breakerTrips := payloadsOf .breakerTrip window
    costBreaches := payloadsOf .costBreach window
    drawdownBreaches := payloadsOf .drawdownBreach window
    stale :=
      match window.getLast? with
      | none => true
      | some last => decide ((STALE_AFTER : Int) < (asOf.micros : Int) - last.sourceTimestamp.micros)
    eventCount := rows.length
    divergences := payloadsOf .divergence window
    duplicates := payloadsOf .duplicate window
    unresolvedAlerts := latestUnresolvedAlerts window
    missedFlats := payloadsOf .missedFlat window
    replayMismatches := payloadsOf .replayMismatch window
    roundTripRecords := payloadsOf .roundTrip window }

end

end MmrTrader.Evidence

/-!
## What a row does to the window

* `facts`, `counted_project` — the incident lists and the counters are a function of the rows in the window that are
  no corrections.
* `facts_add`, `facts_correct_before`, `facts_correct_after` — what one further row does to these.
* `unresolvedRows_add` — when an alert leaves the window.
-/

namespace MmrTrader.Evidence

open Lib PyJson

variable {F : Type} {events events' : List (EvidenceRow F)} {r c : EvidenceRow F}

/-! ## The sort -/

theorem before_total (a b : EvidenceRow F) : Before a b ∨ Before b a := by
  unfold Before
  rcases lt_trichotomy a.sourceTimestamp b.sourceTimestamp with h | h | h
  · exact Or.inl (Or.inl h)
  · rcases le_total a.evidenceKey b.evidenceKey with hk | hk
    · exact Or.inl (Or.inr ⟨h, hk⟩)
    · exact Or.inr (Or.inr ⟨h.symm, hk⟩)
  · exact Or.inr (Or.inl h)

variable {a b : EvidenceRow F}

theorem before_trans {c : EvidenceRow F} (hab : Before a b) (hbc : Before b c) : Before a c := by
  rcases hab with hab | ⟨hab, hk⟩
  · rcases hbc with hbc | ⟨hbc, -⟩
    · exact Or.inl (hab.trans hbc)
    · exact Or.inl (hbc ▸ hab)
  · rcases hbc with hbc | ⟨hbc, hk'⟩
    · exact Or.inl (hab ▸ hbc)
    · exact Or.inr ⟨hab.trans hbc, hk.trans hk'⟩

theorem before_time (h : Before a b) : a.sourceTimestamp ≤ b.sourceTimestamp :=
  h.elim le_of_lt fun h => h.1.le

theorem key_eq_of_before (hab : Before a b) (hba : Before b a) : a.evidenceKey = b.evidenceKey := by
  rcases hab with hlt | ⟨hts, hk⟩
  · exact absurd (before_time hba) (not_le.mpr hlt)
  · rcases hba with hlt | ⟨-, hk'⟩
    · exact absurd hlt (not_lt.mpr hts.le)
    · exact le_antisymm hk hk'

instance : Std.Total (Before (F := F)) := ⟨before_total⟩

instance : IsTrans (EvidenceRow F) Before := ⟨fun _ _ _ => before_trans⟩

theorem ordered_perm (events : List (EvidenceRow F)) : (ordered events).Perm events := List.perm_insertionSort _ _

theorem ordered_pairwise (events : List (EvidenceRow F)) : (ordered events).Pairwise Before := List.pairwise_insertionSort _ _

@[simp] theorem mem_ordered : r ∈ ordered events ↔ r ∈ events := (ordered_perm events).mem_iff

variable {l : List (EvidenceRow F)}
variable {l' : List (EvidenceRow F)}

theorem eq_of_sorted (hkeys : (l.map (·.evidenceKey)).Nodup) (hperm : l.Perm l')
    (hl : l.Pairwise Before) (hl' : l'.Pairwise Before) : l = l' := by
  refine List.Perm.eq_of_pairwise (fun a b ha hb hab hba => ?_) hl hl' hperm
  exact List.inj_on_of_nodup_map hkeys ha (hperm.mem_iff.mpr hb) (key_eq_of_before hab hba)

/-- **The order of the rows does not matter.** -/
theorem ordered_eq_of_perm (hkeys : (events.map (·.evidenceKey)).Nodup) (h : events.Perm events') :
    ordered events = ordered events' := by
  have hperm : (ordered events).Perm (ordered events') := (ordered_perm events).trans (h.trans (ordered_perm events').symm)
  refine eq_of_sorted ?_ hperm (ordered_pairwise _) (ordered_pairwise _)
  exact (((ordered_perm events).map _).nodup_iff).mpr hkeys

/-- Where a further row goes. -/
theorem ordered_cons (r : EvidenceRow F) (events : List (EvidenceRow F)) : ∃ early late,
    ordered events = early ++ late ∧ ordered (r :: events) = early ++ r :: late ∧ ∀ a ∈ early, Before a r := by
  refine ⟨(ordered events).takeWhile fun b => ¬ Before r b, (ordered events).dropWhile fun b => ¬ Before r b,
    (List.takeWhile_append_dropWhile).symm, List.orderedInsert_eq_take_drop Before r (ordered events), fun a ha => ?_⟩
  have hnot : ¬ Before r a := by simpa using List.all_eq_true.mp List.all_takeWhile a ha
  exact (before_total a r).resolve_right hnot

theorem ordered_filter (hkeys : (events.map (·.evidenceKey)).Nodup) (p : EvidenceRow F → Bool) :
    ordered (events.filter p) = (ordered events).filter p := by
  have hsub := (List.filter_sublist (l := events) (p := p)).map (·.evidenceKey)
  refine eq_of_sorted ?_ ?_ (ordered_pairwise _) ((ordered_pairwise events).filter p)
  · exact (((ordered_perm _).map _).nodup_iff).mpr (hsub.nodup hkeys)
  · exact (ordered_perm _).trans ((ordered_perm events).filter p).symm

/-! ## The reset -/

theorem latestCorrectionTs_append (l : List (EvidenceRow F)) (r : EvidenceRow F) :
    latestCorrectionTs (l ++ [r]) =
      if r.eventKind = .correction then
        match latestCorrectionTs l with
        | none => some r.sourceTimestamp
        | some ts => if ts < r.sourceTimestamp then some r.sourceTimestamp else some ts
      else latestCorrectionTs l := by
  unfold latestCorrectionTs
  rw [List.foldl_append, List.foldl_cons, List.foldl_nil]
  split
  · split <;> simp_all
  · rfl

theorem latestCorrectionTs_none : latestCorrectionTs l = none ↔ ∀ d ∈ l, d.eventKind ≠ .correction := by
  induction l using List.reverseRecOn with
  | nil => simp [latestCorrectionTs]
  | append_singleton l r ih =>
    rw [latestCorrectionTs_append]
    constructor
    · intro h d hd
      split at h
      · split at h
        · cases h
        · split at h <;> cases h
      · rename_i hr
        rcases List.mem_append.mp hd with hd | hd
        · exact ih.mp h d hd
        · exact (List.mem_singleton.mp hd) ▸ hr
    · intro h
      rw [if_neg (h r (by simp))]
      exact ih.mpr fun d hd => h d (by simp [hd])

theorem latestCorrectionTs_some {ts : Timestamp} (h : latestCorrectionTs l = some ts) :
    (∃ d ∈ l, d.eventKind = .correction ∧ d.sourceTimestamp = ts) ∧
      ∀ d ∈ l, d.eventKind = .correction → d.sourceTimestamp ≤ ts := by
  induction l using List.reverseRecOn generalizing ts with
  | nil => cases h
  | append_singleton l r ih =>
    rw [latestCorrectionTs_append] at h
    split at h
    · rename_i hr
      cases hl : latestCorrectionTs l with
      | none =>
        rw [hl] at h
        cases h
        refine ⟨⟨r, by simp, hr, rfl⟩, fun d hd hkind => ?_⟩
        rcases List.mem_append.mp hd with hd | hd
        · exact absurd hkind (latestCorrectionTs_none.mp hl d hd)
        · exact (List.mem_singleton.mp hd) ▸ le_refl _
      | some old =>
        rw [hl] at h
        obtain ⟨⟨d, hd, hkind, hts⟩, hall⟩ := ih hl
        simp only at h
        split at h
        · rename_i hlt
          cases h
          refine ⟨⟨r, by simp, hr, rfl⟩, fun e he hkind => ?_⟩
          rcases List.mem_append.mp he with he | he
          · exact (hall e he hkind).trans hlt.le
          · exact (List.mem_singleton.mp he) ▸ le_refl _
        · rename_i hle
          cases h
          refine ⟨⟨d, by simp [hd], hkind, hts⟩, fun e he hkind => ?_⟩
          rcases List.mem_append.mp he with he | he
          · exact hall e he hkind
          · exact (List.mem_singleton.mp he) ▸ not_lt.mp hle
    · rename_i hr
      obtain ⟨⟨d, hd, hkind, hts⟩, hall⟩ := ih h
      refine ⟨⟨d, by simp [hd], hkind, hts⟩, fun e he hkind => ?_⟩
      rcases List.mem_append.mp he with he | he
      · exact hall e he hkind
      · exact absurd hkind ((List.mem_singleton.mp he) ▸ hr)

variable {d : EvidenceRow F}

/-- The reset is known by what it is: the time of a correction that none is later than. -/
theorem latestCorrectionTs_eq (hd : d ∈ l) (hkind : d.eventKind = .correction)
    (hall : ∀ e ∈ l, e.eventKind = .correction → e.sourceTimestamp ≤ d.sourceTimestamp) :
    latestCorrectionTs l = some d.sourceTimestamp := by
  cases h : latestCorrectionTs l with
  | none => exact absurd hkind (latestCorrectionTs_none.mp h d hd)
  | some ts =>
    obtain ⟨⟨e, he, hek, rfl⟩, hmax⟩ := latestCorrectionTs_some h
    exact congrArg some (le_antisymm (hall e he hek) (hmax d hd hkind))

theorem latestCorrectionTs_congr
    (h : ∀ d, d.eventKind = .correction → (d ∈ l ↔ d ∈ l')) : latestCorrectionTs l = latestCorrectionTs l' := by
  cases hl : latestCorrectionTs l with
  | none =>
    have hnone := latestCorrectionTs_none.mp hl
    exact (latestCorrectionTs_none.mpr fun d hd hkind => hnone d ((h d hkind).mpr hd) hkind).symm
  | some ts =>
    obtain ⟨⟨d, hd, hkind, rfl⟩, hmax⟩ := latestCorrectionTs_some hl
    exact (latestCorrectionTs_eq ((h d hkind).mp hd) hkind fun e he hek => hmax e ((h e hek).mpr he) hek).symm

/-! ## The rows behind the incident lists and the counters -/

/-- What the docstring of `EvidenceWindow` counts: its incident lists, its ids and its days. -/
structure Counted (F : Type) where
  calendarDays : List Text
  sessionIds : List Text
  roundTripIds : List Text
  instrumentIds : List Text
  breakerTrips : List (Dict F)
  costBreaches : List (Dict F)
  drawdownBreaches : List (Dict F)
  divergences : List (Dict F)
  duplicates : List (Dict F)
  unresolvedAlerts : List (Dict F)
  missedFlats : List (Dict F)
  replayMismatches : List (Dict F)
  roundTripRecords : List (Dict F)

def EvidenceWindow.counted (w : EvidenceWindow F) : Counted F :=
  ⟨w.calendarDays, w.sessionIds, w.roundTripIds, w.instrumentIds, w.breakerTrips, w.costBreaches, w.drawdownBreaches,
    w.divergences, w.duplicates, w.unresolvedAlerts, w.missedFlats, w.replayMismatches, w.roundTripRecords⟩

def facts (events : List (EvidenceRow F)) : List (EvidenceRow F) :=
  (inWindow events).filter fun event => event.eventKind ≠ .correction

theorem payloadsOf_facts {kind : EventKind} (h : kind ≠ .correction) (rows : List (EvidenceRow F)) :
    payloadsOf kind (rows.filter fun event => event.eventKind ≠ .correction) = payloadsOf kind rows := by
  unfold payloadsOf
  rw [List.filter_filter]
  congr 1
  refine List.filter_congr fun event _ => ?_
  by_cases hk : event.eventKind = kind
  · simp [hk, h]
  · simp [hk]

theorem filterMap_facts {f : EvidenceRow F → Option Text} (h : ∀ event, event.eventKind = .correction → f event = none)
    (rows : List (EvidenceRow F)) : (rows.filter fun event => event.eventKind ≠ .correction).filterMap f = rows.filterMap f := by
  rw [List.filterMap_filter]
  refine List.filterMap_congr fun event _ => ?_
  by_cases hk : event.eventKind = .correction
  · simp [hk, h event hk]
  · simp [hk]

section
variable [PyFloat F] [UnicodeData]

theorem latestByKey_facts (rows : List (EvidenceRow F)) :
    latestByKey (rows.filter fun event => event.eventKind ≠ .correction) = latestByKey rows := by
  unfold latestByKey
  rw [List.foldl_filter]
  congr 1
  funext latest event
  by_cases hk : event.eventKind = .correction
  · simp [hk]
  · simp [hk]

def count (rows : List (EvidenceRow F)) : Counted F where
  calendarDays := sortedSet (rows.filterMap sessionDay)
  sessionIds := sortedSet (rows.filterMap sessionId)
  roundTripIds := sortedSet (rows.filterMap roundTripId)
  instrumentIds := sortedSet (rows.filterMap instrumentId)
  breakerTrips := payloadsOf .breakerTrip rows
  costBreaches := payloadsOf .costBreach rows
  drawdownBreaches := payloadsOf .drawdownBreach rows
  divergences := payloadsOf .divergence rows
  duplicates := payloadsOf .duplicate rows
  unresolvedAlerts := latestUnresolvedAlerts rows
  missedFlats := payloadsOf .missedFlat rows
  replayMismatches := payloadsOf .replayMismatch rows
  roundTripRecords := payloadsOf .roundTrip rows

theorem counted_project (strategyId : String) (events : List (EvidenceRow F)) (asOf : Timestamp) :
    (projectEvidenceWindow strategyId events asOf).counted = count (facts events) := by
  have hsession : ∀ event : EvidenceRow F, event.eventKind = .correction → sessionId event = none := fun event h => by
    simp [sessionId, h]
  have hday : ∀ event : EvidenceRow F, event.eventKind = .correction → sessionDay event = none := fun event h => by
    simp [sessionDay, h]
  have htrip : ∀ event : EvidenceRow F, event.eventKind = .correction → roundTripId event = none := fun event h => by
    simp [roundTripId, h]
  have hinstrument : ∀ event : EvidenceRow F, event.eventKind = .correction → instrumentId event = none := fun event h => by
    simp [instrumentId, h]
  simp only [EvidenceWindow.counted, projectEvidenceWindow, count, facts, latestUnresolvedAlerts, latestByKey_facts,
    filterMap_facts hsession, filterMap_facts hday, filterMap_facts htrip, filterMap_facts hinstrument]
  congr 1 <;> exact (payloadsOf_facts (by decide) _).symm

end

/-! ## One further row -/

theorem latestCorrectionTs_add (events : List (EvidenceRow F)) (hr : r.eventKind ≠ .correction) :
    latestCorrectionTs (ordered (r :: events)) = latestCorrectionTs (ordered events) := by
  refine latestCorrectionTs_congr fun d hd => ?_
  simp only [mem_ordered, List.mem_cons, or_iff_right_iff_imp]
  rintro rfl
  exact absurd hd hr

/-- **A row that is no correction joins the facts, in its place, or changes nothing.** -/
theorem facts_add (events : List (EvidenceRow F)) (hr : r.eventKind ≠ .correction) : ∃ early late, facts events = early ++ late ∧
    (∀ a ∈ early, Before a r) ∧ (facts (r :: events) = early ++ late ∨ facts (r :: events) = early ++ r :: late) := by
  obtain ⟨early, late, hold, hnew, hearly⟩ := ordered_cons r events
  have hreset := latestCorrectionTs_add events hr
  unfold facts inWindow
  rw [hreset]
  generalize counts (latestCorrectionTs (ordered events)) = p
  rw [hold, hnew]
  refine ⟨(early.filter p).filter fun event => event.eventKind ≠ .correction,
    (late.filter p).filter fun event => event.eventKind ≠ .correction, by simp, fun a ha => ?_, ?_⟩
  · exact hearly a (List.mem_of_mem_filter (List.mem_of_mem_filter ha))
  · by_cases hp : p r = true
    · right
      simp [hp, hr]
    · left
      simp [hp]

theorem reset_correct_before (hd : d ∈ events) (hkind : d.eventKind = .correction) (hle : c.sourceTimestamp ≤ d.sourceTimestamp) :
    latestCorrectionTs (ordered (c :: events)) = latestCorrectionTs (ordered events) := by
  cases h : latestCorrectionTs (ordered events) with
  | none => exact absurd hkind (latestCorrectionTs_none.mp h d (mem_ordered.mpr hd))
  | some ts =>
    obtain ⟨⟨e, he, hek, rfl⟩, hmax⟩ := latestCorrectionTs_some h
    have hde := hmax d (mem_ordered.mpr hd) hkind
    refine latestCorrectionTs_eq (mem_ordered.mpr (List.mem_cons_of_mem _ (mem_ordered.mp he))) hek fun f hf hfk => ?_
    rcases List.mem_cons.mp (mem_ordered.mp hf) with rfl | hf
    · exact hle.trans hde
    · exact hmax f (mem_ordered.mpr hf) hfk

/-- **A correction that is not later than every other one changes no fact.** -/
theorem facts_correct_before (hc : c.eventKind = .correction) (hd : d ∈ events)
    (hkind : d.eventKind = .correction) (hle : c.sourceTimestamp ≤ d.sourceTimestamp) : facts (c :: events) = facts events := by
  obtain ⟨early, late, hold, hnew, -⟩ := ordered_cons c events
  unfold facts inWindow
  rw [reset_correct_before hd hkind hle]
  generalize counts (latestCorrectionTs (ordered events)) = p
  rw [hold, hnew]
  by_cases hp : p c = true
  · simp [hp, hc]
  · simp [hp]

/-- **A correction later than every other one leaves the rows at or after it.** -/
theorem facts_correct_after (hkeys : ((c :: events).map (·.evidenceKey)).Nodup) (hc : c.eventKind = .correction)
    (hlater : ∀ d ∈ events, d.eventKind = .correction → d.sourceTimestamp < c.sourceTimestamp) :
    facts (c :: events) = facts (events.filter fun event => c.sourceTimestamp ≤ event.sourceTimestamp) := by
  obtain ⟨early, late, hold, hnew, -⟩ := ordered_cons c events
  have hreset : latestCorrectionTs (ordered (c :: events)) = some c.sourceTimestamp := by
    refine latestCorrectionTs_eq (by simp) hc fun e he hek => ?_
    rcases List.mem_cons.mp (mem_ordered.mp he) with rfl | he
    · exact le_refl _
    · exact (hlater e he hek).le
  have hnone : latestCorrectionTs (ordered (events.filter fun event => c.sourceTimestamp ≤ event.sourceTimestamp)) = none := by
    refine latestCorrectionTs_none.mpr fun d hd hkind => ?_
    obtain ⟨hd, hle⟩ := List.mem_filter.mp (mem_ordered.mp hd)
    exact absurd (hlater d hd hkind) (not_lt.mpr (of_decide_eq_true hle))
  unfold facts inWindow
  rw [hreset, hnone, ordered_filter (List.nodup_cons.mp hkeys).2, hold, hnew]
  simp [List.filter_filter, hc, counts]

end MmrTrader.Evidence
