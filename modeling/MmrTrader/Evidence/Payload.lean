import MmrTrader.Evidence.Alerts

/-!
# The stored window

* `toPayload`, `fromPayload` — `EvidenceWindow.to_payload` and `from_payload`.
* `Same` — two windows that Python's `==` does not tell apart: dictionaries up to the order of their keys.
-/

namespace MmrTrader.Evidence

open Lib PyJson

variable {F : Type}

/-! ## Writing -/

/-- `_iso(value) if value else None`. -/
def isoOrNone : Option Timestamp → Value F
  | some ts => .str ts.iso
  | none => .null

def textArray (texts : List Text) : Value F := .array (items (texts.map .str))

def dictArray (dicts : List (Dict F)) : Value F := .array (items (dicts.map .object))

/-- `to_payload`, in its order. -/
def payloadPairs (w : EvidenceWindow F) : List (Text × Value F) :=
  [(text "strategy_id", .str (text w.strategyId)),
    (text "as_of", .str w.asOf.iso),
    (text "window_reset_at", isoOrNone w.windowResetAt),
    (text "first_event_at", isoOrNone w.firstEventAt),
    (text "last_event_at", isoOrNone w.lastEventAt),
    (text "calendar_days", textArray w.calendarDays),
    (text "session_ids", textArray w.sessionIds),
    (text "round_trip_ids", textArray w.roundTripIds),
    (text "instrument_ids", textArray w.instrumentIds),
    (text "corrections", dictArray w.corrections),
    (text "breaker_trips", dictArray w.breakerTrips),
    (text "cost_breaches", dictArray w.costBreaches),
    (text "drawdown_breaches", dictArray w.drawdownBreaches),
    (text "stale", .bool w.stale),
    (text "event_count", .int w.eventCount),
    (text "divergences", dictArray w.divergences),
    (text "duplicates", dictArray w.duplicates),
    (text "unresolved_alerts", dictArray w.unresolvedAlerts),
    (text "missed_flats", dictArray w.missedFlats),
    (text "replay_mismatches", dictArray w.replayMismatches),
    (text "round_trip_records", dictArray w.roundTripRecords)]

def toPayload (w : EvidenceWindow F) : Dict F := fields (payloadPairs w)

/-! ## Reading -/

def asText : Value F → Option Text
  | .str s => some s
  | _ => none

def asDict : Value F → Option (Dict F)
  | .object fields => some fields
  | _ => none

section
variable [PyFloat F]

/-- `_parse_ts(data[key]) if data.get(key) else None`. -/
def timeOrNone (data : Dict F) (key : String) : Option (Option Timestamp) :=
  match get? (text key) data with
  | some v => if truthy v then (asText v).bind fun t => (parseTs t).map some else some none
  | none => some none

/-- `tuple(data.get(key) or ())`, of values of one kind. -/
def tupleOf {α : Type} (read : Value F → Option α) (data : Dict F) (key : String) : Option (List α) :=
  match get? (text key) data with
  | some (.array vs) => (itemList vs).mapM read
  | some v => if truthy v then none else some []
  | none => some []

/-- `from_payload`; `none` is an exception, or a field of another kind than `to_payload` writes. -/
def fromPayload (data : Dict F) : Option (EvidenceWindow F) := do
  let strategyId ← (get? (text "strategy_id") data).bind asText
  let asOf ← ((get? (text "as_of") data).bind asText).bind parseTs
  let windowResetAt ← timeOrNone data "window_reset_at"
  let firstEventAt ← timeOrNone data "first_event_at"
  let lastEventAt ← timeOrNone data "last_event_at"
  let calendarDays ← tupleOf asText data "calendar_days"
  let sessionIds ← tupleOf asText data "session_ids"
  let roundTripIds ← tupleOf asText data "round_trip_ids"
  let instrumentIds ← tupleOf asText data "instrument_ids"
  let corrections ← tupleOf asDict data "corrections"
  let breakerTrips ← tupleOf asDict data "breaker_trips"
  let costBreaches ← tupleOf asDict data "cost_breaches"
  let drawdownBreaches ← tupleOf asDict data "drawdown_breaches"
  let stale ← get? (text "stale") data
  let eventCount ← (get? (text "event_count") data).bind fun
    | .int (.ofNat n) => some n
    | _ => none
  let divergences ← tupleOf asDict data "divergences"
  let duplicates ← tupleOf asDict data "duplicates"
  let unresolvedAlerts ← tupleOf asDict data "unresolved_alerts"
  let missedFlats ← tupleOf asDict data "missed_flats"
  let replayMismatches ← tupleOf asDict data "replay_mismatches"
  let roundTripRecords ← tupleOf asDict data "round_trip_records"
  return {
    strategyId := String.ofList (chars strategyId), asOf, windowResetAt, firstEventAt, lastEventAt, calendarDays, sessionIds,
    roundTripIds, instrumentIds, corrections, breakerTrips, costBreaches, drawdownBreaches, stale := truthy stale, eventCount,
    divergences, duplicates, unresolvedAlerts, missedFlats, replayMismatches, roundTripRecords }

/-- `json.dumps(window.to_payload(), sort_keys=True, default=str)`. -/
def storedText (limit : Nat) (w : EvidenceWindow F) : Except DumpError Text :=
  dumpsWith spaced (sortKeys (.object (toPayload w))) limit []

/-- `from_payload(json.loads(row[0]))`. -/
def loadWindow (limit : Nat) (t : Text) : Option (EvidenceWindow F) :=
  match decode (E := Empty) plainObject limit t with
  | .ok (.object data) => fromPayload data
  | _ => none

end

/-! ## The round trip -/

/-- The window with each of its dictionaries changed. -/
def EvidenceWindow.mapDicts (f : Dict F → Dict F) (w : EvidenceWindow F) : EvidenceWindow F :=
  { w with
    corrections := w.corrections.map f, breakerTrips := w.breakerTrips.map f, costBreaches := w.costBreaches.map f
    drawdownBreaches := w.drawdownBreaches.map f, divergences := w.divergences.map f, duplicates := w.duplicates.map f
    unresolvedAlerts := w.unresolvedAlerts.map f, missedFlats := w.missedFlats.map f
    replayMismatches := w.replayMismatches.map f, roundTripRecords := w.roundTripRecords.map f }

/-- Two windows with equal fields; dictionaries are equal up to the order of their keys. -/
def Same (w w' : EvidenceWindow F) : Prop :=
  ∃ f : Dict F → Dict F, (∀ d, Reordered d (f d)) ∧ w' = w.mapDicts f

structure Spellable (w : EvidenceWindow F) : Prop where
  texts : ∀ t, t ∈ w.calendarDays ∨ t ∈ w.sessionIds ∨ t ∈ w.roundTripIds ∨ t ∈ w.instrumentIds → Whole t
  dicts : ∀ d, d ∈ w.corrections ∨ d ∈ w.breakerTrips ∨ d ∈ w.costBreaches ∨ d ∈ w.drawdownBreaches ∨ d ∈ w.divergences ∨
    d ∈ w.duplicates ∨ d ∈ w.unresolvedAlerts ∨ d ∈ w.missedFlats ∨ d ∈ w.replayMismatches ∨ d ∈ w.roundTripRecords →
    IsJson (.object d)

theorem plain_iso (ts : Timestamp) : Plain ts.iso := plain_points _

theorem isJson_str {t : Text} (h : Whole t) : IsJson (F := F) (.str t) := ⟨trivial, h⟩

theorem isJson_isoOrNone (ts : Option Timestamp) : IsJson (F := F) (isoOrNone ts) := by
  cases ts with
  | none => exact ⟨trivial, trivial⟩
  | some ts => exact isJson_str (plain_iso ts).whole

theorem isJson_textArray {texts : List Text} (h : ∀ t ∈ texts, Whole t) : IsJson (F := F) (textArray texts) := by
  refine isJson_items fun v hv => ?_
  obtain ⟨t, ht, rfl⟩ := List.mem_map.mp hv
  exact isJson_str (h t ht)

theorem isJson_dictArray {dicts : List (Dict F)} (h : ∀ d ∈ dicts, IsJson (.object d)) : IsJson (dictArray dicts) := by
  refine isJson_items fun v hv => ?_
  obtain ⟨d, hd, rfl⟩ := List.mem_map.mp hv
  exact h d hd

theorem keys_payloadPairs (w : EvidenceWindow F) : ((payloadPairs w).map Prod.fst).Nodup := by
  have hkeys : (payloadPairs w).map Prod.fst = [text "strategy_id", text "as_of", text "window_reset_at", text "first_event_at",
      text "last_event_at", text "calendar_days", text "session_ids", text "round_trip_ids", text "instrument_ids",
      text "corrections", text "breaker_trips", text "cost_breaches", text "drawdown_breaches", text "stale",
      text "event_count", text "divergences", text "duplicates", text "unresolved_alerts", text "missed_flats",
      text "replay_mismatches", text "round_trip_records"] := rfl
  rw [hkeys]
  decide +kernel

theorem isJson_payload {w : EvidenceWindow F} (h : Spellable w) : IsJson (.object (toPayload w)) := by
  refine isJson_object (keys_payloadPairs w) ?_
  have hnull : IsJson (F := F) (.bool w.stale) ∧ IsJson (F := F) (.int w.eventCount) := ⟨⟨trivial, trivial⟩, trivial, trivial⟩
  have hkey : ∀ s : String, Whole (text s) := fun s => (plain_text s).whole
  have htexts : ∀ ts : List Text, (∀ t ∈ ts, t ∈ w.calendarDays ∨ t ∈ w.sessionIds ∨ t ∈ w.roundTripIds ∨ t ∈ w.instrumentIds) →
      IsJson (F := F) (textArray ts) := fun ts hts => isJson_textArray fun t ht => h.texts t (hts t ht)
  have hdicts : ∀ ds : List (Dict F), (∀ d ∈ ds, d ∈ w.corrections ∨ d ∈ w.breakerTrips ∨ d ∈ w.costBreaches ∨
      d ∈ w.drawdownBreaches ∨ d ∈ w.divergences ∨ d ∈ w.duplicates ∨ d ∈ w.unresolvedAlerts ∨ d ∈ w.missedFlats ∨
      d ∈ w.replayMismatches ∨ d ∈ w.roundTripRecords) → IsJson (dictArray ds) :=
    fun ds hds => isJson_dictArray fun d hd => h.dicts d (hds d hd)
  simp only [payloadPairs, List.forall_mem_cons, List.not_mem_nil, false_imp_iff, implies_true, and_true]
  refine ⟨⟨hkey _, isJson_str (hkey _)⟩, ⟨hkey _, isJson_str (plain_iso _).whole⟩, ⟨hkey _, isJson_isoOrNone _⟩,
    ⟨hkey _, isJson_isoOrNone _⟩, ⟨hkey _, isJson_isoOrNone _⟩, ⟨hkey _, htexts _ ?_⟩, ⟨hkey _, htexts _ ?_⟩,
    ⟨hkey _, htexts _ ?_⟩, ⟨hkey _, htexts _ ?_⟩, ⟨hkey _, hdicts _ ?_⟩, ⟨hkey _, hdicts _ ?_⟩, ⟨hkey _, hdicts _ ?_⟩,
    ⟨hkey _, hdicts _ ?_⟩, ⟨hkey _, hnull.1⟩, ⟨hkey _, hnull.2⟩, ⟨hkey _, hdicts _ ?_⟩, ⟨hkey _, hdicts _ ?_⟩,
    ⟨hkey _, hdicts _ ?_⟩, ⟨hkey _, hdicts _ ?_⟩, ⟨hkey _, hdicts _ ?_⟩, ⟨hkey _, hdicts _ ?_⟩⟩ <;>
    (intro x hx; simp [hx])

theorem iso_ne_nil (ts : Timestamp) : ts.iso ≠ [] := by
  intro h
  have hread := parseTs_iso ts
  rw [h] at hread
  have hnone : parseTs [] = none := by decide
  rw [hnone] at hread
  cases hread

theorem present_some {payload : Dict F} {key : String} {v : Value F} (h : present key payload = some v) :
    get? (text key) payload = some v := by
  unfold present at h
  split at h
  · cases h
  · exact h

theorem sessionDay_whole {event : EvidenceRow F} {t : Text} (h : sessionDay event = some t) : Whole t := by
  obtain ⟨-, rfl⟩ := sessionDay_eq_some.mp h
  exact (plain_points _).whole

theorem correctionRecord_json {event : EvidenceRow F} (hjson : IsJson (.object event.payload)) :
    IsJson (.object (correctionRecord event)) := by
  have hkey : ∀ s : String, Whole (text s) := fun s => (plain_text s).whole
  exact isJson_assign (isJson_assign hjson (hkey _) (isJson_str (hkey _))) (hkey _) (isJson_str (plain_iso _).whole)

section
variable {w : EvidenceWindow F}

theorem get?_payload {key : Text} {v : Value F} (h : (key, v) ∈ payloadPairs w) :
    get? key (sortKeys (toPayload w)) = some (sortKeys v) := by
  rw [get?_sortKeys, toPayload, get?_fields (keys_payloadPairs w) h, Option.map_some]

variable [PyFloat F]
variable {key : String}

theorem timeOrNone_payload {ts : Option Timestamp} (h : (text key, isoOrNone ts) ∈ payloadPairs w) :
    timeOrNone (sortKeys (toPayload w)) key = some ts := by
  rw [timeOrNone, get?_payload h]
  cases ts with
  | none => rfl
  | some ts =>
    have htruthy : truthy (F := F) (.str ts.iso) = true := by simp [truthy, iso_ne_nil]
    simp only [isoOrNone, sortKeys, htruthy, if_true, asText, Option.bind_some, parseTs_iso, Option.map_some]

theorem mapM_some {α β : Type} {read : α → Option β} {write : β → α} (h : ∀ b, read (write b) = some b) (bs : List β) :
    (bs.map write).mapM read = some bs := by
  induction bs with
  | nil => rfl
  | cons b bs ih => simp [h, ih]

theorem tupleOf_texts {ts : List Text} (h : (text key, textArray ts) ∈ payloadPairs w) :
    tupleOf asText (sortKeys (toPayload w)) key = some ts := by
  have hsorted : (ts.map Node.str).map sortKeys = ts.map (Node.str (F := F)) := by
    rw [List.map_map]
    rfl
  rw [tupleOf, get?_payload h]
  simp only [textArray, sortKeys, sortKeys_items, itemList_items, hsorted]
  have hread : ∀ t : Text, asText (F := F) (.str t) = some t := fun _ => rfl
  exact mapM_some hread ts

theorem tupleOf_dicts {ds : List (Dict F)} (h : (text key, dictArray ds) ∈ payloadPairs w) :
    tupleOf asDict (sortKeys (toPayload w)) key = some (ds.map sortKeys) := by
  have hsorted : (ds.map Node.object).map sortKeys = (ds.map sortKeys).map (Node.object (F := F)) := by
    rw [List.map_map, List.map_map]
    rfl
  rw [tupleOf, get?_payload h]
  simp only [dictArray, sortKeys, sortKeys_items, itemList_items, hsorted]
  have hread : ∀ d : Dict F, asDict (.object d) = some d := fun _ => rfl
  exact mapM_some hread _

/-- **The sorted payload is read back**, with the keys of its dictionaries sorted. -/
theorem fromPayload_toPayload (w : EvidenceWindow F) : fromPayload (sortKeys (toPayload w)) = some (w.mapDicts sortKeys) := by
  have hmem : ∀ {i : Nat} {key : Text} {v : Value F}, (payloadPairs w)[i]? = some (key, v) → (key, v) ∈ payloadPairs w :=
    fun h => List.mem_of_getElem? h
  have hid : get? (text "strategy_id") (sortKeys (toPayload w)) = some (.str (text w.strategyId)) :=
    get?_payload (hmem (i := 0) rfl)
  have hasOf : get? (text "as_of") (sortKeys (toPayload w)) = some (.str w.asOf.iso) := get?_payload (hmem (i := 1) rfl)
  have hstale : get? (text "stale") (sortKeys (toPayload w)) = some (.bool w.stale) := get?_payload (hmem (i := 13) rfl)
  have hcount : get? (text "event_count") (sortKeys (toPayload w)) = some (.int w.eventCount) :=
    get?_payload (hmem (i := 14) rfl)
  have hstrategy : String.ofList (chars (text w.strategyId)) = w.strategyId := by
    rw [text, chars_map_point, String.ofList_toList]
  unfold fromPayload
  simp only [hid, hasOf, hstale, hcount, Option.bind_some, asText, parseTs_iso, timeOrNone_payload (hmem (i := 2) rfl),
    timeOrNone_payload (hmem (i := 3) rfl), timeOrNone_payload (hmem (i := 4) rfl), tupleOf_texts (hmem (i := 5) rfl),
    tupleOf_texts (hmem (i := 6) rfl), tupleOf_texts (hmem (i := 7) rfl), tupleOf_texts (hmem (i := 8) rfl),
    tupleOf_dicts (hmem (i := 9) rfl), tupleOf_dicts (hmem (i := 10) rfl), tupleOf_dicts (hmem (i := 11) rfl),
    tupleOf_dicts (hmem (i := 12) rfl), tupleOf_dicts (hmem (i := 15) rfl), tupleOf_dicts (hmem (i := 16) rfl),
    tupleOf_dicts (hmem (i := 17) rfl), tupleOf_dicts (hmem (i := 18) rfl), tupleOf_dicts (hmem (i := 19) rfl),
    tupleOf_dicts (hmem (i := 20) rfl), bind, pure, hstrategy]
  rfl

/-! ### What is projected can be stored -/

section
variable [UnicodeData] {events : List (EvidenceRow F)}

theorem whole_pyStr {payload : Dict F} (hjson : IsJson (.object payload)) {key : String} {v : Value F}
    (h : get? (text key) payload = some v) : Whole (pyStr v) :=
  pyStr_whole (isJson_get? ⟨hjson.1.2, hjson.2⟩ h).2

variable {event : EvidenceRow F} {t : Text}

theorem sessionId_whole (hjson : IsJson (.object event.payload)) (h : sessionId event = some t) : Whole t := by
  unfold sessionId at h
  split at h
  · split at h
    · rename_i v hv
      split at h
      · cases h
        exact whole_pyStr hjson hv
      · cases h
    · cases h
  · cases h

theorem roundTripId_whole (hjson : IsJson (.object event.payload)) (h : roundTripId event = some t) : Whole t := by
  unfold roundTripId at h
  split at h
  · split at h
    · rename_i v hv
      split at h
      · cases h
        unfold orElse at hv
        split at hv
        · rename_i w hw
          split at hv
          · cases hv
            exact whole_pyStr hjson hw
          · exact whole_pyStr hjson hv
        · exact whole_pyStr hjson hv
      · cases h
    · cases h
  · cases h

theorem instrumentId_whole (hjson : IsJson (.object event.payload)) (h : instrumentId event = some t) : Whole t := by
  unfold instrumentId at h
  split at h
  · obtain ⟨v, hv, rfl⟩ := Option.map_eq_some_iff.mp h
    rcases Option.or_eq_some_iff.mp hv with hv | ⟨-, hv⟩
    · exact whole_pyStr hjson (present_some hv)
    · exact whole_pyStr hjson (present_some hv)
  · cases h

theorem spellable_project (strategyId : String) (asOf : Timestamp) (hjson : ∀ r ∈ events, IsJson (.object r.payload)) :
    Spellable (projectEvidenceWindow strategyId events asOf) := by
  have hin : ∀ r ∈ inWindow events, IsJson (.object r.payload) := fun r hr =>
    hjson r (mem_ordered.mp (List.mem_of_mem_filter hr))
  have hpayloads : ∀ kind, ∀ d ∈ payloadsOf kind (inWindow events), IsJson (.object d) := by
    intro kind d hd
    obtain ⟨r, hr, rfl⟩ := List.mem_map.mp hd
    exact hin r (List.mem_of_mem_filter hr)
  constructor
  · simp only [projectEvidenceWindow, mem_sortedSet, List.mem_filterMap]
    rintro t (⟨r, hr, h⟩ | ⟨r, hr, h⟩ | ⟨r, hr, h⟩ | ⟨r, hr, h⟩)
    · exact sessionDay_whole h
    · exact sessionId_whole (hin r hr) h
    · exact roundTripId_whole (hin r hr) h
    · exact instrumentId_whole (hin r hr) h
  · rintro d (h | h | h | h | h | h | h | h | h | h)
    · obtain ⟨r, hr, rfl⟩ := List.mem_map.mp h
      exact correctionRecord_json (hjson r (mem_ordered.mp (List.mem_of_mem_filter hr)))
    · exact hpayloads _ d h
    · exact hpayloads _ d h
    · exact hpayloads _ d h
    · exact hpayloads _ d h
    · exact hpayloads _ d h
    · have h : d ∈ latestUnresolvedAlerts (inWindow events) := h
      rw [unresolvedAlerts_eq] at h
      obtain ⟨r, hr, rfl⟩ := List.mem_map.mp h
      exact hin r (mem_of_unresolved hr).1
    · exact hpayloads _ d h
    · exact hpayloads _ d h
    · exact hpayloads _ d h

end

/-- **The stored window is read back.** -/
theorem loadWindow_stored {limit : Nat} {t : Text} (h : Spellable w) (ht : storedText limit w = .ok t) :
    ∃ w', loadWindow limit t = some w' ∧ Same w w' := by
  refine ⟨w.mapDicts sortKeys, ?_, sortKeys, fun d => sortKeys_reordered d, rfl⟩
  have hjson : IsJson (sortKeys (.object (toPayload w))) := (sortKeys_reordered _).isJson (isJson_payload h)
  rw [loadWindow, decode_dumpsWith spaced_lawful hjson ht]
  exact fromPayload_toPayload w

end

end MmrTrader.Evidence
