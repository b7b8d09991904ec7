import MmrTrader.Evidence.Store

/-!
# The stored rows are the first committed ones

* `mutateWork_cases` — what a transaction of the store does to the journal's tables.
* `Sound` — what every step of the store keeps, and `Grows`, what it may change; `runStore_sound` — every run.
-/

namespace MmrTrader.Evidence

open Lib PyJson Journal
open Lib.Interleaving (Prog System World Label Safe)

variable {F : Type} {limit : Nat}

theorem mutateWork_cases [DecidableEq (Value F)] (j : JournalState (Value F) EvidenceTable) (m : DomainMutation (Value F))
    (write : WriteMaterialized (Value F) EvidenceTable EvidenceError) (eventId : String) (answer : Answer) :
    (∃ e j', mutateBatchWork j (mutateWork m write eventId answer) = (.error e, j') ∧ j'.tables = j.tables) ∨
      ∃ j', mutateBatchWork j (mutateWork m write eventId answer) = (.ok (), j') ∧
        (j'.tables = j.tables ∧ (∃ row ∈ j.tables.journal, row.eventId = eventId) ∨
          ∃ revision row, write j.tables revision = .ok j'.tables.own ∧ row.eventId = eventId ∧
            j'.tables.journal = j.tables.journal ++ [row]) := by
  unfold mutateBatchWork mutateWork
  rw [Work.run]
  cases happ : Journal.append ⟨j.tables, j.seq, []⟩ m write eventId answer.receivedTs with
  | error e => exact Or.inl ⟨e.1, _, rfl, rfl⟩
  | ok r =>
    obtain ⟨event, tx'⟩ := r
    dsimp only
    by_cases hcommits : answer.commits = true
    · rw [if_pos hcommits]
      refine Or.inr ⟨_, rfl, ?_⟩
      rcases append_revisions happ with ⟨hsome, htables⟩ | ⟨own, hown, htables⟩
      · obtain ⟨row, hrow⟩ := Option.isSome_iff_exists.mp hsome
        left
        exact ⟨htables, row, List.mem_of_find?_eq_some hrow, by simpa using List.find?_some hrow⟩
      · right
        have hwritten := hown.trans (congrArg (fun t => Except.ok (ε := EvidenceError) t.own) htables.symm)
        exact ⟨_, ⟨j.seq + 1, eventId, _, m, answer.receivedTs⟩, hwritten, rfl, congrArg Tables.journal htables⟩
    · rw [if_neg hcommits]
      exact Or.inl ⟨_, _, rfl, rfl⟩

/-! ## What is kept -/

/-- Neither rows nor commits are taken back. -/
structure Grows (db db' : EvidenceDb F) : Prop where
  rows : db.rows.rows <+: db'.rows.rows
  committed : db.committed <+: db'.committed

theorem Grows.refl (db : EvidenceDb F) : Grows db db := ⟨List.prefix_refl _, List.prefix_refl _⟩

theorem Grows.trans {db db' db'' : EvidenceDb F} (h : Grows db db') (h' : Grows db' db'') : Grows db db'' :=
  ⟨h.rows.trans h'.rows, h.committed.trans h'.committed⟩

/-- The journal remembers no append whose row is not there. -/
def Recorded (db : EvidenceDb F) : Prop :=
  ∀ entry ∈ db.journal.tables.journal, ∀ id, entry.eventId = "promo-ev:" ++ id → (db.rows.get? id).isSome

section
variable [PyFloat F]

/-- The row of an id is that of the first event with the id that was committed. -/
def FirstCommitted (limit : Nat) (db : EvidenceDb F) : Prop :=
  ∀ id, match db.committed.find? fun entry => entry.1.sourceEventId = id with
    | none => db.rows.get? id = none
    | some (event, now) => ∃ row, event.row limit now = .ok row ∧ db.rows.get? id = some row

theorem get?_grow {t t' : Table StoredRow.evidenceKey} (h : t.rows <+: t'.rows) {id : String} (hid : (t.get? id).isSome) :
    (t'.get? id).isSome := by
  obtain ⟨row, hrow⟩ := Option.isSome_iff_exists.mp hid
  obtain ⟨hmem, hkey⟩ := Table.get?_eq_some.mp hrow
  rw [Table.get?_eq_some.mpr ⟨h.subset hmem, hkey⟩]
  rfl

variable {db' : EvidenceDb F}

theorem FirstCommitted.congr {db : EvidenceDb F} (h : FirstCommitted limit db) (hrows : db'.rows = db.rows)
    (hcommitted : db'.committed = db.committed) : FirstCommitted limit db' := by
  unfold FirstCommitted
  rw [hrows, hcommitted]
  exact h

variable {event : EvidenceEvent F} {now : Timestamp}

theorem row_key {row : StoredRow} (h : event.row limit now = .ok row) : row.evidenceKey = event.sourceEventId := by
  unfold EvidenceEvent.row at h
  split at h
  · cases h
    rfl
  · cases h

theorem writeEvent_cases {t : Tables (Value F) EvidenceTable} {revision : Nat}
    {own : EvidenceTable} (h : writeEvent limit event now t revision = .ok own) :
    (t.own.get? event.sourceEventId).isSome ∧ own = t.own ∨
      t.own.get? event.sourceEventId = none ∧ ∃ row, event.row limit now = .ok row ∧ t.own.insert? row = some own := by
  unfold writeEvent at h
  split at h
  · rename_i row hrow
    cases h
    exact Or.inl ⟨by rw [hrow]; rfl, rfl⟩
  · rename_i hnone
    split at h
    · cases h
    · rename_i row hrow
      split at h
      · rename_i rows hinsert
        cases h
        exact Or.inr ⟨hnone, row, hrow, hinsert⟩
      · cases h

theorem FirstCommitted.commit {db : EvidenceDb F} (h : FirstCommitted limit db)
    (hcommitted : db'.committed = db.committed ++ [(event, now)])
    (hrows : (db.rows.get? event.sourceEventId).isSome ∧ db'.rows = db.rows ∨
      db.rows.get? event.sourceEventId = none ∧ ∃ row, event.row limit now = .ok row ∧ db.rows.insert? row = some db'.rows) :
    FirstCommitted limit db' := by
  intro id
  have hold := h id
  rw [hcommitted, List.find?_append]
  rcases hrows with ⟨hsome, hrows⟩ | ⟨hnone, row, hrow, hinsert⟩
  · rw [hrows]
    cases hfind : db.committed.find? fun entry => entry.1.sourceEventId = id with
    | some entry =>
      rw [hfind] at hold
      exact hold
    | none =>
      rw [hfind] at hold
      have hid : event.sourceEventId ≠ id := by
        rintro rfl
        rw [hold] at hsome
        cases hsome
      simpa [hid] using hold
  · rw [Table.get?_insert? hinsert, row_key hrow]
    cases hfind : db.committed.find? fun entry => entry.1.sourceEventId = id with
    | some entry =>
      rw [hfind] at hold
      obtain ⟨old, hold, hget⟩ := hold
      have hid : event.sourceEventId ≠ id := by
        rintro rfl
        rw [hnone] at hget
        cases hget
      exact ⟨old, hold, by rw [if_neg hid]; exact hget⟩
    | none =>
      rw [hfind] at hold
      by_cases hid : event.sourceEventId = id
      · simpa [hid] using hrow
      · simpa [hid] using hold

/-! ## Steps -/

theorem promoId_injective {a b : String} (h : "promo-ev:" ++ a = "promo-ev:" ++ b) : a = b :=
  (String.append_right_inj _).mp h

end

section
variable [PyFloat F]

/-- What holds between any two steps. -/
structure Sound (limit : Nat) (db : EvidenceDb F) : Prop where
  first : FirstCommitted limit db
  recorded : Recorded db

theorem Sound.empty : Sound limit (EvidenceDb.empty (F := F)) where
  first _ := rfl
  recorded _ h := absurd h List.not_mem_nil

/-- What a step does. -/
def Moves (limit : Nat) (db db' : EvidenceDb F) : Prop := Sound limit db' ∧ Grows db db'

variable {db : EvidenceDb F}
variable {db' : EvidenceDb F}

theorem Moves.trans {db'' : EvidenceDb F} (h : Moves limit db db') (h' : Moves limit db' db'') : Moves limit db db'' :=
  ⟨h'.1, h.2.trans h'.2⟩

theorem Sound.stay (h : Sound limit db) : Moves limit db db := ⟨h, Grows.refl db⟩

theorem Sound.unchanged (h : Sound limit db) (hrows : db'.rows = db.rows)
    (hjournal : ∀ entry ∈ db'.journal.tables.journal, entry ∈ db.journal.tables.journal)
    (hcommitted : db'.committed = db.committed) : Moves limit db db' := by
  refine ⟨⟨h.first.congr hrows hcommitted, fun entry hentry id hid => ?_⟩, by rw [hrows], by rw [hcommitted]⟩
  rw [hrows]
  exact h.recorded entry (hjournal entry hentry) id hid

/-- **A retention sweep** takes journal rows away and nothing else. -/
theorem Sound.sweep (h : Sound limit db) (now completedAt : Int) (commits : Bool) :
    Moves limit db { db with journal := Journal.compact db.journal now completedAt commits } := by
  unfold Journal.compact
  split
  · exact h.unchanged rfl (fun entry hentry => List.mem_of_mem_filter hentry) rfl
  · exact h.stay

variable [DecidableEq (Value F)]

/-- What the transaction of an append does. -/
theorem Sound.commitEvent {db : EvidenceDb F} (h : Sound limit db) (event : EvidenceEvent F) (answer : Answer) :
    match commitEvent limit event answer db with
    | .ok _ db' => Moves limit db db'
    | .error _ db' => Moves limit db db' := by
  unfold Evidence.commitEvent
  rcases mutateWork_cases db.journal (appendMutation event) (writeEvent limit event answer.now)
      ("promo-ev:" ++ event.sourceEventId) answer with ⟨e, j', heq, htables⟩ | ⟨j', heq, hdone⟩
  · rw [heq]
    exact h.unchanged (congrArg Tables.own htables) (fun entry hentry => by rwa [← htables]) rfl
  · rw [heq]
    dsimp only
    rcases hdone with ⟨htables, entry, hentry, hid⟩ | ⟨revision, entry, hwrite, hid, hjournal⟩
    · -- a retry that the journal remembers: its row is there
      have hsome := h.recorded entry hentry _ hid
      have hrows : (⟨j', db.committed ++ [(event, answer.now)]⟩ : EvidenceDb F).rows = db.rows := congrArg Tables.own htables
      refine ⟨⟨h.first.commit rfl (Or.inl ⟨hsome, hrows⟩), fun entry hentry id hid => ?_⟩, by rw [hrows], List.prefix_append _ _⟩
      rw [hrows]
      exact h.recorded entry (by rwa [← htables]) id hid
    · have hrows := writeEvent_cases hwrite
      have hgrows : db.rows.rows <+: j'.tables.own.rows := by
        rcases hrows with ⟨-, hsame⟩ | ⟨-, row, -, hinsert⟩
        · rw [hsame]
          exact List.prefix_refl _
        · rw [(Table.insert?_eq_some hinsert).2]
          exact List.prefix_append _ _
      have hfirst : FirstCommitted limit ⟨j', db.committed ++ [(event, answer.now)]⟩ := h.first.commit rfl hrows
      refine ⟨⟨hfirst, fun old hold id hold' => ?_⟩, hgrows, List.prefix_append _ _⟩
      rw [hjournal] at hold
      rcases List.mem_append.mp hold with hold | hold
      · exact get?_grow hgrows (h.recorded old hold id hold')
      · obtain rfl := List.mem_singleton.mp hold
        obtain rfl := promoId_injective (hid.symm.trans hold')
        rcases hrows with ⟨hsome, -⟩ | ⟨-, row, hrow, hinsert⟩
        · exact get?_grow hgrows hsome
        · show (j'.tables.own.get? event.sourceEventId).isSome
          rw [Table.get?_insert? hinsert, row_key hrow, if_pos rfl]
          rfl

/-! ## Runs -/

theorem appendEvent_safe (event : EvidenceEvent F) :
    Safe (Moves limit) (Moves limit) (fun _ _ => True) (appendEvent limit event) db := by
  unfold appendEvent
  refine Safe.bind (Q := fun _ _ => True) (Safe.read fun db' hdb _ => ⟨hdb.1.stay, trivial⟩) (fun existing db' _ => ?_)
    fun _ _ _ => trivial
  split
  · exact Safe.pure trivial
  · refine Safe.atomic fun db'' hdb answer => ?_
    have hstep := hdb.1.commitEvent event answer
    split <;> rename_i hr <;> rw [hr] at hstep <;> exact ⟨hstep, trivial⟩

theorem store_sound : Interleaving.Sound (store limit) (Sound (F := F) limit) (Moves limit) fun _ _ => True where
  refl _ h := h.stay
  trans _ _ _ h h' := h.trans h'
  inv _ _ h := h.1
  env sweep _ h := h.sweep sweep.now sweep.completedAt sweep.commits
  main event _ _ := appendEvent_safe event
  later _ _ _ _ _ := trivial
  raised _ _ := trivial

/-- **After every run the stored rows are the first committed ones**, and they stay in every run that goes on. -/
theorem runStore_sound (schedule more : List (Label Answer (JournalError EvidenceError) (EvidenceEvent F) Sweep)) :
    Sound limit (runStore limit schedule) ∧ Grows (runStore limit schedule) (runStore limit (schedule ++ more)) := by
  have hinit : Interleaving.Steady (Sound limit) (Moves limit) (fun _ _ => True)
      (⟨EvidenceDb.empty, fun _ => none⟩ : World (EvidenceDb F) Answer (JournalError EvidenceError) Bool) :=
    Interleaving.Steady.init Sound.empty fun _ => rfl
  obtain ⟨hsteady, -⟩ := store_sound.run hinit schedule
  obtain ⟨-, hmoves⟩ := store_sound.run hsteady more
  rw [runStore, runStore, Interleaving.System.run_append]
  exact ⟨hsteady.inv, hmoves.2⟩

end

end MmrTrader.Evidence

/-!
## Evidence is neither reordered nor erased

* `Kept`, `kept_add` — what a row that is no correction leaves in the window.
* `evidence_kept` — the laws of the projection and of the store together.
-/

namespace MmrTrader.Evidence

open Lib PyJson Journal
open Lib.Interleaving (Label)

variable {F : Type} {limit : Nat} {events : List (EvidenceRow F)} {r : EvidenceRow F}

/-- Every incident stays, in its order, and so does every session, round trip and instrument. -/
structure Kept (c c' : Counted F) : Prop where
  calendarDays : c.calendarDays ⊆ c'.calendarDays
  sessionIds : c.sessionIds ⊆ c'.sessionIds
  roundTripIds : c.roundTripIds ⊆ c'.roundTripIds
  instrumentIds : c.instrumentIds ⊆ c'.instrumentIds
  breakerTrips : c.breakerTrips.Sublist c'.breakerTrips
  costBreaches : c.costBreaches.Sublist c'.costBreaches
  drawdownBreaches : c.drawdownBreaches.Sublist c'.drawdownBreaches
  divergences : c.divergences.Sublist c'.divergences
  duplicates : c.duplicates.Sublist c'.duplicates
  missedFlats : c.missedFlats.Sublist c'.missedFlats
  replayMismatches : c.replayMismatches.Sublist c'.replayMismatches
  roundTripRecords : c.roundTripRecords.Sublist c'.roundTripRecords

variable {rows rows' : List (EvidenceRow F)}

theorem sortedSet_mono (h : rows.Sublist rows') (f : EvidenceRow F → Option Text) :
    sortedSet (rows.filterMap f) ⊆ sortedSet (rows'.filterMap f) := by
  intro t ht
  rw [mem_sortedSet] at ht ⊢
  exact (h.filterMap f).subset ht

theorem payloadsOf_mono (h : rows.Sublist rows') (kind : EventKind) :
    (payloadsOf kind rows).Sublist (payloadsOf kind rows') := (h.filter _).map _

section
variable [PyFloat F] [UnicodeData]

theorem Kept.of_sublist {rows rows' : List (EvidenceRow F)} (h : rows.Sublist rows') : Kept (count rows) (count rows') where
  calendarDays := sortedSet_mono h sessionDay
  sessionIds := sortedSet_mono h sessionId
  roundTripIds := sortedSet_mono h roundTripId
  instrumentIds := sortedSet_mono h instrumentId
  breakerTrips := payloadsOf_mono h _
  costBreaches := payloadsOf_mono h _
  drawdownBreaches := payloadsOf_mono h _
  divergences := payloadsOf_mono h _
  duplicates := payloadsOf_mono h _
  missedFlats := payloadsOf_mono h _
  replayMismatches := payloadsOf_mono h _
  roundTripRecords := payloadsOf_mono h _

/-- **A row that is no correction takes nothing out of the window.** -/
theorem kept_add (hr : r.eventKind ≠ .correction) (strategyId : String) (asOf : Timestamp) :
    Kept (projectEvidenceWindow strategyId events asOf).counted (projectEvidenceWindow strategyId (r :: events) asOf).counted := by
  obtain ⟨early, late, hold, -, hnew⟩ := facts_add events hr
  rw [counted_project, counted_project]
  apply Kept.of_sublist
  rcases hnew with hnew | hnew
  · rw [hnew, hold]
  · rw [hnew, hold]
    exact (List.Sublist.refl early).append (List.sublist_cons_self r late)

/-- **A row that is no correction and an unresolved alert.** -/
theorem unresolved_add (hr : r.eventKind ≠ .correction) {a : EvidenceRow F} (ha : a ∈ unresolvedRows (facts events)) :
    a ∈ unresolvedRows (facts (r :: events)) ∨
      r.eventKind = .unresolvedAlert ∧ alertKey r = alertKey a ∧ Before a r ∧
        (resolved r.payload = true ∨ r ∈ unresolvedRows (facts (r :: events))) := by
  obtain ⟨early, late, hold, hearly, hnew⟩ := facts_add events hr
  rw [hold] at ha
  rcases hnew with hnew | hnew
  · rw [hnew]
    exact Or.inl ha
  · rw [hnew]
    rcases unresolvedRows_add (r := r) ha with hstays | ⟨hkind, hkey, hmem, hresolved⟩
    · exact Or.inl hstays
    · exact Or.inr ⟨hkind, hkey, hearly a hmem, hresolved⟩

theorem unresolved_project (strategyId : String) (events : List (EvidenceRow F)) (asOf : Timestamp) :
    (projectEvidenceWindow strategyId events asOf).unresolvedAlerts = (unresolvedRows (facts events)).map (·.payload) := by
  rw [← unresolvedAlerts_eq]
  exact congrArg Counted.unresolvedAlerts (counted_project strategyId events asOf)

omit [UnicodeData] in
theorem readRow_isJson {row : StoredRow} (h : readRow limit row = some r) : IsJson (.object r.payload) := by
  unfold readRow at h
  split at h
  · rename_i payload hread
    cases h
    exact decode_isJson (plain_text _) hread
  · cases h

/-- **The stored window of rows of the table is read back.** -/
theorem window_read_back (strategyId : String) (asOf : Timestamp)
    (hrows : ∀ r ∈ events, ∃ row, readRow limit row = some r) {limit' : Nat} {t : Text}
    (ht : storedText limit' (projectEvidenceWindow strategyId events asOf) = .ok t) :
    ∃ w, loadWindow limit' t = some w ∧ Same (projectEvidenceWindow strategyId events asOf) w := by
  refine loadWindow_stored (spellable_project strategyId asOf fun r hr => ?_) ht
  obtain ⟨row, hrow⟩ := hrows r hr
  exact readRow_isJson hrow

theorem project_perm {events events' : List (EvidenceRow F)} (hkeys : (events.map (·.evidenceKey)).Nodup)
    (h : events.Perm events') (strategyId : String) (asOf : Timestamp) :
    projectEvidenceWindow strategyId events asOf = projectEvidenceWindow strategyId events' asOf := by
  simp only [projectEvidenceWindow, inWindow, ordered_eq_of_perm hkeys h]

/-- The days of the sessions in the window, from the first to the last. -/
def Spans (strategyId : String) (events : List (EvidenceRow F)) (asOf : Timestamp) : Prop :=
  ((∀ s ∈ inWindow events, s.eventKind ≠ .session) ∧
    (projectEvidenceWindow strategyId events asOf).elapsedCalendarDays = some 0) ∨
  ∃ a ∈ inWindow events, ∃ b ∈ inWindow events, a.eventKind = .session ∧ b.eventKind = .session ∧
    (∀ s ∈ inWindow events, s.eventKind = .session →
      a.sourceTimestamp.date ≤ s.sourceTimestamp.date ∧ s.sourceTimestamp.date ≤ b.sourceTimestamp.date) ∧
    (projectEvidenceWindow strategyId events asOf).elapsedCalendarDays =
      some ((b.sourceTimestamp.date.toordinal : Int) - a.sourceTimestamp.date.toordinal + 1)

theorem spans (strategyId : String) (events : List (EvidenceRow F)) (asOf : Timestamp) : Spans strategyId events asOf := by
  have hsession : ∀ s, s.eventKind = .session → (s ∈ facts events ↔ s ∈ inWindow events) := by
    intro s hs
    simp [facts, hs]
  rcases elapsed_eq strategyId events asOf with ⟨hnone, hdays⟩ | ⟨a, ha, b, hb, hakind, hbkind, hall, hdays⟩
  · exact Or.inl ⟨fun s hs hkind => hnone s ((hsession s hkind).mpr hs) hkind, hdays⟩
  · exact Or.inr ⟨a, (hsession a hakind).mp ha, b, (hsession b hbkind).mp hb, hakind, hbkind,
      fun s hs hkind => hall s ((hsession s hkind).mpr hs) hkind, hdays⟩

/-- What one further row does to the window of rows with distinct keys. -/
structure AddsTo (strategyId : String) (events : List (EvidenceRow F)) (asOf : Timestamp) (r : EvidenceRow F) : Prop where
  /-- A row that is no correction takes away nothing but an alert that it says is resolved. -/
  keeps : r.eventKind ≠ .correction →
    Kept (projectEvidenceWindow strategyId events asOf).counted (projectEvidenceWindow strategyId (r :: events) asOf).counted
  alerts : r.eventKind ≠ .correction → ∀ a ∈ unresolvedRows (facts events), a ∈ unresolvedRows (facts (r :: events)) ∨
    r.eventKind = .unresolvedAlert ∧ alertKey r = alertKey a ∧ Before a r ∧
      (resolved r.payload = true ∨ r ∈ unresolvedRows (facts (r :: events)))
  /-- A correction changes nothing unless it is later than every one before it. -/
  correct_before : r.eventKind = .correction →
    (∃ d ∈ events, d.eventKind = .correction ∧ r.sourceTimestamp ≤ d.sourceTimestamp) →
      (projectEvidenceWindow strategyId (r :: events) asOf).counted = (projectEvidenceWindow strategyId events asOf).counted
  /-- If it is, it leaves the rows at or after it. -/
  correct_after : r.eventKind = .correction →
    (∀ d ∈ events, d.eventKind = .correction → d.sourceTimestamp < r.sourceTimestamp) →
      (projectEvidenceWindow strategyId (r :: events) asOf).counted =
        (projectEvidenceWindow strategyId (events.filter fun event => r.sourceTimestamp ≤ event.sourceTimestamp) asOf).counted

theorem adds (strategyId : String) (asOf : Timestamp) (hkeys : ((r :: events).map (·.evidenceKey)).Nodup) :
    AddsTo strategyId events asOf r where
  keeps hr := kept_add hr strategyId asOf
  alerts hr _ ha := unresolved_add hr ha
  correct_before hr := by
    rintro ⟨d, hd, hkind, hle⟩
    rw [counted_project, counted_project, facts_correct_before hr hd hkind hle]
  correct_after hr hlater := by
    rw [counted_project, counted_project, facts_correct_after hkeys hr hlater]

end

/-- The floats of the rows below: none is finite. -/
inductive NoFloat where
  | nan
  deriving DecidableEq

instance : PyFloat NoFloat where
  isFinite _ := false
  repr _ := ⟨false, [point '0'], none, none⟩
  ofText _ := .nan
  nan := .nan
  infinity := .nan
  negInfinity := .nan
  repr_wellFormed _ h := nomatch h
  repr_isFloat _ h := nomatch h
  ofText_repr _ h := nomatch h
  isZero _ := false
  special _ := some .nan
  special_value _ _ _ := rfl
  finite _ h := nomatch h

/-- The printable characters of ASCII. -/
instance : UnicodeData where
  isPrintable c := decide (32 ≤ c.val ∧ c.val < 127)
  surrogate c h := by
    simp only [isHigh, isLow, Bool.and_eq_true, decide_eq_true_eq, decide_eq_false_iff_not] at h ⊢
    omega

def morning : Timestamp := ⟨⟨⟨2026, 3, 2, by decide⟩, by decide⟩, 14, 30, 0, 0, by decide⟩

def evening : Timestamp := ⟨⟨⟨2026, 3, 2, by decide⟩, by decide⟩, 21, 0, 0, 0, by decide⟩

theorem exists_of_isOk {ε α : Type} {x : Except ε α} (h : x.isOk = true) : ∃ a, x = .ok a := by
  cases x with
  | ok a => exact ⟨a, rfl⟩
  | error e => cases h

def sessionStored : StoredRow := ⟨"s-1", "orb", .session, "\x7b\"session_id\": \"2026-03-02\"\x7d", morning, morning⟩

def drawdownStored : StoredRow := ⟨"d-1", "orb", .drawdownBreach, "\x7b\x7d", evening, evening⟩

theorem session_readable : (readRow (F := NoFloat) 9 sessionStored).isSome = true := by decide +kernel

theorem drawdown_readable : (readRow (F := NoFloat) 9 drawdownStored).isSome = true := by decide +kernel

def sessionRow : EvidenceRow NoFloat := (readRow 9 sessionStored).get session_readable

def drawdownRow : EvidenceRow NoFloat := (readRow 9 drawdownStored).get drawdown_readable

/-- The day's window, first the drawdown breach and then the session. -/
def dayWindow : EvidenceWindow NoFloat := projectEvidenceWindow "orb" [drawdownRow, sessionRow] evening

theorem dayWindow_written : (storedText 9 dayWindow).isOk = true := by decide +kernel

end MmrTrader.Evidence
