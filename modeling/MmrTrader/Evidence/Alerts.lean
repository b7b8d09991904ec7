import MmrTrader.Evidence.Window

/-!
# Alerts, and the days of the sessions

* `unresolvedRows` — the rows behind the unresolved alerts of a window; `unresolvedAlerts_eq`.
* `mem_unresolvedRows` — such a row is the latest of its alert and does not say that it is resolved.
* `unresolvedRows_add` — a further row takes one away only as a later row of the same alert.
-/

namespace MmrTrader.Evidence

open Lib PyJson

variable {F : Type} {r : EvidenceRow F}

/-! ## A dictionary of the latest -/

variable {α : Type} {key : Text}
variable {v : α} {l : List (Text × α)} {k : Text}

section
-- the equations of `setLatest`, which several proofs below unfold
attribute [local simp] setLatest
end

theorem keys_setLatest : k ∈ (setLatest key v l).map Prod.fst ↔ k = key ∨ k ∈ l.map Prod.fst := by
  induction l with
  | nil => simp [setLatest]
  | cons p l ih =>
    obtain ⟨k', w⟩ := p
    rw [setLatest]
    split
    · rename_i hk
      simp [hk]
    · simp only [List.map_cons, List.mem_cons, ih]
      tauto

theorem nodup_setLatest (h : (l.map Prod.fst).Nodup) : ((setLatest key v l).map Prod.fst).Nodup := by
  induction l with
  | nil => simp [setLatest]
  | cons p l ih =>
    obtain ⟨k', w⟩ := p
    obtain ⟨hnew, hrest⟩ := List.nodup_cons.mp h
    rw [setLatest]
    split
    · exact h
    · rename_i hk
      refine List.nodup_cons.mpr ⟨fun hmem => ?_, ih hrest⟩
      rcases keys_setLatest.mp hmem with heq | hmem
      · exact hk heq
      · exact hnew hmem

theorem mem_setLatest (h : (l.map Prod.fst).Nodup) {w : α} :
    (k, w) ∈ setLatest key v l ↔ (k = key ∧ w = v) ∨ (k ≠ key ∧ (k, w) ∈ l) := by
  induction l with
  | nil => simp [setLatest]
  | cons p l ih =>
    obtain ⟨k', w'⟩ := p
    obtain ⟨hnew, hrest⟩ := List.nodup_cons.mp h
    rw [setLatest]
    split
    · rename_i hk
      subst hk
      have hout : ∀ w, (k', w) ∉ l := fun w hmem => hnew (List.mem_map.mpr ⟨(k', w), hmem, rfl⟩)
      simp only [List.mem_cons, Prod.mk.injEq]
      constructor
      · rintro (hhead | hmem)
        · exact Or.inl hhead
        · exact Or.inr ⟨fun heq => hout w (heq ▸ hmem), Or.inr hmem⟩
      · rintro (hhead | ⟨hne, hsame | hmem⟩)
        · exact Or.inl hhead
        · exact absurd hsame.1 hne
        · exact Or.inr hmem
    · rename_i hk
      simp only [List.mem_cons, Prod.mk.injEq, ih hrest]
      constructor
      · rintro (⟨rfl, rfl⟩ | hrest | ⟨hne, hmem⟩)
        · exact Or.inr ⟨hk, Or.inl ⟨rfl, rfl⟩⟩
        · exact Or.inl hrest
        · exact Or.inr ⟨hne, Or.inr hmem⟩
      · rintro (hhead | ⟨hne, ⟨rfl, rfl⟩ | hmem⟩)
        · exact Or.inr (Or.inl hhead)
        · exact Or.inl ⟨rfl, rfl⟩
        · exact Or.inr (Or.inr ⟨hne, hmem⟩)

theorem map_setLatest {β : Type} (f : α → β) (key : Text) (v : α) (l : List (Text × α)) :
    (setLatest key v l).map (Prod.map id f) = setLatest key (f v) (l.map (Prod.map id f)) := by
  induction l with
  | nil => rfl
  | cons p l ih =>
    obtain ⟨k, w⟩ := p
    rw [setLatest, List.map_cons, Prod.map_apply, id_eq, setLatest]
    split
    · rfl
    · rw [List.map_cons, ih]
      rfl

section
variable [PyFloat F] [UnicodeData]

/-! ## Alerts -/

def latestRows (rows : List (EvidenceRow F)) : List (Text × EvidenceRow F) :=
  rows.foldl (fun latest event =>
    if event.eventKind = .unresolvedAlert then setLatest (alertKey event) event latest else latest) []

/-- The rows behind the unresolved alerts. -/
def unresolvedRows (rows : List (EvidenceRow F)) : List (EvidenceRow F) :=
  ((latestRows rows).map Prod.snd).filter fun row => !resolved row.payload

theorem latestRows_append (rows : List (EvidenceRow F)) (r : EvidenceRow F) :
    latestRows (rows ++ [r]) =
      if r.eventKind = .unresolvedAlert then setLatest (alertKey r) r (latestRows rows) else latestRows rows := by
  rw [latestRows, List.foldl_append]
  rfl

theorem latestByKey_eq (rows : List (EvidenceRow F)) :
    latestByKey rows = (latestRows rows).map (Prod.map id (·.payload)) := by
  induction rows using List.reverseRecOn with
  | nil => rfl
  | append_singleton rows r ih =>
    rw [latestRows_append, latestByKey, List.foldl_append, List.foldl_cons, List.foldl_nil]
    change (if r.eventKind = .unresolvedAlert then setLatest (alertKey r) r.payload (latestByKey rows) else latestByKey rows) = _
    rw [ih]
    split
    · rw [map_setLatest (fun row : EvidenceRow F => row.payload)]
    · rfl

theorem unresolvedAlerts_eq (rows : List (EvidenceRow F)) :
    latestUnresolvedAlerts rows = (unresolvedRows rows).map (·.payload) := by
  rw [latestUnresolvedAlerts, latestByKey_eq, unresolvedRows, List.map_map, List.filter_map, List.filter_map, List.map_map]
  rfl

def alerts (rows : List (EvidenceRow F)) : List (EvidenceRow F) := rows.filter fun event => event.eventKind = .unresolvedAlert

theorem latestRows_spec (rows : List (EvidenceRow F)) : ((latestRows rows).map Prod.fst).Nodup ∧
    ∀ k row, (k, row) ∈ latestRows rows ↔ lastOf alertKey (alerts rows) k = some row := by
  induction rows using List.reverseRecOn with
  | nil => simp [latestRows, alerts, lastOf]
  | append_singleton rows r ih =>
    obtain ⟨hnodup, hmem⟩ := ih
    rw [latestRows_append]
    by_cases hr : r.eventKind = .unresolvedAlert
    · have halerts : alerts (rows ++ [r]) = alerts rows ++ [r] := by simp [alerts, hr]
      rw [if_pos hr, halerts]
      refine ⟨nodup_setLatest hnodup, fun k row => ?_⟩
      rw [mem_setLatest hnodup]
      by_cases hk : k = alertKey r
      · subst hk
        rw [lastOf_append_self rfl]
        simp [eq_comm]
      · rw [lastOf_append_other (Ne.symm hk), hmem]
        simp [hk]
    · have halerts : alerts (rows ++ [r]) = alerts rows := by simp [alerts, hr]
      rw [if_neg hr, halerts]
      exact ⟨hnodup, hmem⟩

variable {rows : List (EvidenceRow F)}

/-- **A row behind an unresolved alert is the latest of its alert and does not say that it is resolved.** -/
theorem mem_unresolvedRows : r ∈ unresolvedRows rows ↔
    lastOf alertKey (alerts rows) (alertKey r) = some r ∧ resolved r.payload = false := by
  have hspec := (latestRows_spec rows).2
  simp only [unresolvedRows, List.mem_filter, Bool.not_eq_true', List.mem_map, Prod.exists, exists_eq_right, hspec]
  constructor
  · rintro ⟨⟨k, hk⟩, hr⟩
    obtain ⟨-, rfl⟩ := lastOf_mem hk
    exact ⟨hk, hr⟩
  · rintro ⟨hk, hr⟩
    exact ⟨⟨alertKey r, hk⟩, hr⟩

theorem mem_of_unresolved (h : r ∈ unresolvedRows rows) : r ∈ rows ∧ r.eventKind = .unresolvedAlert := by
  obtain ⟨hmem, -⟩ := lastOf_mem (mem_unresolvedRows.mp h).1
  obtain ⟨hrows, hkind⟩ := List.mem_filter.mp hmem
  exact ⟨hrows, of_decide_eq_true hkind⟩

/-- **What a further row does to an unresolved alert.**  It takes the row of the alert away only as a later row of the
    same alert; then the alert is resolved, or the further row stands for it. -/
theorem unresolvedRows_add {early late : List (EvidenceRow F)} {a : EvidenceRow F} (ha : a ∈ unresolvedRows (early ++ late)) :
    a ∈ unresolvedRows (early ++ r :: late) ∨
      r.eventKind = .unresolvedAlert ∧ alertKey r = alertKey a ∧ a ∈ early ∧
        (resolved r.payload = true ∨ r ∈ unresolvedRows (early ++ r :: late)) := by
  obtain ⟨hlast, hres⟩ := mem_unresolvedRows.mp ha
  by_cases hr : r.eventKind = .unresolvedAlert
  · have hold : alerts (early ++ late) = alerts early ++ alerts late := List.filter_append ..
    have hnew : alerts (early ++ r :: late) = alerts early ++ [r] ++ alerts late := by simp [alerts, hr]
    rw [hold, lastOf_append] at hlast
    cases hlate : lastOf alertKey (alerts late) (alertKey a) with
    | some b =>
      rw [hlate] at hlast
      cases hlast
      left
      refine mem_unresolvedRows.mpr ⟨?_, hres⟩
      rw [hnew, lastOf_append, hlate]
      rfl
    | none =>
      rw [hlate, Option.none_or] at hlast
      by_cases hk : alertKey r = alertKey a
      · right
        obtain ⟨hearly, -⟩ := lastOf_mem hlast
        refine ⟨hr, hk, List.mem_of_mem_filter hearly, ?_⟩
        cases hresolved : resolved r.payload with
        | true => exact Or.inl rfl
        | false =>
          refine Or.inr (mem_unresolvedRows.mpr ⟨?_, hresolved⟩)
          rw [hnew, lastOf_append, hk, hlate, Option.none_or, lastOf_append_self hk]
      · left
        refine mem_unresolvedRows.mpr ⟨?_, hres⟩
        rw [hnew, lastOf_append, hlate, Option.none_or, lastOf_append_other hk, hlast]
  · left
    have hsame : alerts (early ++ r :: late) = alerts (early ++ late) := by simp [alerts, hr]
    rw [mem_unresolvedRows, hsame]
    exact ⟨hlast, hres⟩

end

/-! ## Sorted sets -/

variable {t : Text}

@[simp] theorem mem_sortedSet {texts : List Text} : t ∈ sortedSet texts ↔ t ∈ texts := by
  simp [sortedSet]

theorem sortedSet_pairwise (texts : List Text) : (sortedSet texts).Pairwise (· ≤ ·) := List.pairwise_insertionSort _ _

theorem le_getLast {l : List Text} (h : l.Pairwise (· ≤ ·)) {last : Text} (hlast : l.getLast? = some last) (ht : t ∈ l) :
    t ≤ last := by
  obtain ⟨front, rfl⟩ := List.getLast?_eq_some_iff.mp hlast
  rcases List.mem_append.mp ht with ht | ht
  · exact (List.pairwise_append.mp h).2.2 t ht last (List.mem_singleton_self _)
  · exact (List.mem_singleton.mp ht).le

theorem head_le {l : List Text} (h : l.Pairwise (· ≤ ·)) {first : Text} (hfirst : l.head? = some first) (ht : t ∈ l) :
    first ≤ t := by
  cases l with
  | nil => cases hfirst
  | cons x l =>
    cases hfirst
    rcases List.mem_cons.mp ht with rfl | ht
    · exact le_refl _
    · exact (List.pairwise_cons.mp h).1 t ht

theorem sessionDay_eq_some : sessionDay r = some t ↔ r.eventKind = .session ∧ r.sourceTimestamp.date.iso = t := by
  unfold sessionDay
  split <;> simp_all

section
variable [PyFloat F] [UnicodeData]

/-- **The elapsed days are the span of the days of the sessions in the window.** -/
theorem elapsed_eq (strategyId : String) (events : List (EvidenceRow F)) (asOf : Timestamp) :
    ((∀ s ∈ facts events, s.eventKind ≠ .session) ∧
      (projectEvidenceWindow strategyId events asOf).elapsedCalendarDays = some 0) ∨
    ∃ a ∈ facts events, ∃ b ∈ facts events, a.eventKind = .session ∧ b.eventKind = .session ∧
      (∀ s ∈ facts events, s.eventKind = .session →
        a.sourceTimestamp.date ≤ s.sourceTimestamp.date ∧ s.sourceTimestamp.date ≤ b.sourceTimestamp.date) ∧
      (projectEvidenceWindow strategyId events asOf).elapsedCalendarDays =
        some ((b.sourceTimestamp.date.toordinal : Int) - a.sourceTimestamp.date.toordinal + 1) := by
  have hdays : (projectEvidenceWindow strategyId events asOf).calendarDays = sortedSet ((facts events).filterMap sessionDay) :=
    congrArg Counted.calendarDays (counted_project strategyId events asOf)
  have hmem : ∀ t, t ∈ sortedSet ((facts events).filterMap sessionDay) ↔
      ∃ s ∈ facts events, s.eventKind = .session ∧ s.sourceTimestamp.date.iso = t := by
    intro t
    simp only [mem_sortedSet, List.mem_filterMap, sessionDay_eq_some]
  unfold EvidenceWindow.elapsedCalendarDays
  rw [hdays]
  have hsorted := sortedSet_pairwise ((facts events).filterMap sessionDay)
  generalize sortedSet ((facts events).filterMap sessionDay) = days at hmem hsorted
  cases hfirst : days.head? with
  | none =>
    left
    have hnil := List.head?_eq_none_iff.mp hfirst
    refine ⟨fun s hs hkind => ?_, rfl⟩
    have hday := (hmem s.sourceTimestamp.date.iso).mpr ⟨s, hs, hkind, rfl⟩
    rw [hnil] at hday
    exact absurd hday List.not_mem_nil
  | some first =>
    cases hlast : days.getLast? with
    | none =>
      rw [List.getLast?_eq_none_iff.mp hlast] at hfirst
      cases hfirst
    | some last =>
      right
      obtain ⟨a, ha, hakind, rfl⟩ := (hmem first).mp (List.mem_of_head? hfirst)
      obtain ⟨b, hb, hbkind, rfl⟩ := (hmem last).mp (List.mem_of_getLast? hlast)
      refine ⟨a, ha, b, hb, hakind, hbkind, fun s hs hkind => ?_, ?_⟩
      · have hday := (hmem s.sourceTimestamp.date.iso).mpr ⟨s, hs, hkind, rfl⟩
        exact ⟨Date.iso_le.mp (head_le hsorted hfirst hday), Date.iso_le.mp (le_getLast hsorted hlast hday)⟩
      · simp only [dateFromIsoformat_iso]
        rfl

end

end MmrTrader.Evidence
