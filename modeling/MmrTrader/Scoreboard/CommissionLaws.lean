import MmrTrader.Scoreboard.LateCommissions

/-!
# Adjustments are numbered, and each is of an execution of its row

* `book_cases` — an adjustment is inserted only by a run that knows all earlier ones of its execution.
* `Inv` — numbered adjustments, each of an execution of its row; what every run has read; `inv_run`.
-/

namespace MmrTrader.Scoreboard.LateCommissions

open Lib

variable {L : Ledger} {db db' : Db} {w w' : World} {k k' : Key} {item : Item} {facts : List FillFact}
  {adjustments adjustments' : List Adjustment} {written written' : Nat}

/-! ## Adjustment ids -/

def Ledger.SeedsApart (L : Ledger) : Prop :=
  ∀ k n k' n', L.sha256 (L.seed k n) = L.sha256 (L.seed k' n') → L.seed k n = L.seed k' n'

variable {n n' : Nat}

theorem seed_inj (h : L.seed k n = L.seed k' n') : k = k' ∧ n = n' := by
  have hsep : ("|" : String).toList = ['|'] := rfl
  have hdigits : ∀ n : Nat, '|' ∉ (toString n).toList := fun n hn => absurd (isDigit_of_mem_repr hn) (by decide)
  have hchars := congrArg String.toList h
  unfold Ledger.seed at hchars
  simp only [String.toList_append, hsep, List.append_assoc] at hchars
  obtain ⟨hdate, hrest⟩ := append_cons_inj (L.dateText_bar k.1) (L.dateText_bar k'.1)
    (List.append_cancel_left (List.append_cancel_left hchars))
  -- the count is what follows the last bar
  obtain ⟨hexec, hcount⟩ := append_cons_inj_right (hdigits n) (hdigits n') hrest
  exact ⟨Prod.ext (L.dateText_injective (String.toList_inj.mp hdate)) (String.toList_inj.mp hexec), toString_nat_inj hcount⟩

theorem adjustmentId_inj (hsha : L.SeedsApart) (h : L.adjustmentId k n = L.adjustmentId k' n') : k = k' ∧ n = n' :=
  seed_inj (hsha k n k' n' h)

/-! ## The adjustments of an execution -/

theorem adjustmentsOf_append (k : Key) (a b : List Adjustment) :
    adjustmentsOf k (a ++ b) = adjustmentsOf k a ++ adjustmentsOf k b := List.filter_append ..

variable {a : Adjustment}

theorem adjustmentsOf_self (h : a.key = k) : adjustmentsOf k [a] = [a] := by
  simp [adjustmentsOf, h]

theorem adjustmentsOf_other (h : a.key ≠ k) : adjustmentsOf k [a] = [] := by
  simp [adjustmentsOf, h]

theorem booked_append (stored : Option ℚ) (adjustments : List Adjustment) (h : a.key = k) :
    booked stored k (adjustments ++ [a]) = booked stored k adjustments + a.amountUsd := by
  unfold booked
  rw [adjustmentsOf_append, adjustmentsOf_self h, List.map_append, List.sum_append]
  simp [add_assoc]

def Numbered (L : Ledger) (adjustments : List Adjustment) : Prop :=
  ∀ k, (adjustmentsOf k adjustments).map (·.adjustmentId) =
    (List.range (adjustmentsOf k adjustments).length).map (L.adjustmentId k)

theorem Numbered.append (h : Numbered L adjustments)
    (ha : a.adjustmentId = L.adjustmentId a.key (adjustmentsOf a.key adjustments).length) : Numbered L (adjustments ++ [a]) := by
  intro k
  rw [adjustmentsOf_append]
  by_cases hk : a.key = k
  · subst hk
    rw [adjustmentsOf_self rfl, List.map_append, h, List.length_append, List.length_singleton, List.range_succ,
      List.map_append, List.map_singleton, List.map_singleton, ha]
  · rw [adjustmentsOf_other hk, List.append_nil]
    exact h k

theorem Numbered.taken_iff (hsha : L.SeedsApart) (h : Numbered L adjustments) (k : Key) (n : Nat) :
    (∃ a ∈ adjustments, a.adjustmentId = L.adjustmentId k n) ↔ n < (adjustmentsOf k adjustments).length := by
  constructor
  · rintro ⟨a, ha, hid⟩
    have hown : a ∈ adjustmentsOf a.key adjustments := List.mem_filter.mpr ⟨ha, decide_eq_true rfl⟩
    have hmem : a.adjustmentId ∈ (adjustmentsOf a.key adjustments).map (·.adjustmentId) := List.mem_map_of_mem hown
    rw [h a.key] at hmem
    obtain ⟨m, hm, heq⟩ := List.mem_map.mp hmem
    obtain ⟨rfl, rfl⟩ := adjustmentId_inj hsha (heq.trans hid)
    exact List.mem_range.mp hm
  · intro hn
    have hmem : L.adjustmentId k n ∈ (adjustmentsOf k adjustments).map (·.adjustmentId) := by
      rw [h k]
      exact List.mem_map_of_mem (List.mem_range.mpr hn)
    obtain ⟨a, ha, hid⟩ := List.mem_map.mp hmem
    exact ⟨a, (List.mem_filter.mp ha).1, hid⟩

/-- What a run knows of the adjustments: for each execution, the first ones. -/
def Knows (adjustments all : List Adjustment) : Prop := ∀ k, adjustmentsOf k adjustments <+: adjustmentsOf k all

/-- The run knows all adjustments of the execution. -/
def UpToDate (k : Key) (adjustments all : List Adjustment) : Prop := adjustmentsOf k adjustments = adjustmentsOf k all

/-! ## One turn -/

structure Inserts (L : Ledger) (item : Item) (db : Db) (adjustments : List Adjustment) (a : Adjustment) : Prop where
  key : a.key = item.key
  id : a.adjustmentId = L.adjustmentId item.key (adjustmentsOf item.key db.adjustments.rows).length
  upToDate : UpToDate item.key adjustments db.adjustments.rows
  books : ∃ stored fee, item.stored = some stored ∧ item.fee = some fee ∧
    booked stored item.key db.adjustments.rows ≠ fee ∧ booked stored item.key db.adjustments.rows + a.amountUsd = fee

/-- **One turn**: nothing is inserted, and then what the run knows to be booked is the fee or an adjustment is missing
from what it knows; or the next adjustment is inserted, by a run that knows the earlier ones. -/
theorem book_cases (hsha : L.SeedsApart) (hnumbered : Numbered L db.adjustments.rows) (hknows : Knows adjustments db.adjustments.rows)
    (h : L.book item db adjustments written = (db', adjustments', written')) :
    db'.fills = db.fills ∧ db'.rows = db.rows ∧
    ((db'.adjustments = db.adjustments ∧ adjustments' = adjustments ∧ written' = written ∧
        (UpToDate item.key adjustments db.adjustments.rows → ∀ stored fee, item.stored = some stored → item.fee = some fee →
          booked stored item.key db.adjustments.rows = fee)) ∨
      ∃ a, Inserts L item db adjustments a ∧ db'.adjustments.rows = db.adjustments.rows ++ [a] ∧
        adjustments' = adjustments ++ [a] ∧ written' = written + 1) := by
  unfold Ledger.book at h
  split at h
  · rename_i hstored
    cases h
    unfold Db.recordIncident
    refine ⟨by split <;> rfl, by split <;> rfl, Or.inl ⟨by split <;> rfl, rfl, rfl, ?_⟩⟩
    intro _ stored fee hsome
    cases hstored.symm.trans hsome
  · rename_i stored hstored
    split at h
    · rename_i hfee
      cases h
      refine ⟨rfl, rfl, Or.inl ⟨rfl, rfl, rfl, ?_⟩⟩
      intro _ stored' fee _ hsome
      cases hfee.symm.trans hsome
    · rename_i fee hfee
      dsimp only at h
      split at h
      · rename_i hzero
        cases h
        refine ⟨rfl, rfl, Or.inl ⟨rfl, rfl, rfl, ?_⟩⟩
        intro hup stored' fee' hstored' hfee'
        cases hstored.symm.trans hstored'
        cases hfee.symm.trans hfee'
        unfold booked at hzero ⊢
        rw [← hup]
        exact (sub_eq_zero.mp hzero).symm
      · rename_i hdelta
        split at h
        · rename_i hconflict
          cases h
          refine ⟨rfl, rfl, Or.inl ⟨rfl, rfl, rfl, ?_⟩⟩
          -- the id is taken: the run has missed an adjustment
          intro hup
          exfalso
          have htaken : ¬ ∀ row ∈ db.adjustments.rows, row.adjustmentId ≠
              L.adjustmentId item.key (adjustmentsOf item.key adjustments).length := by
            intro hfree
            obtain ⟨t, ht⟩ := Table.insert?_isSome (r := (⟨L.adjustmentId item.key (adjustmentsOf item.key adjustments).length,
              item.sessionDate, item.execId, fee - booked stored item.key adjustments⟩ : Adjustment)) (Table.get?_eq_none.mpr hfree)
            cases hconflict.symm.trans ht
          push Not at htaken
          have hlt := (hnumbered.taken_iff hsha item.key _).mp htaken
          rw [hup] at hlt
          exact Nat.lt_irrefl _ hlt
        · rename_i table htable
          cases h
          obtain ⟨hfree, hrows⟩ := Table.insert?_eq_some htable
          have hup : UpToDate item.key adjustments db.adjustments.rows := by
            refine (hknows item.key).eq_of_length_le ?_
            by_contra hlt
            obtain ⟨a, ha, hid⟩ := (hnumbered.taken_iff hsha item.key _).mpr (not_le.mp hlt)
            exact Table.get?_eq_none.mp hfree a ha hid
          have hsame : booked stored item.key adjustments = booked stored item.key db.adjustments.rows := by
            unfold booked
            rw [hup]
          refine ⟨rfl, rfl, Or.inr ⟨_, ⟨rfl, by rw [hup], hup, stored, fee, hstored, hfee, ?_, ?_⟩, hrows, rfl, rfl⟩⟩
          · rw [← hsame]
            exact fun heq => hdelta (sub_eq_zero.mpr heq.symm)
          · rw [hsame]
            exact add_sub_cancel _ _

/-! ## The invariant -/

/-- The fills were there before; only commissions change. -/
def Older (facts : List FillFact) (db : Db) : Prop :=
  ∀ f ∈ facts, ∃ g ∈ db.fills.rows, g.execId = f.execId ∧ g.fillTime = f.fillTime

/-- The item is an execution of a row, with the fee that the run has read. -/
structure ItemOk (L : Ledger) (db : Db) (facts : List FillFact) (item : Item) : Prop where
  row : ∃ row ∈ db.rows.rows, row.sessionDate = item.sessionDate ∧ row.commissionJson.lookup item.execId = item.stored
  fill : ∃ f ∈ facts, f.execId = item.execId ∧ L.projector.sessionDate f.fillTime = item.sessionDate ∧ f.commission = item.fee

def RunOk (L : Ledger) (db : Db) : Run → Prop
  | .haveRows rows => rows ⊆ db.rows.rows
  | .haveFacts rows _ => rows ⊆ db.rows.rows
  | .working todo facts adjustments _ => (∀ item ∈ todo, ItemOk L db facts item) ∧ Knows adjustments db.adjustments.rows
  | _ => True

structure Inv (L : Ledger) (w : World) : Prop where
  numbered : Numbered L w.db.adjustments.rows
  /-- An adjustment is one of an execution of its row. -/
  inRow : ∀ a ∈ w.db.adjustments.rows, ∃ row ∈ w.db.rows.rows, row.sessionDate = a.sessionDate ∧
    a.execId ∈ row.commissionJson.map Prod.fst
  past : ∀ facts ∈ w.past, Older facts w.db
  rows : ∀ row ∈ w.db.rows.rows, (row.commissionJson.map Prod.fst).Nodup ∧
    ∀ execId ∈ row.commissionJson.map Prod.fst, ∃ f ∈ w.db.fills.rows, f.execId = execId ∧
      L.projector.sessionDate f.fillTime = row.sessionDate
  runs : ∀ i r, w.runs i = some r → RunOk L w.db r

theorem Inv.start (L : Ledger) : Inv L .start where
  numbered _ := rfl
  inRow a ha := by cases ha
  past facts h := by cases h
  rows row h := by cases h
  runs i r h := by cases h

theorem mem_experimentFills {f : FillFact} : f ∈ db.experimentFills ↔ f ∈ db.fills.rows := List.mem_insertionSort _

theorem older_self (db : Db) : Older db.experimentFills db := fun f hf => ⟨f, mem_experimentFills.mp hf, rfl, rfl⟩

theorem Older.trans (h : Older facts db) (hdb : Older db.experimentFills db') : Older facts db' := by
  intro f hf
  obtain ⟨g, hg, hid, htime⟩ := h f hf
  obtain ⟨g', hg', hid', htime'⟩ := hdb g (mem_experimentFills.mpr hg)
  exact ⟨g', hg', hid'.trans hid, htime'.trans htime⟩

theorem older_updateWhere {p : FillFact → Bool} {f : FillFact → FillFact} {hf : ∀ g, (f g).execId = g.execId}
    (htime : ∀ g, (f g).fillTime = g.fillTime) : Older db.experimentFills { db with fills := db.fills.updateWhere p f hf } := by
  intro g hg
  refine ⟨if p g then f g else g, List.mem_map.mpr ⟨g, mem_experimentFills.mp hg, rfl⟩, ?_, ?_⟩
  · split
    · exact hf g
    · rfl
  · split
    · exact htime g
    · rfl

structure Grows (db db' : Db) : Prop where
  rows : db.rows.rows ⊆ db'.rows.rows
  adjustments : ∀ k, adjustmentsOf k db.adjustments.rows <+: adjustmentsOf k db'.adjustments.rows

theorem ItemOk.grows (h : ItemOk L db facts item) (hg : Grows db db') : ItemOk L db' facts item := by
  obtain ⟨⟨row, hrow, hdate, hstored⟩, hfill⟩ := h
  exact ⟨⟨row, hg.rows hrow, hdate, hstored⟩, hfill⟩

variable {r : Run}

theorem RunOk.grows (h : RunOk L db r) (hg : Grows db db') : RunOk L db' r := by
  cases r with
  | started => trivial
  | haveRows rows => exact fun row hrow => hg.rows (h hrow)
  | haveFacts rows facts => exact fun row hrow => hg.rows (h hrow)
  | working todo facts adjustments written =>
    exact ⟨fun item hitem => (h.1 item hitem).grows hg, fun k => (h.2 k).trans (hg.adjustments k)⟩
  | done written => trivial

theorem Inv.setFills {fills : Table FillFact.execId} (h : Inv L w)
    (hfills : Older w.db.experimentFills { w.db with fills := fills }) : Inv L (w.setFills fills) where
  numbered := h.numbered
  inRow := h.inRow
  past facts hfacts := by
    rcases List.mem_cons.mp hfacts with rfl | hfacts
    · exact hfills
    · exact (h.past facts hfacts).trans hfills
  rows row hrow := by
    obtain ⟨hnodup, hlisted⟩ := h.rows row hrow
    refine ⟨hnodup, fun execId hexec => ?_⟩
    obtain ⟨f, hf, hid, hdate⟩ := hlisted execId hexec
    obtain ⟨g, hg, hid', htime⟩ := hfills f (mem_experimentFills.mpr hf)
    exact ⟨g, hg, hid'.trans hid, by rw [htime]; exact hdate⟩
  runs i r hr := (h.runs i r hr).grows ⟨List.Subset.refl _, fun _ => List.prefix_refl _⟩

theorem Inv.setRun {r : Option Run} (h : Inv L w) (i : Nat) (hr : ∀ r', r = some r' → RunOk L w.db r') :
    Inv L { w with runs := Function.update w.runs i r } where
  numbered := h.numbered
  inRow := h.inRow
  past := h.past
  rows := h.rows
  runs j r' hj := by
    dsimp only at hj
    by_cases hji : j = i
    · subst hji
      rw [Function.update_self] at hj
      exact hr r' hj
    · rw [Function.update_of_ne hji] at hj
      exact h.runs j r' hj

theorem Inv.writeRow (h : Inv L w) {date : Int} (hfacts : Older facts w.db) :
    Inv L { w with db := L.writeRow w.db facts date } := by
  unfold Ledger.writeRow
  split
  · exact h
  · rename_i p hproject
    obtain ⟨hvalid, rfl⟩ := project_valid hproject
    split
    · exact h
    · rename_i rows hrows
      have hmem : ∀ row ∈ w.db.rows.rows, row ∈ rows.rows := fun row hrow => (Table.mem_insert? hrows).mpr (Or.inl hrow)
      refine ⟨h.numbered, ?_, h.past, ?_, ?_⟩
      · intro a ha
        obtain ⟨row, hrow, hdate, hexec⟩ := h.inRow a ha
        exact ⟨row, hmem row hrow, hdate, hexec⟩
      · intro row hrow
        rcases (Table.mem_insert? hrows).mp hrow with hrow | rfl
        · exact h.rows row hrow
        · refine ⟨nodup_sessionCommissions _ _, ?_⟩
          intro execId hexec
          obtain ⟨⟨e, fee⟩, hpair, rfl⟩ := List.mem_map.mp hexec
          obtain ⟨f, hf, hid, hsession, -⟩ := (mem_sessionCommissions hvalid).mp hpair
          obtain ⟨g, hg, hid', htime⟩ := hfacts f hf
          exact ⟨g, hg, hid'.trans hid, by rw [htime]; exact hsession⟩
      · exact fun i r hr => (h.runs i r hr).grows ⟨hmem, fun _ => List.prefix_refl _⟩

/-! ## A step of a run -/

theorem mem_items {rows : List DayRow} (hvalid : ValidFills facts) :
    item ∈ items rows (projection L.projector facts) ↔ ∃ row ∈ rows, row.sessionDate = item.sessionDate ∧
      row.commissionJson.lookup item.execId = item.stored ∧ ∃ f ∈ facts, f.execId = item.execId ∧
        L.projector.sessionDate f.fillTime = item.sessionDate ∧ f.commission = item.fee := by
  unfold items
  rw [List.mem_flatMap]
  constructor
  · rintro ⟨row, hrow, hitem⟩
    obtain ⟨⟨e, fee⟩, hpair, rfl⟩ := List.mem_map.mp hitem
    exact ⟨row, hrow, rfl, rfl, (mem_sessionCommissions hvalid).mp hpair⟩
  · rintro ⟨row, hrow, hdate, hstored, hfill⟩
    refine ⟨row, hrow, List.mem_map.mpr ⟨(item.execId, item.fee), ?_, ?_⟩⟩
    · rw [hdate]
      exact (mem_sessionCommissions hvalid).mpr hfill
    · rw [hdate, hstored]

theorem mem_keys_of_lookup {json : List (String × Option ℚ)} {execId : String} {stored : Option ℚ}
    (h : json.lookup execId = some stored) : execId ∈ json.map Prod.fst := by
  obtain ⟨before, after, rfl, -⟩ := List.lookup_eq_some_iff.mp h
  simp

theorem Inserts.grows (hrows : db'.rows = db.rows) (ha : db'.adjustments.rows = db.adjustments.rows ++ [a]) : Grows db db' := by
  refine ⟨by rw [hrows]; exact List.Subset.refl _, fun k => ?_⟩
  rw [ha, adjustmentsOf_append]
  exact List.prefix_append _ _

theorem Inv.setDb (h : Inv L w) {db' : Db} (hfills : db'.fills = w.db.fills) (hrows : db'.rows = w.db.rows)
    (hnumbered : Numbered L db'.adjustments.rows) (hgrows : Grows w.db db')
    (hin : ∀ a ∈ db'.adjustments.rows, a ∈ w.db.adjustments.rows ∨
      ∃ row ∈ w.db.rows.rows, row.sessionDate = a.sessionDate ∧ a.execId ∈ row.commissionJson.map Prod.fst) :
    Inv L { w with db := db' } := by
  refine ⟨hnumbered, ?_, ?_, ?_, fun i r hr => (h.runs i r hr).grows hgrows⟩
  · intro a ha
    dsimp only
    rw [hrows]
    rcases hin a ha with hold | hnew
    · exact h.inRow a hold
    · exact hnew
  · intro facts hfacts
    unfold Older
    dsimp only
    rw [hfills]
    exact h.past facts hfacts
  · dsimp only
    rw [hrows, hfills]
    exact h.rows

/-- What a turn leaves. -/
theorem Inv.book (hsha : L.SeedsApart) (h : Inv L w) {db' : Db} (hitem : ItemOk L w.db facts item) (hknows : Knows adjustments w.db.adjustments.rows)
    (hbook : L.book item w.db adjustments written = (db', adjustments', written')) :
    Inv L { w with db := db' } ∧ Knows adjustments' db'.adjustments.rows ∧ Grows w.db db' := by
  obtain ⟨hfills, hrows, ⟨hsame, rfl, -, -⟩ | ⟨a, ha, hadd, rfl, -⟩⟩ := book_cases hsha h.numbered hknows hbook
  · have hgrows : Grows w.db db' :=
      ⟨by rw [hrows]; exact List.Subset.refl _, fun k => hsame ▸ List.prefix_refl _⟩
    refine ⟨h.setDb hfills hrows (by rw [hsame]; exact h.numbered) hgrows ?_, fun k => by rw [hsame]; exact hknows k, hgrows⟩
    intro a ha
    rw [hsame] at ha
    exact Or.inl ha
  · have hgrows := Inserts.grows hrows hadd
    refine ⟨h.setDb hfills hrows ?_ hgrows ?_, ?_, hgrows⟩
    · rw [hadd]
      apply h.numbered.append
      rw [ha.id, ha.key]
    · intro b hb
      rw [hadd] at hb
      rcases List.mem_append.mp hb with hb | hb
      · exact Or.inl hb
      · obtain rfl := List.mem_singleton.mp hb
        obtain ⟨row, hrow, hdate, hstored⟩ := hitem.row
        obtain ⟨stored, fee, hsome, -, -⟩ := ha.books
        have hkey := Prod.mk.inj ha.key
        exact Or.inr ⟨row, hrow, hdate.trans hkey.1.symm, by rw [hkey.2]; exact mem_keys_of_lookup (hstored.trans hsome)⟩
    · intro k
      rw [hadd, adjustmentsOf_append, adjustmentsOf_append]
      by_cases hk : a.key = k
      · obtain rfl : item.key = k := ha.key.symm.trans hk
        exact ha.upToDate ▸ List.prefix_refl _
      · rw [adjustmentsOf_other hk, List.append_nil, List.append_nil]
        exact hknows k

theorem go_turn {todo : List Item} (h : L.book item db adjustments written = (db', adjustments', written')) :
    (Run.working (item :: todo) facts adjustments written).go L db = (db', some (.working todo facts adjustments' written')) := by
  rw [Run.go, h]

theorem Inv.go (hsha : L.SeedsApart) (h : Inv L w) {i : Nat} (hr : w.runs i = some r) :
    Inv L { w with db := (r.go L w.db).1, runs := Function.update w.runs i (r.go L w.db).2 } := by
  have hok := h.runs i r hr
  match r, hok with
  | .started, _ =>
    apply h.setRun i
    intro r' hr'
    obtain rfl := Option.some.inj hr'
    split
    · trivial
    · exact List.Subset.refl _
  | .haveRows rows, hok =>
    apply h.setRun i
    intro r' hr'
    obtain rfl := Option.some.inj hr'
    exact hok
  | .haveFacts rows facts, hok =>
    apply h.setRun i
    intro r' hr'
    obtain ⟨p, hproject, rfl⟩ := Option.map_eq_some_iff.mp hr'
    obtain ⟨hvalid, rfl⟩ := project_valid hproject
    refine ⟨fun item hitem => ?_, fun k => List.prefix_refl _⟩
    obtain ⟨row, hrow, hdate, hstored, hfill⟩ := (mem_items hvalid).mp hitem
    exact ⟨⟨row, hok hrow, hdate, hstored⟩, hfill⟩
  | .working [] facts adjustments written, _ =>
    apply h.setRun i
    intro r' hr'
    obtain rfl := Option.some.inj hr'
    trivial
  | .working (item :: todo) facts adjustments written, hok =>
    cases hbook : L.book item w.db adjustments written with
    | mk db' rest =>
      obtain ⟨adjustments', written'⟩ := rest
      rw [go_turn hbook]
      obtain ⟨hinv, hknows, hgrows⟩ := h.book hsha (hok.1 item List.mem_cons_self) hok.2 hbook
      apply hinv.setRun i
      intro r' hr'
      obtain rfl := Option.some.inj hr'
      exact ⟨fun other hother => (hok.1 other (List.mem_cons_of_mem _ hother)).grows hgrows, hknows⟩
  | .done written, _ =>
    apply h.setRun i
    intro r' hr'
    obtain rfl := Option.some.inj hr'
    trivial

theorem Inv.step (hsha : L.SeedsApart) (h : Inv L w) (act : Act) : Inv L (step L w act) := by
  cases act with
  | fill f =>
    unfold LateCommissions.step
    dsimp only
    split
    · exact h
    · rename_i fills hfills
      apply h.setFills
      intro g hg
      exact ⟨g, (Table.mem_insert? hfills).mpr (Or.inl (mem_experimentFills.mp hg)), rfl, rfl⟩
  | commission execId fee =>
    exact h.setFills (older_updateWhere fun _ => rfl)
  | writeRow date age =>
    unfold LateCommissions.step
    dsimp only
    split
    · exact h
    · rename_i facts hfacts
      apply h.writeRow
      rcases List.mem_cons.mp (List.mem_of_getElem? hfacts) with rfl | hpast
      · exact older_self _
      · exact h.past facts hpast
  | start i =>
    apply h.setRun i
    intro r hr
    obtain rfl := Option.some.inj hr
    trivial
  | go i =>
    unfold LateCommissions.step
    dsimp only
    split
    · exact h
    · exact h.go hsha ‹_›
  | crash i =>
    apply h.setRun i
    intro r hr
    cases hr

theorem Inv.runFrom (hsha : L.SeedsApart) (acts : List Act) : ∀ {w : World}, Inv L w → Inv L (runFrom L w acts) := by
  induction acts with
  | nil => exact fun h => h
  | cons act acts ih => exact fun h => ih (h.step hsha act)

theorem inv_run (hsha : L.SeedsApart) (acts : List Act) : Inv L (run L acts) := (Inv.start L).runFrom hsha acts

end MmrTrader.Scoreboard.LateCommissions
