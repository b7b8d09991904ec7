import MmrTrader.Broker.OrderIdentity

/-!
# What one callback does to fills and identifiers

On lawful tables no application raises; `applyFill_spec`, `applyCommission_spec` and `applyOrder_spec`
say which rows and aliases are there afterwards.

* `bindFills_spec` — the scan over unbound fills, by induction on the fills it selected;
* `Rebound` — one fill row before and after an order observation.
-/

namespace MmrTrader.Broker

open MmrTrader.Lib
open MmrTrader.Journal (Work autocommit_bind autocommit_keeps autocommit_lawful)

/-! ## Fill rows -/

theorem getFill_upsertFill (rows : BrokerRows) (row : BrokerFillRow) (account execId : String) :
    (rows.upsertFill row).getFill account execId =
      if row.key = (account, execId) then some row else rows.getFill account execId :=
  Table.get?_upsert _ _ _

variable {row : BrokerFillRow}
variable {rows : BrokerRows} {account : String}

theorem getFill_mem {execId : String} :
    rows.getFill account execId = some row ↔ row ∈ rows.fills.rows ∧ row.accountId = account ∧ row.execId = execId := by
  rw [BrokerRows.getFill, Table.get?_eq_some]
  simp [BrokerFillRow.key]

theorem mem_unboundFills :
    row ∈ rows.unboundFills account ↔ row ∈ rows.fills.rows ∧ row.accountId = account ∧ row.orderEntityId = none := by
  rw [BrokerRows.unboundFills, (List.perm_insertionSort _ _).mem_iff]
  simp

theorem unboundFills_nodup (rows : BrokerRows) (account : String) :
    ((rows.unboundFills account).map BrokerFillRow.key).Nodup := by
  rw [BrokerRows.unboundFills, ((List.perm_insertionSort _ _).map _).nodup_iff]
  exact (List.filter_sublist.map _).nodup rows.fills.nodup

variable {j : BrokerJournal}

theorem emitFill_spec (I : Ingest) (eventType : String) (row : BrokerFillRow) (hj : j.Lawful) :
    ∃ revision j', (emitFill I eventType row).autocommit j = (.ok (), j') ∧ j'.Lawful ∧
      j'.tables.own.rows = j.tables.own.rows.upsertFill { row with revision := revision } := by
  obtain ⟨j', heq⟩ := emit_lawful I (upsertMutation eventType "fill" (fillEntityId row.accountId row.execId) row.accountId
    row.sourceTimestamp row.toPayload) (fun db revision => { db with rows := db.rows.upsertFill { row with revision } }) hj
  have hlawful := autocommit_lawful (emitFill I eventType row) hj
  rw [emitFill, emitRows, heq] at hlawful
  have hrows := congrArg (·.own.rows) (emit_ok I heq)
  exact ⟨_, j', heq, hlawful, hrows⟩

/-! ## Fills and commissions -/

/-- **A fill observation**: a known execution is left as it is, another gets its row. -/
theorem applyFill_spec (I : Ingest) (obs : FillObservation) (hj : j.Lawful) :
    ∃ j', (applyFill I obs).autocommit j = (.ok (), j') ∧ j'.Lawful ∧
      if (j.tables.own.rows.getFill obs.accountId obs.execId).isSome then j' = j
      else ∃ revision, j'.tables.own.rows =
        j.tables.own.rows.upsertFill { fillRow I j.tables.own.rows obs with revision := revision } := by
  by_cases hknown : (j.tables.own.rows.getFill obs.accountId obs.execId).isSome
  · refine ⟨j, ?_, hj, ?_⟩
    · simp only [applyFill, readDb, bind, Work.bind, Work.autocommit, hknown, if_true]
      rfl
    · rw [if_pos hknown]
  · obtain ⟨revision, j', heq, hlawful, hrows⟩ := emitFill_spec I "fill.received" (fillRow I j.tables.own.rows obs) hj
    refine ⟨j', ?_, hlawful, ?_⟩
    · simp only [applyFill, readDb, bind, Work.bind, Work.autocommit, hknown]
      exact heq
    · rw [if_neg hknown]
      exact ⟨revision, hrows⟩

/-- The row a commission report leads to. -/
def commissioned (obs : CommissionObservation) (row : BrokerFillRow) : BrokerFillRow :=
  { row with
    commission := some obs.commission
    commissionCurrency := some obs.currency
    realizedPnl := obs.realizedPnl
    sourceTimestamp := obs.fill.sourceTimestamp.instant }

theorem commissioned_same {obs : CommissionObservation} (h : (commissioned obs row).sameFields row = true) :
    row = { commissioned obs row with revision := row.revision, sourceTimestamp := row.sourceTimestamp } := by
  have heq := eq_of_beq h
  cases row
  simp only [commissioned, BrokerFillRow.mk.injEq, true_and, and_true] at heq ⊢
  exact ⟨heq.1.symm, heq.2.1.symm, heq.2.2.symm⟩

/-- **A commission report**: the fill first, then the commission on its row. -/
theorem applyCommission_spec (I : Ingest) (obs : CommissionObservation) (hj : j.Lawful) :
    ∃ j' j'' row, (applyFill I obs.fill).autocommit j = (.ok (), j') ∧
      j'.tables.own.rows.getFill obs.fill.accountId obs.fill.execId = some row ∧
      (applyCommission I obs).autocommit j = (.ok (), j'') ∧ j''.Lawful ∧
      j''.tables.own.rows.aliases = j'.tables.own.rows.aliases ∧
      (∃ revision time, j''.tables.own.rows.getFill obs.fill.accountId obs.fill.execId =
        some { commissioned obs row with revision := revision, sourceTimestamp := time }) ∧
      ∀ k, k ≠ (obs.fill.accountId, obs.fill.execId) →
        j''.tables.own.rows.fills.get? k = j'.tables.own.rows.fills.get? k := by
  obtain ⟨j', heq, hlawful, hrows⟩ := applyFill_spec I obs.fill hj
  obtain ⟨row, hrow⟩ : ∃ row, j'.tables.own.rows.getFill obs.fill.accountId obs.fill.execId = some row := by
    by_cases hknown : (j.tables.own.rows.getFill obs.fill.accountId obs.fill.execId).isSome
    · rw [if_pos hknown] at hrows
      rw [hrows]
      exact Option.isSome_iff_exists.mp hknown
    · rw [if_neg hknown] at hrows
      obtain ⟨revision, hrows⟩ := hrows
      have hget := getFill_upsertFill j.tables.own.rows { fillRow I j.tables.own.rows obs.fill with revision := revision }
        obs.fill.accountId obs.fill.execId
      rw [← hrows] at hget
      exact ⟨_, hget.trans (if_pos rfl)⟩
  have hwork : (applyCommission I obs).autocommit j = (if (commissioned obs row).sameFields row then pure ()
      else emitFill I "fill.updated" (commissioned obs row) : IngestWork Unit).autocommit j' := by
    simp only [applyCommission, readDb, bind, autocommit_bind, heq, Work.autocommit, hrow]
    rfl
  by_cases hsame : (commissioned obs row).sameFields row = true
  · refine ⟨j', j', row, heq, hrow, ?_, hlawful, rfl, ⟨row.revision, row.sourceTimestamp, ?_⟩, fun _ _ => rfl⟩
    · rw [hwork, if_pos hsame]
      rfl
    · rw [hrow, ← commissioned_same hsame]
  · obtain ⟨revision, j'', heq', hlawful', hrows'⟩ := emitFill_spec I "fill.updated" (commissioned obs row) hlawful
    have hkey : row.key = (obs.fill.accountId, obs.fill.execId) := (Table.get?_eq_some.mp hrow).2
    refine ⟨j', j'', row, heq, hrow, ?_, hlawful', ?_, ⟨revision, obs.fill.sourceTimestamp.instant, ?_⟩, fun k hk => ?_⟩
    · rw [hwork, if_neg hsame]
      exact heq'
    · rw [hrows']
      rfl
    · rw [hrows', getFill_upsertFill]
      exact if_pos hkey
    · rw [hrows']
      refine (Table.get?_upsert _ _ _).trans (if_neg ?_)
      exact fun h => hk (h.symm.trans hkey)

/-! ## Orders -/

def boundTo (obs : OrderObservation) (entity : String) (revision : Nat) (row : BrokerFillRow) : BrokerFillRow :=
  { row with
    orderEntityId := some entity
    sourceTimestamp := obs.sourceTimestamp.instant
    revision := revision }

theorem bindFills_spec (I : Ingest) (obs : OrderObservation) (entity : String) {fills : List BrokerFillRow}
    (hnodup : (fills.map BrokerFillRow.key).Nodup) (hj : j.Lawful) :
    ∃ j', (bindFills I obs entity fills).autocommit j = (.ok (), j') ∧ j'.Lawful ∧
      j'.tables.own.rows.aliases = j.tables.own.rows.aliases ∧
      (∀ k, (∀ f ∈ fills, f.key = k → fillMatches I obs f = false) →
        j'.tables.own.rows.fills.get? k = j.tables.own.rows.fills.get? k) ∧
      ∀ f ∈ fills, fillMatches I obs f = true → ∃ revision,
        j'.tables.own.rows.fills.get? f.key = some (boundTo obs entity revision f) := by
  induction fills generalizing j with
  | nil => exact ⟨j, rfl, hj, rfl, fun _ _ => rfl, fun f hf => by cases hf⟩
  | cons f rest ih =>
    obtain ⟨hf, hrest⟩ := List.nodup_cons.mp hnodup
    have hkey : ∀ g ∈ rest, g.key ≠ f.key := fun g hg h => hf (List.mem_map.mpr ⟨g, hg, h⟩)
    cases hm : fillMatches I obs f with
    | false =>
      obtain ⟨j', heq, hlawful, hal, hkeep, hbound⟩ := ih hrest hj
      refine ⟨j', ?_, hlawful, hal, fun k hk => hkeep k fun g hg => hk g (List.mem_cons_of_mem _ hg), ?_⟩
      · simp only [bindFills, hm]
        exact heq
      · intro g hg hgm
        rcases List.mem_cons.mp hg with rfl | hg
        · rw [hm] at hgm
          cases hgm
        · exact hbound g hg hgm
    | true =>
      obtain ⟨revision, j₁, heq₁, hlawful₁, hrows₁⟩ := emitFill_spec I "fill.updated" { f with
        orderEntityId := some entity
        sourceTimestamp := obs.sourceTimestamp.instant } hj
      obtain ⟨j', heq, hlawful, hal, hkeep, hbound⟩ := ih hrest hlawful₁
      have hget : ∀ k, j₁.tables.own.rows.fills.get? k = if f.key = k then some (boundTo obs entity revision f)
          else j.tables.own.rows.fills.get? k := by
        intro k
        rw [hrows₁]
        exact Table.get?_upsert _ _ _
      refine ⟨j', ?_, hlawful, ?_, ?_, ?_⟩
      · simp only [bindFills, hm, if_true, bind, autocommit_bind, heq₁]
        exact heq
      · rw [hal, hrows₁]
        rfl
      · intro k hk
        have hne : f.key ≠ k := by
          rintro rfl
          have hfalse := hk f List.mem_cons_self rfl
          rw [hm] at hfalse
          cases hfalse
        rw [hkeep k fun g hg => hk g (List.mem_cons_of_mem _ hg), hget, if_neg hne]
      · intro g hg hgm
        rcases List.mem_cons.mp hg with rfl | hg
        · refine ⟨revision, ?_⟩
          rw [hkeep g.key fun h hh hk => absurd hk (hkey h hh), hget, if_pos rfl]
        · exact hbound g hg hgm

/-- A fill row before and after an order observation: an unbound one that matches is bound. -/
def Rebound (I : Ingest) (obs : OrderObservation) (entity : String) (row row' : BrokerFillRow) : Prop :=
  if row.accountId = obs.accountId ∧ row.orderEntityId = none ∧ fillMatches I obs row = true then
    ∃ revision, row' = boundTo obs entity revision row
  else row' = row

theorem bindAliases_fills (session : String) (db : BrokerRows) (entity : String) (obs : OrderObservation) :
    (bindAliases session db entity obs).fills = db.fills := by
  have hone : ∀ (db : BrokerRows) (present : Bool) (key : AliasKey) (boundAt : Int),
      (db.bindWhen present key entity boundAt).fills = db.fills := by
    intro db present key boundAt
    unfold BrokerRows.bindWhen BrokerRows.bindAlias
    split
    · split <;> rfl
    · rfl
  unfold bindAliases
  split
  · simp only [hone]
  · simp only [hone]

theorem recordOrder_keepsFills (I : Ingest) (obs : OrderObservation) (generation : Option Nat) :
    (recordOrder I obs generation).Keeps fun db => db.rows.fills := by
  refine .read fun t => ?_
  dsimp only
  split
  · refine .writeOwn (fun own own' h => ?_) (.done _)
    cases h
    exact bindAliases_fills _ _ _ _
  · refine .bind (.read fun _ => .append (fun t revision own h => ?_) fun _ => .done ()) fun _ => .done _
    cases h
    exact bindAliases_fills _ _ _ _

/-- **An order observation**: its identifiers are bound to the entity it resolves to, and so are the
    unbound fills that match it. -/
theorem applyOrder_spec (I : Ingest) (obs : OrderObservation) (generation : Option Nat)
    (hj : j.Lawful) : ∃ changed j', (applyOrder I obs generation).autocommit j = (.ok (resolveNow I j obs, changed), j') ∧
      j'.Lawful ∧ j'.tables.own.rows.aliases =
        (bindAliases I.sessionEpoch j.tables.own.rows (resolveNow I j obs) obs).aliases ∧
      (∀ k, j.tables.own.rows.fills.get? k = none → j'.tables.own.rows.fills.get? k = none) ∧
      ∀ k row, j.tables.own.rows.fills.get? k = some row → ∃ row', j'.tables.own.rows.fills.get? k = some row' ∧
        Rebound I obs (resolveNow I j obs) row row' := by
  have hrecord : ∃ changed j₁, (recordOrder I obs generation).autocommit j = (.ok (resolveNow I j obs, changed), j₁) ∧
      j₁.tables.own.rows.aliases = (bindAliases I.sessionEpoch j.tables.own.rows (resolveNow I j obs) obs).aliases := by
    rcases recordOrder_spec I obs generation j with ⟨e, j₁, heq, -⟩ | h
    · have happ : Applies ⟨j, []⟩ (⟨I, obs, generation, rfl⟩ : OrderInput obs.accountId) := applies_lawful hj _
      rw [Applies, heq] at happ
      cases happ
    · exact h
  obtain ⟨changed, j₁, heq₁, hal₁⟩ := hrecord
  have hlawful₁ : j₁.Lawful := by
    have h := autocommit_lawful (recordOrder I obs generation) hj
    rwa [heq₁] at h
  have hfills₁ : j₁.tables.own.rows.fills = j.tables.own.rows.fills := by
    have h := autocommit_keeps (recordOrder_keepsFills I obs generation) j
    rwa [heq₁] at h
  obtain ⟨j', heq, hlawful, hal, hkeep, hbound⟩ := bindFills_spec I obs (resolveNow I j obs)
    (unboundFills_nodup j₁.tables.own.rows obs.accountId) hlawful₁
  have hskip : ∀ k, (∀ row, j₁.tables.own.rows.fills.get? k = some row →
      ¬ (row.accountId = obs.accountId ∧ row.orderEntityId = none ∧ fillMatches I obs row = true)) →
      j'.tables.own.rows.fills.get? k = j₁.tables.own.rows.fills.get? k := by
    intro k hk
    refine hkeep k fun f hf hfk => ?_
    obtain ⟨hmem, hacc, hnone⟩ := mem_unboundFills.mp hf
    by_contra hm
    exact hk f (Table.get?_eq_some.mpr ⟨hmem, hfk⟩) ⟨hacc, hnone, by simpa using hm⟩
  refine ⟨changed, j', ?_, hlawful, by rw [hal, hal₁], ?_, ?_⟩
  · simp only [applyOrder, resolveUnboundFills, readDb, bind, autocommit_bind, heq₁, Work.bind, Work.autocommit, heq]
    rfl
  · intro k hk
    rw [← hfills₁] at hk
    rw [hskip k (fun row hrow => by rw [hk] at hrow; cases hrow), hk]
  · intro k row hk
    rw [← hfills₁] at hk
    by_cases hm : row.accountId = obs.accountId ∧ row.orderEntityId = none ∧ fillMatches I obs row = true
    · obtain ⟨hmem, rfl⟩ := Table.get?_eq_some.mp hk
      obtain ⟨revision, hrow'⟩ := hbound row (mem_unboundFills.mpr ⟨hmem, hm.1, hm.2.1⟩) hm.2.2
      refine ⟨_, hrow', ?_⟩
      rw [Rebound, if_pos hm]
      exact ⟨revision, rfl⟩
    · refine ⟨row, ?_, ?_⟩
      · rw [hskip k fun r hr => ?_, hk]
        obtain rfl : row = r := by simpa using hk.symm.trans hr
        exact hm
      · rw [Rebound, if_neg hm]

end MmrTrader.Broker
