import Mathlib.Data.List.Induction
import MmrTrader.Broker.FillSteps

/-!
# Fills are recorded once and bound, whatever the order of callbacks

Order, fill and commission observations of one account and session, applied in any order and with any
repetitions.

* `Reports` — what a list of callbacks reported; `Consistent`, `Definite` — when the identifiers in it
  say which order is which;
* `Inv` — what holds after every callback: the identifiers seen are bound to their order's entity, and
  every execution has one row, settled as far as the reports go;
* `fills_recorded_once` — two arrival orders of the same callbacks end with the same fills;
* `arrival_order_shows` — three lists where the arrival order can be read off the fills.
-/

namespace MmrTrader.Broker

open MmrTrader.Lib
open MmrTrader.Journal (JournalState)

/-! ## Callbacks -/

inductive Callback where
  | order (obs : OrderObservation) (generation : Option Nat)
  | fill (obs : FillObservation)
  | commission (obs : CommissionObservation)

def callbackStep (I : Ingest) (j : BrokerJournal) : Callback → BrokerJournal
  | .order obs generation => ((applyOrder I obs generation).autocommit j).2
  | .fill obs => ((applyFill I obs).autocommit j).2
  | .commission obs => ((applyCommission I obs).autocommit j).2

structure Reports where
  orders : List OrderObservation
  fills : List FillObservation
  commissions : List CommissionObservation

def Callback.orders : Callback → List OrderObservation
  | .order obs _ => [obs]
  | _ => []

def Callback.fills : Callback → List FillObservation
  | .fill obs => [obs]
  | .commission obs => [obs.fill]
  | _ => []

def Callback.commissions : Callback → List CommissionObservation
  | .commission obs => [obs]
  | _ => []

def reports (l : List Callback) : Reports := ⟨l.flatMap (·.orders), l.flatMap (·.fills), l.flatMap (·.commissions)⟩

theorem reports_concat (l : List Callback) (c : Callback) : reports (l ++ [c]) =
    ⟨(reports l).orders ++ c.orders, (reports l).fills ++ c.fills, (reports l).commissions ++ c.commissions⟩ := by
  simp [reports]

/-! ## Identifiers -/

def HasId (a : OrderObservation) : Prop := a.permId ≠ 0 ∨ a.clientOrderId ≠ 0

def Shares (a b : OrderObservation) : Prop :=
  a.permId ≠ 0 ∧ a.permId = b.permId ∨ a.clientOrderId ≠ 0 ∧ a.clientOrderId = b.clientOrderId

/-- A fill shares a nonzero identifier with an order observation. -/
def SharesFill (f : FillObservation) (a : OrderObservation) : Prop :=
  f.permId ≠ 0 ∧ f.permId = a.permId ∨ f.clientOrderId ≠ 0 ∧ f.clientOrderId = a.clientOrderId

def SameName (a b : OrderObservation) : Prop :=
  ∃ group, decodeOrderRef a.orderRef = some group ∧ decodeOrderRef b.orderRef = some group ∧
    classifyLeg a.orderType a.parentId a.clientOrderId (some group) =
      classifyLeg b.orderType b.parentId b.clientOrderId (some group)

section Reported

variable {κ : Type} (account : String) (orderOf : OrderObservation → κ)

/-- Perm ids and order ids identify the orders, and the commission reports of an execution agree. -/
structure Consistent (r : Reports) : Prop where
  orderAccount : ∀ a ∈ r.orders, a.accountId = account
  fillAccount : ∀ f ∈ r.fills, f.accountId = account
  orders : ∀ a ∈ r.orders, ∀ b ∈ r.orders, Shares a b → orderOf a = orderOf b
  fills : ∀ f ∈ r.fills, ∀ a ∈ r.orders, ∀ b ∈ r.orders, SharesFill f a → SharesFill f b → orderOf a = orderOf b
  commissions : ∀ c ∈ r.commissions, ∀ d ∈ r.commissions, c.fill.execId = d.fill.execId →
    c.commission = d.commission ∧ c.currency = d.currency ∧ c.realizedPnl = d.realizedPnl

/-- Moreover each two observations of an order are linked, and those of an execution are the same. -/
structure Definite (r : Reports) : Prop extends Consistent account orderOf r where
  linked : ∀ a ∈ r.orders, ∀ b ∈ r.orders, HasId a → HasId b → orderOf a = orderOf b → Shares a b ∨ SameName a b
  executions : ∀ f ∈ r.fills, ∀ g ∈ r.fills, f.execId = g.execId →
    f.permId = g.permId ∧ f.clientOrderId = g.clientOrderId ∧ f.quantity = g.quantity ∧ f.price = g.price

variable {account orderOf}

theorem Definite.mono {r s : Reports} (h : Definite account orderOf s) (ho : r.orders ⊆ s.orders) (hf : r.fills ⊆ s.fills)
    (hc : r.commissions ⊆ s.commissions) : Definite account orderOf r where
  orderAccount a ha := h.orderAccount a (ho ha)
  fillAccount f hf' := h.fillAccount f (hf hf')
  orders a ha b hb := h.orders a (ho ha) b (ho hb)
  fills f hf' a ha b hb := h.fills f (hf hf') a (ho ha) b (ho hb)
  commissions c hc' d hd := h.commissions c (hc hc') d (hc hd)
  linked a ha b hb := h.linked a (ho ha) b (ho hb)
  executions f hf' g hg := h.executions f (hf hf') g (hf hg)

end Reported

/-! ## Alias keys -/

def idKeys (account session : String) (permId clientOrderId : Int) : List AliasKey :=
  (if permId = 0 then [] else [permKey account permId]) ++
    (if clientOrderId = 0 then [] else [clientKey account session clientOrderId])

def orderKeys (I : Ingest) (a : OrderObservation) : List AliasKey :=
  idKeys a.accountId I.sessionEpoch a.permId a.clientOrderId

def fillKeys (I : Ingest) (f : FillObservation) : List AliasKey :=
  idKeys f.accountId I.sessionEpoch f.permId f.clientOrderId

theorem clientKey_inj {a s : String} {m n : Int} (h : clientKey a s m = clientKey a s n) : m = n := by
  have htext : toString m = toString n := by
    simpa [clientKey] using h
  rw [← parseInt_toString m, htext, parseInt_toString]

variable {session : String} {p c : Int} {k : AliasKey}

theorem mem_idKeys {account : String} : k ∈ idKeys account session p c ↔
    p ≠ 0 ∧ k = permKey account p ∨ c ≠ 0 ∧ k = clientKey account session c := by
  unfold idKeys
  rw [List.mem_append]
  by_cases hp : p = 0
  · by_cases hc : c = 0
    · simp [hp, hc]
    · simp [hp, hc]
  · by_cases hc : c = 0
    · simp [hp, hc]
    · simp [hp, hc]

theorem idKeys_meet {account : String} {q d : Int} :
    (∃ k ∈ idKeys account session p c, k ∈ idKeys account session q d) ↔ p ≠ 0 ∧ p = q ∨ c ≠ 0 ∧ c = d := by
  constructor
  · rintro ⟨k, hk, hk'⟩
    rcases mem_idKeys.mp hk with ⟨hp, rfl⟩ | ⟨hc, rfl⟩
    · rcases mem_idKeys.mp hk' with ⟨-, heq⟩ | ⟨-, heq⟩
      · exact Or.inl ⟨hp, permKey_inj heq⟩
      · simp [permKey, clientKey] at heq
    · rcases mem_idKeys.mp hk' with ⟨-, heq⟩ | ⟨-, heq⟩
      · simp [permKey, clientKey] at heq
      · exact Or.inr ⟨hc, clientKey_inj heq⟩
  · rintro (⟨hp, rfl⟩ | ⟨hc, rfl⟩)
    · exact ⟨_, mem_idKeys.mpr (Or.inl ⟨hp, rfl⟩), mem_idKeys.mpr (Or.inl ⟨hp, rfl⟩)⟩
    · exact ⟨_, mem_idKeys.mpr (Or.inr ⟨hc, rfl⟩), mem_idKeys.mpr (Or.inr ⟨hc, rfl⟩)⟩

variable {a : OrderObservation}

theorem shares_iff (I : Ingest) {b : OrderObservation} (h : a.accountId = b.accountId) :
    Shares a b ↔ ∃ k ∈ orderKeys I a, k ∈ orderKeys I b := by
  rw [orderKeys, orderKeys, h, idKeys_meet, Shares]

theorem sharesFill_iff (I : Ingest) {f : FillObservation} (h : f.accountId = a.accountId) :
    SharesFill f a ↔ ∃ k ∈ fillKeys I f, k ∈ orderKeys I a := by
  rw [fillKeys, orderKeys, h, idKeys_meet, SharesFill]

theorem hasId_of_key {I : Ingest} (h : k ∈ orderKeys I a) : HasId a := by
  rcases mem_idKeys.mp h with ⟨hp, -⟩ | ⟨hc, -⟩
  · exact Or.inl hp
  · exact Or.inr hc

def BrokerRows.firstBound (rows : BrokerRows) (keys : List AliasKey) : Option String :=
  keys.findSome? rows.findOrderByAlias

theorem firstBound_idKeys (rows : BrokerRows) (account session : String) (p c : Int) :
    rows.firstBound (idKeys account session p c) =
      (rows.byPermId account p).or (rows.byClientOrderId account session c) := by
  unfold BrokerRows.firstBound idKeys BrokerRows.byPermId BrokerRows.byClientOrderId
  rw [List.findSome?_append]
  by_cases hp : p = 0
  · by_cases hc : c = 0
    · simp [hp, hc]
    · simp [hp, hc]
  · by_cases hc : c = 0
    · simp [hp, hc]
    · simp [hp, hc]

theorem resolve_eq (I : Ingest) (j : BrokerJournal) (obs : OrderObservation) : resolveNow I j obs =
    (j.tables.own.rows.firstBound (orderKeys I obs)).getD (nameOrMint obs (I.uuid4 j.tables.own.rows)) := by
  rw [orderKeys, firstBound_idKeys, resolveNow, resolve]
  cases j.tables.own.rows.byPermId obs.accountId obs.permId with
  | some e => rfl
  | none =>
    cases j.tables.own.rows.byClientOrderId obs.accountId I.sessionEpoch obs.clientOrderId with
    | some e => rfl
    | none => rfl

theorem resolveFillOrder_eq (I : Ingest) (rows : BrokerRows) (obs : FillObservation) :
    resolveFillOrder I rows obs = rows.firstBound (fillKeys I obs) := by
  rw [fillKeys, firstBound_idKeys, resolveFillOrder]
  cases rows.byPermId obs.accountId obs.permId with
  | some e => rfl
  | none => rfl

variable {rows : BrokerRows} {keys : List AliasKey}

theorem firstBound_eq_some {e : String} (hall : ∀ k ∈ keys, ∀ e', rows.findOrderByAlias k = some e' → e' = e)
    (hex : ∃ k ∈ keys, rows.findOrderByAlias k ≠ none) : rows.firstBound keys = some e := by
  cases hf : rows.firstBound keys with
  | some e' =>
    obtain ⟨k, hk, hfind⟩ := List.exists_of_findSome?_eq_some hf
    rw [hall k hk e' hfind]
  | none =>
    obtain ⟨k, hk, hne⟩ := hex
    exact absurd (List.findSome?_eq_none_iff.mp hf k hk) hne

theorem firstBound_eq_none (h : ∀ k ∈ keys, rows.findOrderByAlias k = none) :
    rows.firstBound keys = none := List.findSome?_eq_none_iff.mpr h

theorem bindAliases_idKey (I : Ingest) (rows : BrokerRows) (e : String) (obs : OrderObservation)
    (hk : k.aliasType = .permId ∨ k.aliasType = .clientOrderId) :
    (bindAliases I.sessionEpoch rows e obs).findOrderByAlias k =
      (rows.findOrderByAlias k).or (if k ∈ orderKeys I obs then some e else none) := by
  have hparent : parentKey obs.accountId I.sessionEpoch obs.parentId ≠ k := by
    rintro rfl
    simp [parentKey] at hk
  have href : ∀ ref, refKey obs.accountId ref ≠ k := by
    rintro ref rfl
    simp [refKey] at hk
  have hbound : (bindAliases I.sessionEpoch rows e obs).findOrderByAlias k = ((rows.findOrderByAlias k).or
      (if obs.permId ≠ 0 ∧ permKey obs.accountId obs.permId = k then some e else none)).or
      (if obs.clientOrderId ≠ 0 ∧ clientKey obs.accountId I.sessionEpoch obs.clientOrderId = k then some e else none) := by
    unfold bindAliases
    cases obs.orderRef with
    | none => simp [bindWhen_find, hparent]
    | some ref => simp [bindWhen_find, hparent, href]
  rw [hbound, Option.or_assoc]
  congr 1
  have hmem : k ∈ orderKeys I obs ↔ (obs.permId ≠ 0 ∧ permKey obs.accountId obs.permId = k) ∨
      (obs.clientOrderId ≠ 0 ∧ clientKey obs.accountId I.sessionEpoch obs.clientOrderId = k) := by
    rw [orderKeys, mem_idKeys, eq_comm, @eq_comm _ k (clientKey _ _ _)]
  by_cases hp : obs.permId ≠ 0 ∧ permKey obs.accountId obs.permId = k
  · rw [if_pos hp, if_pos (hmem.mpr (Or.inl hp))]
    rfl
  · rw [if_neg hp, Option.none_or]
    by_cases hc : obs.clientOrderId ≠ 0 ∧ clientKey obs.accountId I.sessionEpoch obs.clientOrderId = k
    · rw [if_pos hc, if_pos (hmem.mpr (Or.inr hc))]
    · rw [if_neg hc, if_neg fun h => (hmem.mp h).elim hp hc]

theorem idKeys_type {account : String} (h : k ∈ idKeys account session p c) :
    k.accountId = account ∧ (k.aliasType = .permId ∨ k.aliasType = .clientOrderId) := by
  rcases mem_idKeys.mp h with ⟨-, rfl⟩ | ⟨-, rfl⟩
  · exact ⟨rfl, Or.inl rfl⟩
  · exact ⟨rfl, Or.inr rfl⟩

/-! ## What every order of arrival establishes -/

section Run

variable {κ : Type} (I : Ingest) (account : String) (orderOf : OrderObservation → κ) (entity : κ → String)

structure FillSettled (r : Reports) (f : FillObservation) (row : BrokerFillRow) : Prop where
  quantity : row.quantity = f.quantity
  price : row.price = f.price
  permId : row.permId = if f.permId = 0 then none else some f.permId
  clientOrderId : row.clientOrderId = if f.clientOrderId = 0 then none else some f.clientOrderId
  session : row.sessionEpoch = I.sessionEpoch
  bound : ∀ a ∈ r.orders, SharesFill f a → row.orderEntityId = some (entity (orderOf a))
  unbound : (∀ a ∈ r.orders, ¬ SharesFill f a) → row.orderEntityId = none
  commission : ∀ c ∈ r.commissions, c.fill.execId = f.execId →
    row.commission = some c.commission ∧ row.commissionCurrency = some c.currency ∧ row.realizedPnl = c.realizedPnl
  noCommission : (∀ c ∈ r.commissions, c.fill.execId ≠ f.execId) →
    row.commission = none ∧ row.commissionCurrency = none ∧ row.realizedPnl = none

structure Settled (r : Reports) (rows : BrokerRows) : Prop where
  recorded : ∀ f ∈ r.fills, ∃ row, rows.getFill account f.execId = some row ∧ FillSettled I orderOf entity r f row
  only : ∀ execId row, rows.getFill account execId = some row → ∃ f ∈ r.fills, f.execId = execId

structure FillInv (r : Reports) (j : BrokerJournal) : Prop where
  lawful : j.Lawful
  settled : Settled I account orderOf entity r j.tables.own.rows
  bound : ∀ a ∈ r.orders, ∀ k ∈ orderKeys I a, j.tables.own.rows.findOrderByAlias k = some (entity (orderOf a))
  named : ∀ k e, j.tables.own.rows.findOrderByAlias k = some e → k.accountId = account →
    k.aliasType = .permId ∨ k.aliasType = .clientOrderId → ∃ a ∈ r.orders, k ∈ orderKeys I a
  /-- An entity is named or minted by an observation of its order. -/
  minted : ∀ a ∈ r.orders, HasId a → ∃ x ∈ r.orders, HasId x ∧ orderOf x = orderOf a ∧
    ∃ uuid, entity (orderOf a) = nameOrMint x uuid

variable {I account orderOf entity}
variable {r : Reports} {f : FillObservation} {row : BrokerFillRow}

theorem FillSettled.congr {g : FillObservation}
    (h : FillSettled I orderOf entity r f row) (hx : f.execId = g.execId) (hp : f.permId = g.permId)
    (hc : f.clientOrderId = g.clientOrderId) (hq : f.quantity = g.quantity) (hpr : f.price = g.price) :
    FillSettled I orderOf entity r g row where
  quantity := h.quantity.trans hq
  price := h.price.trans hpr
  permId := hp ▸ h.permId
  clientOrderId := hc ▸ h.clientOrderId
  session := h.session
  bound a ha hs := h.bound a ha (by rwa [SharesFill, hp, hc])
  unbound hs := h.unbound fun a ha => by rw [SharesFill, hp, hc]; exact hs a ha
  commission c hc' := by rw [← hx]; exact h.commission c hc'
  noCommission hn := h.noCommission fun c hc' => by rw [hx]; exact hn c hc'

variable {j : BrokerJournal} {e : String}

theorem FillInv.find (h : FillInv I account orderOf entity r j) {k : AliasKey}
    (hf : j.tables.own.rows.findOrderByAlias k = some e) {session : String} {p c : Int}
    (hk : k ∈ idKeys account session p c) : ∃ a ∈ r.orders, k ∈ orderKeys I a ∧ e = entity (orderOf a) := by
  obtain ⟨hacc, htype⟩ := idKeys_type hk
  obtain ⟨a, ha, hka⟩ := h.named k e hf hacc htype
  exact ⟨a, ha, hka, by simpa [hf] using h.bound a ha k hka⟩

/-! ### Fills -/

theorem FillInv.newRow (h : FillInv I account orderOf entity r j)
    (hdef : Definite account orderOf ⟨r.orders, r.fills ++ [f], r.commissions⟩)
    (hfills : ∀ c ∈ r.commissions, c.fill ∈ r.fills) (hnew : j.tables.own.rows.getFill account f.execId = none)
    (revision : Nat) : FillSettled I orderOf entity r f { fillRow I j.tables.own.rows f with revision := revision } := by
  have hf : f ∈ r.fills ++ [f] := List.mem_append_right _ List.mem_cons_self
  have hacc : f.accountId = account := hdef.fillAccount f hf
  have hkeys : fillKeys I f = idKeys account I.sessionEpoch f.permId f.clientOrderId := by rw [fillKeys, hacc]
  have hentity : ({ fillRow I j.tables.own.rows f with revision := revision } : BrokerFillRow).orderEntityId =
      j.tables.own.rows.firstBound (fillKeys I f) := resolveFillOrder_eq I _ f
  have hnocommission : ∀ c ∈ r.commissions, c.fill.execId ≠ f.execId := by
    intro c hc heq
    obtain ⟨row, hrow, -⟩ := h.settled.recorded c.fill (hfills c hc)
    rw [heq, hnew] at hrow
    cases hrow
  refine ⟨rfl, rfl, rfl, rfl, rfl, fun a ha hs => ?_, fun hs => ?_, fun c hc heq => absurd heq (hnocommission c hc),
    fun _ => ⟨rfl, rfl, rfl⟩⟩
  · rw [hentity]
    refine firstBound_eq_some (fun k hk e he => ?_) ?_
    · obtain ⟨b, hb, hkb, rfl⟩ := h.find he (hkeys ▸ hk)
      have hsb : SharesFill f b := (sharesFill_iff I (hacc.trans (hdef.orderAccount b hb).symm)).mpr ⟨k, hk, hkb⟩
      rw [hdef.fills f hf b hb a ha hsb hs]
    · obtain ⟨k, hk, hka⟩ := (sharesFill_iff I (hacc.trans (hdef.orderAccount a ha).symm)).mp hs
      exact ⟨k, hk, by simp [h.bound a ha k hka]⟩
  · rw [hentity]
    refine firstBound_eq_none fun k hk => ?_
    by_contra hne
    obtain ⟨e, he⟩ := Option.ne_none_iff_exists'.mp hne
    obtain ⟨b, hb, hkb, -⟩ := h.find he (hkeys ▸ hk)
    exact hs b hb ((sharesFill_iff I (hacc.trans (hdef.orderAccount b hb).symm)).mpr ⟨k, hk, hkb⟩)

/-- **A fill observation.** -/
theorem FillInv.fill (h : FillInv I account orderOf entity r j)
    (hdef : Definite account orderOf ⟨r.orders, r.fills ++ [f], r.commissions⟩) (hfills : ∀ c ∈ r.commissions, c.fill ∈ r.fills) :
    FillInv I account orderOf entity ⟨r.orders, r.fills ++ [f], r.commissions⟩ ((applyFill I f).autocommit j).2 := by
  have hf : f ∈ r.fills ++ [f] := List.mem_append_right _ List.mem_cons_self
  have hacc : f.accountId = account := hdef.fillAccount f hf
  obtain ⟨j', heq, hlawful, hrows⟩ := applyFill_spec I f h.lawful
  rw [heq]
  rw [hacc] at hrows
  by_cases hknown : (j.tables.own.rows.getFill account f.execId).isSome
  · rw [if_pos hknown] at hrows
    subst hrows
    obtain ⟨row, hrow⟩ := Option.isSome_iff_exists.mp hknown
    obtain ⟨g, hg, hgx⟩ := h.settled.only _ _ hrow
    refine ⟨hlawful, ⟨fun f' hf' => ?_, fun x row hx => ?_⟩, h.bound, h.named, h.minted⟩
    · rcases List.mem_append.mp hf' with hf' | hf'
      · obtain ⟨row', hrow', hs⟩ := h.settled.recorded f' hf'
        exact ⟨row', hrow', { hs with }⟩
      · obtain rfl := List.mem_singleton.mp hf'
        obtain ⟨row', hrow', hs⟩ := h.settled.recorded g hg
        obtain ⟨hp, hc, hq, hpr⟩ := hdef.executions g (List.mem_append_left _ hg) f' hf hgx
        exact ⟨row', hgx ▸ hrow', { hs.congr hgx hp hc hq hpr with }⟩
    · obtain ⟨g, hg, hgx⟩ := h.settled.only x row hx
      exact ⟨g, List.mem_append_left _ hg, hgx⟩
  · rw [if_neg hknown] at hrows
    obtain ⟨revision, hrows⟩ := hrows
    have hnew : j.tables.own.rows.getFill account f.execId = none := by simpa using hknown
    have hkey : ({ fillRow I j.tables.own.rows f with revision := revision } : BrokerFillRow).key =
        (account, f.execId) := by rw [← hacc]; rfl
    have hget : ∀ x, j'.tables.own.rows.getFill account x = if f.execId = x
        then some { fillRow I j.tables.own.rows f with revision := revision } else j.tables.own.rows.getFill account x := by
      intro x
      rw [hrows, getFill_upsertFill, hkey]
      by_cases hx : f.execId = x
      · rw [if_pos hx, if_pos (by rw [hx])]
      · rw [if_neg hx, if_neg fun h => hx (Prod.mk.inj h).2]
    have hal : ∀ k, j'.tables.own.rows.findOrderByAlias k = j.tables.own.rows.findOrderByAlias k := by
      intro k
      rw [hrows]
      rfl
    refine ⟨hlawful, ⟨fun f' hf' => ?_, fun x row hx => ?_⟩, fun a ha k hk => by rw [hal, h.bound a ha k hk],
      fun k e he => h.named k e (by rw [← hal, he]), h.minted⟩
    · rcases List.mem_append.mp hf' with hf' | hf'
      · obtain ⟨row', hrow', hs⟩ := h.settled.recorded f' hf'
        refine ⟨row', ?_, { hs with }⟩
        rw [hget, if_neg, hrow']
        intro heq'
        rw [← heq', hnew] at hrow'
        cases hrow'
      · obtain rfl := List.mem_singleton.mp hf'
        exact ⟨_, by rw [hget, if_pos rfl], { h.newRow hdef hfills hnew revision with }⟩
    · by_cases hfx : f.execId = x
      · exact ⟨f, hf, hfx⟩
      · rw [hget, if_neg hfx] at hx
        obtain ⟨g, hg, hgx⟩ := h.settled.only x row hx
        exact ⟨g, List.mem_append_left _ hg, hgx⟩

/-! ### Commissions -/

/-- **A commission report**, after its fill. -/
theorem FillInv.commission {r : Reports} {j : BrokerJournal} (h : FillInv I account orderOf entity r j)
    {obs : CommissionObservation}
    (hdef : Definite account orderOf ⟨r.orders, r.fills ++ [obs.fill], r.commissions ++ [obs]⟩)
    (hfills : ∀ c ∈ r.commissions, c.fill ∈ r.fills) :
    FillInv I account orderOf entity ⟨r.orders, r.fills ++ [obs.fill], r.commissions ++ [obs]⟩
      ((applyCommission I obs).autocommit j).2 := by
  have hf : obs.fill ∈ r.fills ++ [obs.fill] := List.mem_append_right _ List.mem_cons_self
  have hacc : obs.fill.accountId = account := hdef.fillAccount _ hf
  obtain ⟨j', j'', row, heq, hrow, heq', hlawful, hal, ⟨revision, time, hrow'⟩, hkeep⟩ :=
    applyCommission_spec I obs h.lawful
  have hinv := h.fill (hdef.mono (fun _ ha => ha) (fun _ hf => hf) (List.subset_append_left _ _)) hfills
  rw [heq] at hinv
  rw [heq']
  rw [hacc] at hrow hrow' hkeep
  have hfind : ∀ k, j''.tables.own.rows.findOrderByAlias k = j'.tables.own.rows.findOrderByAlias k :=
    fun k => findOrderByAlias_congr hal k
  have hother : ∀ x, x ≠ obs.fill.execId →
      j''.tables.own.rows.getFill account x = j'.tables.own.rows.getFill account x :=
    fun x hx => hkeep (account, x) fun h => hx (Prod.mk.inj h).2
  refine ⟨hlawful, ⟨fun f hf' => ?_, fun x row hx => ?_⟩, fun a ha k hk => by rw [hfind, hinv.bound a ha k hk],
    fun k e he => hinv.named k e (by rw [← hfind, he]), hinv.minted⟩
  · obtain ⟨row₁, hrow₁, hs⟩ := hinv.settled.recorded f hf'
    by_cases hx : f.execId = obs.fill.execId
    · obtain rfl : row = row₁ := by
        rw [hx, hrow] at hrow₁
        exact Option.some.inj hrow₁
      refine ⟨_, by rw [hx]; exact hrow', ?_⟩
      refine { hs with commission := fun c hc hcx => ?_, noCommission := fun hn => ?_ }
      · obtain ⟨hcc, hcu, hcp⟩ := hdef.commissions obs (List.mem_append_right _ List.mem_cons_self) c hc
          (hx.symm.trans hcx.symm)
        exact ⟨congrArg some hcc, congrArg some hcu, hcp⟩
      · exact absurd hx.symm (hn obs (List.mem_append_right _ List.mem_cons_self))
    · refine ⟨row₁, by rw [hother _ hx, hrow₁], ?_⟩
      refine { hs with commission := fun c hc hcx => ?_, noCommission := fun hn => ?_ }
      · rcases List.mem_append.mp hc with hc | hc
        · exact hs.commission c hc hcx
        · obtain rfl := List.mem_singleton.mp hc
          exact absurd hcx.symm hx
      · exact hs.noCommission fun c hc => hn c (List.mem_append_left _ hc)
  · by_cases hxf : x = obs.fill.execId
    · exact ⟨obs.fill, hf, hxf.symm⟩
    · rw [hother x hxf] at hx
      exact hinv.settled.only x row hx

/-! ### Orders -/

variable {b : OrderObservation}

theorem FillInv.resolve_known (h : FillInv I account orderOf entity r j)
    (hdef : Definite account orderOf ⟨r.orders ++ [b], r.fills, r.commissions⟩) (hid : HasId b)
    {a : OrderObservation} (ha : a ∈ r.orders) (hida : HasId a) (hab : orderOf a = orderOf b) :
    resolveNow I j b = entity (orderOf b) := by
  have hb : b ∈ r.orders ++ [b] := List.mem_append_right _ List.mem_cons_self
  have hleft : ∀ x ∈ r.orders, x ∈ r.orders ++ [b] := fun x hx => List.mem_append_left _ hx
  have hacc : b.accountId = account := hdef.orderAccount b hb
  have hkeys : orderKeys I b = idKeys account I.sessionEpoch b.permId b.clientOrderId := by rw [orderKeys, hacc]
  have hall : ∀ k ∈ orderKeys I b, ∀ e, j.tables.own.rows.findOrderByAlias k = some e → e = entity (orderOf b) := by
    intro k hk e he
    obtain ⟨x, hx, hkx, rfl⟩ := h.find he (hkeys ▸ hk)
    rw [hdef.orders x (hleft x hx) b hb ((shares_iff I ((hdef.orderAccount x (hleft x hx)).trans hacc.symm)).mpr ⟨k, hkx, hk⟩)]
  rw [resolve_eq]
  cases hfirst : j.tables.own.rows.firstBound (orderKeys I b) with
  | some e =>
    obtain ⟨k, hk, hfind⟩ := List.exists_of_findSome?_eq_some hfirst
    exact hall k hk e hfind
  | none =>
    -- not found by its identifiers: it carries the name the entity was given
    obtain ⟨x, hx, hidx, hxa, uuid, hminted⟩ := h.minted a ha hida
    rcases hdef.linked x (hleft x hx) b hb hidx hid (hxa.trans hab) with hs | ⟨group, hgx, hgb, hleg⟩
    · obtain ⟨k, hkx, hkb⟩ := (shares_iff I ((hdef.orderAccount x (hleft x hx)).trans hacc.symm)).mp hs
      have hnone := List.findSome?_eq_none_iff.mp hfirst k hkb
      rw [h.bound x hx k hkx] at hnone
      cases hnone
    · rw [Option.getD_none, ← hab, hminted, nameOrMint, nameOrMint, hgx, hgb]
      simp only [hleg]

theorem FillInv.resolve_unknown (h : FillInv I account orderOf entity r j)
    (hdef : Definite account orderOf ⟨r.orders ++ [b], r.fills, r.commissions⟩)
    (hnew : ∀ a ∈ r.orders, HasId a → orderOf a ≠ orderOf b) : resolveNow I j b = nameOrMint b (I.uuid4 j.tables.own.rows) := by
  have hb : b ∈ r.orders ++ [b] := List.mem_append_right _ List.mem_cons_self
  have hacc : b.accountId = account := hdef.orderAccount b hb
  have hkeys : orderKeys I b = idKeys account I.sessionEpoch b.permId b.clientOrderId := by rw [orderKeys, hacc]
  rw [resolve_eq, firstBound_eq_none, Option.getD_none]
  intro k hk
  by_contra hne
  obtain ⟨e, he⟩ := Option.ne_none_iff_exists'.mp hne
  obtain ⟨x, hx, hkx, -⟩ := h.find he (hkeys ▸ hk)
  have hx' : x ∈ r.orders ++ [b] := List.mem_append_left _ hx
  exact hnew x hx (hasId_of_key hkx)
    (hdef.orders x hx' b hb ((shares_iff I ((hdef.orderAccount x hx').trans hacc.symm)).mpr ⟨k, hkx, hk⟩))

theorem FillInv.exists_entity (h : FillInv I account orderOf entity r j)
    (hdef : Definite account orderOf ⟨r.orders ++ [b], r.fills, r.commissions⟩) :
    ∃ entity' : κ → String, (∀ a ∈ r.orders, HasId a → entity' (orderOf a) = entity (orderOf a)) ∧
      (HasId b → entity' (orderOf b) = resolveNow I j b) ∧
      (HasId b → ∃ x ∈ r.orders ++ [b], HasId x ∧ orderOf x = orderOf b ∧
        ∃ uuid, entity' (orderOf b) = nameOrMint x uuid) := by
  classical
  by_cases hid : HasId b
  · by_cases hknown : ∃ a ∈ r.orders, HasId a ∧ orderOf a = orderOf b
    · obtain ⟨a, ha, hida, hab⟩ := hknown
      refine ⟨entity, fun _ _ _ => rfl, fun _ => (h.resolve_known hdef hid ha hida hab).symm, fun _ => ?_⟩
      obtain ⟨x, hx, hidx, hxa, uuid, hminted⟩ := h.minted a ha hida
      exact ⟨x, List.mem_append_left _ hx, hidx, hxa.trans hab, uuid, hab ▸ hminted⟩
    · have hnew : ∀ a ∈ r.orders, HasId a → orderOf a ≠ orderOf b := fun a ha hida hab => hknown ⟨a, ha, hida, hab⟩
      refine ⟨Function.update entity (orderOf b) (resolveNow I j b), fun a ha hida => ?_, fun _ => ?_, fun _ => ?_⟩
      · rw [Function.update_of_ne (hnew a ha hida)]
      · rw [Function.update_self]
      · refine ⟨b, List.mem_append_right _ List.mem_cons_self, hid, rfl, I.uuid4 j.tables.own.rows, ?_⟩
        rw [Function.update_self, h.resolve_unknown hdef hnew]
  · exact ⟨entity, fun _ _ _ => rfl, fun h => absurd h hid, fun h => absurd h hid⟩

theorem fillMatches_iff (hs : FillSettled I orderOf entity r f row) : fillMatches I b row = true ↔ SharesFill f b := by
  have hp : (row.permId = some b.permId ∧ b.permId ≠ 0) ↔ f.permId ≠ 0 ∧ f.permId = b.permId := by
    rw [hs.permId]
    by_cases hf : f.permId = 0
    · simp [hf]
    · rw [if_neg hf]
      constructor
      · rintro ⟨heq, -⟩
        exact ⟨hf, Option.some.inj heq⟩
      · rintro ⟨-, heq⟩
        exact ⟨congrArg some heq, heq ▸ hf⟩
  have hc : (row.clientOrderId = some b.clientOrderId ∧ b.clientOrderId ≠ 0) ↔
      f.clientOrderId ≠ 0 ∧ f.clientOrderId = b.clientOrderId := by
    rw [hs.clientOrderId]
    by_cases hf : f.clientOrderId = 0
    · simp [hf]
    · rw [if_neg hf]
      constructor
      · rintro ⟨heq, -⟩
        exact ⟨hf, Option.some.inj heq⟩
      · rintro ⟨-, heq⟩
        exact ⟨congrArg some heq, heq ▸ hf⟩
  rw [SharesFill, ← hp, ← hc]
  simp only [fillMatches, hs.session, BEq.rfl, Bool.and_true, Bool.or_eq_true, Bool.and_eq_true, decide_eq_true_eq,
    beq_iff_eq, ne_eq]
  exact or_congr and_comm and_comm

variable {row' : BrokerFillRow} {entity' : κ → String}

theorem FillSettled.order (hf : f ∈ r.fills) (hs : FillSettled I orderOf entity r f row)
    (hdef : Definite account orderOf ⟨r.orders ++ [b], r.fills, r.commissions⟩) (hacc : row.accountId = b.accountId)
    (hold : ∀ a ∈ r.orders, HasId a → entity' (orderOf a) = entity (orderOf a))
    (hnew : HasId b → entity' (orderOf b) = resolveNow I j b) (hre : Rebound I b (resolveNow I j b) row row') :
    FillSettled I orderOf entity' ⟨r.orders ++ [b], r.fills, r.commissions⟩ f row' := by
  have hb : b ∈ r.orders ++ [b] := List.mem_append_right _ List.mem_cons_self
  have hleft : ∀ x ∈ r.orders, x ∈ r.orders ++ [b] := fun x hx => List.mem_append_left _ hx
  have hid : ∀ a, SharesFill f a → HasId a := by
    rintro a (⟨hp, heq⟩ | ⟨hc, heq⟩)
    · exact Or.inl (heq ▸ hp)
    · exact Or.inr (heq ▸ hc)
  unfold Rebound at hre
  split at hre
  · rename_i hm
    obtain ⟨-, hnone, hm⟩ := hm
    obtain ⟨revision, rfl⟩ := hre
    have hsb : SharesFill f b := (fillMatches_iff hs).mp hm
    refine ⟨hs.quantity, hs.price, hs.permId, hs.clientOrderId, hs.session, fun a ha hsa => ?_, fun hno => ?_,
      hs.commission, hs.noCommission⟩
    · rw [hdef.fills f hf a ha b hb hsa hsb, hnew (hid b hsb)]
      rfl
    · exact absurd hsb (hno b hb)
  · rename_i hm
    subst hre
    have hseen : ∀ a ∈ r.orders, SharesFill f a → row'.orderEntityId = some (entity' (orderOf a)) := fun a ha hsa => by
      rw [hold a ha (hid a hsa), hs.bound a ha hsa]
    refine ⟨hs.quantity, hs.price, hs.permId, hs.clientOrderId, hs.session, fun a ha hsa => ?_, fun hno => ?_,
      hs.commission, hs.noCommission⟩
    · rcases List.mem_append.mp ha with ha | ha
      · exact hseen a ha hsa
      · obtain rfl := List.mem_singleton.mp ha
        by_cases hany : ∃ x ∈ r.orders, SharesFill f x
        · obtain ⟨x, hx, hsx⟩ := hany
          rw [← hdef.fills f hf x (hleft x hx) a hb hsx hsa]
          exact hseen x hx hsx
        · refine absurd ⟨hacc, hs.unbound fun x hx hsx => hany ⟨x, hx, hsx⟩, (fillMatches_iff hs).mpr hsa⟩ hm
    · exact hs.unbound fun a ha => hno a (hleft a ha)

/-- **An order observation.** -/
theorem FillInv.order (h : FillInv I account orderOf entity r j)
    (generation : Option Nat) (hdef : Definite account orderOf ⟨r.orders ++ [b], r.fills, r.commissions⟩) :
    ∃ entity' : κ → String, (∀ a ∈ r.orders, HasId a → entity' (orderOf a) = entity (orderOf a)) ∧
      (HasId b → resolveNow I j b = entity' (orderOf b)) ∧
      FillInv I account orderOf entity' ⟨r.orders ++ [b], r.fills, r.commissions⟩
        ((applyOrder I b generation).autocommit j).2 := by
  obtain ⟨entity', hold, hnew, hminted⟩ := h.exists_entity hdef
  have hb : b ∈ r.orders ++ [b] := List.mem_append_right _ List.mem_cons_self
  have hleft : ∀ x ∈ r.orders, x ∈ r.orders ++ [b] := fun x hx => List.mem_append_left _ hx
  have hacc : b.accountId = account := hdef.orderAccount b hb
  obtain ⟨changed, j', heq, hlawful, hal, hnone, hsome⟩ := applyOrder_spec I b generation h.lawful
  have hfind : ∀ k : AliasKey, k.aliasType = .permId ∨ k.aliasType = .clientOrderId →
      j'.tables.own.rows.findOrderByAlias k = (j.tables.own.rows.findOrderByAlias k).or
        (if k ∈ orderKeys I b then some (resolveNow I j b) else none) := fun k hk => by
    rw [findOrderByAlias_congr hal, bindAliases_idKey I _ _ _ hk]
  refine ⟨entity', hold, fun hid => (hnew hid).symm, ?_⟩
  rw [heq]
  refine ⟨hlawful, ⟨fun f hf => ?_, fun x row hx => ?_⟩, fun a ha k hk => ?_, fun k e he hka hkt => ?_, fun a ha hid => ?_⟩
  · obtain ⟨row, hrow, hs⟩ := h.settled.recorded f hf
    obtain ⟨row', hrow', hre⟩ := hsome _ row hrow
    refine ⟨row', hrow', FillSettled.order (r := r) hf hs hdef ?_ hold hnew hre⟩
    rw [hacc, (getFill_mem.mp hrow).2.1]
  · cases hbefore : j.tables.own.rows.getFill account x with
    | none =>
      have hafter : j'.tables.own.rows.getFill account x = none := hnone _ hbefore
      rw [hafter] at hx
      cases hx
    | some row => exact h.settled.only x row hbefore
  · rw [hfind k (idKeys_type hk).2]
    rcases List.mem_append.mp ha with ha | ha
    · rw [h.bound a ha k hk, hold a ha (hasId_of_key hk)]
      rfl
    · obtain rfl := List.mem_singleton.mp ha
      rw [if_pos hk, hnew (hasId_of_key hk)]
      cases hbefore : j.tables.own.rows.findOrderByAlias k with
      | none => rfl
      | some e =>
        have hk' : k ∈ idKeys account I.sessionEpoch a.permId a.clientOrderId := by
          rw [← hacc]
          exact hk
        obtain ⟨x, hx, hkx, rfl⟩ := h.find hbefore hk'
        have hxa : orderOf x = orderOf a := hdef.orders x (hleft x hx) a hb
          ((shares_iff I ((hdef.orderAccount x (hleft x hx)).trans hacc.symm)).mpr ⟨k, hkx, hk⟩)
        rw [Option.some_or, ← hnew (hasId_of_key hk), ← hxa, hold x hx (hasId_of_key hkx)]
  · rw [hfind k hkt] at he
    by_cases hkb : k ∈ orderKeys I b
    · exact ⟨b, hb, hkb⟩
    · rw [if_neg hkb, Option.or_none] at he
      obtain ⟨a, ha, hk⟩ := h.named k e he hka hkt
      exact ⟨a, hleft a ha, hk⟩
  · rcases List.mem_append.mp ha with ha | ha
    · obtain ⟨x, hx, hidx, hxa, uuid, hm⟩ := h.minted a ha hid
      exact ⟨x, hleft x hx, hidx, hxa, uuid, (hold a ha hid).trans hm⟩
    · obtain rfl := List.mem_singleton.mp ha
      exact hminted hid

/-! ### Runs -/

variable {l : List Callback}

theorem reports_fills {c : CommissionObservation} (h : c ∈ (reports l).commissions) : c.fill ∈ (reports l).fills := by
  obtain ⟨callback, hc, hmem⟩ := List.mem_flatMap.mp h
  refine List.mem_flatMap.mpr ⟨callback, hc, ?_⟩
  cases callback with
  | order obs generation => cases hmem
  | fill obs => cases hmem
  | commission obs =>
    obtain rfl := List.mem_singleton.mp hmem
    exact List.mem_cons_self

/-- **One callback.** -/
theorem FillInv.step (h : FillInv I account orderOf entity (reports l) j)
    (c : Callback) (hdef : Definite account orderOf (reports (l ++ [c]))) :
    ∃ entity' : κ → String, (∀ a ∈ (reports l).orders, HasId a → entity' (orderOf a) = entity (orderOf a)) ∧
      (∀ obs generation, c = .order obs generation → HasId obs → resolveNow I j obs = entity' (orderOf obs)) ∧
      FillInv I account orderOf entity' (reports (l ++ [c])) (callbackStep I j c) := by
  rw [reports_concat] at hdef ⊢
  cases c with
  | order obs generation =>
    simp only [Callback.orders, Callback.fills, Callback.commissions, List.append_nil] at hdef ⊢
    obtain ⟨entity', hold, hnew, hinv⟩ := h.order generation hdef
    refine ⟨entity', hold, fun obs' generation' heq => ?_, hinv⟩
    cases heq
    exact hnew
  | fill obs =>
    simp only [Callback.orders, Callback.fills, Callback.commissions, List.append_nil] at hdef ⊢
    exact ⟨entity, fun _ _ _ => rfl, fun _ _ heq => (nomatch heq), h.fill hdef fun _ hc => reports_fills hc⟩
  | commission obs =>
    simp only [Callback.orders, Callback.fills, Callback.commissions, List.append_nil] at hdef ⊢
    exact ⟨entity, fun _ _ _ => rfl, fun _ _ heq => (nomatch heq), h.commission hdef fun _ hc => reports_fills hc⟩

variable (account) in
/-- Nothing of the account is known yet. -/
structure Unseen (rows : BrokerRows) : Prop where
  fills : ∀ execId, rows.getFill account execId = none
  aliases : ∀ k : AliasKey, k.accountId = account → rows.findOrderByAlias k = none

variable (I orderOf entity) in
/-- Every order observation with an identifier went to its order's entity. -/
def ResolvedTo (j : BrokerJournal) (l : List Callback) : Prop :=
  ∀ pre obs generation rest, l = pre ++ .order obs generation :: rest → HasId obs →
    resolveNow I (pre.foldl (callbackStep I) j) obs = entity (orderOf obs)

/-- **Every run of callbacks.** -/
theorem FillInv.run (hj : j.Lawful) (hnew : Unseen account j.tables.own.rows) (l : List Callback)
    (hdef : Definite account orderOf (reports l)) : ∃ entity : κ → String,
      FillInv I account orderOf entity (reports l) (l.foldl (callbackStep I) j) ∧ ResolvedTo I orderOf entity j l := by
  induction l using List.reverseRecOn with
  | nil =>
    refine ⟨fun _ => "", ⟨hj, ⟨fun f hf => (by cases hf), fun x row hx => ?_⟩, fun a ha => (by cases ha),
      fun k e he hk _ => ?_, fun a ha => (by cases ha)⟩, fun pre obs generation rest heq => ?_⟩
    · rw [List.foldl_nil, hnew.fills] at hx
      cases hx
    · rw [List.foldl_nil, hnew.aliases k hk] at he
      cases he
    · simp at heq
  | append_singleton l c ih =>
    have hsub : Definite account orderOf (reports l) := by
      rw [reports_concat] at hdef
      exact hdef.mono (List.subset_append_left _ _) (List.subset_append_left _ _) (List.subset_append_left _ _)
    obtain ⟨entity, hinv, hres⟩ := ih hsub
    obtain ⟨entity', hold, hlast, hinv'⟩ := hinv.step c hdef
    refine ⟨entity', by rw [List.foldl_append]; exact hinv', fun pre obs generation rest heq hid => ?_⟩
    rcases List.eq_nil_or_concat rest with rfl | ⟨rest', d, rfl⟩
    · obtain ⟨rfl, hc⟩ := List.append_inj' heq rfl
      exact hlast obs generation (List.singleton_inj.mp hc) hid
    · rw [List.concat_eq_append, ← List.cons_append, ← List.append_assoc] at heq
      obtain ⟨rfl, -⟩ := List.append_inj' heq rfl
      rw [hres pre obs generation rest' rfl hid, hold obs ?_ hid]
      exact List.mem_flatMap.mpr ⟨_, List.mem_append_right _ List.mem_cons_self, List.mem_cons_self⟩

/-! ### Bindings -/

theorem callbackStep_lawful (I : Ingest) (hj : j.Lawful) (c : Callback) : (callbackStep I j c).Lawful := by
  cases c with
  | order obs generation => exact Journal.autocommit_lawful _ hj
  | fill obs => exact Journal.autocommit_lawful _ hj
  | commission obs => exact Journal.autocommit_lawful _ hj

def BoundFill (account execId : String) (e : String) (rows : BrokerRows) : Prop :=
  ∃ row, rows.getFill account execId = some row ∧ row.orderEntityId = some e

variable {x : String}

theorem applyFill_keepsBinding (I : Ingest) (hj : j.Lawful) (obs : FillObservation)
    (h : BoundFill account x e j.tables.own.rows) : BoundFill account x e ((applyFill I obs).autocommit j).2.tables.own.rows := by
  obtain ⟨j', heq, -, hrows⟩ := applyFill_spec I obs hj
  rw [heq]
  obtain ⟨row, hrow, he⟩ := h
  split at hrows
  · subst hrows
    exact ⟨row, hrow, he⟩
  · rename_i hnew
    obtain ⟨revision, hrows⟩ := hrows
    refine ⟨row, ?_, he⟩
    rw [hrows, getFill_upsertFill, if_neg, hrow]
    intro hkey
    obtain ⟨rfl, rfl⟩ := Prod.mk.inj hkey
    exact hnew (Option.isSome_iff_exists.mpr ⟨row, hrow⟩)

/-- **A bound fill stays bound to its order.** -/
theorem callbackStep_keepsBinding (I : Ingest) (hj : j.Lawful) (c : Callback)
    (h : BoundFill account x e j.tables.own.rows) : BoundFill account x e (callbackStep I j c).tables.own.rows := by
  cases c with
  | order obs generation =>
    obtain ⟨changed, j', heq, -, -, -, hsome⟩ := applyOrder_spec I obs generation hj
    obtain ⟨row, hrow, he⟩ := h
    obtain ⟨row', hrow', hre⟩ := hsome _ row hrow
    rw [Rebound, if_neg] at hre
    · subst hre
      rw [callbackStep, heq]
      exact ⟨row', hrow', he⟩
    · rintro ⟨-, hnone, -⟩
      rw [he] at hnone
      cases hnone
  | fill obs => exact applyFill_keepsBinding I hj obs h
  | commission obs =>
    obtain ⟨j', j'', row₁, heq, hrow₁, heq', -, -, ⟨revision, time, hrow''⟩, hkeep⟩ := applyCommission_spec I obs hj
    obtain ⟨row, hrow, he⟩ : BoundFill account x e j'.tables.own.rows := by
      have hfill := applyFill_keepsBinding I hj obs.fill h
      rwa [heq] at hfill
    rw [callbackStep, heq']
    by_cases hk : (account, x) = (obs.fill.accountId, obs.fill.execId)
    · obtain ⟨rfl, rfl⟩ := Prod.mk.inj hk
      obtain rfl : row₁ = row := Option.some.inj (hrow₁.symm.trans hrow)
      exact ⟨_, hrow'', he⟩
    · exact ⟨row, (hkeep _ hk).trans hrow, he⟩

theorem binding_kept (I : Ingest) (hj : j.Lawful) (l : List Callback)
    (h : BoundFill account x e j.tables.own.rows) : BoundFill account x e (l.foldl (callbackStep I) j).tables.own.rows := by
  induction l generalizing j with
  | nil => exact h
  | cons c l ih => exact ih (callbackStep_lawful I hj c) (callbackStep_keepsBinding I hj c h)

theorem callbacks_lawful (I : Ingest) (hj : j.Lawful) (l : List Callback) : (l.foldl (callbackStep I) j).Lawful := by
  induction l generalizing j with
  | nil => exact hj
  | cons c l ih => exact ih (callbackStep_lawful I hj c)

/-! ## Any order of arrival -/

variable (I account orderOf entity) in
/-- What is promised of one order of arrival. -/
structure FillOutcome (j : BrokerJournal) (l : List Callback) : Prop where
  /-- One row for each execution. -/
  once : ∀ f ∈ (reports l).fills, ∃! row, row ∈ (l.foldl (callbackStep I) j).tables.own.rows.fills.rows ∧
    row.accountId = account ∧ row.execId = f.execId
  settled : Settled I account orderOf entity (reports l) (l.foldl (callbackStep I) j).tables.own.rows
  resolved : ResolvedTo I orderOf entity j l
  /-- A binding never changes. -/
  kept : ∀ pre, pre <+: l → ∀ x e, BoundFill account x e (pre.foldl (callbackStep I) j).tables.own.rows →
    BoundFill account x e (l.foldl (callbackStep I) j).tables.own.rows

variable (orderOf entity) in
/-- The same fill after two orders of arrival; the order may have been named differently. -/
structure SameFill (entity' : κ → String) (row row' : BrokerFillRow) : Prop where
  quantity : row.quantity = row'.quantity
  price : row.price = row'.price
  commission : row.commission = row'.commission ∧ row.commissionCurrency = row'.commissionCurrency ∧
    row.realizedPnl = row'.realizedPnl
  order : row.orderEntityId = none ∧ row'.orderEntityId = none ∨
    ∃ a, row.orderEntityId = some (entity (orderOf a)) ∧ row'.orderEntityId = some (entity' (orderOf a))

theorem fill_outcome (I : Ingest) (hj : j.Lawful) (hnew : Unseen account j.tables.own.rows) (l : List Callback)
    (hdef : Definite account orderOf (reports l)) : ∃ entity : κ → String, FillOutcome I account orderOf entity j l := by
  obtain ⟨entity, hinv, hres⟩ := FillInv.run (I := I) hj hnew l hdef
  refine ⟨entity, fun f hf => ?_, hinv.settled, hres, ?_⟩
  · obtain ⟨row, hrow, -⟩ := hinv.settled.recorded f hf
    refine ⟨row, getFill_mem.mp hrow, fun row' hrow' => ?_⟩
    exact Option.some.inj ((getFill_mem.mpr hrow').symm.trans hrow)
  · rintro pre ⟨rest, rfl⟩ x e h
    rw [List.foldl_append]
    exact binding_kept I (callbacks_lawful I hj pre) rest h

theorem FillSettled.same {r' : Reports} (ho : ∀ a, a ∈ r'.orders ↔ a ∈ r.orders)
    (hc : ∀ c, c ∈ r'.commissions ↔ c ∈ r.commissions)
    (h : FillSettled I orderOf entity r f row) (h' : FillSettled I orderOf entity' r' f row') :
    SameFill orderOf entity entity' row row' := by
  refine ⟨h.quantity.trans h'.quantity.symm, h.price.trans h'.price.symm, ?_, ?_⟩
  · by_cases hany : ∃ c ∈ r.commissions, c.fill.execId = f.execId
    · obtain ⟨c, hcm, hcx⟩ := hany
      obtain ⟨hcc, hcu, hcp⟩ := h.commission c hcm hcx
      obtain ⟨hcc', hcu', hcp'⟩ := h'.commission c ((hc c).mpr hcm) hcx
      exact ⟨hcc.trans hcc'.symm, hcu.trans hcu'.symm, hcp.trans hcp'.symm⟩
    · obtain ⟨hcc, hcu, hcp⟩ := h.noCommission fun c hcm hcx => hany ⟨c, hcm, hcx⟩
      obtain ⟨hcc', hcu', hcp'⟩ := h'.noCommission fun c hcm hcx => hany ⟨c, (hc c).mp hcm, hcx⟩
      exact ⟨hcc.trans hcc'.symm, hcu.trans hcu'.symm, hcp.trans hcp'.symm⟩
  · by_cases hany : ∃ a ∈ r.orders, SharesFill f a
    · obtain ⟨a, ha, hs⟩ := hany
      exact Or.inr ⟨a, h.bound a ha hs, h'.bound a ((ho a).mpr ha) hs⟩
    · exact Or.inl ⟨h.unbound fun a ha hs => hany ⟨a, ha, hs⟩, h'.unbound fun a ha hs => hany ⟨a, (ho a).mp ha, hs⟩⟩

/-- **The same callbacks in another order, or repeated, end with the same fills.** -/
theorem fills_recorded_once (I : Ingest) (account : String) (orderOf : OrderObservation → κ) {l l' : List Callback}
    (hdef : Definite account orderOf (reports l)) (hmem : ∀ c, c ∈ l' ↔ c ∈ l) {j : BrokerJournal} (hj : j.Lawful)
    (hnew : Unseen account j.tables.own.rows) : ∃ entity entity' : κ → String,
      FillOutcome I account orderOf entity j l ∧ FillOutcome I account orderOf entity' j l' ∧
      ∀ execId, Option.Rel (SameFill orderOf entity entity')
        ((l.foldl (callbackStep I) j).tables.own.rows.getFill account execId)
        ((l'.foldl (callbackStep I) j).tables.own.rows.getFill account execId) := by
  have ho : ∀ a, a ∈ (reports l').orders ↔ a ∈ (reports l).orders := fun a => by simp [reports, hmem]
  have hf : ∀ f, f ∈ (reports l').fills ↔ f ∈ (reports l).fills := fun f => by simp [reports, hmem]
  have hc : ∀ c, c ∈ (reports l').commissions ↔ c ∈ (reports l).commissions := fun c => by simp [reports, hmem]
  have hdef' : Definite account orderOf (reports l') :=
    hdef.mono (fun a => (ho a).mp) (fun f => (hf f).mp) (fun c => (hc c).mp)
  obtain ⟨entity, hout⟩ := fill_outcome I hj hnew l hdef
  obtain ⟨entity', hout'⟩ := fill_outcome I hj hnew l' hdef'
  refine ⟨entity, entity', hout, hout', fun x => ?_⟩
  by_cases hany : ∃ f ∈ (reports l).fills, f.execId = x
  · obtain ⟨f, hfm, rfl⟩ := hany
    obtain ⟨row, hrow, hs⟩ := hout.settled.recorded f hfm
    obtain ⟨row', hrow', hs'⟩ := hout'.settled.recorded f ((hf f).mpr hfm)
    rw [hrow, hrow']
    exact .some (hs.same ho hc hs')
  · have hnone : (l.foldl (callbackStep I) j).tables.own.rows.getFill account x = none := by
      by_contra hne
      obtain ⟨row, hrow⟩ := Option.ne_none_iff_exists'.mp hne
      exact hany (hout.settled.only x row hrow)
    have hnone' : (l'.foldl (callbackStep I) j).tables.own.rows.getFill account x = none := by
      by_contra hne
      obtain ⟨row, hrow⟩ := Option.ne_none_iff_exists'.mp hne
      obtain ⟨f, hfm, hfx⟩ := hout'.settled.only x row hrow
      exact hany ⟨f, (hf f).mp hfm, hfx⟩
    rw [hnone, hnone']
    exact .none

end Run

/-! ## Lists of callbacks -/

section Arrival

/-- A working order with these identifiers. -/
def orderSeen (clientOrderId permId : Int) : OrderObservation :=
  ⟨"DU1", clientOrderId, permId, 0, none, 265598, "AAPL", "BUY", "LMT", 10, some 100, none, some "DAY", "Submitted", 0, none,
    demoTime, none, none, false⟩

/-- An execution with these identifiers. -/
def fillSeen (execId : String) (clientOrderId permId : Int) (price : ℚ) : FillObservation :=
  ⟨"DU1", execId, permId, clientOrderId, 265598, "BOT", 10, price, demoTime, demoTime⟩

def commissionSeen (fill : FillObservation) : CommissionObservation := ⟨fill, 1, "USD", none⟩

/-- The row of an execution after these callbacks on a new database. -/
def rowAfter (execId : String) (l : List Callback) : Option BrokerFillRow :=
  (l.foldl (callbackStep (longIngest demoTime)) (JournalState.empty (BrokerDb.empty PyValue))).tables.own.rows.getFill
    "DU1" execId

/-- An order that gets its perm id late, and its fill before both. -/
theorem fills_recorded_once_sample : ∃ entity entity' : Unit → String,
    FillOutcome (longIngest demoTime) "DU1" (fun _ => ()) entity (JournalState.empty (BrokerDb.empty PyValue))
      [.commission (commissionSeen (fillSeen "e1" 0 100 99)), .order (orderSeen 5 0) none, .order (orderSeen 5 100) none] ∧
    FillOutcome (longIngest demoTime) "DU1" (fun _ => ()) entity' (JournalState.empty (BrokerDb.empty PyValue))
      [.order (orderSeen 5 100) none, .order (orderSeen 5 0) none, .commission (commissionSeen (fillSeen "e1" 0 100 99))] ∧
    ∀ execId, Option.Rel (SameFill (fun _ => ()) entity entity')
      (rowAfter execId [.commission (commissionSeen (fillSeen "e1" 0 100 99)), .order (orderSeen 5 0) none,
        .order (orderSeen 5 100) none])
      (rowAfter execId [.order (orderSeen 5 100) none, .order (orderSeen 5 0) none,
        .commission (commissionSeen (fillSeen "e1" 0 100 99))]) := by
  refine fills_recorded_once (longIngest demoTime) "DU1" (fun _ => ()) ?_ (fun c => ?_) (JournalState.lawful_empty _)
    ⟨fun _ => rfl, fun _ _ => rfl⟩
  · refine ⟨⟨by decide, by decide, fun _ _ _ _ _ => rfl, fun _ _ _ _ _ _ _ _ => rfl, by decide⟩, ?_, by decide⟩
    intro a ha b hb _ _ _
    have hclient : ∀ x ∈ [orderSeen 5 0, orderSeen 5 100], x.clientOrderId = 5 := by decide
    exact Or.inl (Or.inr ⟨by rw [hclient a ha]; decide, (hclient a ha).trans (hclient b hb).symm⟩)
  · simp only [List.mem_cons, List.not_mem_nil, or_false]
    exact ⟨fun h => by rcases h with h | h | h <;> simp [h], fun h => by rcases h with h | h | h <;> simp [h]⟩

/-- **Where the reports are not definite the order of arrival shows**: an execution reported with two
    prices or with two identifiers keeps the first, and an order first seen under its order id and
    under its perm id alone becomes two. -/
theorem arrival_order_shows :
    (Consistent "DU1" (fun _ => ()) (reports [.fill (fillSeen "e1" 5 100 10), .fill (fillSeen "e1" 5 100 11)]) ∧
      (rowAfter "e1" [.fill (fillSeen "e1" 5 100 10), .fill (fillSeen "e1" 5 100 11)]).map (·.price) = some 10 ∧
      (rowAfter "e1" [.fill (fillSeen "e1" 5 100 11), .fill (fillSeen "e1" 5 100 10)]).map (·.price) = some 11) ∧
    (Consistent "DU1" (fun _ => ())
        (reports [.fill (fillSeen "e1" 5 0 10), .fill (fillSeen "e1" 0 100 10), .order (orderSeen 0 100) none]) ∧
      (rowAfter "e1" [.fill (fillSeen "e1" 5 0 10), .fill (fillSeen "e1" 0 100 10), .order (orderSeen 0 100) none]).map
        (·.orderEntityId.isSome) = some false ∧
      (rowAfter "e1" [.fill (fillSeen "e1" 0 100 10), .fill (fillSeen "e1" 5 0 10), .order (orderSeen 0 100) none]).map
        (·.orderEntityId.isSome) = some true) ∧
    (Consistent "DU1" (fun _ => ()) (reports [.order (orderSeen 5 0) none, .order (orderSeen 0 100) none,
        .order (orderSeen 5 100) none, .fill (fillSeen "e1" 5 0 10), .fill (fillSeen "e2" 0 100 10)]) ∧
      (rowAfter "e1" [.order (orderSeen 5 0) none, .order (orderSeen 0 100) none, .order (orderSeen 5 100) none,
          .fill (fillSeen "e1" 5 0 10), .fill (fillSeen "e2" 0 100 10)]).map (·.orderEntityId) ≠
        (rowAfter "e2" [.order (orderSeen 5 0) none, .order (orderSeen 0 100) none, .order (orderSeen 5 100) none,
          .fill (fillSeen "e1" 5 0 10), .fill (fillSeen "e2" 0 100 10)]).map (·.orderEntityId) ∧
      (rowAfter "e1" [.order (orderSeen 5 100) none, .order (orderSeen 5 0) none, .order (orderSeen 0 100) none,
          .fill (fillSeen "e1" 5 0 10), .fill (fillSeen "e2" 0 100 10)]).map (·.orderEntityId) =
        (rowAfter "e2" [.order (orderSeen 5 100) none, .order (orderSeen 5 0) none, .order (orderSeen 0 100) none,
          .fill (fillSeen "e1" 5 0 10), .fill (fillSeen "e2" 0 100 10)]).map (·.orderEntityId)) := by
  refine ⟨⟨?_, ?_, ?_⟩, ⟨?_, ?_, ?_⟩, ?_, ?_, ?_⟩
  · exact ⟨by decide, by decide, fun _ _ _ _ _ => rfl, fun _ _ _ _ _ _ _ _ => rfl, by decide⟩
  · decide +kernel
  · decide +kernel
  · exact ⟨by decide, by decide, fun _ _ _ _ _ => rfl, fun _ _ _ _ _ _ _ _ => rfl, by decide⟩
  · decide +kernel
  · decide +kernel
  · exact ⟨by decide, by decide, fun _ _ _ _ _ => rfl, fun _ _ _ _ _ _ _ _ => rfl, by decide⟩
  · decide +kernel
  · decide +kernel

end Arrival

end MmrTrader.Broker
