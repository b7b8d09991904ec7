import MmrTrader.Broker.ApplySteps
import MmrTrader.Lib.GuardedRun

/-!
# Order identity over a session's observations

* `bindAliases_spec` — what binding the identifiers of one observation adds to the alias table;
* `identity_kept_iff` — over every sequence of observations: perm ids and entities stay one to one
  exactly when no observation with a new perm id finds, by its order id or by group and leg, an
  entity that already has a perm id.
-/

namespace MmrTrader.Broker

open MmrTrader.Lib
open MmrTrader.Journal (Work JournalState autocommit_bind autocommit_keeps autocommit_lawful)

/-! ## Binding -/

theorem permKey_inj {a : String} {p q : Int} (h : permKey a p = permKey a q) : p = q := by
  have htext : toString p = toString q := by
    simpa [permKey] using h
  rw [← parseInt_toString p, htext, parseInt_toString]

theorem bindAlias_find (db : BrokerRows) (key k : AliasKey) (entity : String) (boundAt : Int) :
    (db.bindAlias key entity boundAt).findOrderByAlias k =
      (db.findOrderByAlias k).or (if key = k then some entity else none) := by
  unfold BrokerRows.bindAlias BrokerRows.findOrderByAlias
  split
  · rename_i aliases h
    have hnone : db.aliases.get? key = none := (Table.insert?_eq_some h).1
    simp only [Table.get?_insert? h]
    by_cases hk : key = k
    · subst hk
      simp [hnone]
    · simp [hk]
  · rename_i h
    by_cases hk : key = k
    · subst hk
      cases hg : db.aliases.get? key with
      | some row => simp
      | none =>
        obtain ⟨t, ht⟩ := Table.insert?_isSome (t := db.aliases) (r := ⟨key, entity, boundAt⟩) hg
        rw [ht] at h
        cases h
    · simp [hk]

theorem bindWhen_find (db : BrokerRows) (present : Bool) (key k : AliasKey) (entity : String) (boundAt : Int) :
    (db.bindWhen present key entity boundAt).findOrderByAlias k =
      (db.findOrderByAlias k).or (if present = true ∧ key = k then some entity else none) := by
  unfold BrokerRows.bindWhen
  split
  · rename_i hp
    rw [bindAlias_find]
    simp [hp]
  · rename_i hp
    simp [hp]

variable {k : AliasKey} {e : String}

theorem bindAliases_keeps (session : String) (db : BrokerRows) (entity : String) (obs : OrderObservation)
    (h : db.findOrderByAlias k = some e) : (bindAliases session db entity obs).findOrderByAlias k = some e := by
  unfold bindAliases
  cases obs.orderRef with
  | none => simp [bindWhen_find, h]
  | some ref => simp [bindWhen_find, h]

theorem bindAliases_perm (session : String) (db : BrokerRows) (entity : String) (obs : OrderObservation)
    (hp : obs.permId ≠ 0) : (bindAliases session db entity obs).findOrderByAlias (permKey obs.accountId obs.permId) =
      some ((db.findOrderByAlias (permKey obs.accountId obs.permId)).getD entity) := by
  unfold bindAliases
  cases hf : db.findOrderByAlias (permKey obs.accountId obs.permId) with
  | none =>
    cases obs.orderRef with
    | none => simp [bindWhen_find, hf, hp]
    | some ref => simp [bindWhen_find, hf, hp]
  | some e =>
    cases obs.orderRef with
    | none => simp [bindWhen_find, hf]
    | some ref => simp [bindWhen_find, hf]

variable {db : BrokerRows} {entity : String}
variable {r : AliasRow}

theorem mem_bindWhen {present : Bool} {key : AliasKey} {boundAt : Int}
    (h : r ∈ (db.bindWhen present key entity boundAt).aliases.rows) :
    r ∈ db.aliases.rows ∨ present = true ∧ db.findOrderByAlias key = none ∧ r = ⟨key, entity, boundAt⟩ := by
  unfold BrokerRows.bindWhen at h
  split at h
  · rename_i hp
    unfold BrokerRows.bindAlias at h
    split at h
    · rename_i aliases hins
      rcases (Table.mem_insert? hins).mp h with h | h
      · exact Or.inl h
      · have hnone : db.aliases.get? key = none := (Table.insert?_eq_some hins).1
        exact Or.inr ⟨hp, by simp [BrokerRows.findOrderByAlias, hnone], h⟩
    · exact Or.inl h
  · exact Or.inl h

variable {session : String} {obs : OrderObservation}

theorem mem_bindAliases (h : r ∈ (bindAliases session db entity obs).aliases.rows) (ht : r.key.aliasType = .permId) :
    r ∈ db.aliases.rows ∨ obs.permId ≠ 0 ∧ db.findOrderByAlias (permKey obs.accountId obs.permId) = none ∧
      r.key = permKey obs.accountId obs.permId ∧ r.orderEntityId = entity := by
  have hbase : r ∈ (((db.bindWhen (obs.permId ≠ 0) (permKey obs.accountId obs.permId) entity
      obs.sourceTimestamp.instant).bindWhen (obs.clientOrderId ≠ 0) (clientKey obs.accountId session obs.clientOrderId)
      entity obs.sourceTimestamp.instant).bindWhen (obs.parentId ≠ 0) (parentKey obs.accountId session obs.parentId)
      entity obs.sourceTimestamp.instant).aliases.rows := by
    unfold bindAliases at h
    split at h
    · rcases mem_bindWhen h with h | ⟨-, -, rfl⟩
      · exact h
      · cases ht
    · exact h
  rcases mem_bindWhen hbase with h | ⟨-, -, rfl⟩
  · rcases mem_bindWhen h with h | ⟨-, -, rfl⟩
    · rcases mem_bindWhen h with h | ⟨hp, hnone, rfl⟩
      · exact Or.inl h
      · exact Or.inr ⟨by simpa using hp, hnone, rfl, rfl⟩
    · cases ht
  · cases ht

/-! ## Applying one observation -/

theorem resolve_perm {uuid : String} (hp : obs.permId ≠ 0)
    (h : db.findOrderByAlias (permKey obs.accountId obs.permId) = some e) : resolve session uuid db obs = e := by
  simp [resolve, BrokerRows.byPermId, hp, h]

/-! ## Sequences of observations -/

/-- One order observation of the account, applied by the ingest of some session. -/
structure OrderInput (account : String) where
  ingest : Ingest
  obs : OrderObservation
  generation : Option Nat
  own : obs.accountId = account

/-- An observation that was applied, and the entity it was applied to. -/
structure Identified where
  obs : OrderObservation
  entity : String

structure IdentityState where
  journal : JournalState Cell (BrokerDb PyValue)
  log : List Identified

variable {account : String}

def identityStep (s : IdentityState) (a : OrderInput account) : IdentityState where
  journal := ((applyOrder a.ingest a.obs a.generation).autocommit s.journal).2
  log := match ((recordOrder a.ingest a.obs a.generation).autocommit s.journal).1 with
    | .ok (entity, _) => s.log ++ [⟨a.obs, entity⟩]
    | .error _ => s.log

/-- A new database. -/
def IdentityState.start : IdentityState := ⟨JournalState.empty (BrokerDb.empty PyValue), []⟩

def IdentityState.rows (s : IdentityState) : BrokerRows := s.journal.tables.own.rows

/-- The observation's write committed. -/
def Applies (s : IdentityState) (a : OrderInput account) : Prop :=
  ((recordOrder a.ingest a.obs a.generation).autocommit s.journal).1.isOk = true

/-- **What one observation does.** -/
theorem identityStep_cases (s : IdentityState) (a : OrderInput account) :
    (¬ Applies s a ∧ (identityStep s a).log = s.log ∧ (identityStep s a).rows.aliases = s.rows.aliases) ∨
      (Applies s a ∧ (identityStep s a).log = s.log ++ [⟨a.obs, resolveNow a.ingest s.journal a.obs⟩] ∧
        (identityStep s a).rows.aliases =
          (bindAliases a.ingest.sessionEpoch s.rows (resolveNow a.ingest s.journal a.obs) a.obs).aliases) := by
  rcases recordOrder_spec a.ingest a.obs a.generation s.journal with ⟨e, j', heq, ht⟩ | ⟨changed, j', heq, ht⟩
  · left
    have happly : (applyOrder a.ingest a.obs a.generation).autocommit s.journal = (.error e, j') := by
      simp only [applyOrder, bind, autocommit_bind, heq]
    refine ⟨?_, ?_, ?_⟩
    · rw [Applies, heq]
      exact Bool.false_ne_true
    · rw [identityStep, heq]
    · rw [IdentityState.rows, identityStep, happly, ht]
      rfl
  · right
    have happly : (applyOrder a.ingest a.obs a.generation).autocommit s.journal =
        ((resolveUnboundFills a.ingest a.obs (resolveNow a.ingest s.journal a.obs)).bind
          fun _ => .done (resolveNow a.ingest s.journal a.obs, changed)).autocommit j' := by
      simp only [applyOrder, bind, autocommit_bind, heq]
      rfl
    refine ⟨?_, ?_, ?_⟩
    · rw [Applies, heq]
      rfl
    · rw [identityStep, heq]
    · have hkeep := autocommit_keeps ((resolveUnboundFills_keeps a.ingest a.obs (resolveNow a.ingest s.journal a.obs)).bind
        fun _ => .done (resolveNow a.ingest s.journal a.obs, changed)) j'
      rw [IdentityState.rows, identityStep, happly]
      exact hkeep.trans ht

variable {s : IdentityState}

theorem applies_lawful (h : s.journal.Lawful) (a : OrderInput account) : Applies s a := by
  unfold Applies recordOrder
  simp only [Work.autocommit]
  split
  · rfl
  · simp only [bind, autocommit_bind]
    obtain ⟨j', heq⟩ := emit_lawful a.ingest _ (writeOrder a.ingest a.obs a.generation _) h
    rw [heq]
    rfl

def CarriesPerm (account : String) (db : BrokerRows) (entity : String) : Prop :=
  ∃ p, p ≠ 0 ∧ db.findOrderByAlias (permKey account p) = some entity

/-- A perm id that is not known yet, whose observation finds by its order id in the session, or else
    by group and leg, an entity that has another perm id. -/
def Collides (s : IdentityState) (a : OrderInput account) : Prop :=
  a.obs.permId ≠ 0 ∧ s.rows.findOrderByAlias (permKey account a.obs.permId) = none ∧
    match s.rows.byClientOrderId account a.ingest.sessionEpoch a.obs.clientOrderId with
    | some entity => CarriesPerm account s.rows entity
    | none => ∃ group, decodeOrderRef a.obs.orderRef = some group ∧ CarriesPerm account s.rows
        (orderGroupLegEntityId group (classifyLeg a.obs.orderType a.obs.parentId a.obs.clientOrderId (some group)))

/-- What holds in every sequence of observations. -/
structure IdentityInv (account : String) (s : IdentityState) : Prop where
  named : ∀ r ∈ s.rows.aliases.rows, r.key.aliasType = .permId →
    ∃ x ∈ s.log, x.obs.permId ≠ 0 ∧ r.key = permKey account x.obs.permId ∧ r.orderEntityId = x.entity
  bound : ∀ x ∈ s.log, x.obs.permId ≠ 0 → s.rows.findOrderByAlias (permKey account x.obs.permId) = some x.entity

/-- Observations with different perm ids went to different entities. -/
def Apart (s : IdentityState) : Prop :=
  ∀ x ∈ s.log, ∀ y ∈ s.log, x.obs.permId ≠ 0 → y.obs.permId ≠ 0 → x.obs.permId ≠ y.obs.permId → x.entity ≠ y.entity

theorem findOrderByAlias_mem (h : db.findOrderByAlias k = some e) : ∃ r ∈ db.aliases.rows, r.key = k ∧ r.orderEntityId = e := by
  obtain ⟨r, hr, rfl⟩ := Option.map_eq_some_iff.mp h
  obtain ⟨hmem, hkey⟩ := Table.get?_eq_some.mp hr
  exact ⟨r, hmem, hkey, rfl⟩

theorem findOrderByAlias_congr {db' : BrokerRows} (h : db'.aliases = db.aliases) (k : AliasKey) :
    db'.findOrderByAlias k = db.findOrderByAlias k := by
  rw [BrokerRows.findOrderByAlias, h, BrokerRows.findOrderByAlias]

theorem IdentityInv.carries (h : IdentityInv account s)
    (hc : CarriesPerm account s.rows entity) : ∃ p, p ≠ 0 ∧ s.rows.findOrderByAlias (permKey account p) = some entity ∧
      ∃ x ∈ s.log, x.obs.permId = p ∧ x.entity = entity := by
  obtain ⟨p, hp, hfind⟩ := hc
  obtain ⟨r, hr, hkey, rfl⟩ := findOrderByAlias_mem hfind
  obtain ⟨x, hx, -, hxk, hxe⟩ := h.named r hr (by rw [hkey]; rfl)
  exact ⟨p, hp, hfind, x, hx, permKey_inj (hxk.symm.trans hkey), hxe.symm⟩

theorem IdentityInv.step (h : IdentityInv account s) (a : OrderInput account) : IdentityInv account (identityStep s a) := by
  rcases identityStep_cases s a with ⟨-, hlog, hal⟩ | ⟨-, hlog, hal⟩
  · refine ⟨fun r hr ht => ?_, fun x hx hp => ?_⟩
    · rw [hal] at hr
      rw [hlog]
      exact h.named r hr ht
    · rw [hlog] at hx
      rw [findOrderByAlias_congr hal]
      exact h.bound x hx hp
  · have hown := a.own
    refine ⟨fun r hr ht => ?_, fun x hx hp => ?_⟩
    · rw [hal] at hr
      rw [hlog]
      rcases mem_bindAliases hr ht with hr | ⟨hp, -, hkey, hent⟩
      · obtain ⟨x, hx, hp, hkey, hent⟩ := h.named r hr ht
        exact ⟨x, List.mem_append_left _ hx, hp, hkey, hent⟩
      · exact ⟨_, List.mem_append_right _ List.mem_cons_self, hp, by rw [hkey, hown], hent⟩
    · rw [hlog] at hx
      rw [findOrderByAlias_congr hal]
      rcases List.mem_append.mp hx with hx | hx
      · exact bindAliases_keeps _ _ _ _ (h.bound x hx hp)
      · obtain rfl := List.mem_singleton.mp hx
        have hperm := bindAliases_perm a.ingest.sessionEpoch s.rows (resolveNow a.ingest s.journal a.obs) a.obs hp
        rw [hown] at hperm
        rw [hperm]
        cases hf : s.rows.findOrderByAlias (permKey account a.obs.permId) with
        | none => rfl
        | some e =>
          have hres : resolveNow a.ingest s.journal a.obs = e := resolve_perm hp (by rw [hown]; exact hf)
          rw [hres]
          rfl

variable {a : OrderInput account}

theorem resolveNow_new (hp : a.obs.permId ≠ 0) (hnone : s.rows.findOrderByAlias (permKey account a.obs.permId) = none) :
    resolveNow a.ingest s.journal a.obs =
      match s.rows.byClientOrderId account a.ingest.sessionEpoch a.obs.clientOrderId with
      | some entity => entity
      | none => nameOrMint a.obs (a.ingest.uuid4 s.journal.tables.own.rows) := by
  have hperm : s.journal.tables.own.rows.byPermId a.obs.accountId a.obs.permId = none := by
    rw [BrokerRows.byPermId, if_neg hp, a.own]
    exact hnone
  rw [resolveNow, resolve, hperm, a.own]
  rfl

/-- **An applied observation keeps perm ids apart exactly when it does not collide.** -/
theorem apart_step (h : IdentityInv account s) (hapart : Apart s)
    (hlog : (identityStep s a).log = s.log ++ [⟨a.obs, resolveNow a.ingest s.journal a.obs⟩]) :
    Apart (identityStep s a) ↔ ¬ Collides s a := by
  constructor
  · rintro hap ⟨hp, hnone, hcol⟩
    have hcarry : CarriesPerm account s.rows (resolveNow a.ingest s.journal a.obs) := by
      rw [resolveNow_new hp hnone]
      cases hc : s.rows.byClientOrderId account a.ingest.sessionEpoch a.obs.clientOrderId with
      | some entity =>
        rw [hc] at hcol
        exact hcol
      | none =>
        rw [hc] at hcol
        obtain ⟨group, hgroup, hcarry⟩ := hcol
        simpa [nameOrMint, hgroup] using hcarry
    obtain ⟨p, hp', hfind, x, hx, hxp, hxe⟩ := h.carries hcarry
    have hne : a.obs.permId ≠ x.obs.permId := by
      intro heq
      rw [heq, hxp, hfind] at hnone
      cases hnone
    refine hap ⟨a.obs, resolveNow a.ingest s.journal a.obs⟩ ?_ x ?_ hp (by rw [hxp]; exact hp') hne hxe.symm
    · rw [hlog]
      simp
    · rw [hlog]
      exact List.mem_append_left _ hx
  · intro hcol
    -- the new observation against one that was applied before
    have hnew : ∀ y ∈ s.log, a.obs.permId ≠ 0 → y.obs.permId ≠ 0 → a.obs.permId ≠ y.obs.permId →
        resolveNow a.ingest s.journal a.obs ≠ y.entity := by
      intro y hy hp hq hne heq
      have hbound := h.bound y hy hq
      cases hf : s.rows.findOrderByAlias (permKey account a.obs.permId) with
      | some e =>
        have hres : resolveNow a.ingest s.journal a.obs = e := resolve_perm hp (by rw [a.own]; exact hf)
        obtain ⟨r, hr, hkey, hent⟩ := findOrderByAlias_mem hf
        obtain ⟨x, hx, hxp, hxk, hxe⟩ := h.named r hr (by rw [hkey]; rfl)
        have hperm : x.obs.permId = a.obs.permId := permKey_inj (hxk.symm.trans hkey)
        refine hapart x hx y hy hxp hq (by rw [hperm]; exact hne) ?_
        rw [← hxe, hent, ← hres, heq]
      | none =>
        rw [resolveNow_new hp hf] at heq
        cases hc : s.rows.byClientOrderId account a.ingest.sessionEpoch a.obs.clientOrderId with
        | some entity =>
          rw [hc] at heq
          refine hcol ⟨hp, hf, ?_⟩
          rw [hc]
          exact ⟨y.obs.permId, hq, by rw [hbound, ← heq]⟩
        | none =>
          rw [hc] at heq
          cases hg : decodeOrderRef a.obs.orderRef with
          | some group =>
            refine hcol ⟨hp, hf, ?_⟩
            rw [hc]
            refine ⟨group, hg, y.obs.permId, hq, ?_⟩
            rw [hbound, ← heq]
            simp [nameOrMint, hg]
          | none =>
            -- a minted entity has no alias yet
            obtain ⟨r, hr, -, hent⟩ := findOrderByAlias_mem hbound
            refine a.ingest.uuid4_fresh s.journal.tables.own.rows r hr ?_
            rw [hent, ← heq]
            simp [nameOrMint, hg]
    intro x hx y hy hxp hyp hne
    rw [hlog] at hx hy
    rcases List.mem_append.mp hx with hx | hx
    · rcases List.mem_append.mp hy with hy | hy
      · exact hapart x hx y hy hxp hyp hne
      · obtain rfl := List.mem_singleton.mp hy
        exact fun heq => hnew x hx hyp hxp hne.symm heq.symm
    · obtain rfl := List.mem_singleton.mp hx
      rcases List.mem_append.mp hy with hy | hy
      · exact hnew y hy hxp hyp hne
      · obtain rfl := List.mem_singleton.mp hy
        exact absurd rfl hne

structure IdentityKept (account : String) (s : IdentityState) : Prop where
  /-- Different perm ids, different entities. -/
  apart : Apart s
  /-- Once an observation with a perm id was applied, every observation with it has its entity. -/
  together : ∀ x ∈ s.log, x.obs.permId ≠ 0 → ∀ (I : Ingest) (obs : OrderObservation), obs.accountId = account →
    obs.permId = x.obs.permId → resolveNow I s.journal obs = x.entity
  /-- The reverse lookup finds the perm id. -/
  reverse : ∀ x ∈ s.log, x.obs.permId ≠ 0 → s.rows.findPermIdForOrder x.entity = some x.obs.permId

theorem identityKept_iff (h : IdentityInv account s) : IdentityKept account s ↔ Apart s := by
  refine ⟨fun hk => hk.apart, fun hap => ⟨hap, ?_, ?_⟩⟩
  · intro x hx hp I obs hacc hperm
    refine resolve_perm (by rw [hperm]; exact hp) ?_
    rw [hacc, hperm]
    exact h.bound x hx hp
  · intro x hx hp
    obtain ⟨r, hr, hkey, hent⟩ := findOrderByAlias_mem (h.bound x hx hp)
    obtain ⟨r', hfind⟩ := Option.isSome_iff_exists.mp (List.find?_isSome (p := fun r : AliasRow =>
      r.orderEntityId == x.entity && r.key.aliasType == .permId).mpr ⟨r, hr, by simp [hent, hkey, permKey]⟩)
    have hsat := List.find?_some hfind
    simp only [Bool.and_eq_true, beq_iff_eq] at hsat
    obtain ⟨y, hy, hyp, hyk, hye⟩ := h.named r' (List.mem_of_find?_eq_some hfind) hsat.2
    have hsame : y.obs.permId = x.obs.permId := by
      by_contra hne
      exact hap y hy x hx hyp hp hne (hye.symm.trans hsat.1)
    rw [BrokerRows.findPermIdForOrder, hfind]
    simp only [Option.map_some, hyk, permKey, parseInt_toString, hsame]

theorem alias_kept (s : IdentityState) (a : OrderInput account)
    (h : s.rows.findOrderByAlias k = some e) : (identityStep s a).rows.findOrderByAlias k = some e := by
  rcases identityStep_cases s a with ⟨-, -, hal⟩ | ⟨-, -, hal⟩
  · rw [findOrderByAlias_congr hal, h]
  · rw [findOrderByAlias_congr hal, bindAliases_keeps _ _ _ _ h]

theorem alias_kept_run (inputs : List (OrderInput account))
    (h : s.rows.findOrderByAlias k = some e) : (inputs.foldl identityStep s).rows.findOrderByAlias k = some e := by
  induction inputs generalizing s with
  | nil => exact h
  | cons a inputs ih => exact ih (alias_kept s a h)

/-- What is promised of a sequence of observations. -/
structure IdentityLaws (account : String) (inputs : List (OrderInput account)) : Prop where
  kept : ∀ pre, pre <+: inputs → IdentityKept account (pre.foldl identityStep .start)
  /-- No alias ever changes its entity. -/
  aliases : ∀ pre, pre <+: inputs → ∀ k e, (pre.foldl identityStep .start).rows.findOrderByAlias k = some e →
    (inputs.foldl identityStep .start).rows.findOrderByAlias k = some e

def NoCollision (s : IdentityState) (a : OrderInput account) : Prop := Applies s a → ¬ Collides s a

/-- **Perm ids and entities stay one to one exactly when no applied observation collides.** -/
theorem identity_kept_iff (inputs : List (OrderInput account)) :
    IdentityLaws account inputs ↔ Meets identityStep NoCollision .start inputs := by
  have hstart : IdentityInv account .start := ⟨fun r hr => (by cases hr), fun x hx => (by cases hx)⟩
  have hiff : (∀ pre, pre <+: inputs → IdentityKept account (pre.foldl identityStep .start)) ↔
      Meets identityStep NoCollision .start inputs := by
    refine Meets.iff_prefixes (I := fun s => IdentityInv account s ∧ Apart s)
      (fun s hs => (identityKept_iff hs.1).mpr hs.2) ?_ ?_ ⟨hstart, fun x hx => (by cases hx)⟩
    · rintro s a ⟨hinv, hap⟩ hcond
      refine ⟨hinv.step a, ?_⟩
      rcases identityStep_cases s a with ⟨-, hlog, -⟩ | ⟨happ, hlog, -⟩
      · intro x hx y hy
        rw [hlog] at hx hy
        exact hap x hx y hy
      · exact (apart_step hinv hap hlog).mpr (hcond happ)
    · rintro s a ⟨hinv, hap⟩ hcond hkept
      obtain ⟨happ, hcol⟩ : Applies s a ∧ Collides s a := by
        simpa [NoCollision] using hcond
      rcases identityStep_cases s a with ⟨hno, -, -⟩ | ⟨-, hlog, -⟩
      · exact hno happ
      · exact (apart_step hinv hap hlog).mp hkept.apart hcol
  refine ⟨fun h => hiff.mp h.kept, fun h => ⟨hiff.mpr h, ?_⟩⟩
  rintro pre ⟨rest, rfl⟩ k e hfind
  rw [List.foldl_append]
  exact alias_kept_run rest hfind

/-! ## Another client's order id -/

section Collision

def orderFive (permId : Int) (symbol : String) : OrderInput "DU1" where
  ingest := longIngest demoTime
  obs := ⟨"DU1", 5, permId, 0, none, 265598, symbol, "BUY", "LMT", 10, some 100, none, some "DAY", "Submitted", 0, none,
    demoTime, none, none, false⟩
  generation := none
  own := rfl

/-- **Two clients' orders with one order id become one entity.** -/
theorem order_ids_collide : ¬ IdentityLaws "DU1" [orderFive 100 "AAPL", orderFive 200 "MSFT"] := by
  intro h
  have hlawful : IdentityState.start.journal.Lawful := JournalState.lawful_empty _
  have hinv : IdentityInv "DU1" .start := ⟨fun r hr => (by cases hr), fun x hx => (by cases hx)⟩
  generalize hs : identityStep .start (orderFive 100 "AAPL") = s
  have hkept : Apart s := by
    rw [← hs]
    exact (h.kept [orderFive 100 "AAPL"] ⟨[orderFive 200 "MSFT"], rfl⟩).apart
  have hinv' : IdentityInv "DU1" s := hs ▸ hinv.step (orderFive 100 "AAPL")
  have hlawful' : s.journal.Lawful := hs ▸ autocommit_lawful _ hlawful
  -- the first order binds its perm id and its order id
  have hfind : ∃ entity, ∀ k, s.rows.findOrderByAlias k = if k = permKey "DU1" 100 ∨ k = clientKey "DU1" "s1" 5
      then some entity else none := by
    rcases identityStep_cases .start (orderFive 100 "AAPL") with ⟨hno, -⟩ | ⟨-, -, hal⟩
    · exact absurd (applies_lawful hlawful _) hno
    · generalize resolveNow _ _ (orderFive 100 "AAPL").obs = entity at hal
      refine ⟨entity, fun k => ?_⟩
      rw [← hs, findOrderByAlias_congr hal]
      have hnone : IdentityState.start.rows.findOrderByAlias k = none := rfl
      simp only [bindAliases, orderFive, bindWhen_find, hnone]
      by_cases hp : permKey "DU1" 100 = k
      · simp [hp]
      · by_cases hc : clientKey "DU1" "s1" 5 = k
        · simp [← hc, longIngest, permKey, clientKey]
        · simp [hp, Ne.symm hp, hc, Ne.symm hc, longIngest]
  obtain ⟨entity, hfind⟩ := hfind
  have hclient : s.rows.byClientOrderId "DU1" "s1" 5 = some entity := by
    rw [BrokerRows.byClientOrderId, if_neg (by decide), hfind]
    simp
  have hcollides : Collides s (orderFive 200 "MSFT") := by
    refine ⟨by decide, ?_, ?_⟩
    · rw [hfind, if_neg]
      rintro (hk | hk)
      · exact absurd (permKey_inj hk) (by decide)
      · simp [permKey, clientKey] at hk
    · rw [show (orderFive 200 "MSFT").ingest.sessionEpoch = "s1" from rfl,
        show (orderFive 200 "MSFT").obs.clientOrderId = 5 from rfl, hclient]
      refine ⟨100, by decide, ?_⟩
      rw [hfind]
      simp
  rcases identityStep_cases s (orderFive 200 "MSFT") with ⟨hno, -⟩ | ⟨-, hlog, -⟩
  · exact hno (applies_lawful hlawful' _)
  · refine (apart_step hinv' hkept hlog).mp ?_ hcollides
    rw [← hs]
    exact (h.kept _ (List.prefix_refl _)).apart

end Collision

end MmrTrader.Broker
