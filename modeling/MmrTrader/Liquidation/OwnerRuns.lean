import MmrTrader.Liquidation.Model

/-!
# The exit-owner registry over whole runs

The calls of `ExitOwnerRegistry` on a connection, the transactions that hold them, and what holds in
every state that any sequence of transactions reaches.

* `OwnerCall`, `OwnerCall.inTx`, `transaction` — one call, and `BEGIN … COMMIT` or `ROLLBACK`;
* `OwnersInv` — at most one active owner of each scope;
* `RowKept` — what a call may do to a row;
* `registry_invariant` — the invariant, and what holds between any two states of a run.
-/

namespace MmrTrader.Liquidation

open MmrTrader.Lib

inductive OwnerCall where
  | claimScoped (accountId : String) (conid : Int) (rootId : String) (goalQuantity : Option ℚ)
  | claimAccount (accountId rootId : String)
  | upgradeGoal (rootId : String)
  | finish (rootId : String) (state : OwnerState)
  deriving DecidableEq

/-- The statements of `claim_account_in_tx`: the supersession is written before the insert can raise. -/
def claimAccountInTx (owners : Owners) (accountId rootId : String) : Owners × Except Exc ExitClaim :=
  match checkRootId rootId with
  | .error x => (owners, .error x)
  | .ok _ =>
      match accountOwner owners accountId with
      | some flatten =>
          (owners, .ok ⟨flatten.rootId, if flatten.rootId = rootId then .CLAIMED else .JOINED_FLATTEN, []⟩)
      | none =>
          let taken := (owners.rows.filter (·.ownsScoped accountId)).map (·.rootId)
          let owners := supersedeScoped owners accountId
          match insertOwner owners rootId accountId none .accountFlatten .zero none with
          | .ok owners => (owners, .ok ⟨rootId, .CLAIMED, taken.insertionSort (· ≤ ·)⟩)
          | .error x => (owners, .error x)

/-- One call on a connection: the table as written so far, and how the call ended. -/
def OwnerCall.inTx (owners : Owners) : OwnerCall → Owners × Except Exc (Option ExitClaim)
  | .claimScoped accountId conid rootId goalQuantity =>
      match Liquidation.claimScoped owners accountId conid rootId goalQuantity with
      | .ok (claim, owners) => (owners, .ok (some claim))
      | .error x => (owners, .error x)
  | .claimAccount accountId rootId =>
      ((claimAccountInTx owners accountId rootId).1, (claimAccountInTx owners accountId rootId).2.map some)
  | .upgradeGoal rootId => (Liquidation.upgradeGoal owners rootId, .ok none)
  | .finish rootId state =>
      if state = .RELEASED ∨ state = .FAILED_SAFE then (finishOwner owners rootId state, .ok none)
      else (owners, .error .valueError)

/-- Calls on one connection, until one raises. -/
def callsInTx : List OwnerCall → Owners → Owners × Except Exc (List (Option ExitClaim))
  | [], owners => (owners, .ok [])
  | c :: cs, owners =>
      match c.inTx owners with
      | (owners, .error x) => (owners, .error x)
      | (owners, .ok claim) => ((callsInTx cs owners).1, (callsInTx cs owners).2.map (claim :: ·))

/-- `db.transaction`: commit, or roll back what was written and raise again. -/
def transaction (cs : List OwnerCall) (owners : Owners) : Owners × Except Exc (List (Option ExitClaim)) :=
  match callsInTx cs owners with
  | (owners', .ok claims) => (owners', .ok claims)
  | (_, .error x) => (owners, .error x)

/-- Transactions one after another. -/
def registryRun (owners : Owners) (txs : List (List OwnerCall)) : Owners :=
  txs.foldl (fun owners cs => (transaction cs owners).1) owners

variable {owners owners' : Owners} {accountId rootId : String} {claim : ExitClaim}

/-- In its transaction, `claim_account_in_tx` is the claim of the service. -/
theorem claimAccountInTx_ok (h : claimAccountInTx owners accountId rootId = (owners', .ok claim)) :
    claimAccount owners accountId rootId = .ok (claim, owners') := by
  unfold claimAccountInTx at h
  unfold claimAccount
  cases hroot : checkRootId rootId with
  | error e =>
    rw [hroot] at h
    cases h
  | ok u =>
    rw [hroot] at h
    revert h
    cases hown : accountOwner owners accountId with
    | some flatten =>
      intro h
      cases h
      rfl
    | none =>
      intro h
      dsimp only at h
      split at h
      · rename_i o hins
        cases h
        show (insertOwner _ _ _ _ _ _ _ >>= _) = _
        rw [hins]
        rfl
      · cases h

/-! ## The invariant -/

/-- At most one active owner of each scope, and a flatten is alone in its account. -/
structure OwnersInv (owners : Owners) : Prop where
  alone : ∀ o ∈ owners.rows, ∀ o' ∈ owners.rows, o.state = .ACTIVE → o'.state = .ACTIVE → o.accountId = o'.accountId →
    o.kind = .accountFlatten ∨ o.conid = o'.conid → o = o'
  kind : ∀ o ∈ owners.rows, o.kind = .accountFlatten ↔ o.conid = none

/-- What a call may do to a row. -/
structure RowKept (o o' : ExitOwnerRow) : Prop where
  accountId : o'.accountId = o.accountId
  conid : o'.conid = o.conid
  kind : o'.kind = o.kind
  ended : o.state ≠ .ACTIVE → o' = o
  goal : o.goal = .zero → o'.goal = .zero

theorem RowKept.refl (o : ExitOwnerRow) : RowKept o o := ⟨rfl, rfl, rfl, fun _ => rfl, fun h => h⟩

theorem RowKept.trans {a b c : ExitOwnerRow} (h : RowKept a b) (h' : RowKept b c) : RowKept a c where
  accountId := h'.accountId.trans h.accountId
  conid := h'.conid.trans h.conid
  kind := h'.kind.trans h.kind
  ended hne := by
    have hb := h.ended hne
    exact (h'.ended (by rw [hb]; exact hne)).trans hb
  goal hg := h'.goal (h.goal hg)

def OwnersLater (owners owners' : Owners) : Prop :=
  ∀ id o, owners.get? id = some o → ∃ o', owners'.get? id = some o' ∧ RowKept o o'

theorem OwnersLater.refl (owners : Owners) : OwnersLater owners owners := fun _ o h => ⟨o, h, RowKept.refl o⟩

theorem OwnersLater.trans {a b c : Owners} (h : OwnersLater a b) (h' : OwnersLater b c) : OwnersLater a c := by
  intro id o ho
  obtain ⟨o₁, h₁, hk⟩ := h id o ho
  obtain ⟨o₂, h₂, hk'⟩ := h' id o₁ h₁
  exact ⟨o₂, h₂, hk.trans hk'⟩

theorem OwnersInv.update (h : OwnersInv owners) {p : ExitOwnerRow → Bool}
    {f : ExitOwnerRow → ExitOwnerRow} {hf : ∀ o, (f o).rootId = o.rootId}
    (hp : ∀ o, p o = true → o.state = .ACTIVE) (hkept : ∀ o, o.state = .ACTIVE → RowKept o (f o)) :
    OwnersInv (owners.updateWhere p f hf) ∧ OwnersLater owners (owners.updateWhere p f hf) := by
  have hrow : ∀ o, RowKept o (if p o then f o else o) := by
    intro o
    split
    · rename_i hpo
      exact hkept o (hp o hpo)
    · exact RowKept.refl o
  -- an active row was active before
  have hback : ∀ o, (if p o then f o else o).state = .ACTIVE → o.state = .ACTIVE := by
    intro o ho
    by_contra hne
    rw [(hrow o).ended hne] at ho
    exact hne ho
  refine ⟨⟨?_, ?_⟩, ?_⟩
  · intro o ho o' ho' hact hact' hacc hscope
    obtain ⟨r, hr, rfl⟩ := Table.mem_updateWhere.mp ho
    obtain ⟨r', hr', rfl⟩ := Table.mem_updateWhere.mp ho'
    rw [(hrow r).accountId, (hrow r').accountId] at hacc
    rw [(hrow r).kind, (hrow r).conid, (hrow r').conid] at hscope
    rw [h.alone r hr r' hr' (hback r hact) (hback r' hact') hacc hscope]
  · intro o ho
    obtain ⟨r, hr, rfl⟩ := Table.mem_updateWhere.mp ho
    rw [(hrow r).kind, (hrow r).conid]
    exact h.kind r hr
  · intro id o ho
    refine ⟨_, ?_, hrow o⟩
    rw [Table.get?_updateWhere, ho]
    rfl

variable {o : ExitOwnerRow}

theorem OwnersInv.insert (h : OwnersInv owners)
    (hins : owners.insert? o = some owners') (hkind : o.kind = .accountFlatten ↔ o.conid = none)
    (hfree : ∀ r ∈ owners.rows, r.state = .ACTIVE → r.accountId = o.accountId →
      o.kind ≠ .accountFlatten ∧ r.kind ≠ .accountFlatten ∧ r.conid ≠ o.conid) :
    OwnersInv owners' ∧ OwnersLater owners owners' := by
  refine ⟨⟨?_, ?_⟩, ?_⟩
  · intro r hr r' hr' hact hact' hacc hscope
    rcases (Table.mem_insert? hins).mp hr with hr | rfl
    · rcases (Table.mem_insert? hins).mp hr' with hr' | rfl
      · exact h.alone r hr r' hr' hact hact' hacc hscope
      · obtain ⟨-, hflat, hne⟩ := hfree r hr hact hacc
        rcases hscope with hscope | hscope
        · exact absurd hscope hflat
        · exact absurd hscope hne
    · rcases (Table.mem_insert? hins).mp hr' with hr' | rfl
      · obtain ⟨hflat, -, hne⟩ := hfree r' hr' hact' hacc.symm
        rcases hscope with hscope | hscope
        · exact absurd hscope hflat
        · exact absurd hscope.symm hne
      · rfl
  · intro r hr
    rcases (Table.mem_insert? hins).mp hr with hr | rfl
    · exact h.kind r hr
    · exact hkind
  · intro id r hr
    refine ⟨r, ?_, RowKept.refl r⟩
    rw [Table.get?_insert? hins]
    split
    · rename_i hid
      rw [← hid, (Table.insert?_eq_some hins).1] at hr
      cases hr
    · exact hr

theorem upgradeGoal_kept (h : OwnersInv owners) (rootId : String) :
    OwnersInv (upgradeGoal owners rootId) ∧ OwnersLater owners (upgradeGoal owners rootId) := by
  refine h.update ?_ ?_
  · intro o ho
    rw [Bool.and_eq_true, beq_iff_eq, beq_iff_eq] at ho
    exact ho.2
  · intro o hact
    exact ⟨rfl, rfl, rfl, fun hne => absurd hact hne, fun _ => rfl⟩

theorem finishOwner_kept (h : OwnersInv owners) (rootId : String) (state : OwnerState) :
    OwnersInv (finishOwner owners rootId state) ∧ OwnersLater owners (finishOwner owners rootId state) := by
  refine h.update ?_ ?_
  · intro o ho
    rw [Bool.and_eq_true, beq_iff_eq, beq_iff_eq] at ho
    exact ho.2
  · intro o hact
    exact ⟨rfl, rfl, rfl, fun hne => absurd hact hne, fun hg => hg⟩

theorem supersedeScoped_kept (h : OwnersInv owners) (accountId : String) :
    OwnersInv (supersedeScoped owners accountId) ∧ OwnersLater owners (supersedeScoped owners accountId) := by
  refine h.update ?_ ?_
  · intro o ho
    simp only [ExitOwnerRow.ownsScoped, Bool.and_eq_true, beq_iff_eq] at ho
    exact ho.2
  · intro o hact
    exact ⟨rfl, rfl, rfl, fun hne => absurd hact hne, fun hg => hg⟩

/-! ## Claims -/

theorem accountOwner_none (h : accountOwner owners accountId = none)
    (ho : o ∈ owners.rows) (hactive : o.state = .ACTIVE) (hacc : o.accountId = accountId) : o.kind ≠ .accountFlatten := by
  unfold accountOwner at h
  have hno := List.find?_eq_none.mp h o ho
  simpa [ExitOwnerRow.ownsAccount, hactive, hacc] using hno

variable {conid : Int}

theorem ownerFor_none (h : ownerFor owners accountId conid = none)
    (ho : o ∈ owners.rows) (hactive : o.state = .ACTIVE) (hacc : o.accountId = accountId)
    (hkind : o.kind = .scopedClose) : o.conid ≠ some conid := by
  unfold ownerFor at h
  have hno := List.find?_eq_none.mp h o ho
  simpa [ExitOwnerRow.ownsConid, hactive, hacc, hkind] using hno

theorem insertOwner_ok {conid : Option Int} {kind : OwnerKind} {goal : OwnerGoal} {quantity : Option ℚ}
    (h : insertOwner owners rootId accountId conid kind goal quantity = .ok owners') :
    owners.insert? ⟨rootId, accountId, conid, kind, goal, quantity, .ACTIVE⟩ = some owners' := by
  unfold insertOwner at h
  split at h
  · rename_i o ho
    cases h
    exact ho
  · cases h

theorem claimScoped_kept (h : OwnersInv owners) {goalQuantity : Option ℚ}
    (hclaim : claimScoped owners accountId conid rootId goalQuantity = .ok (claim, owners')) :
    OwnersInv owners' ∧ OwnersLater owners owners' := by
  unfold claimScoped at hclaim
  obtain ⟨_, -, hclaim⟩ := bind_ok hclaim
  split at hclaim
  · split at hclaim <;> cases hclaim
    exact ⟨h, OwnersLater.refl owners⟩
  · split at hclaim
    · cases hclaim
      exact ⟨h, OwnersLater.refl owners⟩
    · split at hclaim
      · cases hclaim
      · split at hclaim <;> cases hclaim
        · exact upgradeGoal_kept h _
        · exact ⟨h, OwnersLater.refl owners⟩
  · rename_i hacc hown
    obtain ⟨o, hins, hclaim⟩ := bind_ok hclaim
    cases hclaim
    refine h.insert (insertOwner_ok hins) (by simp) ?_
    intro r hr hact hra
    have hflat := accountOwner_none hacc hr hact hra
    refine ⟨by simp, hflat, ?_⟩
    have hscoped : r.kind = .scopedClose := by
      cases hk : r.kind with
      | scopedClose => rfl
      | accountFlatten => exact absurd hk hflat
    exact ownerFor_none hown hr hact hra hscoped

theorem claimAccount_kept (h : OwnersInv owners) (hclaim : claimAccount owners accountId rootId = .ok (claim, owners')) :
    OwnersInv owners' ∧ OwnersLater owners owners' := by
  unfold claimAccount at hclaim
  obtain ⟨_, -, hclaim⟩ := bind_ok hclaim
  split at hclaim
  · cases hclaim
    exact ⟨h, OwnersLater.refl owners⟩
  · rename_i hacc
    obtain ⟨o, hins, hclaim⟩ := bind_ok hclaim
    cases hclaim
    obtain ⟨hsup, hlater⟩ := supersedeScoped_kept h accountId
    obtain ⟨hinv, hlater'⟩ := hsup.insert (insertOwner_ok hins) (by simp) (by
      -- the flatten is the first one, and every scoped owner was superseded
      intro r hr hact hra
      obtain ⟨r₀, hr₀, rfl⟩ := Table.mem_updateWhere.mp hr
      split at hact
      · cases hact
      · rename_i hnot
        rw [if_neg hnot] at hra
        have hflat := accountOwner_none hacc hr₀ hact hra
        cases hk : r₀.kind with
        | accountFlatten => exact absurd hk hflat
        | scopedClose => exact absurd (by simp [ExitOwnerRow.ownsScoped, hra, hk, hact]) hnot)
    exact ⟨hinv, hlater.trans hlater'⟩

/-! ## Runs -/

theorem OwnerCall.kept (h : OwnersInv owners) {c : OwnerCall} {claim : Option ExitClaim}
    (hc : c.inTx owners = (owners', .ok claim)) : OwnersInv owners' ∧ OwnersLater owners owners' := by
  cases c with
  | claimScoped accountId conid rootId goalQuantity =>
    simp only [OwnerCall.inTx] at hc
    split at hc
    · rename_i hclaim
      cases hc
      exact claimScoped_kept h hclaim
    · cases hc
  | claimAccount accountId rootId =>
    simp only [OwnerCall.inTx, Prod.mk.injEq] at hc
    obtain ⟨rfl, hres⟩ := hc
    cases hr : (claimAccountInTx owners accountId rootId).2 with
    | error x =>
      rw [hr] at hres
      cases hres
    | ok claim' => exact claimAccount_kept h (claimAccountInTx_ok (Prod.ext rfl hr))
  | upgradeGoal rootId =>
    cases hc
    exact upgradeGoal_kept h rootId
  | finish rootId state =>
    simp only [OwnerCall.inTx] at hc
    split at hc <;> cases hc
    exact finishOwner_kept h rootId state

theorem callsInTx_kept (h : OwnersInv owners) {cs : List OwnerCall}
    {claims : List (Option ExitClaim)} (hcs : callsInTx cs owners = (owners', .ok claims)) :
    OwnersInv owners' ∧ OwnersLater owners owners' := by
  induction cs generalizing owners claims with
  | nil =>
    cases hcs
    exact ⟨h, OwnersLater.refl _⟩
  | cons c cs ih =>
    unfold callsInTx at hcs
    split at hcs
    · cases hcs
    · rename_i o claim hc
      obtain ⟨hinv, hlater⟩ := OwnerCall.kept h hc
      simp only [Prod.mk.injEq] at hcs
      obtain ⟨rfl, hres⟩ := hcs
      cases hr : (callsInTx cs o).2 with
      | error x =>
        rw [hr] at hres
        cases hres
      | ok claims' =>
        obtain ⟨hinv', hlater'⟩ := ih hinv (Prod.ext rfl hr)
        exact ⟨hinv', hlater.trans hlater'⟩

theorem transaction_kept (h : OwnersInv owners) (cs : List OwnerCall) :
    OwnersInv (transaction cs owners).1 ∧ OwnersLater owners (transaction cs owners).1 := by
  unfold transaction
  split
  · rename_i hcs
    exact callsInTx_kept h hcs
  · exact ⟨h, OwnersLater.refl owners⟩

theorem registryRun_kept (h : OwnersInv owners) (txs : List (List OwnerCall)) :
    OwnersInv (registryRun owners txs) ∧ OwnersLater owners (registryRun owners txs) := by
  induction txs generalizing owners with
  | nil => exact ⟨h, OwnersLater.refl owners⟩
  | cons cs txs ih =>
    obtain ⟨hinv, hlater⟩ := transaction_kept h cs
    obtain ⟨hinv', hlater'⟩ := ih hinv
    exact ⟨hinv', hlater.trans hlater'⟩

theorem OldJournal.ownersInv (j : OldJournal) : OwnersInv j.migrate.owners := by
  have hmem : ∀ o ∈ j.migrate.owners.rows, ∃ r ∈ j.runs, o = j.migrateOwner r := by
    intro o ho
    obtain ⟨r, hr, rfl⟩ := List.mem_map.mp ho
    exact ⟨r, (List.mem_filter.mp hr).1, rfl⟩
  refine ⟨?_, ?_⟩
  · intro o ho o' ho' hact hact' hacc _
    obtain ⟨r, hr, rfl⟩ := hmem o ho
    obtain ⟨r', hr', rfl⟩ := hmem o' ho'
    have hfirst : ∀ r : OldRun, (j.migrateOwner r).state = .ACTIVE →
        (j.takesOver r.accountId).map (·.causeCommandId) = some r.causeCommandId := by
      intro r h
      unfold OldJournal.migrateOwner at h
      dsimp only at h
      split at h
      · rename_i hf
        unfold OldJournal.isFirst at hf
        exact beq_iff_eq.mp hf
      · cases h
    have h := hfirst r hact
    have h' := hfirst r' hact'
    have hsame : r.accountId = r'.accountId := hacc
    rw [hsame, h'] at h
    have hkey : r'.causeCommandId = r.causeCommandId := Option.some.inj h
    rw [List.inj_on_of_nodup_map j.nodup hr hr' hkey.symm]
  · intro o ho
    obtain ⟨r, -, rfl⟩ := hmem o ho
    simp [OldJournal.migrateOwner]

/-- Two elements that a predicate singles out are the same. -/
theorem filter_length_le_one {R : Type} {l : List R} (hl : l.Nodup) {p : R → Bool}
    (h : ∀ a ∈ l, ∀ b ∈ l, p a = true → p b = true → a = b) : (l.filter p).length ≤ 1 := by
  have hnodup : (l.filter p).Nodup := hl.filter p
  cases hf : l.filter p with
  | nil => simp
  | cons a rest =>
    cases rest with
    | nil => simp
    | cons b rest =>
      have ha : a ∈ l.filter p := by simp [hf]
      have hb : b ∈ l.filter p := by simp [hf]
      rw [List.mem_filter] at ha hb
      rw [hf, h a ha.1 b hb.1 ha.2 hb.2] at hnodup
      simp at hnodup

/-- **Exit ownership.**  In every state of every run of transactions, on a journal as the upgrade left it:
    an account has at most one active flatten, which is then its only active owner, and a position at most
    one active scoped owner.  Between any two states of a run no row is lost, an ended row stays as it is and
    a zero goal stays zero; a root id with a row is never inserted again.  A transaction that raises changes
    nothing, also one whose supersession was already written. -/
theorem exit_ownership (j : OldJournal) (txs later : List (List OwnerCall)) :
    let owners := registryRun j.migrate.owners txs
    (∀ a, (owners.rows.filter (·.ownsAccount a)).length ≤ 1) ∧
    (∀ a, (∃ o ∈ owners.rows, o.ownsAccount a = true) → ∀ o ∈ owners.rows, o.ownsScoped a = false) ∧
    (∀ a k, (owners.rows.filter (·.ownsConid a k)).length ≤ 1) ∧
    (∀ id o, owners.get? id = some o → ∃ o', (registryRun owners later).get? id = some o' ∧ RowKept o o') ∧
    ((registryRun owners later).rows.map (·.rootId)).Nodup ∧
    (∀ cs x, (transaction cs owners).2 = .error x → (transaction cs owners).1 = owners) := by
  intro owners
  obtain ⟨hinv, -⟩ := registryRun_kept j.ownersInv txs
  have hnodup : owners.rows.Nodup := owners.nodup.of_map
  refine ⟨?_, ?_, ?_, (registryRun_kept hinv later).2, (registryRun owners later).nodup, ?_⟩
  · intro a
    apply filter_length_le_one hnodup
    intro o ho o' ho' h h'
    simp only [ExitOwnerRow.ownsAccount, Bool.and_eq_true, beq_iff_eq] at h h'
    exact hinv.alone o ho o' ho' h.2 h'.2 (h.1.1.trans h'.1.1.symm) (Or.inl h.1.2)
  · rintro a ⟨o, ho, h⟩ o' ho'
    by_contra hne
    rw [Bool.not_eq_false] at hne
    simp only [ExitOwnerRow.ownsAccount, ExitOwnerRow.ownsScoped, Bool.and_eq_true, beq_iff_eq] at h hne
    have heq := hinv.alone o ho o' ho' h.2 hne.2 (h.1.1.trans hne.1.1.symm) (Or.inl h.1.2)
    rw [← heq, h.1.2] at hne
    cases hne.1.2
  · intro a k
    apply filter_length_le_one hnodup
    intro o ho o' ho' h h'
    simp only [ExitOwnerRow.ownsConid, Bool.and_eq_true, beq_iff_eq] at h h'
    exact hinv.alone o ho o' ho' h.2 h'.2 (h.1.1.1.trans h'.1.1.1.symm) (Or.inr (h.1.1.2.trans h'.1.1.2.symm))
  · intro cs x hx
    unfold transaction at hx ⊢
    split at hx
    · cases hx
    · rfl

end MmrTrader.Liquidation
