import MmrTrader.Command.Reductions

/-!
# Runs of approvals

Any number of `approve_proposal` commands, the same one several times among them, interleaved with the broker and with
processes that die.

* `Onward` — what every transaction keeps to: commands, proposals and nonces only go forward.
* `claimWork_ensures` — a claim takes a VALIDATED command and a PENDING proposal.
* `Move` — a step of a command that may hold the right to send one order: it claims the order, or sends it.
* `Once` — the invariant: every order is one of a claimed proposal, and nobody holds the right to it any more.
* `approvals_send_once`, `approvals_go_forward` — what holds in every run.
-/

namespace MmrTrader.Command

open MmrTrader.Lib MmrTrader.Lib.Interleaving MmrTrader.Journal MmrTrader.Dispatch
open MmrTrader.Saga (Side)

/-! ## Forward -/

def CommandState.rank : CommandState → Nat
  | .RECEIVED => 0
  | .VALIDATED => 1
  | .SUBMITTING => 2
  | .SUBMITTED => 3
  | .OUTCOME_UNKNOWN | .REJECTED | .RESOLVED => 4

def ProposalStatus.rank : ProposalStatus → Nat
  | .PENDING => 0
  | .APPROVED => 1
  | .REJECTED | .EXPIRED | .EXECUTED | .FAILED => 2

/-- A command's row later on. -/
structure LedgerRow.Becomes (r r' : LedgerRow) : Prop where
  key : r'.commandId = r.commandId
  hash : r'.requestHash = r.requestHash
  forward : r' = r ∨ r.state.rank < r'.state.rank

/-- A proposal's row later on: only a PENDING one is given its order. -/
structure ProposalRecord.Becomes (r r' : ProposalRecord) : Prop where
  key : r'.id = r.id
  terms : (r'.conid, r'.action, r'.quantity) = (r.conid, r.action, r.quantity)
  forward : r' = r ∨ (r.status.rank < r'.status.rank ∧ r.revision < r'.revision)
  group : r.status ≠ .PENDING → r'.orderGroupId = r.orderGroupId

/-- A nonce stays what it was issued for, and consumed. -/
structure NonceRow.Becomes (n n' : NonceRow) : Prop where
  issued : (n'.nonce, n'.commandId, n'.requestHash) = (n.nonce, n.commandId, n.requestHash)
  consumed : n.consumed = true → n'.consumed = true

/-- A nonce that was issued for this very request is consumed. -/
def Admitted (t : CommandTables) (r : LedgerRow) : Prop :=
  ∃ n ∈ t.nonces.rows, n.consumed = true ∧ n.commandId = r.commandId ∧ n.requestHash = r.requestHash

structure Onward (live : Bool) (t t' : CommandTables) : Prop where
  rows : t.ledger.Kept LedgerRow.Becomes t'.ledger
  proposals : t.proposals.Kept ProposalRecord.Becomes t'.proposals
  nonces : t.nonces.Kept NonceRow.Becomes t'.nonces
  admitted : live = true → ∀ r' ∈ t'.ledger.rows, (∃ r ∈ t.ledger.rows, r.Becomes r') ∨ Admitted t' r'

theorem LedgerRow.Becomes.refl (r : LedgerRow) : r.Becomes r := ⟨rfl, rfl, Or.inl rfl⟩

theorem LedgerRow.Becomes.trans (r s u : LedgerRow) (h : r.Becomes s) (h' : s.Becomes u) : r.Becomes u := by
  refine ⟨h'.key.trans h.key, h'.hash.trans h.hash, ?_⟩
  rcases h.forward with rfl | hlt
  · exact h'.forward
  · rcases h'.forward with rfl | hlt'
    · exact Or.inr hlt
    · exact Or.inr (hlt.trans hlt')

theorem ProposalRecord.Becomes.refl (r : ProposalRecord) : r.Becomes r := ⟨rfl, rfl, Or.inl rfl, fun _ => rfl⟩

theorem claimed_iff_rank (r : ProposalRecord) : r.status ≠ .PENDING ↔ 0 < r.status.rank := by
  cases r.status <;> simp [ProposalStatus.rank]

theorem ProposalRecord.Becomes.claimed {r r' : ProposalRecord} (h : r.Becomes r') (hr : r.status ≠ .PENDING) :
    r'.status ≠ .PENDING := by
  rcases h.forward with rfl | ⟨hlt, -⟩
  · exact hr
  · exact (claimed_iff_rank r').mpr (by omega)

theorem ProposalRecord.Becomes.trans (r s u : ProposalRecord) (h : r.Becomes s) (h' : s.Becomes u) : r.Becomes u := by
  refine ⟨h'.key.trans h.key, h'.terms.trans h.terms, ?_, fun hr => (h'.group (h.claimed hr)).trans (h.group hr)⟩
  rcases h.forward with rfl | ⟨hlt, hrev⟩
  · exact h'.forward
  · rcases h'.forward with rfl | ⟨hlt', hrev'⟩
    · exact Or.inr ⟨hlt, hrev⟩
    · exact Or.inr ⟨hlt.trans hlt', hrev.trans hrev'⟩

theorem NonceRow.Becomes.refl (n : NonceRow) : n.Becomes n := ⟨rfl, id⟩

theorem NonceRow.Becomes.trans (n m k : NonceRow) (h : n.Becomes m) (h' : m.Becomes k) : n.Becomes k :=
  ⟨h'.issued.trans h.issued, h'.consumed ∘ h.consumed⟩

variable {t t' : CommandTables} {live : Bool}

theorem Onward.refl (t : CommandTables) : Onward live t t :=
  ⟨Table.Kept.refl LedgerRow.Becomes.refl _, Table.Kept.refl ProposalRecord.Becomes.refl _,
    Table.Kept.refl NonceRow.Becomes.refl _, fun _ r hr => Or.inl ⟨r, hr, .refl r⟩⟩

theorem Admitted.later {r r' : LedgerRow} (h : Admitted t r) (hn : t.nonces.Kept NonceRow.Becomes t'.nonces)
    (hr : r.Becomes r') : Admitted t' r' := by
  obtain ⟨n, hmem, hconsumed, hid, hhash⟩ := h
  obtain ⟨n', hmem', hb⟩ := hn n hmem
  have hissued := hb.issued
  simp only [Prod.mk.injEq] at hissued
  exact ⟨n', hmem', hb.consumed hconsumed, (hissued.2.1.trans hid).trans hr.key.symm,
    (hissued.2.2.trans hhash).trans hr.hash.symm⟩

theorem Onward.trans {t'' : CommandTables} (h : Onward live t t') (h' : Onward live t' t'') : Onward live t t'' := by
  refine ⟨h.rows.trans LedgerRow.Becomes.trans h'.rows, h.proposals.trans ProposalRecord.Becomes.trans h'.proposals,
    h.nonces.trans NonceRow.Becomes.trans h'.nonces, fun hlive r'' hr'' => ?_⟩
  rcases h'.admitted hlive r'' hr'' with ⟨r', hr', hb'⟩ | hadmitted
  · rcases h.admitted hlive r' hr' with ⟨r, hr, hb⟩ | hadmitted
    · exact Or.inl ⟨r, hr, .trans r r' r'' hb hb'⟩
    · exact Or.inr (hadmitted.later h'.nonces hb')
  · exact Or.inr hadmitted

/-- Rows of the ledger rewritten, each to a later one. -/
theorem Onward.of_map {f : LedgerRow → LedgerRow} (hrows : t'.ledger.rows = t.ledger.rows.map f)
    (hf : ∀ r ∈ t.ledger.rows, r.Becomes (f r)) (hproposals : t'.proposals = t.proposals) (hnonces : t'.nonces = t.nonces) :
    Onward live t t' := by
  refine ⟨.of_map hrows hf, hproposals ▸ Table.Kept.refl ProposalRecord.Becomes.refl _,
    hnonces ▸ Table.Kept.refl NonceRow.Becomes.refl _, fun _ r' hr' => ?_⟩
  rw [hrows] at hr'
  obtain ⟨r, hr, rfl⟩ := List.mem_map.mp hr'
  exact Or.inl ⟨r, hr, hf r hr⟩

/-- Proposals rewritten, each to a later one. -/
theorem Onward.of_proposals (h : t.proposals.Kept ProposalRecord.Becomes t'.proposals) (hledger : t'.ledger = t.ledger)
    (hnonces : t'.nonces = t.nonces) : Onward live t t' := by
  refine ⟨hledger ▸ Table.Kept.refl LedgerRow.Becomes.refl _, h, hnonces ▸ Table.Kept.refl NonceRow.Becomes.refl _,
    fun _ r hr => Or.inl ⟨r, hledger ▸ hr, .refl r⟩⟩

variable {outcome : Option Json} {errorCode : Option String} {now : Int}

/-- A transition takes a row forward and touches no other table. -/
theorem transition_onward {commandId : String} {fromState toState : CommandState} (hlt : fromState.rank < toState.rank)
    (h : transition commandId fromState toState outcome errorCode now t = .ok t') :
    Onward live t t' ∧ t'.proposals = t.proposals ∧ (∃ r ∈ t.ledger.rows, r.commandId = commandId ∧ r.state = fromState) ∧
      ∃ r ∈ t'.ledger.rows, r.commandId = commandId ∧ r.state = toState := by
  unfold transition at h
  split at h
  · rename_i row hrow
    obtain ⟨hmem, hid⟩ := Table.get?_eq_some.mp hrow
    split at h
    · rename_i hfrom
      cases h
      refine ⟨.of_map rfl (fun r hr => ?_) rfl rfl, rfl, ⟨row, hmem, hid, hfrom⟩, ?_⟩
      · split
        · rename_i hr'
          obtain rfl := t.ledger.eq_of_key hr hmem ((of_decide_eq_true hr').trans hid.symm)
          exact ⟨rfl, rfl, Or.inr (hfrom ▸ hlt)⟩
        · exact .refl r
      · exact ⟨row.moved toState outcome errorCode now, List.mem_map.mpr ⟨row, hmem, by simp [hid]⟩, hid, rfl⟩
    · cases h
  · cases h

variable {request : CommandRequest}

theorem insertReceived_rows {hash : String} (h : insertReceived request hash now t = .ok t') :
    t'.proposals = t.proposals ∧ t'.nonces = t.nonces ∧
      ∃ row, t.ledger.insert? row = some t'.ledger ∧ row.commandId = request.commandId ∧ row.requestHash = hash := by
  unfold insertReceived at h
  dsimp only at h
  split at h
  · cases h
  · rename_i ledger hins
    cases h
    exact ⟨rfl, rfl, _, hins, rfl, rfl⟩

/-- A consumed nonce was issued for the request. -/
theorem consume_spec {hash : String} (h : consume request hash now t = some t') :
    t'.ledger = t.ledger ∧ t'.proposals = t.proposals ∧ t.nonces.Kept NonceRow.Becomes t'.nonces ∧
      ∃ n ∈ t'.nonces.rows, n.consumed = true ∧ n.commandId = request.commandId ∧ n.requestHash = hash := by
  unfold consume at h
  split at h
  · cases h
  · split at h
    · cases h
    · rename_i nonce _ n hn
      obtain ⟨hmem, hnonce⟩ := Table.get?_eq_some.mp hn
      split at h
      · rename_i hfits
        cases h
        refine ⟨rfl, rfl, .of_map rfl fun m _ => ?_, { n with consumed := true }, ?_, rfl, hfits.2.2.2.1, hfits.2.2.2.2.2.1⟩
        · split
          · exact ⟨rfl, fun _ => rfl⟩
          · exact .refl m
        · exact List.mem_map.mpr ⟨n, hmem, by simp [hnonce]⟩
      · cases h

/-- On a live account a row is inserted with its nonce. -/
theorem writeReceived_onward {P : Setup} (h : writeReceived P live request now t = .ok t') : Onward live t t' := by
  have hinsert : ∀ mid : CommandTables, mid.ledger = t.ledger → mid.proposals = t.proposals →
      t.nonces.Kept NonceRow.Becomes mid.nonces → insertReceived request (P.hash request) now mid = .ok t' →
      (live = true → ∃ n ∈ mid.nonces.rows, n.consumed = true ∧ n.commandId = request.commandId ∧
        n.requestHash = P.hash request) → Onward live t t' := by
    intro mid hledger hproposals hnonces hins hadmit
    obtain ⟨hp, hn, row, hrow, hid, hhash⟩ := insertReceived_rows hins
    rw [hledger] at hrow
    refine ⟨fun r hr => ⟨r, (Table.mem_insert? hrow).mpr (Or.inl hr), .refl r⟩, ?_, hn ▸ hnonces, fun hlive r hr => ?_⟩
    · rw [hp, hproposals]
      exact Table.Kept.refl ProposalRecord.Becomes.refl _
    · rcases (Table.mem_insert? hrow).mp hr with hr | rfl
      · exact Or.inl ⟨r, hr, .refl r⟩
      · obtain ⟨n, hmem, hconsumed, hnid, hnhash⟩ := hadmit hlive
        exact Or.inr ⟨n, hn ▸ hmem, hconsumed, hnid.trans hid.symm, hnhash.trans hhash.symm⟩
  unfold writeReceived at h
  split at h
  · split at h
    · cases h
    · rename_i mid hconsume
      obtain ⟨hledger, hproposals, hnonces, hspent⟩ := consume_spec hconsume
      exact hinsert mid hledger hproposals hnonces h fun _ => hspent
  · rename_i hlive
    exact hinsert t rfl rfl (Table.Kept.refl NonceRow.Becomes.refl _) h fun h => absurd h hlive

/-- An end of an approved proposal. -/
theorem updateProposal_onward {proposalId revision : Int} {f : ProposalRecord → ProposalRecord} {hf : ∀ r, (f r).id = r.id}
    {row : ProposalRecord} (hend : ∀ r : ProposalRecord, r.status = .APPROVED → r.Becomes (f r))
    (h : updateProposal t proposalId .APPROVED revision f hf = some (row, t')) : Onward live t t' := by
  unfold updateProposal at h
  split at h
  · rename_i old hold
    obtain ⟨hmem, hid⟩ := Table.get?_eq_some.mp hold
    split at h
    · rename_i happroved
      cases h
      refine .of_proposals (.of_map rfl fun r hr => ?_) rfl rfl
      split
      · rename_i hr'
        obtain rfl := t.proposals.eq_of_key hr hmem ((of_decide_eq_true hr').trans hid.symm)
        exact hend r happroved.1
      · exact .refl r
    · cases h
  · cases h

/-- What an order has of its proposal. -/
abbrev Ticket := Option String × Int × Side × ℚ

def SentOrder.ticket (o : SentOrder) : Ticket := (some o.orderGroupId, o.conid, o.side, o.quantity)

def ProposalRecord.ticket (r : ProposalRecord) : Ticket := (r.orderGroupId, r.conid, r.action, r.quantity.getD 0)

/-- **What a claim does to the proposals**: the claimed one was PENDING, the group is its own, no other row changes. -/
theorem claimForApproval_onward {id : Int} {expected : Option Int} {accountId : String} {claim : ApprovalClaim}
    (h : claimForApproval t id expected accountId now = (claim, t')) :
    (∃ code, claim = .failed code) ∨ (∃ row, claim = .expired row ∧ Onward live t t') ∨
      ∃ row, claim = .claimed row ∧ ∀ group, Onward live t (linkOrderGroup t' id group) ∧ t'.ledger = t.ledger ∧
        ∃ r ∈ (linkOrderGroup t' id group).proposals.rows, r.status ≠ .PENDING ∧
          r = { row with orderGroupId := some group } := by
  unfold claimForApproval at h
  split at h
  · rename_i pending hpending
    obtain ⟨hget, hcond⟩ := Option.filter_eq_some_iff.mp hpending
    obtain ⟨hmem, hid⟩ := Table.get?_eq_some.mp hget
    have hstatus : pending.status = .PENDING := (of_decide_eq_true hcond).1
    have hlt : pending.status.rank < (pending.claimed now).status.rank := by
      have hexpired : ∀ b : Bool, ProposalStatus.PENDING.rank < (if b then ProposalStatus.EXPIRED else .APPROVED).rank := by
        decide
      rw [hstatus]
      exact hexpired _
    have hclaimed : pending.Becomes (pending.claimed now) :=
      ⟨rfl, rfl, Or.inr ⟨hlt, Int.lt_succ pending.revision⟩, fun hr => absurd hstatus hr⟩
    have hone : ∀ r ∈ t.proposals.rows, r.id = id → r = pending := fun r hr hr' =>
      t.proposals.eq_of_key hr hmem (hr'.trans hid.symm)
    dsimp only at h
    split at h
    · rename_i happroved
      cases h
      refine Or.inr (Or.inr ⟨_, rfl, fun group => ⟨.of_proposals (fun r hr => ?_) rfl rfl, rfl, ?_⟩⟩)
      · refine ⟨_, List.mem_map.mpr ⟨_, List.mem_map.mpr ⟨r, hr, rfl⟩, rfl⟩, ?_⟩
        by_cases hr' : r.id = id
        · obtain rfl := hone r hr hr'
          have hkey : (r.claimed now).id = id := hr'
          rw [if_pos (decide_eq_true hr'), if_pos (decide_eq_true ⟨hkey, happroved⟩)]
          exact ⟨rfl, rfl, Or.inr ⟨hlt, Int.lt_succ r.revision⟩, fun hr => absurd hstatus hr⟩
        · simp only [hr', decide_false, Bool.false_eq_true, if_false, false_and]
          exact .refl r
      · refine ⟨_, List.mem_map.mpr ⟨_, List.mem_map.mpr ⟨pending, hmem, rfl⟩, rfl⟩, ?_⟩
        have hkey : (pending.claimed now).id = id := hid
        rw [if_pos (decide_eq_true hid), if_pos (decide_eq_true ⟨hkey, happroved⟩)]
        exact ⟨by rw [happroved]; decide, rfl⟩
    · cases h
      refine Or.inr (Or.inl ⟨_, rfl, .of_proposals (.of_map rfl fun r hr => ?_) rfl rfl⟩)
      split
      · rename_i hr'
        rw [hone r hr (of_decide_eq_true hr')]
        exact hclaimed
      · exact .refl r
  · cases h
    exact Or.inl ⟨_, rfl⟩

/-! ## Transactions -/

section
variable {α : Type} {own : CommandTables}

theorem look_ensures (f : CommandTables → α) : (TxWork.look f).Ensures (fun v t => v = f own ∧ t = own) own := by
  rintro t rfl
  exact ⟨rfl, rfl⟩

theorem exec_ensures (f : Statement) : (TxWork.exec f).Ensures (fun _ t => f own = .ok t) own := fun _ h => h

theorem put_ensures (t : CommandTables) : (TxWork.put t).Ensures (fun _ t' => t' = t) own := by
  rintro t' ⟨⟩
  rfl

theorem unjournaled_ensures (eventId : String) : (TxWork.unjournaled eventId).Ensures (fun _ t => t = own) own :=
  fun _ _ => rfl

theorem append_ensures (m : DomainMutation Json) (write : Statement) (eventId : String) (now : Int) :
    (TxWork.append m write eventId now).Ensures (fun _ t => t = own ∨ write own = .ok t) own := by
  intro _ t hown
  exact hown.imp id fun ⟨s, _, hs, hwrite⟩ => hs ▸ hwrite

theorem note_ensures (m : DomainMutation Json) (eventId : String) (now : Int) :
    (TxWork.note m eventId now).Ensures (fun _ t => t = own) own := by
  rintro - t (rfl | ⟨s, _, rfl, hwrite⟩)
  · rfl
  · cases hwrite
    rfl

theorem noteProposal_ensures (record : ProposalRecord) (correlationId : String) (now : Int) :
    (TxWork.noteProposal record correlationId now).Ensures (fun _ t => t = own) own := by
  rintro - t (rfl | ⟨s, revision, rfl, hwrite⟩)
  · rfl
  · dsimp only at hwrite
    split at hwrite
    · cases hwrite
      rfl
    · cases hwrite

end

/-- The order of a proposal claimed by a command that is past VALIDATED. -/
structure Issued (t : CommandTables) (k : Ticket) : Prop where
  proposal : ∃ r ∈ t.proposals.rows, r.status ≠ .PENDING ∧ r.ticket = k
  command : ∃ r ∈ t.ledger.rows, k.1 = some ("og-" ++ r.commandId) ∧ 2 ≤ r.state.rank

variable {k : Ticket}

theorem Issued.onward (h : Issued t k) (ht : Onward live t t') : Issued t' k := by
  obtain ⟨r, hr, hstatus, rfl⟩ := h.proposal
  obtain ⟨row, hrow, hgroup, hrank⟩ := h.command
  obtain ⟨r', hr', hb⟩ := ht.proposals r hr
  obtain ⟨row', hrow', hb'⟩ := ht.rows row hrow
  refine ⟨⟨r', hr', hb.claimed hstatus, ?_⟩, row', hrow', hb'.key ▸ hgroup, ?_⟩
  · have hterms := hb.terms
    simp only [Prod.mk.injEq] at hterms
    rw [ProposalRecord.ticket, ProposalRecord.ticket, hb.group hstatus, hterms.1, hterms.2.1, hterms.2.2]
  · rcases hb'.forward with rfl | hlt
    · exact hrank
    · omega

/-- What a claim leaves: the order of a command that was VALIDATED. -/
structure ClaimedFrom (t t' : CommandTables) (k : Ticket) : Prop where
  issued : Issued t' k
  before : ∃ r ∈ t.ledger.rows, k.1 = some ("og-" ++ r.commandId) ∧ r.state = .VALIDATED

theorem claimWork_ensures (P : Setup) (request : CommandRequest) (record : ProposalRecord) (direction : RiskDirection)
    (now : Int) (t : CommandTables) : (claimWork P request record direction now).Ensures
      (fun v t' => Onward live t t' ∧ ∀ row, v = some row → row.orderGroupId.isSome ∧ ClaimedFrom t t' row.ticket) t := by
  refine (exec_ensures _).bind fun _ own hown => ?_
  obtain rfl : own = t := by
    split at hown
    · unfold requireUnpaused at hown
      split at hown
      · cases hown
      · split at hown
        · cases hown
        · cases hown
          rfl
    · cases hown
      rfl
  refine (look_ensures _).bind fun x own' hx => ?_
  obtain ⟨claim, t'⟩ := x
  obtain ⟨hclaim, rfl⟩ := hx
  rcases claimForApproval_onward hclaim.symm with ⟨code, rfl⟩ | ⟨row, rfl, honward⟩ | ⟨row, rfl, hlinked⟩
  · trivial
  · refine (put_ensures _).bind fun _ _ hput => ?_
    subst hput
    refine (noteProposal_ensures _ _ _).bind fun _ _ hnote => ?_
    subst hnote
    exact ⟨honward, fun _ hrow => by cases hrow⟩
  · obtain ⟨honward, hledger, r, hr, hstatus, hrow⟩ := hlinked (orderGroupIdOf request)
    refine (put_ensures _).bind fun _ _ hput => ?_
    subst hput
    refine (noteProposal_ensures _ _ _).bind fun _ _ hnote => ?_
    subst hnote
    refine (exec_ensures _).bind fun _ moved hmoved => ?_
    obtain ⟨hmove, hproposals, ⟨b, hb, hbid, hbstate⟩, a, ha, haid, hastate⟩ := transition_onward (by decide) hmoved
    refine (note_ensures _ _ _).bind fun _ _ hnote => ?_
    subst hnote
    refine ⟨honward.trans hmove, ?_⟩
    rintro _ ⟨⟩
    refine ⟨rfl, ⟨⟨r, hproposals ▸ hr, hstatus, by rw [hrow]⟩, a, ha, ?_, by rw [hastate]; decide⟩, b, hledger ▸ hb, ?_,
      hbstate⟩
    · rw [haid]
      rfl
    · rw [hbid]
      rfl

/-! ## Steps -/

/-- A step that takes the tables onward and sends nothing. -/
structure Silent (live : Bool) (s s' : Shared) : Prop where
  tables : Onward live s.tables s'.tables
  broker : s'.broker = s.broker

theorem Silent.refl (s : Shared) : Silent live s s := ⟨Onward.refl _, rfl⟩

/-- What a batch does, also when its COMMIT fails. -/
theorem batch_cases {α : Type} {Q : α → CommandTables → Prop} {work : TxWork α} {s : Shared} (fault : Option CommandError)
    (h : work.Ensures Q s.tables) :
    (∃ v, (mutateBatchWork s.journal (commitWith fault work)).1 = .ok v ∧
      Q v (mutateBatchWork s.journal (commitWith fault work)).2.tables.own) ∨
    ∃ e, (mutateBatchWork s.journal (commitWith fault work)).1 = .error e ∧
      (mutateBatchWork s.journal (commitWith fault work)).2.tables = s.journal.tables := by
  refine mutateBatchWork_ensures ?_
  cases fault with
  | none => exact h
  | some e => exact h.bind fun _ _ _ => trivial

theorem batch_silent {α : Type} {work : Answers → Shared → TxWork α}
    (h : ∀ a s, (work a s).Ensures (fun _ t => Onward live s.tables t) s.tables) : Steps (Silent live) (batch work) := by
  refine Steps.atomic fun a s => ?_
  rcases batch_cases a.fault (h a s) with ⟨v, hv, hon⟩ | ⟨e, he, hsame⟩
  · cases hm : mutateBatchWork s.journal (commitWith a.fault (work a s)) with
    | mk r j =>
      rw [hm] at hv hon
      cases hv
      exact ⟨hon, rfl⟩
  · cases hm : mutateBatchWork s.journal (commitWith a.fault (work a s)) with
    | mk r j =>
      rw [hm] at he hsame
      cases he
      refine ⟨?_, rfl⟩
      rw [Shared.tables, Shared.tables, hsame]
      exact Onward.refl _

theorem look_silent {α : Type} (f : Answers → Shared → Except CommandError α) : Steps (Silent live) (look f) :=
  Steps.read Silent.refl

theorem schedule_silent (commandId : String) : Steps (Silent live) (schedule commandId) :=
  Steps.atomic fun _ _ => ⟨Onward.refl _, rfl⟩

variable {fromState toState : CommandState}

theorem appended_onward (request : CommandRequest) (outcome : Option Json) (errorCode : Option String) (now : Int)
    (hlt : fromState.rank < toState.rank) : (TxWork.append (request.updated toState outcome errorCode now)
      (transition request.commandId fromState toState outcome errorCode now) (commandEventId request.commandId toState)
      now).Ensures (fun _ t' => Onward live t t') t := by
  refine (append_ensures _ _ _ _).mono fun _ t' ht => ?_
  rcases ht with rfl | hmoved
  · exact Onward.refl _
  · exact (transition_onward hlt hmoved).1

theorem transitionCommand_silent (request : CommandRequest) (outcome : Option Json) (errorCode : Option String)
    (hlt : fromState.rank < toState.rank) :
    Steps (Silent live) (transitionCommand request fromState toState outcome errorCode) :=
  batch_silent fun a _ => appended_onward request outcome errorCode a.now hlt

theorem coordinatorTransition_silent (request : CommandRequest) (outcome : Option Json) (errorCode : Option String)
    (hlt : fromState.rank < toState.rank) :
    Steps (Silent live) (coordinatorTransition request fromState toState outcome errorCode) := by
  refine (batch_silent fun a s => ?_).bind fun row => ?_
  · refine (unjournaled_ensures _).bind fun written own hown => ?_
    subst hown
    refine Work.Ensures.bind (Q := fun _ t => Onward live s.tables t)
      (appended_onward request outcome errorCode a.now hlt) fun _ own' hon => ?_
    rintro t rfl
    exact hon
  · cases row with
    | none => exact Steps.raise
    | some row => exact Steps.pure

theorem losingClaimReceipt_silent (P : Setup) (request : CommandRequest) :
    Steps (Silent live) (losingClaimReceipt P request) := by
  refine (look_silent _).bind fun receipt => ?_
  cases receipt with
  | none => exact Steps.raise
  | some receipt => exact Steps.pure

theorem fallbackOutcomeUnknown_silent (request : CommandRequest) :
    Steps (Silent live) (fallbackOutcomeUnknown request) := by
  refine Steps.bind (Steps.attempt ?_) fun r => ?_
  · refine (look_silent _).bind fun current => ?_
    cases current with
    | none => exact Steps.pure
    | some current =>
      dsimp only
      split
      · exact Steps.pure
      · rename_i hopen
        refine (coordinatorTransition_silent request _ _ ?_).bind fun _ => Steps.pure
        revert hopen
        cases current.state <;> decide
  · split
    · exact schedule_silent _
    · exact Steps.pure

theorem receive_silent (P : Setup) (request : CommandRequest) : Steps (Silent live) (receive P live request) := by
  refine batch_silent fun a s => ?_
  refine (unjournaled_ensures _).bind fun inserted own hown => ?_
  subst hown
  refine (append_ensures _ _ _ _).bind fun _ t ht => ?_
  rcases ht with rfl | hwrite
  · exact Onward.refl _
  · exact writeReceived_onward hwrite

/-- The transaction that ends an approved proposal with its command. -/
theorem ended_silent
    {update : Answers → CommandTables → Option (ProposalRecord × CommandTables)} (hlt : fromState.rank < toState.rank)
    (h : ∀ a t row t', update a t = some (row, t') → Onward live t t') :
    Steps (Silent live) (batch fun a _ => do
      match ← TxWork.look (update a) with
      | none => TxWork.raise .concurrentProposalChange
      | some (row, t) => do
        TxWork.put t
        TxWork.noteProposal row request.commandId a.now
        TxWork.exec (transition request.commandId fromState toState outcome errorCode a.now)
        TxWork.note (request.updated toState outcome errorCode a.now) (commandEventId request.commandId toState) a.now) := by
  refine batch_silent fun a s => (look_ensures _).bind fun x own hx => ?_
  obtain ⟨hx, rfl⟩ := hx
  cases x with
  | none => trivial
  | some x =>
    obtain ⟨row, t⟩ := x
    refine (put_ensures _).bind fun _ _ hput => ?_
    subst hput
    refine (noteProposal_ensures _ _ _).bind fun _ _ hnote => ?_
    subst hnote
    refine (exec_ensures _).bind fun _ moved hmoved => ?_
    refine (note_ensures _ _ _).mono fun _ _ hnote => ?_
    subst hnote
    exact (h a _ row _ hx.symm).trans (transition_onward hlt hmoved).1

theorem failAfterBrokerRejection_silent (request : CommandRequest) (record : ProposalRecord) (reason errorCode : String) :
    Steps (Silent live) (failAfterBrokerRejection request record reason errorCode) := by
  refine ended_silent (by decide) fun a t row t' h => updateProposal_onward (fun r hr => ?_) h
  exact ⟨rfl, rfl, Or.inr ⟨by rw [hr]; exact Nat.one_lt_two, Int.lt_succ r.revision⟩, fun _ => rfl⟩

theorem finish_silent (request : CommandRequest) (record : ProposalRecord) (orderIds : List Int) :
    Steps (Silent live) (batch fun a _ => finishWork request record orderIds a.now) := by
  refine ended_silent (by decide) fun a t row t' h => updateProposal_onward (fun r hr => ?_) h
  exact ⟨rfl, rfl, Or.inr ⟨by rw [hr]; exact Nat.one_lt_two, Int.lt_succ r.revision⟩, fun _ => rfl⟩

theorem parkAmbiguous_silent (request : CommandRequest) (outcome : Option Json) :
    Steps (Silent live) (parkAmbiguous request outcome) :=
  (transitionCommand_silent request _ _ (by decide)).bind fun _ => (schedule_silent _).bind fun _ => Steps.pure

theorem rejectFrom_silent (request : CommandRequest) (code : String) (hlt : fromState.rank < CommandState.REJECTED.rank) :
    Steps (Silent live) (rejectFrom request fromState code) :=
  (transitionCommand_silent request _ _ hlt).bind fun _ => Steps.pure

/-! ## The right to send -/

/-- A command may hold the right to send one order. -/
inductive Move (live : Bool) : Option Ticket → Shared → Shared → Option Ticket → Prop
  | silent {x : Option Ticket} {s s' : Shared} (h : Silent live s s') : Move live x s s' x
  | claim {s s' : Shared} {k : Ticket} (h : Silent live s s') (hk : ClaimedFrom s.tables s'.tables k) :
    Move live none s s' (some k)
  | send {s : Shared} (o : SentOrder) : Move live (some o.ticket) s { s with broker := s.broker.send o } none

variable {x : Option Ticket}

theorem silent_follows {α : Type} {p : Call α} {Q : Except CommandError α → Option Ticket → Prop} (h : Steps (Silent live) p)
    (hQ : ∀ r, Q r x) : Follows (Move live) Q p x := .of_steps h (fun _ _ hs => .silent hs) hQ

variable {record : ProposalRecord}

/-- The right to send the order of a record that a claim returned. -/
theorem submit_follows (P : Setup) (direction : RiskDirection) (h : record.orderGroupId.isSome) :
    Follows (Move live) (fun _ _ => True) (submit P record direction) (some record.ticket) := by
  unfold submit
  split
  · trivial
  · refine Follows.bind (Q := fun _ _ => True) ?_
      (fun k y _ => silent_follows (look_silent _) fun _ => trivial) fun _ _ _ => trivial
    have hticket : (sentOrderOf record direction).ticket = record.ticket := by
      obtain ⟨group, hgroup⟩ := Option.isSome_iff_exists.mp h
      simp [sentOrderOf, SentOrder.ticket, ProposalRecord.ticket, hgroup]
    refine .atomic fun a s => ?_
    cases a.fault with
    | some e => exact ⟨_, .silent (.refl s), trivial⟩
    | none => exact ⟨none, hticket ▸ .send _, trivial⟩

theorem dispatch_follows (P : Setup) (request : CommandRequest) (context : ApprovalContext) (h : record.orderGroupId.isSome) :
    Follows (Move live) (fun _ _ => True) (dispatch P request record context) (some record.ticket) := by
  refine Follows.bind (Q := fun _ y => y = some record.ticket)
    (silent_follows (revalidate_steps Silent.refl P request context).attempt fun _ => rfl) ?_ fun _ _ _ => trivial
  rintro r _ rfl
  split
  · exact silent_follows ((look_silent _).bind fun _ => (failAfterBrokerRejection_silent _ _ _ _).bind fun _ => Steps.pure)
      fun _ => trivial
  · trivial
  · refine Follows.bind (Q := fun _ y => y = some record.ticket) (silent_follows ?_ fun _ => rfl) ?_ fun _ _ _ => trivial
    · unfold Prog.onlyIf
      split
      · exact look_silent _
      · exact Steps.pure
    · rintro _ _ rfl
      -- whatever becomes of the order, nothing after it sends
      refine Follows.bind (Q := fun _ _ => True)
        ((submit_follows P _ h).attempt fun _ _ _ => trivial) ?_ fun _ _ _ => trivial
      intro r y _
      refine silent_follows ?_ fun _ => trivial
      split
      · exact (failAfterBrokerRejection_silent _ _ _ _).bind fun _ => Steps.pure
      · exact parkAmbiguous_silent request _
      · refine (finish_silent request record _).attempt.bind fun r => ?_
        split
        · exact parkAmbiguous_silent request _
        · exact Steps.pure

/-- Who is given the claimed row holds the right to send its order. -/
theorem claim_follows (P : Setup) (request : CommandRequest) (record : ProposalRecord) (direction : RiskDirection) :
    Follows (Move live) (fun r y => ∀ row, r = .ok (some row) → row.orderGroupId.isSome ∧ y = some row.ticket)
      (batch fun a _ => claimWork P request record direction a.now) none := by
  refine .atomic fun a s => ?_
  rcases batch_cases a.fault (claimWork_ensures P request record direction a.now s.tables) with
    ⟨v, hv, hon, hrow⟩ | ⟨e, he, hsame⟩
  · cases hm : mutateBatchWork s.journal (commitWith a.fault (claimWork P request record direction a.now)) with
    | mk r j =>
      rw [hm] at hv hon hrow
      cases hv
      cases v with
      | none => exact ⟨none, .silent ⟨hon, rfl⟩, by rintro _ ⟨⟩⟩
      | some row =>
        obtain ⟨hgroup, hk⟩ := hrow row rfl
        refine ⟨some row.ticket, .claim ⟨hon, rfl⟩ hk, ?_⟩
        rintro _ ⟨⟩
        exact ⟨hgroup, rfl⟩
  · cases hm : mutateBatchWork s.journal (commitWith a.fault (claimWork P request record direction a.now)) with
    | mk r j =>
      rw [hm] at he hsame
      cases he
      refine ⟨none, .silent ⟨?_, rfl⟩, by rintro _ ⟨⟩⟩
      rw [Shared.tables, Shared.tables, hsame]
      exact Onward.refl _

theorem claimAndDispatch_follows (P : Setup) (request : CommandRequest) (record : ProposalRecord) (context : ApprovalContext) :
    Follows (Move live) (fun _ _ => True) (claimAndDispatch P request record context) none := by
  refine Follows.bind ((claim_follows P request record context.riskDirection).attempt (T := fun r y =>
    ∀ row, r = .ok (.ok (some row)) → row.orderGroupId.isSome ∧ y = some row.ticket) ?_) ?_ fun _ _ _ => trivial
  · rintro r y hr row ⟨⟩
    exact hr row rfl
  · intro r y hr
    split
    · exact silent_follows (rejectFrom_silent request _ (by decide)) fun _ => trivial
    · exact silent_follows (rejectFrom_silent request _ (by decide)) fun _ => trivial
    · exact silent_follows (rejectFrom_silent request _ (by decide)) fun _ => trivial
    · trivial
    · exact silent_follows (rejectFrom_silent request _ (by decide)) fun _ => trivial
    · obtain ⟨hgroup, rfl⟩ := hr _ rfl
      exact dispatch_follows P request context hgroup

theorem approve_follows (P : Setup) (request : CommandRequest) :
    Follows (Move live) (fun _ _ => True) (approve P request) none := by
  unfold approve
  split
  · refine Follows.bind (Q := fun _ y => y = none) (silent_follows (look_silent _) fun _ => rfl) ?_ fun _ _ _ => trivial
    rintro record _ rfl
    refine Follows.bind (Q := fun _ y => y = none)
      (silent_follows (validate_steps Silent.refl P request record) fun _ => rfl) ?_
      fun _ _ _ => trivial
    rintro verdict _ rfl
    refine Follows.bind (Q := fun _ y => y = none) (silent_follows (look_silent _) fun _ => rfl) ?_ fun _ _ _ => trivial
    rintro _ _ rfl
    split
    · exact silent_follows (rejectFrom_silent request _ (by decide)) fun _ => trivial
    · refine Follows.bind (Q := fun _ y => y = none)
        (silent_follows (transitionCommand_silent request _ _ (by decide)) fun _ => rfl) ?_ fun _ _ _ => trivial
      rintro _ _ rfl
      exact claimAndDispatch_follows P request _ _
  · trivial

/-- **A command sends at most the one order that it claimed.** -/
theorem approvals_follow (P : Setup) (request : CommandRequest) :
    Follows (Move (P.accountMode = .live)) (fun _ _ => True) ((approvals P).main request) none := by
  refine Follows.bind (Q := fun _ y => y = none) (silent_follows (look_silent _) fun _ => rfl) ?_ fun _ _ _ => trivial
  rintro receipt _ rfl
  cases receipt with
  | some receipt => trivial
  | none =>
    refine Follows.bind (Q := fun _ y => y = none) (silent_follows (receive_silent P request).attempt fun _ => rfl) ?_
      fun _ _ _ => trivial
    rintro r _ rfl
    split
    · refine Follows.bind (Q := fun _ _ => True) ((approve_follows P request).attempt fun _ _ _ => trivial) ?_
        fun _ _ _ => trivial
      intro r y _
      refine silent_follows ?_ fun _ => trivial
      cases r with
      | ok receipt => exact Steps.pure
      | error e => exact (fallbackOutcomeUnknown_silent request).bind fun _ => Steps.raise
    · exact silent_follows (losingClaimReceipt_silent P request) fun _ => trivial
    · trivial
    · exact silent_follows (losingClaimReceipt_silent P request) fun _ => trivial
    · trivial

/-! ## Runs -/

def Broker.tickets (b : Broker) : List Ticket := b.book.orders.map SentOrder.ticket

theorem tickets_modify (orders : List SentOrder) (k : Nat) (f : SentOrder → SentOrder) (hf : ∀ o, (f o).ticket = o.ticket) :
    (orders.modify k f).map SentOrder.ticket = orders.map SentOrder.ticket := by
  refine List.ext_getElem? fun j => ?_
  rw [List.getElem?_map, List.getElem?_map, List.getElem?_modify]
  cases orders[j]? with
  | none => rfl
  | some o =>
    by_cases hk : k = j
    · simp [hk, hf]
    · simp [hk]

/-- The broker alone sends nothing. -/
theorem step_tickets (b : Broker) (e : Outside) : (b.step e).tickets = b.tickets := by
  cases e with
  | place k =>
    refine tickets_modify _ k _ fun o => ?_
    split
    · rfl
    · rfl
  | fill k q =>
    show (b.book.fill k q).orders.map _ = _
    rcases fill_cases b.book k q with hf | ⟨o, ho, -, -, hf⟩
    · rw [hf]
      rfl
    · have hset : b.book.orders.set k { o with filled := o.filled + q } =
          b.book.orders.modify k fun x => { x with filled := x.filled + q } := by
        rw [List.modify_eq_set_getElem?, ho]
        rfl
      rw [hf]
      exact (congrArg _ hset).trans (tickets_modify _ k _ fun _ => rfl)
  | die k => exact tickets_modify _ k _ fun _ => rfl
  | enumerate => rfl
  | promote =>
    unfold Broker.step
    cases b.staged <;> rfl
  | otherOrder c delta => rfl

/-- Every order was claimed, no two have one group, and whoever holds the right to an order is alone with it. -/
structure Once (s : Shared) (places : Nat → Option Ticket) : Prop where
  issued : ∀ k ∈ s.broker.tickets, Issued s.tables k
  sent : (s.broker.tickets.map Prod.fst).Nodup
  held : ∀ i k, places i = some k → Issued s.tables k ∧ k.1 ∉ s.broker.tickets.map Prod.fst
  single : ∀ i j k k', places i = some k → places j = some k' → k.1 = k'.1 → i = j

variable {s s' : Shared} {places : Nat → Option Ticket}
variable {i : Nat}

theorem place_of_update {j : Nat} (h : Function.update places i x j = some k) :
    (j = i ∧ x = some k) ∨ (j ≠ i ∧ places j = some k) := by
  by_cases hj : j = i
  · subst hj
    rw [Function.update_self] at h
    exact Or.inl ⟨rfl, h⟩
  · rw [Function.update_of_ne hj] at h
    exact Or.inr ⟨hj, h⟩

theorem Once.forget (h : Once s places) (i : Nat) : Once s (Function.update places i none) := by
  have hold : ∀ j k, Function.update places i none j = some k → places j = some k := by
    intro j k hj
    rcases place_of_update hj with ⟨-, hnone⟩ | ⟨-, hj⟩
    · cases hnone
    · exact hj
  exact ⟨h.issued, h.sent, fun j k hj => h.held j k (hold j k hj),
    fun j j' k k' hj hj' => h.single j j' k k' (hold j k hj) (hold j' k' hj')⟩

theorem Once.silent (h : Once s places) (hs : Silent live s s') : Once s' places := by
  obtain ⟨ht, hb⟩ := hs
  refine ⟨fun k hk => (h.issued k (hb ▸ hk)).onward ht, hb ▸ h.sent, fun i k hi => ?_, h.single⟩
  obtain ⟨hissued, hnot⟩ := h.held i k hi
  exact ⟨hissued.onward ht, hb ▸ hnot⟩

/-- The claimed order is new: its command was VALIDATED before. -/
theorem ClaimedFrom.fresh {k' : Ticket} (h : ClaimedFrom t t' k) (h' : Issued t k') : k'.1 ≠ k.1 := by
  intro heq
  obtain ⟨r, hr, hgroup, hstate⟩ := h.before
  obtain ⟨r', hr', hgroup', hrank⟩ := h'.command
  have hid : r'.commandId = r.commandId :=
    (String.append_right_inj "og-").mp (Option.some.inj (hgroup'.symm.trans (heq.trans hgroup)))
  rw [t.ledger.eq_of_key hr' hr hid, hstate] at hrank
  exact absurd hrank (by decide)

theorem Once.claim (h : Once s places) (hs : Silent live s s') (hk : ClaimedFrom s.tables s'.tables k) (i : Nat) :
    Once s' (Function.update places i (some k)) := by
  have hnew := h.silent hs
  have hother : ∀ j k', places j = some k' → k'.1 ≠ k.1 := fun j k' hj => hk.fresh (h.held j k' hj).1
  refine ⟨hnew.issued, hnew.sent, fun j k' hj => ?_, fun j j' k₁ k₂ hj hj' heq => ?_⟩
  · rcases place_of_update hj with ⟨-, hj⟩ | ⟨-, hj⟩
    · cases hj
      refine ⟨hk.issued, fun hmem => ?_⟩
      obtain ⟨k', hk', heq⟩ := List.mem_map.mp hmem
      exact hk.fresh (h.issued k' (hs.broker ▸ hk')) heq
    · exact hnew.held j k' hj
  · rcases place_of_update hj with ⟨hi, hj⟩ | ⟨-, hj⟩
    · cases hj
      rcases place_of_update hj' with ⟨hi', -⟩ | ⟨-, hj'⟩
      · exact hi.trans hi'.symm
      · exact absurd heq.symm (hother j' k₂ hj')
    · rcases place_of_update hj' with ⟨-, hj'⟩ | ⟨-, hj'⟩
      · cases hj'
        exact absurd heq (hother j k₁ hj)
      · exact h.single j j' k₁ k₂ hj hj' heq

theorem Once.send {o : SentOrder} (h : Once s places) (hi : places i = some o.ticket) :
    Once { s with broker := s.broker.send o } (Function.update places i none) := by
  obtain ⟨hissued, hnot⟩ := h.held i _ hi
  have htickets : (s.broker.send o).tickets = s.broker.tickets ++ [o.ticket] := List.map_append
  refine ⟨fun k hk => ?_, ?_, fun j k hj => ?_, (h.forget i).single⟩
  · rw [htickets, List.mem_append, List.mem_singleton] at hk
    rcases hk with hk | rfl
    · exact h.issued k hk
    · exact hissued
  · rw [htickets, List.map_append, List.map_singleton]
    exact List.nodup_append.mpr ⟨h.sent, List.nodup_singleton _, by
      rintro a ha _ hb rfl
      exact hnot (List.mem_singleton.mp hb ▸ ha)⟩
  · rcases place_of_update hj with ⟨-, hj⟩ | ⟨hne, hj⟩
    · cases hj
    · obtain ⟨hk, hknot⟩ := h.held j k hj
      refine ⟨hk, ?_⟩
      rw [htickets, List.map_append, List.mem_append, List.map_singleton, List.mem_singleton]
      rintro (hmem | heq)
      · exact hknot hmem
      · exact hne (h.single j i k _ hj hi heq)

theorem Once.move {y : Option Ticket} (h : Once s places) (hm : Move live (places i) s s' y) :
    Once s' (Function.update places i y) := by
  generalize hx : places i = x at hm
  cases hm with
  | silent hs =>
    rw [← hx, Function.update_eq_self]
    exact h.silent hs
  | claim hs hk => exact h.claim hs hk i
  | send o => exact h.send hx

theorem Once.env (h : Once s places) (e : Outside) : Once { s with broker := s.broker.step e } places := by
  refine ⟨fun k hk => h.issued k ?_, ?_, fun i k hi => ⟨(h.held i k hi).1, ?_⟩, h.single⟩
  · rwa [← step_tickets s.broker e]
  · rw [step_tickets]
    exact h.sent
  · rw [step_tickets]
    exact (h.held i k hi).2

variable {w : Pool}

theorem allFollow_init (hw : ∀ i, w.threads i = none) : AllFollow (Move live) (fun _ => none) w := fun i p hp => by
  rw [hw i] at hp
  cases hp

/-- The orders at the broker: no two of one command or of one proposal, and each of a claimed proposal, on its terms. -/
structure SentOnce (t : CommandTables) (orders : List SentOrder) : Prop where
  commands : (orders.map (·.orderGroupId)).Nodup
  started : ∀ o ∈ orders, ∃ row ∈ t.ledger.rows, o.orderGroupId = "og-" ++ row.commandId ∧ 2 ≤ row.state.rank
  proposals : orders.Pairwise fun o o' => ∀ r ∈ t.proposals.rows, r.orderGroupId = some o.orderGroupId →
    r.orderGroupId ≠ some o'.orderGroupId
  terms : ∀ o ∈ orders, ∃ r ∈ t.proposals.rows, r.status ≠ .PENDING ∧ r.orderGroupId = some o.orderGroupId ∧
    r.conid = o.conid ∧ r.action = o.side ∧ r.quantity.getD 0 = o.quantity

theorem Once.sentOnce (h : Once s places) : SentOnce s.tables s.broker.book.orders := by
  have hgroups : (s.broker.book.orders.map (·.orderGroupId)).Nodup := by
    have hsent := h.sent
    rw [Broker.tickets, List.map_map] at hsent
    refine List.Nodup.of_map some ?_
    rw [List.map_map]
    exact hsent
  refine ⟨hgroups, fun o ho => ?_, ?_, fun o ho => ?_⟩
  · obtain ⟨row, hrow, hgroup, hrank⟩ := (h.issued _ (List.mem_map_of_mem ho)).command
    exact ⟨row, hrow, Option.some.inj hgroup, hrank⟩
  · refine (List.pairwise_map.mp hgroups).imp fun hne r _ hr hr' => ?_
    exact hne (Option.some.inj (hr.symm.trans hr'))
  · obtain ⟨r, hr, hstatus, hticket⟩ := (h.issued _ (List.mem_map_of_mem ho)).proposal
    simp only [ProposalRecord.ticket, SentOrder.ticket, Prod.mk.injEq] at hticket
    exact ⟨r, hr, hstatus, hticket⟩

/-- **An approved proposal is sent at most once**, in every run of any approvals, the broker and processes that die:
by the command that claimed it, after it did. -/
theorem approvals_send_once (P : Setup) (w : Pool) (hw : ∀ i, w.threads i = none) (hempty : (bookOf w).orders = [])
    (ls : List Step) :
    SentOnce ((approvals P).run w ls).shared.tables (bookOf ((approvals P).run w ls)).orders := by
  have htickets : w.shared.broker.tickets = [] := congrArg (List.map SentOrder.ticket) hempty
  have hinit : Once w.shared fun _ => none := by
    refine ⟨fun k hk => ?_, ?_, fun _ _ hi => (nomatch hi), fun _ _ _ _ hi => (nomatch hi)⟩
    · rw [htickets] at hk
      cases hk
    · rw [htickets]
      exact List.nodup_nil
  obtain ⟨places, -, h⟩ := System.follow_run (S := approvals P) (I := Once) (approvals_follow P)
    (fun s places i h => h.forget i) (fun s s' places i y h hm => h.move hm) (fun e s places h => h.env e)
    (allFollow_init hw) hinit ls
  exact h.sentOnce

theorem approvals_send_once_two : SentOnce ((approvals TwoReductions.setup).run TwoReductions.start
    TwoReductions.schedule).shared.tables
    (bookOf ((approvals TwoReductions.setup).run TwoReductions.start TwoReductions.schedule)).orders :=
  approvals_send_once TwoReductions.setup TwoReductions.start (fun _ => rfl) rfl TwoReductions.schedule

theorem onward_run (P : Setup) {places : Nat → Option Ticket} (hw : AllFollow (Move (P.accountMode = .live)) places w)
    (ls : List Step) : ∃ places', AllFollow (Move (P.accountMode = .live)) places' ((approvals P).run w ls) ∧
      Onward (P.accountMode = .live) w.shared.tables ((approvals P).run w ls).shared.tables := by
  refine System.follow_run (S := approvals P) (I := fun s _ => Onward (P.accountMode = .live) w.shared.tables s.tables)
    (approvals_follow P) (fun s places i h => h) (fun s s' places i y h hm => ?_) (fun e s places h => h) hw
    (Onward.refl _) ls
  generalize places i = x at hm
  cases hm with
  | silent hs => exact h.trans hs.tables
  | claim hs hk => exact h.trans hs.tables
  | send o => exact h

/-- **Commands and proposals only go forward** from any state of a run to any later one, and what has ended stays as it
is; a consumed nonce stays consumed, and on a live account every new row has consumed the nonce issued for it. -/
theorem approvals_go_forward (P : Setup) (w : Pool) (hw : ∀ i, w.threads i = none) (ls ls' : List Step) :
    Onward (P.accountMode = .live) ((approvals P).run w ls).shared.tables
      ((approvals P).run w (ls ++ ls')).shared.tables := by
  obtain ⟨places, hmid, -⟩ := onward_run P (allFollow_init hw) ls
  obtain ⟨-, -, h⟩ := onward_run P hmid ls'
  rw [System.run_append]
  exact h

namespace LiveApproval

def setup : Setup := { TwoReductions.setup with accountMode := .live }

def start : Pool :=
  { TwoReductions.start with
    shared.journal.tables.own.nonces := ⟨[⟨"n", "a", some "DU1", "", "", 0, false⟩], by decide⟩ }

theorem colonFree : ':' ∉ "a".toList := by decide

/-- The command consumes its nonce, and its proposal may not be approved live. -/
def schedule : List Step :=
  .start 0 { TwoReductions.request "a" 1 colonFree with preflightNonce := some "n" } ::
    List.replicate 9 (.go 0 TwoReductions.answers)

end LiveApproval

theorem approvals_go_forward_live : Onward true LiveApproval.start.shared.tables
    ((approvals LiveApproval.setup).run LiveApproval.start LiveApproval.schedule).shared.tables :=
  approvals_go_forward LiveApproval.setup LiveApproval.start (fun _ => rfl) [] LiveApproval.schedule

end MmrTrader.Command
