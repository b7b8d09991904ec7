import MmrTrader.Saga.Reservation

/-!
# What a send was checked against

* `EntryInv` — the invariant of the entry system: the account lock, and the list each entry read;
* `entryStep_inv` — every action keeps it;
* `submit_within_gross` — whenever `submit_bracket` is called for an entry, every other sent entry was
  in its list, and the projected gross fits under the ceiling.
-/

set_option autoImplicit false

namespace MmrTrader.Saga

open MmrTrader.Dispatch

/-- Between `acquire` and the end of `start`. -/
def StartPhase.isLocked : StartPhase → Bool
  | .waiting | .done => false
  | _ => true

/-- The list the thread works with. -/
def StartPhase.list : StartPhase → Option ListRead
  | .listed l => some l
  | .permitted p | .committed p => some p.list
  | _ => none

/-- The guard readings it passed. -/
def StartPhase.pass : StartPhase → Option GuardPass
  | .permitted p | .committed p => some p
  | _ => none

structure ListOk (accountId : String) (entries : List String) (e : EntryStart) (l : ListRead) : Prop where
  read : inFlightEntries accountId e.commandId l.rows = some l.entries
  sent : ∀ c ∈ entries, c ≠ e.commandId → ∃ r, loadRow l.rows c = some r ∧ SentEntry accountId r.saga.row

variable {ph : StartPhase} {l : ListRead}

theorem StartPhase.isLocked_of_list (h : ph.list = some l) : ph.isLocked = true := by
  cases ph with
  | listed l' => rfl
  | permitted p => rfl
  | committed p => rfl
  | _ => cases h

variable (cfg : GuardConfig)

def PassOk (e : EntryStart) (p : GuardPass) : Prop :=
  revalidate cfg (e.withAllocationEvidence p.list.entries) e.request p.readings e.now = .ok ()

structure ThreadOk (holder : Option Nat) (entries : List String) (i : Nat) (th : StartThread) : Prop where
  lock : th.start.isReduction = false → th.phase.isLocked = true → holder = some i
  list : th.start.isReduction = false → ∀ l, th.phase.list = some l → ListOk cfg.accountId entries th.start l
  pass : ∀ p, th.phase.pass = some p → PassOk cfg th.start p

section
-- the equations of `entryStep`, which every step below unfolds
attribute [local simp] entryStep
end

structure EntryInv (s : EntrySystem) : Prop where
  sent : SentTable cfg.accountId s.rows s.entries
  threads : ∀ (i : Nat) (th : StartThread), s.threads[i]? = some th → ThreadOk cfg s.holder s.entries i th

theorem empty_inv : EntryInv cfg EntrySystem.empty :=
  ⟨fun c hc => (by cases hc), fun i th h => by simp [EntrySystem.empty] at h⟩

variable {cfg}

/-! ## Changes of one thread -/

variable {i : Nat}
variable {th : StartThread}

theorem getElem?_set_cases {th' : StartThread} {ths : List StartThread} {j : Nat}
    (h : (ths.set i th')[j]? = some th) : (j = i ∧ th = th') ∨ (j ≠ i ∧ ths[j]? = some th) := by
  by_cases hij : j = i
  · subst hij
    rw [List.getElem?_set] at h
    simp only [if_true] at h
    split at h
    · exact Or.inl ⟨rfl, (Option.some.inj h).symm⟩
    · cases h
  · rw [List.getElem?_set_ne (Ne.symm hij)] at h
    exact Or.inr ⟨hij, h⟩

variable {s : EntrySystem}
variable {rows : List EntryRow}

theorem EntryInv.setThread (h : EntryInv cfg s)
    (hrows : SentTable cfg.accountId rows s.entries) (hth : ThreadOk cfg s.holder s.entries i th) :
    EntryInv cfg { s with rows := rows, threads := s.threads.set i th } := by
  refine ⟨hrows, ?_⟩
  intro j th' hj
  rcases getElem?_set_cases hj with ⟨rfl, rfl⟩ | ⟨-, hj⟩
  · exact hth
  · exact h.threads j th' hj

theorem threadOk_free (holder : Option Nat) (entries : List String) (i : Nat) (e : EntryStart)
    (hlock : ph.isLocked = false) : ThreadOk cfg holder entries i ⟨e, ph⟩ := by
  cases ph with
  | waiting => exact ⟨fun _ h => (by cases h), fun _ l h => (by cases h), fun p h => (by cases h)⟩
  | done => exact ⟨fun _ h => (by cases h), fun _ l h => (by cases h), fun p h => (by cases h)⟩
  | _ => cases hlock

/-- A thread that leaves gives back the lock only if it holds it. -/
theorem EntryInv.leave (h : EntryInv cfg s) (i : Nat) (e : EntryStart)
    (hrows : SentTable cfg.accountId rows s.entries) : EntryInv cfg ({ s with rows := rows }.leave i e) := by
  refine ⟨hrows, ?_⟩
  intro j th hj
  rcases getElem?_set_cases hj with ⟨rfl, rfl⟩ | ⟨hne, hj⟩
  · exact threadOk_free _ _ _ _ rfl
  · have hold := h.threads j th hj
    refine ⟨?_, hold.list, hold.pass⟩
    intro hred hlocked
    have hh := hold.lock hred hlocked
    show (if s.holder = some i then none else s.holder) = some j
    rw [if_neg]
    · exact hh
    · intro hi
      exact hne (Option.some.inj (hh.symm.trans hi))

variable {e : EntryStart}

theorem persist_spec {s' : EntrySystem} {new : SagaState} (h : s.persist e new = some s') :
    ∃ r, loadRow s.rows e.commandId = some r ∧ r.saga.row.revision + 1 = new.revision ∧
      s' = { s with rows := saveRow s.rows e.commandId new e.now } := by
  unfold EntrySystem.persist at h
  split at h
  · rename_i r hr
    split at h
    · rename_i hrev
      exact ⟨r, hr, hrev, (Option.some.inj h).symm⟩
    · cases h
  · cases h

/-- A refusal closes a row that was never sent. -/
theorem EntryInv.refuse (h : EntryInv cfg s) (i : Nat) (e : EntryStart) (code : String) :
    EntryInv cfg (s.refuse cfg i e code) := by
  unfold EntrySystem.refuse
  dsimp only
  cases hp : s.persist e { e.validated cfg.accountId with
      state := .CLOSED, errorCode := some code, revision := 2 } with
  | none => exact h.leave i e h.sent
  | some s' =>
    obtain ⟨r, hr, hrev, rfl⟩ := persist_spec hp
    refine h.leave i e (h.sent.save e.now rfl ?_)
    intro q hq hsent
    obtain rfl : q = r := Option.some.inj (hq.symm.trans hr)
    have hge := hsent.revision
    simp only at hrev
    omega

/-! ## The steps -/

theorem start_inv (h : EntryInv cfg s) (e : EntryStart) : EntryInv cfg (entryStep cfg s (.start e)) := by
  simp only [entryStep]
  split
  · exact h
  · refine ⟨h.sent.insert _, ?_⟩
    intro j th hj
    rw [List.getElem?_append] at hj
    split at hj
    · exact h.threads j th hj
    · obtain rfl := List.mem_singleton.mp (List.mem_of_getElem? hj)
      exact threadOk_free _ _ _ _ rfl

theorem acquire_inv (h : EntryInv cfg s) (i : Nat) : EntryInv cfg (entryStep cfg s (.acquire i)) := by
  simp only [entryStep]
  split
  · rename_i e hth
    split
    · rename_i hred
      refine h.setThread h.sent ⟨?_, ?_, ?_⟩
      · intro hno
        rw [hno] at hred
        cases hred
      · intro hno
        rw [hno] at hred
        cases hred
      · intro p hp
        cases hp
    split
    · rename_i hfree
      refine ⟨h.sent, ?_⟩
      intro j th hj
      rcases getElem?_set_cases hj with ⟨rfl, rfl⟩ | ⟨-, hj⟩
      · exact ⟨fun _ _ => rfl, fun _ l hl => (by cases hl), fun p hp => (by cases hp)⟩
      · -- no other entry is inside the lock
        have hold := h.threads j th hj
        refine ⟨?_, hold.list, hold.pass⟩
        intro hred hlocked
        rw [hold.lock hred hlocked] at hfree
        cases hfree
    · exact h
  · exact h

theorem readInFlight_inv (h : EntryInv cfg s) (i : Nat) : EntryInv cfg (entryStep cfg s (.readInFlight i)) := by
  simp only [entryStep]
  split
  · rename_i e hth
    split
    · rename_i entries hentries
      have hold := h.threads i _ hth
      refine h.setThread h.sent ⟨fun hred _ => hold.lock hred rfl, ?_, ?_⟩
      · intro _ l hl
        cases hl
        exact ⟨hentries, fun c hc _ => h.sent c hc⟩
      · intro p hp
        cases hp
    · exact h.refuse i e _
  · exact h

theorem guard_inv (h : EntryInv cfg s) (i : Nat) (readings : GuardReadings) :
    EntryInv cfg (entryStep cfg s (.guard i readings)) := by
  simp only [entryStep]
  split
  · rename_i e l hth
    split
    · rename_i hok
      have hold := h.threads i _ hth
      refine h.setThread h.sent ⟨fun hred _ => hold.lock hred rfl, ?_, ?_⟩
      · intro hred l' hl
        cases hl
        exact hold.list hred l rfl
      · intro p hp
        cases hp
        exact hok
    · exact h.refuse i e _
  · exact h

theorem commit_inv (h : EntryInv cfg s) (i : Nat) (enumeration : Except String (Option Nat))
    (gate : Option String) : EntryInv cfg (entryStep cfg s (.commit i enumeration gate)) := by
  simp only [entryStep]
  split
  · rename_i e p hth
    have hme := h.threads i _ hth
    split
    · exact h.refuse i e _
    · exact h.refuse i e _
    rename_i generation
    split
    · rename_i s' hp
      obtain ⟨r, hr, -, rfl⟩ := persist_spec hp
      have hnew := e.submitting_sent cfg.accountId generation
      have htable : SentTable cfg.accountId
          (saveRow s.rows e.commandId (e.submitting cfg.accountId generation) e.now) s.entries :=
        h.sent.save e.now rfl fun _ _ _ => hnew
      refine ⟨?_, ?_⟩
      · intro c hc
        rcases Decidable.em (c = e.commandId) with rfl | hne
        · exact ⟨_, loadRow_save_self e.now rfl hr, hnew⟩
        · refine htable c ?_
          simp only at hc
          split at hc
          · exact hc
          · exact (List.mem_append.mp hc).resolve_right (by simpa using hne)
      · intro j th hj
        have hpass : ∀ q, th.phase.pass = some q → PassOk cfg th.start q := by
          intro q hq
          rcases getElem?_set_cases hj with ⟨rfl, rfl⟩ | ⟨-, hj⟩
          · cases hq
            exact hme.pass p rfl
          · exact (h.threads j th hj).pass q hq
        have hlock : th.start.isReduction = false → th.phase.isLocked = true → s.holder = some j := by
          intro hred hlocked
          rcases getElem?_set_cases hj with ⟨rfl, rfl⟩ | ⟨-, hj⟩
          · exact hme.lock hred rfl
          · exact (h.threads j th hj).lock hred hlocked
        refine ⟨hlock, ?_, hpass⟩
        intro hred l hl
        have hold : ListOk cfg.accountId s.entries th.start l := by
          rcases getElem?_set_cases hj with ⟨rfl, rfl⟩ | ⟨-, hj⟩
          · exact hme.list hred l hl
          · exact (h.threads j th hj).list hred l hl
        refine ⟨hold.read, ?_⟩
        intro c hc hne
        simp only at hc
        split at hc
        · exact hold.sent c hc hne
        · rename_i hentry
          rcases List.mem_append.mp hc with hc | hc
          · exact hold.sent c hc hne
          · -- the committing entry holds the lock, so this thread is the committing one
            exfalso
            have hj' := hlock hred (StartPhase.isLocked_of_list hl)
            have hi := hme.lock (by simpa using hentry) rfl
            obtain rfl : i = j := Option.some.inj (hi.symm.trans hj')
            rcases getElem?_set_cases hj with ⟨-, rfl⟩ | ⟨hcon, -⟩
            · exact hne (List.mem_singleton.mp hc)
            · exact hcon rfl
    · exact h.leave i e h.sent
  · exact h

theorem submit_inv (h : EntryInv cfg s) (i : Nat) : EntryInv cfg (entryStep cfg s (.submit i)) := by
  simp only [entryStep]
  split
  · rename_i e p hth
    have hold := h.threads i _ hth
    exact h.setThread h.sent ⟨fun hred _ => hold.lock hred rfl, fun _ l hl => (by cases hl),
      fun q hq => (by cases hq)⟩
  · exact h

theorem finish_inv (h : EntryInv cfg s) (i : Nat) (outcome : SendOutcome) (returnedAt : Int) :
    EntryInv cfg (entryStep cfg s (.finish i outcome returnedAt)) := by
  simp only [entryStep]
  split
  · rename_i e hth
    split
    · rename_i new hnew
      obtain ⟨r, hr, hd⟩ := Option.bind_eq_some_iff.mp hnew
      refine h.leave i e (h.sent.save e.now ?_ ?_)
      · exact (afterDispatch_record hd).1.trans (loadRow_commandId hr)
      · intro q hq hsent
        obtain rfl : q = r := Option.some.inj (hq.symm.trans hr)
        exact hsent.dispatched hd
    · exact h.leave i e h.sent
  · exact h

theorem write_inv (h : EntryInv cfg s) (commandId : String) (op : SagaOp) (t : Int) :
    EntryInv cfg (entryStep cfg s (.write commandId op t)) := by
  simp only [entryStep]
  split
  · rename_i r hr
    split
    · rename_i hmay
      have hop : op.isOutside = true := by
        simp only [SagaOp.mayRun, Bool.and_eq_true] at hmay
        exact hmay.1
      split
      · rename_i new hb
        refine ⟨h.sent.save _ ?_ ?_, h.threads⟩
        · exact (outside_record hop hb).1.trans (loadRow_commandId hr)
        · intro q hq hsent
          obtain rfl : q = r := Option.some.inj (hq.symm.trans hr)
          exact hsent.outside hop hb
      · exact h
    · exact h
  · exact h

/-- **One action of the entry system.** -/
theorem entryStep_inv (h : EntryInv cfg s) (a : EntryAction) : EntryInv cfg (entryStep cfg s a) := by
  cases a with
  | start e => exact start_inv h e
  | acquire i => exact acquire_inv h i
  | readInFlight i => exact readInFlight_inv h i
  | guard i readings => exact guard_inv h i readings
  | commit i enumeration gate => exact commit_inv h i enumeration gate
  | submit i => exact submit_inv h i
  | finish i outcome returnedAt => exact finish_inv h i outcome returnedAt
  | raise i =>
    simp only [entryStep]
    split
    · exact h.leave i _ h.sent
    · exact h
  | write commandId op t => exact write_inv h commandId op t
  | restart => exact ⟨h.sent, fun i th hth => by simp [entryStep] at hth⟩

variable (cfg)

theorem entryRun_inv (as : List EntryAction) : EntryInv cfg (as.foldl (entryStep cfg) EntrySystem.empty) := by
  suffices hrun : ∀ s, EntryInv cfg s → EntryInv cfg (as.foldl (entryStep cfg) s) from hrun _ (empty_inv cfg)
  induction as with
  | nil => exact fun s h => h
  | cons a as ih => exact fun s h => ih _ (entryStep_inv h a)

/-! ## When `submit_bracket` is called -/

def listedIn (l : ListRead) (s : SagaState) : Bool := l.entries.any fun x => x.orderGroupId == s.orderGroupId

/-- Every other sent entry was listed, judged by its row as `submit_bracket` is called. -/
def ListedAtCall (s : EntrySystem) (e : EntryStart) (p : GuardPass) : Prop :=
  ∀ c ∈ s.entries, c ≠ e.commandId → ∀ r, loadRow s.rows c = some r →
    entryEnded r.saga.row = false → exitFilled r.saga.row = false → listedIn p.list r.saga.row = true

/-- Every other sent entry was listed, judged by its row when the list was read. -/
def ListedAtRead (s : EntrySystem) (e : EntryStart) (p : GuardPass) : Prop :=
  ∀ c ∈ s.entries, c ≠ e.commandId → ∃ r, loadRow p.list.rows c = some r ∧
    (entryEnded r.saga.row = false → exitFilled r.saga.row = false →
      ∃ entry ∈ p.list.entries, inFlightEntry r = some entry)

structure GrossReadings where
  current : BrokerRiskSnapshot
  price : ℚ
  ceiling : ℚ
  check : DispatchCheck

/-- The readings of a pass; `none` for one without allocation evidence. -/
def GuardPass.grossReadings (e : EntryStart) (p : GuardPass) : Option GrossReadings :=
  match p.readings.capture, p.readings.quote, p.readings.riskLimitsGross, p.readings.authority,
    e.effectiveGrossCeiling, (e.withAllocationEvidence p.list.entries).allocation with
  | .ok current, some quote, some gross, some found, some ceiling, some evidence =>
      some ⟨current, quote.price, ceiling, dispatchCheck cfg e.approval evidence current quote.price found gross⟩
  | _, _, _, _, _, _ => none

/-- The gross of the captured snapshot, the unseen in-flight entries and the order to be sent. -/
def grossAtSubmit (e : EntryStart) (p : GuardPass) (g : GrossReadings) : ℚ :=
  computePositionGrossNotional g.current + (computeWorkingEntryNotional g.current g.check.prices).1 +
    unseenInFlightNotional p.list.entries g.current + e.quantity * max g.price e.limitPrice

/-- The ceiling in force at the check. -/
def GrossReadings.effective (g : GrossReadings) (e : EntryStart) : ℚ := (g.check.resolved e.now).effective

/-- The fraction stays within `bound`, up to the tolerance. -/
def GrossWithin (e : EntryStart) (p : GuardPass) (g : GrossReadings) (bound : ℚ) : Prop :=
  grossAtSubmit e p g ≤ (bound + TOLERANCE) * g.current.netLiquidation

theorem mem_of_mapM {α β : Type} {f : α → Option β} {xs : List α} {ys : List β} (h : xs.mapM f = some ys) :
    ∀ x ∈ xs, ∃ y ∈ ys, f x = some y := by
  induction xs generalizing ys with
  | nil => exact fun x hx => by cases hx
  | cons a xs ih =>
    rw [List.mapM_cons] at h
    obtain ⟨b, hb, h⟩ := Option.bind_eq_some_iff.mp h
    obtain ⟨bs, hbs, h⟩ := Option.bind_eq_some_iff.mp h
    cases h
    intro x hx
    rcases List.mem_cons.mp hx with rfl | hx
    · exact ⟨b, List.mem_cons_self, hb⟩
    · obtain ⟨y, hy, hxy⟩ := ih hbs x hx
      exact ⟨y, List.mem_cons_of_mem b hy, hxy⟩

theorem ListOk.listed {accountId : String} {entries : List String}
    (h : ListOk accountId entries e l) {r : EntryRow} (hr : r ∈ l.rows) (hsent : SentEntry accountId r.saga.row)
    (hne : r.commandId ≠ e.commandId) (hend : entryEnded r.saga.row = false)
    (hexit : exitFilled r.saga.row = false) : ∃ entry ∈ l.entries, inFlightEntry r = some entry := by
  have hcount : countsInFlight accountId e.commandId r.saga.row = true := by
    have hpos := hsent.row.counted hend hexit
    have hne' : r.saga.row.commandId ≠ e.commandId := hne
    simpa [countsInFlight, hsent.row.sent, hsent.account, hsent.side, hne'] using hpos
  exact mem_of_mapM h.read r (List.mem_filter.mpr ⟨hr, hcount⟩)

theorem pass_gross {p : GuardPass} (hred : e.isReduction = false) (h : PassOk cfg e p) :
    ∃ g, p.grossReadings cfg e = some g ∧ GrossWithin e p g (min (g.effective e) (g.ceiling + TOLERANCE)) := by
  have hdir : (e.withAllocationEvidence p.list.entries).riskDirection = .INCREASING := by
    have hinc : e.approval.riskDirection = .INCREASING := by
      cases hd : e.approval.riskDirection with
      | INCREASING => rfl
      | REDUCING => simp [EntryStart.isReduction, hd] at hred
    unfold EntryStart.withAllocationEvidence
    split <;> exact hinc
  have hside : (e.withAllocationEvidence p.list.entries).side = .BUY := by
    unfold EntryStart.withAllocationEvidence
    split <;> exact e.approved_side
  obtain ⟨current, quote, evidence, gross, found, hcap, hquote, hev, hgross, hfound, hfits⟩ :=
    revalidate_entry hdir e.automated hside h
  cases hc : e.effectiveGrossCeiling with
  | none =>
    simp [EntryStart.withAllocationEvidence, hc, e.approved_bare] at hev
  | some ceiling =>
    have hwith : e.withAllocationEvidence p.list.entries = { e.approval with allocation := some evidence } := by
      rw [← hev]
      simp only [EntryStart.withAllocationEvidence, hc]
    have hevidence : evidence = ⟨e.artifactDigest, e.artifactMaxGross, e.authorityDigest, ceiling, e.limitPrice,
        p.list.entries⟩ := by
      simpa [EntryStart.withAllocationEvidence, hc] using hev.symm
    rw [hwith] at hfits
    refine ⟨⟨current, quote.price, ceiling,
      dispatchCheck cfg e.approval evidence current quote.price found gross⟩, ?_, ?_⟩
    · simp [GuardPass.grossReadings, hcap, hquote, hgross, hfound, hc, hev]
    · subst hevidence
      have hq : |e.approval.quantity| = e.quantity := by
        rw [e.approved_quantity, abs_of_pos e.quantity_pos]
      have hle := hfits.gross
      have hmin : min ((dispatchCheck cfg e.approval ⟨e.artifactDigest, e.artifactMaxGross, e.authorityDigest,
          ceiling, e.limitPrice, p.list.entries⟩ current quote.price found gross).resolved e.now).effective
          (ceiling + TOLERANCE) = _ := min_eq_left hfits.ceiling
      simp only [GrossWithin, GrossReadings.effective, grossAtSubmit]
      rw [hmin]
      simpa [DispatchCheck.projectedNotional, DispatchCheck.currentNotional, computeGrossNotional, dispatchCheck,
        hq, abs_of_pos e.quantity_pos] using hle

/-- **What every send was checked against.**  For every interleaving of starts, broker events, handovers,
    reconciliations, orphan retirements and restarts, and whatever snapshots the guard captures: when
    `submit_bracket` is called for an entry, every other sent entry was in its in-flight list unless
    the row read for that list recorded its entry or its exit as ended; and the gross of the captured
    snapshot with the unseen in-flight entries and this order is within the ceiling in force, which is
    at most the ceiling frozen at approval up to the tolerance. -/
theorem submit_within_gross (as : List EntryAction) (i : Nat) (e : EntryStart) (p : GuardPass)
    (hcall : (as.foldl (entryStep cfg) EntrySystem.empty).threads[i]? = some ⟨e, .committed p⟩)
    (hentry : e.isReduction = false) :
    ListedAtRead (as.foldl (entryStep cfg) EntrySystem.empty) e p ∧
      ∃ g, p.grossReadings cfg e = some g ∧ GrossWithin e p g (min (g.effective e) (g.ceiling + TOLERANCE)) := by
  have hinv := (entryRun_inv cfg as).threads i _ hcall
  refine ⟨?_, pass_gross cfg hentry (hinv.pass p rfl)⟩
  have hlist := hinv.list hentry p.list rfl
  intro c hc hne
  obtain ⟨r, hr, hsent⟩ := hlist.sent c hc hne
  refine ⟨r, hr, ?_⟩
  intro hend hexit
  exact hlist.listed (loadRow_mem hr) hsent (fun h => hne ((loadRow_commandId hr).symm.trans h)) hend hexit

/-! ## A row reopened after the list was read, and a ceiling that loosened by the tolerance -/

/-- A flat paper account, or one that holds `value` of something else. -/
def paperSnapshot (equity value : ℚ) : BrokerRiskSnapshot :=
  { generationId := 1
    sourceCursor := 1
    accountId := "DU1"
    accountMode := .paper
    netLiquidation := equity
    positions := if value = 0 then [] else [⟨7, 1, some value, false⟩]
    workingOrders := []
    generationStartedAt := some 0 }

def paperGuard : GuardConfig :=
  { accountId := "DU1"
    accountMode := .paper
    liveEnabled := false
    liveAccountId := none
    maxDriftBps := 50
    maxOrderNotional := none }

/-- Everything passes; `authority` is what the lookup finds. -/
def passingReadings (snapshot : BrokerRiskSnapshot) (authority : Option AllocationAuthority) : GuardReadings :=
  { experimentGate := some none
    capture := .ok snapshot
    quote := some ⟨5, "ask", 10, some 10, some 10, some 100, some 100, true, true, some 0⟩
    unpaused := true
    whatIf := .valid true
    riskLimitsGross := some (15 / 100)
    authority := some authority
    entryLimits := none
    aiEntryGate := some none }

/-- Buy `quantity` of conid 5 at 10, approved under a ceiling of 6 %. -/
def paperEntry (commandId : String) (quantity : ℚ) (hq : 0 < quantity) (snapshot : BrokerRiskSnapshot) :
    EntryStart :=
  { commandId := commandId
    conid := 5
    quantity := quantity
    limitPrice := 10
    plan := ⟨"og-" ++ commandId, "mmr:og-" ++ commandId,
      [⟨"entry", .BUY, "LMT", quantity, some 10, none, none, false, none, "mmr:og-" ++ commandId⟩], "STOP", "oca"⟩
    approval := ⟨5, .BUY, quantity, 10, 50, .INCREASING, snapshot, none⟩
    request := ⟨"DU1", true, false⟩
    artifactDigest := "art"
    artifactMaxGross := 15 / 100
    authorityDigest := none
    effectiveGrossCeiling := some (6 / 100)
    now := 0
    quantity_pos := hq
    approved_quantity := rfl
    approved_side := rfl
    approved_bare := rfl
    automated := rfl }

def entryUpToCommit (i : Nat) (e : EntryStart) (readings : GuardReadings) : List EntryAction :=
  [.start e, .acquire i, .readInFlight i, .guard i readings, .commit i (.ok (some 1)) none]

/-- The first entry is retired as never sent; a late event reopens it after the second entry read its
    list and before it is sent. -/
def reopenedRun : List EntryAction :=
  let snapshot := paperSnapshot 100000 0
  let readings := passingReadings snapshot none
  entryUpToCommit 0 (paperEntry "c1" 10 (by decide) snapshot) readings ++
    [.submit 0, .finish 0 (.returned [1]) 2, .write "c1" (.retireOrphan ⟨2, 3⟩ 60) 100] ++
    entryUpToCommit 1 (paperEntry "c2" 10 (by decide) snapshot) readings ++
    [.write "c1" (.event ⟨"og-c1", .entry, .Submitted, 0, 10, 1, "order:1:Submitted", 101, none⟩) 101]

/-- A signed authority found at dispatch is looser by exactly the tolerance, and so is the order. -/
def looseRun : List EntryAction :=
  let snapshot := paperSnapshot 1000000000000000 59999999999992
  entryUpToCommit 0 (paperEntry "c1" 1 (by decide) snapshot) (passingReadings snapshot
    (some ⟨some "auth", "DU1", "art", 6 / 100 + 1 / 1000000000000000, 10, .CANARY⟩))

/-- The call of thread `i`, tested. -/
def callSatisfies (s : EntrySystem) (i : Nat) (test : EntryStart → GuardPass → Bool) : Bool :=
  match s.threads[i]? with
  | some ⟨e, .committed p⟩ => !e.isReduction && test e p
  | _ => false

theorem callSatisfies_spec {test : EntryStart → GuardPass → Bool} (h : callSatisfies s i test = true) :
    ∃ e p, s.threads[i]? = some ⟨e, .committed p⟩ ∧ e.isReduction = false ∧ test e p = true := by
  unfold callSatisfies at h
  split at h
  · rename_i e p hth
    simp only [Bool.and_eq_true, Bool.not_eq_true'] at h
    exact ⟨e, p, hth, h.1, h.2⟩
  · cases h

def unlistedNow (s : EntrySystem) (commandId : String) (e : EntryStart) (p : GuardPass) : Bool :=
  s.entries.contains commandId && commandId != e.commandId &&
    (match loadRow s.rows commandId with
      | some r => !entryEnded r.saga.row && !exitFilled r.saga.row && !listedIn p.list r.saga.row
      | none => false)

def overTighterCeiling (e : EntryStart) (p : GuardPass) : Bool :=
  match p.grossReadings paperGuard e with
  | some g => decide ((min (g.effective e) g.ceiling + TOLERANCE) * g.current.netLiquidation < grossAtSubmit e p g)
  | none => false

/-- Neither part holds as of the call: a row reopened since the list was read may be missing from it, and
    the gross may exceed the lower of the two ceilings by twice the tolerance. -/
theorem reopened_row_unlisted_and_tolerance_doubled :
    (¬ ∀ (cfg : GuardConfig) (as : List EntryAction) (i : Nat) (e : EntryStart) (p : GuardPass),
      (as.foldl (entryStep cfg) EntrySystem.empty).threads[i]? = some ⟨e, .committed p⟩ → e.isReduction = false →
        ListedAtCall (as.foldl (entryStep cfg) EntrySystem.empty) e p) ∧
    (¬ ∀ (cfg : GuardConfig) (as : List EntryAction) (i : Nat) (e : EntryStart) (p : GuardPass) (g : GrossReadings),
      (as.foldl (entryStep cfg) EntrySystem.empty).threads[i]? = some ⟨e, .committed p⟩ → e.isReduction = false →
        p.grossReadings cfg e = some g → GrossWithin e p g (min (g.effective e) g.ceiling)) := by
  constructor
  · intro h
    obtain ⟨e, p, hth, hred, htest⟩ := callSatisfies_spec
      (show callSatisfies (reopenedRun.foldl (entryStep paperGuard) EntrySystem.empty) 1
        (unlistedNow (reopenedRun.foldl (entryStep paperGuard) EntrySystem.empty) "c1") = true by decide +kernel)
    have hlisted := h paperGuard reopenedRun 1 e p hth hred "c1"
    simp only [unlistedNow, Bool.and_eq_true, List.contains_eq_mem, decide_eq_true_eq, bne_iff_ne] at htest
    obtain ⟨⟨hmem, hne⟩, hrow⟩ := htest
    split at hrow
    · rename_i r hr
      simp only [Bool.and_eq_true, Bool.not_eq_true'] at hrow
      rw [hlisted hmem hne r hr hrow.1.1 hrow.1.2] at hrow
      cases hrow.2
    · cases hrow
  · intro h
    obtain ⟨e, p, hth, hred, htest⟩ := callSatisfies_spec
      (show callSatisfies (looseRun.foldl (entryStep paperGuard) EntrySystem.empty) 0 overTighterCeiling = true by
        decide +kernel)
    unfold overTighterCeiling at htest
    split at htest
    · rename_i g hg
      have hle := h paperGuard looseRun 0 e p g hth hred hg
      exact absurd hle (not_le.mpr (of_decide_eq_true htest))
    · cases htest

/-- Two entries one after the other, on a snapshot that does not show the first yet. -/
def laggingRun : List EntryAction :=
  let snapshot := paperSnapshot 100000 0
  let readings := passingReadings snapshot none
  entryUpToCommit 0 (paperEntry "c1" 10 (by decide) snapshot) readings ++
    [.submit 0, .finish 0 (.returned [1]) 2] ++
    entryUpToCommit 1 (paperEntry "c2" 10 (by decide) snapshot) readings

/-- The second entry counts the first one, and both fit. -/
theorem lagging_snapshot_within_gross :
    ∃ e p, (laggingRun.foldl (entryStep paperGuard) EntrySystem.empty).threads[1]? = some ⟨e, .committed p⟩ ∧
      p.list.entries.map (·.orderGroupId) = ["og-c1"] ∧
      ListedAtRead (laggingRun.foldl (entryStep paperGuard) EntrySystem.empty) e p ∧
      ∃ g, p.grossReadings paperGuard e = some g ∧
        GrossWithin e p g (min (g.effective e) (g.ceiling + TOLERANCE)) := by
  obtain ⟨e, p, hth, hred, htest⟩ := callSatisfies_spec
    (show callSatisfies (laggingRun.foldl (entryStep paperGuard) EntrySystem.empty) 1
      (fun _ p => p.list.entries.map (·.orderGroupId) == ["og-c1"]) = true by decide +kernel)
  exact ⟨e, p, hth, by simpa using htest, submit_within_gross paperGuard laggingRun 1 e p hth hred⟩

end MmrTrader.Saga
