import MmrTrader.Promotion.Stage

/-!
# Promotion stages are a path

* `Granted` — what a call of `transition` that made a record has checked.
* `Follows` — each transition started from the row that the one before it wrote.
* `Inv` — the row of a strategy is its last transition, and the journal holds the events in commit order.
* `stage_paths` — every interleaving of calls.
-/

namespace MmrTrader.Promotion

open Lib Journal
open Command (Json)

variable {D : Type} [DecidableEq D]

/-! ## One call -/

structure Granted (c : Commit D) : Prop where
  strategy : c.record.strategyId = c.args.strategyId
  prior : c.record.priorStage = c.current.map (·.stage)
  edge : c.record.stage ∈ allowedEdges c.record.priorStage
  revision : c.record.revision = (c.current.map (·.revision)).getD 0 + 1
  active : c.record.stage = .CANARY_ACTIVE → ∃ prev ref expiry, c.current = some prev ∧ prev.stage = .CANARY_AUTHORIZED ∧
    prev.authorityRef = some ref ∧ prev.authorityExpiry = some expiry ∧ c.record.authorityRef = some ref ∧
    c.record.authorityExpiry = some expiry ∧ c.args.now < expiry
  evidence : c.record.stage ∈ REQUIRES_CLEAN_EVIDENCE → ∃ projected, c.args.projected = some projected ∧
    projected.isClean = true ∧ (c.record.stage = .PAPER_PASSED → (PaperGate.evaluate projected).passed = true)

theorem requireCleanEvidence_ok {toStage : Stage} {projected evidenceWindow : Option (EvidenceWindow D)}
    (h : requireCleanEvidence toStage projected evidenceWindow = .ok ()) (hreq : toStage ∈ REQUIRES_CLEAN_EVIDENCE) :
    ∃ p, projected = some p ∧ p.isClean = true ∧ (toStage = .PAPER_PASSED → (PaperGate.evaluate p).passed = true) := by
  unfold requireCleanEvidence at h
  rw [if_pos hreq] at h
  have hnone : evidenceReasons toStage projected evidenceWindow = [] := by
    cases hr : evidenceReasons toStage projected evidenceWindow with
    | nil => rfl
    | cons reason rest =>
      rw [hr] at h
      cases h
  cases projected with
  | none => cases hnone
  | some p =>
    refine ⟨p, rfl, ?_⟩
    simp only [evidenceReasons, List.append_eq_nil_iff, ite_eq_right_iff, List.cons_ne_nil, imp_false,
      Bool.not_eq_true, Bool.not_eq_false'] at hnone
    obtain ⟨⟨⟨⟨⟨-, hstale⟩, hbreaker⟩, hcost⟩, hdrawdown⟩, hgate⟩ := hnone
    refine ⟨by simp [EvidenceWindow.isClean, hstale, hbreaker, hcost, hdrawdown], fun hpaper => ?_⟩
    by_contra hfail
    have hlists := hgate hpaper
    rw [if_neg hfail, List.append_eq_nil_iff] at hlists
    -- a decision that did not pass names a floor or a blocker
    have hpassed : (PaperGate.evaluate p).passed = true := by
      have hfloors : ∀ f ∈ Promotion.floors p, f.met = true := by
        intro f hf
        by_contra hmet
        have hmem : f ∈ (Promotion.floors p).filter fun f => !f.met := List.mem_filter.mpr ⟨hf, by simpa using hmet⟩
        have hempty : ((Promotion.floors p).filter fun f => !f.met) = [] := List.map_eq_nil_iff.mp hlists.1
        rw [hempty] at hmem
        cases hmem
      have hall : (Promotion.floors p).all (·.met) = true := List.all_eq_true.mpr hfloors
      have hblock : Promotion.blockers p = [] := hlists.2
      simp only [PaperGate.evaluate, hall, hblock, List.isEmpty_nil, Bool.and_true]
    exact hfail hpassed

variable {current : Option StageRecord}

theorem verifyAuthority_ok {ref : Option String} {expiry : Option Int} {now : Int}
    {authority : Option String × Option Int} (h : verifyAuthorityForActivation current ref expiry now = .ok authority) :
    ∃ prev r e, current = some prev ∧ prev.authorityRef = some r ∧ prev.authorityExpiry = some e ∧
      authority = (some r, some e) ∧ now < e := by
  unfold verifyAuthorityForActivation at h
  split at h
  · rename_i storedRef storedExpiry r e href hexpiry
    split at h
    · cases h
    split at h
    · cases h
    rename_i hlive
    obtain ⟨prev, rfl, href⟩ := Option.bind_eq_some_iff.mp href
    exact ⟨prev, storedRef, storedExpiry, rfl, href, hexpiry, (Except.ok.inj h).symm, Int.not_le.mp hlive⟩
  · cases h

/-- **What a call has checked when it has made its record.** -/
theorem transitionRecord_ok {args : TransitionArgs D} {record : StageRecord}
    (h : transitionRecord args current = .ok record) : Granted ⟨args, current, record⟩ := by
  unfold transitionRecord at h
  split at h
  · cases h
  rename_i toStage _
  obtain ⟨-, h⟩ := ite_error_ok h
  obtain ⟨-, h⟩ := ite_error_ok h
  obtain ⟨hedge, h⟩ := ite_error_ok h
  obtain ⟨⟨⟩, hclean, h⟩ := bind_ok h
  obtain ⟨authority, hauth, h⟩ := bind_ok h
  cases h
  refine ⟨rfl, rfl, not_not.mp hedge, rfl, fun hactive => ?_, fun hreq => requireCleanEvidence_ok hclean hreq⟩
  obtain rfl : toStage = .CANARY_ACTIVE := hactive
  obtain ⟨prev, ref, expiry, rfl, href, hexpiry, rfl, hlive⟩ := verifyAuthority_ok hauth
  refine ⟨prev, ref, expiry, rfl, ?_, href, hexpiry, rfl, rfl, hlive⟩
  have hprev : Stage.CANARY_ACTIVE ∈ allowedEdges (some prev.stage) := not_not.mp hedge
  cases hs : prev.stage <;> rw [hs] at hprev <;> first | rfl | exact absurd hprev (by decide)

/-! ## Transitions in commit order -/

/-- Each transition started from the row that the one before it wrote. -/
def Follows : Option StageRecord → List (Commit D) → Prop
  | _, [] => True
  | prev, c :: cs => c.current = prev ∧ Granted c ∧ Follows (some c.record) cs

def lastRecord (prev : Option StageRecord) (l : List (Commit D)) : Option StageRecord :=
  (l.getLast?.map (·.record)).or prev

omit [DecidableEq D] in
theorem lastRecord_cons (prev : Option StageRecord) (c : Commit D) (l : List (Commit D)) :
    lastRecord prev (c :: l) = lastRecord (some c.record) l := by
  cases l with
  | nil => rfl
  | cons d l =>
    unfold lastRecord
    rw [List.getLast?_cons_cons]
    cases h : (d :: l).getLast? with
    | none => simp at h
    | some e => rfl

variable {c : Commit D} {l : List (Commit D)}

omit [DecidableEq D] in
theorem Follows.append :
    ∀ {prev : Option StageRecord}, Follows prev l → c.current = lastRecord prev l → Granted c → Follows prev (l ++ [c]) := by
  induction l with
  | nil => exact fun _ hcurrent hgranted => ⟨hcurrent, hgranted, trivial⟩
  | cons d l ih =>
    intro prev h hcurrent hgranted
    exact ⟨h.1, h.2.1, ih h.2.2 (hcurrent.trans (lastRecord_cons prev d l)) hgranted⟩

omit [DecidableEq D] in
theorem Follows.granted : ∀ {prev : Option StageRecord}, Follows prev l → ∀ c ∈ l, Granted c := by
  induction l with
  | nil => exact fun _ _ hc => absurd hc List.not_mem_nil
  | cons d l ih =>
    intro prev h c hc
    rcases List.mem_cons.mp hc with rfl | hc
    · exact h.2.1
    · exact ih h.2.2 c hc

def revisionOf (r : Option StageRecord) : Nat := (r.map (·.revision)).getD 0

omit [DecidableEq D] in
theorem Follows.revisions :
    ∀ {prev : Option StageRecord}, Follows prev l → l.map (·.record.revision) = List.range' (revisionOf prev + 1) l.length := by
  induction l with
  | nil => exact fun _ => rfl
  | cons c l ih =>
    intro prev h
    have hrev : c.record.revision = revisionOf prev + 1 := h.1 ▸ h.2.1.revision
    have hrest := ih h.2.2
    rw [List.map_cons, hrest, List.length_cons, List.range'_succ, hrev]
    unfold revisionOf at hrev ⊢
    rw [Option.map_some, Option.getD_some, hrev]

omit [DecidableEq D] in
/-- The revision of the row after `k` transitions. -/
theorem Follows.revision_take (h : Follows none l) {k : Nat} (hk : k ≤ l.length) :
    revisionOf (lastRecord none (l.take k)) = k := by
  cases k with
  | zero => rfl
  | succ n =>
    have hlt : n < l.length := hk
    have hlast : (l.take (n + 1)).getLast? = some l[n] := by
      rw [List.take_succ_eq_append_getElem hlt, List.getLast?_concat]
    have hrev := congrArg (fun m : List Nat => m[n]?) h.revisions
    simp only [List.getElem?_map, List.getElem?_eq_getElem hlt, Option.map_some] at hrev
    rw [List.getElem?_range' hlt] at hrev
    have heq := Option.some.inj hrev
    unfold lastRecord revisionOf at *
    rw [hlast]
    simp only [Option.map_some, Option.some_or, Option.getD_some, Option.map_none, Option.getD_none] at heq ⊢
    omega

/-! ## The transaction -/

theorem saveInTx_ok {rows rows' : StageRows} {r : StageRecord} (h : saveInTx rows r = .ok rows') (strategyId : String) :
    rows'.get? strategyId = if r.strategyId = strategyId then some r else rows.get? strategyId := by
  unfold saveInTx at h
  split at h
  · rename_i rows₁ hins
    cases h
    rw [Table.get?_insert? hins]
    split
    · rfl
    · rename_i hne
      cases hget : rows.get? strategyId with
      | none =>
        refine Table.get?_eq_none.mpr fun s hs => ?_
        exact Table.get?_eq_none.mp hget s (Table.mem_deleteWhere.mp hs).1
      | some s =>
        obtain ⟨hs, hid⟩ := Table.get?_eq_some.mp hget
        refine Table.get?_eq_some.mpr ⟨Table.mem_deleteWhere.mpr ⟨hs, ?_⟩, hid⟩
        exact decide_eq_false fun heq => hne (heq.symm.trans hid)
  · cases h

/-- A transaction raises and changes nothing, finds its event, or writes the row and the event. -/
inductive PersistCase (isoformat : Int → String) (db : StageDb) (r : StageRecord) :
    Except (JournalError TransitionError) (List (DomainEvent Json)) × StageDb → Prop where
  | raised (e : JournalError TransitionError) (db' : StageDb) (h : db'.tables = db.tables) :
      PersistCase isoformat db r (.error e, db')
  | found (events : List (DomainEvent Json)) (db' : StageDb) (h : db'.tables = db.tables)
      (hin : (selectJournalRow db.tables.journal r.eventId).isSome) : PersistCase isoformat db r (.ok events, db')
  | wrote (events : List (DomainEvent Json)) (db' : StageDb) (row : JournalRow Json) (hid : row.eventId = r.eventId)
      (hm : row.mutation = r.mutation isoformat) (hj : db'.tables.journal = db.tables.journal ++ [row])
      (hsave : saveInTx db.tables.own r = .ok db'.tables.own)
      (hout : selectJournalRow db.tables.journal r.eventId = none) : PersistCase isoformat db r (.ok events, db')

theorem persist_cases (isoformat : Int → String) (db : StageDb) (r : StageRecord) (receivedTs : Int) (commits : Bool) :
    PersistCase isoformat db r (persist isoformat db r receivedTs commits) := by
  unfold persist mutate mutateBatchWork batchWork Work.run
  cases happ : append ⟨db.tables, db.seq, []⟩ (r.mutation isoformat)
      (fun t _ => if commits then saveInTx t.own r else .error .storage) r.eventId receivedTs with
  | error e =>
    obtain ⟨e, seq⟩ := e
    exact .raised e _ rfl
  | ok res =>
    obtain ⟨event, tx⟩ := res
    simp only [batchWork, Work.run]
    cases hsel : selectJournalRow db.tables.journal r.eventId with
    | some existing =>
      have htables : tx.tables = db.tables := by
        unfold append at happ
        simp only [hsel] at happ
        split at happ
        · cases happ
          rfl
        · cases happ
      exact .found _ _ htables (by rw [hsel]; rfl)
    | none =>
      rcases append_row happ with ⟨row, hrow, hid, -, -⟩ | ⟨row, hid, hm, hj, hw⟩
      · exact absurd (selectJournalRow_none hsel row hrow) (not_not_intro hid)
      · dsimp only at hw
        split at hw
        · exact .wrote _ _ row hid hm hj hw hsel
        · cases hw

/-! ## The invariant -/

def World.log (w : World D) (strategyId : String) : List (Commit D) :=
  w.committed.filter fun c => c.record.strategyId = strategyId

structure Inv (isoformat : Int → String) (w : World D) : Prop where
  follows : ∀ s, Follows none (w.log s)
  row : ∀ s, w.current s = lastRecord none (w.log s)
  events : w.db.tables.journal.map (fun r => (r.eventId, r.mutation)) =
    w.committed.map fun c => (c.record.eventId, c.record.mutation isoformat)
  calls : ∀ i c, w.calls i = some c → Granted c ∧
    ∃ k ≤ (w.log c.record.strategyId).length, c.current = lastRecord none ((w.log c.record.strategyId).take k)

variable {isoformat : Int → String} {w : World D}

omit [DecidableEq D] in
theorem Inv.start (isoformat : Int → String) : Inv (D := D) isoformat World.start where
  follows _ := trivial
  row _ := rfl
  events := rfl
  calls _ _ h := by cases h

omit [DecidableEq D] in
/-- The calls in hand stay what they are while transitions are added. -/
theorem Inv.calls_append (h : Inv isoformat w) {w' : World D} (hcalls : ∀ i c, w'.calls i = some c → w.calls i = some c)
    (hlog : ∀ s, w.log s <+: w'.log s) (i : Nat) (c : Commit D) (hc : w'.calls i = some c) :
    Granted c ∧ ∃ k ≤ (w'.log c.record.strategyId).length,
      c.current = lastRecord none ((w'.log c.record.strategyId).take k) := by
  obtain ⟨hgranted, k, hk, hcurrent⟩ := h.calls i c (hcalls i c hc)
  obtain ⟨rest, hrest⟩ := hlog c.record.strategyId
  refine ⟨hgranted, k, hk.trans (hrest ▸ List.length_append ▸ Nat.le_add_right _ _), ?_⟩
  rw [← hrest, List.take_append_of_le_length hk]
  exact hcurrent

variable {i : Nat}
variable {call : Nat}

omit [DecidableEq D] in
theorem update_none_some {calls : Nat → Option (Commit D)}
    (h : Function.update calls call none i = some c) : calls i = some c := by
  by_cases hi : i = call
  · subst hi
    rw [Function.update_self] at h
    cases h
  · rwa [Function.update_of_ne hi] at h

omit [DecidableEq D] in
theorem Inv.finish (h : Inv isoformat w) (call : Nat) (outcome : Outcome) : Inv isoformat (w.finish call outcome) :=
  ⟨h.follows, h.row, h.events, h.calls_append (fun _ _ hc => update_none_some hc) fun _ => List.prefix_refl _⟩

variable {db : StageDb}

omit [DecidableEq D] in
theorem Inv.sameTables (h : Inv isoformat w) (htables : db.tables = w.db.tables) : Inv isoformat { w with db := db } := by
  refine ⟨h.follows, fun s => ?_, ?_, h.calls⟩
  · rw [World.current, htables]
    exact h.row s
  · rw [htables]
    exact h.events

omit [DecidableEq D] in
theorem Inv.newest (h : Inv isoformat w) (hc : w.calls i = some c)
    (hout : selectJournalRow w.db.tables.journal c.record.eventId = none) :
    c.current = lastRecord none (w.log c.record.strategyId) := by
  obtain ⟨hgranted, k, hk, hcurrent⟩ := h.calls i c hc
  rcases Nat.lt_or_ge k (w.log c.record.strategyId).length with hlt | hge
  · -- the transition after the row that it read has its event id
    have hrev : c.record.revision = k + 1 := by
      rw [hgranted.revision]
      change revisionOf c.current + 1 = _
      rw [hcurrent, (h.follows _).revision_take hk]
    have hmem := List.getElem_mem hlt
    obtain ⟨hcommitted, hstrategy⟩ := List.mem_filter.mp hmem
    have hnext : (w.log c.record.strategyId)[k].record.revision = k + 1 := by
      have hrevs := congrArg (fun m : List Nat => m[k]?) (h.follows c.record.strategyId).revisions
      simp only [List.getElem?_map, List.getElem?_eq_getElem hlt, Option.map_some] at hrevs
      rw [List.getElem?_range' hlt] at hrevs
      have heq := Option.some.inj hrevs
      unfold revisionOf at heq
      simp only [Option.map_none, Option.getD_none] at heq
      omega
    have hid : (w.log c.record.strategyId)[k].record.eventId = c.record.eventId := by
      unfold StageRecord.eventId
      rw [hnext, hrev, of_decide_eq_true hstrategy]
    have hin : ((w.log c.record.strategyId)[k].record.eventId, (w.log c.record.strategyId)[k].record.mutation isoformat) ∈
        w.db.tables.journal.map (fun r => (r.eventId, r.mutation)) := by
      rw [h.events]
      exact List.mem_map_of_mem hcommitted
    obtain ⟨row, hrow, heq⟩ := List.mem_map.mp hin
    exact absurd ((Prod.mk.inj heq).1.trans hid) (selectJournalRow_none hout row hrow)
  · rw [hcurrent, List.take_of_length_le hge]

omit [DecidableEq D] in
theorem Inv.commit (h : Inv isoformat w) (hc : w.calls i = some c)
    {row : JournalRow Json} (hid : row.eventId = c.record.eventId) (hm : row.mutation = c.record.mutation isoformat)
    (hj : db.tables.journal = w.db.tables.journal ++ [row]) (hsave : saveInTx w.db.tables.own c.record = .ok db.tables.own)
    (hout : selectJournalRow w.db.tables.journal c.record.eventId = none) (outcome : Outcome) :
    Inv isoformat { w.finish i outcome with db := db, committed := w.committed ++ [c] } := by
  have hgranted := (h.calls i c hc).1
  have hcurrent := h.newest hc hout
  have hlog : ∀ s, World.log { w.finish i outcome with db := db, committed := w.committed ++ [c] } s =
      w.log s ++ if c.record.strategyId = s then [c] else [] := by
    intro s
    unfold World.log
    rw [List.filter_append]
    by_cases hs : c.record.strategyId = s
    · simp [hs]
    · simp [hs]
  refine ⟨fun s => ?_, fun s => ?_, ?_, ?_⟩
  · rw [hlog]
    by_cases hs : c.record.strategyId = s
    · rw [if_pos hs]
      exact (h.follows s).append (hs ▸ hcurrent) hgranted
    · rw [if_neg hs, List.append_nil]
      exact h.follows s
  · rw [hlog]
    change db.tables.own.get? s = _
    rw [saveInTx_ok hsave]
    by_cases hs : c.record.strategyId = s
    · rw [if_pos hs, if_pos hs]
      unfold lastRecord
      rw [List.getLast?_concat]
      rfl
    · rw [if_neg hs, if_neg hs, List.append_nil]
      exact h.row s
  · rw [hj, List.map_append, List.map_append, h.events, List.map_singleton, List.map_singleton, hid, hm]
  · refine h.calls_append (fun _ _ hc => update_none_some hc) fun s => ?_
    rw [hlog]
    exact List.prefix_append _ _

theorem Inv.step (h : Inv isoformat w) (a : Act D) : Inv isoformat (w.step isoformat a) := by
  cases a with
  | load call args =>
    simp only [World.step]
    split
    · rename_i record hok
      have hgranted := transitionRecord_ok hok
      refine ⟨h.follows, h.row, h.events, fun i c hc => ?_⟩
      by_cases hi : i = call
      · subst hi
        obtain rfl := Option.some.inj ((Function.update_self (f := w.calls) i _).symm.trans hc)
        refine ⟨hgranted, _, Nat.le_refl _, ?_⟩
        rw [List.take_length, hgranted.strategy]
        exact h.row args.strategyId
      · exact h.calls i c ((Function.update_of_ne hi _ _).symm.trans hc)
    · exact h.finish call _
  | persist call receivedTs commits =>
    simp only [World.step]
    cases hc : w.calls call with
    | none => exact h
    | some c =>
      dsimp only
      have hcase := persist_cases isoformat w.db c.record receivedTs commits
      generalize persist isoformat w.db c.record receivedTs commits = result at hcase
      cases hcase with
      | raised e db' htables =>
        exact (h.finish call (.raised (journalError e))).sameTables htables
      | found events db' htables hin =>
        have hwrites : w.writes c.record = false := by
          unfold World.writes
          rw [Option.isNone_eq_false_iff]
          exact hin
        simp only [hwrites, Bool.false_eq_true, if_false]
        exact (h.finish call (.returned c.record)).sameTables htables
      | wrote events db' row hid hm hj hsave hout =>
        have hwrites : w.writes c.record = true := by
          unfold World.writes
          rw [hout]
          rfl
        simp only [hwrites, if_true]
        exact h.commit hc hid hm hj hsave hout _
  | die call =>
    exact ⟨h.follows, h.row, h.events, h.calls_append (fun _ _ hc => update_none_some hc) fun _ => List.prefix_refl _⟩

theorem step_raised (isoformat : Int → String) (w : World D) (a : Act D) {e : TransitionError}
    (h : (w.step isoformat a).outcomes = w.outcomes ++ [(call, .raised e)]) : (w.step isoformat a).db.tables = w.db.tables := by
  cases a with
  | load call' args =>
    simp only [World.step]
    split <;> rfl
  | persist call' receivedTs commits =>
    simp only [World.step] at h ⊢
    cases hc : w.calls call' with
    | none => rfl
    | some c =>
      rw [hc] at h
      dsimp only at h ⊢
      have hcase := persist_cases isoformat w.db c.record receivedTs commits
      generalize persist isoformat w.db c.record receivedTs commits = result at hcase h
      cases hcase with
      | raised e db' htables => exact htables
      | found events db' htables hin => exact htables
      | wrote events db' row hid hm hj hsave hout =>
        have hlast := List.singleton_inj.mp (List.append_cancel_left h)
        cases (Prod.mk.inj hlast).2
  | die call' => rfl

/-- **Promotion stages are a path.**  In every state of every interleaving: the transitions of a strategy follow each
    other from no row along the edges, with revisions 1, 2, …; no two started from the same row; the row is the last of
    them and the journal holds their events; and a call that raises changes no table. -/
theorem stage_paths (isoformat : Int → String) (acts : List (Act D)) :
    let w := acts.foldl (World.step isoformat) World.start
    (∀ s, Follows none (w.log s) ∧ (w.log s).map (·.record.revision) = List.range' 1 (w.log s).length ∧
      ((w.log s).map (·.current)).Nodup ∧ w.current s = (w.log s).getLast?.map (·.record)) ∧
    w.db.tables.journal.map (·.mutation) = w.committed.map (fun c => c.record.mutation isoformat) ∧
    ∀ a call e, (w.step isoformat a).outcomes = w.outcomes ++ [(call, .raised e)] →
      (w.step isoformat a).db.tables = w.db.tables := by
  intro w
  have hinv : Inv isoformat w := by
    have hrun : ∀ (acts : List (Act D)) (v : World D), Inv isoformat v → Inv isoformat (acts.foldl (World.step isoformat) v) := by
      intro acts
      induction acts with
      | nil => exact fun _ hv => hv
      | cons a acts ih => exact fun v hv => ih _ (hv.step a)
    exact hrun acts _ (Inv.start isoformat)
  refine ⟨fun s => ⟨hinv.follows s, (hinv.follows s).revisions, ?_, ?_⟩, ?_, fun a call e h => step_raised isoformat w a h⟩
  · have hrevs := (hinv.follows s).revisions
    have hsame : (w.log s).map (·.record.revision) = ((w.log s).map (·.current)).map fun r => revisionOf r + 1 := by
      rw [List.map_map]
      exact List.map_congr_left fun c hc => ((hinv.follows s).granted c hc).revision
    refine List.Nodup.of_map (fun r => revisionOf r + 1) ?_
    rw [← hsame, hrevs]
    exact List.nodup_range'
  · rw [hinv.row]
    exact Option.or_none
  · have hevents := congrArg (List.map Prod.snd) hinv.events
    rw [List.map_map, List.map_map] at hevents
    exact hevents

end MmrTrader.Promotion
