import MmrTrader.Promotion.Activation
import MmrTrader.Promotion.StageLaws

/-!
# Canary authorities over the stages

* `Reauthorizes` — a transition that authorizes with a digest that was active before.
* `StageOk` — what holds of the transitions while none reauthorizes: a digest that was suspended does not become active.
* `StageOk.load`, `StageOk.persist` — the steps of a transition keep it.
-/

namespace MmrTrader.Promotion.Live

open Lib Journal

variable {D : Type} [DecidableEq D] {C : Config} {w : World D}

/-- `c` authorizes with the authority of `c'`, which had made it active. -/
def Reauthorizes (c' c : Commit D) : Prop :=
  c'.record.stage = .CANARY_ACTIVE ∧ c.record.stage = .CANARY_AUTHORIZED ∧ c'.record.authorityRef = c.record.authorityRef

instance (c' c : Commit D) : Decidable (Reauthorizes c' c) :=
  inferInstanceAs (Decidable (_ ∧ _ ∧ _))

/-- `c` makes active again what `c'` had suspended. -/
def Reactivates (c' c : Commit D) : Prop :=
  c'.record.stage = .CANARY_SUSPENDED ∧ c.record.stage = .CANARY_ACTIVE ∧ c'.record.authorityRef = c.record.authorityRef

/-- What a call of `transition` for the services has made. -/
structure Made (C : Config) (c : Commit D) : Prop where
  attested : c.record.stage = .CANARY_AUTHORIZED → ∀ d, c.record.authorityRef = some d →
    c.record.strategyId = (C.canary d).strategyId
  suspended : c.record.stage = .CANARY_SUSPENDED → c.record.authorityRef = c.current.bind (·.authorityRef)

def ArgsOk (C : Config) (args : TransitionArgs D) : Prop :=
  args.toStage = "CANARY_AUTHORIZED" → ∀ d, args.authorityRef = some d → args.strategyId = (C.canary d).strategyId

theorem stage_of_text {text : String} {stage : Stage} (h : Stage.ofText? text = some stage) : stage.text = text := by
  have hfind := List.find?_some h
  exact of_decide_eq_true hfind

variable {args : TransitionArgs D}

theorem made_of_args {current : Option StageRecord} {record : StageRecord} (hargs : ArgsOk C args)
    (h : transitionRecord args current = .ok record) : Made C ⟨args, current, record⟩ := by
  unfold transitionRecord at h
  split at h
  · cases h
  rename_i toStage htext
  obtain ⟨-, h⟩ := ite_error_ok h
  obtain ⟨-, h⟩ := ite_error_ok h
  obtain ⟨-, h⟩ := ite_error_ok h
  obtain ⟨⟨⟩, -, h⟩ := bind_ok h
  obtain ⟨authority, hauth, h⟩ := bind_ok h
  cases h
  constructor
  · intro hstage d hd
    obtain rfl : toStage = .CANARY_AUTHORIZED := hstage
    refine hargs (stage_of_text htext).symm d ?_
    change authority.1 = some d at hd
    change recordAuthority args.authorityRef args.authorityExpiry = .ok authority at hauth
    unfold recordAuthority at hauth
    split at hauth
    · rename_i ref expiry href hexpiry
      rw [← hd, href]
      cases hauth
      rfl
    · cases hauth
  · intro hstage
    obtain rfl : toStage = .CANARY_SUSPENDED := hstage
    exact (congrArg Prod.fst (Except.ok.inj hauth)).symm

structure StageOk (C : Config) (w : World D) : Prop where
  inv : Promotion.Inv C.isoformat w
  calls : ∀ i c, w.calls i = some c → Made C c
  fresh : w.committed.Pairwise fun c' c => ¬ Reauthorizes c' c
  suspended : ∀ c ∈ w.committed, c.record.stage = .CANARY_SUSPENDED → ∃ c' ∈ w.committed,
    c'.record.stage = .CANARY_ACTIVE ∧ c'.record.authorityRef = c.record.authorityRef ∧
      c'.record.strategyId = c.record.strategyId
  attested : ∀ c ∈ w.committed, c.record.stage = .CANARY_AUTHORIZED ∨ c.record.stage = .CANARY_ACTIVE →
    ∀ d, c.record.authorityRef = some d → c.record.strategyId = (C.canary d).strategyId
  never : w.committed.Pairwise fun c' c => ¬ Reactivates c' c

omit [DecidableEq D] in
theorem StageOk.start (C : Config) : StageOk C (World.start (D := D)) where
  inv := Promotion.Inv.start _
  calls _ _ h := by cases h
  fresh := List.Pairwise.nil
  suspended _ h := absurd h List.not_mem_nil
  attested _ h := absurd h List.not_mem_nil
  never := List.Pairwise.nil

variable {prev : StageRecord}

omit [DecidableEq D] in
/-- What a call in hand starts from, if it is the newest transition of its strategy. -/
theorem lastRecord_mem {l : List (Commit D)} (h : lastRecord none l = some prev) :
    ∃ front p, l = front ++ [p] ∧ p.record = prev := by
  unfold lastRecord at h
  rw [Option.or_none, Option.map_eq_some_iff] at h
  obtain ⟨p, hp, rfl⟩ := h
  obtain ⟨front, hfront⟩ := List.getLast?_eq_some_iff.mp hp
  exact ⟨front, p, hfront, rfl⟩

variable {c : Commit D}

omit [DecidableEq D] in
theorem mem_log {s : String} : c ∈ w.log s ↔ c ∈ w.committed ∧ c.record.strategyId = s := by
  unfold World.log
  rw [List.mem_filter, decide_eq_true_iff]

variable {i : Nat}

omit [DecidableEq D] in
theorem StageOk.newest (h : StageOk C w) (hc : w.calls i = some c)
    (hwrites : selectJournalRow w.db.tables.journal c.record.eventId = none) (hprev : c.current = some prev) :
    ∃ front p, w.log c.record.strategyId = front ++ [p] ∧ p.record = prev :=
  lastRecord_mem ((h.inv.newest hc hwrites).symm.trans hprev)

omit [DecidableEq D] in
theorem StageOk.active_before (h : StageOk C w) (hc : w.calls i = some c)
    (hwrites : selectJournalRow w.db.tables.journal c.record.eventId = none) (hstage : c.record.stage = .CANARY_SUSPENDED) :
    ∃ c' ∈ w.committed, c'.record.stage = .CANARY_ACTIVE ∧ c'.record.authorityRef = c.record.authorityRef ∧
      c'.record.strategyId = c.record.strategyId := by
  have hgranted := (h.inv.calls i c hc).1
  have hedge := hgranted.edge
  rw [hstage, hgranted.prior] at hedge
  cases hcur : c.current with
  | none =>
    rw [hcur] at hedge
    exact absurd hedge (by decide)
  | some prev =>
    have hactive : prev.stage = .CANARY_ACTIVE := by
      rw [hcur, Option.map_some] at hedge
      cases hs : prev.stage <;> rw [hs] at hedge <;> first | rfl | exact absurd hedge (by decide)
    obtain ⟨front, p, hlog, hp⟩ := h.newest hc hwrites hcur
    have hmem : p ∈ w.log c.record.strategyId := hlog ▸ List.mem_append_right _ (List.mem_singleton_self _)
    refine ⟨p, (mem_log.mp hmem).1, hp ▸ hactive, ?_, (mem_log.mp hmem).2⟩
    rw [(h.calls i c hc).suspended hstage, hcur, hp]
    rfl

omit [DecidableEq D] in
theorem StageOk.authorized_before (h : StageOk C w) (hc : w.calls i = some c)
    (hwrites : selectJournalRow w.db.tables.journal c.record.eventId = none) (hstage : c.record.stage = .CANARY_ACTIVE) :
    ∃ front p ref, w.log c.record.strategyId = front ++ [p] ∧ p.record.stage = .CANARY_AUTHORIZED ∧
      p.record.authorityRef = some ref ∧ c.record.authorityRef = some ref := by
  obtain ⟨prev, ref, expiry, hcur, hprev, href, -, hrec, -, -⟩ := (h.inv.calls i c hc).1.active hstage
  obtain ⟨front, p, hlog, hp⟩ := h.newest hc hwrites hcur
  exact ⟨front, p, ref, hlog, hp ▸ hprev, hp ▸ href, hrec⟩

omit [DecidableEq D] in
theorem StageOk.not_reactivates (h : StageOk C w) (hc : w.calls i = some c)
    (hwrites : selectJournalRow w.db.tables.journal c.record.eventId = none) {c' : Commit D} (hc' : c' ∈ w.committed) :
    ¬ Reactivates c' c := by
  rintro ⟨hsuspended, hactive, hsame⟩
  obtain ⟨front, p, ref, hlog, hpstage, hpref, hcref⟩ := h.authorized_before hc hwrites hactive
  have hp : p ∈ w.log c.record.strategyId := hlog ▸ List.mem_append_right _ (List.mem_singleton_self _)
  obtain ⟨a, ha, hastage, haref, -⟩ := h.suspended c' hc' hsuspended
  have haref : a.record.authorityRef = some ref := haref.trans (hsame.trans hcref)
  -- both belong to the strategy that the attestation names
  have hstrategy : a.record.strategyId = c.record.strategyId := by
    rw [h.attested a ha (Or.inr hastage) ref haref, ← (mem_log.mp hp).2,
      h.attested p (mem_log.mp hp).1 (Or.inl hpstage) ref hpref]
  have hlogmem : a ∈ front ++ [p] := hlog ▸ mem_log.mpr ⟨ha, hstrategy⟩
  have hpair : (front ++ [p]).Pairwise fun c' c => ¬ Reauthorizes c' c := hlog ▸ h.fresh.filter _
  rcases List.mem_append.mp hlogmem with hfront | hlast
  · exact (List.pairwise_append.mp hpair).2.2 a hfront p (List.mem_singleton_self _)
      ⟨hastage, hpstage, haref.trans hpref.symm⟩
  · rw [List.mem_singleton.mp hlast, hpstage] at hastage
    cases hastage

omit [DecidableEq D] in
/-- The transitions stay as they are. -/
theorem StageOk.same (h : StageOk C w) {w' : World D} (hinv : Promotion.Inv C.isoformat w') (hcommitted : w'.committed = w.committed)
    (hcalls : ∀ i c, w'.calls i = some c → Made C c) : StageOk C w' where
  inv := hinv
  calls := hcalls
  fresh := hcommitted ▸ h.fresh
  suspended := hcommitted ▸ h.suspended
  attested := hcommitted ▸ h.attested
  never := hcommitted ▸ h.never

theorem StageOk.load (h : StageOk C w) (hargs : ArgsOk C args) (i : Nat) : StageOk C (w.step C.isoformat (.load i args)) := by
  refine h.same (h.inv.step _) ?_ ?_
  · simp only [World.step]
    split <;> rfl
  · intro j c hj
    simp only [World.step] at hj
    split at hj
    · rename_i record hok
      by_cases hij : j = i
      · subst hij
        obtain rfl := Option.some.inj ((Function.update_self (f := w.calls) j _).symm.trans hj)
        exact made_of_args hargs hok
      · exact h.calls j c ((Function.update_of_ne hij _ _).symm.trans hj)
    · exact h.calls j c (update_none_some hj)

theorem StageOk.die (h : StageOk C w) (i : Nat) : StageOk C (w.step C.isoformat (.die i)) :=
  h.same (h.inv.step _) rfl fun j c hj => h.calls j c (update_none_some hj)

def commit? (w : World D) (i : Nat) (commits : Bool) : Option (Commit D) :=
  (w.calls i).filter fun c => commits && w.writes c.record

theorem StageOk.persist (h : StageOk C w) (i : Nat) (receivedTs : Int) (commits : Bool)
    (hfresh : ∀ c ∈ commit? w i commits, ∀ c' ∈ w.committed, ¬ Reauthorizes c' c) :
    StageOk C (w.step C.isoformat (.persist i receivedTs commits)) := by
  have hinv := h.inv.step (.persist i receivedTs commits)
  simp only [World.step] at hinv ⊢
  cases hc : w.calls i with
  | none => exact h
  | some c =>
    rw [hc] at hinv
    dsimp only at hinv ⊢
    have hcase := persist_cases C.isoformat w.db c.record receivedTs commits
    have hcommits : ∀ events db', Promotion.persist C.isoformat w.db c.record receivedTs commits = (.ok events, db') →
        w.writes c.record = true → commits = true := by
      intro events db' heq hwrites
      by_contra hno
      rw [Bool.not_eq_true] at hno
      subst hno
      unfold World.writes at hwrites
      rw [Option.isNone_iff_eq_none] at hwrites
      unfold Promotion.persist mutate mutateBatchWork batchWork Work.run append at heq
      simp only [hwrites] at heq
      cases heq
    generalize hres : Promotion.persist C.isoformat w.db c.record receivedTs commits = result at hcase hinv hcommits
    cases hcase with
    | raised e db' htables =>
      exact h.same hinv rfl fun j c hj => h.calls j c (update_none_some hj)
    | found events db' htables hin =>
      have hwrites : w.writes c.record = false := by
        unfold World.writes
        rw [Option.isNone_eq_false_iff]
        exact hin
      refine h.same hinv ?_ fun j c hj => h.calls j c (update_none_some hj)
      simp only [hwrites, Bool.false_eq_true, if_false]
    | wrote events db' row hid hm hj hsave hout =>
      have hwrites : w.writes c.record = true := by
        unfold World.writes
        rw [hout]
        rfl
      simp only [hwrites, if_true] at hinv ⊢
      have hmem : c ∈ commit? w i commits := by
        unfold commit?
        rw [hc, hcommits events db' rfl hwrites]
        exact Option.mem_def.mpr (by rw [Option.filter_some, if_pos]; rw [hwrites]; rfl)
      refine ⟨hinv, fun j c hj => h.calls j c (update_none_some hj), ?_, ?_, ?_, ?_⟩
      · refine List.pairwise_append.mpr ⟨h.fresh, List.pairwise_singleton _ _, fun a ha b hb => ?_⟩
        rw [List.mem_singleton.mp hb]
        exact hfresh c hmem a ha
      · intro a ha hstage
        rcases List.mem_append.mp ha with ha | ha
        · obtain ⟨a', ha', hrest⟩ := h.suspended a ha hstage
          exact ⟨a', List.mem_append_left _ ha', hrest⟩
        · rw [List.mem_singleton.mp ha] at hstage ⊢
          obtain ⟨a', ha', hrest⟩ := h.active_before hc hout hstage
          exact ⟨a', List.mem_append_left _ ha', hrest⟩
      · intro a ha hstage d hd
        rcases List.mem_append.mp ha with ha | ha
        · exact h.attested a ha hstage d hd
        · rw [List.mem_singleton.mp ha] at hstage hd ⊢
          rcases hstage with hstage | hstage
          · exact (h.calls i c hc).attested hstage d hd
          · obtain ⟨front, p, ref, hlog, hpstage, hpref, hcref⟩ := h.authorized_before hc hout hstage
            have hp : p ∈ w.log c.record.strategyId := hlog ▸ List.mem_append_right _ (List.mem_singleton_self _)
            rw [← (mem_log.mp hp).2]
            exact h.attested p (mem_log.mp hp).1 (Or.inl hpstage) d (hpref.trans (hcref.symm.trans hd))
      · refine List.pairwise_append.mpr ⟨h.never, List.pairwise_singleton _ _, fun a ha b hb => ?_⟩
        rw [List.mem_singleton.mp hb]
        exact h.not_reactivates hc hout ha

end MmrTrader.Promotion.Live
