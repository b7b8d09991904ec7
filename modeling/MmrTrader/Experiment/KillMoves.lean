import MmrTrader.Experiment.KillWrites

/-!
# What one step of the monitor can do

* `Explained`, `WellTold` — what each event of the history says of the events before it.
* `Seen`, `Killed` — what a thread knows of the record it holds, whatever happened since it read it.
* `Inv`, `Onward` — the invariant, and what every later state keeps.
* `Moves` — everything one step of a monitor's program can do; `Moves.onward` — each keeps the invariant.
* `Walks` — programs each of whose steps is one of these, with one rule for each way of building a program.
-/

namespace MmrTrader.Experiment

open MmrTrader.Lib MmrTrader.Lib.Interleaving

/-! ## The history -/

/-- The capture was evaluated: its equity `net` was the last of those `known` when its peak was raised. -/
def Evaluated (pre : List Event) (record : ExperimentRecord) (capture : Capture) (known : List ℚ) (net : ℚ) : Prop :=
  ∃ before after peak, pre = before ++ Event.raised record capture peak :: after ∧
    isNumber capture.netLiquidation = some net ∧
    known = equities (before ++ [.raised record capture peak]) record.experimentId.val

/-- What an event says of the events before it. -/
def Explained (P : Setup) (pre : List Event) : Event → Prop
  | .accepted capture => unusableReason P.accountId (lastGood pre) capture = none
  | .raised record capture peak => .accepted capture ∈ pre ∧ ∃ net, isNumber capture.netLiquidation = some net ∧
      peak = (equities pre record.experimentId.val ++ [net]).foldl max record.killAnchorNetLiquidation.val
  | .cleared record capture => ∃ known net, Evaluated pre record capture known net ∧
      ¬ Reaches record.toExperimentStart P.experimentKillDrawdownPct known net
  | .killed record capture | .notKilled record capture => ∃ known net, Evaluated pre record capture known net ∧
      Reaches record.toExperimentStart P.experimentKillDrawdownPct known net
  | .flatten record root _ => root = some (killRootId record.experimentId.val 1 record.killRound)
  | _ => True

def WellTold (P : Setup) (history : List Event) : Prop :=
  ∀ pre e post, history = pre ++ e :: post → Explained P pre e

variable {P : Setup} {h : List Event} {e : Event}

theorem WellTold.snoc (hw : WellTold P h) (he : Explained P h e) : WellTold P (h ++ [e]) := by
  intro pre e' post heq
  rcases List.eq_nil_or_concat post with rfl | ⟨post', x, rfl⟩
  · obtain ⟨rfl, hsame⟩ := List.append_inj' heq rfl
    cases hsame
    exact he
  · rw [List.concat_eq_append, ← List.cons_append, ← List.append_assoc] at heq
    obtain ⟨rfl, -⟩ := List.append_inj' heq rfl
    exact hw pre e' post' rfl

theorem lastGood_snoc (h : List Event) (e : Event) :
    lastGood (h ++ [e]) = match e with
      | .booted => none
      | .good g => g
      | _ => lastGood h := by
  unfold lastGood
  rw [List.foldl_append]
  rfl

theorem usable_iff {accountId : String} {last : Option Int} {c : Capture} :
    unusableReason accountId last c = none ↔ c.accountId = some accountId ∧ c.accountMode = some "paper" ∧
      (∃ net, isNumber c.netLiquidation = some net ∧ 0 < net) ∧ ∃ g, c.generation = some g ∧ ∀ l ∈ last, l ≤ g := by
  unfold unusableReason
  by_cases haccount : c.accountId = some accountId
  · by_cases hmode : c.accountMode = some "paper"
    · simp only [haccount, hmode, ne_eq, not_true_eq_false, if_false, true_and]
      cases hnet : isNumber c.netLiquidation with
      | none => simp
      | some net =>
        by_cases hpos : net ≤ 0
        · simp [hpos]
        · cases hg : c.generation with
          | none => simp [hpos]
          | some g =>
            cases last with
            | none => simp [hpos, not_le.mp hpos]
            | some l => simp [hpos, not_le.mp hpos]
    · simp [haccount, hmode]
  · simp [haccount]

def Event.isFlatten : Event → Bool
  | .flatten _ _ _ => true
  | _ => false

/-! ## Records -/

/-- The record of a live experiment, read at some time. -/
structure Seen (db : ExperimentDb) (record : ExperimentRecord) : Prop where
  seq : record.killSeq = 0
  start : ∃ r ∈ db.experiments.rows, r.toExperimentStart = record.toExperimentStart

structure Killed (db : ExperimentDb) (record : ExperimentRecord) : Prop where
  state : record.state = .KILLED
  seq : record.killSeq = 1
  root : record.killRootId.map (·.val) = some (killRootId record.experimentId.val 1 record.killRound)
  committed : ∃ t ∈ db.transitions.rows, t.experimentId = record.experimentId.val ∧ t.toState = .KILLED

/-- What later tables keep. -/
structure Kept (db db' : ExperimentDb) : Prop where
  later : Later db db'
  transitions : db.transitions.rows ⊆ db'.transitions.rows

theorem Kept.refl (db : ExperimentDb) : Kept db db := ⟨.refl db, fun _ h => h⟩

theorem Kept.trans {a b c : ExperimentDb} (h : Kept a b) (h' : Kept b c) : Kept a c :=
  ⟨h.later.trans h'.later, fun _ ht => h'.transitions (h.transitions ht)⟩

variable {db db' : ExperimentDb}

theorem Outcome.kept {now : Int} (h : Outcome now db db') : Kept db db' := by
  refine ⟨h.later, ?_⟩
  cases h with
  | same h => exact h ▸ fun _ ht => ht
  | armed _ _ _ _ _ _ _ _ _ htrans => exact htrans ▸ List.subset_append_left _ _
  | moved _ _ _ _ _ _ _ _ _ _ htrans => exact htrans ▸ List.subset_append_left _ _
  | progressed _ _ _ _ htrans => exact htrans ▸ fun _ ht => ht

variable {record : ExperimentRecord}

theorem Seen.later (h : Seen db record) (hk : Kept db db') : Seen db' record := by
  obtain ⟨r, hr, hstart⟩ := h.start
  obtain ⟨r', hr', hkeep, -⟩ := hk.later r hr
  exact ⟨h.seq, r', hr', hkeep.start.trans hstart⟩

theorem Killed.later (h : Killed db record) (hk : Kept db db') : Killed db' record := by
  obtain ⟨t, ht, hrow⟩ := h.committed
  exact ⟨h.state, h.seq, h.root, t, hk.transitions ht, hrow⟩

theorem Wf.killed (hw : Wf h db) {row : ExperimentRow}
    (hrow : row ∈ db.experiments.rows) (hs : row.state = .KILLED) : Killed db row.toExperimentRecord := by
  obtain ⟨hseq, hroot⟩ := (hw.row row hrow).root hs
  have hlast := (hw.linked.chained row hrow).last
  rw [hs] at hlast
  obtain ⟨t, ht, hto⟩ := Option.map_eq_some_iff.mp hlast
  obtain ⟨hmem, hid⟩ := List.mem_filter.mp (List.mem_of_getLast? ht)
  exact ⟨hs, hseq, hroot, t, hmem, of_decide_eq_true hid, hto⟩

/-- What `store.active()` answers. -/
def Held (db : ExperimentDb) (record : ExperimentRecord) : Prop :=
  if record.state = .KILLED then Killed db record else Seen db record

theorem Wf.active (hw : Wf h db) {account : String} (ha : db.activeOf account = some record) : Held db record := by
  obtain ⟨row, hrow, rfl, -, hlive⟩ := (activeOf_eq_some hw.linked).mp ha
  unfold Held
  split
  · exact hw.killed hrow ‹_›
  · refine ⟨(hw.row row hrow).fresh ?_, row, hrow, rfl⟩
    cases hs : row.state with
    | ARMED => exact Or.inl rfl
    | PAUSED => exact Or.inr rfl
    | KILLED => exact absurd hs ‹_›
    | STOPPED => exact absurd hs hlive

/-! ## The invariant -/

structure Inv (P : Setup) (s : Shared) : Prop where
  wf : Wf s.history s.db
  told : WellTold P s.history
  last : s.memory.lastGeneration = lastGood s.history
  flattened : ∀ record root deadline, Event.flatten record root deadline ∈ s.history → Killed s.db record

/-- What every later state keeps. -/
structure Onward (P : Setup) (s t : Shared) : Prop where
  inv : Inv P t
  kept : Kept s.db t.db
  history : s.history <+: t.history

variable {s : Shared}

theorem Inv.onward (h : Inv P s) : Onward P s s := ⟨h, .refl _, List.prefix_refl _⟩

variable {t : Shared}

theorem Onward.trans {u : Shared} (h : Onward P s t) (h' : Onward P t u) : Onward P s u :=
  ⟨h'.inv, h.kept.trans h'.kept, h.history.trans h'.history⟩

theorem Onward.told (h : Onward P s t) (he : e ∈ s.history) : e ∈ t.history :=
  h.history.subset he

/-- One more event. -/
theorem Inv.tell (hs : Inv P s) (hh : t.history = s.history ++ [e])
    (hw : Wf t.history t.db) (hk : Kept s.db t.db) (he : Explained P s.history e)
    (hlast : t.memory.lastGeneration = lastGood t.history)
    (hflat : ∀ record root deadline, e = .flatten record root deadline → Killed t.db record) : Onward P s t := by
  refine ⟨⟨hw, hh ▸ hs.told.snoc he, hlast, fun record root deadline hmem => ?_⟩, hk, hh ▸ List.prefix_append _ _⟩
  rw [hh] at hmem
  rcases List.mem_append.mp hmem with hmem | hmem
  · exact (hs.flattened record root deadline hmem).later hk
  · exact hflat record root deadline (List.mem_singleton.mp hmem).symm

/-! ## Steps -/

/-- What decided an evaluation: the line on the peak that its own write answered. -/
structure Judged (P : Setup) (s : Shared) (record : ExperimentRecord) (capture : Capture) (peak : ℚ) : Prop where
  seen : Seen s.db record
  raised : .raised record capture peak ∈ s.history

/-- Everything one step can do. -/
inductive Moves (P : Setup) (s t : Shared) : Prop where
  | quiet (hdb : t.db = s.db) (hh : t.history = s.history) (hm : t.memory.lastGeneration = s.memory.lastGeneration)
  | accepted (capture : Capture) (hu : unusableReason P.accountId s.memory.lastGeneration capture = none)
      (ht : t = { s with history := s.history ++ [.accepted capture] })
  | raised (env : StoreEnv) (record : ExperimentRecord) (capture : Capture) (peak : ℚ) (hseen : Seen s.db record)
      (hacc : .accepted capture ∈ s.history)
      (hcall : raisePeak env record.experimentId.val capture.netLiquidation s.db = .ok peak t.db)
      (hh : t.history = s.history ++ [.raised record capture peak]) (hm : t.memory = s.memory)
  | good (generation : Option Int) (hdb : t.db = s.db) (hh : t.history = s.history ++ [.good generation])
      (hm : t.memory.lastGeneration = generation)
  | cleared (record : ExperimentRecord) (capture : Capture) (peak : ℚ) (hj : Judged P s record capture peak)
      (hmiss : ∀ line, effectiveKillLine record.toExperimentStart P.experimentKillDrawdownPct = some line → ∃ e,
        evaluateKillLine line (.float record.killAnchorNetLiquidation.val) (.float peak) capture.netLiquidation = .ok e ∧
          ¬ e.hit)
      (hdb : t.db = s.db) (hh : t.history = s.history ++ [.cleared record capture])
      (hm : t.memory.lastGeneration = s.memory.lastGeneration)
  | kill (env : StoreEnv) (record : ExperimentRecord) (capture : Capture) (peak : ℚ) (line : KillLine)
      (e : KillEvaluation) (killedAt : Int) (r : Except StoreError (Option ExperimentRecord))
      (hj : Judged P s record capture peak)
      (hline : effectiveKillLine record.toExperimentStart P.experimentKillDrawdownPct = some line)
      (heval : evaluateKillLine line (.float record.killAnchorNetLiquidation.val) (.float peak) capture.netLiquidation =
        .ok e) (hhit : e.hit)
      (hcall : match r with
        | .ok v => transition env record.experimentId.val ["ARMED", "PAUSED"] "KILLED" KILL_MONITOR_PRINCIPAL none
            "kill line hit" (killChanges record capture e killedAt) s.db = .ok v t.db
        | .error _ => t.db = s.db)
      (hh : t.history = s.history ++ [match r with
        | .ok _ => .killed record capture
        | .error _ => .notKilled record capture]) (hm : t.memory = s.memory)
  | flatten (record : ExperimentRecord) (deadline : Int) (hk : Killed s.db record)
      (ht : t = { s with history := s.history ++ [.flatten record (record.killRootId.map (·.val)) deadline] })
  | progressed (env : StoreEnv) (record : ExperimentRecord) (changes : Changes) (r : Option ExperimentRecord)
      (hk : Killed s.db record) (hr : Rounds record.experimentId.val changes)
      (hcall : updateKillProgress env record.experimentId.val "KILLED" changes s.db = .ok r t.db)
      (hh : t.history = s.history ++ [.progressed record]) (hm : t.memory = s.memory)
  | moved (env : StoreEnv) (record : ExperimentRecord) (expected : List String) (toText principal : String)
      (commandId : Option String) (reason : String) (changes : Changes) (r : Option ExperimentRecord)
      (hto : toText = "PAUSED" ∨ toText = "ARMED") (hb : Bystander changes)
      (hcall : transition env record.experimentId.val expected toText principal commandId reason changes s.db = .ok r t.db)
      (hh : t.history = s.history ++ [.moved record]) (hm : t.memory = s.memory)

theorem member_states {toText : String} {toState : ExperimentState}
    (h : member STATES "to" (.text toText) = .ok toState) : toState.text = toText := by
  unfold member at h
  dsimp only at h
  split at h
  · rename_i a ha
    cases h
    have hmem := List.mem_of_find?_eq_some ha
    have hname : a.1 = toText := by simpa using List.find?_some ha
    simp only [STATES, List.mem_cons, List.not_mem_nil, or_false] at hmem
    rcases hmem with rfl | rfl | rfl | rfl <;> exact hname
  · cases h

theorem Judged.evaluated {capture : Capture} {peak : ℚ} (hi : Inv P s) (hj : Judged P s record capture peak) :
    ∃ known net, Evaluated s.history record capture known net ∧ isNumber capture.netLiquidation = some net ∧ 0 < net ∧
      peak = known.foldl max record.killAnchorNetLiquidation.val := by
  obtain ⟨before, after, heq⟩ := List.append_of_mem hj.raised
  obtain ⟨hacc, net, hnet, hpeak⟩ := hi.told before _ after heq
  obtain ⟨b, a, hacceq⟩ := List.append_of_mem hacc
  have hu : unusableReason P.accountId (lastGood b) capture = none :=
    hi.told b (.accepted capture) (a ++ .raised record capture peak :: after) (by rw [heq, hacceq]; simp)
  obtain ⟨-, -, ⟨net', hnet', hpos⟩, -⟩ := usable_iff.mp hu
  obtain rfl : net' = net := Option.some.inj (hnet'.symm.trans hnet)
  refine ⟨_, net', ⟨before, after, peak, heq, hnet, rfl⟩, hnet, hpos, ?_⟩
  rw [hpeak, equities_raised before record.experimentId.val hnet, if_pos rfl]

/-- **Every step keeps the invariant.** -/
theorem Moves.onward (hi : Inv P s) (h : Moves P s t) : Onward P s t := by
  have hnot : ∀ {e : Event}, e.isFlatten = false → ∀ record root deadline, e = .flatten record root deadline →
      Killed t.db record := by
    rintro e he record root deadline rfl
    cases he
  cases h with
  | quiet hdb hh hm =>
    refine ⟨⟨by rw [hdb, hh]; exact hi.wf, by rw [hh]; exact hi.told, by rw [hm, hh]; exact hi.last, ?_⟩,
      hdb ▸ .refl _, hh ▸ List.prefix_refl _⟩
    rw [hdb, hh]
    exact hi.flattened
  | accepted capture hu ht =>
    subst ht
    refine hi.tell rfl (hi.wf.same (.snoc _ trivial)) (.refl _) ?_ ?_ (hnot rfl)
    · show unusableReason P.accountId (lastGood s.history) capture = none
      rw [← hi.last]
      exact hu
    · rw [lastGood_snoc]
      exact hi.last
  | raised env record capture peak hseen hacc hcall hh hm =>
    obtain ⟨hwf, net, hnet, r, hr, hid, hpeak, -⟩ := hi.wf.raise hcall
    obtain ⟨ho, -⟩ := raisePeak_rows hcall
    refine hi.tell hh (hh ▸ hwf) ho.kept ⟨hacc, net, hnet, ?_⟩ ?_ (hnot rfl)
    · obtain ⟨row, hrow, hstart⟩ := hseen.start
      have hsame : row.id = record.experimentId.val := congrArg (fun st => st.experimentId.val) hstart
      obtain rfl := s.db.experiments.eq_of_key hr hrow (hid.trans hsame.symm)
      have hanchor : r.killAnchorNetLiquidation = record.killAnchorNetLiquidation :=
        congrArg ExperimentStart.killAnchorNetLiquidation hstart
      rw [hpeak, hid, hanchor]
    · rw [hm, hh, lastGood_snoc]
      exact hi.last
  | good generation hdb hh hm =>
    refine hi.tell hh (hh ▸ hdb ▸ hi.wf.same (.snoc _ trivial)) (hdb ▸ .refl _) trivial ?_ (hnot rfl)
    rw [hm, hh, lastGood_snoc]
  | cleared record capture peak hj hmiss hdb hh hm =>
    refine hi.tell hh (hh ▸ hdb ▸ hi.wf.same (.snoc _ trivial)) (hdb ▸ .refl _) ?_ ?_ (hnot rfl)
    · obtain ⟨known, net, hev, hnet, hpos, hpeak⟩ := hj.evaluated hi
      refine ⟨known, net, hev, ?_⟩
      rintro ⟨pct, hpct, hreach⟩
      have hline : effectiveKillLine record.toExperimentStart P.experimentKillDrawdownPct = some ⟨pct, record.killBasis⟩ :=
        Option.map_eq_some_iff.mpr ⟨pct, hpct, rfl⟩
      obtain ⟨e, he, hnot⟩ := hmiss _ hline
      obtain ⟨e', he', hiff⟩ := evaluateKillLine_ok known hline hnet hpos
      rw [← hpeak, he] at he'
      cases he'
      exact hnot (hiff.mpr ⟨pct, hpct, hreach⟩)
    · rw [hm, hh, lastGood_snoc]
      exact hi.last
  | kill env record capture peak line e killedAt r hj hline heval hhit hcall hh hm =>
    have hreach : ∃ known net, Evaluated s.history record capture known net ∧
        Reaches record.toExperimentStart P.experimentKillDrawdownPct known net := by
      obtain ⟨known, net, hev, hnet, hpos, hpeak⟩ := hj.evaluated hi
      obtain ⟨e', he', hiff⟩ := evaluateKillLine_ok known hline hnet hpos
      rw [← hpeak, heval] at he'
      cases he'
      exact ⟨known, net, hev, hiff.mp hhit⟩
    cases r with
    | ok v =>
      obtain ⟨ho, -, toState, current, updated, hto, htrans⟩ := transition_rows hcall
      obtain rfl := text_killed (member_states hto)
      refine hi.tell hh ?_ ho.kept hreach ?_ (hnot rfl)
      · rw [hh]
        exact hi.wf.kill (.snoc _ trivial) ho htrans hj.seen.seq
      · rw [hm, hh, lastGood_snoc]
        exact hi.last
    | error err =>
      have hdb : t.db = s.db := hcall
      replace hh : t.history = s.history ++ [.notKilled record capture] := hh
      refine hi.tell hh (hh ▸ hdb ▸ hi.wf.same (.snoc _ trivial)) (hdb ▸ .refl _) hreach ?_ (hnot rfl)
      rw [hm, hh, lastGood_snoc]
      exact hi.last
  | flatten record deadline hk ht =>
    subst ht
    refine hi.tell rfl (hi.wf.same (.snoc _ trivial)) (.refl _) hk.root ?_ ?_
    · rw [lastGood_snoc]
      exact hi.last
    · rintro _ _ _ ⟨⟩
      exact hk
  | progressed env record changes r hk hr hcall hh hm =>
    obtain ⟨ho, -, current, updated, hprog⟩ := updateKillProgress_rows hcall
    refine hi.tell hh ?_ ho.kept trivial ?_ (hnot rfl)
    · rw [hh]
      exact hi.wf.progress (.snoc _ trivial) ho hprog hr
    · rw [hm, hh, lastGood_snoc]
      exact hi.last
  | moved env record expected toText principal commandId reason changes r hto hb hcall hh hm =>
    obtain ⟨ho, -, toState, current, updated, hstate, htrans⟩ := transition_rows hcall
    have hne : toState ≠ .KILLED := by
      have htext := member_states hstate
      rintro rfl
      rcases hto with rfl | rfl <;> exact absurd htext (by decide)
    refine hi.tell hh ?_ ho.kept trivial ?_ (hnot rfl)
    · rw [hh]
      exact hi.wf.transition (.snoc _ trivial) ho htrans hb hne
    · rw [hm, hh, lastGood_snoc]
      exact hi.last

end MmrTrader.Experiment
