import MmrTrader.Experiment.KillMoves

/-!
# The programs of the monitor, step by step

`Walks` — each step of a program is one of `Moves`, and what it returns satisfies a postcondition that later states
keep in view; one rule for each way of building a program, then one lemma for each program of the monitor.
-/

namespace MmrTrader.Experiment

open MmrTrader.Lib MmrTrader.Lib.Interleaving

variable {P : Setup} {α β : Type} {s t : Shared}

/-- What one step of a program keeps to. -/
def Step (P : Setup) (s t : Shared) : Prop := Moves P s t ∧ Onward P s t

/-- From `s`, each step is one of `Moves`; what is returned satisfies `Q`. -/
def Walks (P : Setup) (Q : α → Shared → Prop) (p : Monitor α) (s : Shared) : Prop :=
  Safe (Onward P) (Step P) (fun r t => Onward P s t ∧ ∀ v, r = .ok v → Q v t) p s

/-- Nothing is asked of what is returned. -/
abbrev Any (α : Type) : α → Shared → Prop := fun _ _ => True

variable {Q Q' : α → Shared → Prop} {p : Monitor α}

theorem Walks.mono (h : Walks P Q p s) (hQ : ∀ v t, Onward P s t → Q v t → Q' v t) : Walks P Q' p s :=
  Safe.mono h (fun _ _ hs => hs) fun _ t hr => ⟨hr.1, fun v hv => hQ v t hr.1 (hr.2 v hv)⟩

theorem Walks.pure {v : α} (hi : Inv P s) (h : Q v s) : Walks P Q (Pure.pure v : Monitor α) s :=
  Safe.pure ⟨hi.onward, by rintro _ ⟨⟩; exact h⟩

variable {e : MonitorError}

theorem Walks.raise (hi : Inv P s) : Walks P Q (Prog.raise e : Monitor α) s :=
  Safe.raise ⟨hi.onward, by rintro _ ⟨⟩⟩

variable {R : β → Shared → Prop}

theorem Walks.bind {f : α → Monitor β} (h : Walks P Q p s)
    (hf : ∀ v t, Onward P s t → Q v t → Walks P R (f v) t) : Walks P R (p >>= f) s :=
  Safe.bind h
    (fun v t hv => Safe.mono (hf v t hv.1 (hv.2 v rfl)) (fun _ _ hs => hs) fun _ _ hr => ⟨hv.1.trans hr.1, hr.2⟩)
    fun e t he => ⟨he.1, by rintro _ ⟨⟩⟩

theorem Walks.attempt (h : Walks P Q p s) : Walks P (fun r t => ∀ v, r = .ok v → Q v t) p.attempt s :=
  Safe.attempt h fun r t hr => ⟨hr.1, by rintro _ ⟨⟩; exact hr.2⟩

theorem Walks.map {f : α → β} (h : Walks P Q p s) (hf : ∀ v t, Onward P s t → Q v t → R (f v) t) : Walks P R (f <$> p) s :=
  h.bind (f := fun v => Pure.pure (f v)) fun v t ht hv => Walks.pure ht.inv (hf v t ht hv)

/-- A step that only looks. -/
theorem Walks.read {f : Answers → Shared → Except MonitorError α}
    (h : ∀ t a v, Onward P s t → f a t = .ok v → Q v t) : Walks P Q (Prog.read f) s :=
  Safe.read fun t ht a => ⟨⟨.quiet rfl rfl rfl, ht.inv.onward⟩, ht, fun v hv => h t a v ht hv⟩

/-- A step that writes. -/
theorem Walks.atomic {f : Answers → EStateM MonitorError Shared α}
    (h : ∀ t a, Onward P s t → match f a t with
      | .ok v u => Moves P t u ∧ (Onward P t u → Q v u)
      | .error _ u => Moves P t u) : Walks P Q (Prog.atomic f) s := by
  refine Safe.atomic fun t ht a => ?_
  have h := h t a ht
  cases hf : f a t with
  | ok v u =>
    rw [hf] at h
    have hu := h.1.onward ht.inv
    refine ⟨⟨h.1, hu⟩, ht.trans hu, ?_⟩
    rintro _ ⟨⟩
    exact h.2 hu
  | error e u =>
    rw [hf] at h
    have hu := Moves.onward ht.inv h
    exact ⟨⟨h, hu⟩, ht.trans hu, by rintro _ ⟨⟩⟩

theorem Walks.refuseIf {c : Prop} [Decidable c] (hi : Inv P s) : Walks P (fun _ _ => ¬ c) (Prog.refuseIf c e) s := by
  unfold Prog.refuseIf
  split
  · exact Walks.raise hi
  · exact Walks.pure hi ‹_›

/-! ## Steps -/

theorem clock_walks : Walks P (Any Int) clock s := Walks.read fun _ _ _ _ _ => trivial

theorem recalled_walks {f : Memory → α} : Walks P (Any α) (recalled f) s := Walks.read fun _ _ _ _ _ => trivial

theorem ask_walks {f : Answers → Option α} : Walks P (Any α) (ask f) s := Walks.read fun _ _ _ _ _ => trivial

theorem deliver_walks : Walks P (Any Unit) deliver s := Walks.read fun _ _ _ _ _ => trivial

theorem remember_walks {f : Memory → Memory} (hf : ∀ m, (f m).lastGeneration = m.lastGeneration) :
    Walks P (Any Unit) (remember f) s :=
  Walks.atomic fun _ _ _ => ⟨.quiet rfl rfl (hf _), fun _ => trivial⟩

theorem active_walks : Walks P (fun r t => ∀ record, r = some record → Held t.db record) (active P) s := by
  refine Walks.read fun t a v ht hv record hr => ?_
  split at hv
  · cases hv
    exact ht.inv.wf.active hr
  · cases hv

theorem inspect_walks {c : Capture} :
    Walks P (fun r t => r = none → Event.accepted c ∈ t.history) (inspect P c) s := by
  refine Walks.atomic fun t a ht => ?_
  cases hu : unusableReason P.accountId t.memory.lastGeneration c with
  | none => exact ⟨.accepted c hu rfl, fun _ _ => List.mem_append_right _ (List.mem_singleton_self _)⟩
  | some reason => exact ⟨.quiet rfl rfl rfl, fun _ h => by cases h⟩

theorem readBack_walks {r : Option ExperimentRecord} (hi : Inv P s) :
    Walks P (fun record _ => r = some record) (readBack r) s := by
  cases r with
  | none => exact Walks.raise hi
  | some record => exact Walks.pure hi rfl

theorem evaluableCapture_walks :
    Walks P (fun r t => ∀ c, r = some c → Event.accepted c ∈ t.history) (evaluableCapture P) s := by
  refine ask_walks.attempt.bind fun r t ht _ => ?_
  cases r with
  | error e =>
    refine Walks.bind (Q := Any Unit) (remember_walks fun _ => rfl) fun _ u hu _ => ?_
    exact Walks.pure hu.inv fun _ h => by cases h
  | ok c =>
    refine inspect_walks.bind fun reason u hu hacc => ?_
    refine Walks.bind (Q := Any Unit) (remember_walks fun _ => rfl) fun _ v hv _ => ?_
    refine Walks.pure hv.inv ?_
    intro c' hc'
    split at hc'
    · cases hc'
      exact hv.told (hacc (Option.isNone_iff_eq_none.mp ‹_›))
    · cases hc'

theorem sendAlert_walks {eventId kind : String} (hi : Inv P s) :
    Walks P (fun r _ => ∀ state, r = some state → state = "ENQUEUED" ∨ state = "NO_OUTBOX") (sendAlert P eventId kind)
      s := by
  unfold sendAlert
  split
  · refine deliver_walks.attempt.bind fun r t ht _ => ?_
    cases r with
    | error e => exact Walks.pure ht.inv nofun
    | ok v => exact Walks.pure ht.inv fun _ h => Or.inl (Option.some.inj h).symm
  · exact Walks.pure hi fun _ h => Or.inr (Option.some.inj h).symm

variable {now : Int}

theorem unknownFor_walks : Walks P (Any Int) (unknownFor now) s := by
  refine recalled_walks.bind fun r t ht _ => ?_
  cases r with
  | none => exact Walks.raise ht.inv
  | some since => exact Walks.pure ht.inv trivial

theorem reconciliationSafe_walks : Walks P (Any Bool) reconciliationSafe s := by
  refine ask_walks.attempt.bind fun r t ht _ => ?_
  cases r with
  | error e => exact Walks.pure ht.inv trivial
  | ok v => exact Walks.pure ht.inv trivial

/-! ## Writes -/

theorem store_walks {call : StoreEnv → Tx α} {note : Except StoreError α → List Event}
    (hatomic : ∀ env, Tx.Atomic (call env))
    (hok : ∀ t env v db, Onward P s t → call env t.db = .ok v db →
      Moves P t { t with db := db, history := t.history ++ note (.ok v) } ∧
        (Onward P t { t with db := db, history := t.history ++ note (.ok v) } →
          Q v { t with db := db, history := t.history ++ note (.ok v) }))
    (herr : ∀ t e, Onward P s t → Moves P t { t with history := t.history ++ note (.error e) }) :
    Walks P Q (store P call note) s := by
  refine Walks.atomic fun t a ht => ?_
  cases hcall : call ⟨P.accountId, a.now, a.entriesBeingSent, a.commit⟩ t.db with
  | ok v db => exact hok t _ v db ht hcall
  | error e db =>
    obtain rfl := hatomic _ _ _ _ hcall
    exact herr t e ht

variable {principal reason : String} {changes : Changes}
variable {id toText : String} {expected : List String} {commandId : Option String}

theorem transition_atomic {env : StoreEnv} : Tx.Atomic (transition env id expected toText principal commandId reason changes) :=
  Tx.Atomic.check_bind fun _ => Tx.Atomic.check_bind fun _ => Tx.Atomic.transaction _ _

/-! ## Outages -/

variable {record : ExperimentRecord}

theorem move_walks (hto : toText = "PAUSED" ∨ toText = "ARMED") (hb : Bystander changes) :
    Walks P (Any (Option ExperimentRecord))
      (store P (fun env => transition env record.experimentId.val expected toText principal commandId reason changes)
        (fun r => match r with
          | .ok _ => [.moved record]
          | .error _ => [])) s := by
  refine store_walks (fun _ => transition_atomic) (fun t env v db _ hcall => ⟨?_, fun _ => trivial⟩) fun t e _ => ?_
  · exact .moved env record expected toText principal commandId reason changes v hto hb hcall rfl rfl
  · exact .quiet rfl (List.append_nil _) rfl

theorem outage_walks : Walks P (Any Unit) (outage P record now) s := by
  refine unknownFor_walks.bind fun seconds t ht _ => ?_
  refine recalled_walks.bind fun last u hu _ => ?_
  extract_lets generation rest
  have hrest : ∀ r v, Onward P u v → Walks P (Any Unit) (rest r) v := by
    intro r v hv
    dsimp only [rest]
    split
    · exact Walks.pure hv.inv trivial
    · exact Walks.raise hv.inv
    · refine (readBack_walks hv.inv).bind fun target w hw _ => ?_
      exact (sendAlert_walks hw.inv).bind fun sent x _ _ => remember_walks fun _ => rfl
  split
  · refine Walks.bind (move_walks (Or.inl rfl) (by unfold Bystander; simp)).attempt fun r v hv _ => hrest r v hv
  · exact Walks.bind (Q := Any _) (Walks.pure hu.inv trivial) fun r v hv _ => hrest r v hv

theorem onUnknown_walks : Walks P (Any Unit) (onUnknown P record) s := by
  refine clock_walks.bind fun now t ht _ => ?_
  refine recalled_walks.bind fun since u hu _ => ?_
  have hrest : ∀ v, Onward P u v → Walks P (Any Unit) (do
      if ← recalled (·.outageHandled) then return ()
      if P.brokerOutagePauseSeconds * SECOND ≤ (← unknownFor now) then
        outage P record now) v := by
    intro v _
    refine recalled_walks.bind fun handled w hw _ => ?_
    split
    · exact Walks.pure hw.inv trivial
    · refine unknownFor_walks.bind fun d x hx _ => ?_
      split
      · exact outage_walks
      · exact Walks.pure hx.inv trivial
  have hincident : ∀ v, Onward P u v → Walks P (Any Unit) (incident P) v := by
    intro v hv
    unfold incident
    split
    · exact deliver_walks.attempt.bind fun _ w hw _ => Walks.pure hw.inv trivial
    · exact Walks.pure hv.inv trivial
  dsimp only
  split
  · refine Walks.bind (Q := Any Unit) (remember_walks fun _ => rfl) fun _ v hv _ => ?_
    refine Walks.bind (Q := Any Unit) (remember_walks fun _ => rfl) fun _ w hw _ => ?_
    exact (hincident w (hv.trans hw)).bind fun _ x hx _ => hrest x ((hv.trans hw).trans hx)
  · exact hrest u hu.inv.onward

/-! ## The drive of a kill -/

theorem progress_walks (hk : Killed s.db record) (hr : Rounds record.experimentId.val changes) :
    Walks P (fun r t => Killed t.db r) (progress P record changes) s := by
  have hstore : Walks P (fun r t => ∀ updated, r = some updated → Killed t.db updated)
      (store P (fun env => updateKillProgress env record.experimentId.val "KILLED" changes)
        (fun r => match r with
          | .ok _ => [.progressed record]
          | .error _ => [])) s := by
    refine store_walks (fun env => ?_) (fun t env v db ht hcall => ⟨?_, fun hu updated hv => ?_⟩) fun t e _ => ?_
    · exact Tx.Atomic.check_bind fun _ => Tx.Atomic.transaction _ _
    · exact .progressed env record changes v (hk.later ht.kept) hr hcall rfl rfl
    · obtain ⟨-, hget, current, written, hprog⟩ := updateKillProgress_rows hcall
      rw [hv] at hget
      obtain ⟨row, hrow, rfl⟩ := Option.map_eq_some_iff.mp hget.symm
      obtain ⟨hmem, hid⟩ := Table.get?_eq_some.mp hrow
      refine hu.inv.wf.killed hmem ?_
      rcases hprog.rows.cases hprog.mem hprog.id_eq hmem with ⟨-, hne⟩ | rfl
      · exact absurd hid hne
      · exact hprog.state
    · exact .quiet rfl (List.append_nil _) rfl
  refine hstore.bind fun r t ht hkilled => (readBack_walks ht.inv).mono fun updated u hu hr => ?_
  exact (hkilled updated hr).later hu.kept

/-- The five steps of a drive hand on a record of a killed experiment. -/
def Drives (P : Setup) (step : ExperimentRecord → Monitor ExperimentRecord) : Prop :=
  ∀ s record, Inv P s → Killed s.db record → Walks P (fun r t => Killed t.db r) (step record) s

theorem bystander_rounds (h : Bystander changes) : Rounds id changes := Or.inl h

theorem ensureFlatten_drives : Drives P (ensureFlatten P) := by
  intro s record hi hk
  unfold ensureFlatten
  split
  · exact Walks.pure hi hk
  · refine ask_walks.bind fun receipt t ht _ => ?_
    have hrest : ∀ (root : Option String) (u : Shared), Onward P t u →
        Walks P (fun r t => Killed t.db r) (progress P record [("kill_flatten_root", ofText root)]) u := by
      intro root u hu
      exact progress_walks (hk.later (ht.trans hu).kept) (bystander_rounds (by unfold Bystander; simp))
    dsimp only
    split
    · exact Walks.bind (Q := Any _) (Walks.pure ht.inv trivial) fun root u hu _ => hrest root u hu
    · refine clock_walks.bind fun now u hu _ => ?_
      have hcall : Walks P (Any String)
          (flattenAccountNow record (record.killRootId.map (·.val)) (now + P.flattenSeconds * SECOND)) u := by
        refine Walks.atomic fun v a hv => ?_
        have hmove := Moves.flatten (P := P) (s := v) record (now + P.flattenSeconds * SECOND)
          (hk.later ((ht.trans hu).trans hv).kept) rfl
        cases ha : a.root with
        | none => exact hmove
        | some root => exact ⟨hmove, fun _ => trivial⟩
      refine Walks.bind (Q := Any _) (hcall.map fun _ _ _ _ => trivial) fun root v hv _ => ?_
      exact hrest root v (hu.trans hv)

theorem ensureAlert_drives : Drives P (ensureAlert P) := by
  intro s record hi hk
  unfold ensureAlert
  split
  · exact Walks.pure hi hk
  · refine (sendAlert_walks hi).bind fun state t ht _ => ?_
    cases state with
    | none => exact Walks.pure ht.inv (hk.later ht.kept)
    | some state => exact progress_walks (hk.later ht.kept) (bystander_rounds (by unfold Bystander; simp))

theorem proveFlat_drives : Drives P (proveFlat P) := by
  intro s record hi hk
  unfold proveFlat
  split
  · exact Walks.pure hi hk
  · refine ask_walks.bind fun receipt t ht _ => ?_
    have hsame : ∀ u, Onward P t u → Walks P (fun r t => Killed t.db r) (pure record) u :=
      fun u hu => Walks.pure hu.inv (hk.later (ht.trans hu).kept)
    have hwrite : ∀ {changes : Changes} (u : Shared), Bystander changes → Onward P t u →
        Walks P (fun r t => Killed t.db r) (progress P record changes) u :=
      fun u hb hu => progress_walks (hk.later (ht.trans hu).kept) (bystander_rounds hb)
    have ht' := ht.inv.onward
    cases receipt with
    | none => exact hsame t ht'
    | some receipt =>
      dsimp only
      split
      · exact hwrite t (by unfold Bystander; simp) ht'
      · split
        · exact clock_walks.bind fun now u hu _ => hwrite u (by unfold Bystander; simp) hu
        · split
          · exact hsame t ht'
          · refine ask_walks.bind fun snapshot u hu _ => ?_
            cases snapshot.generation with
            | none => exact Walks.raise hu.inv
            | some generation =>
              dsimp only
              split
              · exact hsame u hu
              · refine reconciliationSafe_walks.bind fun safe v hv _ => ?_
                split
                · exact hsame v (hu.trans hv)
                · refine clock_walks.bind fun now w hw _ => ?_
                  exact hwrite w (by unfold Bystander; simp) ((hu.trans hv).trans hw)

theorem checkLateExposure_drives : Drives P (checkLateExposure P) := by
  intro s record hi hk
  unfold checkLateExposure
  split
  · exact Walks.pure hi hk
  · refine ask_walks.bind fun snapshot t ht _ => ?_
    split
    · exact Walks.pure ht.inv (hk.later ht.kept)
    · have hrounds : Rounds record.experimentId.val
          [("kill_round", .int (record.killRound + 1 : Nat)),
            ("kill_root_id", .text (killRootId record.experimentId.val record.killSeq (record.killRound + 1))),
            ("kill_flatten_root", .none), ("kill_flat_state", .text "PENDING"), ("kill_flat_generation", .none),
            ("kill_flat_at", .none)] := by
        rw [hk.seq]
        exact Or.inr ⟨record.killRound + 1, _, by unfold Bystander; simp, rfl⟩
      exact progress_walks (hk.later ht.kept) hrounds

theorem ensureSessionEnd_drives : Drives P (ensureSessionEnd P) := by
  intro s record hi hk
  unfold ensureSessionEnd
  split
  · exact Walks.pure hi hk
  · split
    · exact progress_walks hk (bystander_rounds (by unfold Bystander; simp))
    · dsimp only
      split
      · exact Walks.bind (Q := Any _) (Walks.raise hi) fun _ t ht _ => deliver_walks.bind fun _ u hu _ =>
          progress_walks (hk.later (ht.trans hu).kept) (bystander_rounds (by unfold Bystander; simp))
      · exact deliver_walks.bind fun _ u hu _ =>
          progress_walks (hk.later hu.kept) (bystander_rounds (by unfold Bystander; simp))

theorem drive_walks {steps : List (ExperimentRecord → Monitor ExperimentRecord)} (hsteps : ∀ step ∈ steps, Drives P step)
    (hi : Inv P s) (hk : Killed s.db record) : Walks P (Any Unit) (drive record steps) s := by
  induction steps generalizing record s with
  | nil => exact Walks.pure hi trivial
  | cons step rest ih =>
    have hrest := fun x hx => hsteps x (List.mem_cons_of_mem step hx)
    refine (hsteps step List.mem_cons_self s record hi hk).attempt.bind fun r t ht hr => ?_
    split
    · exact ih hrest ht.inv (hr _ rfl)
    · exact Walks.pure ht.inv trivial
    · exact ih hrest ht.inv (hk.later ht.kept)

theorem driveKill_walks (hi : Inv P s) (hk : Killed s.db record) : Walks P (Any Unit) (driveKill P record) s := by
  refine drive_walks ?_ hi hk
  simp only [List.mem_cons, List.not_mem_nil, or_false, forall_eq_or_imp, forall_eq]
  exact ⟨ensureFlatten_drives, ensureAlert_drives, proveFlat_drives, checkLateExposure_drives, ensureSessionEnd_drives⟩

/-! ## Evaluations -/

variable {capture : Capture}

theorem kill_walks {peak : ℚ} {line : KillLine} {e : KillEvaluation} (hj : Judged P s record capture peak)
    (hline : effectiveKillLine record.toExperimentStart P.experimentKillDrawdownPct = some line)
    (heval : evaluateKillLine line (.float record.killAnchorNetLiquidation.val) (.float peak) capture.netLiquidation =
      .ok e) (hhit : e.hit = true) : Walks P (Any Unit) (kill P record capture e) s := by
  refine clock_walks.bind fun killedAt t ht _ => ?_
  have hlater : ∀ u, Onward P t u → Judged P u record capture peak := fun u hu =>
    ⟨hj.seen.later (ht.trans hu).kept, (ht.trans hu).told hj.raised⟩
  have hstore : Walks P (fun r u => ∀ killed, r = some killed → Killed u.db killed)
      (store P (fun env => transition env record.experimentId.val ["ARMED", "PAUSED"] "KILLED" KILL_MONITOR_PRINCIPAL none
          "kill line hit" (killChanges record capture e killedAt))
        (fun r => match r with
          | .ok _ => [.killed record capture]
          | .error _ => [.notKilled record capture])) t := by
    refine store_walks (fun _ => transition_atomic) (fun u env v db hu hcall => ⟨?_, fun hw killed hv => ?_⟩)
      fun u err hu => ?_
    · exact .kill env record capture peak line e killedAt (.ok v) (hlater u hu) hline heval hhit hcall rfl rfl
    · obtain ⟨-, hget, toState, current, updated, hto, htrans⟩ := transition_rows hcall
      obtain rfl := text_killed (member_states hto)
      rw [hv] at hget
      obtain ⟨row, hrow, rfl⟩ := Option.map_eq_some_iff.mp hget.symm
      obtain ⟨hmem, hid⟩ := Table.get?_eq_some.mp hrow
      refine hw.inv.wf.killed hmem ?_
      rcases htrans.rows.cases htrans.mem htrans.id_eq hmem with ⟨-, hne⟩ | rfl
      · exact absurd hid hne
      · exact htrans.state
    · exact .kill ⟨P.accountId, 0, [], none⟩ record capture peak line e killedAt (.error err) (hlater u hu) hline heval
        hhit rfl rfl rfl
  refine hstore.attempt.bind fun r u hu hkilled => ?_
  cases r with
  | error err => exact Walks.pure hu.inv trivial
  | ok killed =>
    refine (readBack_walks hu.inv).bind fun updated v hv hr => ?_
    exact driveKill_walks hv.inv ((hkilled killed rfl updated hr).later hv.kept)

theorem evaluate_walks (hseen : Seen s.db record)
    (hacc : Event.accepted capture ∈ s.history) : Walks P (Any Check) (evaluate P record capture) s := by
  refine Walks.bind (Q := Any Unit) (remember_walks fun _ => rfl) fun _ t₁ h₁ _ => ?_
  refine Walks.bind (Q := Any Unit) (remember_walks fun _ => rfl) fun _ t₂ h₂ _ => ?_
  refine Walks.bind (Q := Any Unit) (remember_walks fun _ => rfl) fun _ t₃ h₃ _ => ?_
  have h₀ := (h₁.trans h₂).trans h₃
  refine Walks.bind (Q := fun peak u => Event.raised record capture peak ∈ u.history)
    (store_walks (fun env => ?_) (fun u env peak db hu hcall => ⟨?_, fun _ => ?_⟩) fun u err hu => ?_)
    fun peak u hu hraised => ?_
  · exact Tx.Atomic.check_bind fun _ => Tx.Atomic.transaction _ _
  · exact .raised env record capture peak (hseen.later (h₀.trans hu).kept) ((h₀.trans hu).told hacc) hcall rfl rfl
  · exact List.mem_append_right _ (List.mem_singleton_self _)
  · exact .quiet rfl (List.append_nil _) rfl
  refine Walks.bind (Q := Any Unit) (Walks.atomic fun v a hv => ⟨.good capture.generation rfl rfl rfl, fun _ => trivial⟩)
    fun _ t₄ h₄ _ => ?_
  refine clock_walks.bind fun now t₅ h₅ _ => ?_
  refine Walks.bind (Q := Any Unit) (remember_walks fun _ => rfl) fun _ t₆ h₆ _ => ?_
  have hsince := (h₄.trans h₅).trans h₆
  have hj : ∀ v, Onward P t₆ v → Judged P v record capture peak := fun v hv =>
    ⟨hseen.later (((h₀.trans hu).trans hsince).trans hv).kept, (hsince.trans hv).told hraised⟩
  have hclear : ∀ e, (∀ line, effectiveKillLine record.toExperimentStart P.experimentKillDrawdownPct = some line → ∃ e,
      evaluateKillLine line (.float record.killAnchorNetLiquidation.val) (.float peak) capture.netLiquidation = .ok e ∧
        ¬ e.hit) → Walks P (Any Unit) (evaluate.clear record capture e) t₆ := fun e hmiss =>
    Walks.atomic fun v a hv => ⟨.cleared record capture peak (hj v hv) hmiss rfl rfl rfl, fun _ => trivial⟩
  split
  · rename_i hnone
    refine Walks.bind (hclear none fun line hline => ?_) fun _ v hv _ => Walks.pure hv.inv trivial
    rw [hnone] at hline
    cases hline
  · rename_i line hline
    split
    · exact Walks.bind (Q := Any Unit) (remember_walks fun _ => rfl) fun _ v hv _ => Walks.pure hv.inv trivial
    · rename_i e heval
      split
      · rename_i hmiss
        refine Walks.bind (hclear (some e) fun line' hline' => ?_) fun _ v hv _ => Walks.pure hv.inv trivial
        obtain rfl : line = line' := Option.some.inj (hline.symm.trans hline')
        exact ⟨e, heval, hmiss⟩
      · rename_i hhit
        refine Walks.bind (Q := Any Unit) (remember_walks fun _ => rfl) fun _ v hv _ => ?_
        refine (kill_walks (hj v hv) hline heval (not_not.mp hhit)).bind fun _ w hw _ => Walks.pure hw.inv trivial

/-! ## What the process calls -/

theorem held_cases {db : ExperimentDb} (h : Held db record) :
    (record.state = .KILLED ∧ Killed db record) ∨ (record.state ≠ .KILLED ∧ Seen db record) := by
  unfold Held at h
  split at h
  · exact Or.inl ⟨‹_›, h⟩
  · exact Or.inr ⟨‹_›, h⟩

theorem recover_walks : Walks P (Any Unit) (recover P) s := by
  refine active_walks.bind fun r t ht hheld => ?_
  have hrest : ∀ u, Onward P t u → Walks P (Any Unit) (remember fun m => { m with recovered := true }) u :=
    fun u _ => remember_walks fun _ => rfl
  cases r with
  | none => exact hrest t ht.inv.onward
  | some record =>
    dsimp only
    split
    · have hk : Killed t.db record := by
        rcases held_cases (hheld record rfl) with ⟨-, hk⟩ | ⟨hne, -⟩
        · exact hk
        · exact absurd ‹_› hne
      exact (driveKill_walks ht.inv hk).bind fun _ u hu _ => hrest u hu
    · exact hrest t ht.inv.onward

theorem tick_walks : Walks P (Any Unit) (tick P) s := by
  refine recalled_walks.bind fun recovered t ht _ => ?_
  split
  · exact recover_walks
  · refine active_walks.bind fun r u hu hheld => ?_
    cases r with
    | none => exact Walks.pure hu.inv trivial
    | some record =>
      dsimp only
      rcases held_cases (hheld record rfl) with ⟨hstate, hk⟩ | ⟨hstate, hseen⟩
      · rw [if_pos hstate]
        exact driveKill_walks hu.inv hk
      · rw [if_neg hstate]
        refine evaluableCapture_walks.bind fun c v hv hacc => ?_
        cases c with
        | none => exact onUnknown_walks
        | some capture =>
          exact (evaluate_walks (hseen.later hv.kept) (hacc capture rfl)).bind fun _ w hw _ => Walks.pure hw.inv trivial

theorem checkBeforeArming_walks (hseen : Seen s.db record) : Walks P (Any Check) (checkBeforeArming P record capture) s := by
  refine recalled_walks.bind fun recovered t ht _ => ?_
  split
  · exact Walks.pure ht.inv trivial
  · refine inspect_walks.bind fun reason u hu hacc => ?_
    cases reason with
    | some reason => exact Walks.pure hu.inv trivial
    | none => exact evaluate_walks (hseen.later (ht.trans hu).kept) (hacc rfl)

theorem serviceCapture_walks : Walks P (Any Capture) (serviceCapture P) s := by
  refine ask_walks.attempt.bind fun r t ht _ => ?_
  cases r with
  | error e => exact Walks.raise ht.inv
  | ok c =>
    dsimp only
    split
    · refine (Walks.refuseIf ht.inv).bind fun _ u hu _ => ?_
      refine (Walks.refuseIf hu.inv).bind fun _ v hv _ => ?_
      exact (Walks.refuseIf hv.inv).bind fun _ w hw _ => Walks.pure hw.inv trivial
    · exact Walks.raise ht.inv

theorem requireBool_walks {unreadable refused : String} : Walks P (Any Unit) (requireBool unreadable refused) s := by
  refine ask_walks.attempt.bind fun r t ht _ => ?_
  split
  · exact Walks.pure ht.inv trivial
  · exact Walks.raise ht.inv
  · exact Walks.raise ht.inv

theorem requireFreshEvidence_walks : Walks P (Any Capture) (requireFreshEvidence P record) s := by
  refine requireBool_walks.bind fun _ t ht _ => ?_
  refine serviceCapture_walks.bind fun c u hu _ => ?_
  dsimp only
  have hrest : ∀ v, Onward P u v → Walks P (Any Capture)
      (requireBool "RECONCILIATION_INCOMPLETE" "RECONCILIATION_INCOMPLETE" >>= fun _ => pure c) v :=
    fun v _ => requireBool_walks.bind fun _ w hw _ => Walks.pure hw.inv trivial
  split
  · exact Walks.bind (Q := Any _) (Walks.raise hu.inv) fun _ v hv _ => hrest v hv
  · exact (Walks.refuseIf hu.inv).bind fun _ v hv _ => hrest v hv

theorem requireKillLineClear_walks (hseen : Seen s.db record) : Walks P (Any Unit) (requireKillLineClear P record capture) s := by
  refine (checkBeforeArming_walks hseen).attempt.bind fun r t ht _ => ?_
  split
  · exact Walks.raise ht.inv
  · exact Walks.pure ht.inv trivial
  · exact Walks.raise ht.inv
  · exact Walks.raise ht.inv
  · refine active_walks.bind fun current u hu _ => ?_
    cases current with
    | none => exact Walks.raise hu.inv
    | some current =>
      dsimp only
      split
      · exact Walks.raise hu.inv
      · exact Walks.raise hu.inv

variable {experimentId : String}

theorem target_walks : Walks P (fun record t => Held t.db record) (target P experimentId) s := by
  refine active_walks.bind fun r t ht hheld => ?_
  cases r with
  | none => exact Walks.bind (Q := Any Bool) (Walks.read fun _ _ _ _ _ => trivial) fun _ u hu _ => Walks.raise hu.inv
  | some record =>
    refine (Walks.refuseIf ht.inv).bind fun _ u hu _ => Walks.pure hu.inv ?_
    rcases held_cases (hheld record rfl) with ⟨hstate, hk⟩ | ⟨hstate, hseen⟩
    · exact (if_pos hstate).mpr (hk.later hu.kept)
    · exact (if_neg hstate).mpr (hseen.later hu.kept)

theorem resume_walks {commandId : String} : Walks P (Any Unit) (resume P experimentId principal commandId reason) s := by
  refine target_walks.bind fun record t ht hheld => ?_
  refine (Walks.refuseIf ht.inv).bind fun _ u hu hlive => ?_
  have hseen : Seen u.db record := by
    rcases held_cases hheld with ⟨hstate, -⟩ | ⟨-, hseen⟩
    · exact absurd hstate hlive
    · exact hseen.later hu.kept
  split
  · exact Walks.pure hu.inv trivial
  · refine requireBool_walks.bind fun _ v hv _ => ?_
    have hrest : ∀ (capture : Capture) (w : Shared), Onward P v w → Walks P (Any Unit) (do
        requireKillLineClear P record capture
        let _ ← store P (fun env => transition env record.experimentId.val ["PAUSED"] "ARMED" principal (some commandId)
            reason [("pause_cause", .none), ("pause_generation_id", .none)])
          (fun r => match r with
            | .ok _ => [.moved record]
            | .error _ => [])) w := by
      intro capture w hw
      refine (requireKillLineClear_walks (hseen.later (hv.trans hw).kept)).bind fun _ x hx _ => ?_
      refine (move_walks (Or.inr rfl) (by unfold Bystander; simp)).bind fun _ y hy _ => ?_
      exact Walks.pure hy.inv trivial
    dsimp only
    split
    · exact requireFreshEvidence_walks.bind fun capture w hw _ => hrest capture w hw
    · exact serviceCapture_walks.bind fun capture w hw _ => hrest capture w hw

end MmrTrader.Experiment
