import MmrTrader.Experiment.KillWalk

/-!
# The kill line is enforced in order

* `Enforced` — what holds of every state that a run of the monitor reaches, crashes included.
* `Orderly` — what one turn of a run does.
* `kill_line_enforced` — both, for every schedule of ticks, resumes, recoveries, service calls and crashes.
* `captures_lost_by_crash` — a strict reading also counts captures that only a process before the crash saw.
-/

namespace MmrTrader.Experiment

open MmrTrader.Lib MmrTrader.Lib.Interleaving

variable {P : Setup}

/-! ## The run -/

variable {s : Shared}

theorem service_onward (hi : Inv P s) (e : StoreEnv × ServiceCall) : Onward P s ((monitor P).env e s) := by
  obtain ⟨env, c⟩ := e
  have hkept : Kept s.db (step s.db (env, c.call)) := (step_outcome s.db (env, c.call)).kept
  have hwf : Wf s.history (step s.db (env, c.call)) := by
    unfold step
    cases hcall : call env c.call s.db with
    | error e db =>
      obtain rfl := call_atomic env c.call _ _ _ hcall
      exact hi.wf
    | ok a db =>
      cases c with
      | start st principal reason =>
        obtain ⟨r, h, -⟩ := Tx.map_ok hcall
        exact hi.wf.arm h
      | pause id principal commandId reason =>
        obtain ⟨r, h, -⟩ := Tx.map_ok hcall
        obtain ⟨ho, -, toState, current, updated, hto, htrans⟩ := transition_rows h
        refine hi.wf.transition (.refl _) ho htrans (by unfold Bystander; simp) ?_
        rintro rfl
        exact absurd (member_states hto) (by decide)
      | stop id principal commandId reason =>
        obtain ⟨r, h, -⟩ := Tx.map_ok hcall
        obtain ⟨ho, -, toState, current, updated, hto, htrans⟩ := transition_rows h
        refine hi.wf.transition (.refl _) ho htrans (by unfold Bystander; simp) ?_
        rintro rfl
        exact absurd (member_states hto) (by decide)
  exact ⟨⟨hwf, hi.told, hi.last, fun record root deadline hmem => (hi.flattened record root deadline hmem).later hkept⟩,
    hkept, List.prefix_refl _⟩

theorem reboot_onward (hi : Inv P s) : Onward P s (reboot s) := by
  refine hi.tell rfl (hi.wf.same (.snoc _ trivial)) (.refl _) trivial ?_ ?_
  · rw [reboot, lastGood_snoc]
  · rintro _ _ _ ⟨⟩

theorem main_walks (k : Request) (s : Shared) : Walks P (Any Unit) ((monitor P).main k) s := by
  cases k with
  | recover => exact recover_walks
  | tick => exact tick_walks
  | resume => exact resume_walks

theorem monitor_sound (P : Setup) : Interleaving.Sound (monitor P) (Inv P) (Onward P) fun _ _ => True where
  refl _ hi := hi.onward
  trans _ _ _ h h' := h.trans h'
  inv _ _ h := h.inv
  env e _ hi := service_onward hi e
  main k _ _ := Safe.mono (main_walks k _) (fun _ _ h => h.2) fun _ _ _ => trivial
  later _ _ _ _ _ := trivial
  raised _ _ := trivial

theorem main_moves (k : Request) (s : Shared) (_ : Inv P s) :
    Safe (Onward P) (Moves P) (fun _ _ => True) ((monitor P).main k) s :=
  Safe.mono (main_walks k s) (fun _ _ h => h.1) fun _ _ _ => trivial

theorem inv_initial : Inv P initial.shared where
  wf := wf_empty
  told pre e post h := by
    cases pre <;> cases h
  last := rfl
  flattened _ _ _ h := by cases h

theorem monitored_steady (P : Setup) (ts : List (Turn Answers MonitorError Request (StoreEnv × ServiceCall))) :
    Steady (Inv P) (Onward P) (fun _ _ => True) (monitored P ts) ∧ Guarded (Onward P) (Moves P) (monitored P ts) := by
  have h := (monitor_sound P).lives main_moves (fun _ => reboot_onward) (Steady.init inv_initial fun _ => rfl)
    (fun i p hp => by cases hp) ts
  exact ⟨h.1, h.2.1⟩

/-! ## At most one kill -/

variable {rows : List TransitionRow}

theorem stopped_last {t : TransitionRow} (ht : t.toState = .STOPPED)
    (h : (t :: rows).IsChain fun t u => u.fromState = some t.toState ∧ (t.toState, u.toState) ∈ ALLOWED_TRANSITIONS) :
    rows = [] := by
  cases rows with
  | nil => rfl
  | cons u rows =>
    have hallowed := (List.isChain_cons_cons.mp h).1.2
    exact absurd ht (allowed_from hallowed)

theorem killed_once (h : rows.IsChain fun t u => u.fromState = some t.toState ∧ (t.toState, u.toState) ∈ ALLOWED_TRANSITIONS) :
    (rows.filter fun t => t.toState = .KILLED).length ≤ 1 := by
  induction rows with
  | nil => exact Nat.zero_le 1
  | cons t rows ih =>
    have htail := ih h.tail
    by_cases ht : t.toState = .KILLED
    · have hnone : rows.filter (fun t => t.toState = .KILLED) = [] := by
        cases rows with
        | nil => rfl
        | cons u rows =>
          obtain ⟨⟨-, hallowed⟩, hchain⟩ := List.isChain_cons_cons.mp h
          have hstop : u.toState = .STOPPED := by
            rw [ht] at hallowed
            revert hallowed
            cases u.toState <;> decide
          rw [stopped_last hstop hchain]
          simp [hstop]
      simp [ht, hnone]
    · simpa [ht] using htail

/-! ## The results -/

/-- What every state of a run shows. -/
structure Enforced (P : Setup) (s : Shared) : Prop where
  /-- A flatten was requested after the KILLED transition, with the one root of its round. -/
  flattened : ∀ record root deadline, Event.flatten record root deadline ∈ s.history →
    (∃ t ∈ s.db.transitionsOf record.experimentId.val, t.toState = .KILLED) ∧ record.state = .KILLED ∧
      record.killSeq = 1 ∧ root = some (killRootId record.experimentId.val record.killSeq record.killRound)
  /-- What kills was found usable, beside the last good generation of its process. -/
  usable : ∀ pre record capture post, s.history = pre ++ .killed record capture :: post →
    ∃ before after, pre = before ++ .accepted capture :: after ∧
      unusableReason P.accountId (lastGood before) capture = none
  /-- An evaluation ends CLEAR below the line; what kills, or failed to, had reached it. -/
  decided : ∀ pre record capture post,
    (s.history = pre ++ .cleared record capture :: post → ∃ known net, Evaluated pre record capture known net ∧
      ¬ Reaches record.toExperimentStart P.experimentKillDrawdownPct known net) ∧
    (s.history = pre ++ .killed record capture :: post ∨ s.history = pre ++ .notKilled record capture :: post →
      ∃ known net, Evaluated pre record capture known net ∧
        Reaches record.toExperimentStart P.experimentKillDrawdownPct known net)
  once : ∀ r ∈ s.db.experiments.rows, ((s.db.transitionsOf r.id).filter fun t => t.toState = .KILLED).length ≤ 1

structure Orderly (P : Setup) (s t : Shared) (turn : Turn Answers MonitorError Request (StoreEnv × ServiceCall)) : Prop where
  flatten : ∀ record root deadline, t.history = s.history ++ [.flatten record root deadline] → t.db = s.db
  /-- An equity that reaches the line writes no column. -/
  raised : ∀ record capture peak net, t.history = s.history ++ [.raised record capture peak] →
    isNumber capture.netLiquidation = some net →
    Reaches record.toExperimentStart P.experimentKillDrawdownPct (equities t.history record.experimentId.val) net →
    t.db = s.db
  killed : ∀ record capture, t.history = s.history ++ [.killed record capture] →
    ∃ r, t.db.get record.experimentId.val = some r ∧ r.state = .KILLED
  notKilled : ∀ record capture, t.history = s.history ++ [.notKilled record capture] → t.db = s.db
  /-- The monitor writes nothing that its history leaves out. -/
  silent : t.history = s.history → (∀ e, turn ≠ .live (.env e)) → t.db = s.db

theorem Inv.enforced (hi : Inv P s) : Enforced P s where
  flattened record root deadline hmem := by
    have hk := hi.flattened record root deadline hmem
    obtain ⟨t, ht, hid, hto⟩ := hk.committed
    obtain ⟨pre, post, heq⟩ := List.append_of_mem hmem
    have hroot : root = some (killRootId record.experimentId.val 1 record.killRound) := hi.told pre _ post heq
    refine ⟨⟨t, ?_, hto⟩, hk.state, hk.seq, by rw [hk.seq]; exact hroot⟩
    rw [ExperimentDb.transitionsOf, List.mem_mergeSort]
    exact List.mem_filter.mpr ⟨ht, decide_eq_true hid⟩
  usable pre record capture post heq := by
    obtain ⟨known, net, ⟨before, after, peak, hpre, -, -⟩, -⟩ := hi.told pre _ post heq
    obtain ⟨hacc, -⟩ := hi.told before (.raised record capture peak) (after ++ .killed record capture :: post)
      (by rw [heq, hpre, List.append_assoc, List.cons_append])
    obtain ⟨b, a, hb⟩ := List.append_of_mem hacc
    refine ⟨b, a ++ .raised record capture peak :: after, by rw [hpre, hb, List.append_assoc, List.cons_append], ?_⟩
    exact hi.told b (.accepted capture) (a ++ .raised record capture peak :: after ++ .killed record capture :: post)
      (by rw [heq, hpre, hb]; simp)
  decided pre record capture post :=
    ⟨fun heq => hi.told pre _ post heq, fun heq => heq.elim (hi.told pre _ post) (hi.told pre _ post)⟩
  once r hr := killed_once (hi.wf.linked.sound.chained r hr).links

variable {e : Event}
variable {h : List Event}

theorem snoc_inj {e' : Event} (heq : h ++ [e] = h ++ [e']) : e = e' := by
  simpa using heq

theorem no_snoc (heq : h = h ++ [e]) : False := by
  have := congrArg List.length heq
  simp at this

variable {t : Shared} {turn : Turn Answers MonitorError Request (StoreEnv × ServiceCall)}

theorem Orderly.of_same (hdb : t.db = s.db) (hk : ∀ record capture, t.history ≠ s.history ++ [.killed record capture]) :
    Orderly P s t turn where
  flatten _ _ _ _ := hdb
  raised _ _ _ _ _ _ _ := hdb
  killed record capture h := absurd h (hk record capture)
  notKilled _ _ _ := hdb
  silent _ _ := hdb

theorem Orderly.of_event (hh : t.history = s.history ++ [e]) (hf : ∀ record root deadline, e ≠ .flatten record root deadline)
    (hr : ∀ record capture peak, e ≠ .raised record capture peak) (hk : ∀ record capture, e ≠ .killed record capture)
    (hn : ∀ record capture, e ≠ .notKilled record capture) : Orderly P s t turn where
  flatten record root deadline h := absurd (snoc_inj (hh.symm.trans h)) (hf record root deadline)
  raised record capture peak _ h := absurd (snoc_inj (hh.symm.trans h)) (hr record capture peak)
  killed record capture h := absurd (snoc_inj (hh.symm.trans h)) (hk record capture)
  notKilled record capture h := absurd (snoc_inj (hh.symm.trans h)) (hn record capture)
  silent h := (no_snoc (h.symm.trans hh)).elim

theorem Moves.orderly (hi : Inv P s) (h : Moves P s t) : Orderly P s t turn := by
  cases h with
  | quiet hdb hh hm => exact .of_same hdb fun _ _ h => no_snoc (hh.symm.trans h)
  | accepted capture hu ht =>
    subst ht
    exact .of_same rfl fun _ _ h => by cases snoc_inj h
  | raised env record capture peak hseen hacc hcall hh hm =>
    obtain ⟨-, net, hnet, r, hr, hid, -, hsame⟩ := hi.wf.raise hcall
    refine ⟨?_, ?_, ?_, ?_, fun h => (no_snoc (h.symm.trans hh)).elim⟩
    · intro _ _ _ h
      cases snoc_inj (hh.symm.trans h)
    · intro record' capture' peak' net' h hnet' hreach
      cases snoc_inj (hh.symm.trans h)
      obtain rfl : net' = net := Option.some.inj (hnet'.symm.trans hnet)
      rw [hh, equities_raised _ _ hnet, if_pos rfl] at hreach
      obtain ⟨row, hrow, hstart⟩ := hseen.start
      have hsame' : row.id = record.experimentId.val := congrArg (fun st => st.experimentId.val) hstart
      obtain rfl := s.db.experiments.eq_of_key hr hrow (hid.trans hsame'.symm)
      have hanchor : r.killAnchorNetLiquidation = record.killAnchorNetLiquidation :=
        congrArg ExperimentStart.killAnchorNetLiquidation hstart
      refine hsame ?_
      rw [hid, hanchor]
      exact hreach.below.le
    · intro _ _ h
      cases snoc_inj (hh.symm.trans h)
    · intro _ _ h
      cases snoc_inj (hh.symm.trans h)
  | good generation hdb hh hm => exact .of_same hdb fun _ _ h => by cases snoc_inj (hh.symm.trans h)
  | cleared record capture peak hj hmiss hdb hh hm =>
    exact .of_same hdb fun _ _ h => by cases snoc_inj (hh.symm.trans h)
  | kill env record capture peak line e killedAt r hj hline heval hhit hcall hh hm =>
    cases r with
    | error err => exact .of_same hcall fun _ _ h => by cases snoc_inj (hh.symm.trans h)
    | ok v =>
      refine ⟨?_, ?_, ?_, ?_, fun h => (no_snoc (h.symm.trans hh)).elim⟩
      · intro _ _ _ h
        cases snoc_inj (hh.symm.trans h)
      · intro _ _ _ _ h
        cases snoc_inj (hh.symm.trans h)
      · intro record' capture' h
        cases snoc_inj (hh.symm.trans h)
        obtain ⟨-, hget, toState, current, updated, hto, htrans⟩ := transition_rows hcall
        obtain rfl := text_killed (member_states hto)
        have hmem := htrans.rows.mem htrans.mem htrans.id_eq
        refine ⟨(current.assign updated env.now).toExperimentRecord, ?_, htrans.state⟩
        refine Option.map_eq_some_iff.mpr ⟨_, Table.get?_eq_some.mpr ⟨hmem, ?_⟩, rfl⟩
        exact htrans.id_eq
      · intro _ _ h
        cases snoc_inj (hh.symm.trans h)
  | flatten record deadline hk ht =>
    subst ht
    exact .of_same rfl fun _ _ h => by cases snoc_inj h
  | progressed env record changes r hk hr hcall hh hm =>
    exact .of_event hh (fun _ _ _ => by rintro ⟨⟩) (fun _ _ _ => by rintro ⟨⟩) (fun _ _ => by rintro ⟨⟩)
      fun _ _ => by rintro ⟨⟩
  | moved env record expected toText principal commandId reason changes r hto hb hcall hh hm =>
    exact .of_event hh (fun _ _ _ => by rintro ⟨⟩) (fun _ _ _ => by rintro ⟨⟩) (fun _ _ => by rintro ⟨⟩)
      fun _ _ => by rintro ⟨⟩

/-- **The kill line is enforced in order**, for every run of the monitor with any captures, port results, exposure and
crashes: what every state shows, and what every turn does. -/
theorem kill_line_enforced (P : Setup) (ts : List (Turn Answers MonitorError Request (StoreEnv × ServiceCall))) :
    Enforced P (monitored P ts).shared ∧
      ∀ turn, Orderly P (monitored P ts).shared (monitored P (ts ++ [turn])).shared turn := by
  obtain ⟨hsteady, hguarded⟩ := monitored_steady P ts
  refine ⟨hsteady.inv.enforced, fun turn => ?_⟩
  have hnext : monitored P (ts ++ [turn]) = (monitor P).turn reboot (monitored P ts) turn :=
    (monitor P).lives_append reboot initial ts [turn]
  rw [hnext]
  obtain ⟨-, -, hcases⟩ := (monitor_sound P).turn_cases main_moves hsteady hguarded (fun _ => reboot_onward) turn
  rcases hcases with hsame | ⟨i, a, rfl, hmove⟩ | ⟨e, rfl, henv⟩ | ⟨rfl, hcrash⟩
  · rw [hsame]
    exact .of_same rfl fun _ _ h => no_snoc h
  · exact hmove.orderly hsteady.inv
  · rw [henv]
    refine ⟨?_, ?_, ?_, ?_, fun _ h => absurd rfl (h e)⟩
    · exact fun _ _ _ h => (no_snoc h).elim
    · exact fun _ _ _ _ h => (no_snoc h).elim
    · exact fun _ _ h => (no_snoc h).elim
    · exact fun _ _ h => (no_snoc h).elim
  · rw [hcrash]
    exact .of_same rfl fun _ _ h => by cases snoc_inj h

/-! ## What a crash loses -/

/-- The last good generation, whichever process saw it. -/
def lastGoodEver (history : List Event) : Option Int :=
  history.foldl (fun last e => match e with
    | .good g => g
    | _ => last) none

def usableEquities (history : List Event) : List ℚ :=
  history.filterMap fun
    | .accepted capture => isNumber capture.netLiquidation
    | _ => none

/-- No capture older than the last good one kills, also when another process saw that one. -/
def OlderNeverKills (P : Setup) : Prop :=
  ∀ ts before capture after record post,
    (monitored P ts).shared.history = before ++ .accepted capture :: (after ++ .killed record capture :: post) →
    ∀ g ∈ lastGoodEver before, ∀ g', capture.generation = some g' → g ≤ g'

/-- Every usable capture since the experiment was there counts for what clears the line. -/
def EveryUsableCounts (P : Setup) : Prop :=
  ∀ ts ts' record capture before post net, (monitored P ts).shared.db.get record.experimentId.val ≠ none →
    (monitored P (ts ++ ts')).shared.history =
      (monitored P ts).shared.history ++ before ++ .cleared record capture :: post →
    isNumber capture.netLiquidation = some net →
    ¬ Reaches record.toExperimentStart P.experimentKillDrawdownPct (usableEquities before) net

def samplePeakStart : ExperimentStart :=
  { sampleRecord.toExperimentStart with killBasis := .peak, killDrawdownPct := some ⟨10, by norm_num, by norm_num⟩ }

def sampleSetup : Setup := ⟨"DU1", none, 60, 300, false, false, false⟩

def sampleCapture (generation : Int) (net : ℚ) : Capture := ⟨some "DU1", some "paper", .float net, .int generation, [], []⟩

/-- `n` steps of program 0. -/
def steps (n : Nat) (a : Answers) : List (Turn Answers MonitorError Request (StoreEnv × ServiceCall)) :=
  List.replicate n (.live (.go 0 a))

def sampleStart : List (Turn Answers MonitorError Request (StoreEnv × ServiceCall)) :=
  [.live (.env (⟨"DU1", 0, [], none⟩, .start samplePeakStart "owner" "start")), .live (.start 0 .recover)] ++
    steps 2 { now := 0 }

/-- A tick that stops after `n` steps, a crash, the next process's recovery, a tick. -/
def sampleCrash (n : Nat) (first second : Capture) : List (Turn Answers MonitorError Request (StoreEnv × ServiceCall)) :=
  [.live (.start 0 .tick)] ++ steps n { now := 1, capture := some first } ++ [.crash, .live (.start 0 .recover)] ++
    steps 2 { now := 2 } ++ [.live (.start 0 .tick)] ++ steps 16 { now := 3, capture := some second }

def sampleArmed : ExperimentRecord := armedRecord samplePeakStart

/-- **What a crash takes from the monitor**: the generation of the last good capture, and a usable capture whose peak was
not yet written. -/
theorem captures_lost_by_crash : ¬ OlderNeverKills sampleSetup ∧ ¬ EveryUsableCounts sampleSetup := by
  constructor
  · intro h
    have hhist : (monitored sampleSetup
        (sampleStart ++ sampleCrash 12 (sampleCapture 5 100000) (sampleCapture 3 50000))).shared.history =
          [.accepted (sampleCapture 5 100000), .raised sampleArmed (sampleCapture 5 100000) 100000, .good (some 5),
            .booted] ++ .accepted (sampleCapture 3 50000) ::
          ([.raised sampleArmed (sampleCapture 3 50000) 100000, .good (some 3)] ++
            .killed sampleArmed (sampleCapture 3 50000) :: []) := by
      decide +kernel
    exact absurd (h _ _ _ _ _ _ hhist 5 rfl 3 rfl) (by decide)
  · intro h
    have hhist : (monitored sampleSetup
        (sampleStart ++ sampleCrash 4 (sampleCapture 5 120000) (sampleCapture 6 105000))).shared.history =
          (monitored sampleSetup sampleStart).shared.history ++
            [.accepted (sampleCapture 5 120000), .booted, .accepted (sampleCapture 6 105000),
              .raised sampleArmed (sampleCapture 6 105000) 105000, .good (some 6)] ++
            .cleared sampleArmed (sampleCapture 6 105000) :: [] := by
      decide +kernel
    refine h _ _ _ _ _ _ 105000 (by decide +kernel) hhist rfl ⟨10, rfl, ?_⟩
    show (10 : ℚ) ≤ (List.foldl max 100000 [120000, 105000] - 105000) / List.foldl max 100000 [120000, 105000] * 100
    norm_num

end MmrTrader.Experiment
