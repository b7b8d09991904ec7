import MmrTrader.Ai.Budget
import MmrTrader.Lib.GuardedRun

/-!
# When a raise of the cap reaches a window

Each call of the budget reads the clock, then runs its transaction; transactions may commit in another order than
their readings.

* `BudgetPool`, `Budget.turn` — the clock, the tables, the calls that have read the clock, and what was committed.
* `Granted` — what the owner's requests give a window: a cap that was the first one or was requested on an
  earlier day, under every cap requested after it.
* `RaisesWait` — every accepted reservation was granted to its window.
* `InOrder` — no reservation commits with a window before a raise already applied and still in force.
* `raise_reaches_back` — a run that breaks `RaisesWait`; `raises_wait` — runs in order keep it.
-/

set_option autoImplicit false

namespace MmrTrader.Ai

open Lib

/-- What the committed calls did, in commit order. -/
inductive Told where
  /-- The owner asked for a cap, by a clock on this day. -/
  | requested (cap day : Int)
  /-- A raise was applied that starts with `window`; the cap was `before`. -/
  | raised (window before : Int)
  /-- A reservation brought its window to `total`. -/
  | accepted (window total : Int)
  deriving DecidableEq

structure BudgetPool where
  clock : Int
  db : BudgetDb
  calls : Nat → Option (Int × Call)
  history : List Told

def BudgetPool.start : BudgetPool := ⟨0, .empty, fun _ => none, []⟩

inductive Turn where
  | tick (micros : Nat)
  /-- Call `i` begins: it reads the clock. -/
  | read (i : Nat) (call : Call)
  | commit (i : Nat)

namespace Budget

variable (B : Budget)

/-- The raise that a transaction of this time applies. -/
def raises (now : Int) (db : BudgetDb) : List Told :=
  match db.state with
  | some ⟨effective, some p⟩ => if p.window ≤ B.windowDate now then [.raised p.window effective] else []
  | _ => []

def tells (db : BudgetDb) (now : Int) : Call → List Told
  | .setCap v => [.requested v (B.windowDate now)]
  | .reserve _ x => [.accepted (B.windowDate now) (db.committed (B.windowDate now) + x)]
  | _ => []

/-- What a call adds to the history: nothing when it is refused. -/
def told (db : BudgetDb) (call : Int × Call) : List Told :=
  match B.commit call db with
  | .ok _ _ => (if call.2.closes then [] else B.raises call.1 db) ++ B.tells db call.1 call.2
  | .error _ _ => []

def turn (s : BudgetPool) : Turn → BudgetPool
  | .tick n => { s with clock := s.clock + n }
  | .read i call => { s with calls := Function.update s.calls i (some (s.clock, call)) }
  | .commit i =>
    match s.calls i with
    | none => s
    | some call =>
      { s with
        db := B.step s.db call
        calls := Function.update s.calls i none
        history := s.history ++ B.told s.db call }

def pool (turns : List Turn) : BudgetPool := turns.foldl B.turn .start

end Budget

def requests (history : List Told) : List (Int × Int) :=
  history.filterMap fun e => match e with
    | .requested cap day => some (cap, day)
    | _ => none

/-- `x` fits under a cap that was the first one or was requested before the day of window `w`, and under every cap
requested after that one. -/
def Granted (history : List Told) (w x : Int) : Prop :=
  ∃ earlier cap day later, requests history = earlier ++ (cap, day) :: later ∧ (earlier = [] ∨ day < w) ∧ x ≤ cap ∧
    ∀ r ∈ later, x ≤ r.1

/-- Every accepted reservation was granted to its window when it committed. -/
def RaisesWait (history : List Told) : Prop :=
  ∀ before w x after, history = before ++ .accepted w x :: after → Granted before w x

/-- A reservation commits in order: of the raises applied so far that start after its window, none is still in force. -/
def InOrder (B : Budget) (s : BudgetPool) : Turn → Prop
  | .commit i => ∀ now id x, s.calls i = some (now, .reserve id x) → ∀ p before, Told.raised p before ∈ s.history →
      B.windowDate now < p → ∀ c, s.db.state = some c → c.effective ≤ before
  | _ => True

/-! ## The history -/

theorem requests_append (h h' : List Told) : requests (h ++ h') = requests h ++ requests h' := List.filterMap_append

variable {B : Budget} {history : List Told} {w x : Int}
variable {news : List Told}

theorem Granted.append (h : Granted history w x) (hn : ∀ r ∈ requests news, x ≤ r.1) : Granted (history ++ news) w x := by
  obtain ⟨earlier, cap, day, later, heq, hfirst, hcap, hlater⟩ := h
  refine ⟨earlier, cap, day, later ++ requests news, ?_, hfirst, hcap, ?_⟩
  · rw [requests_append, heq, List.append_assoc, List.cons_append]
  · intro r hr
    exact (List.mem_append.mp hr).elim (hlater r) (hn r)

variable {day : Int}

theorem Granted.of_request {cap : Int} (hday : requests history = [] ∨ day < w) (hx : x ≤ cap) :
    Granted (history ++ [.requested cap day]) w x :=
  ⟨requests history, cap, day, [], requests_append _ _, hday, hx, fun _ h => absurd h List.not_mem_nil⟩

theorem RaisesWait.append (h : RaisesWait history)
    (hn : ∀ mid w x after, news = mid ++ .accepted w x :: after → Granted (history ++ mid) w x) :
    RaisesWait (history ++ news) := by
  intro before w x after heq
  rcases List.append_eq_append_iff.mp heq with ⟨mid, rfl, hnews⟩ | ⟨mid, hhist, hrest⟩
  · exact hn mid w x after hnews
  · cases mid with
    | nil =>
      rw [List.append_nil] at hhist
      have := hn [] w x after (by simpa using hrest.symm)
      rw [List.append_nil, hhist] at this
      exact this
    | cons e mid =>
      obtain ⟨rfl, -⟩ := List.cons.inj hrest
      exact h before w x mid hhist

/-! ## What the tables owe to the history -/

structure Owed (db : BudgetDb) (history : List Told) : Prop where
  unset : db.state = none → requests history = []
  effective : ∀ c, db.state = some c → ∀ w x, x ≤ c.effective →
    (∀ p before, Told.raised p before ∈ history → w < p → x ≤ before) → Granted history w x
  pending : ∀ c p, db.state = some c → c.pending = some p → ∀ w x, p.window ≤ w → x ≤ p.cap → Granted history w x

variable {now : Int} {db : BudgetDb}

theorem Budget.raises_cases (B : Budget) (now : Int) (db : BudgetDb) :
    (B.raises now db = [] ∧ B.roll now db = db) ∨
    ∃ s p, db.state = some s ∧ s.pending = some p ∧ p.window ≤ B.windowDate now ∧
      B.raises now db = [.raised p.window s.effective] ∧ (B.roll now db).state = some ⟨p.cap, none⟩ := by
  unfold Budget.raises Budget.roll
  cases hs : db.state with
  | none => exact Or.inl ⟨rfl, rfl⟩
  | some s =>
    obtain ⟨effective, pending⟩ := s
    cases pending with
    | none => exact Or.inl ⟨rfl, rfl⟩
    | some p =>
      by_cases hle : p.window ≤ B.windowDate now
      · exact Or.inr ⟨_, p, rfl, rfl, hle, if_pos hle, by simp [hle, BudgetDb.saveCap]⟩
      · exact Or.inl ⟨if_neg hle, if_neg hle⟩

theorem requests_raises (B : Budget) (now : Int) (db : BudgetDb) : requests (B.raises now db) = [] := by
  rcases B.raises_cases now db with ⟨h, -⟩ | ⟨s, p, -, -, -, h, -⟩ <;> rw [h] <;> rfl

theorem Owed.roll (h : Owed db history) (B : Budget) (now : Int) :
    Owed (B.roll now db) (history ++ B.raises now db) := by
  rcases B.raises_cases now db with ⟨hnone, hsame⟩ | ⟨s, p, hs, hp, hle, hraise, hstate⟩
  · rw [hnone, hsame, List.append_nil]
    exact h
  · rw [hraise]
    refine ⟨fun hn => ?_, ?_, ?_⟩
    · rw [hstate] at hn
      cases hn
    · intro c hc w x hx hfits
      rw [hstate] at hc
      cases hc
      refine Granted.append ?_ fun r hr => absurd hr List.not_mem_nil
      rcases lt_or_ge w p.window with hlt | hge
      · refine h.effective s hs w x (hfits p.window s.effective ?_ hlt) fun p' before hmem => hfits p' before ?_
        · exact List.mem_append_right _ (List.mem_singleton_self _)
        · exact List.mem_append_left _ hmem
      · exact h.pending s p hs hp w x hge hx
    · intro c p' hc hp'
      rw [hstate] at hc
      cases hc
      cases hp'

variable {db' : BudgetDb}
variable {c : CapState}

theorem Owed.request {n : CapState} {v : Int} (h : Owed db history) (hc : db.state = some c)
    (hn : db'.state = some n) (hle : n.effective ≤ c.effective) (hv : n.effective ≤ v)
    (hpending : ∀ p, n.pending = some p → (p.window = day + 1 ∧ p.cap ≤ v) ∨ (c.pending = some p ∧ p.cap ≤ v)) :
    Owed db' (history ++ [.requested v day]) := by
  refine ⟨fun hnone => ?_, ?_, ?_⟩
  · rw [hn] at hnone
    cases hnone
  · intro d hd w x hx hfits
    rw [hn] at hd
    cases hd
    refine (h.effective c hc w x (hx.trans hle) fun p before hmem => hfits p before (List.mem_append_left _ hmem)).append
      fun r hr => ?_
    obtain rfl := List.mem_singleton.mp hr
    exact hx.trans hv
  · intro d p hd hp w x hw hx
    rw [hn] at hd
    cases hd
    rcases hpending p hp with ⟨hwindow, hcap⟩ | ⟨hold, hcap⟩
    · exact Granted.of_request (Or.inr (by omega)) (hx.trans hcap)
    · refine (h.pending c p hc hold w x hw hx).append fun r hr => ?_
      obtain rfl := List.mem_singleton.mp hr
      exact hx.trans hcap

/-- Nothing about the cap changes. -/
theorem Owed.same (h : Owed db history) (hstate : db'.state = db.state)
    (hr : requests news = []) : Owed db' (history ++ news) := by
  refine ⟨fun hn => ?_, ?_, ?_⟩
  · rw [requests_append, hr, h.unset (hstate ▸ hn)]
    rfl
  · intro c hc w x hx hfits
    refine (h.effective c (hstate ▸ hc) w x hx fun p before hmem => hfits p before (List.mem_append_left _ hmem)).append
      fun r hmem => ?_
    rw [hr] at hmem
    cases hmem
  · intro c p hc hp w x hw hx
    refine (h.pending c p (hstate ▸ hc) hp w x hw hx).append fun r hmem => ?_
    rw [hr] at hmem
    cases hmem

/-- **What a committed call adds to the history accounts for what it did to the tables.** -/
theorem Owed.call {c : Call} (h : Owed db history) (hm : Moves B now db c db') :
    Owed db' (history ++ ((if c.closes then [] else B.raises now db) ++ B.tells db now c)) := by
  have hroll := h.roll B now
  cases hm with
  | initialized v hv hs =>
    have hnone : B.raises now db = [] := by simp [Budget.raises, hs]
    simp only [Call.closes, hnone, ite_self, List.nil_append]
    have hempty := h.unset hs
    refine ⟨nofun, ?_, ?_⟩
    · intro c hc w x hx _
      cases hc
      exact Granted.of_request (Or.inl hempty) hx
    · intro c p hc hp
      cases hc
      cases hp
  | lowered v s hv hs hlt =>
    rw [if_neg (by simp [Call.closes]), ← List.append_assoc]
    exact hroll.request hs (n := ⟨v, none⟩) rfl hlt.le (le_refl v) nofun
  | unchanged s hv hs =>
    rw [if_neg (by simp [Call.closes]), ← List.append_assoc]
    exact hroll.request hs (n := ⟨s.effective, none⟩) rfl (le_refl _) (le_refl _) nofun
  | kept s p hv hs hp hlt =>
    rw [if_neg (by simp [Call.closes]), ← List.append_assoc]
    refine hroll.request hs hs (le_refl _) hlt.le fun p' hp' => Or.inr ⟨hp', ?_⟩
    obtain rfl := Option.some.inj (hp.symm.trans hp')
    exact le_refl _
  | scheduled v s hv hs hlt =>
    rw [if_neg (by simp [Call.closes]), ← List.append_assoc]
    refine hroll.request hs (n := ⟨s.effective, some ⟨v, B.nextWindowDate now⟩⟩) rfl (le_refl _) hlt.le ?_
    intro p hp
    cases hp
    exact Or.inl ⟨rfl, le_refl v⟩
  | reserved id x s t hx hs hcap hhour ht =>
    rw [if_neg (by simp [Call.closes]), ← List.append_assoc]
    exact hroll.same rfl rfl
  | closed _ hc p f hf hclose =>
    rw [if_pos hc]
    cases c with
    | setCap v => cases hc
    | reserve id x => cases hc
    | snapshot => cases hc
    | _ => exact h.same rfl rfl
  | repeated id actual late => exact h.same rfl rfl
  | reported =>
    rw [if_neg (by simp [Call.closes])]
    simpa [Budget.tells] using hroll

/-! ## Runs -/

theorem Budget.tells_accepted (B : Budget) (db : BudgetDb) (now : Int) (c : Call) {mid after : List Told} {w x : Int}
    (h : (if c.closes then [] else B.raises now db) ++ B.tells db now c = mid ++ .accepted w x :: after) :
    ∃ id y, c = .reserve id y ∧ mid = B.raises now db ∧ w = B.windowDate now ∧ x = db.committed (B.windowDate now) + y := by
  have hmem : Told.accepted w x ∈ (if c.closes then [] else B.raises now db) ++ B.tells db now c :=
    h ▸ List.mem_append_right _ List.mem_cons_self
  have hraises : ∀ w x, Told.accepted w x ∉ B.raises now db := by
    intro w x hx
    rcases B.raises_cases now db with ⟨h, -⟩ | ⟨s, p, -, -, -, h, -⟩ <;> rw [h] at hx <;> simp at hx
  cases c with
  | reserve id y =>
    rw [if_neg (by simp [Call.closes])] at h
    change B.raises now db ++ [Told.accepted (B.windowDate now) (db.committed (B.windowDate now) + y)] = _ at h
    rcases List.append_eq_append_iff.mp h with ⟨a, rfl, ha⟩ | ⟨a, ha, hrest⟩
    · cases a with
      | nil =>
        obtain ⟨heq, -⟩ := List.cons.inj ha
        cases heq
        exact ⟨id, y, rfl, List.append_nil _, rfl, rfl⟩
      | cons e a =>
        obtain ⟨-, hnil⟩ := List.cons.inj ha
        exact absurd hnil.symm (by simp)
    · cases a with
      | nil =>
        obtain ⟨heq, -⟩ := List.cons.inj hrest
        cases heq
        exact ⟨id, y, rfl, by simpa using ha.symm, rfl, rfl⟩
      | cons e a =>
        obtain ⟨rfl, -⟩ := List.cons.inj hrest
        exact absurd (ha ▸ List.mem_append_right mid List.mem_cons_self) (hraises w x)
  | _ => simp [Call.closes, Budget.tells, hraises] at hmem

theorem Owed.granted {x : Int} (h : Owed db history) (hstate : (B.roll now db).state = some c) (hx : x ≤ c.effective)
    (hin : ∀ p before, Told.raised p before ∈ history → B.windowDate now < p → ∀ c, db.state = some c →
      c.effective ≤ before) : Granted (history ++ B.raises now db) (B.windowDate now) x := by
  rcases B.raises_cases now db with ⟨hnone, hsame⟩ | ⟨s, p, hs, hp, hle, hraise, hs'⟩
  · rw [hnone, List.append_nil]
    rw [hsame] at hstate
    exact h.effective c hstate _ x hx fun p before hmem hlt => hx.trans (hin p before hmem hlt c hstate)
  · rw [hs'] at hstate
    cases hstate
    refine (h.pending s p hs hp _ x hle hx).append fun r hr => ?_
    rw [requests_raises] at hr
    cases hr

/-- What every state of a run in order keeps. -/
structure InForce (db : BudgetDb) (history : List Told) : Prop where
  owed : Owed db history
  waits : RaisesWait history

theorem InForce.commit {call : Int × Call} (h : InForce db history)
    (hin : ∀ id x, call.2 = .reserve id x → ∀ p before, Told.raised p before ∈ history →
      B.windowDate call.1 < p → ∀ c, db.state = some c → c.effective ≤ before) :
    InForce (B.step db call) (history ++ B.told db call) := by
  unfold Budget.told
  rcases B.step_cases db call with ⟨hok, hm⟩ | ⟨⟨e, herr⟩, hsame⟩
  · rw [hok]
    refine ⟨h.owed.call hm, h.waits.append fun mid w x after hnews => ?_⟩
    obtain ⟨id, y, hc, rfl, rfl, rfl⟩ := B.tells_accepted db call.1 call.2 hnews
    rw [hc] at hm
    generalize B.step db call = db' at hm
    cases hm with
    | reserved _ _ s t hx hs hcap hhour ht => exact h.owed.granted hs hcap (hin id y hc)
    | closed _ hcl p f hf hclose => cases hcl
  · rw [herr, hsame, List.append_nil]
    exact h

theorem Budget.turn_inForce (B : Budget) (s : BudgetPool) (t : Turn) (h : InForce s.db s.history)
    (hin : InOrder B s t) : InForce (B.turn s t).db (B.turn s t).history := by
  cases t with
  | tick n => exact h
  | read i call => exact h
  | commit i =>
    cases hcall : s.calls i with
    | none => simpa [Budget.turn, hcall] using h
    | some call =>
      simp only [Budget.turn, hcall]
      refine h.commit fun id x hc => hin call.1 id x ?_
      rw [hcall, ← hc]

/-- **A raise waits for its window** in every run whose reservations commit in order. -/
theorem raises_wait (B : Budget) (turns : List Turn) (hm : Meets B.turn (InOrder B) .start turns) :
    RaisesWait (B.pool turns).history := by
  refine (hm.invariant (I := fun s => InForce s.db s.history) (fun s t h hin => B.turn_inForce s t h hin)
    ⟨⟨fun _ => rfl, ?_, ?_⟩, ?_⟩).waits
  · rintro c ⟨⟩
  · rintro c p ⟨⟩
  · intro before w x after h
    cases before <;> cases h

/-- What a raise must not do, over every interleaving. -/
def RaisesAlwaysWait (B : Budget) : Prop := ∀ turns, RaisesWait (B.pool turns).history

/-- The cap goes from 10 to 100 on the evening before day 0; a reservation of that evening commits after a report of
the next morning. -/
def lateTurns : List Turn :=
  [.read 0 (.setCap 10), .commit 0, .read 0 (.setCap 100), .commit 0, .read 1 (.reserve "a" 50), .tick 21600000000,
    .read 2 .snapshot, .commit 2, .commit 1]

/-- **A raise reaches back** into the window of its request when the transactions do not commit in the order of their
clock readings. -/
theorem raise_reaches_back : ¬ RaisesAlwaysWait sampleBudget := by
  intro h
  have hhist : (sampleBudget.pool lateTurns).history =
      [.requested 10 (-1), .requested 100 (-1), .raised 0 10] ++ Told.accepted (-1) 50 :: [] := by decide +kernel
  obtain ⟨earlier, cap, day, later, heq, hday, hcap, -⟩ := h lateTurns _ _ _ _ hhist
  change [((10 : Int), (-1 : Int)), (100, -1)] = _ at heq
  cases earlier with
  | nil =>
    obtain ⟨hfirst, -⟩ := List.cons.inj heq
    cases hfirst
    omega
  | cons e earlier =>
    have hmem : (cap, day) ∈ [((100 : Int), (-1 : Int))] :=
      (List.cons.inj heq).2 ▸ List.mem_append_right earlier List.mem_cons_self
    cases List.mem_singleton.mp hmem
    rcases hday with hnil | hlt
    · cases hnil
    · omega

/-- The reservation reads the clock in the morning. -/
def orderedTurns : List Turn :=
  [.read 0 (.setCap 10), .commit 0, .read 0 (.setCap 100), .commit 0, .tick 21600000000, .read 1 (.reserve "a" 50),
    .read 2 .snapshot, .commit 2, .commit 1]

theorem raises_wait_ordered : RaisesWait (sampleBudget.pool orderedTurns).history := by
  refine raises_wait sampleBudget orderedTurns ⟨trivial, ?_, trivial, ?_, trivial, trivial, trivial, ?_, ?_, trivial⟩
  · rintro now id x ⟨⟩
  · rintro now id x ⟨⟩
  · rintro now id x ⟨⟩
  · rintro now id x hcall p before hmem hlt
    have hmem : Told.raised p before ∈ (sampleBudget.pool (orderedTurns.take 8)).history := hmem
    have hhist : (sampleBudget.pool (orderedTurns.take 8)).history =
        [.requested 10 (-1), .requested 100 (-1), .raised 0 10] := by decide +kernel
    rw [hhist] at hmem
    simp only [List.mem_cons, reduceCtorEq, Told.raised.injEq, List.not_mem_nil, or_false, false_or] at hmem
    cases hcall
    rw [hmem.1] at hlt
    exact absurd hlt (by decide)

end MmrTrader.Ai
