import MmrTrader.Ai.Gateway
import MmrTrader.Ai.Transactions
import MmrTrader.Lib.Tally

/-!
# Laws of the model gateway

* `TaskPhase.holds`, `owes`, `tickets` — what a task still has: a slot, a settlement, a call of the adapter.
* `Gateway.Inv`, `Gateway.Inv.task` — the invariant, and what a step of one task has to show.
* `Gateway.stays_in_step` — the main result.
-/

namespace MmrTrader.Ai

open Lib

/-! ## What a task still has -/

/-- A slot. -/
def TaskPhase.holds : TaskPhase → Nat
  | .prepare _ | .acquire _ | .waiting _ | .sleeping _ | .ended _ => 0
  | _ => 1

def TaskPhase.begun? : TaskPhase → Option Begun
  | .beginning _ (some (.ok b)) | .unsending b _ | .send _ b | .calling _ b | .settling b _ _ _ | .recording b _
  | .finally b _ => some b
  | _ => none

/-- The settlement of the attempt `key`. -/
def TaskPhase.owes (key : String) : TaskPhase → Nat
  | .beginning _ (some (.ok b)) | .unsending b none | .send _ b | .calling _ b | .settling b _ none _ | .recording b none =>
    if b.attempt.attemptKey = key then 1 else 0
  | _ => 0

/-- A call of the adapter for the attempt `key`. -/
def TaskPhase.tickets (key : String) : TaskPhase → Nat
  | .beginning _ (some (.ok b)) | .send _ b => if b.attempt.attemptKey = key then 1 else 0
  | _ => 0

def Leftover.begun? : Leftover → Option Begun
  | .reserving _ => none
  | .failing b _ => some b

def Leftover.owes (key : String) : Leftover → Nat
  | .reserving _ => 0
  | .failing b _ => if b.attempt.attemptKey = key then 1 else 0

/-- The attempt `key` is STARTED. -/
def AiDb.Started (db : AiDb) (key : String) : Prop := ∃ a ∈ db.attempts.rows, a.attemptKey = key ∧ a.status = .STARTED

/-- There is no attempt `key`. -/
def AiDb.Fresh (db : AiDb) (key : String) : Prop := ∀ a ∈ db.attempts.rows, a.attemptKey ≠ key

namespace Gateway

/-- Settlements to come of an attempt. -/
def owed (w : Gateway) (key : String) : Nat :=
  tally (TaskPhase.owes key) w.tasks + tally (Leftover.owes key) w.leftovers

structure Inv (g : GatewayConfig) (w : Gateway) : Prop where
  inStep : InStep w.db
  /-- Slots are free, held by a task or by an abandoned worker thread. -/
  slots : w.slots + tally TaskPhase.holds w.tasks + w.workers = g.maxInFlight
  task : ∀ t ∈ w.tasks, ∀ b, t.begun? = some b → BegunOk w.db b
  leftover : ∀ l ∈ w.leftovers, ∀ b, l.begun? = some b → BegunOk w.db b
  once : ∀ key, w.owed key ≤ 1
  started : ∀ key, 0 < w.owed key → w.db.Started key
  calls : ∀ key, w.sent.count key + tally (TaskPhase.tickets key) w.tasks ≤ 1
  known : ∀ key ∈ w.sent, ¬ w.db.Fresh key
  down : w.up = false → w.tasks = [] ∧ w.leftovers = []

end Gateway

variable {key : String}

theorem AiDb.Started.not_fresh {db : AiDb} (h : db.Started key) : ¬ db.Fresh key := by
  obtain ⟨a, ha, hk, -⟩ := h
  exact fun hf => hf a ha hk

theorem AiDb.not_fresh_later {db db' : AiDb} (h : ¬ db.Fresh key) (hl : Later db db') : ¬ db'.Fresh key := by
  intro hf
  refine h fun a ha hk => ?_
  obtain ⟨a', ha', hk', -⟩ := hl.attempts a ha
  exact hf a' ha' (hk'.trans hk)

theorem TaskPhase.tickets_le_owes (key : String) (t : TaskPhase) : t.tickets key ≤ t.owes key := by
  cases t with
  | beginning p work =>
    cases work with
    | none => exact Nat.zero_le _
    | some r => cases r <;> exact Nat.le_refl _
  | send p b => exact Nat.le_refl _
  | _ => exact Nat.zero_le _

theorem TaskPhase.owes_eq_zero {t : TaskPhase} (h : t.begun? = none) (key : String) : t.owes key = 0 := by
  cases t with
  | beginning p work =>
    cases work with
    | none => rfl
    | some r =>
      cases r with
      | ok b => cases h
      | error e => rfl
  | unsending b work => cases h
  | send p b => cases h
  | calling p b => cases h
  | settling b s work cancelled => cases h
  | recording b work => cases h
  | _ => rfl

namespace Gateway

variable {g : GatewayConfig} {w : Gateway}

theorem tally_tickets_le (key : String) (l : List TaskPhase) :
    tally (TaskPhase.tickets key) l ≤ tally (TaskPhase.owes key) l := by
  induction l with
  | nil => exact Nat.le_refl _
  | cons t l ih =>
    rw [tally_cons, tally_cons]
    exact Nat.add_le_add (t.tickets_le_owes key) ih

variable {key : String}

/-- An attempt without a row is owed nothing and was never sent. -/
theorem Inv.fresh (h : Inv g w) (hf : w.db.Fresh key) :
    w.owed key = 0 ∧ w.sent.count key + tally (TaskPhase.tickets key) w.tasks = 0 := by
  have howed : w.owed key = 0 := by
    by_contra hne
    exact (h.started key (Nat.pos_of_ne_zero hne)).not_fresh hf
  have hcount : w.sent.count key = 0 := List.count_eq_zero.mpr fun hk => h.known key hk hf
  have hle := tally_tickets_le key w.tasks
  unfold owed at howed
  exact ⟨howed, by omega⟩

/-! ## A step of the tables -/

variable {α : Type}

theorem tryTx_cases (w : Gateway) (commit : Option GatewayError) (x : AiTx α) :
    (∃ a, (w.tryTx commit x).1 = .ok a ∧ x w.db = .ok a (w.tryTx commit x).2) ∨
      ∃ e, (w.tryTx commit x).1 = .error e ∧ (w.tryTx commit x).2 = w.db := by
  unfold tryTx
  cases hx : transaction commit x w.db with
  | ok a db => exact .inl ⟨a, rfl, transaction_ok hx⟩
  | error e db => exact .inr ⟨e, rfl, transaction_error hx⟩

variable {commit : Option GatewayError} {touched : AttemptRow → Prop}

theorem Inv.tryTx (h : Inv g w) {x : AiTx α}
    (hx : ∀ a db, x w.db = .ok a db → Keeps touched w.db db) : Keeps touched w.db (w.tryTx commit x).2 := by
  rcases w.tryTx_cases commit x with ⟨a, -, hok⟩ | ⟨e, -, hsame⟩
  · exact hx a _ hok
  · rw [hsame]
    exact Keeps.refl h.inStep _

variable {b : Begun}

/-- A settlement that is owed is begun, and nobody else owes it. -/
theorem Inv.failure (h : Inv g w) (hb : BegunOk w.db b) (error : CallError) :
    Keeps (fun a => a.attemptKey = b.attempt.attemptKey) w.db (w.tryTx commit (failureTx b error)).2 :=
  h.tryTx fun _ _ hok => failureTx_ok h.inStep hb hok

theorem Inv.settlement (h : Inv g w) (hb : BegunOk w.db b) (s : Settlement) :
    Keeps (fun a => a.attemptKey = b.attempt.attemptKey) w.db (w.tryTx commit (s.tx b)).2 := by
  refine h.tryTx fun _ _ hok => ?_
  cases s with
  | success price response => exact successTx_ok h.inStep hb hok
  | failure error => exact failureTx_ok h.inStep hb hok

/-! ## What a step has to show -/

/-- The tables changed as `Keeps` says, and what is owed did not grow but for a new attempt. -/
structure Moves (touched : AttemptRow → Prop) (w w' : Gateway) : Prop where
  keeps : Keeps touched w.db w'.db
  owed : ∀ key, w'.owed key ≤ w.owed key ∨ w.db.Fresh key ∧ w'.db.Started key ∧ w'.owed key ≤ 1
  settled : ∀ a ∈ w.db.attempts.rows, touched a → a.status = .STARTED → w'.owed a.attemptKey < w.owed a.attemptKey
  calls : ∀ key, w'.sent.count key + tally (TaskPhase.tickets key) w'.tasks ≤
      w.sent.count key + tally (TaskPhase.tickets key) w.tasks ∨
    w.db.Fresh key ∧ w'.sent.count key + tally (TaskPhase.tickets key) w'.tasks ≤ 1
  known : ∀ key ∈ w'.sent, key ∈ w.sent ∨ w.db.Started key

variable {w' : Gateway}

theorem Moves.started (hm : Moves touched w w') (h : Inv g w) (hpos : 0 < w'.owed key) : w'.db.Started key := by
  rcases hm.owed key with hle | ⟨-, hst, -⟩
  · obtain ⟨a, ha, rfl, hstarted⟩ := h.started key (Nat.lt_of_lt_of_le hpos hle)
    refine ⟨a, hm.keeps.others a ha fun ht => ?_, rfl, hstarted⟩
    have hlt := hm.settled a ha ht hstarted
    have := h.once a.attemptKey
    omega
  · exact hst

structure Steps (g : GatewayConfig) (w w' : Gateway) : Prop where
  inv : Inv g w'
  later : Later w.db w'.db
  /-- The adapter is called for a STARTED attempt. -/
  sent : ∀ key ∈ w'.sent, key ∈ w.sent ∨ w.db.Started key

theorem Inv.refl (h : Inv g w) : Steps g w w := ⟨h, Later.refl w.db, fun _ hk => .inl hk⟩

theorem Inv.moves (h : Inv g w) (touched : AttemptRow → Prop) (hm : Moves touched w w')
    (hslots : w'.slots + tally TaskPhase.holds w'.tasks + w'.workers = w.slots + tally TaskPhase.holds w.tasks + w.workers)
    (htask : ∀ t ∈ w'.tasks, t ∈ w.tasks ∨ ∀ b, t.begun? = some b → BegunOk w'.db b)
    (hleftover : ∀ l ∈ w'.leftovers, l ∈ w.leftovers ∨ ∀ b, l.begun? = some b → BegunOk w'.db b)
    (hdown : w'.up = false → w'.tasks = [] ∧ w'.leftovers = []) : Steps g w w' := by
  refine ⟨⟨hm.keeps.inStep, hslots.trans h.slots, fun t ht b hb => ?_, fun l hl b hb => ?_, fun key => ?_,
    fun key hpos => hm.started h hpos, fun key => ?_, fun key hk => ?_, hdown⟩, hm.keeps.later, hm.known⟩
  · exact (htask t ht).elim (fun ht => (h.task t ht b hb).later hm.keeps.later) fun hall => hall b hb
  · exact (hleftover l hl).elim (fun hl => (h.leftover l hl b hb).later hm.keeps.later) fun hall => hall b hb
  · exact (hm.owed key).elim (fun hle => hle.trans (h.once key)) fun hnew => hnew.2.2
  · exact (hm.calls key).elim (fun hle => hle.trans (h.calls key)) And.right
  · exact (hm.known key hk).elim (fun hk => AiDb.not_fresh_later (h.known key hk) hm.keeps.later)
      fun hst => AiDb.not_fresh_later hst.not_fresh hm.keeps.later

variable {i : Nat} {t u : TaskPhase}

theorem Inv.task_moves (h : Inv g w) (ls : List Leftover)
    (ks : List String) (touched : AttemptRow → Prop) (hi : w.tasks[i]? = some t) (htasks : w'.tasks = w.tasks.set i u)
    (hleft : w'.leftovers = w.leftovers ++ ls) (hsent : w'.sent = w.sent ++ ks) (hup : w'.up = w.up)
    (hkeeps : Keeps touched w.db w'.db) (hslots : w'.slots + u.holds + w'.workers = w.slots + t.holds + w.workers)
    (hbegun : ∀ b, u.begun? = some b → t.begun? = some b ∨ BegunOk w'.db b)
    (hls : ∀ l ∈ ls, ∀ b, l.begun? = some b → t.begun? = some b)
    (howes : ∀ key, u.owes key + tally (Leftover.owes key) ls ≤ t.owes key ∨
      w.db.Fresh key ∧ w'.db.Started key ∧ u.owes key + tally (Leftover.owes key) ls ≤ 1)
    (hsettled : ∀ a ∈ w.db.attempts.rows, touched a → a.status = .STARTED →
      u.owes a.attemptKey + tally (Leftover.owes a.attemptKey) ls < t.owes a.attemptKey)
    (hcalls : ∀ key, ks.count key + u.tickets key ≤ t.tickets key ∨
      w.db.Fresh key ∧ ks.count key + u.tickets key ≤ 1)
    (hknown : ∀ key ∈ ks, 0 < t.owes key) : Steps g w w' := by
  have hmem : t ∈ w.tasks := List.mem_of_getElem? hi
  have hheld := tally_set (f := TaskPhase.holds) hi u
  have howed := fun key => tally_set (f := TaskPhase.owes key) hi u
  have htickets := fun key => tally_set (f := TaskPhase.tickets key) hi u
  have hsum : ∀ key, w'.owed key + t.owes key = w.owed key + (u.owes key + tally (Leftover.owes key) ls) := by
    intro key
    have := howed key
    simp only [owed, htasks, hleft, tally_append]
    omega
  refine h.moves touched ⟨hkeeps, fun key => ?_, fun a ha ht hst => ?_, fun key => ?_, fun key hk => ?_⟩ ?_
    (fun x hx => ?_) (fun l hl => ?_) fun hdown => ?_
  · have hs := hsum key
    rcases howes key with hle | ⟨hf, hst, hle⟩
    · exact .inl (by omega)
    · have := (h.fresh hf).1
      exact .inr ⟨hf, hst, by omega⟩
  · have hs := hsum a.attemptKey
    have := hsettled a ha ht hst
    omega
  · have := htickets key
    rw [htasks, hsent, List.count_append]
    rcases hcalls key with hle | ⟨hf, hle⟩
    · exact .inl (by omega)
    · have := (h.fresh hf).2
      exact .inr ⟨hf, by omega⟩
  · rw [hsent] at hk
    rcases List.mem_append.mp hk with hk | hk
    · exact .inl hk
    · refine .inr (h.started key ?_)
      have := le_tally (f := TaskPhase.owes key) hi
      have := hknown key hk
      unfold owed
      omega
  · rw [htasks]
    omega
  · rw [htasks] at hx
    rcases List.mem_or_eq_of_mem_set hx with hx | rfl
    · exact .inl hx
    · exact .inr fun b hb => (hbegun b hb).elim (fun hb => (h.task t hmem b hb).later hkeeps.later) id
  · rw [hleft] at hl
    rcases List.mem_append.mp hl with hl | hl
    · exact .inl hl
    · exact .inr fun b hb => (h.task t hmem b (hls l hl b hb)).later hkeeps.later
  · rw [hup] at hdown
    rw [(h.down hdown).1] at hmem
    cases hmem

variable {slots : Nat}
variable {workers : Nat}

/-- A task goes on without the tables. -/
theorem Inv.quiet (h : Inv g w) (hi : w.tasks[i]? = some t) (hslots : slots + u.holds + workers = w.slots + t.holds + w.workers)
    (hbegun : ∀ b, u.begun? = some b → t.begun? = some b) (howes : ∀ key, u.owes key ≤ t.owes key)
    (htickets : ∀ key, u.tickets key ≤ t.tickets key) :
    Steps g w { w with tasks := w.tasks.set i u, slots := slots, workers := workers } :=
  h.task_moves [] [] (fun _ => False) hi rfl (by simp) (by simp) rfl (Keeps.refl h.inStep _)
    hslots (fun b hb => .inl (hbegun b hb)) (List.forall_mem_nil _)
    (fun key => .inl (by simpa using howes key)) (fun _ _ hf => hf.elim)
    (fun key => .inl (by simpa using htickets key)) (List.forall_mem_nil _)

theorem Inv.idle (h : Inv g w) (hi : w.tasks[i]? = some t)
    (hslots : slots + u.holds + workers = w.slots + t.holds + w.workers) (hu : u.begun? = none) :
    Steps g w { w with tasks := w.tasks.set i u, slots := slots, workers := workers } := by
  refine h.quiet hi hslots (fun b hb => by rw [hu] at hb; cases hb) (fun key => ?_) fun key => ?_
  · rw [TaskPhase.owes_eq_zero hu]
    exact Nat.zero_le _
  · have := u.tickets_le_owes key
    rw [TaskPhase.owes_eq_zero hu] at this
    omega

/-! ## A task goes on -/

theorem Inv.begun (h : Inv g w) {p : Prepared} {a : Input} {work : Except GatewayError Begun}
    (hi : w.tasks[i]? = some (.beginning p (some work))) : Steps g w (w.begun i p a work) := by
  unfold Gateway.begun
  split
  · exact h.quiet hi rfl (fun _ hb => hb) (fun _ => Nat.le_refl _) fun _ => Nat.le_refl _
  · split
    · exact h.idle hi rfl rfl
    · exact h.idle hi rfl rfl
  · exact h.idle hi rfl rfl
  · exact h.idle hi rfl rfl
  · exact h.idle hi rfl rfl

theorem Inv.next (h : Inv g w) (a : Input) (hi : w.tasks[i]? = some t) : Steps g w (w.next g i a t) := by
  have hsame : ∀ {u : TaskPhase}, u.holds = t.holds → u.begun? = t.begun? → (∀ key, u.owes key ≤ t.owes key) →
      (∀ key, u.tickets key ≤ t.tickets key) → Steps g w (w.goOn i u) := by
    intro u hu hb ho htk
    exact h.quiet hi (by rw [hu]) (fun b hb' => by rw [← hb]; exact hb') ho htk
  cases t with
  | prepare c =>
    unfold Gateway.next
    dsimp only
    split
    · exact h.idle hi rfl rfl
    · exact h.idle hi rfl rfl
  | acquire p =>
    unfold Gateway.next
    dsimp only
    split
    · exact h.idle hi rfl rfl
    · exact h.idle hi rfl rfl
  | waiting p =>
    unfold Gateway.next
    dsimp only
    split
    · split
      · exact h.refl
      · refine h.idle hi ?_ rfl
        change w.slots - 1 + 1 + w.workers = w.slots + 0 + w.workers
        omega
    · exact h.idle hi rfl rfl
  | beginning p work =>
    cases work with
    | none => exact h.refl
    | some work => exact h.begun hi
  | undoing p => exact h.refl
  | unsending b work =>
    cases work with
    | none => exact h.refl
    | some ok => cases ok <;> exact h.idle hi rfl rfl
  | sleeping p => exact h.idle hi rfl rfl
  | send p b =>
    unfold Gateway.next
    dsimp only
    split
    · exact hsame rfl rfl (fun _ => Nat.le_refl _) fun _ => Nat.zero_le _
    · refine h.task_moves [] [b.attempt.attemptKey] (fun _ => False) (u := .calling p b) hi rfl
        (List.append_nil _).symm rfl rfl (Keeps.refl h.inStep _) rfl (fun _ hb => .inl hb) (List.forall_mem_nil _)
        (fun _ => .inl (Nat.le_refl _))
        (fun _ _ hf => hf.elim) (fun key => .inl ?_) fun key hk => ?_
      · simp [TaskPhase.tickets, List.count_cons]
      · simp [TaskPhase.owes, List.mem_singleton.mp hk]
  | calling p b =>
    unfold Gateway.next Gateway.answered
    dsimp only
    split <;> exact hsame rfl rfl (fun _ => by first | exact Nat.le_refl _ | exact Nat.zero_le _) fun _ => Nat.le_refl _
  | settling b s work cancelled =>
    cases work with
    | none => exact h.refl
    | some ok => exact hsame rfl rfl (fun _ => Nat.le_refl _) fun _ => Nat.le_refl _
  | recording b work =>
    cases work with
    | none => exact h.refl
    | some ok => exact hsame rfl rfl (fun _ => Nat.le_refl _) fun _ => Nat.le_refl _
  | «finally» b outcome =>
    unfold Gateway.next
    dsimp only
    split
    · refine h.idle hi ?_ rfl
      change w.slots + 0 + (w.workers + 1) = w.slots + 1 + w.workers
      omega
    · exact h.idle hi rfl rfl
  | ended outcome => exact h.refl

theorem Inv.cancel (h : Inv g w) (hi : w.tasks[i]? = some t) : Steps g w (w.cancel i t) := by
  have hsame : ∀ {u : TaskPhase}, u.holds = t.holds → u.begun? = t.begun? → (∀ key, u.owes key ≤ t.owes key) →
      (∀ key, u.tickets key ≤ t.tickets key) → Steps g w (w.goOn i u) := by
    intro u hu hb ho htk
    exact h.quiet hi (by rw [hu]) (fun b hb' => by rw [← hb]; exact hb') ho htk
  cases t with
  | waiting p => exact h.idle hi rfl rfl
  | beginning p work =>
    cases work with
    | none => exact h.idle hi rfl rfl
    | some work =>
      cases work with
      | ok b => exact hsame rfl rfl (fun _ => Nat.le_refl _) fun _ => Nat.zero_le _
      | error e => exact h.idle hi rfl rfl
  | undoing p =>
    exact h.task_moves [.reserving p] [] (fun _ => False) (u := .ended .cancelled) hi rfl
      rfl (List.append_nil _).symm rfl (Keeps.refl h.inStep _) rfl (fun _ hb => nomatch hb) (by simp [Leftover.begun?])
      (fun _ => .inl (Nat.le_refl _)) (fun _ _ hf => hf.elim) (fun _ => .inl (Nat.le_refl _)) (List.forall_mem_nil _)
  | unsending b work =>
    cases work with
    | none =>
      exact h.task_moves [.failing b cancelledBeforeSend] [] (fun _ => False)
        (u := .ended .cancelled) hi rfl rfl (List.append_nil _).symm rfl (Keeps.refl h.inStep _) rfl (fun _ hb => nomatch hb)
        (by simp [Leftover.begun?, TaskPhase.begun?]) (fun _ => .inl (by simp [Leftover.owes, TaskPhase.owes]))
        (fun _ _ hf => hf.elim) (fun _ => .inl (Nat.le_refl _)) (List.forall_mem_nil _)
    | some ok => exact h.idle hi rfl rfl
  | sleeping p => exact h.idle hi rfl rfl
  | calling p b => exact hsame rfl rfl (fun _ => Nat.le_refl _) fun _ => Nat.le_refl _
  | settling b s work cancelled =>
    cases work <;> exact hsame rfl rfl (fun _ => Nat.le_refl _) fun _ => Nat.le_refl _
  | recording b work =>
    cases work with
    | none =>
      exact h.task_moves [.failing b callerCancelled] [] (fun _ => False)
        (u := .finally b .cancelled) hi rfl rfl (List.append_nil _).symm rfl (Keeps.refl h.inStep _) rfl (fun _ hb => .inl hb)
        (by simp [Leftover.begun?, TaskPhase.begun?]) (fun _ => .inl (by simp [Leftover.owes, TaskPhase.owes]))
        (fun _ _ hf => hf.elim) (fun _ => .inl (Nat.le_refl _)) (List.forall_mem_nil _)
    | some ok => exact hsame rfl rfl (fun _ => Nat.le_refl _) fun _ => Nat.le_refl _
  | _ => exact h.refl

/-! ## A worker thread runs a transaction -/

variable {db : AiDb}

theorem Inv.task_tx (h : Inv g w)
    (hi : w.tasks[i]? = some t) (hkeeps : Keeps touched w.db db) (hslots : slots + u.holds = w.slots + t.holds)
    (hbegun : ∀ b, u.begun? = some b → t.begun? = some b ∨ BegunOk db b)
    (howes : ∀ key, u.owes key ≤ t.owes key ∨ w.db.Fresh key ∧ db.Started key ∧ u.owes key ≤ 1)
    (hsettled : ∀ a ∈ w.db.attempts.rows, touched a → a.status = .STARTED → u.owes a.attemptKey < t.owes a.attemptKey)
    (htickets : ∀ key, u.tickets key ≤ t.tickets key ∨ w.db.Fresh key ∧ u.tickets key ≤ 1) :
    Steps g w { w with db := db, tasks := w.tasks.set i u, slots := slots } :=
  h.task_moves [] [] touched hi rfl (List.append_nil _).symm (List.append_nil _).symm rfl hkeeps
    (congrArg (· + w.workers) hslots) hbegun (List.forall_mem_nil _) (by simpa using howes) (by simpa using hsettled)
    (by simpa using htickets) (List.forall_mem_nil _)

theorem Inv.beginning (h : Inv g w) (p : Prepared) (a : Input) :
    let r := w.tryTx a.commit (beginTx g.budget p.role p.config p.request p.worstCase a.reservationId a.now)
    Keeps (fun _ => False) w.db r.2 ∧ ∀ b, r.1 = .ok b →
      BegunOk r.2 b ∧ r.2.Started b.attempt.attemptKey ∧ w.db.Fresh b.attempt.attemptKey := by
  intro r
  rcases w.tryTx_cases a.commit (beginTx g.budget p.role p.config p.request p.worstCase a.reservationId a.now) with
    ⟨b, hr, hok⟩ | ⟨e, hr, hsame⟩
  · obtain ⟨hkeeps, hb, hstarted, hfresh⟩ := beginTx_ok h.inStep hok
    refine ⟨hkeeps, fun b' hb' => ?_⟩
    obtain rfl : b = b' := Except.ok.inj (hr.symm.trans hb')
    exact ⟨hb, hstarted, hfresh⟩
  · refine ⟨?_, fun b hb => ?_⟩
    · change Keeps _ w.db (w.tryTx _ _).2
      rw [hsame]
      exact Keeps.refl h.inStep _
    · have := hr.symm.trans hb
      cases this

theorem Inv.settles (h : Inv g w) (hi : w.tasks[i]? = some t)
    (hkeeps : Keeps (fun a => a.attemptKey = b.attempt.attemptKey) w.db db) (hholds : u.holds = t.holds)
    (hbegun : u.begun? = t.begun?) (howes : ∀ key, u.owes key = 0)
    (ht : ∀ key, t.owes key = if b.attempt.attemptKey = key then 1 else 0) :
    Steps g w { w with db := db, tasks := w.tasks.set i u } := by
  refine h.task_tx hi hkeeps (by rw [hholds]) (fun b hb => .inl (hbegun ▸ hb)) (fun key => .inl ?_) (fun a _ hk _ => ?_)
    fun key => .inl ?_
  · rw [howes]
    exact Nat.zero_le _
  · rw [howes, ht, if_pos hk.symm]
    exact Nat.one_pos
  · have := u.tickets_le_owes key
    rw [howes] at this
    omega

theorem Inv.runTx (h : Inv g w) (a : Input) (hi : w.tasks[i]? = some t) : Steps g w (w.runTx g i a t) := by
  have hmem : t ∈ w.tasks := List.mem_of_getElem? hi
  cases t with
  | beginning p work =>
    cases work with
    | some work => exact h.refl
    | none =>
      obtain ⟨hkeeps, hnew⟩ := h.beginning p a
      unfold Gateway.runTx
      dsimp only
      cases hr : (w.tryTx a.commit (beginTx g.budget p.role p.config p.request p.worstCase a.reservationId a.now)).1 with
      | error e =>
        exact h.task_tx hi hkeeps rfl (fun _ hb => nomatch hb) (fun _ => .inl (Nat.le_refl _)) (fun _ _ hf => hf.elim)
          fun _ => .inl (Nat.le_refl _)
      | ok b =>
        obtain ⟨hb, hstarted, hfresh⟩ := hnew b hr
        refine h.task_tx hi hkeeps rfl (fun b' hb' => .inr ?_) (fun key => ?_) (fun _ _ hf => hf.elim) fun key => ?_
        · obtain rfl : b = b' := Option.some.inj hb'
          exact hb
        · by_cases hk : b.attempt.attemptKey = key
          · subst hk
            exact .inr ⟨hfresh, hstarted, by simp [TaskPhase.owes]⟩
          · exact .inl (by simp [TaskPhase.owes, hk])
        · by_cases hk : b.attempt.attemptKey = key
          · subst hk
            exact .inr ⟨hfresh, by simp [TaskPhase.tickets]⟩
          · exact .inl (by simp [TaskPhase.tickets, hk])
  | undoing p =>
    obtain ⟨hkeeps, hnew⟩ := h.beginning p a
    unfold Gateway.runTx
    dsimp only
    cases hr : (w.tryTx a.commit (beginTx g.budget p.role p.config p.request p.worstCase a.reservationId a.now)).1 with
    | error e =>
      exact h.task_tx hi hkeeps rfl (fun _ hb => nomatch hb) (fun _ => .inl (Nat.le_refl _)) (fun _ _ hf => hf.elim)
        fun _ => .inl (Nat.le_refl _)
    | ok b =>
      obtain ⟨hb, hstarted, hfresh⟩ := hnew b hr
      refine h.task_tx (u := .unsending b none) hi hkeeps rfl (fun b' hb' => .inr ?_) (fun key => ?_)
        (fun _ _ hf => hf.elim) fun key => .inl (Nat.le_refl _)
      · obtain rfl : b = b' := Option.some.inj hb'
        exact hb
      · by_cases hk : b.attempt.attemptKey = key
        · subst hk
          exact .inr ⟨hfresh, hstarted, by simp [TaskPhase.owes]⟩
        · exact .inl (by simp [TaskPhase.owes, hk])
  | unsending b work =>
    cases work with
    | some ok => exact h.refl
    | none => exact h.settles hi (h.failure (h.task _ hmem b rfl) _) rfl rfl (fun _ => rfl) fun _ => rfl
  | settling b s work cancelled =>
    cases work with
    | some ok => exact h.refl
    | none => exact h.settles hi (h.settlement (h.task _ hmem b rfl) s) rfl rfl (fun _ => rfl) fun _ => rfl
  | recording b work =>
    cases work with
    | some ok => exact h.refl
    | none => exact h.settles hi (h.failure (h.task _ hmem b rfl) _) rfl rfl (fun _ => rfl) fun _ => rfl
  | _ => exact h.refl

/-! ## What is left running -/

variable {k : Nat} {l : Leftover}

theorem Inv.leftover_moves {ls : List Leftover} (h : Inv g w) (hk : w.leftovers[k]? = some l) (hkeeps : Keeps touched w.db db)
    (hmem : ∀ x ∈ ls, x ∈ w.leftovers ∨ ∀ b, x.begun? = some b → BegunOk db b)
    (howes : ∀ key, tally (Leftover.owes key) ls ≤ tally (Leftover.owes key) w.leftovers ∨
      w.db.Fresh key ∧ db.Started key ∧ tally (Leftover.owes key) ls ≤ tally (Leftover.owes key) w.leftovers + 1)
    (hsettled : ∀ a ∈ w.db.attempts.rows, touched a → a.status = .STARTED →
      tally (Leftover.owes a.attemptKey) ls < tally (Leftover.owes a.attemptKey) w.leftovers) :
    Steps g w { w with db := db, leftovers := ls } := by
  refine h.moves touched ⟨hkeeps, fun key => ?_, fun a ha ht hst => ?_, fun _ => .inl (Nat.le_refl _),
    fun _ hk => .inl hk⟩ rfl (fun t ht => .inl ht) hmem fun hdown => ?_
  · rcases howes key with hle | ⟨hf, hst, hle⟩
    · exact .inl (Nat.add_le_add_left hle _)
    · have := (h.fresh hf).1
      unfold owed at this ⊢
      exact .inr ⟨hf, hst, by dsimp only; omega⟩
  · exact Nat.add_lt_add_left (hsettled a ha ht hst) _
  · rw [(h.down hdown).2] at hk
    cases hk

theorem Inv.runLeftover (h : Inv g w) (a : Input) (hk : w.leftovers[k]? = some l) : Steps g w (w.runLeftover g k a l) := by
  have hmem : l ∈ w.leftovers := List.mem_of_getElem? hk
  have herase := fun key => tally_eraseIdx (f := Leftover.owes key) hk
  have hsub : ∀ x ∈ w.leftovers.eraseIdx k, x ∈ w.leftovers := fun x hx => List.mem_of_mem_eraseIdx hx
  cases l with
  | reserving p =>
    obtain ⟨hkeeps, hnew⟩ := h.beginning p a
    unfold Gateway.runLeftover
    dsimp only
    cases hr : (w.tryTx a.commit (beginTx g.budget p.role p.config p.request p.worstCase a.reservationId a.now)).1 with
    | error e =>
      exact h.leftover_moves hk hkeeps (fun x hx => .inl (hsub x hx)) (fun key => .inl (by have := herase key; omega))
        fun _ _ hf => hf.elim
    | ok b =>
      obtain ⟨hb, hstarted, hfresh⟩ := hnew b hr
      refine h.leftover_moves hk hkeeps (fun x hx => ?_) (fun key => ?_) fun _ _ hf => hf.elim
      · rcases List.mem_or_eq_of_mem_set hx with hx | rfl
        · exact .inl hx
        · refine .inr fun b' hb' => ?_
          obtain rfl : b = b' := Option.some.inj hb'
          exact hb
      · have hset := tally_set (f := Leftover.owes key) hk (.failing b cancelledBeforeSend)
        by_cases hkey : b.attempt.attemptKey = key
        · subst hkey
          refine .inr ⟨hfresh, hstarted, ?_⟩
          simp only [Leftover.owes, if_true] at hset
          omega
        · refine .inl ?_
          simp only [Leftover.owes, if_neg hkey] at hset
          omega
  | failing b error =>
    refine h.leftover_moves hk (h.failure (h.leftover _ hmem b rfl) error) (fun x hx => .inl (hsub x hx))
      (fun key => .inl (by have := herase key; omega)) fun a _ hkey _ => ?_
    have := herase a.attemptKey
    simp only [Leftover.owes, if_pos hkey.symm] at this
    omega

/-! ## Runs -/

theorem Inv.init (g : GatewayConfig) : Inv g (init g) := by
  have hnone : ∀ key, (Gateway.init g).owed key = 0 := fun key => by simp [owed, Gateway.init]
  refine ⟨⟨fun _ ha => absurd ha List.not_mem_nil, fun _ hr => absurd hr List.not_mem_nil,
    fun _ ha => absurd ha List.not_mem_nil, fun _ he => absurd he List.not_mem_nil,
    fun _ hr => absurd hr List.not_mem_nil⟩, by simp [Gateway.init],
    fun _ ht => absurd ht List.not_mem_nil, fun _ hl => absurd hl List.not_mem_nil, fun key => ?_, fun key hpos => ?_,
    fun key => by simp [Gateway.init], fun _ hk => absurd hk List.not_mem_nil, fun _ => ⟨rfl, rfl⟩⟩
  · rw [hnone]
    exact Nat.zero_le _
  · rw [hnone] at hpos
    cases hpos

theorem Inv.aside (h : Inv g w) (touched : AttemptRow → Prop) (htasks : w'.tasks = w.tasks)
    (hleft : w'.leftovers = w.leftovers) (hsent : w'.sent = w.sent) (hup : w'.up = w.up)
    (hslots : w'.slots + w'.workers = w.slots + w.workers) (hkeeps : Keeps touched w.db w'.db)
    (ht : ∀ a ∈ w.db.attempts.rows, touched a → a.status ≠ .STARTED) : Steps g w w' := by
  refine h.moves touched ⟨hkeeps, fun key => .inl ?_, fun a ha hta hst => absurd hst (ht a ha hta),
    fun key => .inl ?_, fun key hk => .inl ?_⟩ ?_ (fun t ht => .inl ?_) (fun l hl => .inl ?_) fun hdown => ?_
  · unfold owed
    rw [htasks, hleft]
  · rw [htasks, hsent]
  · rwa [hsent] at hk
  · rw [htasks]
    omega
  · rwa [htasks] at ht
  · rwa [hleft] at hl
  · rw [hup] at hdown
    rw [htasks, hleft]
    exact h.down hdown

/-- A step without tasks or leftovers. -/
theorem Inv.alone (h : Inv g w) (touched : AttemptRow → Prop) (htasks : w'.tasks = [])
    (hleft : w'.leftovers = []) (hsent : w'.sent = w.sent) (hslots : w'.slots + w'.workers = g.maxInFlight)
    (hkeeps : Keeps touched w.db w'.db) : Steps g w w' := by
  have hnone : ∀ key, w'.owed key = 0 := fun key => by simp [owed, htasks, hleft]
  refine ⟨⟨hkeeps.inStep, ?_, ?_, ?_, fun key => ?_, fun key hpos => ?_, fun key => ?_, fun key hk => ?_,
    fun _ => ⟨htasks, hleft⟩⟩, hkeeps.later, fun key hk => .inl (hsent ▸ hk)⟩
  · rw [htasks, tally_nil, Nat.add_zero]
    exact hslots
  · rw [htasks]
    exact fun _ ht => absurd ht List.not_mem_nil
  · rw [hleft]
    exact fun _ hl => absurd hl List.not_mem_nil
  · rw [hnone]
    exact Nat.zero_le _
  · rw [hnone] at hpos
    cases hpos
  · have := h.calls key
    rw [htasks, hsent, tally_nil]
    omega
  · rw [hsent] at hk
    exact AiDb.not_fresh_later (h.known key hk) hkeeps.later

theorem Inv.elim {o : Option α} {f : α → Gateway} (h : Inv g w) (hf : ∀ a, o = some a → Steps g w (f a)) :
    Steps g w (o.elim w f) := by
  cases o with
  | none => exact h.refl
  | some a => exact hf a rfl

theorem Inv.call (h : Inv g w) (c : ModelCall) (hup : w.up = true) :
    Steps g w { w with tasks := w.tasks ++ [.prepare c] } := by
  refine h.moves (fun _ => False) ⟨Keeps.refl h.inStep _, fun key => .inl ?_, fun _ _ hf => hf.elim,
    fun key => .inl ?_, fun _ hk => .inl hk⟩ ?_ (fun t ht => ?_) (fun l hl => .inl hl) fun hdown => ?_
  · simp [owed, TaskPhase.owes]
  · simp [TaskPhase.tickets]
  · simp [TaskPhase.holds]
  · rcases List.mem_append.mp ht with ht | ht
    · exact .inl ht
    · obtain rfl := List.mem_singleton.mp ht
      exact .inr fun _ hb => nomatch hb
  · rw [hup] at hdown
    cases hdown

theorem Inv.start (h : Inv g w) (commit : Option GatewayError) : Steps g w (w.step g (.start commit)) := by
  unfold Gateway.step
  dsimp only
  split
  · exact h.refl
  · rename_i hup
    obtain ⟨htasks, hleft⟩ := h.down (by simpa using hup)
    have hslots := h.slots
    rw [htasks, tally_nil, Nat.add_zero] at hslots
    cases hr : w.tryTx commit recoverTx with
    | mk r db =>
      cases r with
      | error e => exact h.refl
      | ok _ =>
        rcases w.tryTx_cases commit recoverTx with ⟨_, -, hok⟩ | ⟨e, he, -⟩
        · rw [hr] at hok
          exact h.alone _ htasks hleft rfl hslots (recoverTx_ok h.inStep hok)
        · rw [hr] at he
          cases he

theorem Inv.step (h : Inv g w) (act : GatewayAct) : Steps g w (w.step g act) := by
  cases act with
  | call c =>
    unfold Gateway.step
    dsimp only
    split
    · exact h.call c ‹_›
    · exact h.refl
  | next i a => exact h.elim fun t hi => h.next a hi
  | runTx i a => exact h.elim fun t hi => h.runTx a hi
  | cancel i => exact h.elim fun t hi => h.cancel hi
  | runLeftover k a => exact h.elim fun l hk => h.runLeftover a hk
  | workerEnds =>
    unfold Gateway.step
    dsimp only
    split
    · exact h.refl
    · refine h.aside (fun _ => False) rfl rfl rfl rfl ?_ (Keeps.refl h.inStep _) fun _ _ hf => hf.elim
      dsimp only
      omega
  | reportLateUsage attemptKey usage commit =>
    unfold Gateway.step
    dsimp only
    split
    · exact h.aside _ rfl rfl rfl rfl rfl (h.tryTx fun _ _ hok => lateTx_ok h.inStep hok) fun _ _ hne => hne
    · exact h.refl
  | setCap requested now commit =>
    unfold Gateway.step
    dsimp only
    split
    · exact h.aside _ rfl rfl rfl rfl rfl (h.tryTx fun _ _ hok => setCapTx_ok h.inStep hok) fun _ _ hf => hf.elim
    · exact h.refl
  | die => exact h.alone (fun _ => False) rfl rfl rfl rfl (Keeps.refl h.inStep _)
  | start commit => exact h.start commit

theorem Inv.run (h : Inv g w) (acts : List GatewayAct) :
    Inv g (w.run g acts) ∧ Later w.db (w.run g acts).db := by
  induction acts generalizing w with
  | nil => exact ⟨h, Later.refl _⟩
  | cons act acts ih =>
    obtain ⟨hinv, hlater, -⟩ := h.step act
    obtain ⟨hrun, hrest⟩ := ih hinv
    exact ⟨hrun, hlater.trans hrest⟩

theorem run_append (w : Gateway) (pre acts : List GatewayAct) : w.run g (pre ++ acts) = (w.run g pre).run g acts :=
  List.foldl_append

/-- **Journal, budget and cost events stay in step, in every run.**  A reservation has one attempt and an attempt one
reservation; their states and the events of the attempt go together; an attempt of unknown outcome never succeeds; the
adapter is called once for an attempt, which is then STARTED with its reservation open; and every slot is free, held by one
call that is under way, or held by the worker thread of an abandoned one. -/
theorem stays_in_step (g : GatewayConfig) (acts : List GatewayAct) :
    let w := (init g).run g acts
    (∀ r ∈ w.db.budget.reservations.rows, ∃! a, a ∈ w.db.attempts.rows ∧ a.reservationId = r.reservationId) ∧
    (∀ a ∈ w.db.attempts.rows, ∃ r ∈ w.db.budget.reservations.rows, r.reservationId = a.reservationId ∧
      Agrees a.status r.state ∧ w.db.eventsOf a.attemptKey = expectedEvents a.status r ∧
      (r.state = .settled → r.actualMicros.isSome)) ∧
    (∀ e ∈ w.db.events.rows, ∃ a ∈ w.db.attempts.rows, a.attemptKey = e.attemptKey) ∧
    (∀ pre, pre <+: acts → ∀ a ∈ ((init g).run g pre).db.attempts.rows, a.status = .UNKNOWN ∨ a.status = .COST_UNKNOWN →
      ∃ a' ∈ w.db.attempts.rows, a'.attemptKey = a.attemptKey ∧ (a'.status = a.status ∨ a'.status = .RECONCILED)) ∧
    w.sent.Nodup ∧
    (∀ pre act, pre ++ [act] <+: acts → ∀ key ∈ ((init g).run g (pre ++ [act])).sent, key ∉ ((init g).run g pre).sent →
      ∃ a ∈ ((init g).run g pre).db.attempts.rows, a.attemptKey = key ∧ a.status = .STARTED ∧
        ∃ r ∈ ((init g).run g pre).db.budget.reservations.rows, r.reservationId = a.reservationId ∧ r.state = .opened) ∧
    w.slots + tally TaskPhase.holds w.tasks + w.workers = g.maxInFlight := by
  intro w
  obtain ⟨hinv, -⟩ := (Inv.init g).run acts
  refine ⟨fun r hr => ?_, fun a ha => ?_, hinv.inStep.event, fun pre hpre a ha hst => ?_, ?_, fun pre act hpre key hk hnk => ?_,
    hinv.slots⟩
  · obtain ⟨a, ha, hid⟩ := hinv.inStep.reservation r hr
    exact ⟨a, ⟨ha, hid⟩, fun b hb => hinv.inStep.oneAttempt b hb.1 a ha (hb.2.trans hid.symm)⟩
  · obtain ⟨r, hr, hid, hagree, hev⟩ := hinv.inStep.attempt a ha
    exact ⟨r, hr, hid, hagree, hev, hinv.inStep.settled r hr⟩
  · obtain ⟨rest, rfl⟩ := hpre
    obtain ⟨hpre, -⟩ := (Inv.init g).run pre
    obtain ⟨-, hlater⟩ := hpre.run rest
    obtain ⟨a', ha', hk, -, hmay⟩ := hlater.attempts a ha
    refine ⟨a', by simpa only [w, run_append] using ha', hk, ?_⟩
    rcases hmay with heq | hstarted | ⟨-, hrec⟩
    · exact .inl heq
    · rw [hstarted] at hst
      simp at hst
    · exact .inr hrec
  · refine List.nodup_iff_count_le_one.mpr fun key => ?_
    exact (Nat.le_add_right _ _).trans (hinv.calls key)
  · obtain ⟨hinvpre, -⟩ := (Inv.init g).run pre
    rw [run_append] at hk
    rcases (hinvpre.step act).sent key hk with hold | ⟨a, ha, hkey, hst⟩
    · exact absurd hold hnk
    · obtain ⟨r, hr, hid, hagree, -⟩ := hinvpre.inStep.attempt a ha
      rw [hst] at hagree
      exact ⟨a, ha, hkey, hst, r, hr, hid, hagree⟩

end Gateway

end MmrTrader.Ai
