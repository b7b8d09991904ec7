import MmrTrader.Ai.Journal

/-!
# The model gateway

Executable model of `ModelGateway` (`trader/ai/gateway.py`): the tasks of one event loop and the transactions that worker
threads run for them.

* `TaskPhase` — where a task of `call` stands; the phases that await can be cancelled.
* `Leftover` — work that a cancelled task left running.
* `Gateway`, `GatewayAct`, `Gateway.step` — the process, its slots and its death.

A transaction runs whole when its worker thread gets to it, and may raise then.
-/

set_option autoImplicit false

namespace MmrTrader.Ai

open Lib

structure GatewayConfig where
  budget : Budget
  /-- `ROLE_NAMES`. -/
  roleNames : List String
  roles : String → Option RoleConfig
  priceFor : String → String → Option ModelPrice
  maxInFlight : Nat

structure ModelCall where
  role : String
  request : ModelRequest
  deriving DecidableEq

inductive Refusal where
  | ROLE_UNKNOWN
  | ROLE_DISABLED
  | OUTPUT_LIMIT_ABOVE_ROLE
  | INPUT_TOO_LARGE
  | PRICE_UNAVAILABLE
  | DEADLINE_EXPIRED
  | IN_FLIGHT_LIMIT_DEADLINE
  | HOURLY_LIMIT_EXCEEDS_DEADLINE
  | BUDGET_EXHAUSTED
  | BUDGET_CAP_UNKNOWN
  deriving DecidableEq

/-- How a call ends. -/
inductive CallOutcome where
  | result (attemptKey : String) (costMicros : Int) (overrun : Bool)
  | refused (code : Refusal)
  | failed (error : CallError) (attemptKey : String)
  | cancelled
  /-- Anything else that is raised. -/
  | raised
  deriving DecidableEq

/-- A call that passed `_prepare`. -/
structure Prepared where
  role : String
  config : RoleConfig
  request : ModelRequest
  price : ModelPrice

def prepare (g : GatewayConfig) (c : ModelCall) : Except Refusal Prepared :=
  if c.role ∉ g.roleNames then .error .ROLE_UNKNOWN
  else
    match g.roles c.role with
    | none => .error .ROLE_DISABLED
    | some config =>
      if config.maxOutputTokens < c.request.maxOutputTokens then .error .OUTPUT_LIMIT_ABOVE_ROLE
      else if config.maxInputTokens < c.request.inputTokens then .error .INPUT_TOO_LARGE
      else
        match g.priceFor config.backend config.model with
        | none => .error .PRICE_UNAVAILABLE
        | some price => .ok ⟨c.role, config, c.request, price⟩

def Prepared.worstCase (p : Prepared) : Int :=
  p.price.costMicros ⟨p.config.maxInputTokens, p.config.maxOutputTokens⟩

inductive Settlement where
  | success (price : ModelPrice) (response : ModelResponse)
  | failure (error : CallError)

def Settlement.tx (begun : Begun) : Settlement → AiTx Unit
  | .success price response => successTx price begun response
  | .failure error => failureTx begun error

/-- How the call ends once it is settled. -/
def Settlement.outcome (begun : Begun) : Settlement → CallOutcome
  | .success price response =>
    let cost := price.costMicros response.usage
    .result begun.attempt.attemptKey cost (decide (begun.reservedMicros < cost))
  | .failure error => .failed error begun.attempt.attemptKey

def cancelledBeforeSend : CallError := ⟨.NOT_SENT, "CALLER_CANCELLED_BEFORE_SEND"⟩

def callerCancelled : CallError := ⟨.UNKNOWN, "CALLER_CANCELLED"⟩

/-- Where a task stands; a transaction's field is `none` until its worker thread has run it. -/
inductive TaskPhase where
  | prepare (c : ModelCall)
  /-- The head of the loop of `_acquire_slot_and_begin`. -/
  | acquire (p : Prepared)
  /-- `wait_for(self._slots.acquire())`. -/
  | waiting (p : Prepared)
  /-- `shield(work)` of the reservation. -/
  | beginning (p : Prepared) (work : Option (Except GatewayError Begun))
  /-- `shield(self._undo_unsent(work))`, with the reservation still under way. -/
  | undoing (p : Prepared)
  /-- The reservation committed; its undoing is under way. -/
  | unsending (begun : Begun) (work : Option Bool)
  | sleeping (p : Prepared)
  | send (p : Prepared) (begun : Begun)
  /-- The adapter runs. -/
  | calling (p : Prepared) (begun : Begun)
  /-- `_uninterruptible`. -/
  | settling (begun : Begun) (s : Settlement) (work : Option Bool) (cancelled : Bool)
  /-- `shield(self._record_failure(…))` of a call that was cancelled. -/
  | recording (begun : Begun) (work : Option Bool)
  /-- `_release_slot_when_idle`. -/
  | finally (begun : Begun) (outcome : CallOutcome)
  | ended (outcome : CallOutcome)

/-- What goes on after the task that waited for it was cancelled again. -/
inductive Leftover where
  | reserving (p : Prepared)
  | failing (begun : Begun) (error : CallError)

structure Gateway where
  db : AiDb
  /-- The process runs, and has recovered. -/
  up : Bool
  /-- The value of the semaphore. -/
  slots : Nat
  tasks : List TaskPhase
  leftovers : List Leftover
  /-- Worker threads of abandoned calls, which keep their slots. -/
  workers : Nat
  /-- The calls of adapters, by attempt. -/
  sent : List String

inductive Adapter where
  | returns (response : ModelResponse)
  | modelCallError (error : CallError)
  | otherException (type : String)
  | timeout
  /-- A `BaseException`. -/
  | escapes
  deriving DecidableEq

/-- Clock readings, and what the outside answers at a step. -/
structure Input where
  now : Int
  reservationId : String
  /-- The deadline, in microseconds. -/
  remaining : Int
  /-- Is a slot granted, or does the deadline pass first? -/
  granted : Bool
  adapter : Adapter
  /-- The adapter's worker thread still runs. -/
  pendingWork : Bool
  /-- What the COMMIT raises, if it does. -/
  commit : Option GatewayError

inductive GatewayAct where
  | call (c : ModelCall)
  /-- A task goes on. -/
  | next (i : Nat) (a : Input)
  /-- The worker thread of a task's transaction runs it. -/
  | runTx (i : Nat) (a : Input)
  | cancel (i : Nat)
  | runLeftover (k : Nat) (a : Input)
  | workerEnds
  | reportLateUsage (attemptKey : String) (usage : Usage) (commit : Option GatewayError)
  | setCap (requested now : Int) (commit : Option GatewayError)
  | die
  | start (commit : Option GatewayError)

namespace Gateway

def init (g : GatewayConfig) : Gateway := ⟨AiDb.empty, false, g.maxInFlight, [], [], 0, []⟩

def goOn (w : Gateway) (i : Nat) (p : TaskPhase) : Gateway := { w with tasks := w.tasks.set i p }

/-- The task ends without a slot, or gives back the one it took. -/
def stop (w : Gateway) (i : Nat) (outcome : CallOutcome) : Gateway := w.goOn i (.ended outcome)

def giveBack (w : Gateway) : Gateway := { w with slots := w.slots + 1 }

/-- Run a transaction: what it returns, and the tables afterwards. -/
def tryTx {α : Type} (w : Gateway) (commit : Option GatewayError) (x : AiTx α) : Except GatewayError α × AiDb :=
  match transaction commit x w.db with
  | .ok a db => (.ok a, db)
  | .error e db => (.error e, db)

def settle (w : Gateway) (i : Nat) (begun : Begun) (s : Settlement) : Gateway := w.goOn i (.settling begun s none false)

/-- The reservation is over. -/
def begun (w : Gateway) (i : Nat) (p : Prepared) (a : Input) : Except GatewayError Begun → Gateway
  | .ok b => w.goOn i (.send p b)
  | .error (.budget (.hourlyLimit _ retryAfter)) =>
    if a.remaining < retryAfter then w.giveBack.stop i (.refused .HOURLY_LIMIT_EXCEEDS_DEADLINE)
    else w.giveBack.goOn i (.sleeping p)
  | .error (.budget (.exhausted _ _ _ _ _)) => w.giveBack.stop i (.refused .BUDGET_EXHAUSTED)
  | .error (.budget .notInitialized) => w.giveBack.stop i (.refused .BUDGET_CAP_UNKNOWN)
  | .error _ => w.giveBack.stop i .raised

def answered (w : Gateway) (i : Nat) (p : Prepared) (b : Begun) : Adapter → Gateway
  | .returns response => w.settle i b (.success p.price response)
  | .modelCallError error => w.settle i b (.failure error)
  | .otherException _ => w.settle i b (.failure ⟨.UNKNOWN, "ADAPTER_FAILURE"⟩)
  | .timeout => w.settle i b (.failure ⟨.UNKNOWN, "CALL_TIMEOUT"⟩)
  | .escapes => w.goOn i (.finally b .raised)

/-- A task goes on, when what it awaits is there. -/
def next (g : GatewayConfig) (w : Gateway) (i : Nat) (a : Input) : TaskPhase → Gateway
  | .prepare c =>
    match Ai.prepare g c with
    | .error code => w.stop i (.refused code)
    | .ok p => w.goOn i (.acquire p)
  | .acquire p => if a.remaining ≤ 0 then w.stop i (.refused .DEADLINE_EXPIRED) else w.goOn i (.waiting p)
  | .waiting p =>
    if a.granted then
      if w.slots = 0 then w else { w with slots := w.slots - 1 }.goOn i (.beginning p none)
    else w.stop i (.refused .IN_FLIGHT_LIMIT_DEADLINE)
  | .beginning p (some work) => w.begun i p a work
  | .unsending _ (some true) => w.giveBack.stop i .cancelled
  | .unsending _ (some false) => w.giveBack.stop i .raised
  | .sleeping p => w.goOn i (.acquire p)
  | .send p b =>
    if a.remaining ≤ 0 then w.settle i b (.failure ⟨.NOT_SENT, "DEADLINE_EXPIRED"⟩)
    else { w with sent := w.sent ++ [b.attempt.attemptKey] }.goOn i (.calling p b)
  | .calling p b => w.answered i p b a.adapter
  | .settling b s (some ok) cancelled =>
    w.goOn i (.finally b (if cancelled then .cancelled else if ok then s.outcome b else .raised))
  | .recording b (some ok) => w.goOn i (.finally b (if ok then .cancelled else .raised))
  | .finally _ outcome =>
    if a.pendingWork then { w with workers := w.workers + 1 }.stop i outcome else w.giveBack.stop i outcome
  | _ => w

def runTx (g : GatewayConfig) (w : Gateway) (i : Nat) (a : Input) : TaskPhase → Gateway
  | .beginning p none =>
    let r := w.tryTx a.commit (beginTx g.budget p.role p.config p.request p.worstCase a.reservationId a.now)
    { w with db := r.2 }.goOn i (.beginning p (some r.1))
  | .undoing p =>
    let r := w.tryTx a.commit (beginTx g.budget p.role p.config p.request p.worstCase a.reservationId a.now)
    match r.1 with
    | .ok b => { w with db := r.2 }.goOn i (.unsending b none)
    | .error _ => { w with db := r.2 }.giveBack.stop i .cancelled
  | .unsending b none =>
    let r := w.tryTx a.commit (failureTx b cancelledBeforeSend)
    { w with db := r.2 }.goOn i (.unsending b (some r.1.isOk))
  | .settling b s none cancelled =>
    let r := w.tryTx a.commit (s.tx b)
    { w with db := r.2 }.goOn i (.settling b s (some r.1.isOk) cancelled)
  | .recording b none =>
    let r := w.tryTx a.commit (failureTx b callerCancelled)
    { w with db := r.2 }.goOn i (.recording b (some r.1.isOk))
  | _ => w

/-- A cancellation reaches the await of a task. -/
def cancel (w : Gateway) (i : Nat) : TaskPhase → Gateway
  | .waiting _ => w.stop i .cancelled
  | .beginning p none => w.goOn i (.undoing p)
  | .beginning _ (some (.ok b)) => w.goOn i (.unsending b none)
  | .beginning _ (some (.error _)) => w.giveBack.stop i .cancelled
  | .undoing p => { w with leftovers := w.leftovers ++ [Leftover.reserving p] }.giveBack.stop i .cancelled
  | .unsending b none =>
    { w with leftovers := w.leftovers ++ [Leftover.failing b cancelledBeforeSend] }.giveBack.stop i .cancelled
  | .unsending _ (some _) => w.giveBack.stop i .cancelled
  | .sleeping _ => w.stop i .cancelled
  | .calling _ b => w.goOn i (.recording b none)
  | .settling b s work _ => w.goOn i (.settling b s work true)
  | .recording b none =>
    { w with leftovers := w.leftovers ++ [Leftover.failing b callerCancelled] }.goOn i (.finally b .cancelled)
  | .recording b (some _) => w.goOn i (.finally b .cancelled)
  | _ => w

/-- The worker thread of what a cancelled task left running. -/
def runLeftover (g : GatewayConfig) (w : Gateway) (k : Nat) (a : Input) : Leftover → Gateway
  | .reserving p =>
    let r := w.tryTx a.commit (beginTx g.budget p.role p.config p.request p.worstCase a.reservationId a.now)
    match r.1 with
    | .ok b => { w with db := r.2, leftovers := w.leftovers.set k (.failing b cancelledBeforeSend) }
    | .error _ => { w with db := r.2, leftovers := w.leftovers.eraseIdx k }
  | .failing b error =>
    { w with db := (w.tryTx a.commit (failureTx b error)).2, leftovers := w.leftovers.eraseIdx k }

def step (g : GatewayConfig) (w : Gateway) : GatewayAct → Gateway
  | .call c => if w.up then { w with tasks := w.tasks ++ [.prepare c] } else w
  | .next i a => (w.tasks[i]?).elim w fun p => w.next g i a p
  | .runTx i a => (w.tasks[i]?).elim w fun p => w.runTx g i a p
  | .cancel i => (w.tasks[i]?).elim w fun p => w.cancel i p
  | .runLeftover k a => (w.leftovers[k]?).elim w fun l => w.runLeftover g k a l
  | .workerEnds => if w.workers = 0 then w else { w with workers := w.workers - 1, slots := w.slots + 1 }
  | .reportLateUsage attemptKey usage commit =>
    if w.up then { w with db := (w.tryTx commit (lateTx g.priceFor attemptKey usage)).2 } else w
  | .setCap requested now commit =>
    if w.up then { w with db := (w.tryTx commit (onBudget (g.budget.setCapInTx requested now))).2 } else w
  | .die => { w with up := false, slots := g.maxInFlight, tasks := [], leftovers := [], workers := 0 }
  | .start commit =>
    if w.up then w
    else
      match w.tryTx commit recoverTx with
      | (.ok _, db) => { w with db := db, up := true }
      | (.error _, _) => w

def run (g : GatewayConfig) (w : Gateway) (acts : List GatewayAct) : Gateway := acts.foldl (step g) w

end Gateway

end MmrTrader.Ai
