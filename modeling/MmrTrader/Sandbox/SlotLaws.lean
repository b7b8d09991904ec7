import Mathlib.Data.List.Basic
import Mathlib.Data.Rat.Defs
import Mathlib.Logic.Function.Basic
import MmrTrader.Lib.GuardedRun
import MmrTrader.Lib.Tally

/-!
# The sandbox supervisor

* `Session`, `Supervisor` — the tables that the lock guards.
* `Reply`, `errorReply`, `spawnFailure` — what a caller is answered.
* `Phase`, `World`, `Act`, `World.step` — the threads of the server: each request runs on its own, and every fork, class
  load, bar, kill and wipe is a step outside the lock.

A session's identity is its position among the sessions ever made.
-/

set_option autoImplicit false

namespace MmrTrader.Sandbox

/-! ## Pools -/

inductive PoolName where
  | live
  | research
  deriving DecidableEq

def PoolName.text : PoolName → String
  | .live => "live"
  | .research => "research"

structure Slot where
  uid : Nat
  directory : String
  deriving DecidableEq

def slotDir (uid : Nat) : String := "/tmp/s" ++ toString uid

def poolUids : PoolName → List Nat
  | .live => [20001, 20002, 20003]
  | .research => [20004, 20005, 20006, 20007]

def maxConidsPerSession : PoolName → Nat
  | .live => 20
  | .research => 1

/-- The pool sizes that `_build_pool` accepts; a pool may be missing. -/
structure Config where
  poolSizes : PoolName → Option Nat
  fits : ∀ pool n, poolSizes pool = some n → n ≤ (poolUids pool).length

/-- The slots `_build_pool` makes. -/
def Config.slots (c : Config) (pool : PoolName) : List Slot :=
  match c.poolSizes pool with
  | none => []
  | some size => ((poolUids pool).take size).map fun uid => ⟨uid, slotDir uid⟩

/-! ## Replies -/

inductive Code where
  | SANDBOX_ERROR
  | SANDBOX_BUSY
  | SANDBOX_UNAVAILABLE
  | SANDBOX_DIGEST_MISMATCH
  | SANDBOX_BAD_REQUEST
  deriving DecidableEq

/-- A payload of the child that `validate_signal` passed. -/
structure Signal where
  action : Option String
  probability : ℚ
  deriving DecidableEq

inductive Reply where
  | opened (session lookback : Nat)
  | signal (session : Nat) (conid t : Int) (payload : Signal)
  | closed
  | error (code : Code) (detail : String)
  deriving DecidableEq

/-- What a spawner raises. -/
inductive SpawnFault where
  | childSetup (detail : String)
  | child (detail : String)
  | other (type : String)
  deriving DecidableEq

def spawnFailure : SpawnFault → Reply
  | .childSetup detail => .error .SANDBOX_UNAVAILABLE detail
  | .child detail => .error .SANDBOX_ERROR detail
  | .other type => .error .SANDBOX_UNAVAILABLE ("internal sandbox error: spawn failed: " ++ type)

/-- What a bar raises: a `ChildError` or a `FrameError`, or anything else. -/
inductive BarFault where
  | child (detail : String)
  | other (type : String)
  deriving DecidableEq

def barFailure : BarFault → Reply
  | .child detail => .error .SANDBOX_ERROR detail
  | .other type => .error .SANDBOX_UNAVAILABLE ("internal sandbox error: " ++ type)

def badRequest (detail : String) : Reply := .error .SANDBOX_BAD_REQUEST detail

def unknownSession : Reply := badRequest "unknown session"

/-! ## The tables -/

structure ChildHandle where
  lookback : Nat
  deriving DecidableEq

inductive Child where
  | notStarted
  | alive
  | ended
  deriving DecidableEq

/-- A session; `inTable` is its entry in `_sessions`.  The last three fields are not the program's: its child, what the
    wiper returned, and how often the slot was given back. -/
structure Session where
  pool : PoolName
  connId : Nat
  slot : Slot
  conids : List Int
  isProbe : Bool
  inTable : Bool
  handle : Option ChildHandle
  lastT : Int → Option Int
  busy : Bool
  child : Child
  wiped : Option Bool
  released : Nat

structure Supervisor where
  freeSlots : PoolName → List Slot
  quarantined : PoolName → List Slot
  sessions : List Session
  /-- `_probes`. -/
  probes : List Nat

/-- A bar that was answered with a signal. -/
structure Bar where
  session : Nat
  conid : Int
  t : Int
  deriving DecidableEq

/-! ## Threads -/

structure OpenCall where
  pool : PoolName
  connId : Nat
  conids : List Int
  isProbe : Bool
  deriving DecidableEq

/-- What follows a release: the answer, or the other sessions of a drop. -/
inductive Next where
  | answer (reply : Reply)
  | drop (rest : List Nat)
  deriving DecidableEq

/-- Where a thread of the server stands. -/
inductive Phase where
  | checkOpen (o : OpenCall)
  | readSource (o : OpenCall)
  | reserve (o : OpenCall)
  /-- `_spawn`, before the fork. -/
  | spawn (id : Nat)
  /-- The child loads its class. -/
  | loading (id : Nat)
  | spawned (id : Nat) (handle : ChildHandle)
  | forget (id : Nat) (reply : Reply)
  | bar (connId id : Nat) (conid t : Int)
  /-- `send_bar` waits for the child. -/
  | sending (id : Nat) (conid t : Int)
  | answered (id : Nat) (conid t : Int) (payload : Signal)
  /-- `_end`. -/
  | ending (id : Nat) (reply : Reply)
  | close (connId id : Nat)
  | drop (connId : Nat)
  | dropping (rest : List Nat)
  /-- `_finish_with`, before `handle.close()`. -/
  | closing (id : Nat) (next : Next)
  /-- `_release`, before the wiper. -/
  | wiping (id : Nat) (next : Next)
  | releasing (id : Nat) (clean : Bool) (next : Next)
  | done (reply : Option Reply)
  deriving DecidableEq

def Phase.session? : Phase → Option Nat
  | .spawn id | .loading id | .spawned id _ | .forget id _ | .sending id _ _ | .answered id _ _ _ | .ending id _
  | .closing id _ | .wiping id _ | .releasing id _ _ => some id
  | _ => none

/-- The pools and the store at a step: what reading the source, a spawner, a child and the wiper answer when asked. -/
structure Answer where
  /-- The refusal of the stored file or the probe, if any. -/
  refused : Option Reply
  /-- The spawner raises before there is a child. -/
  unstarted : Option SpawnFault
  loaded : Except SpawnFault ChildHandle
  bar : Except BarFault Signal
  /-- The wiper returned `True`. -/
  clean : Bool

structure World where
  sup : Supervisor
  threads : List Phase
  accepted : List Bar

inductive Act where
  | openSession (o : OpenCall)
  | bar (connId id : Nat) (conid t : Int)
  | close (connId id : Nat)
  | dropConnection (connId : Nat)
  /-- The next step of a thread. -/
  | next (i : Nat) (a : Answer)
  /-- A child dies by itself. -/
  | childDies (id : Nat)

namespace Supervisor

def connectionHoldsSession (v : Supervisor) (connId : Nat) : Bool :=
  v.sessions.any fun s => s.inTable && s.connId == connId

def liveInTable (v : Supervisor) : Bool := v.sessions.any fun s => s.inTable && s.pool == .live

/-- `_sessions.get`, when the session is the connection's own and its child is there. -/
def openSession? (v : Supervisor) (connId id : Nat) : Option Session :=
  (v.sessions[id]?).filter fun s => s.inTable && s.connId == connId && s.handle.isSome

def ofConnection (v : Supervisor) (connId : Nat) : List Nat :=
  (List.range v.sessions.length).filter fun id => (v.sessions[id]?).any fun s => s.inTable && s.connId == connId

def put (v : Supervisor) (id : Nat) (s : Session) : Supervisor := { v with sessions := v.sessions.set id s }

end Supervisor

/-- `no free slot`, with how many are quarantined. -/
def noFreeSlot (quarantined : List Slot) : Reply :=
  .error .SANDBOX_BUSY
    (if quarantined = [] then "no free slot"
      else "no free slot (" ++ toString quarantined.length ++ " quarantined)")

namespace World

def start (c : Config) : World := ⟨⟨c.slots, fun _ => [], [], []⟩, [], []⟩

def goOn (w : World) (i : Nat) (p : Phase) : World := { w with threads := w.threads.set i p }

def put (w : World) (id : Nat) (s : Session) : World := { w with sup := w.sup.put id s }

/-- `handle` returns. -/
def answer (w : World) (i : Nat) (reply : Reply) : World := w.goOn i (.done (some reply))

/-- After a release. -/
def proceed (w : World) (i : Nat) : Next → World
  | .answer reply => w.answer i reply
  | .drop rest => w.goOn i (.dropping rest)

/-- `_check_open`; an OPEN_PROBE is for the research pool only. -/
def checkOpen (c : Config) (w : World) (i : Nat) (o : OpenCall) : World :=
  if o.isProbe && o.pool != .research then w.answer i (badRequest "probes are research-only")
  else if c.poolSizes o.pool = none then w.answer i (badRequest ("unknown pool '" ++ o.pool.text ++ "'"))
  else if maxConidsPerSession o.pool < o.conids.length then
    w.answer i (badRequest
      ("a " ++ o.pool.text ++ " session takes at most " ++ toString (maxConidsPerSession o.pool) ++ " conids"))
  else if w.sup.connectionHoldsSession o.connId then w.answer i (badRequest "this connection already holds a session")
  else w.goOn i (.readSource o)

def newSession (o : OpenCall) (slot : Slot) : Session where
  pool := o.pool
  connId := o.connId
  slot := slot
  conids := o.conids
  isProbe := o.isProbe
  inTable := true
  handle := none
  lastT := fun _ => none
  busy := false
  child := .notStarted
  wiped := none
  released := 0

/-- The session of a reservation: the first free slot, and its entries in the tables. -/
def reserved (w : World) (i : Nat) (o : OpenCall) (slot : Slot) (rest : List Slot) : World :=
  { w with
    sup := { w.sup with
      freeSlots := Function.update w.sup.freeSlots o.pool rest
      sessions := w.sup.sessions ++ [newSession o slot]
      probes := if o.isProbe then w.sup.sessions.length :: w.sup.probes else w.sup.probes }
    threads := w.threads.set i (.spawn w.sup.sessions.length) }

def reserve (w : World) (i : Nat) (o : OpenCall) : World :=
  if w.sup.connectionHoldsSession o.connId then w.answer i (badRequest "this connection already holds a session")
  else if o.isProbe && w.sup.liveInTable then w.answer i (.error .SANDBOX_BUSY "live sessions open")
  else if o.pool = .live ∧ w.sup.probes ≠ [] then w.answer i (.error .SANDBOX_BUSY "isolation probe running")
  else
    match w.sup.freeSlots o.pool with
    | [] => w.answer i (noFreeSlot (w.sup.quarantined o.pool))
    | slot :: rest => w.reserved i o slot rest

/-- `_bar`, up to the call of the child. -/
def bar (w : World) (i connId id : Nat) (conid t : Int) : World :=
  match w.sup.openSession? connId id with
  | none => w.answer i unknownSession
  | some s =>
    if s.busy then w.answer i (badRequest "a bar is already in flight")
    else if conid ∉ s.conids then w.answer i (badRequest ("conid " ++ toString conid ++ " is not in this session"))
    else if (s.lastT conid).any fun last => t ≤ last then
      w.answer i (badRequest "bar time must strictly increase per conid")
    else (w.put id { s with busy := true }).goOn i (.sending id conid t)

/-- `drop_connection`, under the lock. -/
def drop (w : World) (i connId : Nat) : World :=
  { w with
    sup := { w.sup with
      sessions := w.sup.sessions.map fun s =>
        { s with inTable := s.inTable && !(s.connId == connId) } }
    threads := w.threads.set i (.dropping (w.sup.ofConnection connId)) }

/-- `_release`, under the lock. -/
def release (w : World) (id : Nat) (s : Session) (clean : Bool) : World :=
  { w with sup := {
      freeSlots := if clean then Function.update w.sup.freeSlots s.pool (w.sup.freeSlots s.pool ++ [s.slot])
        else w.sup.freeSlots
      quarantined := if clean then w.sup.quarantined
        else Function.update w.sup.quarantined s.pool (w.sup.quarantined s.pool ++ [s.slot])
      sessions := w.sup.sessions.set id { s with released := s.released + 1 }
      probes := w.sup.probes.filter fun k => k != id } }

/-- A bar is over. -/
def accept (w : World) (id : Nat) (conid t : Int) (s : Session) : World :=
  { w.put id { s with lastT := Function.update s.lastT conid (some t), busy := false } with
    accepted := w.accepted ++ [⟨id, conid, t⟩] }

/-- A step of a thread that works on the session `id`. -/
def onSession (w : World) (i id : Nat) (s : Session) (a : Answer) : Phase → World
  | .spawn _ =>
    match a.unstarted with
    | some fault => (w.put id { s with child := .ended }).goOn i (.forget id (spawnFailure fault))
    | none => (w.put id { s with child := .alive }).goOn i (.loading id)
  | .loading _ =>
    match a.loaded with
    | .ok handle => w.goOn i (.spawned id handle)
    | .error fault => (w.put id { s with child := .ended }).goOn i (.forget id (spawnFailure fault))
  | .spawned _ handle =>
    if s.inTable then (w.put id { s with handle := some handle }).answer i (.opened id handle.lookback)
    else w.goOn i (.closing id (.answer (.error .SANDBOX_UNAVAILABLE "connection dropped during open")))
  | .forget _ reply => (w.put id { s with inTable := false }).goOn i (.wiping id (.answer reply))
  | .sending _ conid t =>
    match a.bar with
    | .ok payload => w.goOn i (.answered id conid t payload)
    | .error fault => w.goOn i (.ending id (barFailure fault))
  | .answered _ conid t payload =>
    if s.inTable then
      (w.accept id conid t s).answer i (.signal id conid t payload)
    else w.answer i (.error .SANDBOX_ERROR "session ended during the bar")
  | .ending _ reply =>
    if s.inTable then (w.put id { s with inTable := false }).goOn i (.closing id (.answer reply))
    else w.answer i reply
  | .closing _ next => (w.put id { s with child := .ended }).goOn i (.wiping id next)
  | .wiping _ next => (w.put id { s with wiped := some a.clean }).goOn i (.releasing id a.clean next)
  | .releasing _ clean next => (w.release id s clean).proceed i next
  | _ => w

def session? (w : World) (id : Nat) : Option Session := w.sup.sessions[id]?

/-- The next step of a thread. -/
def next (c : Config) (w : World) (i : Nat) (a : Answer) : Phase → World
  | .checkOpen o => w.checkOpen c i o
  | .readSource o =>
    match a.refused with
    | some reply => w.answer i reply
    | none => w.goOn i (.reserve o)
  | .reserve o => w.reserve i o
  | .bar connId id conid t => w.bar i connId id conid t
  | .close connId id =>
    match w.sup.openSession? connId id with
    | none => w.answer i unknownSession
    | some s => (w.put id { s with inTable := false }).goOn i (.closing id (.answer .closed))
  | .drop connId => w.drop i connId
  | .dropping [] => w.goOn i (.done none)
  | .dropping (id :: rest) =>
    if (w.session? id).any fun s => s.handle.isSome then w.goOn i (.closing id (.drop rest))
    else w.goOn i (.dropping rest)
  | p =>
    match p.session? with
    | none => w
    | some id =>
      match w.session? id with
      | none => w
      | some s => w.onSession i id s a p

theorem next_session (c : Config) (w : World) (i : Nat) (a : Answer) {p : Phase} {id : Nat} (hid : p.session? = some id) :
    w.next c i a p = w ∨ ∃ s, w.session? id = some s ∧ w.next c i a p = w.onSession i id s a p := by
  have hnext : w.next c i a p = (w.session? id).elim w fun s => w.onSession i id s a p := by
    cases p <;> cases hid <;> (unfold next; dsimp only [Phase.session?]; cases w.session? _ <;> rfl)
  rw [hnext]
  cases hs : w.session? id with
  | none => exact .inl rfl
  | some s => exact .inr ⟨s, rfl, rfl⟩

def request (w : World) (p : Phase) : World := { w with threads := w.threads ++ [p] }

def step (c : Config) (w : World) : Act → World
  | .openSession o => w.request (.checkOpen o)
  | .bar connId id conid t => w.request (.bar connId id conid t)
  | .close connId id => w.request (.close connId id)
  | .dropConnection connId => w.request (.drop connId)
  | .next i a => (w.threads[i]?).elim w fun p => w.next c i a p
  | .childDies id =>
    match w.session? id with
    | some s => if s.child = .alive then w.put id { s with child := .ended } else w
    | none => w

def run (c : Config) (w : World) (acts : List Act) : World := acts.foldl (step c) w

end World

end MmrTrader.Sandbox

/-!
## Slots, sessions and children

* `duty`, `kept`, `held` — who still has to finish a session, and which session holds a slot.
* `SessionOk`, `ThreadOk`, `PoolsOk`, `BarsOk`, `Inv` — what holds between any two steps.
* `Threads.move` — a step of one thread that changes sessions keeps the invariant when it keeps it for each session.
-/

namespace MmrTrader.Sandbox

open Lib

/-! ## Who owes what -/

def Next.rest : Next → List Nat
  | .answer _ => []
  | .drop rest => rest

/-- The sessions that a drop took out of the table and has not come to. -/
def Phase.pending : Phase → List Nat
  | .dropping rest => rest
  | .closing _ next | .wiping _ next | .releasing _ _ next => next.rest
  | _ => []

/-- The session that a thread opens or finishes. -/
def Phase.holds : Phase → Option Nat
  | .spawn id | .loading id | .spawned id _ | .forget id _ | .closing id _ | .wiping id _ | .releasing id _ _ => some id
  | _ => none

/-- The session that a thread has a bar with. -/
def Phase.asks : Phase → Option Nat
  | .sending id _ _ | .answered id _ _ _ | .ending id _ => some id
  | _ => none

/-- How often a thread still has to finish the session; one without a child yet is its opener's. -/
def duty (opened : Bool) (id : Nat) (p : Phase) : Nat :=
  (if p.holds = some id then 1 else 0) + (if opened then p.pending.count id else 0)

def asking (id : Nat) (p : Phase) : Nat := if p.asks = some id then 1 else 0

/-- The session is open in the table: whoever takes it out will finish it. -/
def Session.kept (s : Session) : Nat := if s.inTable && s.handle.isSome then 1 else 0

def held (pool : PoolName) (slot : Slot) (s : Session) : Nat :=
  if s.pool = pool ∧ s.slot = slot ∧ s.released = 0 then 1 else 0

/-- No bar of the conid at `t` or later was accepted. -/
def Session.Later (s : Session) (conid t : Int) : Prop := ∀ last, s.lastT conid = some last → last < t

/-! ## What holds between steps -/

/-- The session of a thread that opens or finishes it. -/
def HolderOk (s : Session) : Phase → Prop
  | .spawn _ => s.handle = none ∧ s.child = .notStarted
  | .loading _ | .spawned _ _ => s.handle = none
  | .forget _ _ => s.handle = none ∧ s.child = .ended
  | .closing _ _ => s.inTable = false
  | .wiping _ _ => s.inTable = false ∧ s.child = .ended
  | .releasing _ clean _ => s.inTable = false ∧ s.child = .ended ∧ s.wiped = some clean
  | _ => True

/-- The session of a thread that has a bar with it. -/
def AskOk (s : Session) : Phase → Prop
  | .sending _ conid t | .answered _ conid t _ => s.handle.isSome ∧ s.busy = true ∧ s.Later conid t
  | .ending _ _ => s.handle.isSome ∧ s.busy = true
  | _ => True

structure ThreadOk (sessions : List Session) (p : Phase) : Prop where
  holder : ∀ id, p.holds = some id → ∃ s, sessions[id]? = some s ∧ HolderOk s p
  pending : ∀ id ∈ p.pending, ∃ s, sessions[id]? = some s ∧ s.inTable = false
  asker : ∀ id, p.asks = some id → ∃ s, sessions[id]? = some s ∧ AskOk s p

structure SessionOk (threads : List Phase) (id : Nat) (s : Session) : Prop where
  owned : s.released + tally (duty s.handle.isSome id) threads + s.kept = 1
  asked : tally (asking id) threads ≤ s.busy.toNat
  settled : 0 < s.released → s.inTable = false ∧ s.child = .ended ∧ s.wiped.isSome
  research : s.isProbe → s.pool = .research

structure PoolsOk (c : Config) (v : Supervisor) : Prop where
  conserved : ∀ pool slot, (v.freeSlots pool).count slot + (v.quarantined pool).count slot
    + tally (held pool slot) v.sessions = (c.slots pool).count slot
  dirty : ∀ s ∈ v.sessions, 0 < s.released → s.wiped ≠ some true → s.slot ∈ v.quarantined s.pool
  oneSession : ∀ (id id' : Nat) (s s' : Session), v.sessions[id]? = some s → v.sessions[id']? = some s' → s.inTable →
    s'.inTable → s.connId = s'.connId → id = id'

structure BarsOk (sessions : List Session) (accepted : List Bar) : Prop where
  increasing : accepted.Pairwise fun a b => a.session = b.session → a.conid = b.conid → a.t < b.t
  recorded : ∀ b ∈ accepted, ∃ s last, sessions[b.session]? = some s ∧ s.lastT b.conid = some last ∧ b.t ≤ last

/-- While there is a probe, no live session has a child or is still to start one. -/
structure ProbesOk (v : Supervisor) : Prop where
  listed : ∀ id : Nat, id ∈ v.probes ↔ ∃ s, v.sessions[id]? = some s ∧ s.isProbe ∧ s.released = 0
  apart : v.probes ≠ [] → ∀ s ∈ v.sessions, s.pool = .live → s.child = .ended

structure Threads (sessions : List Session) (threads : List Phase) : Prop where
  thread : ∀ p ∈ threads, ThreadOk sessions p
  session : ∀ (id : Nat) (s : Session), sessions[id]? = some s → SessionOk threads id s

/-- An OPEN_PROBE that passed `_check_open` is for the research pool. -/
def Phase.Checked : Phase → Prop
  | .readSource o | .reserve o => o.isProbe = true → o.pool = .research
  | _ => True

structure Inv (c : Config) (w : World) : Prop where
  agree : Threads w.sup.sessions w.threads
  pools : PoolsOk c w.sup
  bars : BarsOk w.sup.sessions w.accepted
  probes : ProbesOk w.sup
  checked : ∀ p ∈ w.threads, p.Checked

/-! ## Two threads never hold one session -/

variable {id : Nat}

theorem duty_of_holds (opened : Bool) {p : Phase} (h : p.holds = some id) : 1 ≤ duty opened id p := by
  simp [duty, h]

section
variable {i j k : Nat} {p q : Phase} {s : Session}
variable {threads : List Phase}

theorem SessionOk.holds_unique (h : SessionOk threads k s) (hp : threads[i]? = some p)
    (hq : threads[j]? = some q) (hpk : p.holds = some k) (hqk : q.holds = some k) : i = j := by
  by_contra hij
  have := add_le_tally (f := duty s.handle.isSome k) hp hq hij
  have := duty_of_holds s.handle.isSome hpk
  have := duty_of_holds s.handle.isSome hqk
  have := h.owned
  omega

theorem SessionOk.asks_unique (h : SessionOk threads k s) (hp : threads[i]? = some p)
    (hq : threads[j]? = some q) (hpk : p.asks = some k) (hqk : q.asks = some k) : i = j := by
  by_contra hij
  have := add_le_tally (f := asking k) hp hq hij
  have := h.asked
  have : s.busy.toNat ≤ 1 := Bool.toNat_le _
  simp only [asking, hpk, hqk, if_true] at *
  omega

end

/-! ## A step of one thread -/

/-- What a step from `p` to `p'` may do to the session `id`. -/
structure Local (p p' : Phase) (id : Nat) (s s' : Session) : Prop where
  opened : s'.handle.isSome = s.handle.isSome ∨ s.inTable = true
  owned : s'.released + duty s'.handle.isSome id p' + s'.kept = s.released + duty s.handle.isSome id p + s.kept
  asked : asking id p' + s.busy.toNat ≤ asking id p + s'.busy.toNat
  settled : 0 < s'.released → 0 < s.released ∨ s'.inTable = false ∧ s'.child = .ended ∧ s'.wiped.isSome
  stays : 0 < s.released → s'.inTable = s.inTable ∧ s'.child = s.child ∧ s'.wiped = s.wiped
  isProbe : s'.isProbe = s.isProbe
  pool : s'.pool = s.pool
  gone : s.inTable = false → s'.inTable = false
  holders : p.holds = some id ∨ ∀ q, HolderOk s q → HolderOk s' q
  askers : p.asks = some id ∨ ∀ q, AskOk s q → AskOk s' q
  holder : p'.holds = some id → HolderOk s' p'
  asker : p'.asks = some id → AskOk s' p'
  pending : id ∈ p'.pending → s'.inTable = false

theorem duty_eq_of_not_pending {p : Phase} (h : id ∉ p.pending) (b b' : Bool) : duty b id p = duty b' id p := by
  have : p.pending.count id = 0 := List.count_eq_zero.mpr h
  simp [duty, this]

section
variable {S S' : List Session} {T : List Phase} {i : Nat} {p p' : Phase}

theorem Local.total {id : Nat} {s s' : Session} (hl : Local p p' id s s') (hT : ∀ q ∈ T, ThreadOk S q)
    (hs : S[id]? = some s) (hp : T[i]? = some p) (ho : s.released + tally (duty s.handle.isSome id) T + s.kept = 1) :
    s'.released + tally (duty s'.handle.isSome id) (T.set i p') + s'.kept = 1 := by
  have hset := tally_set (f := duty s'.handle.isSome id) hp p'
  have hle := le_tally (f := duty s.handle.isSome id) hp
  have howned := hl.owned
  rcases hl.opened with h | h
  · rw [h] at hset howned ⊢
    omega
  · -- a session in the table is in no drop's list
    have hsame : ∀ q ∈ T, duty s'.handle.isSome id q = duty s.handle.isSome id q := by
      intro q hq
      refine duty_eq_of_not_pending (fun hmem => ?_) _ _
      obtain ⟨s₁, hs₁, hgone⟩ := (hT q hq).pending id hmem
      rw [hs] at hs₁
      cases hs₁
      rw [h] at hgone
      cases hgone
    rw [tally_congr hsame, hsame p (List.mem_of_getElem? hp)] at hset
    omega

theorem Threads.move (h : Threads S T) (hp : T[i]? = some p) (hlen : S'.length = S.length)
    (hnew : ∀ id, p'.holds = some id ∨ id ∈ p'.pending ∨ p'.asks = some id → id < S.length)
    (hl : ∀ (id : Nat) (s s' : Session), S[id]? = some s → S'[id]? = some s' → Local p p' id s s') :
    Threads S' (T.set i p') := by
  have hback : ∀ {id : Nat} {s' : Session}, S'[id]? = some s' → ∃ s, S[id]? = some s := by
    intro id s' hs'
    have := (List.getElem?_eq_some_iff.mp hs').1
    exact ⟨_, List.getElem?_eq_getElem (hlen ▸ this)⟩
  have hforth : ∀ {id : Nat}, id < S.length → ∃ s', S'[id]? = some s' := fun hid =>
    ⟨_, List.getElem?_eq_getElem (by omega)⟩
  have hforth' : ∀ {id : Nat} {s : Session}, S[id]? = some s → ∃ s', S'[id]? = some s' := fun hs =>
    hforth (List.getElem?_eq_some_iff.mp hs).1
  constructor
  · intro q hq
    obtain ⟨j, hj⟩ := List.mem_iff_getElem?.mp hq
    by_cases hij : i = j
    · -- the thread that took the step
      subst hij
      have hi : i < T.length := (List.getElem?_eq_some_iff.mp hp).1
      obtain rfl : p' = q := by simpa [List.getElem?_set_self hi] using hj
      have hat : ∀ {id : Nat}, p'.holds = some id ∨ id ∈ p'.pending ∨ p'.asks = some id →
          ∃ s s', S[id]? = some s ∧ S'[id]? = some s' := by
        intro id hid
        obtain ⟨s', hs'⟩ := hforth (hnew id hid)
        obtain ⟨s, hs⟩ := hback hs'
        exact ⟨s, s', hs, hs'⟩
      constructor
      · intro id hid
        obtain ⟨s, s', hs, hs'⟩ := hat (.inl hid)
        exact ⟨s', hs', (hl id s s' hs hs').holder hid⟩
      · intro id hid
        obtain ⟨s, s', hs, hs'⟩ := hat (.inr (.inl hid))
        exact ⟨s', hs', (hl id s s' hs hs').pending hid⟩
      · intro id hid
        obtain ⟨s, s', hs, hs'⟩ := hat (.inr (.inr hid))
        exact ⟨s', hs', (hl id s s' hs hs').asker hid⟩
    · rw [List.getElem?_set_ne hij] at hj
      have hq' := h.thread q (List.mem_of_getElem? hj)
      constructor
      · intro id hid
        obtain ⟨s, hs, hok⟩ := hq'.holder id hid
        obtain ⟨s', hs'⟩ := hforth' hs
        rcases (hl id s s' hs hs').holders with hpid | hkeep
        · exact absurd ((h.session id s hs).holds_unique hp hj hpid hid) hij
        · exact ⟨s', hs', hkeep q hok⟩
      · intro id hid
        obtain ⟨s, hs, hgone⟩ := hq'.pending id hid
        obtain ⟨s', hs'⟩ := hforth' hs
        exact ⟨s', hs', (hl id s s' hs hs').gone hgone⟩
      · intro id hid
        obtain ⟨s, hs, hok⟩ := hq'.asker id hid
        obtain ⟨s', hs'⟩ := hforth' hs
        rcases (hl id s s' hs hs').askers with hpid | hkeep
        · exact absurd ((h.session id s hs).asks_unique hp hj hpid hid) hij
        · exact ⟨s', hs', hkeep q hok⟩
  · intro id s' hs'
    obtain ⟨s, hs⟩ := hback hs'
    have hloc := hl id s s' hs hs'
    have hok := h.session id s hs
    refine ⟨hloc.total h.thread hs hp hok.owned, ?_, fun hr => ?_, fun hprobe => ?_⟩
    · have hset := tally_set (f := asking id) hp p'
      have hle := le_tally (f := asking id) hp
      have := hloc.asked
      have := hok.asked
      omega
    · rcases hloc.settled hr with hr' | hset
      · obtain ⟨h1, h2, h3⟩ := hok.settled hr'
        obtain ⟨e1, e2, e3⟩ := hloc.stays hr'
        exact ⟨e1 ▸ h1, e2 ▸ h2, e3 ▸ h3⟩
      · exact hset
    · rw [hloc.pool]
      exact hok.research (hloc.isProbe ▸ hprobe)

end

end MmrTrader.Sandbox
