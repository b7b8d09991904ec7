import Mathlib.Algebra.Order.Group.Abs
import Mathlib.Algebra.Order.Ring.Rat
import MmrTrader.Lib.Table
import MmrTrader.Rpc.Envelope

/-!
# The typed RPC server

Executable model of `ServiceIdentity.verify_request`, `ReplayNonceCache`, `TypedRpcRegistry` and
`TypedRpcServer._handle_request` (`trader/messaging/typed_rpc.py`, `trader/messaging/principals.py`).

* `ServiceIdentity` — a principal with its keyring; the signature scheme is ideal: what a key verifies, its principal
  has signed.
* `Registry.register` — the allow-list of each (role, method) comes from the access-control list.
* `Server`, `Server.step` — one process: the clock, the cache, the registry and the requests in flight.

Clock readings are rationals; what `decode_request`, a body model or a handler answers is an input.
-/

set_option autoImplicit false

namespace MmrTrader.Rpc

open Lib

/-! ## Principals -/

def KNOWN_PRINCIPALS : List String :=
  ["trader", "strategy", "cli", "dashboard", "ai_supervisor", "ai_research", "research", "ai_author"]

def CONTROLLER_PRINCIPAL : String := "ai_supervisor"

/-- `SERVER_ACCEPTS.get(principal, frozenset())`. -/
def serverAccepts : String → List String
  | "trader" => ["cli", "dashboard", "strategy", "ai_supervisor", "ai_research", "research", "ai_author"]
  | "strategy" => ["cli", "dashboard", "trader"]
  | "research" => ["ai_research", "cli"]
  | _ => []

/-- `[a-z][a-z_]{1,31}`, the whole name. -/
def matchesPrincipalName (name : String) : Bool :=
  match name.toList with
  | [] => false
  | c :: rest => c.isLower && decide (1 ≤ rest.length ∧ rest.length ≤ 31) && rest.all fun d => d.isLower || d = '_'

def isValidPrincipalName (name : String) : Bool := matchesPrincipalName name && KNOWN_PRINCIPALS.contains name

/-! ## Verification -/

inductive RpcError where
  | authentication (message : String)
  | replay (nonce : String)
  deriving DecidableEq

structure RpcCaller where
  principal : String
  onBehalfOf : Option String
  controllerEpoch : Option Int
  deriving DecidableEq

/-- What a principal's private key signs: `sign_request` and `sign_response`. -/
inductive Signed (F : Type) where
  | request (r : TypedRpcRequest F)
  | response (r : TypedRpcResponse F)

def Signed.bytes {F : Type} [PyFloat F] : Signed F → ByteArray
  | .request r => rpcSigningBytes r
  | .response r => responseSigningBytes r

/-- The allowed difference between a request's timestamp and the verifier's clock, in seconds. -/
def DEFAULT_CLOCK_SKEW_SECONDS : ℚ := 30

/-- How long a claimed nonce is remembered, in seconds. -/
def DEFAULT_NONCE_TTL_SECONDS : ℚ := 60

structure ServiceIdentity (F : Type) [PyFloat F] where
  principal : String
  Key : Type
  keyring : String → Option Key
  verifyBytes : Key → ByteArray → String → Bool
  /-- What each principal signs in its lifetime. -/
  signed : String → Signed F → Prop
  unforgeable : ∀ name key message signature, keyring name = some key → verifyBytes key message signature = true →
    ∃ m, signed name m ∧ m.bytes = message

/-- Claimed nonces and the readings they were claimed at, oldest first. -/
abbrev NonceCache := List (String × ℚ)

def NonceCache.evictExpired (cache : NonceCache) (now : ℚ) : NonceCache :=
  cache.filter fun e => ¬ DEFAULT_NONCE_TTL_SECONDS < now - e.2

/-- The part of `claim` under the lock. -/
def NonceCache.claim (cache : NonceCache) (now : ℚ) (nonce : String) : Except RpcError Unit × NonceCache :=
  let cache := cache.evictExpired now
  if cache.any (·.1 == nonce) then (.error (.replay nonce), cache) else (.ok (), cache ++ [(nonce, now)])

variable {F : Type} [PyFloat F]

/-- `verify_request`, up to the nonce claim. -/
def ServiceIdentity.checkRequest (S : ServiceIdentity F) (role : String) (now : ℚ) (request : TypedRpcRequest F) :
    Except RpcError RpcCaller :=
  if DEFAULT_CLOCK_SKEW_SECONDS < |now - PyFloat.value request.timestamp| then
    .error (.authentication "timestamp outside the 30.0s allowed clock skew")
  else if ¬ isValidPrincipalName request.principal ∨ request.principal ∉ serverAccepts S.principal then
    .error (.authentication "unknown principal")
  else
    match S.keyring request.principal with
    | none => .error (.authentication "unknown principal")
    | some key =>
      if S.verifyBytes key (rpcSigningBytes request) request.signature = false then
        .error (.authentication "signature mismatch")
      else if request.server ≠ S.principal ∨ request.role ≠ role then .error (.authentication "wrong destination")
      else if request.onBehalfOf ≠ none ∧
          (request.principal ≠ "trader" ∨ request.onBehalfOf.any (fun name => !isValidPrincipalName name)) then
        .error (.authentication "on_behalf_of is only accepted from trader")
      else if request.controllerEpoch ≠ none ∧ request.principal ≠ CONTROLLER_PRINCIPAL then
        .error (.authentication "controller_epoch is only accepted from ai_supervisor")
      else .ok ⟨request.principal, request.onBehalfOf, request.controllerEpoch⟩

/-! ## The registry -/

structure Registration where
  socketRole : String
  method : String
  allowedPrincipals : List String
  deriving DecidableEq

def Registration.key (r : Registration) : String × String := (r.socketRole, r.method)

abbrev Registry := Table Registration.key

/-- The access-control list of `trader.messaging.principals`; `none` is a registry without one. -/
abbrev Acl := Option (String × String → Option (List String))

def VALID_SOCKET_ROLES : List String := ["query", "command", "feed"]

def isMethodName (method : String) : Bool :=
  match method.toList with
  | [] => false
  | c :: rest => c ≠ '_' && !(c :: rest).contains '.'

def Acl.allowed (acl : Acl) (role method : String) : Option (List String) :=
  match acl with
  | none => some []
  | some entries => entries (role, method)

/-- `register`; `none` is `ValueError`. -/
def Registry.register (registry : Registry) (acl : Acl) (role method : String) : Option Registry :=
  if role ∉ VALID_SOCKET_ROLES ∨ ¬ isMethodName method then none
  else if registry.rows.any fun r => r.method = method ∧ r.socketRole ≠ role then none
  else
    match acl.allowed role method with
    | none => none
    | some allowed => registry.insert? ⟨role, method, allowed⟩

def Registry.unregister (registry : Registry) (role method : String) : Registry :=
  registry.deleteWhere fun r => r.key = (role, method)

def Registry.resolve (registry : Registry) (role method : String) : Option Registration := registry.get? (role, method)

/-! ## The server -/

structure Problem where
  code : String
  message : String
  deriving DecidableEq

/-- Where the request of a task stands; every one arrived on the socket of `role`. -/
inductive Phase (F : Type) where
  | decoded (role : String) (request : TypedRpcRequest F)
  /-- Every check but the nonce has passed. -/
  | checked (role : String) (request : TypedRpcRequest F) (caller : RpcCaller)
  /-- `claim` has read the clock. -/
  | claiming (role : String) (request : TypedRpcRequest F) (caller : RpcCaller) (now : ℚ)
  /-- `verify_request` has returned. -/
  | accepted (role : String) (request : TypedRpcRequest F) (caller : RpcCaller)
  | running (role : String) (request : TypedRpcRequest F)
  | replied (ok : Bool) (problem : Option Problem)

/-- An accepted request: the reading it was claimed at, and the latest reading of any claim since. -/
structure Acceptance (F : Type) where
  task : Nat
  role : String
  request : TypedRpcRequest F
  caller : RpcCaller
  claimedAt : ℚ
  latest : ℚ

/-- A handler that was called. -/
structure Dispatch (F : Type) where
  task : Nat
  role : String
  request : TypedRpcRequest F
  caller : RpcCaller

/-- One process.  `acceptances` and `dispatches` tell what it has done. -/
structure Server (F : Type) where
  clock : ℚ
  cache : NonceCache
  registry : Registry
  maxInFlight : Nat
  activeHandlers : String → Nat
  closing : String → Bool
  tasks : Nat → Option (Phase F)
  acceptances : List (Acceptance F)
  dispatches : List (Dispatch F)

inductive Act (F : Type) where
  | tick (seconds : Nat) (micros : Nat)
  | register (role method : String)
  | unregister (role method : String)
  | close (role : String)
  /-- A task starts on a message; `decoded` is what `decode_request` says. -/
  | receive (task : Nat) (role : String) (decoded : Except Problem (TypedRpcRequest F))
  /-- The next statement of a task; `answer` is what the body model or the handler says, its refusal included. -/
  | next (task : Nat) (answer : Except Problem Unit)
  | cancel (task : Nat)

def RpcError.problem : RpcError → Problem
  | .authentication message => ⟨"AUTHENTICATION_ERROR", message⟩
  | .replay nonce => ⟨"REPLAY_ERROR", "nonce already used: '" ++ nonce ++ "'"⟩

namespace Server

def set (s : Server F) (i : Nat) (p : Option (Phase F)) : Server F := { s with tasks := Function.update s.tasks i p }

/-- A refusal, sent unless the server is closing. -/
def refuse (s : Server F) (i : Nat) (problem : Problem) : Server F := s.set i (some (.replied false (some problem)))

/-- The claim of task `i`, under the lock. -/
def claim (s : Server F) (i : Nat) (role : String) (request : TypedRpcRequest F) (caller : RpcCaller)
    (now : ℚ) : Server F :=
  let heard := s.acceptances.map fun a => { a with latest := max a.latest now }
  match s.cache.claim now request.nonce with
  | (.error e, cache) => Server.refuse { s with cache := cache, acceptances := heard } i e.problem
  | (.ok (), cache) =>
    Server.set { s with cache := cache, acceptances := heard ++ [⟨i, role, request, caller, now, now⟩] } i
      (some (.accepted role request caller))

/-- The dispatch of an accepted request, to the call of its handler. -/
def dispatch (s : Server F) (i : Nat) (role : String) (request : TypedRpcRequest F) (caller : RpcCaller)
    (parsedBody : Except Problem Unit) : Server F :=
  match s.registry.resolve role request.method with
  | none => s.refuse i ⟨"METHOD_NOT_ALLOWED", "method '" ++ request.method ++ "' is not registered on the '" ++ role ++ "' socket"⟩
  | some registration =>
    if caller.principal ∉ registration.allowedPrincipals then
      s.refuse i ⟨"PERMISSION_DENIED", "principal '" ++ caller.principal ++ "' may not call '" ++ request.method ++ "'"⟩
    else
      match parsedBody with
      | .error problem => s.refuse i problem
      | .ok () =>
        if s.maxInFlight ≤ s.activeHandlers role then
          s.refuse i ⟨"SERVER_BUSY", "server command capacity is temporarily exhausted"⟩
        else
          Server.set { s with
            activeHandlers := Function.update s.activeHandlers role (s.activeHandlers role + 1)
            dispatches := s.dispatches ++ [⟨i, role, request, caller⟩] } i (some (.running role request))

/-- The `finally` of a handler. -/
def release (s : Server F) (role : String) : Server F :=
  { s with activeHandlers := Function.update s.activeHandlers role (s.activeHandlers role - 1) }

def next (S : ServiceIdentity F) (s : Server F) (i : Nat) (answer : Except Problem Unit) : Server F :=
  match s.tasks i with
  | some (.decoded role request) =>
    match S.checkRequest role s.clock request with
    | .error e => s.refuse i e.problem
    | .ok caller => s.set i (some (.checked role request caller))
  | some (.checked role request caller) => s.set i (some (.claiming role request caller s.clock))
  | some (.claiming role request caller now) => s.claim i role request caller now
  | some (.accepted role request caller) => s.dispatch i role request caller answer
  | some (.running role _) =>
    match answer with
    | .ok () => (s.release role).set i (some (.replied true none))
    | .error problem => (s.release role).refuse i problem
  | _ => s

def step (S : ServiceIdentity F) (acl : Acl) (s : Server F) : Act F → Server F
  | .tick seconds micros => { s with clock := s.clock + seconds + micros / 1000000 }
  | .register role method =>
    match s.registry.register acl role method with
    | none => s
    | some registry => { s with registry := registry }
  | .unregister role method => { s with registry := s.registry.unregister role method }
  | .close role => { s with closing := Function.update s.closing role true }
  | .receive i role decoded =>
    if s.closing role then s
    else
      match decoded with
      | .error problem => s.refuse i problem
      | .ok request => s.set i (some (.decoded role request))
  | .next i answer => s.next S i answer
  | .cancel i =>
    match s.tasks i with
    | some (.running role _) => (s.release role).set i none
    | _ => s.set i none

def start (clock : ℚ) (maxInFlight : Nat) : Server F :=
  ⟨clock, [], Table.empty, maxInFlight, fun _ => 0, fun _ => false, fun _ => none, [], []⟩

end Server

end MmrTrader.Rpc
