import MmrTrader.Broker.Observation
import MmrTrader.Broker.State

/-!
# Order identity

Executable model of `trader/trading/order_correlation.py`.

* `resolve` — `OrderCorrelator.resolve_in_tx`: perm id, then the session's order id, then group and
  leg, else a minted identity;
* `bindAliases` — `OrderCorrelator.bind_aliases_in_tx`.

`\d` of the regular expressions is a decimal digit of any script, as in a text pattern of Python.
-/

set_option autoImplicit false

namespace MmrTrader.Broker

open MmrTrader.Lib

/-! ## Order refs -/

def ORDER_REF_PREFIX : String := "mmr:"

def encodeOrderRef (orderGroupId : String) : String := ORDER_REF_PREFIX ++ orderGroupId

def decodeOrderRef (orderRef : Option String) : Option String :=
  match orderRef with
  | none => none
  | some ref =>
      match ORDER_REF_PREFIX.toList.isPrefixOf? ref.toList with
      | some (c :: rest) => some (String.ofList (c :: rest))
      | _ => none

def LIQUIDATION_CHILD_KINDS : List String := ["cancel", "reduce", "reprotect-stop", "reprotect-target"]

/-- The zeros of the scripts that have decimal digits (Unicode 15.0, category `Nd`); nine more follow each. -/
def DECIMAL_ZEROS : List Nat :=
  [0x30, 0x660, 0x6f0, 0x7c0, 0x966, 0x9e6, 0xa66, 0xae6, 0xb66, 0xbe6, 0xc66, 0xce6, 0xd66, 0xde6, 0xe50, 0xed0, 0xf20,
   0x1040, 0x1090, 0x17e0, 0x1810, 0x1946, 0x19d0, 0x1a80, 0x1a90, 0x1b50, 0x1bb0, 0x1c40, 0x1c50, 0xa620, 0xa8d0,
   0xa900, 0xa9d0, 0xa9f0, 0xaa50, 0xabf0, 0xff10, 0x104a0, 0x10d30, 0x11066, 0x110f0, 0x11136, 0x111d0, 0x112f0,
   0x11450, 0x114d0, 0x11650, 0x116c0, 0x11730, 0x118e0, 0x11950, 0x11c50, 0x11d50, 0x11da0, 0x11f50, 0x16a60, 0x16ac0,
   0x16b50, 0x1d7ce, 0x1d7d8, 0x1d7e2, 0x1d7ec, 0x1d7f6, 0x1e140, 0x1e2f0, 0x1e4f0, 0x1e950, 0x1fbf0]

/-- `\d`. -/
def isDecimal (c : Char) : Bool := DECIMAL_ZEROS.any fun z => z ≤ c.toNat && c.toNat < z + 10

/-- What is left of a reversed text after `\d+`. -/
def afterDigits : List Char → Option (List Char)
  | c :: rest => if isDecimal c then some (rest.dropWhile isDecimal) else none
  | [] => none

/-- What is left of a reversed text after `text`. -/
def afterText (text : String) (s : List Char) : Option (List Char) := text.toList.reverse.isPrefixOf? s

/-- `$` also matches before a final newline. -/
def dropNewline : List Char → List Char
  | '\n' :: rest => rest
  | s => s

/-- The kind in a match of `_LIQUIDATION_CHILD`, read from the end of the text. -/
def matchLiquidationChild (group : String) : Option String := do
  let s ← afterDigits (dropNewline group.toList.reverse)
  let s ← afterText "-" s
  let s ← afterDigits s
  LIQUIDATION_CHILD_KINDS.find? fun kind => (afterText ("-" ++ kind ++ "-") s).isSome

/-- Whether `_LEGACY_REDUCE` matches. -/
def matchesLegacyReduce (group : String) : Bool :=
  ((afterDigits (dropNewline group.toList.reverse)).bind (afterText "-liquidation-reduce-")).isSome

def liquidationChildKind (orderGroupId : Option String) : Option String :=
  let group := orderGroupId.getD ""
  match matchLiquidationChild group with
  | some kind => some kind
  | none => if matchesLegacyReduce group then some "reduce" else none

def STOP_TYPES : List String := ["STP", "STP LMT", "TRAIL", "TRAIL LIMIT"]

def classifyLeg (orderType : String) (parentId clientOrderId : Int) (orderGroupId : Option String) : String :=
  match liquidationChildKind orderGroupId with
  | some "reprotect-stop" => "stop"
  | some "reprotect-target" => "take_profit"
  | some "reduce" => "exit"
  | _ =>
      if parentId = 0 then "entry"
      else if STOP_TYPES.contains orderType then "stop"
      else if orderType = "LMT" then "take_profit"
      else "child-" ++ toString clientOrderId

/-! ## Identity -/

def orderGroupLegEntityId (orderGroupId leg : String) : String := orderGroupId ++ ":" ++ leg

/-- `external_order_entity_id`, for the `uuid4` it drew. -/
def externalOrderEntityId (uuid : String) : String := "ext:" ++ uuid

def permKey (accountId : String) (permId : Int) : AliasKey := ⟨.permId, toString permId, accountId, ""⟩

def clientKey (accountId sessionEpoch : String) (clientOrderId : Int) : AliasKey :=
  ⟨.clientOrderId, toString clientOrderId, accountId, sessionEpoch⟩

def parentKey (accountId sessionEpoch : String) (parentId : Int) : AliasKey :=
  ⟨.parentId, toString parentId, accountId, sessionEpoch⟩

def refKey (accountId ref : String) : AliasKey := ⟨.orderRef, ref, accountId, ""⟩

/-- The order found by perm id; an order without one is not looked up. -/
def BrokerRows.byPermId (db : BrokerRows) (accountId : String) (permId : Int) : Option String :=
  if permId = 0 then none else db.findOrderByAlias (permKey accountId permId)

def BrokerRows.byClientOrderId (db : BrokerRows) (accountId sessionEpoch : String) (clientOrderId : Int) : Option String :=
  if clientOrderId = 0 then none else db.findOrderByAlias (clientKey accountId sessionEpoch clientOrderId)

/-- The identity of last resort: group and leg, or a minted one. -/
def nameOrMint (obs : OrderObservation) (uuid : String) : String :=
  match decodeOrderRef obs.orderRef with
  | some group => orderGroupLegEntityId group (classifyLeg obs.orderType obs.parentId obs.clientOrderId (some group))
  | none => externalOrderEntityId uuid

def resolve (sessionEpoch uuid : String) (db : BrokerRows) (obs : OrderObservation) : String :=
  match db.byPermId obs.accountId obs.permId with
  | some entity => entity
  | none =>
      match db.byClientOrderId obs.accountId sessionEpoch obs.clientOrderId with
      | some entity => entity
      | none => nameOrMint obs uuid

/-- One alias of `bind_aliases_in_tx`; an identifier the order does not have binds nothing. -/
def BrokerRows.bindWhen (db : BrokerRows) (present : Bool) (key : AliasKey) (entityId : String) (boundAt : Int) :
    BrokerRows :=
  if present then db.bindAlias key entityId boundAt else db

def bindAliases (sessionEpoch : String) (db : BrokerRows) (entityId : String) (obs : OrderObservation) : BrokerRows :=
  let boundAt := obs.sourceTimestamp.instant
  let db := db.bindWhen (obs.permId ≠ 0) (permKey obs.accountId obs.permId) entityId boundAt
  let db := db.bindWhen (obs.clientOrderId ≠ 0) (clientKey obs.accountId sessionEpoch obs.clientOrderId) entityId boundAt
  let db := db.bindWhen (obs.parentId ≠ 0) (parentKey obs.accountId sessionEpoch obs.parentId) entityId boundAt
  match obs.orderRef with
  | some ref => db.bindWhen (ref ≠ "") (refKey obs.accountId ref) entityId boundAt
  | none => db

end MmrTrader.Broker

/-!
## Applying broker observations

Executable model of the appliers of `BrokerIngest` (`trader/trading/broker_ingest.py`).

* `mergeAccountValue`, `mergePosition`, `mergeOrder` — the row an observation leads to;
* `applyAccountValue`, `applyPosition`, `applyPnl`, `applyOrder`, `applyFill`, `applyCommission`,
  `applyRecord` — one observation; each is one piece of work that runs on committed state
  (`Work.autocommit`, the live path) or inside one open transaction (`Work.run`);

`Ingest` holds what an ingest is configured with and what it draws from outside: the clock, the
`uuid4` values and the journal's arrival times, each a function of the rows at the time.
The attribution ledger is written by side effects that never touch these tables; it is left out.
`applyOrder` returns the row it wrote, for the saga notification that follows a live write.
-/

namespace MmrTrader.Broker

open MmrTrader.Lib
open MmrTrader.Journal (DomainMutation JournalRow JournalState Work Tables Operation Payload)

abbrev BrokerTables := Tables Cell (BrokerDb PyValue)

abbrev BrokerJournal := JournalState Cell (BrokerDb PyValue)

inductive IngestError where
  | undecodable
  | fillNotPersisted
  | stagingKey
  deriving DecidableEq

abbrev IngestWork (α : Type) := Work Cell (BrokerDb PyValue) IngestError α

structure Ingest where
  accountId : String
  accountMode : String
  sessionEpoch : String
  /-- `float(text)`; `none` is `ValueError`. -/
  float : String → Option ℚ
  clock : DateTime
  uuid4 : BrokerRows → String
  eventId : List (JournalRow Cell) → String
  utcnow : List (JournalRow Cell) → Int
  /-- A `uuid4` has never been drawn before. -/
  uuid4_fresh : ∀ rows : BrokerRows, ∀ r ∈ rows.aliases.rows, r.orderEntityId ≠ externalOrderEntityId (uuid4 rows)
  eventId_fresh : ∀ journal, ∀ r ∈ journal, r.eventId ≠ eventId journal

/-! ## Merging -/

/-- `_ACCOUNT_TAG_COLUMNS`, as the update of one column. -/
def setAccountColumn (row : BrokerAccountRow) (tag : String) (value : ℚ) : BrokerAccountRow :=
  if tag = "NetLiquidation" then { row with netLiquidation := some value }
  else if tag = "TotalCashValue" then { row with totalCash := some value }
  else if tag = "BuyingPower" then { row with buyingPower := some value }
  else if tag = "AvailableFunds" then { row with availableFunds := some value }
  else if tag = "MaintMarginReq" then { row with maintenanceMargin := some value }
  else row

/-- `balances[key] = value`. -/
def setBalance (balances : List (String × String)) (key value : String) : List (String × String) :=
  if balances.any (·.1 == key) then balances.map fun kv => if kv.1 = key then (key, value) else kv
  else balances ++ [(key, value)]

def mergeAccountValue (I : Ingest) (current : Option BrokerAccountRow) (obs : AccountValueObservation) :
    BrokerAccountRow :=
  let key := obs.tag ++ ":" ++ obs.currency
  let base : BrokerAccountRow := match current with
    | some row => row
    | none => ⟨obs.accountId, I.accountMode, none, none, none, none, none, [], 0, 0⟩
  let row := { base with
    accountId := obs.accountId
    accountMode := I.accountMode
    balances := setBalance base.balances key obs.value
    sourceTimestamp := obs.sourceTimestamp.instant }
  if obs.currency = "BASE" then row else
  match I.float obs.value with
  | some value => setAccountColumn row obs.tag value
  | none => row

def mergePosition (current : Option BrokerPositionRow) (obs : PositionObservation) : BrokerPositionRow :=
  let prior := current.filter fun row => !row.deleted
  { accountId := obs.accountId
    conid := obs.conid
    symbol := obs.symbol
    secType := obs.secType
    exchange := obs.exchange.or (prior.bind (·.exchange))
    currency := obs.currency
    quantity := obs.quantity
    averageCost := obs.averageCost.or (prior.bind (·.averageCost))
    marketPrice := obs.marketPrice.or (prior.bind (·.marketPrice))
    marketValue := obs.marketValue.or (prior.bind (·.marketValue))
    unrealizedPnl := obs.unrealizedPnl.or (prior.bind (·.unrealizedPnl))
    realizedPnl := obs.realizedPnl.or (prior.bind (·.realizedPnl))
    dailyPnl := obs.dailyPnl.or (prior.bind (·.dailyPnl))
    deleted := false
    revision := (current.map (·.revision)).getD 0
    sourceTimestamp := obs.sourceTimestamp.instant }

/-- A text, where the empty one counts as absent. -/
def textOr (text other : Option String) : Option String :=
  match text with
  | some s => if s = "" then other else some s
  | none => other

def orderLeg (obs : OrderObservation) (groupId : Option String) (current : Option BrokerOrderRow) : Option String :=
  let classified := groupId.map fun _ => classifyLeg obs.orderType obs.parentId obs.clientOrderId groupId
  if groupId.isSome && (liquidationChildKind groupId).isSome then classified
  else textOr (current.bind (·.leg)) classified

/-- The row `_apply_order` leads to. -/
def mergeOrder (entityId : String) (current : Option BrokerOrderRow) (obs : OrderObservation) : BrokerOrderRow :=
  let groupId := decodeOrderRef obs.orderRef
  { orderEntityId := entityId
    accountId := obs.accountId
    conid := obs.conid
    symbol := obs.symbol
    orderGroupId := groupId.or (current.bind (·.orderGroupId))
    leg := orderLeg obs groupId current
    isExternal := match current with
      | none => groupId.isNone
      | some row => row.isExternal
    action := obs.action
    orderType := obs.orderType
    totalQuantity := obs.totalQuantity
    filledQuantity := obs.filledQuantity
    avgFillPrice := obs.avgFillPrice.or (current.bind (·.avgFillPrice))
    limitPrice := obs.limitPrice.or (current.bind (·.limitPrice))
    stopPrice := obs.stopPrice.or (current.bind (·.stopPrice))
    tif := textOr obs.tif (current.bind (·.tif))
    status := obs.status
    deleted := false
    revision := (current.map (·.revision)).getD 0
    sourceTimestamp := obs.sourceTimestamp.instant
    ocaGroup := if obs.ocaReported then obs.ocaGroup else current.bind (·.ocaGroup)
    ocaType := if obs.ocaReported then obs.ocaType else current.bind (·.ocaType) }

/-! ## Mutations -/

def upsertMutation (eventType entityType entityId accountId : String) (sourceTimestamp : Int) (payload : Payload Cell) :
    DomainMutation Cell where
  eventType := eventType
  entityType := entityType
  entityId := entityId
  operation := .upsert
  accountId := some accountId
  source := "trader_service"
  sourceTimestamp := sourceTimestamp
  correlationId := none
  payload := some payload
  payload_iff_upsert := rfl

def deleteMutation (eventType entityType entityId accountId : String) (sourceTimestamp : Int) : DomainMutation Cell where
  eventType := eventType
  entityType := entityType
  entityId := entityId
  operation := .delete
  accountId := some accountId
  source := "trader_service"
  sourceTimestamp := sourceTimestamp
  correlationId := none
  payload := none
  payload_iff_upsert := rfl

/-- `SELECT` on the connection. -/
def readDb : IngestWork (BrokerDb PyValue) := .read fun t => .done t.own

/-- A write outside any mutation. -/
def writeRows (write : BrokerRows → BrokerRows) : IngestWork Unit :=
  .writeOwn (fun db => .ok { db with rows := write db.rows }) (.done ())

/-- `emit`: one journal mutation with its materialized write. -/
def emit (I : Ingest) (m : DomainMutation Cell) (write : BrokerDb PyValue → Nat → BrokerDb PyValue) : IngestWork Unit :=
  .read fun t => .append m (fun t revision => .ok (write t.own revision)) (I.eventId t.journal) (I.utcnow t.journal)
    fun _ => .done ()

def emitRows (I : Ingest) (m : DomainMutation Cell) (write : BrokerRows → Nat → BrokerRows) : IngestWork Unit :=
  emit I m fun db revision => { db with rows := write db.rows revision }

/-! ## Accounts and positions -/

def applyAccountValue (I : Ingest) (obs : AccountValueObservation) : IngestWork Unit := do
  let db ← readDb
  let current := db.rows.getAccount obs.accountId
  let merged := mergeAccountValue I current obs
  if current.any merged.sameFields then return ()
  emitRows I (upsertMutation "account.updated" "account" obs.accountId obs.accountId obs.sourceTimestamp.instant
    merged.toPayload) fun rows revision => rows.upsertAccount { merged with revision := revision }

def applyPosition (I : Ingest) (obs : PositionObservation) : IngestWork Unit := do
  let db ← readDb
  let current := db.rows.getPosition obs.accountId obs.conid
  let entityId := positionEntityId obs.accountId obs.conid
  let time := obs.sourceTimestamp.instant
  if obs.quantity = 0 then
    if current.all (·.deleted) then return ()
    emitRows I (deleteMutation "position.updated" "position" entityId obs.accountId time)
      fun rows revision => rows.tombstonePosition obs.accountId obs.conid revision time
  else
    let merged := mergePosition current obs
    if current.any fun row => !row.deleted && merged.sameFields row then return ()
    emitRows I (upsertMutation "position.updated" "position" entityId obs.accountId time merged.toPayload)
      fun rows revision => rows.upsertPosition { merged with revision := revision }

def applyPnl (I : Ingest) (obs : PnLObservation) : IngestWork Unit := do
  let db ← readDb
  match db.rows.getPosition obs.accountId obs.conid with
  | none => return ()
  | some current =>
      if current.deleted then return ()
      let revised := { current with
        dailyPnl := obs.dailyPnl.or current.dailyPnl
        unrealizedPnl := obs.unrealizedPnl.or current.unrealizedPnl
        realizedPnl := obs.realizedPnl.or current.realizedPnl
        sourceTimestamp := obs.sourceTimestamp.instant }
      if revised.sameFields current then return ()
      emitRows I (upsertMutation "position.updated" "position" (positionEntityId obs.accountId obs.conid) obs.accountId
        obs.sourceTimestamp.instant revised.toPayload)
        fun rows revision => rows.upsertPosition { revised with revision := revision }

/-! ## Fills -/

def resolveFillOrder (I : Ingest) (rows : BrokerRows) (obs : FillObservation) : Option String :=
  match rows.byPermId obs.accountId obs.permId with
  | some entity => some entity
  | none => rows.byClientOrderId obs.accountId I.sessionEpoch obs.clientOrderId

def fillRow (I : Ingest) (rows : BrokerRows) (obs : FillObservation) : BrokerFillRow where
  accountId := obs.accountId
  execId := obs.execId
  orderEntityId := resolveFillOrder I rows obs
  permId := if obs.permId = 0 then none else some obs.permId
  clientOrderId := if obs.clientOrderId = 0 then none else some obs.clientOrderId
  sessionEpoch := I.sessionEpoch
  conid := obs.conid
  side := obs.side
  quantity := obs.quantity
  price := obs.price
  commission := none
  commissionCurrency := none
  realizedPnl := none
  fillTime := obs.fillTime.instant
  revision := 0
  sourceTimestamp := obs.sourceTimestamp.instant

def emitFill (I : Ingest) (eventType : String) (row : BrokerFillRow) : IngestWork Unit :=
  emitRows I (upsertMutation eventType "fill" (fillEntityId row.accountId row.execId) row.accountId row.sourceTimestamp
    row.toPayload) fun rows revision => rows.upsertFill { row with revision := revision }

def applyFill (I : Ingest) (obs : FillObservation) : IngestWork Unit := do
  let db ← readDb
  if (db.rows.getFill obs.accountId obs.execId).isSome then return ()
  emitFill I "fill.received" (fillRow I db.rows obs)

def applyCommission (I : Ingest) (obs : CommissionObservation) : IngestWork Unit := do
  applyFill I obs.fill
  let db ← readDb
  match db.rows.getFill obs.fill.accountId obs.fill.execId with
  | none => .fail .fillNotPersisted
  | some current =>
      let revised := { current with
        commission := some obs.commission
        commissionCurrency := some obs.currency
        realizedPnl := obs.realizedPnl
        sourceTimestamp := obs.fill.sourceTimestamp.instant }
      if revised.sameFields current then return ()
      emitFill I "fill.updated" revised

/-! ## Orders -/

/-- A fill without an order that belongs to this observation. -/
def fillMatches (I : Ingest) (obs : OrderObservation) (fill : BrokerFillRow) : Bool :=
  (obs.permId ≠ 0 && fill.permId == some obs.permId) ||
    (obs.clientOrderId ≠ 0 && fill.clientOrderId == some obs.clientOrderId && fill.sessionEpoch == I.sessionEpoch)

/-- The loop of `_resolve_unbound_fills_in_tx`. -/
def bindFills (I : Ingest) (obs : OrderObservation) (entityId : String) : List BrokerFillRow → IngestWork Unit
  | [] => return ()
  | fill :: rest => do
      if fillMatches I obs fill then
        emitFill I "fill.updated" { fill with
          orderEntityId := some entityId
          sourceTimestamp := obs.sourceTimestamp.instant }
      bindFills I obs entityId rest

def resolveUnboundFills (I : Ingest) (obs : OrderObservation) (entityId : String) : IngestWork Unit := do
  let db ← readDb
  bindFills I obs entityId (db.rows.unboundFills obs.accountId)

def writeOrder (I : Ingest) (obs : OrderObservation) (eventGeneration : Option Nat) (merged : BrokerOrderRow)
    (db : BrokerDb PyValue) (revision : Nat) : BrokerDb PyValue :=
  let rows := (bindAliases I.sessionEpoch db.rows merged.orderEntityId obs).upsertOrder { merged with revision := revision }
  let generation := match eventGeneration with
    | some generation => some generation
    | none => db.latestPromotedGeneration
  { db with rows := rows }.recordOrderEvent generation obs.permId obs.clientOrderId merged obs.sourceTimestamp.instant

/-- The first part of `_apply_order`, up to the order's own write: the entity, and the row when it
    changed. -/
def recordOrder (I : Ingest) (obs : OrderObservation) (eventGeneration : Option Nat) :
    IngestWork (String × Option BrokerOrderRow) :=
  .read fun t => do
    let entityId := resolve I.sessionEpoch (I.uuid4 t.own.rows) t.own.rows obs
    let current := t.own.rows.getOrder entityId
    let merged := mergeOrder entityId current obs
    if current.any fun row => !row.deleted && merged.sameFields row then
      writeRows fun rows => bindAliases I.sessionEpoch rows entityId obs
      return (entityId, none)
    else
      emit I (upsertMutation "order.updated" "order" entityId obs.accountId obs.sourceTimestamp.instant merged.toPayload)
        (writeOrder I obs eventGeneration merged)
      return (entityId, some merged)

def applyOrder (I : Ingest) (obs : OrderObservation) (eventGeneration : Option Nat) :
    IngestWork (String × Option BrokerOrderRow) := do
  let recorded ← recordOrder I obs eventGeneration
  resolveUnboundFills I obs recorded.1
  return recorded

def tombstoneOrder (I : Ingest) (now : Int) (row : BrokerOrderRow) : IngestWork Unit :=
  emitRows I (deleteMutation "order.updated" "order" row.orderEntityId row.accountId now)
    fun rows revision => rows.tombstoneOrder row.orderEntityId revision now

/-- `_apply_record`: the changed order, if it was one. -/
def applyRecord (I : Ingest) : Observation → IngestWork (Option BrokerOrderRow)
  | .accountValue o => do applyAccountValue I o; return none
  | .position o => do applyPosition I o; return none
  | .pnl o => do applyPnl I o; return none
  | .order o => do return (← applyOrder I o none).2
  | .fill o => do applyFill I o; return none
  | .commission o => do applyCommission I o; return none

/-! ## Promotion -/

/-- The row `_stage` writes. -/
def stagedRow (generationId ingestSeq : Nat) (record : Observation) : StagedRow PyValue where
  generationId := generationId
  ingestSeq := ingestSeq
  source := "snapshot"
  entityType := (canonicalKey record).1
  canonicalKey := (canonicalKey record).1 ++ ":" ++ (canonicalKey record).2
  recordKind := record.kind
  recordJson := encodeObservation record

/-- What the staged observations named. -/
structure Observed where
  positions : List (String × Int)
  orders : List String

def replayStaged (I : Ingest) (generationId : Nat) (observed : Observed) : Observation → IngestWork Observed
  | .position o => do
      applyPosition I o
      return { observed with positions := (o.accountId, o.conid) :: observed.positions }
  | .order o => do
      let (entityId, _) ← applyOrder I o (some generationId)
      return { observed with orders := entityId :: observed.orders }
  | record => do
      let _ ← applyRecord I record
      return observed

def replayAll (I : Ingest) (generationId : Nat) : List (StagedRow PyValue) → Observed → IngestWork Observed
  | [], observed => return observed
  | staged :: rest, observed =>
      match decodeObservation staged.recordKind staged.recordJson with
      | none => .fail .undecodable
      | some record => do
          let observed ← replayStaged I generationId observed record
          replayAll I generationId rest observed

/-- The flat observation of a position the broker no longer lists. -/
def flatPosition (row : BrokerPositionRow) (now : DateTime) : PositionObservation where
  accountId := row.accountId
  conid := row.conid
  symbol := row.symbol
  secType := row.secType
  exchange := row.exchange
  currency := row.currency
  quantity := 0
  averageCost := none
  marketPrice := none
  marketValue := none
  unrealizedPnl := none
  realizedPnl := none
  dailyPnl := none
  sourceTimestamp := now

def each {β : Type} (f : β → IngestWork Unit) : List β → IngestWork Unit
  | [] => return ()
  | x :: rest => do f x; each f rest

/-- The enumerable-set absence checks. -/
def tombstoneAbsent (I : Ingest) (observed : Observed) : IngestWork Unit := do
  let db ← readDb
  each (fun row => applyPosition I (flatPosition row I.clock)) (db.rows.selectActivePositions.filter fun row =>
    row.accountId == I.accountId && !observed.positions.contains row.key)
  let db ← readDb
  each (tombstoneOrder I I.clock.instant) (db.rows.selectWorkingOrders.filter fun row =>
    row.accountId == I.accountId && !observed.orders.contains row.orderEntityId)

def promoteInTransaction (I : Ingest) (generationId : Nat) : IngestWork Nat := do
  let db ← readDb
  let observed ← replayAll I generationId (db.stagedRows generationId) ⟨[], []⟩
  tombstoneAbsent I observed
  .read fun t => do
    let cursor := Journal.newestCursor t.journal
    .writeOwn (fun db => .ok ((db.markGenerationPromoted generationId cursor I.clock.instant).purgeStaging generationId))
      (.done cursor)

end MmrTrader.Broker
