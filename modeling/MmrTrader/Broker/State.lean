import Mathlib.Data.List.Sort
import Mathlib.Algebra.Order.Ring.Rat
import MmrTrader.Journal.Model

/-!
# The broker tables

Executable model of `BrokerStateStore` (`trader/data/broker_state.py`) and of the order status
history (`trader/data/broker_order_events.py`).

* one row type for each table, with `sameFields` (the revision and the source timestamp do not
  count) and `toPayload`;
* `BrokerDb` — the tables the ingest owns; `BrokerRows` are the account, position, order, fill and
  alias rows among them;
* the store's `_in_tx` functions as functions on these tables.

Floats are rationals, instants are UTC microseconds.  `updated_at` is never read and left out.
-/

set_option autoImplicit false

namespace MmrTrader.Broker

open MmrTrader.Lib
open MmrTrader.Journal (Payload JsonValue)

/-- A JSON value of a row's payload; `time` is an ISO text of a UTC instant. -/
inductive Cell where
  | null
  | bool (b : Bool)
  | int (n : Int)
  | num (x : ℚ)
  | str (s : String)
  | time (t : Int)
  | dict (entries : List (String × String))
  deriving DecidableEq

instance : JsonValue Cell where
  isMissing
    | .null => true
    | .str s => s.isEmpty
    | .dict entries => entries.isEmpty
    | _ => false

def Cell.ofNum (x : Option ℚ) : Cell := x.elim .null .num

def Cell.ofStr (s : Option String) : Cell := s.elim .null .str

def Cell.ofInt (n : Option Int) : Cell := n.elim .null .int

/-! ## Rows -/

structure BrokerAccountRow where
  accountId : String
  accountMode : String
  netLiquidation : Option ℚ
  totalCash : Option ℚ
  buyingPower : Option ℚ
  availableFunds : Option ℚ
  maintenanceMargin : Option ℚ
  balances : List (String × String)
  revision : Nat
  sourceTimestamp : Int
  deriving DecidableEq

def BrokerAccountRow.toPayload (r : BrokerAccountRow) : Payload Cell :=
  [("account_id", .str r.accountId), ("account_mode", .str r.accountMode),
   ("net_liquidation", .ofNum r.netLiquidation), ("total_cash", .ofNum r.totalCash),
   ("buying_power", .ofNum r.buyingPower), ("available_funds", .ofNum r.availableFunds),
   ("maintenance_margin", .ofNum r.maintenanceMargin), ("balances", .dict r.balances),
   ("revision", .int r.revision), ("source_timestamp", .time r.sourceTimestamp),
   ("entity_id", .str r.accountId), ("entity_revision", .int r.revision)]

structure BrokerPositionRow where
  accountId : String
  conid : Int
  symbol : String
  secType : String
  exchange : Option String
  currency : String
  quantity : ℚ
  averageCost : Option ℚ
  marketPrice : Option ℚ
  marketValue : Option ℚ
  unrealizedPnl : Option ℚ
  realizedPnl : Option ℚ
  dailyPnl : Option ℚ
  deleted : Bool
  revision : Nat
  sourceTimestamp : Int
  deriving DecidableEq

def positionEntityId (accountId : String) (conid : Int) : String := accountId ++ ":" ++ toString conid

/-- `UNIQUE (account_id, conid)`. -/
def BrokerPositionRow.key (r : BrokerPositionRow) : String × Int := (r.accountId, r.conid)

def BrokerPositionRow.toPayload (r : BrokerPositionRow) : Payload Cell :=
  [("account_id", .str r.accountId), ("conid", .int r.conid), ("symbol", .str r.symbol),
   ("sec_type", .str r.secType), ("exchange", .ofStr r.exchange), ("currency", .str r.currency),
   ("quantity", .num r.quantity), ("average_cost", .ofNum r.averageCost), ("market_price", .ofNum r.marketPrice),
   ("market_value", .ofNum r.marketValue), ("unrealized_pnl", .ofNum r.unrealizedPnl),
   ("realized_pnl", .ofNum r.realizedPnl), ("daily_pnl", .ofNum r.dailyPnl), ("deleted", .bool r.deleted),
   ("revision", .int r.revision), ("source_timestamp", .time r.sourceTimestamp),
   ("entity_id", .str (positionEntityId r.accountId r.conid)), ("entity_revision", .int r.revision)]

structure BrokerOrderRow where
  orderEntityId : String
  accountId : String
  conid : Int
  symbol : String
  orderGroupId : Option String
  leg : Option String
  isExternal : Bool
  action : String
  orderType : String
  totalQuantity : ℚ
  filledQuantity : ℚ
  avgFillPrice : Option ℚ
  limitPrice : Option ℚ
  stopPrice : Option ℚ
  tif : Option String
  status : String
  deleted : Bool
  revision : Nat
  sourceTimestamp : Int
  ocaGroup : Option String
  ocaType : Option Int
  deriving DecidableEq

def BrokerOrderRow.toPayload (r : BrokerOrderRow) : Payload Cell :=
  [("order_entity_id", .str r.orderEntityId), ("account_id", .str r.accountId), ("conid", .int r.conid),
   ("symbol", .str r.symbol), ("order_group_id", .ofStr r.orderGroupId), ("leg", .ofStr r.leg),
   ("is_external", .bool r.isExternal), ("action", .str r.action), ("order_type", .str r.orderType),
   ("total_quantity", .num r.totalQuantity), ("filled_quantity", .num r.filledQuantity),
   ("avg_fill_price", .ofNum r.avgFillPrice), ("limit_price", .ofNum r.limitPrice),
   ("stop_price", .ofNum r.stopPrice), ("tif", .ofStr r.tif), ("status", .str r.status),
   ("deleted", .bool r.deleted), ("revision", .int r.revision), ("source_timestamp", .time r.sourceTimestamp),
   ("oca_group", .ofStr r.ocaGroup), ("oca_type", .ofInt r.ocaType), ("entity_id", .str r.orderEntityId),
   ("entity_revision", .int r.revision)]

structure BrokerFillRow where
  accountId : String
  execId : String
  orderEntityId : Option String
  permId : Option Int
  clientOrderId : Option Int
  sessionEpoch : String
  conid : Int
  side : String
  quantity : ℚ
  price : ℚ
  commission : Option ℚ
  commissionCurrency : Option String
  realizedPnl : Option ℚ
  fillTime : Int
  revision : Nat
  sourceTimestamp : Int
  deriving DecidableEq

def fillEntityId (accountId execId : String) : String := accountId ++ ":" ++ execId

/-- `UNIQUE (account_id, exec_id)`. -/
def BrokerFillRow.key (r : BrokerFillRow) : String × String := (r.accountId, r.execId)

def BrokerFillRow.toPayload (r : BrokerFillRow) : Payload Cell :=
  [("account_id", .str r.accountId), ("exec_id", .str r.execId), ("order_entity_id", .ofStr r.orderEntityId),
   ("perm_id", .ofInt r.permId), ("client_order_id", .ofInt r.clientOrderId), ("session_epoch", .str r.sessionEpoch),
   ("conid", .int r.conid), ("side", .str r.side), ("quantity", .num r.quantity), ("price", .num r.price),
   ("commission", .ofNum r.commission), ("commission_currency", .ofStr r.commissionCurrency),
   ("realized_pnl", .ofNum r.realizedPnl), ("fill_time", .time r.fillTime), ("revision", .int r.revision),
   ("source_timestamp", .time r.sourceTimestamp), ("entity_id", .str (fillEntityId r.accountId r.execId)),
   ("entity_revision", .int r.revision)]

/-- `same_fields`: equal but for the revision and the source timestamp. -/
def BrokerAccountRow.sameFields (a b : BrokerAccountRow) : Bool :=
  { a with revision := 0, sourceTimestamp := 0 } == { b with revision := 0, sourceTimestamp := 0 }

def BrokerPositionRow.sameFields (a b : BrokerPositionRow) : Bool :=
  { a with revision := 0, sourceTimestamp := 0 } == { b with revision := 0, sourceTimestamp := 0 }

def BrokerOrderRow.sameFields (a b : BrokerOrderRow) : Bool :=
  { a with revision := 0, sourceTimestamp := 0 } == { b with revision := 0, sourceTimestamp := 0 }

def BrokerFillRow.sameFields (a b : BrokerFillRow) : Bool :=
  { a with revision := 0, sourceTimestamp := 0 } == { b with revision := 0, sourceTimestamp := 0 }

inductive AliasType where
  | clientOrderId
  | permId
  | parentId
  | orderRef
  deriving DecidableEq

/-- `UNIQUE (alias_type, alias_value, account_id, session_epoch)`. -/
structure AliasKey where
  aliasType : AliasType
  aliasValue : String
  accountId : String
  sessionEpoch : String
  deriving DecidableEq

/-- One row of `broker_order_aliases`. -/
structure AliasRow where
  key : AliasKey
  orderEntityId : String
  boundAt : Int
  deriving DecidableEq

inductive GenerationStatus where
  | staging
  | promoted
  | abandoned
  deriving DecidableEq

/-- One row of `broker_sync_generations`. -/
structure GenerationRow where
  generationId : Nat
  status : GenerationStatus
  sourcesRequired : List String
  sourcesComplete : List String
  promotedCursor : Option Nat
  abandonReason : Option String
  startedAt : Int
  completedAt : Option Int
  deriving DecidableEq

structure OrderEventRow where
  generationId : Nat
  cursor : Nat
  orderEntityId : String
  orderId : Option Int
  permId : Option Int
  time : Int
  status : String
  filledQuantity : ℚ
  remainingQuantity : ℚ
  totalQuantity : ℚ
  ocaGroup : Option String
  ocaType : Option Int
  deriving DecidableEq

/-! ## The tables -/

structure BrokerRows where
  accounts : Table BrokerAccountRow.accountId
  positions : Table BrokerPositionRow.key
  orders : Table BrokerOrderRow.orderEntityId
  fills : Table BrokerFillRow.key
  aliases : Table AliasRow.key
  deriving DecidableEq

def BrokerRows.empty : BrokerRows := ⟨Table.empty, Table.empty, Table.empty, Table.empty, Table.empty⟩

/-- One row of `broker_sync_staging`; `S` is the encoded observation. -/
structure StagedRow (S : Type) where
  generationId : Nat
  ingestSeq : Nat
  source : String
  entityType : String
  canonicalKey : String
  recordKind : String
  recordJson : S

/-- `UNIQUE (generation_id, ingest_seq)`. -/
def StagedRow.key {S : Type} (r : StagedRow S) : Nat × Nat := (r.generationId, r.ingestSeq)

/-- The broker's own tables; `generationSeq` is the sequence behind `generation_id`. -/
structure BrokerDb (S : Type) where
  rows : BrokerRows
  orderEvents : List OrderEventRow
  generations : Table GenerationRow.generationId
  generationSeq : Nat
  staging : Table (StagedRow.key (S := S))

def BrokerDb.empty (S : Type) : BrokerDb S := ⟨BrokerRows.empty, [], Table.empty, 0, Table.empty⟩

variable {S : Type}

/-! ## Account, position, order and fill rows -/

def BrokerRows.upsertAccount (db : BrokerRows) (row : BrokerAccountRow) : BrokerRows :=
  { db with accounts := db.accounts.upsert row }

def BrokerRows.getAccount (db : BrokerRows) (accountId : String) : Option BrokerAccountRow := db.accounts.get? accountId

def BrokerRows.upsertPosition (db : BrokerRows) (row : BrokerPositionRow) : BrokerRows :=
  { db with positions := db.positions.upsert row }

def BrokerRows.getPosition (db : BrokerRows) (accountId : String) (conid : Int) : Option BrokerPositionRow :=
  db.positions.get? (accountId, conid)

def BrokerRows.tombstonePosition (db : BrokerRows) (accountId : String) (conid : Int) (revision : Nat)
    (sourceTimestamp : Int) : BrokerRows :=
  match db.getPosition accountId conid with
  | none => db
  | some row => db.upsertPosition { row with
      quantity := 0
      deleted := true
      revision := revision
      sourceTimestamp := sourceTimestamp }

def BrokerRows.selectActivePositions (db : BrokerRows) : List BrokerPositionRow :=
  (db.positions.rows.filter fun r => !r.deleted).insertionSort fun a b =>
    a.accountId < b.accountId ∨ a.accountId = b.accountId ∧ a.conid ≤ b.conid

def BrokerRows.upsertOrder (db : BrokerRows) (row : BrokerOrderRow) : BrokerRows :=
  { db with orders := db.orders.upsert row }

def BrokerRows.getOrder (db : BrokerRows) (orderEntityId : String) : Option BrokerOrderRow := db.orders.get? orderEntityId

def BrokerRows.tombstoneOrder (db : BrokerRows) (orderEntityId : String) (revision : Nat) (sourceTimestamp : Int) :
    BrokerRows :=
  match db.getOrder orderEntityId with
  | none => db
  | some row => db.upsertOrder { row with
      deleted := true
      revision := revision
      sourceTimestamp := sourceTimestamp }

def WORKING_ORDER_STATUSES : List String :=
  ["PendingSubmit", "ApiPending", "PreSubmitted", "Submitted", "PendingCancel"]

def BrokerOrderRow.working (r : BrokerOrderRow) : Bool := !r.deleted && WORKING_ORDER_STATUSES.contains r.status

def BrokerRows.selectWorkingOrders (db : BrokerRows) : List BrokerOrderRow :=
  (db.orders.rows.filter (·.working)).insertionSort fun a b => a.orderEntityId ≤ b.orderEntityId

def BrokerRows.upsertFill (db : BrokerRows) (row : BrokerFillRow) : BrokerRows :=
  { db with fills := db.fills.upsert row }

def BrokerRows.getFill (db : BrokerRows) (accountId execId : String) : Option BrokerFillRow :=
  db.fills.get? (accountId, execId)

def BrokerRows.unboundFills (db : BrokerRows) (accountId : String) : List BrokerFillRow :=
  (db.fills.rows.filter fun r => r.accountId == accountId && r.orderEntityId.isNone).insertionSort fun a b =>
    a.fillTime < b.fillTime ∨ a.fillTime = b.fillTime ∧ a.execId ≤ b.execId

/-! ## Aliases -/

/-- `bind_alias_in_tx`: `INSERT OR IGNORE`. -/
def BrokerRows.bindAlias (db : BrokerRows) (key : AliasKey) (orderEntityId : String) (boundAt : Int) : BrokerRows :=
  match db.aliases.insert? ⟨key, orderEntityId, boundAt⟩ with
  | some aliases => { db with aliases := aliases }
  | none => db

def BrokerRows.findOrderByAlias (db : BrokerRows) (key : AliasKey) : Option String :=
  (db.aliases.get? key).map (·.orderEntityId)

/-- `int(text)` of a decimal text. -/
def parseInt (text : String) : Int :=
  match text.toList with
  | '-' :: digits => -(Nat.ofDigitChars 10 digits 0 : Int)
  | digits => Nat.ofDigitChars 10 digits 0

/-- `find_perm_id_for_order_in_tx`: the first perm id row of the entity. -/
def BrokerRows.findPermIdForOrder (db : BrokerRows) (orderEntityId : String) : Option Int :=
  (db.aliases.rows.find? fun r => r.orderEntityId == orderEntityId && r.key.aliasType == .permId).map
    fun r => parseInt r.key.aliasValue

/-! ## Generations and staging -/

def BrokerDb.openGeneration (db : BrokerDb S) (sources : List String) (startedAt : Int) : Nat × BrokerDb S :=
  let id := db.generationSeq + 1
  (id, { db with
    generations := db.generations.upsert ⟨id, .staging, sources, [], none, none, startedAt, none⟩
    generationSeq := id })

/-- `mark_source_complete_in_tx`; the texts are kept as a set. -/
def BrokerDb.markSourceComplete (db : BrokerDb S) (generationId : Nat) (source : String) : Option (BrokerDb S) :=
  match db.generations.get? generationId with
  | none => none
  | some row => some { db with
      generations := db.generations.upsert { row with
        sourcesComplete := if row.sourcesComplete.contains source then row.sourcesComplete
          else (row.sourcesComplete ++ [source]).insertionSort (· ≤ ·) } }

def BrokerDb.markGenerationPromoted (db : BrokerDb S) (generationId cursor : Nat) (completedAt : Int) : BrokerDb S :=
  let generations := db.generations.updateWhere (fun r => r.generationId == generationId)
    (fun r => { r with
      status := .promoted
      promotedCursor := some cursor
      completedAt := some completedAt
      abandonReason := none }) fun _ => rfl
  { db with generations := generations }

def BrokerDb.markGenerationAbandoned (db : BrokerDb S) (generationId : Nat) (reason : String) (completedAt : Int) :
    BrokerDb S :=
  let generations := db.generations.updateWhere (fun r => r.generationId == generationId)
    (fun r => { r with
      status := .abandoned
      abandonReason := some reason
      completedAt := some completedAt }) fun _ => rfl
  { db with generations := generations }

/-- `stage_in_tx`; `none` is a violation of the unique key. -/
def BrokerDb.stage (db : BrokerDb S) (row : StagedRow S) : Option (BrokerDb S) :=
  (db.staging.insert? row).map fun staging => { db with staging := staging }

def BrokerDb.stagedRows (db : BrokerDb S) (generationId : Nat) : List (StagedRow S) :=
  (db.staging.rows.filter fun r => r.generationId == generationId).insertionSort fun a b => a.ingestSeq ≤ b.ingestSeq

def BrokerDb.purgeStaging (db : BrokerDb S) (generationId : Nat) : BrokerDb S :=
  { db with staging := db.staging.deleteWhere fun r => r.generationId == generationId }

def BrokerDb.latestPromotedGeneration (db : BrokerDb S) : Option Nat :=
  ((db.generations.rows.filter fun r => r.status == .promoted).map (·.generationId)).max?

/-! ## Order status history -/

def BrokerDb.recordOrderEvent (db : BrokerDb S) (generationId : Option Nat) (permId orderId : Int) (row : BrokerOrderRow)
    (time : Int) : BrokerDb S :=
  let generation := generationId.getD 0
  let cursor := ((db.orderEvents.filter (·.generationId == generation)).map (·.cursor)).foldl max 0 + 1
  { db with orderEvents := db.orderEvents ++ [⟨generation, cursor, row.orderEntityId,
      if orderId = 0 then none else some orderId, if permId = 0 then none else some permId, time, row.status,
      row.filledQuantity, max (row.totalQuantity - row.filledQuantity) 0, row.totalQuantity, row.ocaGroup, row.ocaType⟩] }

end MmrTrader.Broker
