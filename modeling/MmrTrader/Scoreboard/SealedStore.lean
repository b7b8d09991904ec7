import Mathlib.Data.List.Sort
import Mathlib.Logic.Function.Basic
import MmrTrader.Lib.AsciiJson
import MmrTrader.Lib.Calendar
import MmrTrader.Lib.Decimal
import MmrTrader.Rpc.Envelope
import MmrTrader.Scoreboard.Ingest

/-!
# The sealed tables

Executable model of `trader/scoreboard/seal.py` and of the sealed inserts and the audit of `trader/scoreboard/store.py`.

* `Row`, `Store` — rows of the columns' types with a key, the tables by their keys, and the seals.
* `rowKey`, `rowDigest`, `chainDigest` — what a seal holds of a row.
* `insertSealedMany`, `ingestSealedMany`, `Call`, `run` — the writers, each one transaction.
* `verifySeals` — the audit: the chain, the sealed rows, the rows without a seal.

Texts are Unicode text.  An aware datetime is kept as its UTC time, which is what a column stores and a digest reads;
one that has none raises as soon as it is prepared.
-/

set_option autoImplicit false

namespace MmrTrader.Scoreboard.SealedStore

open Lib Lib.CanonicalJson Rpc

/-! ## The tables -/

inductive SealedTable where
  | equityDaily
  | equityAdjustments
  | benchmarkVersions
  | benchmarkPrices
  | aiCosts
  | simulatedDecisions
  | simulatedOutcomes
  | shadowResults
  deriving DecidableEq

namespace SealedTable

def all : List SealedTable :=
  [equityDaily, equityAdjustments, benchmarkVersions, benchmarkPrices, aiCosts, simulatedDecisions, simulatedOutcomes,
    shadowResults]

def name : SealedTable → String
  | equityDaily => "equity_daily"
  | equityAdjustments => "equity_adjustments"
  | benchmarkVersions => "benchmark_versions"
  | benchmarkPrices => "benchmark_prices"
  | aiCosts => "ai_costs"
  | simulatedDecisions => "simulated_decisions"
  | simulatedOutcomes => "simulated_outcomes"
  | shadowResults => "shadow_results"

def ofName? (name : String) : Option SealedTable := all.find? fun t => t.name = name

end SealedTable

def WORKING_TABLES : List String :=
  ["round_trips", "equity_session_peak", "scoreboard_incidents", "scoreboard_seals", "telegram_outbox"]

inductive ColumnKind where
  | DOUBLE
  | INTEGER
  | BIGINT
  | BOOLEAN
  | VARCHAR
  | DATE
  | TIMESTAMPTZ
  deriving DecidableEq

open ColumnKind

def columns : SealedTable → List (String × ColumnKind)
  | .equityDaily =>
    [("experiment_id", VARCHAR), ("session_date", DATE), ("account_id", VARCHAR), ("session_end_state", VARCHAR),
      ("base_currency", VARCHAR), ("start_nlv_base", DOUBLE), ("end_nlv_base", DOUBLE), ("fx_usd_per_base", DOUBLE),
      ("fx_source", VARCHAR), ("fx_as_of", TIMESTAMPTZ), ("start_nlv_usd", DOUBLE), ("end_nlv_usd", DOUBLE),
      ("start_source", VARCHAR), ("missing_sessions_before", INTEGER), ("realized_pnl_usd", DOUBLE),
      ("commissions_usd", DOUBLE), ("commission_json", VARCHAR), ("peak_gross_exposure_usd", DOUBLE),
      ("trade_count", INTEGER), ("fill_count", INTEGER), ("open_positions", INTEGER), ("fills_digest", VARCHAR),
      ("ended_at", TIMESTAMPTZ), ("written_at", TIMESTAMPTZ)]
  | .equityAdjustments =>
    [("adjustment_id", VARCHAR), ("experiment_id", VARCHAR), ("session_date", DATE), ("kind", VARCHAR),
      ("exec_id", VARCHAR), ("amount_usd", DOUBLE), ("recorded_at", TIMESTAMPTZ)]
  | .benchmarkVersions => [("version", INTEGER), ("reason", VARCHAR), ("created_at", TIMESTAMPTZ)]
  | .benchmarkPrices =>
    [("version", INTEGER), ("bar_date", DATE), ("symbol", VARCHAR), ("conid", BIGINT), ("close", DOUBLE),
      ("provider", VARCHAR), ("bar_size", VARCHAR), ("fetched_at", TIMESTAMPTZ)]
  | .aiCosts =>
    [("record_id", VARCHAR), ("experiment_id", VARCHAR), ("role", VARCHAR), ("provider", VARCHAR), ("model", VARCHAR),
      ("attempt_id", VARCHAR), ("input_tokens", BIGINT), ("output_tokens", BIGINT), ("cost_usd", DOUBLE),
      ("cost_status", VARCHAR), ("called_at", TIMESTAMPTZ), ("served_kind", VARCHAR), ("served_id", VARCHAR),
      ("decision_id", VARCHAR), ("corrects_record_id", VARCHAR), ("correction_seq", INTEGER), ("body_digest", VARCHAR),
      ("recorded_at", TIMESTAMPTZ)]
  | .simulatedDecisions =>
    [("record_id", VARCHAR), ("experiment_id", VARCHAR), ("baseline_id", VARCHAR), ("cohort", VARCHAR),
      ("opportunity_id", VARCHAR), ("conid", BIGINT), ("side", VARCHAR), ("quantity", BIGINT),
      ("quantity_source", VARCHAR), ("sizing_json", VARCHAR), ("reference_price", DOUBLE), ("stop_price", DOUBLE),
      ("target_price", DOUBLE), ("decided_at", TIMESTAMPTZ), ("session_date", DATE), ("linked_decision_id", VARCHAR),
      ("linked_round_trip_id", VARCHAR), ("deployment_digest", VARCHAR), ("incomplete_reason", VARCHAR),
      ("body_digest", VARCHAR), ("recorded_at", TIMESTAMPTZ)]
  | .simulatedOutcomes =>
    [("record_id", VARCHAR), ("experiment_id", VARCHAR), ("baseline_id", VARCHAR), ("cohort", VARCHAR),
      ("session_date", DATE), ("status", VARCHAR), ("reason", VARCHAR), ("exit_kind", VARCHAR), ("exit_at", TIMESTAMPTZ),
      ("exit_price", DOUBLE), ("pnl_usd", DOUBLE), ("trades", INTEGER), ("quantity", BIGINT), ("bar_source", VARCHAR),
      ("bars_digest", VARCHAR), ("computed_at", TIMESTAMPTZ)]
  | .shadowResults =>
    [("record_id", VARCHAR), ("judgment_id", VARCHAR), ("deployment_version", VARCHAR), ("session_date", DATE),
      ("verdict", VARCHAR), ("case_digest", VARCHAR), ("status", VARCHAR), ("reason", VARCHAR), ("pnl_usd", DOUBLE),
      ("fees_usd", DOUBLE), ("trades", INTEGER), ("end_equity_usd", DOUBLE), ("bar_size", VARCHAR),
      ("body_digest", VARCHAR), ("recorded_at", TIMESTAMPTZ)]

def keyColumns : SealedTable → List String
  | .equityDaily => ["experiment_id", "session_date"]
  | .equityAdjustments => ["adjustment_id"]
  | .benchmarkVersions => ["version"]
  | .benchmarkPrices => ["version", "bar_date"]
  | .aiCosts => ["record_id"]
  | .simulatedDecisions => ["record_id"]
  | .simulatedOutcomes => ["record_id"]
  | .shadowResults => ["record_id"]

/-! ## Values -/

/-- Python's floats and the database's doubles. -/
inductive Double (F : Type) where
  | finite (f : F)
  | nan
  | infinite (negative : Bool)
  deriving DecidableEq

/-- What a caller puts into a row. -/
inductive Value (F : Type) where
  | none
  | bool (b : Bool)
  | int (n : Int)
  | float (d : Double F)
  | decimal (d : Decimal)
  | text (s : String)
  | date (d : CivilDate)
  | naive (w : WallTime)
  | aware (d : DateTime)
  | other (type : String)

/-- What a column holds. -/
inductive Cell (F : Type) where
  | null
  | bool (b : Bool)
  | int (n : Int)
  | float (d : Double F)
  | text (s : String)
  | date (d : CivilDate)
  | time (t : UtcTime)
  deriving DecidableEq

variable {F : Type}

/-- `Mapping[str, Any]`; the first entry of a name counts. -/
abbrev Mapping (F : Type) := List (String × Value F)

def Cell.fits : ColumnKind → Cell F → Bool
  | _, .null => true
  | DOUBLE, .float _ => true
  | INTEGER, .int _ => true
  | BIGINT, .int _ => true
  | BOOLEAN, .bool _ => true
  | VARCHAR, .text _ => true
  | DATE, .date _ => true
  | TIMESTAMPTZ, .time _ => true
  | _, _ => false

def Cell.isNull : Cell F → Bool
  | .null => true
  | _ => false

def Cell.finite : Cell F → Bool
  | .float (.finite _) => true
  | .float _ => false
  | _ => true

/-- A row as a mapping. -/
def dict (t : SealedTable) (cells : List (Cell F)) : List (String × Cell F) := ((columns t).map Prod.fst).zip cells

def cellOf (t : SealedTable) (cells : List (Cell F)) (column : String) : Cell F :=
  ((dict t cells).lookup column).getD .null

def keyCells (t : SealedTable) (cells : List (Cell F)) : List (Cell F) := (keyColumns t).map (cellOf t cells)

/-- The column types and the primary key's `NOT NULL`. -/
def fits (t : SealedTable) (cells : List (Cell F)) : Bool :=
  cells.length = (columns t).length && (List.zipWith (fun column => Cell.fits column.2) (columns t) cells).all id &&
    (keyCells t cells).all fun cell => !cell.isNull

/-- A row that the database can hold. -/
structure Row (F : Type) (t : SealedTable) where
  cells : List (Cell F)
  wellTyped : fits t cells = true

def Row.key {t : SealedTable} (row : Row F t) : List (Cell F) := keyCells t row.cells

structure SealRow extends Seal where
  sealedAt : UtcTime
  deriving DecidableEq

structure Store (F : Type) where
  rows : (t : SealedTable) → Table (@Row.key F t)
  seals : List SealRow

def Store.empty : Store F := ⟨fun _ => Table.empty, []⟩

/-! ## What the store uses -/

inductive ErrorKind where
  | ValueError
  | TypeError
  | KeyError
  | IndexError
  | OverflowError
  | ScoreboardConflict
  | DatabaseError
  | Other
  deriving DecidableEq

structure PyError where
  kind : ErrorKind
  text : String
  deriving DecidableEq

/-- What the store uses of Python and of the database. -/
structure Host (F : Type) where
  /-- `float(n)`; `none` is `OverflowError`. -/
  floatOfInt : Int → Option F
  floatOfDecimal : Decimal → Double F
  repr : Value F → String
  str : Value F → String
  /-- `hashlib.sha256(text.encode()).hexdigest()`. -/
  sha256 : String → String
  /-- How the database compares a parameter with a column. -/
  sqlEq : Value F → Cell F → Bool
  /-- The constraints of a table besides its types and its key. -/
  accepts : (t : SealedTable) → List (Row F t) → Row F t → Bool

/-! ## Digests -/

section Digests
variable [PyFloat F]

def Double.repr : Double F → String
  | .finite f => String.ofList (PyFloat.repr f)
  | .nan => "nan"
  | .infinite false => "inf"
  | .infinite true => "-inf"

def tagged (tag : String) (v : Json (PyNumber F)) : Json (PyNumber F) := .array (items [.str tag, v])

def Cell.canonical : Cell F → Except PyError (Json (PyNumber F))
  | .null => .ok .null
  | .bool b => .ok (tagged "b" (.bool b))
  | .int n => .ok (tagged "i" (.num (.int n)))
  | .float (.finite f) => .ok (tagged "f" (.str (Double.finite f).repr))
  | .float d => .error ⟨.TypeError, "a non-finite float cannot be sealed: " ++ d.repr⟩
  | .time t => .ok (tagged "t" (.str (String.ofList t.isoformat)))
  | .date d => .ok (tagged "d" (.str (String.ofList d.isoformat)))
  | .text s => .ok (tagged "s" (.str s))

def byName (a b : String × Cell F) : Prop := a.1 ≤ b.1

instance : DecidableRel (@byName F) := fun a b => inferInstanceAs (Decidable (a.1 ≤ b.1))

def canonicalEntry (entry : String × Cell F) : Except PyError (String × Json (PyNumber F)) :=
  entry.2.canonical.map fun v => (entry.1, v)

def rowDigest (H : Host F) (t : SealedTable) (cells : List (Cell F)) : Except PyError String := do
  let canonical ← ((dict t cells).insertionSort byName).mapM canonicalEntry
  return H.sha256 (canonicalWith ascii (.object (fields canonical)))

/-- `str(value)`. -/
def Cell.str : Cell F → String
  | .null => "None"
  | .bool b => if b then "True" else "False"
  | .int n => String.ofList (intText n)
  | .float d => d.repr
  | .text s => s
  | .date d => String.ofList d.isoformat
  | .time t => String.ofList (t.isoformat.map fun c => if c = 'T' then ' ' else c)

def rowKey (t : SealedTable) (cells : List (Cell F)) : String := "|".intercalate ((keyCells t cells).map Cell.str)

def chainDigest (H : Host F) (prev table key digest : String) : String :=
  H.sha256 (prev ++ "|" ++ table ++ "|" ++ key ++ "|" ++ digest)

/-! ## Preparing rows -/

def coerce (H : Host F) (table column : String) (kind : ColumnKind) (value : Value F) : Except PyError (Cell F) :=
  let refused (what : String) : Except PyError (Cell F) :=
    .error ⟨.ValueError, table ++ "." ++ column ++ " must be " ++ what ++ ", got " ++ H.repr value⟩
  let double : Double F → Except PyError (Cell F)
    | .finite f => .ok (.float (.finite f))
    | _ => refused "finite or None (unknown)"
  match value with
  | .none => .ok .null
  | value =>
    match kind with
    | DOUBLE =>
      match value with
      | .int n =>
        match H.floatOfInt n with
        | some f => double (.finite f)
        | none => .error ⟨.OverflowError, "int too large to convert to float"⟩
      | .float d => double d
      | .decimal d => double (H.floatOfDecimal d)
      | _ => refused "a number"
    | INTEGER | BIGINT =>
      match value with
      | .int n => .ok (.int n)
      | _ => refused "an integer"
    | BOOLEAN =>
      match value with
      | .bool b => .ok (.bool b)
      | _ => refused "a bool"
    | VARCHAR =>
      match value with
      | .text s => .ok (.text s)
      | _ => refused "text"
    | DATE =>
      match value with
      | .date d => .ok (.date d)
      | _ => refused "a date"
    | TIMESTAMPTZ =>
      match value with
      | .aware d =>
        match d.toUtc with
        | some t => .ok (.time t)
        | none => .error ⟨.OverflowError, "date value out of range"⟩
      | _ => refused "a timezone-aware datetime"

def prepare (H : Host F) (t : SealedTable) (row : Mapping F) : Except PyError (List (Cell F)) :=
  let names := (columns t).map Prod.fst
  let unknown := (row.map Prod.fst).dedup.filter fun name => name ∉ names
  if unknown ≠ [] then
    let shown := (unknown.insertionSort (· ≤ ·)).map fun name => H.repr (.text name)
    .error ⟨.ValueError, t.name ++ ": unknown column(s) [" ++ ", ".intercalate shown ++ "]"⟩
  else (columns t).mapM fun column => coerce H t.name column.1 column.2 ((row.lookup column.1).getD .none)

/-- `(table, values, key, digest)`. -/
structure Prepared (F : Type) where
  table : SealedTable
  cells : List (Cell F)
  key : String
  digest : String

def notSealed (H : Host F) (name : String) : PyError :=
  ⟨.ValueError, H.repr (.text name) ++ " is not a sealed scoreboard table"⟩

def prepareItem (H : Host F) (item : String × Mapping F) : Except PyError (Prepared F) :=
  match SealedTable.ofName? item.1 with
  | none => .error (notSealed H item.1)
  | some t => do
    let cells ← prepare H t item.2
    let digest ← rowDigest H t cells
    return ⟨t, cells, rowKey t cells, digest⟩

def prepareItems (H : Host F) (items : List (String × Mapping F)) : Except PyError (List (Prepared F)) :=
  items.mapM (prepareItem H)

/-! ## Sealed inserts -/

/-- A row of the column types with a whole key. -/
def Row.ofCells? (t : SealedTable) (cells : List (Cell F)) : Option (Row F t) :=
  if h : fits t cells = true then some ⟨cells, h⟩ else none

variable [DecidableEq F]

/-- `INSERT`; the database checks types, constraints and the key. -/
def insertRow (H : Host F) (s : Store F) (t : SealedTable) (cells : List (Cell F)) : Except PyError (Store F) :=
  match Row.ofCells? t cells with
  | none => .error ⟨.DatabaseError, t.name⟩
  | some row =>
    if H.accepts t (s.rows t).rows row = true then
      match (s.rows t).insert? row with
      | none => .error ⟨.DatabaseError, t.name⟩
      | some rows => .ok { s with rows := Function.update s.rows t rows }
    else .error ⟨.DatabaseError, t.name⟩

/-- `SELECT … FROM scoreboard_seals ORDER BY seal_id`. -/
def Store.fetchSeals (s : Store F) : List SealRow := s.seals.insertionSort fun a b => a.sealId ≤ b.sealId

/-- The loop of `_insert_prepared_in_tx`. -/
def insertAfter (H : Host F) (sealedAt : UtcTime) : List (Prepared F) → Nat → String → Store F → Except PyError (Store F)
  | [], _, _, s => .ok s
  | p :: rest, sealId, prev, s =>
    if (s.rows p.table).rows.any fun row => row.key = keyCells p.table p.cells then
      .error ⟨.ScoreboardConflict, p.table.name ++ " row " ++ p.key ++ " exists already"⟩
    else do
      let s ← insertRow H s p.table p.cells
      let chain := chainDigest H prev p.table.name p.key p.digest
      let row : SealRow := ⟨⟨sealId + 1, p.table.name, p.key, p.digest, prev, chain⟩, sealedAt⟩
      insertAfter H sealedAt rest (sealId + 1) chain { s with seals := s.seals ++ [row] }

def insertPreparedInTx (H : Host F) (prepared : List (Prepared F)) (sealedAt : UtcTime) (s : Store F) :
    Except PyError (Store F) :=
  match s.fetchSeals.getLast? with
  | none => insertAfter H sealedAt prepared 0 GENESIS s
  | some last => insertAfter H sealedAt prepared last.sealId last.chain s

def insertSealedMany (H : Host F) (items : List (String × Mapping F)) (sealedAt : UtcTime) (s : Store F) :
    Except PyError (Store F) := do
  let prepared ← prepareItems H items
  insertPreparedInTx H prepared sealedAt s

/-- What `extend` reads of the tables, and the columns it adds. -/
abbrev Extend (F : Type) := Store F → Except PyError (Mapping F)

/-- `row[name]`. -/
def item (row : Mapping F) (name : String) : Except PyError (Value F) :=
  match row.lookup name with
  | some value => .ok value
  | none => .error ⟨.KeyError, name⟩

/-- `found[0] == value`, for a text column. -/
def Cell.sameText : Cell F → Value F → Bool
  | .null, .none => true
  | .text s, .text s' => s = s'
  | _, _ => false

def recognise (H : Host F) (t : SealedTable) (row : Mapping F) (params : List (Value F)) (found : Row F t) :
    Except PyError IngestStatus := do
  let body ← item row "body_digest"
  if (cellOf t found.cells "body_digest").sameText body then
    .ok .DUPLICATE
  else
    .error ⟨.ScoreboardConflict, t.name ++ " row " ++ "|".intercalate (params.map H.str) ++ " exists with a different body"⟩

/-- The transaction of `ingest_sealed_many`. -/
def ingestTx (H : Host F) (t : SealedTable) (row : Mapping F) (rest : List (String × Mapping F)) (extend : Option (Extend F))
    (sealedAt : UtcTime) (s : Store F) : Except PyError (IngestStatus × Store F) := do
  let params ← (keyColumns t).mapM (item row)
  if "body_digest" ∉ (columns t).map Prod.fst then
    .error ⟨.DatabaseError, "body_digest"⟩
  else
    match (s.rows t).rows.find? fun found => (List.zipWith H.sqlEq params found.key).all id with
    | some found => (recognise H t row params found).map fun status => (status, s)
    | none => do
      let extra ← extend.elim (.ok []) fun extend => extend s
      let prepared ← prepareItems H ((t.name, extra ++ row) :: rest)
      let s ← insertPreparedInTx H prepared sealedAt s
      return (.INSERTED, s)

def ingestSealedMany (H : Host F) (items : List (String × Mapping F)) (extend : Option (Extend F)) (sealedAt : UtcTime)
    (s : Store F) : Except PyError (IngestStatus × Store F) :=
  match items with
  | [] => .error ⟨.IndexError, "list index out of range"⟩
  | (name, row) :: rest =>
    match SealedTable.ofName? name with
    | none => .error (notSealed H name)
    | some t =>
      -- only names of scoreboard tables are looked up for their columns
      match rest.find? fun x => (SealedTable.ofName? x.1).isNone && !(WORKING_TABLES.contains x.1) with
      | some x => .error ⟨.ValueError, H.repr (.text x.1) ++ " is not a scoreboard table"⟩
      | none => ingestTx H t row rest extend sealedAt s

/-! ## Runs -/

inductive Call (F : Type) where
  | insertMany (items : List (String × Mapping F)) (sealedAt : UtcTime)
  | ingestMany (items : List (String × Mapping F)) (extend : Option (Extend F)) (sealedAt : UtcTime)

/-- What a transaction returns and leaves; one that raises leaves the tables as they were. -/
def Call.reply (H : Host F) (s : Store F) : Call F → Except PyError (IngestStatus × Store F)
  | .insertMany items sealedAt => (insertSealedMany H items sealedAt s).map fun s => (.INSERTED, s)
  | .ingestMany items extend sealedAt => ingestSealedMany H items extend sealedAt s

def Call.step (H : Host F) (s : Store F) (call : Call F) : Store F :=
  match call.reply H s with
  | .ok (_, s) => s
  | .error _ => s

def run (H : Host F) (calls : List (Call F)) : Store F := calls.foldl (Call.step H) .empty

/-! ## The audit -/

structure Mismatch where
  check : String
  table : String
  key : String
  expectedSealId : Option Nat
  deriving DecidableEq

/-- The walk along the chain, up to the first seal that does not fit. -/
def brokenLink (H : Host F) : List SealRow → Nat → String → Option Mismatch
  | [], _, _ => none
  | x :: rest, expectedId, prev =>
    let link := chainDigest H x.prevChain x.tableName x.rowKey x.rowDigest
    if x.sealId ≠ expectedId ∨ x.prevChain ≠ prev ∨ x.chain ≠ link then
      some ⟨"CHAIN_BROKEN", "scoreboard_seals", toString x.sealId, some expectedId⟩
    else brokenLink H rest (expectedId + 1) x.chain

/-- A dict of these entries, the last of a key counting. -/
def dictOf {K V : Type} [DecidableEq K] (entries : List (K × V)) : Table (@Prod.fst K V) := entries.foldl Table.upsert Table.empty

def sealEntries (seals : List SealRow) : List ((String × String) × String) :=
  seals.map fun x => ((x.tableName, x.rowKey), x.rowDigest)

def Store.sealed (s : Store F) : Table (@Prod.fst (String × String) String) := dictOf (sealEntries s.fetchSeals)

/-- The rows of a table by their key texts; every key is met once, so their order does not matter. -/
def liveEntries {t : SealedTable} (rows : List (Row F t)) : List (String × Row F t) := rows.map fun row => (rowKey t row.cells, row)

def Store.live (s : Store F) (t : SealedTable) : Table (@Prod.fst String (Row F t)) := dictOf (liveEntries (s.rows t).rows)

/-- One sealed key against its row. -/
def verifyRow (H : Host F) (s : Store F) (t : SealedTable) (entry : (String × String) × String) :
    Except PyError (Option Mismatch) :=
  if entry.1.1 ≠ t.name then .ok none
  else
    match (s.live t).get? entry.1.2 with
    | none => .ok (some ⟨"ROW_MISSING", t.name, entry.1.2, none⟩)
    | some (_, row) => (rowDigest H t row.cells).map fun digest =>
      if digest ≠ entry.2 then some ⟨"ROW_EDITED", t.name, entry.1.2, none⟩ else none

def Store.unsealed (s : Store F) (t : SealedTable) : List String :=
  (((s.live t).rows.map Prod.fst).filter fun key => (s.sealed.get? (t.name, key)).isNone).insertionSort (· ≤ ·)

def verifyTable (H : Host F) (s : Store F) (t : SealedTable) : Except PyError (List Mismatch) :=
  (s.sealed.rows.mapM (verifyRow H s t)).map fun found =>
    found.reduceOption ++ (s.unsealed t).map fun key => ⟨"ROW_UNSEALED", t.name, key, none⟩

def verifySeals (H : Host F) (s : Store F) : Except PyError (List Mismatch) :=
  (SealedTable.all.mapM (verifyTable H s)).map fun found =>
    (brokenLink H s.fetchSeals 1 GENESIS).toList ++ found.flatten

end Digests

end MmrTrader.Scoreboard.SealedStore
