import Mathlib.Data.List.Sort
import Mathlib.Data.Rat.Init
import MmrTrader.Lib.IsoTime

/-!
# Broker observations and their staged text

The six observation types of `trader/trading/broker_ingest.py` and `order_correlation.py`, and the
codec that carries them through the staging table.

* `PyValue` — the values `dataclasses.asdict` and `json.loads` produce; JSON text is represented by
  the tree it denotes, with the keys of every object in sorted order;
* `decode_encode` — decoding an encoded observation of any kind gives it back.
-/

set_option autoImplicit false

namespace MmrTrader.Broker

open MmrTrader.Lib

/-! ## Observations -/

structure AccountValueObservation where
  accountId : String
  tag : String
  currency : String
  value : String
  sourceTimestamp : DateTime
  deriving DecidableEq

structure PositionObservation where
  accountId : String
  conid : Int
  symbol : String
  secType : String
  exchange : Option String
  currency : String
  quantity : ℚ
  averageCost : Option ℚ
  marketPrice : Option ℚ
  marketValue : Option ℚ
  unrealizedPnl : Option ℚ
  realizedPnl : Option ℚ
  dailyPnl : Option ℚ
  sourceTimestamp : DateTime
  deriving DecidableEq

structure PnLObservation where
  accountId : String
  conid : Int
  dailyPnl : Option ℚ
  unrealizedPnl : Option ℚ
  realizedPnl : Option ℚ
  sourceTimestamp : DateTime
  deriving DecidableEq

structure OrderObservation where
  accountId : String
  clientOrderId : Int
  permId : Int
  parentId : Int
  orderRef : Option String
  conid : Int
  symbol : String
  action : String
  orderType : String
  totalQuantity : ℚ
  limitPrice : Option ℚ
  stopPrice : Option ℚ
  tif : Option String
  status : String
  filledQuantity : ℚ
  avgFillPrice : Option ℚ
  sourceTimestamp : DateTime
  ocaGroup : Option String
  ocaType : Option Int
  ocaReported : Bool
  deriving DecidableEq

structure FillObservation where
  accountId : String
  execId : String
  permId : Int
  clientOrderId : Int
  conid : Int
  side : String
  quantity : ℚ
  price : ℚ
  fillTime : DateTime
  sourceTimestamp : DateTime
  deriving DecidableEq

structure CommissionObservation where
  fill : FillObservation
  commission : ℚ
  currency : String
  realizedPnl : Option ℚ
  deriving DecidableEq

inductive Observation where
  | accountValue (o : AccountValueObservation)
  | position (o : PositionObservation)
  | pnl (o : PnLObservation)
  | order (o : OrderObservation)
  | fill (o : FillObservation)
  | commission (o : CommissionObservation)
  deriving DecidableEq

/-- `type(record).__name__`. -/
def Observation.kind : Observation → String
  | .accountValue _ => "AccountValueObservation"
  | .position _ => "PositionObservation"
  | .pnl _ => "PnLObservation"
  | .order _ => "OrderObservation"
  | .fill _ => "FillObservation"
  | .commission _ => "CommissionObservation"

/-- `_canonical_key`: the entity kind and the rest of the key. -/
def canonicalKey : Observation → String × String
  | .accountValue o => ("account", o.accountId ++ ":" ++ o.tag ++ ":" ++ o.currency)
  | .position o => ("position", o.accountId ++ ":" ++ toString o.conid)
  | .pnl o => ("position", o.accountId ++ ":" ++ toString o.conid)
  | .order o => ("order", o.accountId ++ ":" ++ toString (if o.permId = 0 then o.clientOrderId else o.permId))
  | .fill o => ("fill", o.accountId ++ ":" ++ o.execId)
  | .commission o => ("commission", o.fill.accountId ++ ":" ++ o.fill.execId)

/-! ## Values and JSON text -/

inductive PyValue where
  | none
  | bool (b : Bool)
  | int (n : Int)
  | float (x : ℚ)
  | str (s : String)
  | list (items : List PyValue)
  | dict (fields : List (String × PyValue))
  | datetime (d : DateTime)

def DATETIME_KEY : String := "__datetime__"

def keyLe (a b : String × PyValue) : Prop := a.1 ≤ b.1

instance : DecidableRel keyLe := fun a b => inferInstanceAs (Decidable (a.1 ≤ b.1))

mutual
/-- `json.dumps(value, default=default, sort_keys=True)`. -/
def jsonDumps : PyValue → PyValue
  | .datetime d => .dict [(DATETIME_KEY, .str (String.ofList (isoformat d)))]
  | .list items => .list (jsonItems items)
  | .dict fields => .dict ((jsonFields fields).insertionSort keyLe)
  | v => v
def jsonItems : List PyValue → List PyValue
  | [] => []
  | v :: rest => jsonDumps v :: jsonItems rest
def jsonFields : List (String × PyValue) → List (String × PyValue)
  | [] => []
  | (k, v) :: rest => (k, jsonDumps v) :: jsonFields rest
end

/-- What a dict with the single key `__datetime__` revives to. -/
def reviveDatetime : List (String × PyValue) → Option PyValue
  | [(_, .str s)] => (fromIsoformat s.toList).map .datetime
  | _ => none

mutual
/-- `revive`; `none` when it raises. -/
def revive : PyValue → Option PyValue
  | .dict fields =>
      if fields.map (·.1) = [DATETIME_KEY] then reviveDatetime fields else (reviveFields fields).map .dict
  | .list items => (reviveItems items).map .list
  | v => some v
def reviveItems : List PyValue → Option (List PyValue)
  | [] => some []
  | v :: rest => do return (← revive v) :: (← reviveItems rest)
def reviveFields : List (String × PyValue) → Option (List (String × PyValue))
  | [] => some []
  | (k, v) :: rest => do return (k, ← revive v) :: (← reviveFields rest)
end

/-! ## Records -/

def PyValue.ofOpt {α : Type} (f : α → PyValue) (x : Option α) : PyValue := x.elim .none f

def AccountValueObservation.asdict (o : AccountValueObservation) : List (String × PyValue) :=
  [("account_id", .str o.accountId), ("tag", .str o.tag), ("currency", .str o.currency), ("value", .str o.value),
   ("source_timestamp", .datetime o.sourceTimestamp)]

def PositionObservation.asdict (o : PositionObservation) : List (String × PyValue) :=
  [("account_id", .str o.accountId), ("conid", .int o.conid), ("symbol", .str o.symbol), ("sec_type", .str o.secType),
   ("exchange", .ofOpt .str o.exchange), ("currency", .str o.currency), ("quantity", .float o.quantity),
   ("average_cost", .ofOpt .float o.averageCost), ("market_price", .ofOpt .float o.marketPrice),
   ("market_value", .ofOpt .float o.marketValue), ("unrealized_pnl", .ofOpt .float o.unrealizedPnl),
   ("realized_pnl", .ofOpt .float o.realizedPnl), ("daily_pnl", .ofOpt .float o.dailyPnl),
   ("source_timestamp", .datetime o.sourceTimestamp)]

def PnLObservation.asdict (o : PnLObservation) : List (String × PyValue) :=
  [("account_id", .str o.accountId), ("conid", .int o.conid), ("daily_pnl", .ofOpt .float o.dailyPnl),
   ("unrealized_pnl", .ofOpt .float o.unrealizedPnl), ("realized_pnl", .ofOpt .float o.realizedPnl),
   ("source_timestamp", .datetime o.sourceTimestamp)]

def OrderObservation.asdict (o : OrderObservation) : List (String × PyValue) :=
  [("account_id", .str o.accountId), ("client_order_id", .int o.clientOrderId), ("perm_id", .int o.permId),
   ("parent_id", .int o.parentId), ("order_ref", .ofOpt .str o.orderRef), ("conid", .int o.conid),
   ("symbol", .str o.symbol), ("action", .str o.action), ("order_type", .str o.orderType),
   ("total_quantity", .float o.totalQuantity), ("limit_price", .ofOpt .float o.limitPrice),
   ("stop_price", .ofOpt .float o.stopPrice), ("tif", .ofOpt .str o.tif), ("status", .str o.status),
   ("filled_quantity", .float o.filledQuantity), ("avg_fill_price", .ofOpt .float o.avgFillPrice),
   ("source_timestamp", .datetime o.sourceTimestamp), ("oca_group", .ofOpt .str o.ocaGroup),
   ("oca_type", .ofOpt .int o.ocaType), ("oca_reported", .bool o.ocaReported)]

def FillObservation.asdict (o : FillObservation) : List (String × PyValue) :=
  [("account_id", .str o.accountId), ("exec_id", .str o.execId), ("perm_id", .int o.permId),
   ("client_order_id", .int o.clientOrderId), ("conid", .int o.conid), ("side", .str o.side),
   ("quantity", .float o.quantity), ("price", .float o.price), ("fill_time", .datetime o.fillTime),
   ("source_timestamp", .datetime o.sourceTimestamp)]

def CommissionObservation.asdict (o : CommissionObservation) : List (String × PyValue) :=
  [("fill", .dict o.fill.asdict), ("commission", .float o.commission), ("currency", .str o.currency),
   ("realized_pnl", .ofOpt .float o.realizedPnl)]

def Observation.asdict : Observation → List (String × PyValue)
  | .accountValue o => o.asdict
  | .position o => o.asdict
  | .pnl o => o.asdict
  | .order o => o.asdict
  | .fill o => o.asdict
  | .commission o => o.asdict

def encodeObservation (record : Observation) : PyValue := jsonDumps (.dict record.asdict)

/-- The keyword arguments of a record: a missing name or one that is no field raises `TypeError`. -/
def exactKeys (names : List String) (fields : List (String × PyValue)) : Bool :=
  fields.all fun kv => names.contains kv.1

def asStr : PyValue → Option String
  | .str s => some s
  | _ => none

def asInt : PyValue → Option Int
  | .int n => some n
  | _ => none

def asFloat : PyValue → Option ℚ
  | .float x => some x
  | _ => none

def asBool : PyValue → Option Bool
  | .bool b => some b
  | _ => none

def asTime : PyValue → Option DateTime
  | .datetime d => some d
  | _ => none

/-- A value that may be `None`. -/
def asOpt {α : Type} (read : PyValue → Option α) : PyValue → Option (Option α)
  | .none => some none
  | v => (read v).map some

/-- A keyword argument without a default. -/
def field {α : Type} (fields : List (String × PyValue)) (name : String) (read : PyValue → Option α) : Option α :=
  (fields.lookup name).bind read

/-- A keyword argument with a default. -/
def defaultField {α : Type} (fields : List (String × PyValue)) (name : String) (value : α) (read : PyValue → Option α) :
    Option α :=
  match fields.lookup name with
  | none => some value
  | some v => read v

def readAccountValue (f : List (String × PyValue)) : Option AccountValueObservation := do
  guard (exactKeys ["account_id", "tag", "currency", "value", "source_timestamp"] f)
  return ⟨← field f "account_id" asStr, ← field f "tag" asStr, ← field f "currency" asStr,
    ← field f "value" asStr,     ← field f "source_timestamp" asTime⟩

def readPosition (f : List (String × PyValue)) : Option PositionObservation := do
  guard (exactKeys ["account_id", "conid", "symbol", "sec_type", "exchange", "currency", "quantity", "average_cost",
    "market_price", "market_value", "unrealized_pnl", "realized_pnl", "daily_pnl", "source_timestamp"] f)
  return ⟨← field f "account_id" asStr, ← field f "conid" asInt, ← field f "symbol" asStr,
    ← field f "sec_type" asStr,     ← field f "exchange" (asOpt asStr), ← field f "currency" asStr,
    ← field f "quantity" asFloat,     ← field f "average_cost" (asOpt asFloat),
    ← field f "market_price" (asOpt asFloat),     ← field f "market_value" (asOpt asFloat),
    ← field f "unrealized_pnl" (asOpt asFloat),     ← field f "realized_pnl" (asOpt asFloat),
    ← field f "daily_pnl" (asOpt asFloat), ← field f "source_timestamp" asTime⟩

def readPnL (f : List (String × PyValue)) : Option PnLObservation := do
  guard (exactKeys ["account_id", "conid", "daily_pnl", "unrealized_pnl", "realized_pnl", "source_timestamp"] f)
  return ⟨← field f "account_id" asStr, ← field f "conid" asInt,
    ← field f "daily_pnl" (asOpt asFloat),     ← field f "unrealized_pnl" (asOpt asFloat),
    ← field f "realized_pnl" (asOpt asFloat), ← field f "source_timestamp" asTime⟩

def readOrder (f : List (String × PyValue)) : Option OrderObservation := do
  guard (exactKeys ["account_id", "client_order_id", "perm_id", "parent_id", "order_ref", "conid", "symbol", "action",
    "order_type", "total_quantity", "limit_price", "stop_price", "tif", "status", "filled_quantity", "avg_fill_price",
    "source_timestamp", "oca_group", "oca_type", "oca_reported"] f)
  return ⟨← field f "account_id" asStr, ← field f "client_order_id" asInt, ← field f "perm_id" asInt,
    ← field f "parent_id" asInt,     ← field f "order_ref" (asOpt asStr), ← field f "conid" asInt,
    ← field f "symbol" asStr, ← field f "action" asStr,     ← field f "order_type" asStr,
    ← field f "total_quantity" asFloat,
    ← field f "limit_price" (asOpt asFloat),     ← field f "stop_price" (asOpt asFloat),
    ← field f "tif" (asOpt asStr), ← field f "status" asStr,     ← field f "filled_quantity" asFloat,
    ← field f "avg_fill_price" (asOpt asFloat),
    ← field f "source_timestamp" asTime,     ← defaultField f "oca_group" none (asOpt asStr),
    ← defaultField f "oca_type" none (asOpt asInt),     ← defaultField f "oca_reported" false asBool⟩

def readFill (f : List (String × PyValue)) : Option FillObservation := do
  guard (exactKeys ["account_id", "exec_id", "perm_id", "client_order_id", "conid", "side", "quantity", "price",
    "fill_time", "source_timestamp"] f)
  return ⟨← field f "account_id" asStr, ← field f "exec_id" asStr, ← field f "perm_id" asInt,
    ← field f "client_order_id" asInt,     ← field f "conid" asInt, ← field f "side" asStr,
    ← field f "quantity" asFloat, ← field f "price" asFloat,     ← field f "fill_time" asTime,
    ← field f "source_timestamp" asTime⟩

/-- The nested record is built first. -/
def asFill : PyValue → Option FillObservation
  | .dict fields => readFill fields
  | _ => none

def readCommission (f : List (String × PyValue)) : Option CommissionObservation := do
  guard (exactKeys ["fill", "commission", "currency", "realized_pnl"] f)
  return ⟨← field f "fill" asFill, ← field f "commission" asFloat, ← field f "currency" asStr,
    ← field f "realized_pnl" (asOpt asFloat)⟩

/-- `record_types[kind](**revived)`; an unknown kind raises `ValueError`. -/
def readRecord (kind : String) (f : List (String × PyValue)) : Option Observation :=
  if kind = "CommissionObservation" then (readCommission f).map .commission
  else if kind = "AccountValueObservation" then (readAccountValue f).map .accountValue
  else if kind = "PositionObservation" then (readPosition f).map .position
  else if kind = "PnLObservation" then (readPnL f).map .pnl
  else if kind = "OrderObservation" then (readOrder f).map .order
  else if kind = "FillObservation" then (readFill f).map .fill
  else none

/-- `_decode_observation`; `none` when it raises. -/
def decodeObservation (kind : String) (recordJson : PyValue) : Option Observation := do
  match ← revive recordJson with
  | .dict fields => readRecord kind fields
  | _ => none

/-! ## The round trip -/

theorem lookup_orderedInsert (kv : String × PyValue) (l : List (String × PyValue)) (k : String) :
    (l.orderedInsert keyLe kv).lookup k = (kv :: l).lookup k := by
  induction l with
  | nil => rfl
  | cons b l ih =>
    rw [List.orderedInsert_cons]
    split
    · rfl
    · rename_i hle
      -- the new entry goes behind `b`, whose key is smaller
      have hne : kv.1 ≠ b.1 := fun h => hle (by simp [keyLe, h])
      obtain ⟨kb, vb⟩ := b
      obtain ⟨ka, va⟩ := kv
      rw [List.lookup_cons, ih, List.lookup_cons, List.lookup_cons, List.lookup_cons]
      by_cases hb : k = kb
      · subst hb
        have hk : (k == ka) = false := by simpa using Ne.symm hne
        simp [hk]
      · have hk : (k == kb) = false := by simpa using hb
        rw [hk]

@[simp] theorem lookup_insertionSort (l : List (String × PyValue)) (k : String) :
    (l.insertionSort keyLe).lookup k = l.lookup k := by
  induction l with
  | nil => rfl
  | cons kv l ih =>
    rw [List.insertionSort_cons, lookup_orderedInsert, List.lookup_cons, List.lookup_cons, ih]

@[simp] theorem exactKeys_insertionSort (names : List String) (l : List (String × PyValue)) :
    exactKeys names (l.insertionSort keyLe) = exactKeys names l :=
  (List.perm_insertionSort keyLe l).all_eq

/-- The staged text of `v` revives to `w`. -/
def Revives (v w : PyValue) : Prop := revive (jsonDumps v) = some w

variable {l l' : List (String × PyValue)}
variable {R : String × PyValue → String × PyValue → Prop}

theorem forall₂_orderedInsert (hR : ∀ a b, R a b → a.1 = b.1) {a b : String × PyValue} (hab : R a b) (h : List.Forall₂ R l l') :
    List.Forall₂ R (l.orderedInsert keyLe a) (l'.orderedInsert keyLe b) := by
  induction h with
  | nil => exact .cons hab .nil
  | @cons c d _ _ hcd h ih =>
    rw [List.orderedInsert_cons, List.orderedInsert_cons]
    have hiff : keyLe a c ↔ keyLe b d := by
      simp only [keyLe, hR _ _ hab, hR _ _ hcd]
    by_cases hle : keyLe a c
    · rw [if_pos hle, if_pos (hiff.mp hle)]
      exact .cons hab (.cons hcd h)
    · rw [if_neg hle, if_neg (mt hiff.mpr hle)]
      exact .cons hcd ih

theorem forall₂_insertionSort (hR : ∀ a b, R a b → a.1 = b.1)
    (h : List.Forall₂ R l l') : List.Forall₂ R (l.insertionSort keyLe) (l'.insertionSort keyLe) := by
  induction h with
  | nil => exact .nil
  | cons hab _ ih => exact forall₂_orderedInsert hR hab ih

theorem reviveFields_of_forall₂
    (h : List.Forall₂ (fun a b => a.1 = b.1 ∧ revive a.2 = some b.2) l l') : reviveFields l = some l' := by
  induction h with
  | nil => rfl
  | @cons a b _ _ hab _ ih =>
    obtain ⟨k, v⟩ := a
    obtain ⟨_, w⟩ := b
    obtain ⟨rfl, hv⟩ := hab
    simp only at hv
    simp [reviveFields, hv, ih]

theorem forall₂_jsonFields (h : List.Forall₂ (fun a b => a.1 = b.1 ∧ Revives a.2 b.2) l l') :
    List.Forall₂ (fun a b => a.1 = b.1 ∧ revive a.2 = some b.2) (jsonFields l) l' := by
  induction h with
  | nil => exact .nil
  | cons hab _ ih => exact .cons hab ih

theorem jsonFields_keys (l : List (String × PyValue)) : (jsonFields l).map (·.1) = l.map (·.1) := by
  induction l with
  | nil => rfl
  | cons kv l ih => simp [jsonFields, ih]

theorem revives_dict {fields fields' : List (String × PyValue)} (hkeys : fields.map (·.1) ≠ [DATETIME_KEY])
    (h : List.Forall₂ (fun a b => a.1 = b.1 ∧ Revives a.2 b.2) fields fields') :
    Revives (.dict fields) (.dict (fields'.insertionSort keyLe)) := by
  have hne : ((jsonFields fields).insertionSort keyLe).map (·.1) ≠ [DATETIME_KEY] := by
    intro heq
    have hperm := (List.perm_insertionSort keyLe (jsonFields fields)).map (·.1)
    rw [heq, jsonFields_keys] at hperm
    exact hkeys (List.perm_singleton.mp hperm.symm)
  simp only [Revives, jsonDumps, revive]
  rw [if_neg hne, reviveFields_of_forall₂ (forall₂_insertionSort (fun _ _ hab => hab.1) (forall₂_jsonFields h))]
  rfl

@[simp] theorem revives_bool (b : Bool) : Revives (.bool b) (.bool b) := rfl
@[simp] theorem revives_int (n : Int) : Revives (.int n) (.int n) := rfl
@[simp] theorem revives_float (x : ℚ) : Revives (.float x) (.float x) := rfl
@[simp] theorem revives_str (s : String) : Revives (.str s) (.str s) := rfl

@[simp] theorem revives_datetime (d : DateTime) : Revives (.datetime d) (.datetime d) := by
  simp [Revives, jsonDumps, revive, reviveDatetime, fromIsoformat_isoformat]

variable {α : Type}

theorem revives_ofOpt {f : α → PyValue} (h : ∀ x, Revives (f x) (f x)) (x : Option α) : Revives (.ofOpt f x) (.ofOpt f x) := by
  cases x with
  | none => rfl
  | some x => exact h x

@[simp] theorem revives_optStr (s : Option String) : Revives (.ofOpt .str s) (.ofOpt .str s) := revives_ofOpt revives_str s
@[simp] theorem revives_optInt (n : Option Int) : Revives (.ofOpt .int n) (.ofOpt .int n) := revives_ofOpt revives_int n
@[simp] theorem revives_optFloat (x : Option ℚ) : Revives (.ofOpt .float x) (.ofOpt .float x) :=
  revives_ofOpt revives_float x

@[simp] theorem asOpt_optStr (x : Option String) : asOpt asStr (.ofOpt .str x) = some x := by cases x <;> rfl
@[simp] theorem asOpt_optInt (x : Option Int) : asOpt asInt (.ofOpt .int x) = some x := by cases x <;> rfl
@[simp] theorem asOpt_optFloat (x : Option ℚ) : asOpt asFloat (.ofOpt .float x) = some x := by cases x <;> rfl

/-- The keyword arguments do not depend on the order of the keys. -/
theorem field_insertionSort (f : List (String × PyValue)) (name : String) (read : PyValue → Option α) :
    field (f.insertionSort keyLe) name read = field f name read := by
  rw [field, lookup_insertionSort, field]

theorem defaultField_insertionSort (f : List (String × PyValue)) (name : String) (value : α)
    (read : PyValue → Option α) : defaultField (f.insertionSort keyLe) name value read = defaultField f name value read := by
  rw [defaultField, lookup_insertionSort, defaultField]

theorem readFill_insertionSort (f : List (String × PyValue)) : readFill (f.insertionSort keyLe) = readFill f := by
  simp only [readFill, exactKeys_insertionSort, field_insertionSort]

theorem readRecord_insertionSort (kind : String) (f : List (String × PyValue)) :
    readRecord kind (f.insertionSort keyLe) = readRecord kind f := by
  simp only [readRecord, readCommission, readAccountValue, readPosition, readPnL, readOrder, readFill_insertionSort,
    exactKeys_insertionSort, field_insertionSort, defaultField_insertionSort]

theorem readFill_asdict (o : FillObservation) : readFill o.asdict = some o := by
  simp [readFill, FillObservation.asdict, exactKeys, field, List.lookup_cons, asStr, asInt, asFloat,
    asTime]

theorem FillObservation.revives (o : FillObservation) : Revives (.dict o.asdict) (.dict (o.asdict.insertionSort keyLe)) :=
  revives_dict (by simp [FillObservation.asdict]) (by simp [FillObservation.asdict])

/-- The fields an encoded observation revives to, before their keys are sorted. -/
def Observation.revived : Observation → List (String × PyValue)
  | .commission o => [("fill", .dict (o.fill.asdict.insertionSort keyLe)), ("commission", .float o.commission),
      ("currency", .str o.currency), ("realized_pnl", .ofOpt .float o.realizedPnl)]
  | o => o.asdict

theorem Observation.revives (o : Observation) : Revives (.dict o.asdict) (.dict (o.revived.insertionSort keyLe)) := by
  cases o with
  | accountValue o =>
    refine revives_dict ?_ ?_ <;> simp [asdict, revived, AccountValueObservation.asdict]
  | position o =>
    refine revives_dict ?_ ?_ <;> simp [asdict, revived, PositionObservation.asdict]
  | pnl o =>
    refine revives_dict ?_ ?_ <;> simp [asdict, revived, PnLObservation.asdict]
  | order o =>
    refine revives_dict ?_ ?_ <;> simp [asdict, revived, OrderObservation.asdict]
  | fill o => exact o.revives
  | commission o =>
    refine revives_dict ?_ ?_ <;> simp [asdict, revived, CommissionObservation.asdict, o.fill.revives]

theorem readRecord_revived (o : Observation) : readRecord o.kind o.revived = some o := by
  cases o with
  | accountValue o => rfl
  | position o =>
    simp [readRecord, Observation.kind, Observation.revived, Observation.asdict, readPosition,
      PositionObservation.asdict, exactKeys, field, List.lookup_cons, asStr, asInt, asFloat,
      asTime]
  | pnl o =>
    simp [readRecord, Observation.kind, Observation.revived, Observation.asdict, readPnL, PnLObservation.asdict,
      exactKeys, field, List.lookup_cons, asStr, asInt, asTime]
  | order o =>
    simp [readRecord, Observation.kind, Observation.revived, Observation.asdict, readOrder, OrderObservation.asdict,
      exactKeys, field, defaultField, List.lookup_cons, asStr, asInt, asFloat, asBool,
      asTime]
  | fill o =>
    simp [readRecord, Observation.kind, Observation.revived, Observation.asdict, readFill_asdict]
  | commission o =>
    simp [readRecord, Observation.kind, Observation.revived, readCommission, exactKeys, field, List.lookup_cons,
      asFill, asStr, asFloat, readFill_insertionSort, readFill_asdict]

/-- **Decoding an encoded observation gives it back.** -/
theorem decode_encode (o : Observation) : decodeObservation o.kind (encodeObservation o) = some o := by
  have h : revive (encodeObservation o) = some (.dict (o.revived.insertionSort keyLe)) := o.revives
  simp [decodeObservation, h, readRecord_insertionSort, readRecord_revived]

end MmrTrader.Broker
