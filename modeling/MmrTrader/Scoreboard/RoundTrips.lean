import Mathlib.Algebra.Order.Ring.Rat
import Mathlib.Data.List.Dedup
import Mathlib.Data.List.Sort
import Mathlib.Data.String.Basic

/-!
# Round trips rebuilt from fills

Executable model of `project_round_trips` (`trader/scoreboard/round_trips.py`).

* `FillFact`, `Piece`, `RoundTrip`, `Projection` — the data; `validate` — the checks of a fill.
* `TripBuilder` — the trip under way, with `addEntry`, `addExit` and `build`.
* `Walk`, `turn`, `spend` — one turn of the loop over a fill, and the loop.
* `walkConid`, `projectRoundTrips` — one instrument, and all of them.

`spend` runs on fuel; `none` is a loop that does not end.  A `Move` keeps a piece together with its size and its fill,
which the source has as locals.  The links of an order ref, the session of an instant, and both hashes are parameters.
-/

set_option autoImplicit false

namespace MmrTrader.Scoreboard

/-! ## Data -/

structure FillFact where
  execId : String
  conid : Int
  side : String
  quantity : ℚ
  price : ℚ
  commission : Option ℚ
  fillTime : Int
  orderRef : Option String
  symbol : Option String
  deriving DecidableEq

structure Piece where
  execId : String
  conid : Int
  sessionDate : Int
  realized : ℚ
  fee : Option ℚ
  closesTrip : Bool
  deriving DecidableEq

inductive Direction where
  | LONG
  | SHORT
  deriving DecidableEq

inductive TripStatus where
  | OPEN
  | CLOSED
  deriving DecidableEq

structure AttributionLinks where
  strategyVersion : Option String
  decider : Option String
  policyRevision : Option String
  style : Option String
  decisionId : Option String
  digest : Option String
  deriving DecidableEq

structure RoundTrip where
  roundTripId : String
  conid : Int
  symbol : Option String
  direction : Direction
  status : TripStatus
  openedAt : Int
  closedAt : Option Int
  openedSession : Int
  closedSession : Option Int
  entryQty : ℚ
  exitQty : ℚ
  entryAvg : ℚ
  exitAvg : Option ℚ
  grossPnlUsd : ℚ
  feesUsd : Option ℚ
  netPnlUsd : Option ℚ
  feesComplete : Bool
  notionalTradedUsd : ℚ
  links : Option AttributionLinks
  execIds : List String
  fillsDigest : String
  deriving DecidableEq

structure DigestItem where
  execId : String
  conid : Int
  side : String
  quantity : ℚ
  price : ℚ
  fillTime : Int
  orderRef : Option String
  deriving DecidableEq

/-- What the projection is given: `links_for`, `session_date_et`, the two SHA-256 digests and `account_id`. -/
structure Projector where
  linksFor : String → Option AttributionLinks
  sessionDate : Int → Int
  /-- The first 32 digits of the SHA-256 of a text. -/
  tripHash : String → String
  fillsHash : List DigestItem → String
  accountId : String

/-- Why a fill cannot be projected. -/
inductive ProjectionError where
  | side (execId : String)
  | quantity (execId : String)
  | price (execId : String)
  | twice (execId : String)
  deriving DecidableEq

def validate (f : FillFact) : Except ProjectionError Unit :=
  if f.side ∉ ["BUY", "SELL"] then .error (.side f.execId)
  else if f.quantity ≤ 0 then .error (.quantity f.execId)
  else if f.price ≤ 0 then .error (.price f.execId)
  else .ok ()

def fillsDigest (P : Projector) (fills : List FillFact) : String :=
  P.fillsHash ((fills.map fun f => ⟨f.execId, f.conid, f.side, f.quantity, f.price, f.fillTime, f.orderRef⟩).insertionSort
    fun a b : DigestItem => a.execId ≤ b.execId)

/-! ## The trip under way -/

/-- `_TripBuilder`; `fills` has one fill for each exec id, in the order of their first touch. -/
structure TripBuilder where
  first : FillFact
  direction : Direction
  entryQty : ℚ
  entryCost : ℚ
  exitQty : ℚ
  exitValue : ℚ
  gross : ℚ
  fees : List (Option ℚ)
  fills : List FillFact
  last : Option FillFact
  deriving DecidableEq

namespace TripBuilder

def start (first : FillFact) (direction : Direction) : TripBuilder := ⟨first, direction, 0, 0, 0, 0, 0, [], [], none⟩

def touch (b : TripBuilder) (fill : FillFact) (fee : Option ℚ) : TripBuilder :=
  { b with
    fees := b.fees ++ [fee]
    fills := if fill.execId ∈ b.fills.map (·.execId) then b.fills else b.fills ++ [fill]
    last := some fill }

def addEntry (b : TripBuilder) (fill : FillFact) (size : ℚ) (fee : Option ℚ) : TripBuilder :=
  { b with entryQty := b.entryQty + size, entryCost := b.entryCost + size * fill.price }.touch fill fee

def addExit (b : TripBuilder) (fill : FillFact) (size realized : ℚ) (fee : Option ℚ) : TripBuilder :=
  { b with
    exitQty := b.exitQty + size
    exitValue := b.exitValue + size * fill.price
    gross := b.gross + realized }.touch fill fee

/-- `sum(self.fees)`, when every fee is known. -/
def knownFees (b : TripBuilder) : Option ℚ := if b.fees.all (·.isSome) then some (b.fees.map (·.getD 0)).sum else none

/-- The text that names a trip. -/
def seed (P : Projector) (b : TripBuilder) : String :=
  P.accountId ++ "|" ++ toString b.first.conid ++ "|" ++ b.first.execId

def build (P : Projector) (b : TripBuilder) (status : TripStatus) : RoundTrip where
  roundTripId := P.tripHash (b.seed P)
  conid := b.first.conid
  symbol := b.fills.findSome? fun f => f.symbol.filter (· ≠ "")
  direction := b.direction
  status := status
  openedAt := b.first.fillTime
  closedAt := if status = .CLOSED then b.last.map (·.fillTime) else none
  openedSession := P.sessionDate b.first.fillTime
  closedSession := if status = .CLOSED then b.last.map fun f => P.sessionDate f.fillTime else none
  entryQty := b.entryQty
  exitQty := b.exitQty
  entryAvg := b.entryCost / b.entryQty
  exitAvg := if b.exitQty = 0 then none else some (b.exitValue / b.exitQty)
  grossPnlUsd := b.gross
  feesUsd := b.knownFees
  netPnlUsd := if status = .CLOSED then b.knownFees.map (b.gross - ·) else none
  feesComplete := b.knownFees.isSome
  notionalTradedUsd := b.entryCost + b.exitValue
  links := (b.first.orderRef.filter (· ≠ "")).bind P.linksFor
  execIds := b.fills.map (·.execId)
  fillsDigest := Scoreboard.fillsDigest P b.fills

end TripBuilder

/-! ## The walk -/

/-- A piece, with the fill it is of, its size, and whether it opens. -/
structure Move where
  piece : Piece
  fill : FillFact
  size : ℚ
  opening : Bool
  deriving DecidableEq

/-- The locals of the walk over one instrument; `trips` are the closed ones. -/
structure Walk where
  position : ℚ
  average : ℚ
  trip : Option TripBuilder
  trips : List RoundTrip
  moves : List Move
  deriving DecidableEq

def Walk.start : Walk := ⟨0, 0, none, [], []⟩

def FillFact.signed (f : FillFact) : ℚ := if f.side = "BUY" then f.quantity else - f.quantity

/-- Whether what is left of a fill opens or adds to the position. -/
abbrev Walk.Opens (w : Walk) (left : ℚ) : Prop := w.position = 0 ∨ (0 < w.position ↔ 0 < left)

/-- One turn of the loop: the walk, and what is left of the fill. -/
def Walk.turn (P : Projector) (w : Walk) (fill : FillFact) (left : ℚ) : Walk × ℚ :=
  let size := if w.Opens left then |left| else min |left| |w.position|
  let fee := fill.commission.map fun c => c * size / fill.quantity
  let rest := if 0 < left then left - size else left + size
  if w.Opens left then
    let trip := w.trip.getD (.start fill (if 0 < left then .LONG else .SHORT))
    ({ w with
        position := if 0 < left then w.position + size else w.position - size
        average := (|w.position| * w.average + size * fill.price) / (|w.position| + size)
        trip := some (trip.addEntry fill size fee)
        moves := w.moves ++
          [⟨⟨fill.execId, fill.conid, P.sessionDate fill.fillTime, 0, fee, false⟩, fill, size, true⟩] }, rest)
  else
    let direction : ℚ := if 0 < w.position then 1 else -1
    let realized := (fill.price - w.average) * size * direction
    let position := w.position - direction * size
    let trip := w.trip.map (·.addExit fill size realized fee)
    let moves := w.moves ++
      [⟨⟨fill.execId, fill.conid, P.sessionDate fill.fillTime, realized, fee, position = 0⟩, fill, size, false⟩]
    if position = 0 then
      ({ w with position := position, average := 0, trip := none,
                trips := w.trips ++ (trip.map (·.build P .CLOSED)).toList, moves := moves }, rest)
    else ({ w with position := position, trip := trip, moves := moves }, rest)

/-- The loop over a fill: `while left != 0`. -/
def Walk.spend (P : Projector) (fill : FillFact) : Nat → Walk → ℚ → Option Walk
  | 0, _, _ => none
  | fuel + 1, w, left =>
    if left = 0 then some w
    else
      let next := w.turn P fill left
      Walk.spend P fill fuel next.1 next.2

/-- The fills of one instrument, in order. -/
def Walk.fills (P : Projector) (fuel : Nat) (w : Walk) : List FillFact → Option Walk
  | [] => some w
  | f :: rest => (w.spend P f fuel f.signed).bind fun w' => w'.fills P fuel rest

def fillOrder (a b : FillFact) : Prop := a.fillTime < b.fillTime ∨ a.fillTime = b.fillTime ∧ a.execId ≤ b.execId

instance : DecidableRel fillOrder := fun _ _ => inferInstanceAs (Decidable (_ ∨ _))

def fillsOf (fills : List FillFact) (conid : Int) : List FillFact :=
  (fills.filter fun f => f.conid = conid).insertionSort fillOrder

/-- The instruments, in order. -/
def conidsOf (fills : List FillFact) : List Int := (fills.map (·.conid)).dedup.insertionSort (· ≤ ·)

/-- The trips of a finished walk: the closed ones, then the one still open. -/
def Walk.allTrips (P : Projector) (w : Walk) : List RoundTrip := w.trips ++ (w.trip.map (·.build P .OPEN)).toList

/-- `Projection`; the moves stand for the pieces. -/
structure Projection where
  trips : List RoundTrip
  moves : List Move
  deriving DecidableEq

def Projection.pieces (p : Projection) : List Piece := p.moves.map (·.piece)

def checkFills : List String → List FillFact → Except ProjectionError Unit
  | _, [] => .ok ()
  | seen, f :: rest =>
    match validate f with
    | .error e => .error e
    | .ok () => if f.execId ∈ seen then .error (.twice f.execId) else checkFills (f.execId :: seen) rest

/-- The walks of the instruments, one after the other. -/
def walkConids (P : Projector) (fuel : Nat) (fills : List FillFact) : List Int → Option Projection
  | [] => some ⟨[], []⟩
  | conid :: rest =>
    (Walk.start.fills P fuel (fillsOf fills conid)).bind fun w =>
      (walkConids P fuel fills rest).map fun p => ⟨w.allTrips P ++ p.trips, w.moves ++ p.moves⟩

def projectRoundTrips (P : Projector) (fuel : Nat) (fills : List FillFact) : Except ProjectionError (Option Projection) :=
  (checkFills [] fills).map fun _ => walkConids P fuel fills (conidsOf fills)

end MmrTrader.Scoreboard
