import Mathlib.Data.List.Perm.Basic
import Mathlib.Data.List.Sort
import MmrTrader.Lib.Transaction
import MmrTrader.Lib.KeyedLog
import MmrTrader.Lib.GuardedRun

/-!
# The bar table of `DuckDBDataStore`

* `Bar`, `Row` — a bar as a frame holds it, and as the table `tick_data` does.
* `Selects` — what `DuckDBDataStore.read` may answer.
* `write` — `DuckDBDataStore.write`: the range delete and the insert, in one transaction.
-/

set_option autoImplicit false

namespace MmrTrader.Data

open Lib

/-- One line of a frame, its index included.  `F` is the type of a `DOUBLE`; NULL and NaN are `none`. -/
structure Bar (F : Type) where
  date : Int
  openPrice : Option F
  high : Option F
  low : Option F
  close : Option F
  volume : Option F
  average : Option F
  barCount : Option Int
  barSize : Option String
  whatToShow : Option Int
  deriving DecidableEq

/-- A row of `tick_data`. -/
structure Row (F : Type) extends Bar F where
  symbol : String
  deriving DecidableEq

variable {F : Type} {ε : Type}

/-- `(symbol, bar_size, date)`; the table itself has no unique index. -/
structure Key where
  symbol : String
  barSize : Option String
  date : Int
  deriving DecidableEq

def Row.key (r : Row F) : Key := ⟨r.symbol, r.barSize, r.date⟩

/-- `write_df['symbol'] = symbol`. -/
def Bar.row (symbol : String) (b : Bar F) : Row F := { b with symbol := symbol }

@[simp] theorem Bar.row_key (symbol : String) (b : Bar F) : (b.row symbol).key = ⟨symbol, b.barSize, b.date⟩ := rfl

/-- The WHERE clause of `read`. -/
def selected (symbol : String) (start stop : Int) (barSize : Option String) (r : Row F) : Bool :=
  r.symbol == symbol && decide (start ≤ r.date) && decide (r.date ≤ stop) &&
    match barSize with
    | some size => r.barSize == some size || r.barSize == none
    | none => true

/-- `ORDER BY date` leaves rows of one date in any order, so `read` may answer any of these frames. -/
def Selects (rows : List (Row F)) (symbol : String) (start stop : Int) (barSize : Option String) (df : List (Bar F)) : Prop :=
  df.Perm ((rows.filter (selected symbol start stop barSize)).map Row.toBar) ∧
    df.Pairwise fun a b => a.date ≤ b.date

instance [DecidableEq F] (rows : List (Row F)) (symbol : String) (start stop : Int) (barSize : Option String) (df : List (Bar F)) :
    Decidable (Selects rows symbol start stop barSize df) :=
  inferInstanceAs (Decidable (_ ∧ _))

/-! ## `write` -/

/-- What the database raises at the statements of a write. -/
structure Faults (ε : Type) where
  delete : Option String → Option ε
  insert : Option ε
  commit : Option ε

def Faults.none : Faults ε := ⟨fun _ => .none, .none, .none⟩

/-- One statement: it raises, or it changes the table. -/
def statement (fault : Option ε) (f : List (Row F) → List (Row F)) : EStateM ε (List (Row F)) Unit := fun rows =>
  match fault with
  | some e => .error e rows
  | none => .ok () (f rows)

/-- `DELETE … WHERE symbol = ? AND date >= ? AND date <= ? [AND bar_size = ?]`. -/
def deleteRange (symbol : String) (minDate maxDate : Int) (barSize : Option String) (rows : List (Row F)) : List (Row F) :=
  rows.filter fun r => !(r.symbol == symbol && decide (minDate ≤ r.date) && decide (r.date ≤ maxDate) &&
    match barSize with
    | some size => r.barSize == some size
    | none => true)

/-- `list(write_df['bar_size'].dropna().unique())`. -/
def barSizesBeingWritten (df : List (Bar F)) : List String := (df.filterMap (·.barSize)).eraseDups

/-- The DELETE statements of `_write`.  A frame without any bar size falls back to every bar size of the range. -/
def deletes (faults : Faults ε) (symbol : String) (minDate maxDate : Int) (sizes : List String) :
    EStateM ε (List (Row F)) Unit :=
  if sizes = [] then statement (faults.delete none) (deleteRange symbol minDate maxDate none)
  else sizes.forM fun size => statement (faults.delete (some size)) (deleteRange symbol minDate maxDate (some size))

/-- `DuckDBDataStore.write`. -/
def write (faults : Faults ε) (symbol : String) (df : List (Bar F)) : EStateM ε (List (Row F)) Unit :=
  match (df.map (·.date)).min?, (df.map (·.date)).max? with
  | some minDate, some maxDate =>
      transaction faults.commit do
        deletes faults symbol minDate maxDate (barSizesBeingWritten df)
        statement faults.insert fun rows => rows ++ df.map (Bar.row symbol)
  -- `if df.empty: return`
  | _, _ => pure ()

variable {faults : Faults ε} {symbol : String} {df : List (Bar F)} {rows rows' : List (Row F)}

theorem statement_ok {fault : Option ε} {f : List (Row F) → List (Row F)} (h : statement fault f rows = .ok () rows') :
    rows' = f rows := by
  unfold statement at h
  cases fault with
  | some e => cases h
  | none => cases h; rfl

variable {minDate maxDate : Int}
variable {r : Row F}

theorem mem_deleteRange {barSize : Option String} :
    r ∈ deleteRange symbol minDate maxDate barSize rows ↔
      r ∈ rows ∧ ¬ (r.symbol = symbol ∧ minDate ≤ r.date ∧ r.date ≤ maxDate ∧ (barSize = none ∨ r.barSize = barSize)) := by
  unfold deleteRange
  cases barSize <;> simp <;> grind

variable {sizes : List String}

theorem mem_deletes
    (h : (sizes.forM fun size =>
      statement (faults.delete (some size)) (deleteRange symbol minDate maxDate (some size))) rows = .ok () rows') :
    r ∈ rows' ↔ r ∈ rows ∧
      ¬ (r.symbol = symbol ∧ minDate ≤ r.date ∧ r.date ≤ maxDate ∧ ∃ size ∈ sizes, r.barSize = some size) := by
  induction sizes generalizing rows with
  | nil =>
    cases h
    simp
  | cons size sizes ih =>
    obtain ⟨_, mid, hdelete, hrest⟩ := Tx.bind_ok h
    rw [ih hrest, statement_ok hdelete, mem_deleteRange]
    constructor
    · rintro ⟨⟨hr, hfirst⟩, hothers⟩
      refine ⟨hr, ?_⟩
      rintro ⟨hs, hlo, hhi, size', hsize', he⟩
      rcases List.mem_cons.mp hsize' with rfl | hsize'
      · exact hfirst ⟨hs, hlo, hhi, Or.inr he⟩
      · exact hothers ⟨hs, hlo, hhi, size', hsize', he⟩
    · rintro ⟨hr, hall⟩
      refine ⟨⟨hr, ?_⟩, ?_⟩
      · rintro ⟨hs, hlo, hhi, he⟩
        exact hall ⟨hs, hlo, hhi, size, List.mem_cons_self, he.resolve_left (by simp)⟩
      · rintro ⟨hs, hlo, hhi, size', hsize', he⟩
        exact hall ⟨hs, hlo, hhi, size', List.mem_cons_of_mem _ hsize', he⟩

theorem deletes_sublist
    (h : (sizes.forM fun size =>
      statement (faults.delete (some size)) (deleteRange symbol minDate maxDate (some size))) rows = .ok () rows') :
    rows'.Sublist rows := by
  induction sizes generalizing rows with
  | nil => cases h; exact List.Sublist.refl _
  | cons size sizes ih =>
    obtain ⟨_, mid, hdelete, hrest⟩ := Tx.bind_ok h
    have hmid := statement_ok hdelete
    exact (ih hrest).trans (hmid ▸ List.filter_sublist)

/-- **The rows after a write.**  A frame all of whose bars have the bar size `size` replaces that bar size in
    its range of dates. -/
theorem write_ok {size : String} (hne : df ≠ []) (hsize : ∀ b ∈ df, b.barSize = some size)
    (h : write faults symbol df rows = .ok () rows') :
    ∃ kept, kept.Sublist rows ∧ rows' = kept ++ df.map (Bar.row symbol) ∧
      ∀ r, r ∈ kept ↔ r ∈ rows ∧
        ¬ (r.symbol = symbol ∧ (∃ b ∈ df, b.date ≤ r.date) ∧ (∃ b ∈ df, r.date ≤ b.date) ∧ r.barSize = some size) := by
  have hmin : ∀ d : Int, (∀ m, (df.map (·.date)).min? = some m → (m ≤ d ↔ ∃ b ∈ df, b.date ≤ d)) := by
    intro d m hm
    obtain ⟨hmem, hle⟩ := List.min?_eq_some_iff.mp hm
    obtain ⟨b, hb, rfl⟩ := List.mem_map.mp hmem
    exact ⟨fun hd => ⟨b, hb, hd⟩, fun ⟨b', hb', hd⟩ => (hle _ (List.mem_map_of_mem hb')).trans hd⟩
  have hmax : ∀ d : Int, (∀ m, (df.map (·.date)).max? = some m → (d ≤ m ↔ ∃ b ∈ df, d ≤ b.date)) := by
    intro d m hm
    obtain ⟨hmem, hle⟩ := List.max?_eq_some_iff.mp hm
    obtain ⟨b, hb, rfl⟩ := List.mem_map.mp hmem
    exact ⟨fun hd => ⟨b, hb, hd⟩, fun ⟨b', hb', hd⟩ => hd.trans (hle _ (List.mem_map_of_mem hb'))⟩
  have hsizes : ∀ s, s ∈ barSizesBeingWritten df ↔ s = size := by
    intro s
    simp only [barSizesBeingWritten, List.mem_eraseDups, List.mem_filterMap]
    constructor
    · rintro ⟨b, hb, hs⟩
      exact Option.some.inj (hs.symm.trans (hsize b hb))
    · rintro rfl
      obtain ⟨b, hb⟩ := List.exists_mem_of_ne_nil _ hne
      exact ⟨b, hb, hsize b hb⟩
  obtain ⟨b, hb⟩ := List.exists_mem_of_ne_nil _ hne
  have hmap : df.map (·.date) ≠ [] := List.ne_nil_of_mem (List.mem_map_of_mem hb)
  obtain ⟨minDate, hlo⟩ := Option.ne_none_iff_exists'.mp (mt List.min?_eq_none_iff.mp hmap)
  obtain ⟨maxDate, hhi⟩ := Option.ne_none_iff_exists'.mp (mt List.max?_eq_none_iff.mp hmap)
  simp only [write, hlo, hhi] at h
  obtain ⟨_, kept, hdeletes, hinsert⟩ := Tx.bind_ok (transaction_ok h)
  rw [deletes, if_neg (List.ne_nil_of_mem ((hsizes size).mpr rfl))] at hdeletes
  have hrows := statement_ok hinsert
  refine ⟨kept, deletes_sublist hdeletes, hrows, fun r => ?_⟩
  rw [mem_deletes hdeletes, hmin _ _ hlo, hmax _ _ hhi]
  simp only [hsizes, exists_eq_left]

/-- A write that raises, at whichever statement, changes nothing. -/
theorem write_error {e : ε} (h : write faults symbol df rows = .error e rows') : rows' = rows := by
  cases hlo : (df.map (·.date)).min? with
  | none => simp only [write, hlo] at h; cases h
  | some minDate =>
    cases hhi : (df.map (·.date)).max? with
    | none => simp only [write, hlo, hhi] at h; cases h
    | some maxDate => simp only [write, hlo, hhi] at h; exact transaction_error h

end MmrTrader.Data

/-!
## Merging bars into the store: `TickData.write_resolve_overlap`

* `Call`, `Store`, `step` — any interleaving of calls: each reads once, later writes once, and may raise before.
* `Call.lastBar`, `Call.apply` — what a merge is for: the closed bars of the frame, upserted.
* `Fits` — the writes that do that.
-/

namespace MmrTrader.Data

open Lib

variable {F ε : Type}

/-- A frame of bars; without the `close` column no bar of it has a close. -/
structure Frame (F : Type) where
  bars : List (Bar F)
  hasClose : Bool
  close_absent : hasClose = false → ∀ b ∈ bars, b.close = none

def dropEmptyBars (frame : Frame F) : List (Bar F) :=
  if frame.hasClose then frame.bars.filter (·.close.isSome) else frame.bars

/-- `df[~df.index.duplicated(keep='last')]`. -/
def keepLast : List (Bar F) → List (Bar F)
  | [] => []
  | b :: rest => if rest.any (·.date == b.date) then keepLast rest else b :: keepLast rest

/-- `result.sort_index(inplace=True)`. -/
def sortIndex (df : List (Bar F)) : List (Bar F) := df.insertionSort fun a b => a.date ≤ b.date

/-- What `write_resolve_overlap` writes after its read; `none` when it returns without a write. -/
def resolve (frame : Frame F) (existing : List (Bar F)) : Option (List (Bar F)) :=
  let dataFrame := dropEmptyBars frame
  if existing = [] then some dataFrame
  else if dataFrame = [] then none
  else some (sortIndex (keepLast (existing ++ dataFrame)))

/-- A call of `write_resolve_overlap` on the library `libraryName`, with a frame of the library's bar size. -/
structure Call (F : Type) where
  libraryName : String
  symbol : String
  frame : Frame F
  own : ∀ b ∈ frame.bars, b.barSize = some libraryName

/-- `self.library_name if self.library_name else None`. -/
def Call.barSizeFilter (c : Call F) : Option String := if c.libraryName = "" then none else some c.libraryName

inductive Phase (F : Type) where
  | ready
  | holding (existing : List (Bar F))
  | done
  | raised

/-- The table and the calls.  `log` is a ghost: the calls that returned, in the order of their writes. -/
structure Store (F : Type) where
  rows : List (Row F)
  calls : List (Call F × Phase F)
  log : List (Call F)

inductive Act (F ε : Type) where
  | call (c : Call F)
  /-- The read of call `i` at `now` answers `df`. -/
  | read (i : Nat) (now : Int) (df : List (Bar F))
  | write (i : Nat) (faults : Faults ε)
  /-- Call `i` raises outside its transaction. -/
  | raise (i : Nat)

def Store.setPhase (s : Store F) (i : Nat) (c : Call F) (phase : Phase F) : Store F :=
  { s with calls := s.calls.set i (c, phase) }

def Store.complete (s : Store F) (i : Nat) (c : Call F) (rows : List (Row F)) : Store F :=
  { s.setPhase i c .done with rows := rows, log := s.log ++ [c] }

/-- The write of call `i`, which has read `existing`. -/
def Store.merge (s : Store F) (i : Nat) (c : Call F) (existing : List (Bar F)) (faults : Faults ε) : Store F :=
  match resolve c.frame existing with
  | none => s.complete i c s.rows
  | some df =>
      match write faults c.symbol df s.rows with
      | .ok _ rows => s.complete i c rows
      | .error _ rows => { s.setPhase i c .raised with rows := rows }

/-- One step.  `epoch` is `dt.datetime(1970, 1, 1)` in the zone of the database session. -/
def step [DecidableEq F] (epoch : Int) (s : Store F) : Act F ε → Store F
  | .call c => { s with calls := s.calls ++ [(c, .ready)] }
  | .read i now df =>
      match s.calls[i]? with
      | some (c, .ready) =>
          if Selects s.rows c.symbol epoch now c.barSizeFilter df then s.setPhase i c (.holding df) else s
      | _ => s
  | .write i faults =>
      match s.calls[i]? with
      | some (c, .holding existing) => s.merge i c existing faults
      | _ => s
  | .raise i =>
      match s.calls[i]? with
      | some (c, .ready) => s.setPhase i c .raised
      | some (c, .holding _) => s.setPhase i c .raised
      | _ => s

def start (initial : List (Row F)) : Store F := ⟨initial, [], []⟩

def run [DecidableEq F] (epoch : Int) (initial : List (Row F)) (acts : List (Act F ε)) : Store F :=
  acts.foldl (step epoch) (start initial)

def Store.Done (s : Store F) (c : Call F) : Prop := ∃ i : Nat, s.calls[i]? = some (c, .done)

def Raises [DecidableEq F] (epoch : Int) (s : Store F) (a : Act F ε) : Prop :=
  ∃ (i : Nat) (c : Call F), (step epoch s a).calls[i]? = some (c, .raised) ∧ s.calls[i]? ≠ some (c, .raised)

/-! ## What a merge is for -/

def Call.closed (c : Call F) : List (Bar F) := c.frame.bars.filter (·.close.isSome)

def Call.lastBar (c : Call F) (k : Key) : Option (Row F) :=
  if k.symbol = c.symbol ∧ k.barSize = some c.libraryName then (lastOf (·.date) c.closed k.date).map (Bar.row c.symbol) else none

/-- A store seen from outside: at most one row at each key. -/
abbrev Book (F : Type) := Key → Option (Row F)

/-- The closed bars of the frame, upserted. -/
def Call.apply (book : Book F) (c : Call F) : Book F := fun k => (c.lastBar k).or (book k)

/-- The row is the last closed bar at the key of some frame, and no later frame has one there. -/
def Newest (log : List (Call F)) (k : Key) (r : Row F) : Prop :=
  ∃ before c after, log = before ++ c :: after ∧ c.lastBar k = some r ∧ ∀ d ∈ after, d.lastBar k = none

/-- Nothing lost, nothing doubled. -/
structure Merged (initial : List (Row F)) (s : Store F) : Prop where
  once : (s.rows.map Row.key).Nodup
  kept : ∀ r ∈ initial, ∃ r' ∈ s.rows, r'.key = r.key ∧ (r' = r ∨ ∃ c, s.Done c ∧ c.lastBar r.key = some r')
  stored : ∀ c, s.Done c → ∀ b ∈ c.frame.bars, b.close.isSome = true →
    ∃ r ∈ s.rows, r.key = ⟨c.symbol, some c.libraryName, b.date⟩ ∧ Newest s.log r.key r
  noEmptyBar : ∀ r ∈ s.rows, r.close = none → r ∈ initial
  others : ∀ r, (∀ c, s.Done c → ¬ (r.symbol = c.symbol ∧ r.barSize = some c.libraryName)) → (r ∈ s.rows ↔ r ∈ initial)
  logged : ∀ c, c ∈ s.log ↔ s.Done c

/-- A write that upserts the closed bars of its frame and nothing else. -/
structure Call.Fits (c : Call F) (existing : List (Bar F)) (rows : List (Row F)) : Prop where
  /-- The bars without a close can be told. -/
  closeColumn : c.frame.hasClose = true ∨ c.frame.bars = []
  /-- A frame that meets no stored bar has no two closed bars of one time. -/
  single : existing = [] → (c.closed.map (·.date)).Nodup
  /-- Where the frame has no closed bar, the last bar read is one of the library's bar size. -/
  sized : c.closed ≠ [] → ∀ b ∈ existing, lastOf (·.date) existing b.date = some b → (∀ a ∈ c.closed, a.date ≠ b.date) →
    b.barSize = some c.libraryName
  /-- What the delete takes is what was read, or the frame has a closed bar in its place. -/
  seen : c.closed ≠ [] → ∀ r ∈ rows, r.symbol = c.symbol → r.barSize = some c.libraryName →
    (∃ b ∈ existing ++ c.closed, b.date ≤ r.date) → (∃ b ∈ existing ++ c.closed, r.date ≤ b.date) →
    r.toBar ∈ existing ∨ ∃ b ∈ c.closed, b.date = r.date

set_option synthInstance.maxSize 1024 in
instance [DecidableEq F] (c : Call F) (existing : List (Bar F)) (rows : List (Row F)) : Decidable (c.Fits existing rows) :=
  decidable_of_iff
    ((c.frame.hasClose = true ∨ c.frame.bars = []) ∧ (existing = [] → (c.closed.map (·.date)).Nodup) ∧
      (c.closed ≠ [] → ∀ b ∈ existing, lastOf (·.date) existing b.date = some b → (∀ a ∈ c.closed, a.date ≠ b.date) →
        b.barSize = some c.libraryName) ∧
      (c.closed ≠ [] → ∀ r ∈ rows, r.symbol = c.symbol → r.barSize = some c.libraryName →
        (∃ b ∈ existing ++ c.closed, b.date ≤ r.date) → (∃ b ∈ existing ++ c.closed, r.date ≤ b.date) →
        r.toBar ∈ existing ∨ ∃ b ∈ c.closed, b.date = r.date))
    ⟨fun ⟨h₁, h₂, h₃, h₄⟩ => ⟨h₁, h₂, h₃, h₄⟩, fun h => ⟨h.closeColumn, h.single, h.sized, h.seen⟩⟩

/-- The steps of a run that do: any step but a write, and a write that fits. -/
def Fits (s : Store F) : Act F ε → Prop
  | .write i _ =>
      match s.calls[i]? with
      | some (c, .holding existing) => c.Fits existing s.rows
      | _ => True
  | _ => True

instance [DecidableEq F] (s : Store F) : (a : Act F ε) → Decidable (Fits s a)
  | .call _ | .read _ _ _ | .raise _ => .isTrue trivial
  | .write i _ =>
    match h : s.calls[i]? with
    | some (c, .holding existing) => decidable_of_iff (c.Fits existing s.rows) (by simp [Fits, h])
    | some (_, .ready) | some (_, .done) | some (_, .raised) | none => .isTrue (by simp [Fits, h])

end MmrTrader.Data
