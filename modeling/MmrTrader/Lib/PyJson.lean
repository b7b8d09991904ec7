import MmrTrader.Lib.CodePoints

/-!
# JSON as Python reads and writes it

* `Node`, `Value` — what `json` makes of a text; an object's fields and an array's items are chains.
* `dumps` — `json.dumps` with `ensure_ascii`, the separators `,` and `:`, and `allow_nan=False`; `dumpsWith` — in any style.
* `scanString`, `matchNumber`, `scanOnce` — the scanner; `limit` is how deeply the interpreter recurses.
* `detectEncoding`, `loads` — `json.loads` of bytes, with an `object_pairs_hook`.
-/

set_option autoImplicit false

namespace MmrTrader.Lib.PyJson

open CanonicalJson (Kind hexDigit)

/-! ## Values -/

inductive Node (F : Type) : Kind → Type where
  | null : Node F .value
  | bool (b : Bool) : Node F .value
  | int (i : Int) : Node F .value
  | float (x : F) : Node F .value
  | str (s : Text) : Node F .value
  | array (items : Node F .items) : Node F .value
  | object (fields : Node F .fields) : Node F .value
  | nil : Node F .items
  | cons (v : Node F .value) (rest : Node F .items) : Node F .items
  | empty : Node F .fields
  | field (key : Text) (v : Node F .value) (rest : Node F .fields) : Node F .fields
  deriving DecidableEq

abbrev Value (F : Type) := Node F .value

/-- The pairs of an object, in order. -/
def fields {F : Type} : List (Text × Value F) → Node F .fields
  | [] => .empty
  | (key, v) :: rest => .field key v (fields rest)

def keys {F : Type} : {k : Kind} → Node F k → List Text
  | _, .field key _ rest => key :: keys rest
  | _, _ => []

/-! ## Numbers -/

/-- The text of a number, taken apart. -/
structure Literal where
  negative : Bool
  integer : Text
  fraction : Option Text
  exponent : Option (Text × Text)
  deriving DecidableEq

def Literal.isFloat (l : Literal) : Bool := l.fraction.isSome || l.exponent.isSome

def fractionText : Option Text → Text
  | none => []
  | some digits => point '.' :: digits

def exponentText : Option (Text × Text) → Text
  | none => []
  | some (mark, digits) => mark ++ digits

def Literal.text (l : Literal) : Text :=
  (if l.negative then [point '-'] else []) ++ (l.integer ++ (fractionText l.fraction ++ exponentText l.exponent))

def isDigit (c : CodePoint) : Bool := 48 ≤ c.val && c.val ≤ 57

def AreDigits (t : Text) : Prop := t ≠ [] ∧ ∀ c ∈ t, isDigit c = true

/-- The marks that begin an exponent. -/
def marks : List Text :=
  [[point 'e'], [point 'E'], [point 'e', point '+'], [point 'e', point '-'], [point 'E', point '+'], [point 'E', point '-']]

structure Literal.WellFormed (l : Literal) : Prop where
  integer : AreDigits l.integer
  zero : ∀ rest, l.integer = point '0' :: rest → rest = []
  fraction : ∀ digits, l.fraction = some digits → AreDigits digits
  exponent : ∀ mark digits, l.exponent = some (mark, digits) → mark ∈ marks ∧ AreDigits digits

/-- How a `float` is written by `float.__repr__` and read by `float`. -/
class FloatText (F : Type) where
  isFinite : F → Bool
  repr : F → Literal
  ofText : Literal → F
  nan : F
  infinity : F
  negInfinity : F
  repr_wellFormed : ∀ x, isFinite x = true → (repr x).WellFormed
  repr_isFloat : ∀ x, isFinite x = true → (repr x).isFloat = true
  ofText_repr : ∀ x, isFinite x = true → ofText (repr x) = x

/-- `sys.get_int_max_str_digits()`. -/
def maxStrDigits : Nat := 4300

def digits (n : Nat) : Text := (Nat.toDigits 10 n).map point

/-- The text of an integer. -/
def intLiteral (i : Int) : Literal := ⟨decide (i < 0), digits i.natAbs, none, none⟩

/-- The number of a run of digits. -/
def ofDigits (t : Text) : Nat := t.foldl (fun n c => n * 10 + (c.val - 48)) 0

def Literal.toInt (l : Literal) : Int := if l.negative then -(ofDigits l.integer : Int) else ofDigits l.integer

/-! ## Writing -/

/-- Why a value is not written: `RecursionError`, or one of the `ValueError`s. -/
inductive DumpError where
  | recursion
  | outOfRangeFloat
  | digits
  deriving DecidableEq

def fourHex (n : Nat) : Text :=
  [point (hexDigit (n / 4096 % 16)), point (hexDigit (n / 256 % 16)), point (hexDigit (n / 16 % 16)), point (hexDigit (n % 16))]

/-- `\uXXXX`. -/
def unicodeEscape (n : Nat) : Text := point '\\' :: point 'u' :: fourHex n

/-- The characters with an escape of two characters, each with its second one. -/
def shortEscapes : List (CodePoint × CodePoint) :=
  [(point '"', point '"'), (point '\\', point '\\'), (point '\n', point 'n'), (point '\r', point 'r'),
    (point '\t', point 't'), (point '\x08', point 'b'), (point '\x0c', point 'f')]

/-- A character of a string, as `py_encode_basestring_ascii` writes it. -/
def escapeChar (c : CodePoint) : Text :=
  match shortEscapes.lookup c with
  | some d => [point '\\', d]
  | none =>
    if 32 ≤ c.val && c.val ≤ 126 then [c]
    else if c.val < 0x10000 then unicodeEscape c.val
    else unicodeEscape (0xD800 + (c.val - 0x10000) / 0x400) ++ unicodeEscape (0xDC00 + (c.val - 0x10000) % 0x400)

def quote (s : Text) : Text := point '"' :: (s.flatMap escapeChar ++ [point '"'])

variable {F : Type} [FloatText F]

/-- A node's text; `sep` stands before a further link of a chain, and the end of the chain closes it. -/
def dumps : {k : Kind} → Node F k → Nat → Text → Except DumpError Text
  | _, .null, _, _ => .ok (text "null")
  | _, .bool true, _, _ => .ok (text "true")
  | _, .bool false, _, _ => .ok (text "false")
  | _, .int i, _, _ =>
    if maxStrDigits < (digits i.natAbs).length then .error .digits else .ok (intLiteral i).text
  | _, .float x, _, _ =>
    if FloatText.isFinite x then .ok (FloatText.repr x).text else .error .outOfRangeFloat
  | _, .str s, _, _ => .ok (quote s)
  | _, .array _, 0, _ => .error .recursion
  | _, .array items, limit + 1, _ => do
    let t ← dumps items limit []
    return point '[' :: t
  | _, .object _, 0, _ => .error .recursion
  | _, .object fields, limit + 1, _ => do
    let t ← dumps fields limit []
    return point '{' :: t
  | _, .nil, _, _ => .ok [point ']']
  | _, .cons v rest, limit, sep => do
    let t ← dumps v limit []
    let more ← dumps rest limit [point ',']
    return sep ++ (t ++ more)
  | _, .empty, _, _ => .ok [point '}']
  | _, .field key v rest, limit, sep => do
    let t ← dumps v limit []
    let more ← dumps rest limit [point ',']
    return sep ++ (quote key ++ (point ':' :: (t ++ more)))

/-- How `json.dumps` is asked to write: what it puts after a comma and a colon, and its word for a float that is not
finite, if it may write one. -/
structure Style (F : Type) where
  gap : Text
  word : F → Option Text

/-- `dumps` in a style. -/
def dumpsWith (s : Style F) : {k : Kind} → Node F k → Nat → Text → Except DumpError Text
  | _, .null, _, _ => .ok (text "null")
  | _, .bool true, _, _ => .ok (text "true")
  | _, .bool false, _, _ => .ok (text "false")
  | _, .int i, _, _ =>
    if maxStrDigits < (digits i.natAbs).length then .error .digits else .ok (intLiteral i).text
  | _, .float x, _, _ =>
    if FloatText.isFinite x then .ok (FloatText.repr x).text
    else match s.word x with
      | some w => .ok w
      | none => .error .outOfRangeFloat
  | _, .str s, _, _ => .ok (quote s)
  | _, .array _, 0, _ => .error .recursion
  | _, .array items, limit + 1, _ => do
    let t ← dumpsWith s items limit []
    return point '[' :: t
  | _, .object _, 0, _ => .error .recursion
  | _, .object fields, limit + 1, _ => do
    let t ← dumpsWith s fields limit []
    return point '{' :: t
  | _, .nil, _, _ => .ok [point ']']
  | _, .cons v rest, limit, sep => do
    let t ← dumpsWith s v limit []
    let more ← dumpsWith s rest limit (point ',' :: s.gap)
    return sep ++ (t ++ more)
  | _, .empty, _, _ => .ok [point '}']
  | _, .field key v rest, limit, sep => do
    let t ← dumpsWith s v limit []
    let more ← dumpsWith s rest limit (point ',' :: s.gap)
    return sep ++ (quote key ++ (point ':' :: (s.gap ++ (t ++ more))))

/-- The style of `dumps`. -/
def compact : Style F := ⟨[], fun _ => none⟩

theorem dumpsWith_compact {k : Kind} (n : Node F k) (limit : Nat) (sep : Text) : dumpsWith compact n limit sep = dumps n limit sep := by
  induction n generalizing limit sep with
  | null | str | nil | empty => rfl
  | bool b => cases b <;> rfl
  | int i => rfl
  | float x => rfl
  | array items ih =>
    cases limit with
    | zero => rfl
    | succ limit => rw [dumpsWith, dumps, ih]
  | object fields ih =>
    cases limit with
    | zero => rfl
    | succ limit => rw [dumpsWith, dumps, ih]
  | cons v rest ihv ihrest => rw [dumpsWith, dumps, ihv, ihrest]; rfl
  | field key v rest ihv ihrest => rw [dumpsWith, dumps, ihv, ihrest]; rfl

/-! ## Reading -/

/-- Why a text is not read: `JSONDecodeError`, `UnicodeDecodeError`, the `ValueError` of `int`, `RecursionError`, or what
the hook raises. -/
inductive LoadError (E : Type) where
  | syntaxError
  | unicode
  | digits
  | recursion
  | hook (e : E)
  deriving DecidableEq

variable {E : Type}

def isWhite (c : CodePoint) : Bool := c.val = 32 || c.val = 9 || c.val = 10 || c.val = 13

def skipWhite (t : Text) : Text := t.dropWhile isWhite

def hexValue (c : CodePoint) : Option (Fin 16) :=
  if h : 48 ≤ c.val ∧ c.val ≤ 57 then some ⟨c.val - 48, by omega⟩
  else if h : 97 ≤ c.val ∧ c.val ≤ 102 then some ⟨c.val - 87, by omega⟩
  else if h : 65 ≤ c.val ∧ c.val ≤ 70 then some ⟨c.val - 55, by omega⟩
  else none

/-- The unit that four hexadecimal digits name. -/
def readFourHex (a b c d : CodePoint) : Option CodePoint := do
  let a ← hexValue a
  let b ← hexValue b
  let c ← hexValue c
  let d ← hexValue d
  return ⟨((a.val * 16 + b.val) * 16 + c.val) * 16 + d.val, by omega⟩

/-- The characters that may follow a backslash, other than `u`. -/
def unescapes : List (CodePoint × CodePoint) :=
  [(point '"', point '"'), (point '\\', point '\\'), (point '/', point '/'), (point 'b', point '\x08'),
    (point 'f', point '\x0c'), (point 'n', point '\n'), (point 'r', point '\r'), (point 't', point '\t')]

def unescape (c : CodePoint) : Option CodePoint := unescapes.lookup c

/-- A character before the rest of a string. -/
def push (c : CodePoint) (r : Except (LoadError E) (Text × Text)) : Except (LoadError E) (Text × Text) := do
  let (s, rest) ← r
  return (c :: s, rest)

/-- `scanstring`, from after the opening quote. -/
def scanString : Text → Except (LoadError E) (Text × Text)
  | [] => .error .syntaxError
  | c :: rest =>
    if c = point '"' then .ok ([], rest)
    else if c = point '\\' then
      match rest with
      | [] => .error .syntaxError
      | d :: rest =>
        if d = point 'u' then
          match rest with
          | h1 :: h2 :: h3 :: h4 :: rest =>
            match readFourHex h1 h2 h3 h4 with
            | none => .error .syntaxError
            | some high =>
              if isHigh high then
                -- a second escape may be the other half; otherwise it is read again on its own
                match rest with
                | s :: u :: l1 :: l2 :: l3 :: l4 :: after =>
                  if s = point '\\' ∧ u = point 'u' then
                    match readFourHex l1 l2 l3 l4 with
                    | none => .error .syntaxError
                    | some low =>
                      if isLow low then push (joinPair high low) (scanString after)
                      else push high (scanString (s :: u :: l1 :: l2 :: l3 :: l4 :: after))
                  else push high (scanString (s :: u :: l1 :: l2 :: l3 :: l4 :: after))
                | rest => push high (scanString rest)
              else push high (scanString rest)
          | _ => .error .syntaxError
        else
          match unescape d with
          | none => .error .syntaxError
          | some e => push e (scanString rest)
    else if c.val < 32 then .error .syntaxError
    else push c (scanString rest)

def isExponentMark (c : CodePoint) : Bool := c = point 'e' || c = point 'E'

def isSign (c : CodePoint) : Bool := c = point '+' || c = point '-'

def matchFraction (t : Text) : Option Text × Text :=
  match t with
  | c :: rest => if c = point '.' ∧ rest.takeWhile isDigit ≠ [] then (some (rest.takeWhile isDigit), rest.dropWhile isDigit) else (none, t)
  | [] => (none, t)

/-- An `e`, a sign and digits, if there are digits. -/
def matchExponent (t : Text) : Option (Text × Text) × Text :=
  match t with
  | c :: rest =>
    if isExponentMark c then
      match rest with
      | d :: after =>
        if isSign d then
          if after.takeWhile isDigit ≠ [] then (some ([c, d], after.takeWhile isDigit), after.dropWhile isDigit) else (none, t)
        else if rest.takeWhile isDigit ≠ [] then (some ([c], rest.takeWhile isDigit), rest.dropWhile isDigit)
        else (none, t)
      | [] => (none, t)
    else (none, t)
  | [] => (none, t)

/-- `_match_number_unicode`, from after a minus sign. -/
def matchUnsigned (negative : Bool) (t : Text) : Option (Literal × Text) :=
  match t with
  | c :: rest =>
    if isDigit c then
      let integer := if c = point '0' then [c] else c :: rest.takeWhile isDigit
      let afterInteger := if c = point '0' then rest else rest.dropWhile isDigit
      let fraction := matchFraction afterInteger
      let exponent := matchExponent fraction.2
      some (⟨negative, integer, fraction.1, exponent.1⟩, exponent.2)
    else none
  | [] => none

def matchNumber (t : Text) : Option (Literal × Text) :=
  match t with
  | c :: rest => if c = point '-' then matchUnsigned true rest else matchUnsigned false t
  | [] => none

/-- The number of a literal: `parse_float` or `parse_int`. -/
def readLiteral (l : Literal) : Except (LoadError E) (Value F) :=
  if l.isFloat then .ok (.float (FloatText.ofText l))
  else if maxStrDigits < l.integer.length then .error .digits
  else .ok (.int l.toInt)

/-- A word, its first character already seen. -/
def keyword (word : String) (v : Value F) (rest : Text) : Except (LoadError E) (Value F × Text) :=
  if (text word).isPrefixOf rest then .ok (v, rest.drop word.length) else .error .syntaxError

def scanNumber (t : Text) : Except (LoadError E) (Value F × Text) :=
  match matchNumber t with
  | none => .error .syntaxError
  | some (l, rest) => do
    let v ← readLiteral l
    return (v, rest)

/-- `scan_once`, with what reads an object and an array, from after the bracket. -/
def scanTerm (object array : Text → Except (LoadError E) (Value F × Text)) (t : Text) :
    Except (LoadError E) (Value F × Text) :=
  match t with
  | [] => .error .syntaxError
  | c :: rest =>
    if c = point '"' then do
      let (s, rest) ← scanString rest
      return (.str s, rest)
    else if c = point '{' then object rest
    else if c = point '[' then array rest
    else if c = point 'n' then keyword "ull" .null rest
    else if c = point 't' then keyword "rue" (.bool true) rest
    else if c = point 'f' then keyword "alse" (.bool false) rest
    else if c = point 'N' then keyword "aN" (.float FloatText.nan) rest
    else if c = point 'I' then keyword "nfinity" (.float FloatText.infinity) rest
    else if c = point '-' ∧ rest.head? = some (point 'I') then keyword "Infinity" (.float FloatText.negInfinity) rest
    else scanNumber t

section
variable (value : Text → Except (LoadError E) (Value F × Text))

/-- What follows an item: the end, or a comma and a further item. -/
def scanItems : Nat → Text → Except (LoadError E) (Node F .items × Text)
  | 0, _ => .error .syntaxError
  | n + 1, t =>
    match skipWhite t with
    | [] => .error .syntaxError
    | c :: rest =>
      if c = point ']' then .ok (.nil, rest)
      else if c = point ',' then do
        let (v, rest) ← value (skipWhite rest)
        let (more, rest) ← scanItems n rest
        return (.cons v more, rest)
      else .error .syntaxError

/-- `_parse_array_unicode`. -/
def scanArray (t : Text) : Except (LoadError E) (Value F × Text) :=
  match skipWhite t with
  | [] => .error .syntaxError
  | c :: rest =>
    if c = point ']' then .ok (.array .nil, rest)
    else do
      let (v, rest) ← value (c :: rest)
      let (more, rest) ← scanItems value (rest.length + 1) rest
      return (.array (.cons v more), rest)

def scanPair (t : Text) : Except (LoadError E) ((Text × Value F) × Text) :=
  match t with
  | [] => .error .syntaxError
  | c :: rest =>
    if c = point '"' then do
      let (key, rest) ← scanString rest
      match skipWhite rest with
      | [] => .error .syntaxError
      | d :: rest =>
        if d = point ':' then do
          let (v, rest) ← value (skipWhite rest)
          return ((key, v), rest)
        else .error .syntaxError
    else .error .syntaxError

def scanPairs : Nat → Text → Except (LoadError E) (List (Text × Value F) × Text)
  | 0, _ => .error .syntaxError
  | n + 1, t =>
    match skipWhite t with
    | [] => .error .syntaxError
    | c :: rest =>
      if c = point '}' then .ok ([], rest)
      else if c = point ',' then do
        let (pair, rest) ← scanPair value (skipWhite rest)
        let (more, rest) ← scanPairs n rest
        return (pair :: more, rest)
      else .error .syntaxError

variable (hook : List (Text × Value F) → Except E (Value F))

def applyHook (pairs : List (Text × Value F)) (rest : Text) : Except (LoadError E) (Value F × Text) :=
  match hook pairs with
  | .ok v => .ok (v, rest)
  | .error e => .error (.hook e)

/-- `_parse_object_unicode`. -/
def scanObject (t : Text) : Except (LoadError E) (Value F × Text) :=
  match skipWhite t with
  | [] => .error .syntaxError
  | c :: rest =>
    if c = point '}' then applyHook hook [] rest
    else do
      let (pair, rest) ← scanPair value (c :: rest)
      let (more, rest) ← scanPairs value (rest.length + 1) rest
      applyHook hook (pair :: more) rest

end

/-- `scan_once`; each bracket recurses once. -/
def scanOnce (hook : List (Text × Value F) → Except E (Value F)) : Nat → Text → Except (LoadError E) (Value F × Text)
  | 0 => scanTerm (fun _ => .error .recursion) (fun _ => .error .recursion)
  | limit + 1 => scanTerm (scanObject (scanOnce hook limit) hook) (scanArray (scanOnce hook limit))

def decode (hook : List (Text × Value F) → Except E (Value F)) (limit : Nat) (t : Text) : Except (LoadError E) (Value F) := do
  let (v, rest) ← scanOnce hook limit (skipWhite t)
  if skipWhite rest = [] then .ok v else .error .syntaxError

/-- `dict(pairs)`: the last value of a key, at the place of its first one. -/
def setItem (key : Text) (v : Value F) : List (Text × Value F) → List (Text × Value F)
  | [] => [(key, v)]
  | (k, w) :: rest => if k = key then (k, v) :: rest else (k, w) :: setItem key v rest

/-- What an object is without a hook. -/
def plainObject (pairs : List (Text × Value F)) : Except E (Value F) :=
  .ok (.object (fields (pairs.foldl (fun out pair => setItem pair.1 pair.2 out) [])))

/-! ## Bytes -/

/-- `json.detect_encoding`, with the bytes it has the codec skip. -/
def decodeBytes (b : List UInt8) : Option Text :=
  if [0x00, 0x00, 0xFE, 0xFF].isPrefixOf b then decodeUtf32 .big (b.drop 4)
  else if [0xFF, 0xFE, 0x00, 0x00].isPrefixOf b then decodeUtf32 .little (b.drop 4)
  else if [0xFE, 0xFF].isPrefixOf b then decodeUtf16 .big (b.drop 2)
  else if [0xFF, 0xFE].isPrefixOf b then decodeUtf16 .little (b.drop 2)
  else if [0xEF, 0xBB, 0xBF].isPrefixOf b then decodeUtf8 (b.drop 3)
  else
    match b with
    | b0 :: b1 :: b2 :: b3 :: _ =>
      if b0 = 0 then if b1 = 0 then decodeUtf32 .big b else decodeUtf16 .big b
      else if b1 = 0 then if b2 = 0 ∧ b3 = 0 then decodeUtf32 .little b else decodeUtf16 .little b
      else decodeUtf8 b
    | [b0, b1] => if b0 = 0 then decodeUtf16 .big b else if b1 = 0 then decodeUtf16 .little b else decodeUtf8 b
    | _ => decodeUtf8 b

/-- `json.loads` of bytes. -/
def loads (hook : List (Text × Value F) → Except E (Value F)) (limit : Nat) (b : List UInt8) : Except (LoadError E) (Value F) :=
  match decodeBytes b with
  | none => .error .unicode
  | some t => decode hook limit t

end MmrTrader.Lib.PyJson
