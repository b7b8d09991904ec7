import MmrTrader.Lib.Calendar
import MmrTrader.Lib.Decimal
import MmrTrader.Rpc.Envelope
import MmrTrader.Lib.Table

/-!
# Canonical bytes of research evidence

Executable model of `trader/research/canonical.py`.

* `Value` — the values a caller may pass; a mapping is a chain of entries in insertion order, its keys of any type.

Strings are Unicode text; one with a lone surrogate is refused by `encode` and has no place here.
-/

set_option autoImplicit false

namespace MmrTrader.Research

open Lib Lib.CanonicalJson Rpc

inductive Value (K F : Type) : Kind → Type where
  | null : Value K F .value
  | bool (b : Bool) : Value K F .value
  | int (n : Int) : Value K F .value
  | str (s : String) : Value K F .value
  | float (f : F) : Value K F .value
  /-- NaN and the infinities. -/
  | nonFinite : Value K F .value
  | decimal (d : Decimal) : Value K F .value
  | aware (d : DateTime) : Value K F .value
  | naive (w : WallTime) : Value K F .value
  | date (d : CivilDate) : Value K F .value
  | mapping (entries : Value K F .fields) : Value K F .value
  | list (items : Value K F .items) : Value K F .value
  | tuple (items : Value K F .items) : Value K F .value
  | other (type : String) : Value K F .value
  | nil : Value K F .items
  | cons (v : Value K F .value) (rest : Value K F .items) : Value K F .items
  | empty : Value K F .fields
  | entry (key : K) (v : Value K F .value) (rest : Value K F .fields) : Value K F .fields

variable {K F : Type}

/-- `str(key)` and `repr(value)`. -/
structure Host (K F : Type) where
  str : K → String
  repr : Value K F .value → String

inductive CanonicalError where
  | ValueError (text : String)
  | TypeError (text : String)
  | OverflowError
  deriving DecidableEq

/-- `dict[key] = value` before the rest: a later value of the same key stands.  The place of a key does not matter, since
the keys are sorted. -/
def setItem (key : String) (v : Json (PyNumber F)) (rest : Node (PyNumber F) .fields) : Node (PyNumber F) .fields :=
  if key ∈ keys rest then rest else .field key v rest

def canonicalDecimal (H : Host K F) (d : Decimal) : Except CanonicalError (Json (PyNumber F)) :=
  match d with
  | .finite _ _ _ => .ok (.str (String.ofList d.str))
  | _ => .error (.ValueError ("non-finite Decimal is not canonical: " ++ H.repr (.decimal d)))

def canonicalTime (d : DateTime) : Except CanonicalError (Json (PyNumber F)) :=
  match d.toUtc with
  | some t => .ok (.str (String.ofList t.isoformat))
  | none => .error .OverflowError

def canonicalize (H : Host K F) : {k : Kind} → Value K F k → Except CanonicalError (Node (PyNumber F) k)
  | _, .null => .ok .null
  | _, .bool b => .ok (.bool b)
  | _, .int n => .ok (.num (.int n))
  | _, .str s => .ok (.str s)
  | _, .float f => .ok (.num (.float f))
  | _, .nonFinite => .error (.ValueError ("non-finite float is not canonical: " ++ H.repr .nonFinite))
  | _, .decimal d => canonicalDecimal H d
  | _, .aware d => canonicalTime d
  | _, .naive w =>
    .error (.ValueError ("naive datetime is not canonical (must be tz-aware UTC): " ++ H.repr (.naive w)))
  | _, .date d => .ok (.str (String.ofList d.isoformat))
  | _, .mapping entries => (canonicalize H entries).map .object
  | _, .list items => (canonicalize H items).map .array
  | _, .tuple items => (canonicalize H items).map .array
  | _, .other type => .error (.TypeError ("unsupported type in canonical JSON: " ++ type))
  | _, .nil => .ok .nil
  | _, .cons v rest => do
    let v ← canonicalize H v
    let rest ← canonicalize H rest
    return .cons v rest
  | _, .empty => .ok .empty
  | _, .entry key v rest => do
    let v ← canonicalize H v
    let rest ← canonicalize H rest
    return setItem (H.str key) v rest

variable [PyFloat F]

def canonicalJsonBytes (H : Host K F) (v : Value K F .value) : Except CanonicalError ByteArray :=
  (canonicalize H v).map fun j => (canonical j).toUTF8

/-- The bytes that a digest is taken of. -/
def hashed (label : String) (bytes : ByteArray) : ByteArray := label.toUTF8 ++ "\n".toUTF8 ++ bytes

def sha256Digest (H : Host K F) (sha256 : ByteArray → String) (label : String) (v : Value K F .value) :
    Except CanonicalError String :=
  (canonicalJsonBytes H v).map fun bytes => sha256 (hashed label bytes)

end MmrTrader.Research

/-!
## What the canonical bytes determine

* `normal` — a value with lists for tuples, texts for times and decimals, and texts for keys; every entry is kept.
* `Shown`, `Same`, `Shuffled` — the bytes show every entry; two values are equal so; an insertion order is another.
* `NoCollision` — no mapping has two keys with one text.
* `canonical_bytes_determine` — **the bytes determine the value just when nothing collides.**
-/

namespace MmrTrader.Research

open Lib Lib.CanonicalJson Rpc

variable {K F : Type}

/-! ## Values up to their texts -/

def decimalText : Decimal → Option (List Char)
  | .finite negative coefficient exponent => some (Decimal.finite negative coefficient exponent).str
  | _ => none

/-- The value with tuples as lists, datetimes as their UTC text, dates and decimals as their text and keys as their text;
`none` for what is not canonical. -/
def normal (str : K → String) : {k : Kind} → Value K F k → Option (Node (PyNumber F) k)
  | _, .null => some .null
  | _, .bool b => some (.bool b)
  | _, .int n => some (.num (.int n))
  | _, .str s => some (.str s)
  | _, .float f => some (.num (.float f))
  | _, .nonFinite => none
  | _, .decimal d => (decimalText d).map fun text => .str (String.ofList text)
  | _, .naive _ => none
  | _, .aware d => d.toUtc.map fun t => .str (String.ofList t.isoformat)
  | _, .date d => some (.str (String.ofList d.isoformat))
  | _, .mapping entries => (normal str entries).map .object
  | _, .list items => (normal str items).map .array
  | _, .tuple items => (normal str items).map .array
  | _, .nil => some .nil
  | _, .cons v rest => (normal str v).bind fun v => (normal str rest).map fun rest => .cons v rest
  | _, .empty => some .empty
  | _, .entry key v rest => (normal str v).bind fun v => (normal str rest).map fun rest => .field (str key) v rest
  | _, .other _ => none

/-- The same value with the entries of its mappings in another insertion order. -/
inductive Shuffled : {k : Kind} → Value K F k → Value K F k → Prop where
  | refl {k : Kind} (v : Value K F k) : Shuffled v v
  | mapping {entries entries' : Value K F .fields} (h : Shuffled entries entries') :
      Shuffled (.mapping entries) (.mapping entries')
  | list {items items' : Value K F .items} (h : Shuffled items items') : Shuffled (.list items) (.list items')
  | tuple {items items' : Value K F .items} (h : Shuffled items items') : Shuffled (.tuple items) (.tuple items')
  | cons {v v' : Value K F .value} {rest rest' : Value K F .items} (hv : Shuffled v v') (hrest : Shuffled rest rest') :
      Shuffled (.cons v rest) (.cons v' rest')
  | entry (key : K) {v v' : Value K F .value} {rest rest' : Value K F .fields} (hv : Shuffled v v')
      (hrest : Shuffled rest rest') : Shuffled (.entry key v rest) (.entry key v' rest')
  | swap (key key' : K) (v v' : Value K F .value) (rest : Value K F .fields) :
      Shuffled (.entry key v (.entry key' v' rest)) (.entry key' v' (.entry key v rest))
  | trans {k : Kind} {u v w : Value K F k} (huv : Shuffled u v) (hvw : Shuffled v w) : Shuffled u w

/-- Equal up to the texts and the order of entries. -/
def Same (str : K → String) (v w : Value K F .value) : Prop :=
  ∃ a b, normal str v = some a ∧ normal str w = some b ∧ Reordered a b

def keyTexts (str : K → String) : {k : Kind} → Value K F k → List String
  | _, .entry key _ rest => str key :: keyTexts str rest
  | _, _ => []

def NoCollision (str : K → String) : {k : Kind} → Value K F k → Prop
  | _, .mapping entries => NoCollision str entries
  | _, .list items => NoCollision str items
  | _, .tuple items => NoCollision str items
  | _, .cons v rest => NoCollision str v ∧ NoCollision str rest
  | _, .entry key v rest => str key ∉ keyTexts str rest ∧ NoCollision str v ∧ NoCollision str rest
  | _, _ => True

/-! ## The value that is written -/

variable {str : K → String} {H : Host K F}
variable {v : Value K F .value}

theorem normal_cons {rest : Value K F .items} {a : Node (PyNumber F) .items} :
    normal str (.cons v rest) = some a ↔ ∃ x y, normal str v = some x ∧ normal str rest = some y ∧ a = .cons x y := by
  simp only [normal, Option.bind_eq_some_iff, Option.map_eq_some_iff]
  constructor
  · rintro ⟨x, hx, y, hy, rfl⟩
    exact ⟨x, y, hx, hy, rfl⟩
  · rintro ⟨x, y, hx, hy, rfl⟩
    exact ⟨x, hx, y, hy, rfl⟩

theorem normal_entry {key : K} {rest : Value K F .fields} {a : Node (PyNumber F) .fields} :
    normal str (.entry key v rest) = some a ↔
      ∃ x y, normal str v = some x ∧ normal str rest = some y ∧ a = .field (str key) x y := by
  simp only [normal, Option.bind_eq_some_iff, Option.map_eq_some_iff]
  constructor
  · rintro ⟨x, hx, y, hy, rfl⟩
    exact ⟨x, y, hx, hy, rfl⟩
  · rintro ⟨x, y, hx, hy, rfl⟩
    exact ⟨x, hx, y, hy, rfl⟩

section
-- the equations of these recursions, which many proofs below unfold
attribute [local simp] keys keyTexts normal canonicalize UniqueKeys NoCollision
end

theorem keys_normal {entries : Value K F .fields} {a : Node (PyNumber F) .fields} (h : normal str entries = some a) :
    keys a = keyTexts str entries := by
  cases entries with
  | empty =>
    cases h
    rfl
  | entry key v rest =>
    obtain ⟨x, y, -, hy, rfl⟩ := normal_entry.mp h
    rw [keys, keyTexts, keys_normal hy]

variable {k : Kind}
variable {a : Node (PyNumber F) k}

theorem uniqueKeys_normal {v : Value K F k} (h : normal str v = some a) : UniqueKeys a ↔ NoCollision str v := by
  induction v with
  | mapping entries ih =>
    obtain ⟨x, hx, rfl⟩ := Option.map_eq_some_iff.mp h
    exact ih hx
  | list items ih =>
    obtain ⟨x, hx, rfl⟩ := Option.map_eq_some_iff.mp h
    exact ih hx
  | tuple items ih =>
    obtain ⟨x, hx, rfl⟩ := Option.map_eq_some_iff.mp h
    exact ih hx
  | cons v rest ihv ihrest =>
    obtain ⟨x, y, hx, hy, rfl⟩ := normal_cons.mp h
    exact and_congr (ihv hx) (ihrest hy)
  | entry key v rest ihv ihrest =>
    obtain ⟨x, y, hx, hy, rfl⟩ := normal_entry.mp h
    rw [UniqueKeys, NoCollision, keys_normal hy, ihv hx, ihrest hy]
  | aware d =>
    obtain ⟨t, -, rfl⟩ := Option.map_eq_some_iff.mp h
    exact .rfl
  | decimal d =>
    obtain ⟨text, -, rfl⟩ := Option.map_eq_some_iff.mp h
    exact .rfl
  | nonFinite => cases h
  | naive w => cases h
  | other type => cases h
  | _ =>
    cases h
    exact .rfl

theorem keys_setItem (key : String) (v : Json (PyNumber F)) (rest : Node (PyNumber F) .fields) (hv : UniqueKeys v)
    (hrest : UniqueKeys rest) : UniqueKeys (setItem key v rest) := by
  unfold setItem
  split
  · exact hrest
  · rename_i hkey
    exact ⟨hkey, hv, hrest⟩

theorem canonicalize_spec {v : Value K F k} {j : Node (PyNumber F) k} (h : canonicalize H v = .ok j) :
    UniqueKeys j ∧ (normal H.str v).isSome = true ∧ (NoCollision H.str v → normal H.str v = some j) := by
  induction v with
  | mapping entries ih =>
    obtain ⟨x, hx, rfl⟩ := map_ok h
    obtain ⟨hunique, hsome, heq⟩ := ih hx
    exact ⟨hunique, by simpa [normal] using hsome, fun hno => by rw [normal, heq hno]; rfl⟩
  | list items ih =>
    obtain ⟨x, hx, rfl⟩ := map_ok h
    obtain ⟨hunique, hsome, heq⟩ := ih hx
    exact ⟨hunique, by simpa [normal] using hsome, fun hno => by rw [normal, heq hno]; rfl⟩
  | tuple items ih =>
    obtain ⟨x, hx, rfl⟩ := map_ok h
    obtain ⟨hunique, hsome, heq⟩ := ih hx
    exact ⟨hunique, by simpa [normal] using hsome, fun hno => by rw [normal, heq hno]; rfl⟩
  | cons v rest ihv ihrest =>
    obtain ⟨x, hx, h⟩ := bind_ok h
    obtain ⟨y, hy, h⟩ := bind_ok h
    cases h
    obtain ⟨huniquev, hsomev, heqv⟩ := ihv hx
    obtain ⟨huniquer, hsomer, heqr⟩ := ihrest hy
    obtain ⟨a, ha⟩ := Option.isSome_iff_exists.mp hsomev
    obtain ⟨b, hb⟩ := Option.isSome_iff_exists.mp hsomer
    refine ⟨⟨huniquev, huniquer⟩, ?_, fun hno => ?_⟩
    · rw [normal_cons.mpr ⟨a, b, ha, hb, rfl⟩]
      rfl
    · exact normal_cons.mpr ⟨x, y, heqv hno.1, heqr hno.2, rfl⟩
  | entry key v rest ihv ihrest =>
    obtain ⟨x, hx, h⟩ := bind_ok h
    obtain ⟨y, hy, h⟩ := bind_ok h
    cases h
    obtain ⟨huniquev, hsomev, heqv⟩ := ihv hx
    obtain ⟨huniquer, hsomer, heqr⟩ := ihrest hy
    obtain ⟨a, ha⟩ := Option.isSome_iff_exists.mp hsomev
    obtain ⟨b, hb⟩ := Option.isSome_iff_exists.mp hsomer
    refine ⟨keys_setItem _ _ _ huniquev huniquer, ?_, fun hno => ?_⟩
    · rw [normal_entry.mpr ⟨a, b, ha, hb, rfl⟩]
      rfl
    · have hy' := heqr hno.2.2
      have hkey : H.str key ∉ keys y := by
        rw [keys_normal hy']
        exact hno.1
      rw [setItem, if_neg hkey]
      exact normal_entry.mpr ⟨x, y, heqv hno.2.1, hy', rfl⟩
  | aware d =>
    change canonicalTime d = .ok j at h
    unfold canonicalTime at h
    split at h
    · rename_i t ht
      cases h
      exact ⟨trivial, by simp [normal, ht], fun _ => by simp [normal, ht]⟩
    · cases h
  | decimal d =>
    change canonicalDecimal H d = .ok j at h
    unfold canonicalDecimal at h
    split at h
    · cases h
      exact ⟨trivial, rfl, fun _ => rfl⟩
    · cases h
  | nonFinite => cases h
  | naive w => cases h
  | other type => cases h
  | _ =>
    cases h
    exact ⟨trivial, rfl, fun _ => rfl⟩

theorem canonicalTime_eq {d : DateTime} {t : UtcTime} (h : d.toUtc = some t) :
    canonicalTime (F := F) d = .ok (.str (String.ofList t.isoformat)) := by
  unfold canonicalTime
  split
  · rename_i t' ht'
    rw [h] at ht'
    cases ht'
    rfl
  · rename_i hnone
    cases h.symm.trans hnone

theorem canonicalize_of_normal {v : Value K F k} (h : normal H.str v = some a) : ∃ j, canonicalize H v = .ok j := by
  induction v with
  | mapping entries ih =>
    obtain ⟨x, hx, rfl⟩ := Option.map_eq_some_iff.mp h
    obtain ⟨j, hj⟩ := ih hx
    exact ⟨_, by rw [canonicalize, hj]; rfl⟩
  | list items ih =>
    obtain ⟨x, hx, rfl⟩ := Option.map_eq_some_iff.mp h
    obtain ⟨j, hj⟩ := ih hx
    exact ⟨_, by rw [canonicalize, hj]; rfl⟩
  | tuple items ih =>
    obtain ⟨x, hx, rfl⟩ := Option.map_eq_some_iff.mp h
    obtain ⟨j, hj⟩ := ih hx
    exact ⟨_, by rw [canonicalize, hj]; rfl⟩
  | cons v rest ihv ihrest =>
    obtain ⟨x, y, hx, hy, rfl⟩ := normal_cons.mp h
    obtain ⟨i, hi⟩ := ihv hx
    obtain ⟨j, hj⟩ := ihrest hy
    exact ⟨_, by rw [canonicalize, hi, hj]; rfl⟩
  | entry key v rest ihv ihrest =>
    obtain ⟨x, y, hx, hy, rfl⟩ := normal_entry.mp h
    obtain ⟨i, hi⟩ := ihv hx
    obtain ⟨j, hj⟩ := ihrest hy
    exact ⟨_, by rw [canonicalize, hi, hj]; rfl⟩
  | aware d =>
    obtain ⟨t, ht, rfl⟩ := Option.map_eq_some_iff.mp h
    exact ⟨.str (String.ofList t.isoformat), canonicalTime_eq ht⟩
  | decimal d =>
    cases d with
    | finite negative coefficient exponent =>
      exact ⟨.str (String.ofList (Decimal.finite negative coefficient exponent).str), by simp only [canonicalize, canonicalDecimal]⟩
    | infinite _ => cases h
    | nan => cases h
  | nonFinite => cases h
  | naive w => cases h
  | other type => cases h
  | _ => exact ⟨_, rfl⟩

theorem normal_shuffled {v v' : Value K F k} (h : Shuffled v v') :
    ∀ {a : Node (PyNumber F) k}, normal str v = some a → ∃ a', normal str v' = some a' ∧ Reordered a a' := by
  induction h with
  | refl v => exact fun ha => ⟨_, ha, .refl _⟩
  | mapping _ ih =>
    intro a ha
    obtain ⟨x, hx, rfl⟩ := Option.map_eq_some_iff.mp ha
    obtain ⟨x', hx', hre⟩ := ih hx
    exact ⟨.object x', by rw [normal, hx']; rfl, .object hre⟩
  | list _ ih =>
    intro a ha
    obtain ⟨x, hx, rfl⟩ := Option.map_eq_some_iff.mp ha
    obtain ⟨x', hx', hre⟩ := ih hx
    exact ⟨.array x', by rw [normal, hx']; rfl, .array hre⟩
  | tuple _ ih =>
    intro a ha
    obtain ⟨x, hx, rfl⟩ := Option.map_eq_some_iff.mp ha
    obtain ⟨x', hx', hre⟩ := ih hx
    exact ⟨.array x', by rw [normal, hx']; rfl, .array hre⟩
  | cons _ _ ihv ihrest =>
    intro a ha
    obtain ⟨x, y, hx, hy, rfl⟩ := normal_cons.mp ha
    obtain ⟨x', hx', hrex⟩ := ihv hx
    obtain ⟨y', hy', hrey⟩ := ihrest hy
    exact ⟨_, normal_cons.mpr ⟨x', y', hx', hy', rfl⟩, .cons hrex hrey⟩
  | entry key _ _ ihv ihrest =>
    intro a ha
    obtain ⟨x, y, hx, hy, rfl⟩ := normal_entry.mp ha
    obtain ⟨x', hx', hrex⟩ := ihv hx
    obtain ⟨y', hy', hrey⟩ := ihrest hy
    exact ⟨_, normal_entry.mpr ⟨x', y', hx', hy', rfl⟩, .field _ hrex hrey⟩
  | swap key key' v v' rest =>
    intro a ha
    obtain ⟨x, y, hx, hy, rfl⟩ := normal_entry.mp ha
    obtain ⟨x', y', hx', hy', rfl⟩ := normal_entry.mp hy
    exact ⟨_, normal_entry.mpr ⟨x', _, hx', normal_entry.mpr ⟨x, y', hx, hy', rfl⟩, rfl⟩, .swap _ _ _ _ _⟩
  | trans _ _ ihu ihv =>
    intro a ha
    obtain ⟨b, hb, hre⟩ := ihu ha
    obtain ⟨c, hc, hre'⟩ := ihv hb
    exact ⟨c, hc, hre.trans hre'⟩

/-! ## The bytes -/

variable [PyFloat F]

/-- The bytes are those of the value with all its entries, in some order. -/
def Shown (str : K → String) (v : Value K F .value) (bytes : ByteArray) : Prop :=
  ∃ a b, normal str v = some a ∧ Reordered a b ∧ bytes = (String.ofList (encode b [])).toUTF8

theorem encode_injective {v w : Json (PyNumber F)} (h : encode v [] = encode w []) : v = w := by
  have hempty : encode v [] ++ [] = encode w [] ++ [] := by rw [h]
  exact (encode_append _ _ [] [] [] (Or.inl rfl) (fun _ _ _ h => nomatch h) (fun _ _ _ h => nomatch h) hempty).1

variable {t s : String}

theorem utf8_injective (h : s.toUTF8 = t.toUTF8) : s = t := by
  simpa [String.toByteArray_inj] using h

variable {bytes : ByteArray}

theorem canonicalJsonBytes_ok (h : canonicalJsonBytes H v = .ok bytes) :
    ∃ j, canonicalize H v = .ok j ∧ bytes = (String.ofList (encode (sortKeys j) [])).toUTF8 := by
  obtain ⟨j, hj, rfl⟩ := map_ok h
  exact ⟨j, hj, rfl⟩

theorem shown_iff (h : canonicalJsonBytes H v = .ok bytes) : Shown H.str v bytes ↔ NoCollision H.str v := by
  obtain ⟨j, hj, rfl⟩ := canonicalJsonBytes_ok h
  obtain ⟨hunique, -, heq⟩ := canonicalize_spec hj
  constructor
  · rintro ⟨a, b, ha, hre, hbytes⟩
    obtain rfl := encode_injective (String.ofList_injective (utf8_injective hbytes))
    exact (uniqueKeys_normal ha).mp (hre.uniqueKeys.mpr ((sortKeys_reordered j).uniqueKeys.mp hunique))
  · intro hno
    exact ⟨j, sortKeys j, heq hno, sortKeys_reordered j, rfl⟩

theorem same_of_bytes {w : Value K F .value} (hv : canonicalJsonBytes H v = .ok bytes)
    (hw : canonicalJsonBytes H w = .ok bytes) (hnov : NoCollision H.str v) (hnow : NoCollision H.str w) : Same H.str v w := by
  obtain ⟨a, b, ha, hre, rfl⟩ := (shown_iff hv).mpr hnov
  obtain ⟨a', b', ha', hre', hbytes⟩ := (shown_iff hw).mpr hnow
  obtain rfl := encode_injective (String.ofList_injective (utf8_injective hbytes))
  exact ⟨a, a', ha, ha', hre.trans hre'.symm⟩

theorem bytes_shuffled {v' : Value K F .value} (hv : canonicalJsonBytes H v = .ok bytes)
    (hno : NoCollision H.str v) (hshuffled : Shuffled v v') : canonicalJsonBytes H v' = .ok bytes := by
  obtain ⟨j, hj, rfl⟩ := canonicalJsonBytes_ok hv
  obtain ⟨hunique, -, heq⟩ := canonicalize_spec hj
  obtain ⟨a', ha', hre⟩ := normal_shuffled hshuffled (heq hno)
  obtain ⟨j', hj'⟩ := canonicalize_of_normal ha'
  have hno' := (uniqueKeys_normal ha').mp (hre.uniqueKeys.mp hunique)
  obtain rfl := Option.some.inj (((canonicalize_spec hj').2.2 hno').symm.trans ha')
  rw [canonicalJsonBytes, hj']
  exact congrArg (fun k => Except.ok (String.ofList (encode k [])).toUTF8) (sortKeys_eq_of_reordered hre hunique).symm

/-- A label without a line break is read off what is hashed. -/
theorem hashed_injective {label label' : String} (hlabel : '\n' ∉ label.toList) (hlabel' : '\n' ∉ label'.toList)
    (h : hashed label s.toUTF8 = hashed label' t.toUTF8) : label = label' ∧ s = t := by
  have htext : label ++ "\n" ++ s = label' ++ "\n" ++ t := utf8_injective (by simpa [hashed] using h)
  have hlist : label.toList ++ '\n' :: s.toList = label'.toList ++ '\n' :: t.toList := by
    simpa using congrArg String.toList htext
  obtain ⟨h1, h2⟩ := append_cons_inj hlabel hlabel' hlist
  exact ⟨String.toList_injective h1, String.toList_injective h2⟩

/-- **The bytes show every entry, determine the value and do not depend on the insertion order just when no mapping has
two keys with one text; the label and the bytes are read off what is hashed always.** -/
theorem canonical_bytes_determine (H : Host K F) (v w : Value K F .value) (b c : ByteArray)
    (hv : canonicalJsonBytes H v = .ok b) (hw : canonicalJsonBytes H w = .ok c) :
    (Shown H.str v b ∧ Shown H.str w c ∧ (b = c → Same H.str v w) ∧
        (∀ v', Shuffled v v' → canonicalJsonBytes H v' = .ok b) ↔ NoCollision H.str v ∧ NoCollision H.str w) ∧
      ∀ label label' : String, '\n' ∉ label.toList → '\n' ∉ label'.toList → hashed label b = hashed label' c →
        label = label' ∧ b = c := by
  refine ⟨⟨?_, ?_⟩, ?_⟩
  · rintro ⟨hshown, hshown', -, -⟩
    exact ⟨(shown_iff hv).mp hshown, (shown_iff hw).mp hshown'⟩
  · rintro ⟨hnov, hnow⟩
    refine ⟨(shown_iff hv).mpr hnov, (shown_iff hw).mpr hnow, ?_, fun v' hshuffled => bytes_shuffled hv hnov hshuffled⟩
    rintro rfl
    exact same_of_bytes hv hw hnov hnow
  · intro label label' hlabel hlabel' h
    obtain ⟨j, -, rfl⟩ := canonicalJsonBytes_ok hv
    obtain ⟨j', -, rfl⟩ := canonicalJsonBytes_ok hw
    obtain ⟨hl, ht⟩ := hashed_injective hlabel hlabel' h
    exact ⟨hl, by rw [ht]⟩

inductive Key where
  | int (n : Int)
  | str (s : String)
  deriving DecidableEq

def keyHost : Host Key Empty := ⟨fun
  | .int n => String.ofList (intText n)
  | .str s => s, fun _ => ""⟩

def mappingOf : List (Key × Value Key Empty .value) → Value Key Empty .fields
  | [] => .empty
  | (key, v) :: rest => .entry key v (mappingOf rest)

def evidence : Value Key Empty .value := .mapping (mappingOf [(.str "b", .int 1), (.int 7, .null)])

def evidenceShuffled : Value Key Empty .value := .mapping (mappingOf [(.int 7, .null), (.str "b", .int 1)])

def evidenceBytes : ByteArray := "\x7b\"7\":null,\"b\":1\x7d".toUTF8

theorem evidence_determined : Shown keyHost.str evidence evidenceBytes ∧ Same keyHost.str evidence evidenceShuffled := by
  have h := canonical_bytes_determine keyHost evidence evidenceShuffled evidenceBytes evidenceBytes (by decide +kernel)
    (by decide +kernel)
  have hno : NoCollision keyHost.str evidence ∧ NoCollision keyHost.str evidenceShuffled := by
    have hseven : String.ofList (Nat.toDigits 10 7) = "7" := by decide +kernel
    simp [evidence, evidenceShuffled, mappingOf, NoCollision, keyTexts, keyHost, intText, hseven]
  obtain ⟨hshown, -, hsame, -⟩ := h.1.mpr hno
  exact ⟨hshown, hsame rfl⟩

/-- The integer `1` and the text `"1"` as keys. -/
def colliding : Value Key Empty .value := .mapping (mappingOf [(.int 1, .str "a"), (.str "1", .str "b")])

def collidingShuffled : Value Key Empty .value := .mapping (mappingOf [(.str "1", .str "b"), (.int 1, .str "a")])

def survivor : Value Key Empty .value := .mapping (mappingOf [(.str "1", .str "b")])

/-- The first entry is lost, another value has the same bytes, and another insertion order has other bytes. -/
theorem colliding_entry_lost : canonicalJsonBytes keyHost colliding = canonicalJsonBytes keyHost survivor ∧
    (∃ bytes, canonicalJsonBytes keyHost colliding = .ok bytes ∧ ¬ Shown keyHost.str colliding bytes) ∧
    ¬ Same keyHost.str colliding survivor ∧ Shuffled colliding collidingShuffled ∧
    canonicalJsonBytes keyHost collidingShuffled ≠ canonicalJsonBytes keyHost colliding := by
  have hcollides : ¬ NoCollision keyHost.str colliding := by
    have hone : String.ofList (Nat.toDigits 10 1) = "1" := by decide +kernel
    simp [colliding, mappingOf, NoCollision, keyTexts, keyHost, intText, hone]
  have hsurvives : NoCollision keyHost.str survivor := by
    simp [survivor, mappingOf, NoCollision, keyTexts]
  refine ⟨by decide +kernel, ?_, ?_, .mapping (.swap _ _ _ _ _), by decide +kernel⟩
  · have hbytes : canonicalJsonBytes keyHost colliding = .ok "\x7b\"1\":\"b\"\x7d".toUTF8 := by decide +kernel
    exact ⟨_, hbytes, fun hshown => hcollides ((shown_iff hbytes).mp hshown)⟩
  · rintro ⟨a, b, ha, hb, hre⟩
    exact hcollides ((uniqueKeys_normal ha).mp (hre.uniqueKeys.mpr ((uniqueKeys_normal hb).mpr hsurvives)))

end MmrTrader.Research
