import Mathlib.Algebra.Group.Nat.Defs
import Mathlib.Data.Fin.Basic
import Mathlib.Data.List.Lex
import Mathlib.Order.Fin.Basic
import MmrTrader.Lib.PyJsonLaws

/-!
# Python's dictionaries up to the order of their keys

* `PyFloat`, `spaced` — the floats that are not finite, and the style of `json.dumps` without arguments.
* `Reordered` — equal as Python compares dictionaries; `sortKeys` — what `sort_keys=True` writes.
* `get?_sortKeys`, `decode_dumpsWith` — a lookup after sorting, and `json.loads` of a written text.
-/

namespace MmrTrader.Lib.PyJson

open CanonicalJson (Kind)

variable {F E : Type}

/-! ## Floats that are not finite -/

inductive Special where
  | nan
  | infinity
  | negInfinity
  deriving DecidableEq

/-- The words `json` writes and reads for them. -/
def Special.word : Special → Text
  | .nan => text "NaN"
  | .infinity => text "Infinity"
  | .negInfinity => text "-Infinity"

def Special.value [FloatText F] : Special → F
  | .nan => FloatText.nan
  | .infinity => FloatText.infinity
  | .negInfinity => FloatText.negInfinity

/-- A `float` as Python tests and classifies it. -/
class PyFloat (F : Type) extends FloatText F where
  isZero : F → Bool
  special : F → Option Special
  special_value : ∀ x k, special x = some k → x = Special.value k
  finite : ∀ x, special x = none → isFinite x = true

/-- `json.dumps` without `separators` and with `allow_nan`. -/
def spaced [PyFloat F] : Style F := ⟨[point ' '], fun x => (PyFloat.special x).map Special.word⟩

theorem spaced_lawful [PyFloat F] : (spaced (F := F)).Lawful E := by
  constructor
  · intro c hc
    obtain rfl := List.mem_singleton.mp hc
    decide
  · intro x w hw
    obtain ⟨k, -, rfl⟩ := Option.map_eq_some_iff.mp hw
    cases k with
    | nan => exact ⟨point 'N', text "aN", rfl, by decide, by decide⟩
    | infinity => exact ⟨point 'I', text "nfinity", rfl, by decide, by decide⟩
    | negInfinity => exact ⟨point '-', text "Infinity", rfl, by decide, by decide⟩
  · intro x w object array rest _ hw
    obtain ⟨k, hk, rfl⟩ := Option.map_eq_some_iff.mp hw
    rw [PyFloat.special_value x k hk]
    cases k with
    | nan => exact keyword_text "aN" _ rest
    | infinity => exact keyword_text "nfinity" _ rest
    | negInfinity => exact keyword_text "Infinity" _ rest

/-! ## The order of keys -/

inductive Reordered : {k : Kind} → Node F k → Node F k → Prop where
  | refl {k : Kind} (v : Node F k) : Reordered v v
  | array {items items' : Node F .items} (h : Reordered items items') : Reordered (.array items) (.array items')
  | object {fields fields' : Node F .fields} (h : Reordered fields fields') : Reordered (.object fields) (.object fields')
  | cons {v v' : Value F} {rest rest' : Node F .items} (hv : Reordered v v') (hrest : Reordered rest rest') :
      Reordered (.cons v rest) (.cons v' rest')
  | field (key : Text) {v v' : Value F} {rest rest' : Node F .fields} (hv : Reordered v v')
      (hrest : Reordered rest rest') : Reordered (.field key v rest) (.field key v' rest')
  | swap (key key' : Text) (v v' : Value F) (rest : Node F .fields) :
      Reordered (.field key v (.field key' v' rest)) (.field key' v' (.field key v rest))
  | trans {k : Kind} {u v w : Node F k} (huv : Reordered u v) (hvw : Reordered v w) : Reordered u w

variable {k : Kind}
variable {w : Node F k}

theorem Reordered.keys_perm {v : Node F k} (h : Reordered v w) : (keys v).Perm (keys w) := by
  induction h with
  | refl v => exact .refl _
  | array _ _ => exact .refl _
  | object _ _ => exact .refl _
  | cons _ _ _ _ => exact .refl _
  | field key _ _ _ ihrest => exact ihrest.cons key
  | swap key key' v v' rest => exact .swap key' key _
  | trans _ _ ihu ihv => exact ihu.trans ihv

theorem Reordered.distinct {v : Node F k} (h : Reordered v w) : Distinct v ↔ Distinct w := by
  induction h with
  | refl v => exact .rfl
  | array _ ih => exact ih
  | object h ih => exact and_congr h.keys_perm.nodup_iff ih
  | cons _ _ ihv ihrest => exact and_congr ihv ihrest
  | field key _ _ ihv ihrest => exact and_congr ihv ihrest
  | swap key key' v v' rest => simp only [Distinct, and_left_comm]
  | trans _ _ ihu ihv => exact ihu.trans ihv

theorem Reordered.spelled {v : Node F k} (h : Reordered v w) : Spelled v ↔ Spelled w := by
  induction h with
  | refl v => exact .rfl
  | array _ ih => exact ih
  | object _ ih => exact ih
  | cons _ _ ihv ihrest => exact and_congr ihv ihrest
  | field key _ _ ihv ihrest => exact and_congr .rfl (and_congr ihv ihrest)
  | swap key key' v v' rest =>
    simp only [Spelled]
    tauto
  | trans _ _ ihu ihv => exact ihu.trans ihv

theorem Reordered.isJson {v : Node F k} (h : Reordered v w) (hv : IsJson v) : IsJson w :=
  ⟨h.distinct.mp hv.1, h.spelled.mp hv.2⟩

/-- Put a field into a sorted chain. -/
def insertField (key : Text) (v : Value F) : {k : Kind} → Node F k → Node F k
  | _, .empty => .field key v .empty
  | _, .field k w rest => if k < key then .field k w (insertField key v rest) else .field key v (.field k w rest)
  | _, other => other

def sortKeys : {k : Kind} → Node F k → Node F k
  | _, .array items => .array (sortKeys items)
  | _, .object fields => .object (sortKeys fields)
  | _, .cons v rest => .cons (sortKeys v) (sortKeys rest)
  | _, .field key v rest => insertField key (sortKeys v) (sortKeys rest)
  | _, .null => .null
  | _, .bool b => .bool b
  | _, .int i => .int i
  | _, .float x => .float x
  | _, .str s => .str s
  | _, .nil => .nil
  | _, .empty => .empty

theorem insertField_reordered (key : Text) (v : Value F) (fields : Node F .fields) :
    Reordered (.field key v fields) (insertField key v fields) := by
  cases fields with
  | empty => exact .refl _
  | field k w rest =>
    unfold insertField
    split
    · exact (Reordered.swap key k v w rest).trans (.field k (.refl w) (insertField_reordered key v rest))
    · exact .refl _

theorem sortKeys_reordered (v : Node F k) : Reordered v (sortKeys v) := by
  induction v with
  | array items ih => exact .array ih
  | object fields ih => exact .object ih
  | cons v rest ihv ihrest => exact .cons ihv ihrest
  | field key v rest ihv ihrest => exact (Reordered.field key ihv ihrest).trans (insertField_reordered _ _ _)
  | null | bool | int | float | str | nil | empty => exact .refl _

/-! ## Lookups -/

def get? (key : Text) : {k : Kind} → Node F k → Option (Value F)
  | _, .field k v rest => if k = key then some v else get? key rest
  | _, _ => none

theorem get?_insertField (key k : Text) (v : Value F) (fields : Node F .fields) :
    get? key (insertField k v fields) = if k = key then some v else get? key fields := by
  cases fields with
  | empty => rfl
  | field k' w rest =>
    unfold insertField
    split
    · rename_i hlt
      have ih := get?_insertField key k v rest
      by_cases hk' : k' = key
      · have hne : k ≠ key := by
          rintro rfl
          exact lt_irrefl _ (hk' ▸ hlt)
        simp only [get?, hk', if_true, if_neg hne]
      · simp only [get?, hk', if_false, ih]
    · rfl

theorem get?_sortKeys (key : Text) (fields : Node F .fields) : get? key (sortKeys fields) = (get? key fields).map sortKeys := by
  cases fields with
  | empty => rfl
  | field k v rest =>
    have ih := get?_sortKeys key rest
    simp only [sortKeys, get?_insertField, get?, ih]
    split <;> rfl

/-- **`json.loads` of a text that `json.dumps` wrote.** -/
theorem decode_dumpsWith [FloatText F] {s : Style F} (hs : s.Lawful E) {v : Value F} (hv : IsJson v) {limit : Nat} {t : Text}
    (h : dumpsWith s v limit [] = .ok t) : decode (E := E) plainObject limit t = .ok v := by
  obtain ⟨c, t', rfl, hc, -⟩ := dumpsWith_head hs h
  have hread := scanOnce_dumpsWith hs keeps_plainObject hv h Stops.nil
  rw [List.append_nil] at hread
  rw [decode, skipWhite_cons hc, hread]
  rfl

end MmrTrader.Lib.PyJson

/-!
## JSON values in Python: `bool`, `str` and dictionaries

* `truthy`, `orElse` — `bool(v)` and `a or b`.
* `pyStr_whole` — the text of a value that JSON can spell can be spelled again.
* `items`, `itemList` — arrays as lists; `assign` — `dict[key] = value`.
-/

namespace MmrTrader.Lib.PyJson

open CanonicalJson (Kind hexDigit)

/-! ## Surrogates -/

/-- No half of a surrogate pair. -/
def Plain (t : Text) : Prop := ∀ c ∈ t, isHigh c = false ∧ isLow c = false

theorem Plain.nil : Plain [] := fun _ hc => absurd hc List.not_mem_nil

variable {t : Text}

theorem Plain.append {s : Text} (hs : Plain s) (ht : Plain t) : Plain (s ++ t) := by
  intro c hc
  rcases List.mem_append.mp hc with hc | hc
  · exact hs c hc
  · exact ht c hc

variable {c : CodePoint}

theorem Plain.cons (hc : isHigh c = false ∧ isLow c = false) (ht : Plain t) : Plain (c :: t) := by
  intro d hd
  rcases List.mem_cons.mp hd with rfl | hd
  · exact hc
  · exact ht d hd

theorem Plain.whole (h : Plain t) : Whole t := by
  induction t with
  | nil => exact List.IsChain.nil
  | cons c t ih =>
    cases t with
    | nil => exact List.IsChain.singleton c
    | cons d t =>
      refine List.isChain_cons_cons.mpr ⟨fun hpair => ?_, ih fun e he => h e (List.mem_cons_of_mem _ he)⟩
      rw [(h c List.mem_cons_self).1] at hpair
      exact absurd hpair.1 (by decide)

theorem noSurrogate (h : c.val < 0xD800 ∨ 0xDFFF < c.val) : isHigh c = false ∧ isLow c = false := by
  simp only [isHigh, isLow, Bool.and_eq_false_iff, decide_eq_false_iff_not]
  omega

theorem plain_of_ascii (h : IsAscii t) : Plain t := fun c hc => noSurrogate (Or.inl ((h c hc).trans (by decide)))

/-- A text of characters has no surrogates. -/
theorem plain_points (s : List Char) : Plain (s.map point) := by
  intro c hc
  obtain ⟨d, -, rfl⟩ := List.mem_map.mp hc
  apply noSurrogate
  rcases d.valid with hlow | ⟨hhigh, -⟩
  · exact Or.inl hlow
  · exact Or.inr hhigh

theorem plain_text (s : String) : Plain (text s) := plain_points s.toList

variable {F E : Type} [PyFloat F]

/-! ## Truth -/

/-- `bool(v)`. -/
def truthy : Value F → Bool
  | .null => false
  | .bool b => b
  | .int i => i != 0
  | .float x => !PyFloat.isZero x
  | .str s => !s.isEmpty
  | .array .nil => false
  | .array (.cons _ _) => true
  | .object .empty => false
  | .object (.field _ _ _) => true

/-- `a or b`, of two lookups. -/
def orElse (a b : Option (Value F)) : Option (Value F) :=
  match a with
  | some v => if truthy v then some v else b
  | none => b

/-! ## Text -/

/-- `str.isprintable`, as the Unicode database has it. -/
class UnicodeData where
  isPrintable : CodePoint → Bool
  surrogate : ∀ c, isHigh c = true ∨ isLow c = true → isPrintable c = false

def hexText (digits n : Nat) : Text :=
  ((List.range digits).reverse.map fun i => point (hexDigit (n / 16 ^ i % 16)))

theorem hexText_plain (digits n : Nat) : Plain (hexText digits n) := by
  intro c hc
  obtain ⟨i, -, rfl⟩ := List.mem_map.mp hc
  have hall : ∀ n < 16, (point (hexDigit n)).val < 0xD800 := by decide
  exact noSurrogate (Or.inl (hall _ (Nat.mod_lt _ (by decide))))

variable [UnicodeData]

/-- A character of a string, as `repr` writes it between `quote`s. -/
def reprChar (quote c : CodePoint) : Text :=
  if c = quote ∨ c = point '\\' then [point '\\', c]
  else if c = point '\t' then text "\\t"
  else if c = point '\n' then text "\\n"
  else if c = point '\r' then text "\\r"
  else if c.val < 32 ∨ c.val = 127 then text "\\x" ++ hexText 2 c.val
  else if c.val < 127 then [c]
  else if UnicodeData.isPrintable c then [c]
  else if c.val ≤ 0xFF then text "\\x" ++ hexText 2 c.val
  else if c.val ≤ 0xFFFF then text "\\u" ++ hexText 4 c.val
  else text "\\U" ++ hexText 8 c.val

/-- `repr` of a string: in double quotes when it has a single quote and no double one. -/
def reprText (s : Text) : Text :=
  let quote := if point '\'' ∈ s ∧ point '"' ∉ s then point '"' else point '\''
  quote :: (s.flatMap (reprChar quote) ++ [quote])

def floatText (x : F) : Text :=
  match PyFloat.special x with
  | some .nan => text "nan"
  | some .infinity => text "inf"
  | some .negInfinity => text "-inf"
  | none => (FloatText.repr x).text

/-- `repr`; `sep` stands before a further link of a chain. -/
def pyRepr : {k : Kind} → Node F k → Text → Text
  | _, .null, _ => text "None"
  | _, .bool true, _ => text "True"
  | _, .bool false, _ => text "False"
  | _, .int i, _ => (intLiteral i).text
  | _, .float x, _ => floatText x
  | _, .str s, _ => reprText s
  | _, .array items, _ => point '[' :: pyRepr items []
  | _, .object fields, _ => point '\x7b' :: pyRepr fields []
  | _, .nil, _ => [point ']']
  | _, .cons v rest, sep => sep ++ (pyRepr v [] ++ pyRepr rest (text ", "))
  | _, .empty, _ => [point '\x7d']
  | _, .field key v rest, sep => sep ++ (reprText key ++ (text ": " ++ (pyRepr v [] ++ pyRepr rest (text ", "))))

/-- `str(v)`. -/
def pyStr : Value F → Text
  | .str s => s
  | v => pyRepr v []

/-! ### What `str` writes -/

theorem reprChar_plain {quote : CodePoint} (hquote : quote.val < 0x80) (c : CodePoint) : Plain (reprChar quote c) := by
  have hback : isHigh (point '\\') = false ∧ isLow (point '\\') = false := by decide
  unfold reprChar
  split_ifs with h1 h2 h3 h4 h5 h6 h7 h8 h9
  · refine Plain.cons hback (Plain.cons (noSurrogate (Or.inl ?_)) Plain.nil)
    rcases h1 with rfl | rfl
    · exact hquote.trans (by decide)
    · decide
  · exact plain_text _
  · exact plain_text _
  · exact plain_text _
  · exact (plain_text _).append (hexText_plain _ _)
  · exact Plain.cons (noSurrogate (Or.inl (h6.trans (by decide)))) Plain.nil
  · refine Plain.cons ⟨?_, ?_⟩ Plain.nil
    · by_contra hsur
      rw [UnicodeData.surrogate c (Or.inl (by simpa using hsur))] at h7
      exact absurd h7 (by decide)
    · by_contra hsur
      rw [UnicodeData.surrogate c (Or.inr (by simpa using hsur))] at h7
      exact absurd h7 (by decide)
  · exact (plain_text _).append (hexText_plain _ _)
  · exact (plain_text _).append (hexText_plain _ _)
  · exact (plain_text _).append (hexText_plain _ _)

theorem reprText_plain (s : Text) : Plain (reprText s) := by
  have hchars : ∀ quote : CodePoint, quote.val < 0x80 → Plain (quote :: (s.flatMap (reprChar quote) ++ [quote])) := by
    intro quote hquote
    have hq := noSurrogate (c := quote) (Or.inl (hquote.trans (by decide)))
    refine Plain.cons hq (Plain.append (fun c hc => ?_) (Plain.cons hq Plain.nil))
    obtain ⟨d, -, hd⟩ := List.mem_flatMap.mp hc
    exact reprChar_plain hquote d c hd
  unfold reprText
  split_ifs
  · exact hchars _ (by decide)
  · exact hchars _ (by decide)

omit [UnicodeData] in
theorem floatText_plain (x : F) : Plain (floatText x) := by
  unfold floatText
  split
  · exact plain_text _
  · exact plain_text _
  · exact plain_text _
  · rename_i hx
    exact plain_of_ascii (literal_ascii (FloatText.repr_wellFormed x (PyFloat.finite x hx)))

theorem pyRepr_plain {k : Kind} (n : Node F k) {sep : Text} (hsep : Plain sep) : Plain (pyRepr n sep) := by
  induction n generalizing sep with
  | null => exact plain_text _
  | bool b => cases b <;> exact plain_text _
  | int i => exact plain_of_ascii (literal_ascii (intLiteral_wellFormed i))
  | float x => exact floatText_plain x
  | str s => exact reprText_plain s
  | array items ih => exact Plain.cons (by decide) (ih Plain.nil)
  | object fields ih => exact Plain.cons (by decide) (ih Plain.nil)
  | nil => exact Plain.cons (by decide) Plain.nil
  | cons v rest ihv ihrest => exact hsep.append ((ihv Plain.nil).append (ihrest (plain_text _)))
  | empty => exact Plain.cons (by decide) Plain.nil
  | field key v rest ihv ihrest =>
    exact hsep.append ((reprText_plain key).append ((plain_text _).append ((ihv Plain.nil).append (ihrest (plain_text _)))))

variable {v : Value F}

/-- **What `str` makes of a value that JSON can spell can be spelled.** -/
theorem pyStr_whole (h : Spelled v) : Whole (pyStr v) := by
  cases v with
  | str s => exact h
  | null | bool | int | float | array | object => exact (pyRepr_plain _ Plain.nil).whole

/-! ## Arrays and dictionaries -/

omit [PyFloat F] [UnicodeData]

variable {ps : List (Text × Value F)} {key : Text}

theorem get?_fields (hnodup : (ps.map Prod.fst).Nodup) (h : (key, v) ∈ ps) : get? key (fields ps) = some v := by
  induction ps with
  | nil => exact absurd h List.not_mem_nil
  | cons p ps ih =>
    obtain ⟨k, w⟩ := p
    obtain ⟨hnew, hrest⟩ := List.nodup_cons.mp hnodup
    rcases List.mem_cons.mp h with heq | h
    · cases heq
      exact if_pos rfl
    · have hne : k ≠ key := fun heq => hnew (List.mem_map.mpr ⟨(key, v), h, heq.symm⟩)
      rw [fields, get?, if_neg hne]
      exact ih hrest h

def items : List (Value F) → Node F .items
  | [] => .nil
  | v :: vs => .cons v (items vs)

def itemList : {k : Kind} → Node F k → List (Value F)
  | _, .cons v rest => v :: itemList rest
  | _, _ => []

theorem itemList_items (vs : List (Value F)) : itemList (items vs) = vs := by
  induction vs with
  | nil => rfl
  | cons v vs ih => rw [items, itemList, ih]

theorem sortKeys_items (vs : List (Value F)) : sortKeys (items vs) = items (vs.map sortKeys) := by
  induction vs with
  | nil => rfl
  | cons v vs ih => rw [items, sortKeys, ih, List.map_cons, items]

theorem isJson_items {vs : List (Value F)} (h : ∀ v ∈ vs, IsJson v) : IsJson (items vs) := by
  induction vs with
  | nil => exact ⟨trivial, trivial⟩
  | cons v vs ih =>
    have hv := h v List.mem_cons_self
    have hvs := ih fun w hw => h w (List.mem_cons_of_mem _ hw)
    exact ⟨⟨hv.1, hvs.1⟩, hv.2, hvs.2⟩

theorem isJson_object (hnodup : (ps.map Prod.fst).Nodup)
    (h : ∀ p ∈ ps, Whole p.1 ∧ IsJson p.2) : IsJson (.object (fields ps)) := by
  have hfields : IsJson (fields ps) := by
    clear hnodup
    induction ps with
    | nil => exact ⟨trivial, trivial⟩
    | cons p ps ih =>
      obtain ⟨hkey, hv⟩ := h p List.mem_cons_self
      have hps := ih fun q hq => h q (List.mem_cons_of_mem _ hq)
      exact ⟨⟨hv.1, hps.1⟩, hkey, hv.2, hps.2⟩
  exact ⟨⟨(keys_fields ps) ▸ hnodup, hfields.1⟩, hfields.2⟩

theorem isJson_get? {k : Kind} {n : Node F k} (h : Distinct n ∧ Spelled n) (hv : get? key n = some v) : IsJson v := by
  induction n with
  | field k w rest _ ih =>
    obtain ⟨⟨hdw, hdr⟩, -, hsw, hsr⟩ := h
    rw [get?] at hv
    split at hv
    · cases hv
      exact ⟨hdw, hsw⟩
    · exact ih ⟨hdr, hsr⟩ hv
  | _ => cases hv

/-- `dict[key] = value`. -/
def assign (key : Text) (v : Value F) (n : Node F .fields) : Node F .fields := fields (setItem key v (pairs n))

theorem mem_setItem {p : Text × Value F} (h : p ∈ setItem key v ps) : p = (key, v) ∨ p ∈ ps := by
  induction ps with
  | nil => exact Or.inl (List.mem_singleton.mp h)
  | cons q ps ih =>
    obtain ⟨k, w⟩ := q
    rw [setItem] at h
    split at h
    · rename_i hk
      rcases List.mem_cons.mp h with rfl | h
      · exact Or.inl (by rw [hk])
      · exact Or.inr (List.mem_cons_of_mem _ h)
    · rcases List.mem_cons.mp h with rfl | h
      · exact Or.inr List.mem_cons_self
      · exact (ih h).imp id fun h => List.mem_cons_of_mem _ h

theorem keys_setItem :
    (setItem key v ps).map Prod.fst = if key ∈ ps.map Prod.fst then ps.map Prod.fst else ps.map Prod.fst ++ [key] := by
  induction ps with
  | nil => rfl
  | cons q ps ih =>
    obtain ⟨k, w⟩ := q
    rw [setItem]
    by_cases hk : k = key
    · simp [hk]
    · rw [if_neg hk, List.map_cons, ih]
      have hkey : key ∈ ((k, w) :: ps).map Prod.fst ↔ key ∈ ps.map Prod.fst := by simp [Ne.symm hk]
      by_cases hmem : key ∈ ps.map Prod.fst
      · rw [if_pos hmem, if_pos (hkey.mpr hmem), List.map_cons]
      · rw [if_neg hmem, if_neg (mt hkey.mp hmem), List.map_cons, List.cons_append]

theorem nodup_setItem (h : (ps.map Prod.fst).Nodup) : ((setItem key v ps).map Prod.fst).Nodup := by
  rw [keys_setItem]
  split
  · exact h
  · rename_i hnew
    refine List.nodup_append.mpr ⟨h, by simp, fun a ha b hb => ?_⟩
    rw [List.mem_singleton.mp hb]
    exact fun heq => hnew (heq ▸ ha)

theorem isJson_assign {n : Node F .fields} (hn : IsJson (.object n)) (hkey : Whole key)
    (hv : IsJson v) : IsJson (.object (assign key v n)) := by
  have hpairs : ∀ {k : Kind} (n : Node F k), Distinct n ∧ Spelled n → ∀ p ∈ pairs n, Whole p.1 ∧ IsJson p.2 := by
    intro k n
    induction n with
    | field k w rest _ ih =>
      rintro ⟨⟨hdw, hdr⟩, hk, hsw, hsr⟩ p hp
      rcases List.mem_cons.mp hp with rfl | hp
      · exact ⟨hk, hdw, hsw⟩
      · exact ih ⟨hdr, hsr⟩ p hp
    | _ => exact fun _ p hp => absurd hp List.not_mem_nil
  obtain ⟨⟨hnodup, hdistinct⟩, hspelled⟩ := hn
  apply isJson_object
  · exact nodup_setItem (by rwa [map_fst_pairs])
  · intro p hp
    rcases mem_setItem hp with rfl | hp
    · exact ⟨hkey, hv⟩
    · exact hpairs n ⟨hdistinct, hspelled⟩ p hp

end MmrTrader.Lib.PyJson
