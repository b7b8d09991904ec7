import Mathlib.Data.List.Infix

/-!
# Canonical JSON text

* `Node` — JSON values over a type `N` of numbers; the items of an array and the fields of an object are chains.
* `NumberText` — how numbers are written: injectively, with number characters only.
* `encode` — the text without blanks, strings escaped; `Quoting`, `encodeWith` — the same with another escape.
* `encodeWith_append` — a text is read in one way only.
* `sortKeys` — the fields of every object in order of their keys.
* `canonical` — the text of the sorted value; `canonical_injective` — it determines the value up to the order of keys.
-/

namespace MmrTrader.Lib.CanonicalJson

inductive Kind where
  | value
  | items
  | fields

inductive Node (N : Type) : Kind → Type where
  | null : Node N .value
  | bool (b : Bool) : Node N .value
  | num (n : N) : Node N .value
  | str (s : String) : Node N .value
  | array (items : Node N .items) : Node N .value
  | object (fields : Node N .fields) : Node N .value
  | nil : Node N .items
  | cons (v : Node N .value) (rest : Node N .items) : Node N .items
  | empty : Node N .fields
  | field (key : String) (v : Node N .value) (rest : Node N .fields) : Node N .fields

abbrev Json (N : Type) := Node N .value

/-- An array's items. -/
def items {N : Type} : List (Json N) → Node N .items
  | [] => .nil
  | v :: rest => .cons v (items rest)

/-- An object's fields, in this order. -/
def fields {N : Type} : List (String × Json N) → Node N .fields
  | [] => .empty
  | (key, v) :: rest => .field key v (fields rest)

def isNumberChar (c : Char) : Bool := c.isDigit || c = '-' || c = '+' || c = '.' || c = 'e' || c = 'E'

/-- How numbers are written. -/
class NumberText (N : Type) where
  text : N → List Char
  text_injective : ∀ m n, text m = text n → m = n
  text_ne_nil : ∀ n, text n ≠ []
  text_chars : ∀ n, ∀ c ∈ text n, isNumberChar c = true

open NumberText

/-! ## Text -/

def hexDigit (n : Nat) : Char := "0123456789abcdef".toList.getD n '0'

/-- A character of a string. -/
def escapeChar (c : Char) : List Char :=
  if c = '"' then ['\\', '"']
  else if c = '\\' then ['\\', '\\']
  else if c = '\n' then ['\\', 'n']
  else if c = '\r' then ['\\', 'r']
  else if c = '\t' then ['\\', 't']
  else if c = '\x08' then ['\\', 'b']
  else if c = '\x0c' then ['\\', 'f']
  else if c.toNat < 32 then ['\\', 'u', '0', '0', hexDigit (c.toNat / 16), hexDigit (c.toNat % 16)]
  else [c]

def escape (s : List Char) : List Char := s.flatMap escapeChar

def quote (s : String) : List Char := '"' :: (escape s.toList ++ ['"'])

variable {N : Type}

section
variable [NumberText N]

/-- The text of a node; the chains of an array or an object close it, and `sep` stands before a further link. -/
def encode : {k : Kind} → Node N k → List Char → List Char
  | _, .null, _ => ['n', 'u', 'l', 'l']
  | _, .bool true, _ => ['t', 'r', 'u', 'e']
  | _, .bool false, _ => ['f', 'a', 'l', 's', 'e']
  | _, .num n, _ => text n
  | _, .str s, _ => quote s
  | _, .array items, _ => '[' :: encode items []
  | _, .object fields, _ => '{' :: encode fields []
  | _, .nil, _ => [']']
  | _, .cons v rest, sep => sep ++ (encode v [] ++ encode rest [','])
  | _, .empty, _ => ['}']
  | _, .field key v rest, sep => sep ++ (quote key ++ (':' :: (encode v [] ++ encode rest [','])))

end

/-- A way to write strings: in double quotes, so that a string is read off the front of a text in one way. -/
structure Quoting where
  write : String → List Char
  head : ∀ x, ∃ rest, write x = '"' :: rest
  read : ∀ x y s t, write x ++ s = write y ++ t → x = y ∧ s = t

/-- `encode`, with strings written another way. -/
def encodeWith [NumberText N] (q : Quoting) : {k : Kind} → Node N k → List Char → List Char
  | _, .null, _ => ['n', 'u', 'l', 'l']
  | _, .bool true, _ => ['t', 'r', 'u', 'e']
  | _, .bool false, _ => ['f', 'a', 'l', 's', 'e']
  | _, .num n, _ => text n
  | _, .str s, _ => q.write s
  | _, .array items, _ => '[' :: encodeWith q items []
  | _, .object fields, _ => '{' :: encodeWith q fields []
  | _, .nil, _ => [']']
  | _, .cons v rest, sep => sep ++ (encodeWith q v [] ++ encodeWith q rest [','])
  | _, .empty, _ => ['}']
  | _, .field key v rest, sep => sep ++ (q.write key ++ (':' :: (encodeWith q v [] ++ encodeWith q rest [','])))

/-! ## Sorted keys -/

/-- Put a field into a sorted chain. -/
def insertField (key : String) (v : Json N) : {k : Kind} → Node N k → Node N k
  | _, .empty => .field key v .empty
  | _, .field k w rest => if k < key then .field k w (insertField key v rest) else .field key v (.field k w rest)
  | _, other => other

def sortKeys : {k : Kind} → Node N k → Node N k
  | _, .array items => .array (sortKeys items)
  | _, .object fields => .object (sortKeys fields)
  | _, .cons v rest => .cons (sortKeys v) (sortKeys rest)
  | _, .field key v rest => insertField key (sortKeys v) (sortKeys rest)
  | _, .null => .null
  | _, .bool b => .bool b
  | _, .num n => .num n
  | _, .str s => .str s
  | _, .nil => .nil
  | _, .empty => .empty

/-- `json.dumps(value, sort_keys=True, separators=(",", ":"))`. -/
def canonical [NumberText N] (v : Json N) : String := String.ofList (encode (sortKeys v) [])

def canonicalWith [NumberText N] (q : Quoting) (v : Json N) : String := String.ofList (encodeWith q (sortKeys v) [])

/-- The first field of this name. -/
def get? (key : String) : {k : Kind} → Node N k → Option (Json N)
  | _, .field k v rest => if k = key then some v else get? key rest
  | _, _ => none

theorem get?_insertField (key k : String) (v : Json N) (fields : Node N .fields) :
    get? key (insertField k v fields) = if k = key then some v else get? key fields := by
  cases fields with
  | empty => rfl
  | field k' w rest =>
    unfold insertField
    split
    · rename_i hlt
      have ih := get?_insertField key k v rest
      by_cases hk' : k' = key
      · have hne : k ≠ key := by
          rintro rfl
          exact String.lt_irrefl _ (hk' ▸ hlt)
        simp only [get?, hk', if_true, if_neg hne]
      · simp only [get?, hk', if_false, ih]
    · rfl

theorem get?_sortKeys (key : String) (fields : Node N .fields) :
    get? key (sortKeys fields) = (get? key fields).map sortKeys := by
  cases fields with
  | empty => rfl
  | field k v rest =>
    have ih := get?_sortKeys key rest
    simp only [sortKeys, get?_insertField, get?, ih]
    split <;> rfl

/-! ## Unambiguous pieces -/

variable {s t : List Char}
variable {x y : List Char}

/-- Of two texts that begin alike, one piece is a beginning of the other. -/
theorem eq_of_prefix_free (h : x ++ s = y ++ t) (hxy : x <+: y → x = y) (hyx : y <+: x → y = x) : x = y ∧ s = t := by
  have heq : x = y := by
    rcases List.prefix_or_prefix_of_prefix (List.prefix_append x s) (h ▸ List.prefix_append y t) with hp | hp
    · exact hxy hp
    · exact (hyx hp).symm
  subst heq
  exact ⟨rfl, List.append_cancel_left h⟩

def special : List Char := '"' :: '\\' :: (List.range 32).map Char.ofNat

variable {c : Char}

theorem escapeChar_plain (h : c ∉ special) : escapeChar c = [c] := by
  have hcontrol : ¬ c.toNat < 32 := fun hlt => h (by
    refine List.mem_cons_of_mem _ (List.mem_cons_of_mem _ (List.mem_map.mpr ⟨c.toNat, List.mem_range.mpr hlt, ?_⟩))
    exact Char.ofNat_toNat c)
  have hne : ∀ d ∈ special, c ≠ d := fun d hd hcd => h (hcd ▸ hd)
  unfold escapeChar
  rw [if_neg (hne _ (by decide)), if_neg (hne _ (by decide)), if_neg (hne _ (by decide)), if_neg (hne _ (by decide)),
    if_neg (hne _ (by decide)), if_neg (hne _ (by decide)), if_neg (hne _ (by decide)), if_neg hcontrol]

theorem special_prefix : ∀ c ∈ special, ∀ d ∈ special, escapeChar c <+: escapeChar d → c = d := by
  have hall : (special.all fun c => special.all fun d => decide (escapeChar c <+: escapeChar d → c = d)) = true := by
    decide +kernel
  intro c hc d hd
  exact of_decide_eq_true (List.all_eq_true.mp (List.all_eq_true.mp hall c hc) d hd)

theorem special_head : ∀ c ∈ special, ∃ d rest, escapeChar c = '\\' :: d :: rest := by
  have hall : (special.all fun c => decide ((escapeChar c).head? = some '\\' ∧ 2 ≤ (escapeChar c).length)) = true := by
    decide +kernel
  intro c hc
  obtain ⟨hhead, hlen⟩ := of_decide_eq_true (List.all_eq_true.mp hall c hc)
  match escapeChar c, hhead, hlen with
  | _ :: d :: rest, rfl, _ => exact ⟨d, rest, rfl⟩

theorem escapeChar_prefix_eq {d : Char} (h : escapeChar c <+: escapeChar d) : c = d := by
  by_cases hc : c ∈ special
  · by_cases hd : d ∈ special
    · exact special_prefix c hc d hd h
    · obtain ⟨e, rest, he⟩ := special_head c hc
      rw [he, escapeChar_plain hd] at h
      simpa using h.length_le
  · rw [escapeChar_plain hc] at h
    by_cases hd : d ∈ special
    · obtain ⟨e, rest, he⟩ := special_head d hd
      rw [he] at h
      obtain rfl : c = '\\' := by simpa using h
      exact absurd (by decide) hc
    · rw [escapeChar_plain hd] at h
      simpa using h

theorem escapeChar_ne_quote (c : Char) (s : List Char) : ∃ d rest, escapeChar c ++ s = d :: rest ∧ d ≠ '"' := by
  by_cases hc : c ∈ special
  · obtain ⟨e, rest, he⟩ := special_head c hc
    exact ⟨'\\', e :: rest ++ s, by rw [he]; rfl, by decide⟩
  · refine ⟨c, s, by rw [escapeChar_plain hc]; rfl, ?_⟩
    rintro rfl
    exact absurd (by decide) hc

theorem escape_append (x y s t : List Char) (h : escape x ++ '"' :: s = escape y ++ '"' :: t) : x = y ∧ s = t := by
  induction x generalizing y with
  | nil =>
    cases y with
    | nil => exact ⟨rfl, (List.cons.inj h).2⟩
    | cons d y =>
      obtain ⟨e, rest, he, hne⟩ := escapeChar_ne_quote d (escape y ++ '"' :: t)
      have hcons : '"' :: s = e :: rest := by
        rw [← he]
        simpa [escape] using h
      exact absurd (List.cons.inj hcons).1.symm hne
  | cons c x ih =>
    cases y with
    | nil =>
      obtain ⟨e, rest, he, hne⟩ := escapeChar_ne_quote c (escape x ++ '"' :: s)
      have hcons : e :: rest = '"' :: t := by
        rw [← he]
        simpa [escape] using h
      exact absurd (List.cons.inj hcons).1 hne
    | cons d y =>
      have h : escapeChar c ++ (escape x ++ '"' :: s) = escapeChar d ++ (escape y ++ '"' :: t) := by
        simpa [escape] using h
      obtain ⟨hcd, hrest⟩ := eq_of_prefix_free h (fun hp => congrArg _ (escapeChar_prefix_eq hp))
        fun hp => congrArg _ (escapeChar_prefix_eq hp)
      obtain rfl := escapeChar_prefix_eq (hcd ▸ List.prefix_refl _ : escapeChar c <+: escapeChar d)
      obtain ⟨rfl, hst⟩ := ih y hrest
      exact ⟨rfl, hst⟩

theorem quote_append {x y : String} (h : quote x ++ s = quote y ++ t) : x = y ∧ s = t := by
  have h : escape x.toList ++ '"' :: s = escape y.toList ++ '"' :: t := by
    simpa [quote] using h
  obtain ⟨hxy, hst⟩ := escape_append _ _ _ _ h
  exact ⟨String.toList_injective hxy, hst⟩

/-- The text goes on with no number character. -/
def Stops (s : List Char) : Prop := ∀ c rest, s = c :: rest → isNumberChar c = false

theorem Stops.of_cons (h : isNumberChar c = false) : Stops (c :: s) := by
  rintro _ _ ⟨⟩
  exact h

theorem number_append (hx : ∀ c ∈ x, isNumberChar c = true) (hy : ∀ c ∈ y, isNumberChar c = true)
    (hs : Stops s) (ht : Stops t) (h : x ++ s = y ++ t) : x = y ∧ s = t := by
  induction x generalizing y with
  | nil =>
    cases y with
    | nil => exact ⟨rfl, h⟩
    | cons d y =>
      have hd := hs d (y ++ t) h
      rw [hy d List.mem_cons_self] at hd
      cases hd
  | cons c x ih =>
    cases y with
    | nil =>
      have hc := ht c (x ++ s) h.symm
      rw [hx c List.mem_cons_self] at hc
      cases hc
    | cons d y =>
      obtain ⟨rfl, hrest⟩ := List.cons.inj h
      obtain ⟨rfl, hst⟩ := ih (fun e he => hx e (List.mem_cons_of_mem _ he)) (fun e he => hy e (List.mem_cons_of_mem _ he)) hrest
      exact ⟨rfl, hst⟩

/-! ## The text determines the value -/

variable [NumberText N]

theorem number_head (n : N) (s : List Char) : ∃ c rest, text n ++ s = c :: rest ∧ isNumberChar c = true := by
  cases h : text n with
  | nil => exact absurd h (text_ne_nil n)
  | cons c rest => exact ⟨c, rest ++ s, rfl, text_chars n c (h ▸ List.mem_cons_self)⟩

variable {q : Quoting}

/-- Which value begins with this character. -/
inductive Begins : Char → Json N → Prop where
  | null : Begins 'n' .null
  | true : Begins 't' (.bool true)
  | false : Begins 'f' (.bool false)
  | num (c : Char) (n : N) (h : isNumberChar c = true) : Begins c (.num n)
  | str (s : String) : Begins '"' (.str s)
  | array (items : Node N .items) : Begins '[' (.array items)
  | object (fields : Node N .fields) : Begins '{' (.object fields)

theorem encodeWith_begins (v : Json N) (s : List Char) : ∃ c rest, encodeWith q v [] ++ s = c :: rest ∧ Begins c v := by
  cases v with
  | null => exact ⟨_, _, rfl, .null⟩
  | bool b =>
    cases b with
    | true => exact ⟨_, _, rfl, .true⟩
    | false => exact ⟨_, _, rfl, .false⟩
  | num n =>
    obtain ⟨c, rest, hrest, hc⟩ := number_head n s
    exact ⟨c, rest, hrest, .num c n hc⟩
  | str x =>
    obtain ⟨rest, hrest⟩ := q.head x
    exact ⟨_, rest ++ s, by rw [encodeWith, hrest]; rfl, .str x⟩
  | array items => exact ⟨_, _, rfl, .array items⟩
  | object fields => exact ⟨_, _, rfl, .object fields⟩

/-- The first character of a value tells it from the end of an array or object. -/
theorem encodeWith_head (v : Json N) (s : List Char) : ∃ c rest, encodeWith q v [] ++ s = c :: rest ∧ c ≠ ']' ∧ c ≠ '}' := by
  obtain ⟨c, rest, hrest, hc⟩ := encodeWith_begins v s
  refine ⟨c, rest, hrest, ?_, ?_⟩ <;> rintro rfl <;> cases hc <;> contradiction

theorem encodeWith_value_sep (v : Json N) (sep : List Char) : encodeWith q v sep = encodeWith q v [] := by
  cases v with
  | bool b => cases b <;> rfl
  | null => rfl
  | num n => rfl
  | str x => rfl
  | array items => rfl
  | object fields => rfl

variable {v w : Json N}

theorem same_beginning {sep : List Char} (h : encodeWith q v sep ++ s = encodeWith q w sep ++ t) :
    ∃ c, Begins c v ∧ Begins c w := by
  rw [encodeWith_value_sep v, encodeWith_value_sep w] at h
  obtain ⟨c, rest, hv, hbv⟩ := encodeWith_begins v s
  obtain ⟨d, rest', hw, hbw⟩ := encodeWith_begins w t
  obtain ⟨rfl, -⟩ := List.cons.inj (hv.symm.trans (h.trans hw))
  exact ⟨c, hbv, hbw⟩

theorem stops_rest_items (items : Node N .items) (s : List Char) : Stops (encodeWith q items [','] ++ s) := by
  cases items with
  | nil => exact .of_cons (by decide)
  | cons v rest => exact .of_cons (by decide)

theorem stops_rest_fields (fields : Node N .fields) (s : List Char) : Stops (encodeWith q fields [','] ++ s) := by
  cases fields with
  | empty => exact .of_cons (by decide)
  | field key v rest => exact .of_cons (by decide)

variable {k : Kind}

/-- **Unique reading.**  A node is read off the front of a text in one way, whatever follows; a value must be followed
by something that does not continue a number. -/
theorem encodeWith_append (v w : Node N k) (sep s t : List Char) (hsep : sep = [] ∨ sep = [','])
    (hs : k = .value → Stops s) (ht : k = .value → Stops t) (h : encodeWith q v sep ++ s = encodeWith q w sep ++ t) : v = w ∧ s = t := by
  induction v generalizing sep s t with
  | nil =>
    cases w with
    | nil => exact ⟨rfl, List.append_cancel_left h⟩
    | cons w rest =>
      obtain ⟨c, more, hmore, hne, -⟩ := encodeWith_head w (encodeWith q rest [','] ++ t)
      rcases hsep with rfl | rfl
      · have hcons : ']' :: s = c :: more := by
          rw [← hmore]
          simpa [encodeWith] using h
        exact absurd (List.cons.inj hcons).1.symm hne
      · exact absurd h (by simp [encodeWith])
  | cons v rest ihv ihrest =>
    cases w with
    | nil =>
      obtain ⟨c, more, hmore, hne, -⟩ := encodeWith_head v (encodeWith q rest [','] ++ s)
      rcases hsep with rfl | rfl
      · have hcons : c :: more = ']' :: t := by
          rw [← hmore]
          simpa [encodeWith] using h
        exact absurd (List.cons.inj hcons).1 hne
      · exact absurd h (by simp [encodeWith])
    | cons w rest' =>
      simp only [encodeWith, List.append_assoc] at h
      obtain ⟨rfl, hrest⟩ := ihv w [] _ _ (Or.inl rfl) (fun _ => stops_rest_items rest s) (fun _ => stops_rest_items rest' t)
        (List.append_cancel_left h)
      obtain ⟨rfl, hst⟩ := ihrest rest' [','] s t (Or.inr rfl) nofun nofun hrest
      exact ⟨rfl, hst⟩
  | empty =>
    cases w with
    | empty => exact ⟨rfl, List.append_cancel_left h⟩
    | field key w rest =>
      obtain ⟨more, hmore⟩ := q.head key
      rcases hsep with rfl | rfl <;> exact absurd h (by simp [encodeWith, hmore])
  | field key v rest ihv ihrest =>
    cases w with
    | empty =>
      obtain ⟨more, hmore⟩ := q.head key
      rcases hsep with rfl | rfl <;> exact absurd h (by simp [encodeWith, hmore])
    | field key' w rest' =>
      simp only [encodeWith, List.append_assoc, List.cons_append] at h
      obtain ⟨rfl, hcolon⟩ := q.read _ _ _ _ (List.append_cancel_left h)
      obtain ⟨rfl, hrest⟩ := ihv w [] _ _ (Or.inl rfl) (fun _ => stops_rest_fields rest s) (fun _ => stops_rest_fields rest' t)
        (List.cons.inj hcolon).2
      obtain ⟨rfl, hst⟩ := ihrest rest' [','] s t (Or.inr rfl) nofun nofun hrest
      exact ⟨rfl, hst⟩
  | null =>
    obtain ⟨c, hv, hw⟩ := same_beginning h
    cases hv
    cases hw with
    | null => exact ⟨rfl, List.append_cancel_left h⟩
    | num _ n hn => exact absurd hn (by decide)
  | bool b =>
    obtain ⟨c, hv, hw⟩ := same_beginning h
    cases hv with
    | true =>
      cases hw with
      | true => exact ⟨rfl, List.append_cancel_left h⟩
      | num _ n hn => exact absurd hn (by decide)
    | false =>
      cases hw with
      | false => exact ⟨rfl, List.append_cancel_left h⟩
      | num _ n hn => exact absurd hn (by decide)
  | num n =>
    obtain ⟨c, hv, hw⟩ := same_beginning h
    cases hv with
    | num _ _ hn =>
      cases hw with
      | num _ m hm =>
        obtain ⟨htext, hst⟩ := number_append (text_chars n) (text_chars m) (hs rfl) (ht rfl) h
        obtain rfl := text_injective n m htext
        exact ⟨rfl, hst⟩
      | null => exact absurd hn (by decide)
      | true => exact absurd hn (by decide)
      | false => exact absurd hn (by decide)
      | str x => exact absurd hn (by decide)
      | array items => exact absurd hn (by decide)
      | object fields => exact absurd hn (by decide)
  | str x =>
    obtain ⟨c, hv, hw⟩ := same_beginning h
    cases hv
    cases hw with
    | str y =>
      obtain ⟨rfl, hst⟩ := q.read _ _ _ _ h
      exact ⟨rfl, hst⟩
    | num _ n hn => exact absurd hn (by decide)
  | array items ih =>
    obtain ⟨c, hv, hw⟩ := same_beginning h
    cases hv
    cases hw with
    | array items' =>
      simp only [encodeWith, List.cons_append] at h
      obtain ⟨rfl, hst⟩ := ih items' [] s t (Or.inl rfl) nofun nofun (List.cons.inj h).2
      exact ⟨rfl, hst⟩
    | num _ n hn => exact absurd hn (by decide)
  | object fields ih =>
    obtain ⟨c, hv, hw⟩ := same_beginning h
    cases hv
    cases hw with
    | object fields' =>
      simp only [encodeWith, List.cons_append] at h
      obtain ⟨rfl, hst⟩ := ih fields' [] s t (Or.inl rfl) nofun nofun (List.cons.inj h).2
      exact ⟨rfl, hst⟩
    | num _ n hn => exact absurd hn (by decide)

/-- Strings as `escape` writes them. -/
def plain : Quoting := ⟨quote, fun _ => ⟨_, rfl⟩, fun _ _ _ _ => quote_append⟩

theorem encode_eq_encodeWith (v : Node N k) (sep : List Char) : encode v sep = encodeWith plain v sep := by
  induction v generalizing sep with
  | null => rfl
  | bool b => cases b <;> rfl
  | num n => rfl
  | str x => rfl
  | array items ih => rw [encode, encodeWith, ih]
  | object fields ih => rw [encode, encodeWith, ih]
  | nil => rfl
  | cons v rest ihv ihrest => rw [encode, encodeWith, ihv, ihrest]
  | empty => rfl
  | field key v rest ihv ihrest =>
    rw [encode, encodeWith, ihv, ihrest]
    rfl

theorem encode_append (v w : Node N k) (sep s t : List Char) (hsep : sep = [] ∨ sep = [','])
    (hs : k = .value → Stops s) (ht : k = .value → Stops t) (h : encode v sep ++ s = encode w sep ++ t) : v = w ∧ s = t := by
  rw [encode_eq_encodeWith, encode_eq_encodeWith] at h
  exact encodeWith_append v w sep s t hsep hs ht h

theorem canonicalWith_injective (h : canonicalWith q v = canonicalWith q w) : sortKeys v = sortKeys w := by
  have htext : encodeWith q (sortKeys v) [] = encodeWith q (sortKeys w) [] := String.ofList_injective h
  have hempty : encodeWith q (sortKeys v) [] ++ [] = encodeWith q (sortKeys w) [] ++ [] := by rw [htext]
  exact (encodeWith_append _ _ [] [] [] (Or.inl rfl) (fun _ _ _ h => nomatch h) (fun _ _ _ h => nomatch h) hempty).1

/-- **The canonical text determines the value**, up to the order of keys. -/
theorem canonical_injective (h : canonical v = canonical w) : sortKeys v = sortKeys w := by
  have hplain : canonicalWith plain v = canonicalWith plain w := by
    rw [canonicalWith, canonicalWith, ← encode_eq_encodeWith, ← encode_eq_encodeWith]
    exact h
  exact canonicalWith_injective hplain

end MmrTrader.Lib.CanonicalJson

/-!
## JSON values up to the order of keys

* `Reordered` — the same value with the fields of its objects in another order.
* `UniqueKeys` — no object has a key twice; `Reordered.uniqueKeys` — the order does not matter to it.
* `sortKeys_reordered`, `sortKeys_eq_of_reordered` — the sorted value is one of the orders, and the same for all of them.
-/

namespace MmrTrader.Lib.CanonicalJson

variable {N : Type}

inductive Reordered : {k : Kind} → Node N k → Node N k → Prop where
  | refl {k : Kind} (v : Node N k) : Reordered v v
  | array {items items' : Node N .items} (h : Reordered items items') : Reordered (.array items) (.array items')
  | object {fields fields' : Node N .fields} (h : Reordered fields fields') : Reordered (.object fields) (.object fields')
  | cons {v v' : Json N} {rest rest' : Node N .items} (hv : Reordered v v') (hrest : Reordered rest rest') :
      Reordered (.cons v rest) (.cons v' rest')
  | field (key : String) {v v' : Json N} {rest rest' : Node N .fields} (hv : Reordered v v')
      (hrest : Reordered rest rest') : Reordered (.field key v rest) (.field key v' rest')
  | swap (key key' : String) (v v' : Json N) (rest : Node N .fields) :
      Reordered (.field key v (.field key' v' rest)) (.field key' v' (.field key v rest))
  | trans {k : Kind} {u v w : Node N k} (huv : Reordered u v) (hvw : Reordered v w) : Reordered u w

variable {k : Kind}

theorem Reordered.symm {v w : Node N k} (h : Reordered v w) : Reordered w v := by
  induction h with
  | refl v => exact .refl v
  | array _ ih => exact .array ih
  | object _ ih => exact .object ih
  | cons _ _ ihv ihrest => exact .cons ihv ihrest
  | field key _ _ ihv ihrest => exact .field key ihv ihrest
  | swap key key' v v' rest => exact .swap key' key v' v rest
  | trans _ _ ihu ihv => exact .trans ihv ihu

/-! ## Keys -/

def keys : {k : Kind} → Node N k → List String
  | _, .field key _ rest => key :: keys rest
  | _, _ => []

def UniqueKeys : {k : Kind} → Node N k → Prop
  | _, .array items => UniqueKeys items
  | _, .object fields => UniqueKeys fields
  | _, .cons v rest => UniqueKeys v ∧ UniqueKeys rest
  | _, .field key v rest => key ∉ keys rest ∧ UniqueKeys v ∧ UniqueKeys rest
  | _, _ => True

theorem Reordered.keys {k : Kind} {v w : Node N k} (h : Reordered v w) : (keys v).Perm (keys w) := by
  induction h with
  | refl v => exact .refl _
  | array _ _ => exact .refl _
  | object _ _ => exact .refl _
  | cons _ _ _ _ => exact .refl _
  | field key _ _ _ ihrest => exact ihrest.cons key
  | swap key key' v v' rest => exact .swap key' key _
  | trans _ _ ihu ihv => exact ihu.trans ihv

theorem Reordered.uniqueKeys {v w : Node N k} (h : Reordered v w) : UniqueKeys v ↔ UniqueKeys w := by
  induction h with
  | refl v => exact .rfl
  | array _ ih => exact ih
  | object _ ih => exact ih
  | cons _ _ ihv ihrest => exact and_congr ihv ihrest
  | field key _ hrest ihv ihrest => exact and_congr (not_congr hrest.keys.mem_iff) (and_congr ihv ihrest)
  | swap key key' v v' rest =>
    simp only [UniqueKeys, CanonicalJson.keys, List.mem_cons, not_or]
    constructor
    · rintro ⟨⟨hne, hkey⟩, hv, hkey', hv', hrest⟩
      exact ⟨⟨Ne.symm hne, hkey'⟩, hv', hkey, hv, hrest⟩
    · rintro ⟨⟨hne, hkey'⟩, hv', hkey, hv, hrest⟩
      exact ⟨⟨Ne.symm hne, hkey⟩, hv, hkey', hv', hrest⟩
  | trans _ _ ihu ihv => exact ihu.trans ihv

/-! ## Sorting -/

theorem insertField_reordered (key : String) (v : Json N) (fields : Node N .fields) :
    Reordered (.field key v fields) (insertField key v fields) := by
  cases fields with
  | empty => exact .refl _
  | field k w rest =>
    unfold insertField
    split
    · exact (Reordered.swap key k v w rest).trans (.field k (.refl w) (insertField_reordered key v rest))
    · exact .refl _

theorem sortKeys_reordered (v : Node N k) : Reordered v (sortKeys v) := by
  induction v with
  | array items ih => exact .array ih
  | object fields ih => exact .object ih
  | cons v rest ihv ihrest => exact .cons ihv ihrest
  | field key v rest ihv ihrest => exact (Reordered.field key ihv ihrest).trans (insertField_reordered _ _ _)
  | _ => exact .refl _

variable {key key' : String}

theorem key_lt_or_lt (hne : key ≠ key') : key < key' ∧ ¬ key' < key ∨ key' < key ∧ ¬ key < key' := by
  by_cases h : key < key'
  · exact .inl ⟨h, String.lt_asymm h⟩
  · by_cases h' : key' < key
    · exact .inr ⟨h', h⟩
    · exact absurd (String.le_antisymm (String.not_lt.mp h') (String.not_lt.mp h)) hne

/-- What is not below `key'` and is below `key` tells these apart. -/
theorem key_lt_of_between {k : String} (hk : k < key) (hk' : ¬ k < key') : key' < key := by
  by_cases h : key' < key
  · exact h
  · exact absurd hk (String.not_lt.mpr (String.le_trans (String.not_lt.mp h) (String.not_lt.mp hk')))

theorem insertField_comm {key key' : String} (hne : key ≠ key') (v v' : Json N) (fields : Node N .fields) :
    insertField key v (insertField key' v' fields) = insertField key' v' (insertField key v fields) := by
  cases fields with
  | empty => rcases key_lt_or_lt hne with ⟨h, h'⟩ | ⟨h, h'⟩ <;> simp [insertField, h, h']
  | field k w rest =>
    have ih := insertField_comm hne v v' rest
    by_cases hk : k < key
    · by_cases hk' : k < key'
      · simp only [insertField, if_pos hk, if_pos hk', ih]
      · simp [insertField, hk, hk', key_lt_of_between hk hk']
    · by_cases hk' : k < key'
      · simp [insertField, hk, hk', key_lt_of_between hk' hk]
      · rcases key_lt_or_lt hne with ⟨h, h'⟩ | ⟨h, h'⟩ <;> simp [insertField, hk, hk', h, h']

theorem sortKeys_eq_of_reordered {v w : Node N k} (h : Reordered v w) (hunique : UniqueKeys v) : sortKeys v = sortKeys w := by
  induction h with
  | refl v => rfl
  | array _ ih => rw [sortKeys, sortKeys, ih hunique]
  | object _ ih => rw [sortKeys, sortKeys, ih hunique]
  | cons _ _ ihv ihrest => rw [sortKeys, sortKeys, ihv hunique.1, ihrest hunique.2]
  | field key _ _ ihv ihrest => rw [sortKeys, sortKeys, ihv hunique.2.1, ihrest hunique.2.2]
  | swap key key' v v' rest =>
    have hne : key ≠ key' := fun heq => hunique.1 (heq ▸ List.mem_cons_self)
    simp only [sortKeys]
    exact insertField_comm hne _ _ _
  | trans huv _ ihu ihv => exact (ihu hunique).trans (ihv (huv.uniqueKeys.mp hunique))

end MmrTrader.Lib.CanonicalJson
