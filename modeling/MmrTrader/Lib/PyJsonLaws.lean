import MmrTrader.Lib.PyJsonStrings

/-!
# What is written is read back

* `IsJson` — a value that a JSON text can spell: whole strings, and no key twice in an object.
* `scanOnce_dumps` — the scanner reads a written value, whatever follows it.
-/

namespace MmrTrader.Lib.PyJson

open CanonicalJson (Kind hexDigit)

variable {F E : Type}

def pairs : {k : Kind} → Node F k → List (Text × Value F)
  | _, .field key v rest => (key, v) :: pairs rest
  | _, _ => []

theorem fields_pairs (n : Node F .fields) : fields (pairs n) = n := by
  cases n with
  | empty => rfl
  | field key v rest => rw [pairs, fields, fields_pairs rest]

theorem map_fst_pairs (n : Node F .fields) : (pairs n).map Prod.fst = keys n := by
  cases n with
  | empty => rfl
  | field key v rest => rw [pairs, keys, List.map_cons, map_fst_pairs rest]

theorem keys_fields (ps : List (Text × Value F)) : keys (fields ps) = ps.map Prod.fst := by
  induction ps with
  | nil => rfl
  | cons p ps ih => rw [fields, keys, ih, List.map_cons]

def Distinct : {k : Kind} → Node F k → Prop
  | _, .array items => Distinct items
  | _, .object fields => (keys fields).Nodup ∧ Distinct fields
  | _, .cons v rest => Distinct v ∧ Distinct rest
  | _, .field _ v rest => Distinct v ∧ Distinct rest
  | _, _ => True

def Spelled : {k : Kind} → Node F k → Prop
  | _, .str s => Whole s
  | _, .array items => Spelled items
  | _, .object fields => Spelled fields
  | _, .cons v rest => Spelled v ∧ Spelled rest
  | _, .field key v rest => Whole key ∧ Spelled v ∧ Spelled rest
  | _, _ => True

def IsJson {k : Kind} (n : Node F k) : Prop := Distinct n ∧ Spelled n

/-- The hook makes an object of pairs whose keys are distinct. -/
def Keeps (hook : List (Text × Value F) → Except E (Value F)) : Prop :=
  ∀ ps : List (Text × Value F), (ps.map Prod.fst).Nodup → hook ps = .ok (.object (fields ps))

variable {v : Value F}
variable {key : Text} {ps : List (Text × Value F)}

theorem setItem_new (h : key ∉ ps.map Prod.fst) : setItem key v ps = ps ++ [(key, v)] := by
  induction ps with
  | nil => rfl
  | cons p ps ih =>
    obtain ⟨k, w⟩ := p
    rw [List.map_cons, List.mem_cons, not_or] at h
    rw [setItem, if_neg (Ne.symm h.1), ih h.2, List.cons_append]

theorem foldl_setItem {out : List (Text × Value F)} (h : ((out ++ ps).map Prod.fst).Nodup) :
    ps.foldl (fun out pair => setItem pair.1 pair.2 out) out = out ++ ps := by
  induction ps generalizing out with
  | nil => rw [List.foldl_nil, List.append_nil]
  | cons p ps ih =>
    have hnew : p.1 ∉ out.map Prod.fst := by
      rw [List.map_append, List.nodup_append] at h
      intro hmem
      exact h.2.2 p.1 hmem p.1 List.mem_cons_self rfl
    have happend : out ++ p :: ps = out ++ [p] ++ ps := by simp
    rw [List.foldl_cons, setItem_new hnew, ih, happend]
    rw [← happend]
    exact h

theorem keeps_plainObject : Keeps (plainObject (F := F) (E := E)) := by
  intro ps hnodup
  rw [plainObject, foldl_setItem (by simpa using hnodup), List.nil_append]

/-! ## The scanner on written text -/

variable {c : CodePoint}

theorem skipWhite_cons (h : isWhite c = false) (t : Text) : skipWhite (c :: t) = c :: t := by
  rw [skipWhite, List.dropWhile_cons_of_neg]
  rw [h]
  decide

variable {l : Literal}

theorem literal_head (hl : l.WellFormed) :
    (∃ c t, l.text = c :: t ∧ isDigit c = true) ∨ ∃ c t, l.text = point '-' :: c :: t ∧ isDigit c = true := by
  obtain ⟨negative, integer, fraction, exponent⟩ := l
  obtain ⟨⟨hne, hall⟩, -⟩ := hl
  cases integer with
  | nil => exact absurd rfl hne
  | cons d integer =>
    have hd := hall d List.mem_cons_self
    cases negative with
    | true => exact .inr ⟨d, _, rfl, hd⟩
    | false => exact .inl ⟨d, _, rfl, hd⟩

theorem ne_of_digit (h : isDigit c = true) {d : Char} (hd : isDigit (point d) = false) : c ≠ point d := by
  rintro rfl
  rw [hd] at h
  cases h

theorem keyword_text (word : String) (v : Value F) (rest : Text) :
    keyword (E := E) word v (text word ++ rest) = .ok (v, rest) := by
  have hlength : (text word).length = word.length := by
    rw [text, List.length_map, String.length_toList]
  rw [keyword, if_pos (by simp), ← hlength, List.drop_left]

variable [FloatText F]
variable {rest : Text}

theorem scanTerm_literal {object array : Text → Except (LoadError E) (Value F × Text)} (hl : l.WellFormed)
    (hv : readLiteral (E := E) l = .ok v) (hrest : Stops rest) : scanTerm object array (l.text ++ rest) = .ok (v, rest) := by
  have hnumber : scanNumber (E := E) (F := F) (l.text ++ rest) = .ok (v, rest) := by
    rw [scanNumber, matchNumber_text hl hrest]
    simp only [hv]
    rfl
  rcases literal_head hl with ⟨c, t, htext, hc⟩ | ⟨c, t, htext, hc⟩
  · rw [htext] at hnumber ⊢
    simpa [scanTerm, ne_of_digit hc (d := '"') (by decide), ne_of_digit hc (d := '\x7b') (by decide),
      ne_of_digit hc (d := '[') (by decide), ne_of_digit hc (d := 'n') (by decide), ne_of_digit hc (d := 't') (by decide),
      ne_of_digit hc (d := 'f') (by decide), ne_of_digit hc (d := 'N') (by decide), ne_of_digit hc (d := 'I') (by decide),
      ne_of_digit hc (d := '-') (by decide)] using hnumber
  · rw [htext] at hnumber ⊢
    simpa [scanTerm, ne_of_digit hc (d := 'I') (by decide)] using hnumber

/-- The words of a style are read, and what it puts between is white. -/
structure Style.Lawful (s : Style F) (E : Type) : Prop where
  gap : ∀ c ∈ s.gap, isWhite c = true
  head : ∀ x w, s.word x = some w → ∃ c w', w = c :: w' ∧ isWhite c = false ∧ c ≠ point ']'
  read : ∀ x w (object array : Text → Except (LoadError E) (Value F × Text)) rest, FloatText.isFinite x = false →
    s.word x = some w → scanTerm object array (w ++ rest) = .ok (.float x, rest)

theorem compact_lawful : (compact (F := F)).Lawful E := by
  constructor
  · exact nofun
  · exact nofun
  · exact nofun

variable {s : Style F}

theorem skipWhite_append (hs : s.Lawful E) (hc : isWhite c = false) (t : Text) : skipWhite (s.gap ++ c :: t) = c :: t := by
  rw [skipWhite, List.dropWhile_append_of_pos hs.gap]
  exact skipWhite_cons hc t

variable {t : Text}

theorem scanPair_text (hs : s.Lawful E) {value : Text → Except (LoadError E) (Value F × Text)}
    (hkey : Whole key) (hc : isWhite c = false) (hv : value (c :: t) = .ok (v, rest)) :
    scanPair value (quote key ++ (point ':' :: (s.gap ++ c :: t))) = .ok ((key, v), rest) := by
  have hcolon : isWhite (point ':') = false := by decide
  rw [quote, List.cons_append, scanPair, if_pos rfl, List.append_assoc, List.singleton_append, scanString_quote hkey]
  simp only [bind, Except.bind, skipWhite_cons hcolon, if_true, skipWhite_append hs hc, hv]
  rfl

variable {limit : Nat}

/-- The first character of a written value. -/
theorem dumpsWith_head (hs : s.Lawful E)
    (h : dumpsWith s v limit [] = .ok t) : ∃ c t', t = c :: t' ∧ isWhite c = false ∧ c ≠ point ']' := by
  have hliteral : ∀ {l : Literal}, l.WellFormed → t = l.text → ∃ c t', t = c :: t' ∧ isWhite c = false ∧ c ≠ point ']' := by
    rintro l hl rfl
    rcases literal_head hl with ⟨c, t', htext, hc⟩ | ⟨c, t', htext, -⟩
    · refine ⟨c, t', htext, ?_, ne_of_digit hc (by decide)⟩
      simp only [isDigit, Bool.and_eq_true, decide_eq_true_eq] at hc
      simp only [isWhite, Bool.or_eq_false_iff, decide_eq_false_iff_not]
      omega
    · exact ⟨_, _, htext, by decide, by decide⟩
  cases v with
  | null => exact ⟨point 'n', text "ull", by injection h with h; exact h.symm, by decide, by decide⟩
  | bool b =>
    cases b with
    | true => exact ⟨point 't', text "rue", by injection h with h; exact h.symm, by decide, by decide⟩
    | false => exact ⟨point 'f', text "alse", by injection h with h; exact h.symm, by decide, by decide⟩
  | int i =>
    rw [dumpsWith] at h
    split at h
    · cases h
    · exact hliteral (intLiteral_wellFormed i) (Except.ok.inj h).symm
  | float x =>
    rw [dumpsWith] at h
    split at h
    · rename_i hx
      exact hliteral (FloatText.repr_wellFormed x hx) (Except.ok.inj h).symm
    · split at h
      · rename_i w hw
        cases h
        exact hs.head x _ hw
      · cases h
  | str s => exact ⟨point '"', _, (Except.ok.inj h).symm, by decide, by decide⟩
  | array items =>
    cases limit with
    | zero => cases h
    | succ limit =>
      rw [dumpsWith] at h
      cases hitems : dumpsWith s items limit [] with
      | error e => rw [hitems] at h; cases h
      | ok more => rw [hitems] at h; exact ⟨point '[', more, (Except.ok.inj h).symm, by decide, by decide⟩
  | object fields =>
    cases limit with
    | zero => cases h
    | succ limit =>
      rw [dumpsWith] at h
      cases hfields : dumpsWith s fields limit [] with
      | error e => rw [hfields] at h; cases h
      | ok more => rw [hfields] at h; exact ⟨point '\x7b', more, (Except.ok.inj h).symm, by decide, by decide⟩

/-! ## Reading a written value -/

theorem except_bind_ok {ε α β : Type} {x : Except ε α} {f : α → Except ε β} {b : β} (h : (x >>= f) = .ok b) :
    ∃ a, x = .ok a ∧ f a = .ok b := by
  cases x with
  | error e => cases h
  | ok a => exact ⟨a, rfl, h⟩

/-- What the scanner makes of a written node. -/
def ReadBack (s : Style F) (hook : List (Text × Value F) → Except E (Value F)) : (k : Kind) → Node F k → Prop
  | .value, v => IsJson v → ∀ limit t rest, dumpsWith s v limit [] = .ok t → Stops rest →
      scanOnce hook limit (t ++ rest) = .ok (v, rest)
  | .items, items => IsJson items → ∀ limit t rest,
      (dumpsWith s items limit (point ',' :: s.gap) = .ok t → ∀ n, t.length < n →
        scanItems (scanOnce hook limit) n (t ++ rest) = .ok (items, rest)) ∧
      (dumpsWith s items limit [] = .ok t → scanArray (scanOnce hook limit) (t ++ rest) = .ok (.array items, rest))
  | .fields, fields => IsJson fields → ∀ limit t rest,
      (dumpsWith s fields limit (point ',' :: s.gap) = .ok t → ∀ n, t.length < n →
        scanPairs (scanOnce hook limit) n (t ++ rest) = .ok (pairs fields, rest)) ∧
      (dumpsWith s fields limit [] = .ok t →
        scanObject (scanOnce hook limit) hook (t ++ rest) = applyHook hook (pairs fields) rest)

theorem stops_items {items : Node F .items}
    (h : dumpsWith s items limit (point ',' :: s.gap) = .ok t) (rest : Text) : Stops (t ++ rest) := by
  cases items with
  | nil =>
    obtain rfl := Except.ok.inj h
    exact .cons (by decide) (by decide) (by decide)
  | cons v more =>
    rw [dumpsWith] at h
    obtain ⟨_, -, h⟩ := except_bind_ok h
    obtain ⟨_, -, h⟩ := except_bind_ok h
    obtain rfl := Except.ok.inj h
    exact .cons (by decide) (by decide) (by decide)

theorem stops_fields {fields : Node F .fields}
    (h : dumpsWith s fields limit (point ',' :: s.gap) = .ok t) (rest : Text) : Stops (t ++ rest) := by
  cases fields with
  | empty =>
    obtain rfl := Except.ok.inj h
    exact .cons (by decide) (by decide) (by decide)
  | field key v more =>
    rw [dumpsWith] at h
    obtain ⟨_, -, h⟩ := except_bind_ok h
    obtain ⟨_, -, h⟩ := except_bind_ok h
    obtain rfl := Except.ok.inj h
    exact .cons (by decide) (by decide) (by decide)

section
variable {style : Style F} {hook : List (Text × Value F) → Except E (Value F)}
variable {v : Value F}

theorem readBack_cons (hstyle : style.Lawful E) {items : Node F .items} (hv : ReadBack style hook .value v)
    (hitems : ReadBack style hook .items items) : ReadBack style hook .items (.cons v items) := by
  rintro ⟨⟨hdv, hdi⟩, hsv, hsi⟩ limit t rest
  have hwritten : ∀ sep, dumpsWith style (.cons v items) limit sep = .ok t → ∃ c s more, t = sep ++ (c :: s ++ more) ∧
      isWhite c = false ∧ c ≠ point ']' ∧ scanOnce hook limit (c :: s ++ (more ++ rest)) = .ok (v, more ++ rest) ∧
      dumpsWith style items limit (point ',' :: style.gap) = .ok more := by
    intro sep h
    rw [dumpsWith] at h
    obtain ⟨s, hs, h⟩ := except_bind_ok h
    obtain ⟨more, hmore, h⟩ := except_bind_ok h
    obtain ⟨c, s, rfl, hc, hbracket⟩ := dumpsWith_head hstyle hs
    exact ⟨c, s, more, (Except.ok.inj h).symm, hc, hbracket, hv ⟨hdv, hsv⟩ limit _ _ hs (stops_items hmore rest), hmore⟩
  constructor
  · intro h n hn
    obtain ⟨c, s, more, rfl, hc, -, hread, hmore⟩ := hwritten _ h
    cases n with
    | zero => exact absurd hn (Nat.not_lt_zero _)
    | succ n =>
      have hcomma : isWhite (point ',') = false := by decide
      have htail := (hitems ⟨hdi, hsi⟩ limit more rest).1 hmore n (by simp at hn; omega)
      simp only [List.cons_append, List.append_assoc] at hread ⊢
      rw [scanItems, skipWhite_cons hcomma]
      simp only [point_inj, Char.reduceEq, if_false, if_true]
      rw [skipWhite_append hstyle hc, hread]
      simp only [bind, Except.bind, htail]
      rfl
  · intro h
    obtain ⟨c, s, more, rfl, hc, hbracket, hread, hmore⟩ := hwritten _ h
    have htail := (hitems ⟨hdi, hsi⟩ limit more rest).1 hmore ((more ++ rest).length + 1) (by rw [List.length_append]; omega)
    simp only [List.nil_append, List.cons_append, List.append_assoc] at hread ⊢
    rw [scanArray, skipWhite_cons hc]
    simp only [hbracket, if_false, hread, bind, Except.bind, htail]
    rfl

theorem readBack_field (hstyle : style.Lawful E) {key : Text} {fields : Node F .fields}
    (hv : ReadBack style hook .value v) (hfields : ReadBack style hook .fields fields) :
    ReadBack style hook .fields (.field key v fields) := by
  rintro ⟨⟨hdv, hdf⟩, hkey, hsv, hsf⟩ limit t rest
  have hwritten : ∀ sep, dumpsWith style (.field key v fields) limit sep = .ok t → ∃ c s more,
      t = sep ++ (quote key ++ (point ':' :: (style.gap ++ (c :: s ++ more)))) ∧
      scanPair (scanOnce hook limit) (quote key ++ (point ':' :: (style.gap ++ c :: (s ++ (more ++ rest))))) =
        .ok ((key, v), more ++ rest) ∧
      dumpsWith style fields limit (point ',' :: style.gap) = .ok more := by
    intro sep h
    rw [dumpsWith] at h
    obtain ⟨s, hs, h⟩ := except_bind_ok h
    obtain ⟨more, hmore, h⟩ := except_bind_ok h
    obtain ⟨c, s, rfl, hc, -⟩ := dumpsWith_head hstyle hs
    exact ⟨c, s, more, (Except.ok.inj h).symm,
      scanPair_text hstyle hkey hc (hv ⟨hdv, hsv⟩ limit _ _ hs (stops_fields hmore rest)), hmore⟩
  constructor
  · intro h n hn
    obtain ⟨c, s, more, rfl, hread, hmore⟩ := hwritten _ h
    cases n with
    | zero => exact absurd hn (Nat.not_lt_zero _)
    | succ n =>
      have hcomma : isWhite (point ',') = false := by decide
      have hquote : isWhite (point '"') = false := by decide
      have htail := (hfields ⟨hdf, hsf⟩ limit more rest).1 hmore n (by simp at hn; omega)
      simp only [quote, List.cons_append, List.append_assoc] at hread ⊢
      rw [scanPairs, skipWhite_cons hcomma]
      simp only [point_inj, Char.reduceEq, if_false, if_true]
      rw [skipWhite_append hstyle hquote, hread]
      simp only [bind, Except.bind, htail]
      rfl
  · intro h
    obtain ⟨c, s, more, rfl, hread, hmore⟩ := hwritten _ h
    have hquote : isWhite (point '"') = false := by decide
    have htail := (hfields ⟨hdf, hsf⟩ limit more rest).1 hmore ((more ++ rest).length + 1) (by rw [List.length_append]; omega)
    simp only [quote, List.nil_append, List.cons_append, List.append_assoc] at hread ⊢
    rw [scanObject, skipWhite_cons hquote]
    simp only [point_inj, Char.reduceEq, if_false, hread, bind, Except.bind, htail]
    rfl

theorem readBack (hstyle : style.Lawful E) (hhook : Keeps hook) {k : Kind} (n : Node F k) : ReadBack style hook k n := by
  induction n with
  | null =>
    intro _ limit t rest h _
    obtain rfl := Except.ok.inj h
    have hword := keyword_text (E := E) "ull" (.null (F := F)) rest
    cases limit <;> exact hword
  | bool b =>
    intro _ limit t rest h _
    cases b with
    | true =>
      obtain rfl := Except.ok.inj h
      have hword := keyword_text (E := E) "rue" (.bool (F := F) true) rest
      cases limit <;> exact hword
    | false =>
      obtain rfl := Except.ok.inj h
      have hword := keyword_text (E := E) "alse" (.bool (F := F) false) rest
      cases limit <;> exact hword
  | int i =>
    intro _ limit t rest h hrest
    rw [dumpsWith] at h
    split at h
    · cases h
    · rename_i hlong
      obtain rfl := Except.ok.inj h
      cases limit <;> exact scanTerm_literal (intLiteral_wellFormed i) (readLiteral_int hlong) hrest
  | float x =>
    intro _ limit t rest h hrest
    rw [dumpsWith] at h
    split at h
    · rename_i hx
      obtain rfl := Except.ok.inj h
      cases limit <;> exact scanTerm_literal (FloatText.repr_wellFormed x hx) (readLiteral_float hx) hrest
    · rename_i hx
      split at h
      · rename_i w hw
        cases h
        cases limit <;> exact hstyle.read x _ _ _ rest (by simpa using hx) hw
      · cases h
  | str s =>
    rintro ⟨-, hs⟩ limit t rest h -
    obtain rfl := Except.ok.inj h
    have hstring := scanString_quote (E := E) hs rest
    have hterm : ∀ object array, scanTerm (E := E) (F := F) object array (quote s ++ rest) = .ok (.str s, rest) := by
      intro object array
      rw [quote, List.cons_append, scanTerm, if_pos rfl, List.append_assoc, List.singleton_append, hstring]
      rfl
    cases limit <;> exact hterm _ _
  | array items ih =>
    intro hjson limit t rest h _
    cases limit with
    | zero => cases h
    | succ limit =>
      rw [dumpsWith] at h
      obtain ⟨s, hs, h⟩ := except_bind_ok h
      obtain rfl := Except.ok.inj h
      rw [List.cons_append, scanOnce, scanTerm]
      simp only [point_inj, Char.reduceEq, if_false, if_true]
      exact (ih hjson limit s rest).2 hs
  | object fs ih =>
    rintro ⟨⟨hnodup, hdistinct⟩, hspelled⟩ limit t rest h -
    cases limit with
    | zero => cases h
    | succ limit =>
      rw [dumpsWith] at h
      obtain ⟨s, hs, h⟩ := except_bind_ok h
      obtain rfl := Except.ok.inj h
      rw [List.cons_append, scanOnce, scanTerm]
      simp only [point_inj, Char.reduceEq, if_false, if_true]
      rw [(ih ⟨hdistinct, hspelled⟩ limit s rest).2 hs, applyHook, hhook _ (by rwa [map_fst_pairs]), fields_pairs]
  | nil =>
    intro _ limit t rest
    have hbracket : isWhite (point ']') = false := by decide
    constructor
    · intro h n hn
      obtain rfl := Except.ok.inj h
      cases n with
      | zero => exact absurd hn (Nat.not_lt_zero _)
      | succ n =>
        rw [List.singleton_append, scanItems, skipWhite_cons hbracket]
        simp
    · intro h
      obtain rfl := Except.ok.inj h
      rw [List.singleton_append, scanArray, skipWhite_cons hbracket]
      simp
  | cons v rest ihv ihrest => exact readBack_cons hstyle ihv ihrest
  | empty =>
    intro _ limit t rest
    have hbrace : isWhite (point '\x7d') = false := by decide
    constructor
    · intro h n hn
      obtain rfl := Except.ok.inj h
      cases n with
      | zero => exact absurd hn (Nat.not_lt_zero _)
      | succ n =>
        rw [List.singleton_append, scanPairs, skipWhite_cons hbrace]
        simp [pairs]
    · intro h
      obtain rfl := Except.ok.inj h
      rw [List.singleton_append, scanObject, skipWhite_cons hbrace]
      simp [pairs]
  | field key v rest ihv ihrest => exact readBack_field hstyle ihv ihrest

variable {rest : Text}

/-- **A value written in any style is read back**, whatever follows it. -/
theorem scanOnce_dumpsWith (hstyle : style.Lawful E) (hhook : Keeps hook) (hv : IsJson v) {limit : Nat}
    {t : Text} (h : dumpsWith style v limit [] = .ok t) (hrest : Stops rest) : scanOnce hook limit (t ++ rest) = .ok (v, rest) :=
  readBack hstyle hhook v hv limit t rest h hrest

/-- **A written value is read back**, whatever follows it. -/
theorem scanOnce_dumps (hhook : Keeps hook) (hv : IsJson v) {limit : Nat} {t : Text}
    (h : dumps v limit [] = .ok t) (hrest : Stops rest) : scanOnce hook limit (t ++ rest) = .ok (v, rest) :=
  scanOnce_dumpsWith compact_lawful hhook hv (by rw [dumpsWith_compact]; exact h) hrest

end

/-! ## The written text is ASCII -/

theorem word_ascii {s : String} (h : s.toList.all (fun c => decide (c.toNat < 0x80)) = true) : IsAscii (text s) := by
  intro c hc
  obtain ⟨d, hd, rfl⟩ := List.mem_map.mp hc
  exact of_decide_eq_true (List.all_eq_true.mp h d hd)

theorem digits_ascii (h : ∀ c ∈ t, isDigit c = true) : IsAscii t := by
  intro c hc
  have hdigit := h c hc
  simp only [isDigit, Bool.and_eq_true, decide_eq_true_eq] at hdigit
  omega

theorem literal_ascii (hl : l.WellFormed) : IsAscii l.text := by
  obtain ⟨negative, integer, fraction, exponent⟩ := l
  obtain ⟨⟨-, hall⟩, -, hfraction, hexponent⟩ := hl
  refine .append ?_ (.append (digits_ascii hall) (.append ?_ ?_))
  · cases negative with
    | true => exact .cons (by decide) .nil
    | false => exact .nil
  · cases fraction with
    | none => exact .nil
    | some ds => exact .cons (by decide) (digits_ascii (hfraction ds rfl).2)
  · cases exponent with
    | none => exact .nil
    | some pair =>
      obtain ⟨mark, ds⟩ := pair
      obtain ⟨hmark, -, hds⟩ := hexponent mark ds rfl
      have hmarks : ∀ mark ∈ marks, (mark.all fun c => decide (c.val < 0x80)) = true := by decide
      refine .append ?_ (digits_ascii hds)
      intro c hc
      exact of_decide_eq_true (List.all_eq_true.mp (hmarks mark hmark) c hc)

theorem unicodeEscape_ascii (n : Nat) : IsAscii (unicodeEscape n) := by
  have hhex : ∀ n : Fin 16, (point (hexDigit n.val)).val < 0x80 := by decide
  have hdigit : ∀ n, (point (hexDigit (n % 16))).val < 0x80 := fun n => hhex ⟨n % 16, by omega⟩
  exact .cons (by decide) (.cons (by decide) (.cons (hdigit _) (.cons (hdigit _) (.cons (hdigit _) (.cons (hdigit _) .nil)))))

theorem escapeChar_ascii (c : CodePoint) : IsAscii (escapeChar c) := by
  rcases escapeChar_cases c with ⟨d, hread, -, hesc⟩ | ⟨-, -, -, hlt, hesc⟩ | ⟨-, hesc⟩ | ⟨-, hesc⟩
  · have hall : ∀ pair ∈ unescapes, pair.1.val < 0x80 := @of_decide_eq_true _ (List.decidableBAll _ _) rfl
    obtain ⟨before, after, hsplit, -⟩ := List.lookup_eq_some_iff.mp hread
    rw [hesc]
    exact .cons (by decide) (.cons (hall (d, c) (hsplit ▸ List.mem_append_right _ List.mem_cons_self)) .nil)
  · rw [hesc]
    exact .cons (by omega) .nil
  · rw [hesc]
    exact unicodeEscape_ascii _
  · rw [hesc]
    exact .append (unicodeEscape_ascii _) (unicodeEscape_ascii _)

theorem quote_ascii (s : Text) : IsAscii (quote s) := by
  refine .cons (by decide) (.append ?_ (.cons (by decide) .nil))
  intro c hc
  obtain ⟨d, -, hd⟩ := List.mem_flatMap.mp hc
  exact escapeChar_ascii d c hd

theorem dumps_ascii {k : Kind} {n : Node F k} {sep : Text} (hsep : IsAscii sep) (h : dumps n limit sep = .ok t) : IsAscii t := by
  have hcomma : IsAscii [point ','] := .cons (by decide) .nil
  induction n generalizing limit sep t with
  | null =>
    obtain rfl := Except.ok.inj h
    exact word_ascii (by decide)
  | bool b =>
    cases b with
    | true =>
      obtain rfl := Except.ok.inj h
      exact word_ascii (by decide)
    | false =>
      obtain rfl := Except.ok.inj h
      exact word_ascii (by decide)
  | int i =>
    rw [dumps] at h
    split at h
    · cases h
    · obtain rfl := Except.ok.inj h
      exact literal_ascii (intLiteral_wellFormed i)
  | float x =>
    rw [dumps] at h
    split at h
    · rename_i hx
      obtain rfl := Except.ok.inj h
      exact literal_ascii (FloatText.repr_wellFormed x hx)
    · cases h
  | str s =>
    obtain rfl := Except.ok.inj h
    exact quote_ascii s
  | array items ih =>
    cases limit with
    | zero => cases h
    | succ limit =>
      obtain ⟨s, hs, h⟩ := except_bind_ok h
      obtain rfl := Except.ok.inj h
      exact .cons (by decide) (ih .nil hs)
  | object fs ih =>
    cases limit with
    | zero => cases h
    | succ limit =>
      obtain ⟨s, hs, h⟩ := except_bind_ok h
      obtain rfl := Except.ok.inj h
      exact .cons (by decide) (ih .nil hs)
  | nil =>
    obtain rfl := Except.ok.inj h
    exact .cons (by decide) .nil
  | cons v rest ihv ihrest =>
    obtain ⟨s, hs, h⟩ := except_bind_ok h
    obtain ⟨more, hmore, h⟩ := except_bind_ok h
    obtain rfl := Except.ok.inj h
    exact .append hsep (.append (ihv .nil hs) (ihrest hcomma hmore))
  | empty =>
    obtain rfl := Except.ok.inj h
    exact .cons (by decide) .nil
  | field key v rest ihv ihrest =>
    obtain ⟨s, hs, h⟩ := except_bind_ok h
    obtain ⟨more, hmore, h⟩ := except_bind_ok h
    obtain rfl := Except.ok.inj h
    exact .append hsep (.append (quote_ascii key) (.cons (by decide) (.append (ihv .nil hs) (ihrest hcomma hmore))))

/-! ## Bytes -/

variable {fs : Node F .fields}

/-- A written object begins with a brace and a character that is no zero byte. -/
theorem dumps_object (h : dumps (.object fs) limit [] = .ok t) : ∃ c more, t = point '\x7b' :: c :: more ∧ c.val ≠ 0 := by
  cases limit with
  | zero => cases h
  | succ limit =>
    obtain ⟨s, hs, h⟩ := except_bind_ok h
    obtain rfl := Except.ok.inj h
    cases fs with
    | empty =>
      obtain rfl := Except.ok.inj hs
      exact ⟨_, _, rfl, by decide⟩
    | field key v rest =>
      obtain ⟨_, -, hs⟩ := except_bind_ok hs
      obtain ⟨_, -, hs⟩ := except_bind_ok hs
      obtain rfl := Except.ok.inj hs
      exact ⟨_, _, rfl, by decide⟩

theorem decodeBytes_ascii (h : IsAscii (point '\x7b' :: c :: t)) (hc : c.val ≠ 0) :
    decodeBytes (asciiBytes (point '\x7b' :: c :: t)) = some (point '\x7b' :: c :: t) := by
  have hlt : c.val < 0x80 := h c (List.mem_cons_of_mem _ List.mem_cons_self)
  have hbyte : UInt8.ofNat c.val ≠ 0 := by
    intro hzero
    have hval := congrArg UInt8.toNat hzero
    rw [UInt8.toNat_ofNat'] at hval
    simp at hval
    omega
  have hutf8 := decodeUtf8_ascii h
  have hbrace : (UInt8.ofNat (point '\x7b').val) = 0x7B := rfl
  simp only [asciiBytes, List.map_cons, hbrace] at hutf8 ⊢
  rw [decodeBytes.eq_def]
  cases t with
  | nil => simpa [hbyte] using hutf8
  | cons d t =>
    cases t with
    | nil => simpa using hutf8
    | cons e t => simpa [hbyte] using hutf8

/-- **`loads` gives back what `dumps` wrote.** -/
theorem loads_dumps {hook : List (Text × Value F) → Except E (Value F)} (hhook : Keeps hook)
    (hfs : IsJson (.object fs)) (h : dumps (.object fs) limit [] = .ok t) :
    loads hook limit (asciiBytes t) = .ok (.object fs) := by
  have hascii := dumps_ascii .nil h
  obtain ⟨c, more, rfl, hc⟩ := dumps_object h
  have hread := scanOnce_dumps hhook hfs h .nil
  have hbrace : isWhite (point '\x7b') = false := by decide
  rw [loads, decodeBytes_ascii hascii hc]
  simp only [decode, skipWhite_cons hbrace]
  rw [List.append_nil] at hread
  rw [hread]
  rfl

end MmrTrader.Lib.PyJson
