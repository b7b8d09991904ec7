import MmrTrader.Lib.PyValues

/-!
# What the scanner takes and gives

* `Ends` — what is read takes at least one character and leaves an end of the text.
* `NoLow` — what a string read from a plain text begins with: a low half only if the text begins with its escape.
* `Reads` — a scanner that leaves an end of the text and gives good values from a text without surrogates.
* `decode_isJson` — what `json.loads` makes of a text without surrogates is a JSON value.
-/

namespace MmrTrader.Lib.PyJson

variable {F E : Type}

/-! ## Ends of a text -/

/-- At least one character of the text is taken. -/
def Ends (t rest : Text) : Prop := ∃ c s, t = c :: s ∧ rest <:+ s

variable {s t rest : Text}

theorem Ends.of_suffix (h : Ends s rest) (hs : s <:+ t) : Ends t rest := by
  obtain ⟨c, u, rfl, hrest⟩ := h
  obtain ⟨before, rfl⟩ := hs
  cases before with
  | nil => exact ⟨c, u, rfl, hrest⟩
  | cons d before => exact ⟨d, _, rfl, hrest.trans ((List.suffix_cons c u).trans (List.suffix_append before _))⟩

theorem Ends.suffix (h : Ends t rest) : rest <:+ t := by
  obtain ⟨c, s, rfl, hrest⟩ := h
  exact hrest.trans (List.suffix_cons c s)

theorem Ends.trans (h : Ends t s) (h' : Ends s rest) : Ends t rest := h'.of_suffix h.suffix

theorem ends_cons (c : CodePoint) (t : Text) : Ends (c :: t) t := ⟨c, t, rfl, List.suffix_refl t⟩

theorem skipWhite_suffix (t : Text) : skipWhite t <:+ t := List.dropWhile_suffix _

variable {c : CodePoint}

theorem ends_skipWhite (h : skipWhite t = c :: rest) : Ends t rest :=
  (ends_cons c rest).of_suffix (h ▸ skipWhite_suffix t)

theorem Plain.head (h : Plain (c :: t)) : isHigh c = false ∧ isLow c = false :=
  h c List.mem_cons_self

theorem Plain.of_suffix (h : Plain t) (hs : s <:+ t) : Plain s := fun c hc => h c (hs.subset hc)

/-! ## Strings -/

theorem push_ok {r : Except (LoadError E) (Text × Text)} (h : push c r = .ok (s, rest)) :
    ∃ s', s = c :: s' ∧ r = .ok (s', rest) := by
  obtain ⟨⟨s', rest'⟩, hr, h⟩ := except_bind_ok h
  cases h
  exact ⟨s', rfl, hr⟩

theorem unescape_plain {d : CodePoint} (h : unescape d = some c) : isHigh c = false ∧ isLow c = false := by
  have hall : ∀ p ∈ unescapes, isHigh p.2 = false ∧ isLow p.2 = false :=
    @of_decide_eq_true _ (List.decidableBAll _ _) rfl
  obtain ⟨l₁, l₂, heq, -⟩ := List.lookup_eq_some_iff.mp h
  exact hall (d, c) (by rw [heq]; simp)

theorem not_low_of_high (h : isHigh c = true) : isLow c = false := by
  simp only [isHigh, isLow, Bool.and_eq_true, decide_eq_true_eq, Bool.and_eq_false_iff, decide_eq_false_iff_not] at h ⊢
  omega

theorem joinPair_plain (high low : CodePoint) : isHigh (joinPair high low) = false ∧ isLow (joinPair high low) = false := by
  refine noSurrogate (Or.inr ?_)
  show 0xDFFF < 0x10000 + high.val % 0x400 * 0x400 + low.val % 0x400
  omega

/-- The string begins with a low half only where the text begins with the escape of one. -/
def NoLow (t s : Text) : Prop := ∀ c s', s = c :: s' → isLow c = true → BeginsLow t

theorem whole_cons (hs : Whole s) (hlow : NoLow t s) (h : isHigh c = true → ¬ BeginsLow t) : Whole (c :: s) := by
  cases s with
  | nil => exact List.IsChain.singleton _
  | cons d s' => exact List.isChain_cons_cons.mpr ⟨fun ⟨hhigh, hd⟩ => h hhigh (hlow d s' rfl hd), hs⟩

/-- What a scanner of strings gives. -/
def Scans (t s rest : Text) : Prop := Ends t rest ∧ (Plain t → Whole s ∧ NoLow t s)

variable {t' : Text}

theorem scans_push (ht : Ends t' t) (ih : ∀ {s rest : Text}, scanString (E := E) t = .ok (s, rest) → Scans t s rest)
    (h : push c (scanString (E := E) t) = .ok (s, rest)) (hpair : isHigh c = true → ¬ BeginsLow t)
    (hlow : Plain t' → isLow c = true → BeginsLow t') : Scans t' s rest := by
  obtain ⟨s', rfl, hs'⟩ := push_ok h
  obtain ⟨hends, hplain⟩ := ih hs'
  refine ⟨ht.trans hends, fun hp => ?_⟩
  obtain ⟨hwhole, hnoLow⟩ := hplain (hp.of_suffix ht.suffix)
  refine ⟨whole_cons hwhole hnoLow hpair, ?_⟩
  rintro d s'' heq hd
  cases heq
  exact hlow hp hd

theorem scans_push_plain (hc : isHigh c = false ∧ isLow c = false) (ht : Ends t' t)
    (ih : ∀ {s rest : Text}, scanString (E := E) t = .ok (s, rest) → Scans t s rest)
    (h : push c (scanString (E := E) t) = .ok (s, rest)) : Scans t' s rest :=
  scans_push ht ih h (by simp [hc.1]) (by simp [hc.2])

/-- **A string of a text without surrogates is whole.** -/
theorem scanString_scans (h : scanString (E := E) t = .ok (s, rest)) : Scans t s rest := by
  have hsix {a b c d e f : CodePoint} {t : Text} : Ends (a :: b :: c :: d :: e :: f :: t) t :=
    ⟨a, _, rfl, ⟨[b, c, d, e, f], rfl⟩⟩
  fun_induction scanString t generalizing s rest with
  | case2 after =>
    cases h
    exact ⟨ends_cons _ _, fun _ => ⟨List.IsChain.nil, fun c s' heq => absurd heq (by simp)⟩⟩
  | case6 h1 h2 h3 h4 high _ _ a u l1 l2 l3 l4 after _ low _ _ _ ih =>
    -- both halves of a character
    exact scans_push_plain (joinPair_plain high low) (hsix.trans hsix) ih h
  | case7 h1 h2 h3 h4 high _ hhigh a u l1 l2 l3 l4 after _ low hread hlow _ ih =>
    refine scans_push hsix ih h (fun _ => ?_) fun _ hl => absurd hl (by simp [not_low_of_high hhigh])
    rintro ⟨l1', l2', l3', l4', after', low', heq, hread', hlow'⟩
    cases heq
    rw [hread] at hread'
    cases hread'
    exact hlow hlow'
  | case8 h1 h2 h3 h4 high _ hhigh a u l1 l2 l3 l4 after hno _ ih =>
    refine scans_push hsix ih h (fun _ => ?_) fun _ hl => absurd hl (by simp [not_low_of_high hhigh])
    rintro ⟨l1', l2', l3', l4', after', low', heq, -⟩
    cases heq
    exact hno ⟨rfl, rfl⟩
  | case9 h1 h2 h3 h4 high _ hhigh after hshort _ ih =>
    refine scans_push hsix ih h (fun _ => ?_) fun _ hl => absurd hl (by simp [not_low_of_high hhigh])
    rintro ⟨l1', l2', l3', l4', after', low', heq, -⟩
    exact hshort _ _ _ _ _ _ _ heq
  | case10 h1 h2 h3 h4 after c hread hhigh _ ih =>
    exact scans_push hsix ih h (fun hc => absurd hc hhigh) fun _ hl => ⟨h1, h2, h3, h4, after, c, rfl, hread, hl⟩
  | case13 d after _ c hc _ ih =>
    exact scans_push_plain (unescape_plain hc) ((ends_cons _ _).trans (ends_cons _ _)) ih h
  | case15 c after _ _ _ ih =>
    by_cases hlow : isHigh c = false ∧ isLow c = false
    · exact scans_push_plain hlow (ends_cons _ _) ih h
    · obtain ⟨s', -, hs'⟩ := push_ok h
      exact ⟨(ends_cons _ _).trans (ih hs').1, fun hp => absurd hp.head hlow⟩
  | _ => cases h

/-! ## Numbers -/

theorem matchFraction_suffix (t : Text) : (matchFraction t).2 <:+ t := by
  unfold matchFraction
  split
  · split
    · exact (List.dropWhile_suffix _).trans (List.suffix_cons _ _)
    · exact List.suffix_refl _
  · exact List.suffix_refl _

theorem matchExponent_suffix (t : Text) : (matchExponent t).2 <:+ t := by
  unfold matchExponent
  split
  · split
    · split
      · split
        · split
          · exact (List.dropWhile_suffix _).trans ((List.suffix_cons _ _).trans (List.suffix_cons _ _))
          · exact List.suffix_refl _
        · split
          · exact (List.dropWhile_suffix _).trans (List.suffix_cons _ _)
          · exact List.suffix_refl _
      · exact List.suffix_refl _
    · exact List.suffix_refl _
  · exact List.suffix_refl _

variable {l : Literal}

/-- A number takes its first character and leaves an end of what follows. -/
theorem matchUnsigned_ends {negative : Bool} (h : matchUnsigned negative t = some (l, rest)) : Ends t rest := by
  unfold matchUnsigned at h
  split at h
  · rename_i c s
    split at h
    · cases h
      refine ⟨c, s, rfl, (matchExponent_suffix _).trans ((matchFraction_suffix _).trans ?_)⟩
      split
      · exact List.suffix_refl _
      · exact List.dropWhile_suffix _
    · cases h
  · cases h

theorem matchNumber_ends (h : matchNumber t = some (l, rest)) : Ends t rest := by
  unfold matchNumber at h
  split at h
  · split at h
    · exact (matchUnsigned_ends h).of_suffix (List.suffix_cons _ _)
    · exact matchUnsigned_ends h
  · cases h

/-! ## Values -/

/-- The scanner leaves an end of the text, and what it gives from a text without surrogates is good. -/
def Reads {α : Type} (good : α → Prop) (scan : Text → Except (LoadError E) (α × Text)) : Prop :=
  ∀ t v rest, scan t = .ok (v, rest) → Ends t rest ∧ (Plain t → good v)

def GoodPair (p : Text × Value F) : Prop := Whole p.1 ∧ IsJson p.2

def GoodHook (hook : List (Text × Value F) → Except E (Value F)) : Prop :=
  ∀ ps v, (∀ p ∈ ps, GoodPair p) → hook ps = .ok v → IsJson v

section
variable {value : Text → Except (LoadError E) (Value F × Text)}

variable {hook : List (Text × Value F) → Except E (Value F)}

theorem scanItems_reads (hvalue : Reads (fun v => GoodHook hook → IsJson v) value) (n : Nat) :
    Reads (fun items => GoodHook hook → IsJson items) (scanItems value n) := by
  induction n with
  | zero => exact fun _ _ _ h => nomatch h
  | succ n ih =>
    intro t items rest h
    rw [scanItems] at h
    split at h
    · cases h
    · rename_i c more heq
      have hmore := ends_skipWhite heq
      split at h
      · cases h
        exact ⟨hmore, fun _ _ => ⟨trivial, trivial⟩⟩
      · split at h
        · obtain ⟨⟨v, afterValue⟩, hv, h⟩ := except_bind_ok h
          obtain ⟨⟨others, afterItems⟩, hothers, h⟩ := except_bind_ok h
          cases h
          obtain ⟨hafter, hgood⟩ := hvalue _ _ _ hv
          obtain ⟨hrest, hall⟩ := ih _ _ _ hothers
          have hvalueEnds := hmore.trans (hafter.of_suffix (skipWhite_suffix more))
          refine ⟨hvalueEnds.trans hrest, fun ht hhook => ?_⟩
          obtain ⟨hdv, hsv⟩ := hgood ((ht.of_suffix hmore.suffix).of_suffix (skipWhite_suffix more)) hhook
          obtain ⟨hdo, hso⟩ := hall (ht.of_suffix hvalueEnds.suffix) hhook
          exact ⟨⟨hdv, hdo⟩, hsv, hso⟩
        · cases h

theorem scanArray_reads (hvalue : Reads (fun v => GoodHook hook → IsJson v) value) :
    Reads (fun v => GoodHook hook → IsJson v) (scanArray value) := by
  intro t v rest h
  rw [scanArray] at h
  split at h
  · cases h
  · rename_i c more heq
    split at h
    · cases h
      exact ⟨ends_skipWhite heq, fun _ _ => ⟨trivial, trivial⟩⟩
    · obtain ⟨⟨w, afterValue⟩, hw, h⟩ := except_bind_ok h
      obtain ⟨⟨others, afterItems⟩, hothers, h⟩ := except_bind_ok h
      cases h
      obtain ⟨hafter, hgood⟩ := hvalue _ _ _ hw
      obtain ⟨hrest, hall⟩ := scanItems_reads hvalue _ _ _ _ hothers
      have hsuffix : c :: more <:+ t := heq ▸ skipWhite_suffix t
      refine ⟨(hafter.of_suffix hsuffix).trans hrest, fun ht hhook => ?_⟩
      obtain ⟨hdw, hsw⟩ := hgood (ht.of_suffix hsuffix) hhook
      obtain ⟨hdo, hso⟩ := hall (ht.of_suffix (hafter.suffix.trans hsuffix)) hhook
      exact ⟨⟨hdw, hdo⟩, hsw, hso⟩

theorem scanPair_reads (hvalue : Reads (fun v => GoodHook hook → IsJson v) value) :
    Reads (fun p => GoodHook hook → GoodPair p) (scanPair value) := by
  intro t p rest h
  cases t with
  | nil => cases h
  | cons c t =>
    rw [scanPair] at h
    split at h
    · obtain ⟨⟨key, afterKey⟩, hkey, h⟩ := except_bind_ok h
      obtain ⟨hafterKey, hwhole⟩ := scanString_scans hkey
      dsimp only at h
      split at h
      · cases h
      · rename_i d more heq
        split at h
        · obtain ⟨⟨w, afterValue⟩, hw, h⟩ := except_bind_ok h
          cases h
          obtain ⟨hrest, hgood⟩ := hvalue _ _ _ hw
          have hmore : Ends (c :: t) more := ((ends_cons c t).trans hafterKey).trans (ends_skipWhite heq)
          refine ⟨hmore.trans (hrest.of_suffix (skipWhite_suffix more)), fun ht hhook => ?_⟩
          exact ⟨(hwhole (ht.of_suffix (List.suffix_cons c t))).1,
            hgood ((ht.of_suffix hmore.suffix).of_suffix (skipWhite_suffix more)) hhook⟩
        · cases h
    · cases h

theorem scanPairs_reads (hvalue : Reads (fun v => GoodHook hook → IsJson v) value) (n : Nat) :
    Reads (fun ps => GoodHook hook → ∀ p ∈ ps, GoodPair p) (scanPairs value n) := by
  induction n with
  | zero => exact fun _ _ _ h => nomatch h
  | succ n ih =>
    intro t ps rest h
    rw [scanPairs] at h
    split at h
    · cases h
    · rename_i c more heq
      have hmore := ends_skipWhite heq
      split at h
      · cases h
        exact ⟨hmore, fun _ _ => by simp⟩
      · split at h
        · obtain ⟨⟨p, afterPair⟩, hp, h⟩ := except_bind_ok h
          obtain ⟨⟨others, afterPairs⟩, hothers, h⟩ := except_bind_ok h
          cases h
          obtain ⟨hafter, hgood⟩ := scanPair_reads hvalue _ _ _ hp
          obtain ⟨hrest, hall⟩ := ih _ _ _ hothers
          have hpairEnds := hmore.trans (hafter.of_suffix (skipWhite_suffix more))
          refine ⟨hpairEnds.trans hrest, fun ht hhook => List.forall_mem_cons.mpr ⟨?_, ?_⟩⟩
          · exact hgood ((ht.of_suffix hmore.suffix).of_suffix (skipWhite_suffix more)) hhook
          · exact hall (ht.of_suffix hpairEnds.suffix) hhook
        · cases h

theorem scanObject_reads (hvalue : Reads (fun v => GoodHook hook → IsJson v) value) :
    Reads (fun v => GoodHook hook → IsJson v) (scanObject value hook) := by
  have happly {ps : List (Text × Value F)} {t rest : Text} {v : Value F} (h : applyHook hook ps t = .ok (v, rest)) :
      rest = t ∧ hook ps = .ok v := by
    rw [applyHook] at h
    split at h
    · rename_i w hw
      cases h
      exact ⟨rfl, hw⟩
    · cases h
  intro t v rest h
  rw [scanObject] at h
  split at h
  · cases h
  · rename_i c more heq
    split at h
    · obtain ⟨rfl, hv⟩ := happly h
      exact ⟨ends_skipWhite heq, fun _ hhook => hhook _ _ (by simp) hv⟩
    · obtain ⟨⟨p, afterPair⟩, hp, h⟩ := except_bind_ok h
      obtain ⟨⟨others, afterPairs⟩, hothers, h⟩ := except_bind_ok h
      obtain ⟨rfl, hv⟩ := happly h
      obtain ⟨hafter, hgood⟩ := scanPair_reads hvalue _ _ _ hp
      obtain ⟨hrest, hall⟩ := scanPairs_reads hvalue _ _ _ _ hothers
      have hsuffix : c :: more <:+ t := heq ▸ skipWhite_suffix t
      refine ⟨(hafter.of_suffix hsuffix).trans hrest, fun ht hhook => hhook _ _ (List.forall_mem_cons.mpr ⟨?_, ?_⟩) hv⟩
      · exact hgood (ht.of_suffix hsuffix) hhook
      · exact hall (ht.of_suffix (hafter.suffix.trans hsuffix)) hhook

end

variable {v : Value F}

theorem keyword_reads {word : String} {w : Value F}
    (h : keyword (E := E) word v t = .ok (w, rest)) (hv : IsJson v) : Ends (c :: t) rest ∧ IsJson w := by
  rw [keyword] at h
  split at h
  · cases h
    exact ⟨⟨c, t, rfl, List.drop_suffix _ _⟩, hv⟩
  · cases h

/-- `dict(pairs)` has no key twice, and nothing that the pairs do not have. -/
theorem foldl_setItem_good {ps out : List (Text × Value F)} (hps : ∀ p ∈ ps, GoodPair p) (hout : ∀ p ∈ out, GoodPair p)
    (hnodup : (out.map Prod.fst).Nodup) :
    ((ps.foldl (fun out pair => setItem pair.1 pair.2 out) out).map Prod.fst).Nodup ∧
      ∀ p ∈ ps.foldl (fun out pair => setItem pair.1 pair.2 out) out, GoodPair p := by
  induction ps generalizing out with
  | nil => exact ⟨hnodup, hout⟩
  | cons q ps ih =>
    refine ih (fun p hp => hps p (List.mem_cons_of_mem _ hp)) (fun p hp => ?_) (nodup_setItem hnodup)
    rcases mem_setItem hp with rfl | hp
    · exact hps q List.mem_cons_self
    · exact hout p hp

theorem plainObject_good : GoodHook (plainObject (F := F) (E := E)) := by
  intro ps v hps h
  cases h
  obtain ⟨hnodup, hgood⟩ := foldl_setItem_good hps (List.forall_mem_nil _) (by simp)
  exact isJson_object hnodup hgood

variable [FloatText F]

theorem scanNumber_reads : Reads (E := E) (IsJson (F := F)) scanNumber := by
  intro t v rest h
  rw [scanNumber] at h
  split at h
  · cases h
  · rename_i l after hmatch
    obtain ⟨w, hw, h⟩ := except_bind_ok h
    cases h
    refine ⟨matchNumber_ends hmatch, fun _ => ?_⟩
    rw [readLiteral] at hw
    split at hw
    · cases hw
      exact ⟨trivial, trivial⟩
    · split at hw
      · cases hw
      · cases hw
        exact ⟨trivial, trivial⟩

theorem scanTerm_reads {hook : List (Text × Value F) → Except E (Value F)}
    {object array : Text → Except (LoadError E) (Value F × Text)} (hobject : Reads (fun v => GoodHook hook → IsJson v) object)
    (harray : Reads (fun v => GoodHook hook → IsJson v) array) :
    Reads (fun v => GoodHook hook → IsJson v) (scanTerm object array) := by
  intro t v rest h
  cases t with
  | nil => cases h
  | cons c t =>
    have hopen {scan : Text → Except (LoadError E) (Value F × Text)} (hscan : Reads (fun v => GoodHook hook → IsJson v) scan)
        (h : scan t = .ok (v, rest)) : Ends (c :: t) rest ∧ (Plain (c :: t) → GoodHook hook → IsJson v) := by
      obtain ⟨hends, hgood⟩ := hscan _ _ _ h
      exact ⟨(ends_cons c t).trans hends, fun ht => hgood (ht.of_suffix (List.suffix_cons c t))⟩
    rw [scanTerm] at h
    -- a case for each first character, in the scanner's order
    split at h
    · obtain ⟨⟨s, afterString⟩, hs, h⟩ := except_bind_ok h
      cases h
      obtain ⟨hends, hwhole⟩ := scanString_scans hs
      exact ⟨(ends_cons c t).trans hends, fun ht _ => ⟨trivial, (hwhole (ht.of_suffix (List.suffix_cons c t))).1⟩⟩
    split at h
    · exact hopen hobject h
    split at h
    · exact hopen harray h
    repeat'
      split at h
      · exact (keyword_reads h ⟨trivial, trivial⟩).imp id fun hv _ _ => hv
    exact (scanNumber_reads _ _ _ h).imp id fun hv ht _ => hv ht

theorem scanOnce_reads (hook : List (Text × Value F) → Except E (Value F)) (limit : Nat) :
    Reads (fun v => GoodHook hook → IsJson v) (scanOnce hook limit) := by
  induction limit with
  | zero =>
    have hnone : Reads (E := E) (fun v : Value F => GoodHook hook → IsJson v) fun _ => .error .recursion := fun _ _ _ h => nomatch h
    exact scanTerm_reads hnone hnone
  | succ limit ih => exact scanTerm_reads (scanObject_reads ih) (scanArray_reads ih)

/-- **What `json.loads` makes of a text without surrogates can be written back.** -/
theorem decode_isJson {limit : Nat} (ht : Plain t) (h : decode (E := E) plainObject limit t = .ok v) : IsJson v := by
  rw [decode] at h
  obtain ⟨⟨w, rest⟩, hw, h⟩ := except_bind_ok h
  dsimp only at h
  split at h
  · cases h
    exact (scanOnce_reads plainObject limit _ _ _ hw).2 (ht.of_suffix (skipWhite_suffix t)) plainObject_good
  · cases h

end MmrTrader.Lib.PyJson
