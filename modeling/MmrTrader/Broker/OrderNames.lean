import MmrTrader.Broker.Apply
import MmrTrader.Lib.Digits

/-!
# Order group names

* `liquidationChildId`, `liquidationChildRoot`, `reprotectOcaGroup` — the names that a close gives its orders
  (`trader/trading/order_correlation.py`).
* `child_id_decodes`, `liquidationChildId_inj`, `child_id_ne_oca_group` — the names are read back, and are distinct.
* `order_group_names` — **the codec is unambiguous, and the entry bracket of a command is an entry exactly when the
  command id does not end like the name of a child.**
-/

namespace MmrTrader.Broker

open Lib

/-! ## The names -/

inductive ChildIdError where
  | unknownKind (kind : String)
  | rootId
  | attempt
  deriving DecidableEq

def liquidationChildId (rootId kind : String) (conid attempt : Int) : Except ChildIdError String :=
  if kind ∉ LIQUIDATION_CHILD_KINDS then .error (.unknownKind kind)
  else if rootId = "" ∨ ':' ∈ rootId.toList then .error .rootId
  else if attempt < 1 then .error .attempt
  else .ok (rootId ++ "-" ++ kind ++ "-" ++ toString conid ++ "-" ++ toString attempt)

def reprotectOcaGroup (rootId : String) (conid attempt : Int) : String :=
  rootId ++ "-reprotect-" ++ toString conid ++ "-" ++ toString attempt

/-- What stands before the match of `_LIQUIDATION_CHILD`, reversed. -/
def beforeChild (group : String) : Option (List Char) := do
  let s ← afterDigits (dropNewline group.toList.reverse)
  let s ← afterText "-" s
  let s ← afterDigits s
  LIQUIDATION_CHILD_KINDS.findSome? fun kind => afterText ("-" ++ kind ++ "-") s

def liquidationChildRoot (orderGroupId : Option String) : Option String :=
  match beforeChild (orderGroupId.getD "") with
  | some (c :: rest) => some (String.ofList (c :: rest).reverse)
  | _ => none

def entryGroup (commandId : String) : String := "og-" ++ commandId

/-- `CommandRequest.__post_init__` accepts the id. -/
def commandIdAccepted (commandId : String) : Bool := !commandId.toList.contains ':'

/-! ## Reading digits from the end -/

def Digits (d : List Char) : Prop := d ≠ [] ∧ ∀ c ∈ d, isDecimal c = true

variable {c : Char}

theorem isDecimal_of_isDigit (h : c.isDigit = true) : isDecimal c = true := by
  unfold isDecimal DECIMAL_ZEROS
  rw [List.any_cons, Bool.or_eq_true, Bool.and_eq_true, decide_eq_true_eq, decide_eq_true_eq]
  have hrange := Char.isDigit_iff_toNat.mp h
  exact .inl ⟨hrange.1, Nat.lt_succ_of_le hrange.2⟩

theorem digits_toString (n : Nat) : Digits (toString n).toList := by
  refine ⟨?_, fun c hc => isDecimal_of_isDigit (isDigit_of_mem_repr hc)⟩
  change (Nat.repr n).toList ≠ []
  rw [Nat.toList_repr]
  exact Nat.toDigits_ne_nil

variable {d : List Char}

theorem Digits.reverse (h : Digits d) : Digits d.reverse :=
  ⟨fun hn => h.1 (List.reverse_eq_nil_iff.mp hn), fun c hc => h.2 c (List.mem_reverse.mp hc)⟩

theorem afterText_append (t : String) (s : List Char) : afterText t (t.toList.reverse ++ s) = some s := by
  unfold afterText
  generalize t.toList.reverse = l
  induction l with
  | nil => rfl
  | cons c l ih => simp [List.isPrefixOf?, ih]

variable {s r : List Char}

theorem afterText_eq_some {t : String} (h : afterText t s = some r) : s = t.toList.reverse ++ r := by
  unfold afterText at h
  generalize t.toList.reverse = l at h
  induction l generalizing s with
  | nil => exact Option.some.inj h
  | cons c l ih =>
    cases s with
    | nil => cases h
    | cons x s =>
      rw [List.isPrefixOf?] at h
      split at h
      · rename_i hc
        rw [List.cons_append, ← ih h, eq_of_beq hc]
      · cases h

/-- Digits are read up to the first character that is none. -/
theorem afterDigits_append (hd : Digits d) (hc : isDecimal c = false) (s : List Char) :
    afterDigits (d ++ c :: s) = some (c :: s) := by
  obtain ⟨hne, hall⟩ := hd
  cases d with
  | nil => exact absurd rfl hne
  | cons x d =>
    rw [List.cons_append, afterDigits, if_pos (hall x List.mem_cons_self),
      List.dropWhile_append_of_pos fun y hy => hall y (List.mem_cons_of_mem _ hy)]
    simp [hc]

theorem afterDigits_eq_some (h : afterDigits s = some r) : ∃ d, Digits d ∧ s = d ++ r := by
  cases s with
  | nil => cases h
  | cons c s =>
    rw [afterDigits] at h
    split at h
    · rename_i hc
      obtain rfl := Option.some.inj h
      refine ⟨c :: s.takeWhile isDecimal, ⟨List.cons_ne_nil _ _, fun x hx => ?_⟩, ?_⟩
      · rcases List.mem_cons.mp hx with rfl | hx
        · exact hc
        · exact List.all_eq_true.mp List.all_takeWhile x hx
      · rw [List.cons_append, List.takeWhile_append_dropWhile]
    · cases h

theorem dropNewline_digits (hd : Digits d) (s : List Char) : dropNewline (d ++ s) = d ++ s := by
  obtain ⟨hne, hall⟩ := hd
  cases d with
  | nil => exact absurd rfl hne
  | cons x d =>
    have hx := hall x List.mem_cons_self
    unfold dropNewline
    split
    · rename_i heq
      obtain ⟨rfl, -⟩ := List.cons.inj heq
      exact absurd hx (by decide)
    · rfl

theorem dropNewline_cases (s : List Char) : s = dropNewline s ∨ s = '\n' :: dropNewline s := by
  unfold dropNewline
  split
  · exact .inr rfl
  · exact .inl rfl

/-! ## What names a child -/

/-- The end of a text, with or without a newline. -/
def EndsLine (e : List Char) : Prop := e = [] ∨ e = ['\n']

/-- The text ends like the name of a child: with a kind and two numbers, or like a reduce of the former service. -/
def NamesChild (group : String) : Prop :=
  ∃ e, EndsLine e ∧
    ((∃ stem a b, ∃ kind ∈ LIQUIDATION_CHILD_KINDS, Digits a ∧ Digits b ∧
        group.toList = stem ++ ("-" ++ kind ++ "-").toList ++ a ++ '-' :: b ++ e) ∨
      ∃ stem a, Digits a ∧ group.toList = stem ++ "-liquidation-reduce-".toList ++ a ++ e)

def numbersOff (s : List Char) : Option (List Char) :=
  (afterDigits s).bind fun s => (afterText "-" s).bind fun s => afterDigits s

theorem matchLiquidationChild_eq (group : String) : matchLiquidationChild group =
    (numbersOff (dropNewline group.toList.reverse)).bind fun s =>
      LIQUIDATION_CHILD_KINDS.find? fun kind => (afterText ("-" ++ kind ++ "-") s).isSome := by
  unfold matchLiquidationChild numbersOff
  simp only [Option.bind_eq_bind, Option.bind_assoc]

theorem beforeChild_eq (group : String) : beforeChild group =
    (numbersOff (dropNewline group.toList.reverse)).bind fun s =>
      LIQUIDATION_CHILD_KINDS.findSome? fun kind => afterText ("-" ++ kind ++ "-") s := by
  unfold beforeChild numbersOff
  simp only [Option.bind_eq_bind, Option.bind_assoc]

variable {a b : List Char}

theorem numbersOff_append (ha : Digits a) (hb : Digits b) (s : List Char) :
    numbersOff (b ++ '-' :: (a ++ '-' :: s)) = some ('-' :: s) := by
  unfold numbersOff
  rw [afterDigits_append hb (by decide), Option.bind_some]
  have hdash : afterText "-" ('-' :: (a ++ '-' :: s)) = some (a ++ '-' :: s) := afterText_append "-" _
  rw [hdash, Option.bind_some, afterDigits_append ha (by decide)]

theorem numbersOff_eq_some (h : numbersOff s = some r) : ∃ a b, Digits a ∧ Digits b ∧ s = b ++ '-' :: (a ++ r) := by
  unfold numbersOff at h
  obtain ⟨t, ht, hdash⟩ := Option.bind_eq_some_iff.mp h
  obtain ⟨u, hu, hlast⟩ := Option.bind_eq_some_iff.mp hdash
  obtain ⟨b, hb, rfl⟩ := afterDigits_eq_some ht
  obtain ⟨a, ha, rfl⟩ := afterDigits_eq_some hlast
  rw [afterText_eq_some hu]
  exact ⟨a, b, ha, hb, rfl⟩

theorem kind_reverse (kind : String) : ("-" ++ kind ++ "-").toList.reverse = '-' :: (kind.toList.reverse ++ ['-']) := by
  have hdash : ("-" : String).toList = ['-'] := rfl
  simp [String.toList_append, hdash]

variable {kind : String}

theorem kind_found (hk : kind ∈ LIQUIDATION_CHILD_KINDS) (r : List Char) :
    (LIQUIDATION_CHILD_KINDS.find? fun k => (afterText ("-" ++ k ++ "-") (("-" ++ kind ++ "-").toList.reverse ++ r)).isSome) =
        some kind ∧
      (LIQUIDATION_CHILD_KINDS.findSome? fun k => afterText ("-" ++ k ++ "-") (("-" ++ kind ++ "-").toList.reverse ++ r)) =
        some r := by
  simp only [LIQUIDATION_CHILD_KINDS, List.mem_cons, List.not_mem_nil, or_false] at hk
  unfold afterText
  simp only [kind_reverse]
  rcases hk with rfl | rfl | rfl | rfl <;> exact ⟨rfl, rfl⟩

variable {e : List Char}

theorem dropNewline_endsLine (he : EndsLine e) (hd : Digits d) (s : List Char) :
    dropNewline (e.reverse ++ (d ++ s)) = d ++ s := by
  rcases he with rfl | rfl
  · exact dropNewline_digits hd s
  · rfl

theorem endsLine_of_dropNewline (group : String) : ∃ e, EndsLine e ∧
    group.toList = (dropNewline group.toList.reverse).reverse ++ e := by
  rcases dropNewline_cases group.toList.reverse with h | h
  · exact ⟨[], .inl rfl, by rw [← h, List.reverse_reverse, List.append_nil]⟩
  · refine ⟨['\n'], .inr rfl, ?_⟩
    rw [← List.reverse_cons, ← h, List.reverse_reverse]

/-- A name that ends with a kind and two numbers, reversed and without its newline. -/
theorem child_reversed {stem : List Char} (he : EndsLine e) (ha : Digits a) (hb : Digits b) :
    numbersOff (dropNewline (stem ++ ("-" ++ kind ++ "-").toList ++ a ++ '-' :: b ++ e).reverse) =
      some (("-" ++ kind ++ "-").toList.reverse ++ stem.reverse) := by
  have hreverse : (stem ++ ("-" ++ kind ++ "-").toList ++ a ++ '-' :: b ++ e).reverse =
      e.reverse ++ (b.reverse ++ '-' :: (a.reverse ++ '-' :: (kind.toList.reverse ++ '-' :: stem.reverse))) := by
    simp [String.toList_append]
  rw [hreverse, dropNewline_endsLine he hb.reverse, numbersOff_append ha.reverse hb.reverse, kind_reverse]
  simp

/-- **A group is taken for a child of a close exactly when it ends like the name of one.** -/
theorem liquidationChildKind_eq_none (group : String) : liquidationChildKind (some group) = none ↔ ¬ NamesChild group := by
  have hkind : (∃ kind, matchLiquidationChild group = some kind) ↔ ∃ e, EndsLine e ∧
      ∃ stem a b, ∃ kind ∈ LIQUIDATION_CHILD_KINDS, Digits a ∧ Digits b ∧
        group.toList = stem ++ ("-" ++ kind ++ "-").toList ++ a ++ '-' :: b ++ e := by
    constructor
    · rintro ⟨kind, h⟩
      rw [matchLiquidationChild_eq] at h
      obtain ⟨s, hs, hfind⟩ := Option.bind_eq_some_iff.mp h
      obtain ⟨a, b, ha, hb, hlist⟩ := numbersOff_eq_some hs
      have hread : (afterText ("-" ++ kind ++ "-") s).isSome = true := by simpa using List.find?_some hfind
      obtain ⟨r, hr⟩ := Option.isSome_iff_exists.mp hread
      obtain rfl := afterText_eq_some hr
      obtain ⟨e, he, hgroup⟩ := endsLine_of_dropNewline group
      refine ⟨e, he, r.reverse, a.reverse, b.reverse, kind, List.mem_of_find?_eq_some hfind, ha.reverse, hb.reverse, ?_⟩
      rw [hgroup, hlist]
      simp [String.toList_append]
    · rintro ⟨e, he, stem, a, b, kind, hk, ha, hb, hgroup⟩
      refine ⟨kind, ?_⟩
      rw [matchLiquidationChild_eq, hgroup, child_reversed he ha hb, Option.bind_some]
      exact (kind_found hk _).1
  have hlegacy : matchesLegacyReduce group = true ↔ ∃ e, EndsLine e ∧ ∃ stem a, Digits a ∧
      group.toList = stem ++ "-liquidation-reduce-".toList ++ a ++ e := by
    unfold matchesLegacyReduce
    rw [Option.isSome_iff_exists]
    constructor
    · rintro ⟨r, h⟩
      obtain ⟨s, hs, hr⟩ := Option.bind_eq_some_iff.mp h
      obtain ⟨a, ha, hlist⟩ := afterDigits_eq_some hs
      obtain rfl := afterText_eq_some hr
      obtain ⟨e, he, hgroup⟩ := endsLine_of_dropNewline group
      refine ⟨e, he, r.reverse, a.reverse, ha.reverse, ?_⟩
      rw [hgroup, hlist]
      simp
    · rintro ⟨e, he, stem, a, ha, hgroup⟩
      have hreverse : group.toList.reverse = e.reverse ++ (a.reverse ++ ("-liquidation-reduce-".toList.reverse ++ stem.reverse)) := by
        rw [hgroup]
        simp
      have hdash : "-liquidation-reduce-".toList.reverse = '-' :: "-liquidation-reduce".toList.reverse := rfl
      refine ⟨stem.reverse, Option.bind_eq_some_iff.mpr ⟨"-liquidation-reduce-".toList.reverse ++ stem.reverse, ?_,
        afterText_append _ _⟩⟩
      rw [hreverse, dropNewline_endsLine he ha.reverse, hdash, List.cons_append, afterDigits_append ha.reverse (by decide)]
  have hnames : NamesChild group ↔ (∃ kind, matchLiquidationChild group = some kind) ∨ matchesLegacyReduce group = true := by
    rw [hkind, hlegacy, ← exists_or]
    exact exists_congr fun e => and_or_left
  rw [hnames]
  unfold liquidationChildKind
  dsimp only [Option.getD_some]
  cases hmatch : matchLiquidationChild group with
  | some kind => simp
  | none => cases hred : matchesLegacyReduce group <;> simp

/-! ## The codec -/

theorem toString_natCast (n : Nat) : toString (n : Int) = toString n := by
  rw [Int.toString_eq_repr, Int.repr_eq_if, if_pos (Int.natCast_nonneg n), Int.toNat_natCast]
  rfl

structure RootId (rootId : String) : Prop where
  nonempty : rootId ≠ ""
  colonFree : ':' ∉ rootId.toList

def childId (rootId kind : String) (conid attempt : Nat) : String :=
  rootId ++ "-" ++ kind ++ "-" ++ toString conid ++ "-" ++ toString attempt

variable {rootId : String}
variable {attempt : Nat}

theorem liquidationChildId_ok (hroot : RootId rootId) (hk : kind ∈ LIQUIDATION_CHILD_KINDS)
    (conid : Nat) (hattempt : 1 ≤ attempt) :
    liquidationChildId rootId kind conid attempt = .ok (childId rootId kind conid attempt) := by
  unfold liquidationChildId childId
  rw [if_neg (not_not.mpr hk), if_neg (not_or.mpr ⟨hroot.nonempty, hroot.colonFree⟩), if_neg (by omega), toString_natCast,
    toString_natCast]

theorem childId_toList (rootId kind : String) (conid attempt : Nat) : (childId rootId kind conid attempt).toList =
    rootId.toList ++ ("-" ++ kind ++ "-").toList ++ (toString conid).toList ++ '-' :: (toString attempt).toList ++ [] := by
  have hdash : ("-" : String).toList = ['-'] := rfl
  simp [childId, String.toList_append, hdash]

/-- **The root and the kind are read back from the id.** -/
theorem child_id_decodes (hroot : rootId ≠ "") (hk : kind ∈ LIQUIDATION_CHILD_KINDS)
    (conid attempt : Nat) : liquidationChildRoot (some (childId rootId kind conid attempt)) = some rootId ∧
      liquidationChildKind (some (childId rootId kind conid attempt)) = some kind := by
  have hnumbers : numbersOff (dropNewline (childId rootId kind conid attempt).toList.reverse) =
      some (("-" ++ kind ++ "-").toList.reverse ++ rootId.toList.reverse) := by
    rw [childId_toList]
    exact child_reversed (.inl rfl) (digits_toString conid) (digits_toString attempt)
  constructor
  · have hbefore : beforeChild (childId rootId kind conid attempt) = some rootId.toList.reverse := by
      rw [beforeChild_eq, hnumbers, Option.bind_some]
      exact (kind_found hk _).2
    unfold liquidationChildRoot
    rw [Option.getD_some, hbefore]
    cases hlist : rootId.toList.reverse with
    | nil => exact absurd (String.toList_eq_nil_iff.mp (List.reverse_eq_nil_iff.mp hlist)) hroot
    | cons c rest =>
      dsimp only
      rw [← hlist, List.reverse_reverse, String.ofList_toList]
  · have hmatch : matchLiquidationChild (childId rootId kind conid attempt) = some kind := by
      rw [matchLiquidationChild_eq, hnumbers, Option.bind_some]
      exact (kind_found hk _).1
    unfold liquidationChildKind
    dsimp only [Option.getD_some]
    rw [hmatch]

/-- **Different children have different ids.** -/
theorem childId_inj {rootId' kind' : String} {conid conid' attempt' : Nat} (hroot : rootId ≠ "")
    (hroot' : rootId' ≠ "") (hk : kind ∈ LIQUIDATION_CHILD_KINDS) (hk' : kind' ∈ LIQUIDATION_CHILD_KINDS)
    (h : childId rootId kind conid attempt = childId rootId' kind' conid' attempt') :
    rootId = rootId' ∧ kind = kind' ∧ conid = conid' ∧ attempt = attempt' := by
  obtain ⟨hr, hkind⟩ := child_id_decodes hroot hk conid attempt
  obtain ⟨hr', hkind'⟩ := child_id_decodes hroot' hk' conid' attempt'
  rw [h, hr'] at hr
  rw [h, hkind'] at hkind
  obtain rfl := Option.some.inj hr
  obtain rfl := Option.some.inj hkind
  have hchars := congrArg String.toList h
  rw [childId_toList, childId_toList, List.append_nil, List.append_nil] at hchars
  simp only [List.append_assoc] at hchars
  replace hchars := List.append_cancel_left (List.append_cancel_left hchars)
  have hdigits : ∀ n : Nat, '-' ∉ (toString n).toList := fun n hn =>
    absurd ((digits_toString n).2 _ hn) (by decide)
  obtain ⟨hconid, hattempt⟩ := append_cons_inj (hdigits _) (hdigits _) hchars
  exact ⟨rfl, rfl, toString_nat_inj hconid, toString_nat_inj hattempt⟩

/-- **No child has the name of a re-protect group.** -/
theorem childId_ne_oca_group (hroot : rootId ≠ "") (hk : kind ∈ LIQUIDATION_CHILD_KINDS)
    (conid attempt : Nat) (rootId' : String) (conid' attempt' : Nat) :
    childId rootId kind conid attempt ≠ reprotectOcaGroup rootId' conid' attempt' := by
  intro h
  have hmatch : matchLiquidationChild (childId rootId kind conid attempt) = some kind := by
    have hkind := (child_id_decodes hroot hk conid attempt).2
    rw [matchLiquidationChild_eq, childId_toList, child_reversed (.inl rfl) (digits_toString conid) (digits_toString attempt),
      Option.bind_some]
    exact (kind_found hk _).1
  have hdash : ("-" : String).toList = ['-'] := rfl
  have hreverse : (reprotectOcaGroup rootId' conid' attempt').toList.reverse =
      (toString attempt').toList.reverse ++ '-' :: ((toString conid').toList.reverse ++
        '-' :: ("reprotect".toList.reverse ++ '-' :: rootId'.toList.reverse)) := by
    have htext : ("-reprotect-" : String).toList = '-' :: ("reprotect".toList ++ ['-']) := rfl
    simp only [reprotectOcaGroup, toString_natCast, String.toList_append, hdash, htext, List.reverse_append, List.reverse_cons,
      List.append_assoc, List.cons_append, List.nil_append]
  rw [h, matchLiquidationChild_eq, hreverse, dropNewline_digits (digits_toString attempt').reverse,
    numbersOff_append (digits_toString conid').reverse (digits_toString attempt').reverse, Option.bind_some] at hmatch
  have hnone : (LIQUIDATION_CHILD_KINDS.find? fun k => (afterText ("-" ++ k ++ "-")
      ('-' :: ("reprotect".toList.reverse ++ '-' :: rootId'.toList.reverse))).isSome) = none := by
    unfold afterText
    simp only [kind_reverse]
    rfl
  rw [hnone] at hmatch
  cases hmatch

theorem decodeOrderRef_encode {group : String} (h : group ≠ "") : decodeOrderRef (some (encodeOrderRef group)) = some group := by
  have hmmr : ORDER_REF_PREFIX.toList = ['m', 'm', 'r', ':'] := rfl
  unfold decodeOrderRef encodeOrderRef
  dsimp only
  rw [String.toList_append, hmmr]
  cases hlist : group.toList with
  | nil => exact absurd (String.toList_eq_nil_iff.mp hlist) h
  | cons c rest =>
    change some (String.ofList (c :: rest)) = _
    rw [← hlist, String.ofList_toList]

/-! ## Entry brackets -/

/-- The entry bracket of a command is not taken for a child of a close, and its parentless order is the entry. -/
def EntryBracket (commandId : String) : Prop :=
  liquidationChildKind (some (entryGroup commandId)) = none ∧
    ∀ orderType clientOrderId, classifyLeg orderType 0 clientOrderId (some (entryGroup commandId)) = "entry"

theorem entryBracket_iff (commandId : String) : EntryBracket commandId ↔ ¬ NamesChild (entryGroup commandId) := by
  rw [← liquidationChildKind_eq_none]
  refine ⟨And.left, fun h => ⟨h, fun orderType clientOrderId => ?_⟩⟩
  unfold classifyLeg
  rw [h]
  rfl

/-- **Order group names**: children of a close are named without ambiguity, and the entry bracket of a command is an
entry exactly when its group does not end like the name of a child. -/
theorem order_group_names (commandId : String) :
    (∀ rootId kind, ∀ conid attempt : Nat, RootId rootId → kind ∈ LIQUIDATION_CHILD_KINDS → 1 ≤ attempt →
      ∃ id, liquidationChildId rootId kind conid attempt = .ok id ∧ liquidationChildRoot (some id) = some rootId ∧
        liquidationChildKind (some id) = some kind ∧ decodeOrderRef (some (encodeOrderRef id)) = some id ∧
        (∀ rootId', ∀ conid' attempt' : Nat, id ≠ reprotectOcaGroup rootId' conid' attempt') ∧
        ∀ rootId' kind', ∀ conid' attempt' : Nat, RootId rootId' → kind' ∈ LIQUIDATION_CHILD_KINDS → 1 ≤ attempt' →
          liquidationChildId rootId' kind' conid' attempt' = .ok id →
          rootId = rootId' ∧ kind = kind' ∧ conid = conid' ∧ attempt = attempt') ∧
    (EntryBracket commandId ↔ ¬ NamesChild (entryGroup commandId)) := by
  refine ⟨fun rootId kind conid attempt hroot hk hattempt => ?_, entryBracket_iff commandId⟩
  refine ⟨childId rootId kind conid attempt, liquidationChildId_ok hroot hk conid hattempt,
    (child_id_decodes hroot.nonempty hk conid attempt).1, (child_id_decodes hroot.nonempty hk conid attempt).2,
    decodeOrderRef_encode fun hempty => ?_, childId_ne_oca_group hroot.nonempty hk conid attempt, ?_⟩
  · have hchars := congrArg String.toList hempty
    rw [childId_toList] at hchars
    simp at hchars
  · intro rootId' kind' conid' attempt' hroot' hk' hattempt' heq
    rw [liquidationChildId_ok hroot' hk' conid' hattempt'] at heq
    exact childId_inj hroot.nonempty hroot'.nonempty hk hk' (Except.ok.inj heq).symm

end MmrTrader.Broker
