import MmrTrader.Lib.PyJsonLaws

/-!
# Repeated keys

* `Refuses` — a hook that lets an object through only as it stands, and with distinct keys.
* `loads_keepPairs` — what such a hook lets through is what the text says with every pair kept.
-/

namespace MmrTrader.Lib.PyJson

variable {F E : Type}

/-! ## Repeated keys -/

/-- The hook lets an object through only as it stands, and with distinct keys. -/
def Refuses (hook : List (Text × Value F) → Except E (Value F)) : Prop :=
  ∀ ps v, hook ps = .ok v → (ps.map Prod.fst).Nodup ∧ v = .object (fields ps)

def keepPairs (ps : List (Text × Value F)) : Except E (Value F) := .ok (.object (fields ps))

/-- `kept` reads what `value` reads, and that has no key twice. -/
def Agrees (value kept : Text → Except (LoadError E) (Value F × Text)) : Prop :=
  ∀ t v rest, value t = .ok (v, rest) → kept t = .ok (v, rest) ∧ Distinct v

theorem distinct_fields {ps : List (Text × Value F)} (h : ∀ p ∈ ps, Distinct p.2) : Distinct (fields ps) := by
  induction ps with
  | nil => exact trivial
  | cons p ps ih => exact ⟨h p List.mem_cons_self, ih fun q hq => h q (List.mem_cons_of_mem _ hq)⟩

section
variable {value kept : Text → Except (LoadError E) (Value F × Text)}
variable {t rest : Text}
variable {n : Nat}

theorem scanItems_agrees (hvalue : Agrees value kept) {items : Node F .items}
    (h : scanItems value n t = .ok (items, rest)) : scanItems kept n t = .ok (items, rest) ∧ Distinct items := by
  induction n generalizing t items rest with
  | zero => cases h
  | succ n ih =>
    rw [scanItems] at h ⊢
    split at h
    · cases h
    · rename_i c more heq
      simp only
      split at h
      · rename_i hc
        cases h
        exact ⟨if_pos hc, trivial⟩
      · rename_i hc
        rw [if_neg hc]
        split at h
        · rename_i hcomma
          rw [if_pos hcomma]
          obtain ⟨⟨v, afterValue⟩, hv, h⟩ := except_bind_ok h
          obtain ⟨⟨others, afterItems⟩, hothers, h⟩ := except_bind_ok h
          cases h
          obtain ⟨hkept, hdv⟩ := hvalue _ _ _ hv
          obtain ⟨hmore, hdo⟩ := ih hothers
          simp only [hkept, bind, Except.bind, hmore]
          exact ⟨rfl, hdv, hdo⟩
        · cases h

theorem scanArray_agrees (hvalue : Agrees value kept) : Agrees (scanArray value) (scanArray kept) := by
  intro t v rest h
  rw [scanArray] at h ⊢
  split at h
  · cases h
  · rename_i c more heq
    simp only
    split at h
    · rename_i hc
      cases h
      exact ⟨if_pos hc, trivial⟩
    · rename_i hc
      rw [if_neg hc]
      obtain ⟨⟨w, afterValue⟩, hw, h⟩ := except_bind_ok h
      obtain ⟨⟨others, afterItems⟩, hothers, h⟩ := except_bind_ok h
      cases h
      obtain ⟨hkept, hdw⟩ := hvalue _ _ _ hw
      obtain ⟨hmore, hdo⟩ := scanItems_agrees hvalue hothers
      simp only [hkept, bind, Except.bind, hmore]
      exact ⟨rfl, hdw, hdo⟩

theorem scanPair_agrees (hvalue : Agrees value kept) {p : Text × Value F} (h : scanPair value t = .ok (p, rest)) :
    scanPair kept t = .ok (p, rest) ∧ Distinct p.2 := by
  cases t with
  | nil => cases h
  | cons c t =>
    rw [scanPair] at h ⊢
    split at h
    · rename_i hc
      rw [if_pos hc]
      obtain ⟨⟨key, afterKey⟩, hkey, h⟩ := except_bind_ok h
      simp only [hkey, bind, Except.bind]
      dsimp only at h
      split at h
      · cases h
      · split at h
        · rename_i hd
          rw [if_pos hd]
          obtain ⟨⟨w, afterValue⟩, hw, h⟩ := except_bind_ok h
          cases h
          obtain ⟨hkept, hdw⟩ := hvalue _ _ _ hw
          rw [hkept]
          exact ⟨rfl, hdw⟩
        · cases h
    · cases h

variable {ps : List (Text × Value F)}

theorem scanPairs_agrees (hvalue : Agrees value kept)
    (h : scanPairs value n t = .ok (ps, rest)) : scanPairs kept n t = .ok (ps, rest) ∧ ∀ p ∈ ps, Distinct p.2 := by
  induction n generalizing t ps rest with
  | zero => cases h
  | succ n ih =>
    rw [scanPairs] at h ⊢
    split at h
    · cases h
    · rename_i c more heq
      simp only
      split at h
      · rename_i hc
        cases h
        exact ⟨if_pos hc, by simp⟩
      · rename_i hc
        rw [if_neg hc]
        split at h
        · rename_i hcomma
          rw [if_pos hcomma]
          obtain ⟨⟨p, afterPair⟩, hp, h⟩ := except_bind_ok h
          obtain ⟨⟨others, afterPairs⟩, hothers, h⟩ := except_bind_ok h
          cases h
          obtain ⟨hkept, hdp⟩ := scanPair_agrees hvalue hp
          obtain ⟨hmore, hdo⟩ := ih hothers
          simp only [hkept, bind, Except.bind, hmore]
          refine ⟨rfl, fun q hq => ?_⟩
          rcases List.mem_cons.mp hq with rfl | hq
          · exact hdp
          · exact hdo q hq
        · cases h

variable {hook : List (Text × Value F) → Except E (Value F)}

theorem applyHook_agrees (hhook : Refuses hook)
    (hps : ∀ p ∈ ps, Distinct p.2) {v : Value F} (h : applyHook hook ps t = .ok (v, rest)) :
    applyHook (E := E) keepPairs ps t = .ok (v, rest) ∧ Distinct v := by
  rw [applyHook] at h
  cases hw : hook ps with
  | error e => rw [hw] at h; cases h
  | ok w =>
    rw [hw] at h
    obtain ⟨hnodup, rfl⟩ := hhook ps w hw
    cases h
    refine ⟨rfl, ?_, distinct_fields hps⟩
    rwa [keys_fields]

theorem scanObject_agrees (hhook : Refuses hook) (hvalue : Agrees value kept) :
    Agrees (scanObject value hook) (scanObject kept keepPairs) := by
  intro t v rest h
  rw [scanObject] at h ⊢
  split at h
  · cases h
  · rename_i c more heq
    simp only
    split at h
    · rename_i hc
      rw [if_pos hc]
      exact applyHook_agrees hhook (by simp) h
    · rename_i hc
      rw [if_neg hc]
      obtain ⟨⟨p, afterPair⟩, hp, h⟩ := except_bind_ok h
      obtain ⟨⟨others, afterPairs⟩, hothers, h⟩ := except_bind_ok h
      obtain ⟨hkept, hdp⟩ := scanPair_agrees hvalue hp
      obtain ⟨hmore, hdo⟩ := scanPairs_agrees hvalue hothers
      simp only [hkept, bind, Except.bind, hmore]
      refine applyHook_agrees hhook (fun q hq => ?_) h
      rcases List.mem_cons.mp hq with rfl | hq
      · exact hdp
      · exact hdo q hq

end

variable {v : Value F}

theorem keyword_distinct {word : String} {w : Value F} {t rest : Text} (h : keyword (E := E) word v t = .ok (w, rest))
    (hv : Distinct v) : Distinct w := by
  rw [keyword] at h
  split at h
  · cases h
    exact hv
  · cases h

variable [FloatText F]

theorem scanNumber_distinct {t rest : Text} (h : scanNumber (E := E) t = .ok (v, rest)) : Distinct v := by
  rw [scanNumber] at h
  split at h
  · cases h
  · obtain ⟨w, hw, h⟩ := except_bind_ok h
    cases h
    rw [readLiteral] at hw
    split at hw
    · cases hw
      exact trivial
    · split at hw
      · cases hw
      · cases hw
        exact trivial

theorem scanTerm_agrees {object object' array array' : Text → Except (LoadError E) (Value F × Text)} (hobject : Agrees object object')
    (harray : Agrees array array') : Agrees (scanTerm object array) (scanTerm object' array') := by
  intro t v rest h
  cases t with
  | nil => cases h
  | cons c t =>
    rw [scanTerm] at h ⊢
    -- a case for each first character, in the scanner's order
    split at h
    · rename_i hc
      rw [if_pos hc]
      obtain ⟨⟨s, afterString⟩, hs, h⟩ := except_bind_ok h
      cases h
      rw [hs]
      exact ⟨rfl, trivial⟩
    rename_i hc
    rw [if_neg hc]
    split at h
    · rename_i hc
      rw [if_pos hc]
      exact hobject _ _ _ h
    rename_i hc
    rw [if_neg hc]
    split at h
    · rename_i hc
      rw [if_pos hc]
      exact harray _ _ _ h
    rename_i hc
    rw [if_neg hc]
    split at h
    · rename_i hc
      rw [if_pos hc]
      exact ⟨h, keyword_distinct h trivial⟩
    rename_i hc
    rw [if_neg hc]
    split at h
    · rename_i hc
      rw [if_pos hc]
      exact ⟨h, keyword_distinct h trivial⟩
    rename_i hc
    rw [if_neg hc]
    split at h
    · rename_i hc
      rw [if_pos hc]
      exact ⟨h, keyword_distinct h trivial⟩
    rename_i hc
    rw [if_neg hc]
    split at h
    · rename_i hc
      rw [if_pos hc]
      exact ⟨h, keyword_distinct h trivial⟩
    rename_i hc
    rw [if_neg hc]
    split at h
    · rename_i hc
      rw [if_pos hc]
      exact ⟨h, keyword_distinct h trivial⟩
    rename_i hc
    rw [if_neg hc]
    split at h
    · rename_i hc
      rw [if_pos hc]
      exact ⟨h, keyword_distinct h trivial⟩
    rename_i hc
    rw [if_neg hc]
    exact ⟨h, scanNumber_distinct h⟩

variable {hook : List (Text × Value F) → Except E (Value F)}

theorem scanOnce_keepPairs (hhook : Refuses hook) (limit : Nat) : Agrees (scanOnce hook limit) (scanOnce keepPairs limit) := by
  induction limit with
  | zero =>
    have hnone : Agrees (F := F) (fun _ => .error (.recursion (E := E))) (fun _ => .error .recursion) := by
      intro t v rest h
      cases h
    exact scanTerm_agrees hnone hnone
  | succ limit ih => exact scanTerm_agrees (scanObject_agrees hhook ih) (scanArray_agrees ih)

/-- **A hook that refuses repeated keys hides nothing**: the text means the same with every pair kept. -/
theorem loads_keepPairs (hhook : Refuses hook) {limit : Nat} {b : List UInt8}
    (h : loads hook limit b = .ok v) : loads (E := E) keepPairs limit b = .ok v ∧ Distinct v := by
  rw [loads] at h ⊢
  split at h
  · cases h
  · obtain ⟨⟨w, rest⟩, hw, h⟩ := except_bind_ok h
    obtain ⟨hkept, hdw⟩ := scanOnce_keepPairs hhook limit _ _ _ hw
    rw [decode, hkept]
    dsimp only at h
    split at h
    · rename_i hrest
      cases h
      exact ⟨if_pos hrest, hdw⟩
    · cases h

end MmrTrader.Lib.PyJson
