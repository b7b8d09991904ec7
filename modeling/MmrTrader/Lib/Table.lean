import Mathlib.Data.List.Nodup
import Mathlib.Data.List.Forall2

/-!
# Tables with a primary key

A table is a list of rows in insertion order whose keys are pairwise distinct; the field
`nodup` carries the primary-key constraint, so no operation can break it.

* `get?` — `SELECT … WHERE key = k`;
* `insert?` — `INSERT`, refused (`none`) when the key is taken;
* `upsert` — `INSERT … ON CONFLICT DO UPDATE`;
* `Kept` — each row lives on as a row of the later table.

Each operation has one lemma for `get?` and one for membership.  Functions on tables that can raise are
`Except` computations; `bind_ok` takes one apart.
-/

namespace MmrTrader.Lib

/-- Rows of type `R` with primary key `key`. -/
structure Table {R K : Type} (key : R → K) where
  rows : List R
  nodup : (rows.map key).Nodup

namespace Table

variable {R K : Type} {key : R → K}
variable {t : Table key}

theorem ext {u : Table key} (h : t.rows = u.rows) : t = u := by
  obtain ⟨_, _⟩ := t
  obtain ⟨_, _⟩ := u
  cases h
  rfl

instance [DecidableEq R] : DecidableEq (Table key) := fun t u =>
  decidable_of_iff (t.rows = u.rows) ⟨ext, fun h => by rw [h]⟩

def empty : Table key := ⟨[], List.nodup_nil⟩

variable {r s : R}

theorem eq_of_key (t : Table key) (hr : r ∈ t.rows) (hs : s ∈ t.rows) (h : key r = key s) : r = s :=
  List.inj_on_of_nodup_map t.nodup hr hs h

/-- `UPDATE … SET … WHERE p`: the rows that satisfy `p` become `f r`. -/
def updateWhere (t : Table key) (p : R → Bool) (f : R → R) (hf : ∀ r, key (f r) = key r) : Table key :=
  ⟨t.rows.map fun r => if p r then f r else r, by
    have : (fun r => key (if p r then f r else r)) = key := by
      funext r; split <;> simp [hf]
    simpa [List.map_map, Function.comp_def, this] using t.nodup⟩

variable {p : R → Bool} {f : R → R}

theorem mem_updateWhere {hf : ∀ r, key (f r) = key r} :
    s ∈ (t.updateWhere p f hf).rows ↔ ∃ r ∈ t.rows, s = if p r then f r else r := by
  simp only [updateWhere, List.mem_map]
  exact ⟨fun ⟨r, hr, h⟩ => ⟨r, hr, h.symm⟩, fun ⟨r, hr, h⟩ => ⟨r, hr, h.symm⟩⟩

def deleteWhere (t : Table key) (p : R → Bool) : Table key :=
  ⟨t.rows.filter fun r => !p r, (List.filter_sublist.map key).nodup t.nodup⟩

theorem mem_deleteWhere : r ∈ (t.deleteWhere p).rows ↔ r ∈ t.rows ∧ p r = false := by
  simp [deleteWhere]

@[simp] theorem rows_empty : (empty : Table key).rows = [] := rfl

/-- Each row lives on as one that `B` relates it to. -/
def Kept (B : R → R → Prop) (t t' : Table key) : Prop := ∀ r ∈ t.rows, ∃ r' ∈ t'.rows, B r r'

variable {B : R → R → Prop} {t' t'' : Table key}

theorem Kept.refl (hB : ∀ r, B r r) (t : Table key) : t.Kept B t := fun r hr => ⟨r, hr, hB r⟩

theorem Kept.trans (hB : ∀ r s u, B r s → B s u → B r u) (h : t.Kept B t') (h' : t'.Kept B t'') : t.Kept B t'' := by
  intro r hr
  obtain ⟨s, hs, hrs⟩ := h r hr
  obtain ⟨u, hu, hsu⟩ := h' s hs
  exact ⟨u, hu, hB r s u hrs hsu⟩

theorem Kept.of_map (ht : t'.rows = t.rows.map f) (h : ∀ r ∈ t.rows, B r (f r)) : t.Kept B t' := by
  intro r hr
  exact ⟨f r, ht ▸ List.mem_map_of_mem hr, h r hr⟩

variable [DecidableEq K]

/-- The row with key `k`. -/
def get? (t : Table key) (k : K) : Option R := t.rows.find? fun r => key r = k

variable {k : K}

theorem get?_eq_some : t.get? k = some r ↔ r ∈ t.rows ∧ key r = k := by
  constructor
  · intro h
    exact ⟨List.mem_of_find?_eq_some h, by simpa using List.find?_some h⟩
  · rintro ⟨hr, rfl⟩
    obtain ⟨s, hs⟩ := Option.isSome_iff_exists.mp
      (List.find?_isSome (p := fun s => decide (key s = key r)).mpr ⟨r, hr, by simp⟩)
    have hk : key s = key r := by simpa using List.find?_some hs
    rw [get?, hs, t.eq_of_key (List.mem_of_find?_eq_some hs) hr hk]

theorem get?_eq_none : t.get? k = none ↔ ∀ r ∈ t.rows, key r ≠ k := by
  simp [get?, List.find?_eq_none]

@[simp] theorem get?_empty (k : K) : (empty : Table key).get? k = none := rfl

theorem get?_of_mem (h : r ∈ t.rows) : t.get? (key r) = some r :=
  get?_eq_some.mpr ⟨h, rfl⟩

/-- `INSERT`; `none` is the primary-key violation. -/
def insert? (t : Table key) (row : R) : Option (Table key) :=
  if h : t.get? (key row) = none then
    some ⟨t.rows ++ [row], by
      rw [List.map_append, List.nodup_append]
      refine ⟨t.nodup, by simp, ?_⟩
      intro a ha b hb
      obtain ⟨r, hr, rfl⟩ := List.mem_map.mp ha
      simp only [List.map_cons, List.map_nil, List.mem_singleton] at hb
      subst hb
      exact get?_eq_none.mp h r hr⟩
  else none

variable {row : R}

theorem insert?_eq_some (h : t.insert? row = some t') : t.get? (key row) = none ∧ t'.rows = t.rows ++ [row] := by
  unfold insert? at h
  split at h
  · rename_i hn
    cases h
    exact ⟨hn, rfl⟩
  · cases h

theorem insert?_isSome (h : t.get? (key r) = none) :
    ∃ t', t.insert? r = some t' := ⟨_, dif_pos h⟩

theorem mem_insert? (h : t.insert? row = some t') : s ∈ t'.rows ↔ s ∈ t.rows ∨ s = row := by
  rw [(insert?_eq_some h).2]; simp

theorem get?_insert? (h : t.insert? row = some t') (k : K) : t'.get? k = if key row = k then some row else t.get? k := by
  obtain ⟨hn, hr⟩ := insert?_eq_some h
  rw [get?, hr, List.find?_append]
  by_cases hk : key row = k
  · subst hk
    have : t.rows.find? (fun r => decide (key r = key row)) = none := hn
    simp [this]
  · simp [hk, get?]

theorem get?_getD_insert? (t : Table key) (row : R) (k : K) :
    ((t.insert? row).getD t).get? k = if key row = k ∧ t.get? k = none then some row else t.get? k := by
  cases hins : t.insert? row with
  | none =>
    have hne : ¬ (key row = k ∧ t.get? k = none) := by
      rintro ⟨rfl, hnone⟩
      obtain ⟨t', ht'⟩ := insert?_isSome hnone
      cases hins.symm.trans ht'
    rw [if_neg hne]
    rfl
  | some t' =>
    rw [Option.getD_some, get?_insert? hins]
    by_cases hk : key row = k
    · rw [if_pos hk, if_pos ⟨hk, hk ▸ (insert?_eq_some hins).1⟩]
    · rw [if_neg hk, if_neg fun h => hk h.1]

theorem get?_updateWhere (t : Table key) (p : R → Bool) (f : R → R) (hf : ∀ r, key (f r) = key r)
    (k : K) : (t.updateWhere p f hf).get? k = (t.get? k).map fun r => if p r then f r else r := by
  have hcomp : ((fun r => decide (key r = k)) ∘ fun r => if p r then f r else r) =
      fun r => decide (key r = k) := by
    funext r
    simp only [Function.comp]
    split <;> simp [hf]
  rw [get?, updateWhere, List.find?_map, hcomp]
  rfl

/-- `INSERT … ON CONFLICT (key) DO UPDATE`: overwrite the row of the same key, or append. -/
def upsert (t : Table key) (row : R) : Table key :=
  match h : t.insert? row with
  | some t' => t'
  | none => ⟨t.rows.map fun r => if key r = key row then row else r, by
      have : (fun r => key (if key r = key row then row else r)) = key := by
        funext r; split <;> simp_all
      simpa [List.map_map, Function.comp_def, this] using t.nodup⟩

theorem mem_upsert : s ∈ (t.upsert row).rows ↔ s = row ∨ (s ∈ t.rows ∧ key s ≠ key row) := by
  unfold upsert
  split
  · rename_i t' h
    rw [mem_insert? h]
    have hn := get?_eq_none.mp (insert?_eq_some h).1
    constructor
    · rintro (hs | rfl)
      · exact Or.inr ⟨hs, hn s hs⟩
      · exact Or.inl rfl
    · rintro (rfl | ⟨hs, _⟩)
      · exact Or.inr rfl
      · exact Or.inl hs
  · rename_i h
    obtain ⟨r, hr⟩ : ∃ r, t.get? (key row) = some r := by
      cases hg : t.get? (key row) with
      | some r => exact ⟨r, rfl⟩
      | none => obtain ⟨_, h'⟩ := insert?_isSome hg; rw [h'] at h; cases h
    obtain ⟨hmem, hkey⟩ := get?_eq_some.mp hr
    simp only [List.mem_map]
    constructor
    · rintro ⟨x, hx, rfl⟩
      by_cases hk : key x = key row
      · simp [hk]
      · exact Or.inr ⟨by simpa [hk] using hx, by simp [hk]⟩
    · rintro (rfl | ⟨hs, hk⟩)
      · exact ⟨r, hmem, by simp [hkey]⟩
      · exact ⟨s, hs, by simp [hk]⟩

theorem rows_upsert (h : t.get? (key row) = none) : (t.upsert row).rows = t.rows ++ [row] := by
  obtain ⟨t', ht'⟩ := insert?_isSome h
  unfold upsert
  split
  · rename_i u hu
    exact (insert?_eq_some hu).2
  · rename_i hnone
    cases hnone.symm.trans ht'

theorem get?_upsert (t : Table key) (row : R) (k : K) :
    (t.upsert row).get? k = if key row = k then some row else t.get? k := by
  by_cases hk : key row = k
  · rw [if_pos hk]
    exact get?_eq_some.mpr ⟨mem_upsert.mpr (Or.inl rfl), hk⟩
  · rw [if_neg hk]
    cases hg : t.get? k with
    | some r =>
      obtain ⟨hr, hrk⟩ := get?_eq_some.mp hg
      exact get?_eq_some.mpr ⟨mem_upsert.mpr (Or.inr ⟨hr, fun h => hk (h.symm.trans hrk)⟩), hrk⟩
    | none =>
      refine get?_eq_none.mpr fun r hr => ?_
      rcases mem_upsert.mp hr with rfl | ⟨hr, _⟩
      · exact hk
      · exact get?_eq_none.mp hg r hr

end Table

/-! ## Rows before and after -/

variable {S : Type}
variable {l' : List S}

theorem forall₂_right {R : Type} {r : R → S → Prop} {l : List R} (h : List.Forall₂ r l l') {a : R}
    (ha : a ∈ l) : ∃ b ∈ l', r a b := by
  induction h with
  | nil => cases ha
  | cons hab _ ih =>
    rcases List.mem_cons.mp ha with rfl | ha
    · exact ⟨_, List.mem_cons_self, hab⟩
    · obtain ⟨b, hb, hr⟩ := ih ha
      exact ⟨b, List.mem_cons_of_mem _ hb, hr⟩

theorem forall₂_left {R : Type} {r : R → S → Prop} {l : List R} (h : List.Forall₂ r l l') {b : S}
    (hb : b ∈ l') : ∃ a ∈ l, r a b := by
  obtain ⟨a, ha, hr⟩ := forall₂_right h.flip hb
  exact ⟨a, ha, hr⟩

theorem forall₂_imp {R : Type} {r s : R → S → Prop} {l : List R} (h : List.Forall₂ r l l')
    (himp : ∀ a ∈ l, ∀ b, r a b → s a b) : List.Forall₂ s l l' := by
  induction h with
  | nil => exact .nil
  | cons hab _ ih =>
    exact .cons (himp _ List.mem_cons_self _ hab) (ih fun a ha => himp a (List.mem_cons_of_mem _ ha))

/-! ## Transactions that raise -/

variable {ε α β : Type}
variable {b : β} {x : Except ε α} {f : α → Except ε β}

/-- A computation that ended well ended well in each of its parts. -/
theorem bind_ok (h : x >>= f = .ok b) : ∃ a, x = .ok a ∧ f a = .ok b := by
  cases x with
  | error e => cases h
  | ok a => exact ⟨a, rfl, h⟩

theorem map_ok {f : α → β} (h : x.map f = .ok b) : ∃ a, x = .ok a ∧ f a = b := by
  cases x with
  | error e => cases h
  | ok a =>
    cases h
    exact ⟨a, rfl, rfl⟩

variable {e : ε} {a : α}

/-- A check that passed. -/
theorem ite_error_ok {c : Prop} [Decidable c] (h : (if c then .error e else x) = .ok a) : ¬ c ∧ x = .ok a := by
  by_cases hc : c
  · rw [if_pos hc] at h
    cases h
  · rw [if_neg hc] at h
    exact ⟨hc, h⟩

variable {l : List α}

/-- A loop none of whose steps raises. -/
theorem mapM_eq_ok {g : α → β} (h : ∀ a ∈ l, f a = .ok (g a)) : l.mapM f = .ok (l.map g) := by
  induction l with
  | nil => rfl
  | cons a l ih =>
    rw [List.mapM_cons, h a List.mem_cons_self, ih fun b hb => h b (List.mem_cons_of_mem a hb)]
    rfl

/-- A loop one of whose steps raises. -/
theorem mapM_error (ha : a ∈ l) (h : f a = .error e) : ∃ e, l.mapM f = .error e := by
  induction l with
  | nil => cases ha
  | cons b l ih =>
    rw [List.mapM_cons]
    cases hb : f b with
    | error e' => exact ⟨e', rfl⟩
    | ok v =>
      rcases List.mem_cons.mp ha with rfl | ha
      · cases hb.symm.trans h
      · obtain ⟨e', he'⟩ := ih ha
        exact ⟨e', by rw [he']; rfl⟩

theorem mapM_ok_of_forall (h : ∀ a ∈ l, ∃ b, f a = .ok b) : ∃ bs, l.mapM f = .ok bs := by
  induction l with
  | nil => exact ⟨[], rfl⟩
  | cons a l ih =>
    obtain ⟨b, hb⟩ := h a List.mem_cons_self
    obtain ⟨bs, hbs⟩ := ih fun c hc => h c (List.mem_cons_of_mem a hc)
    exact ⟨b :: bs, by rw [List.mapM_cons, hb, hbs]; rfl⟩

/-- A loop that ended well. -/
theorem mapM_ok {bs : List β} (h : l.mapM f = .ok bs) : List.Forall₂ (fun a b => f a = .ok b) l bs := by
  induction l generalizing bs with
  | nil =>
    cases h
    exact .nil
  | cons a l ih =>
    rw [List.mapM_cons] at h
    obtain ⟨b, hb, h⟩ := bind_ok h
    obtain ⟨rest, hrest, h⟩ := bind_ok h
    cases h
    exact .cons hb (ih hrest)

end MmrTrader.Lib
