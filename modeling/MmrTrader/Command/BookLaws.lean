import Mathlib.Algebra.Order.Ring.Rat
import Mathlib.Algebra.BigOperators.Group.List.Basic
import Mathlib.Algebra.Order.BigOperators.Group.List
import Mathlib.Tactic.Linarith
import Mathlib.Tactic.Ring
import MmrTrader.Command.Coordinator

/-!
# What happens to a book

* `Book.ReductionsFit` — what the reducing orders may still fill is at most the position they reduce.
* `Book.NoReversal` — and no fills of them take the position through zero.
* `send_fits` — a sent order keeps it exactly when there is room for it.
-/

namespace MmrTrader.Command

open MmrTrader.Lib MmrTrader.Dispatch
open MmrTrader.Saga (Side)

/-- The position that orders of one side reduce. -/
def Book.reducible (b : Book) (conid : Int) (side : Side) : ℚ := max 0 (-(signed side (b.held conid)))

structure Book.ReductionsFit (b : Book) (conid : Int) : Prop where
  fits : ∀ side, b.reductions conid side ≤ b.reducible conid side

def Book.fills (b : Book) (fs : List (Nat × ℚ)) : Book := fs.foldl (fun b f => b.fill f.1 f.2) b

/-- The reducing orders fit, and however they fill the position keeps its sign. -/
structure Book.NoReversal (b : Book) (conid : Int) : Prop where
  fit : b.ReductionsFit conid
  long : ∀ fs, 0 ≤ b.held conid → 0 ≤ (b.fills fs).held conid
  short : ∀ fs, b.held conid ≤ 0 → (b.fills fs).held conid ≤ 0

def Book.OnlyReduces (b : Book) (conid : Int) : Prop := ∀ o ∈ b.orders, o.conid = conid → o.direction = .REDUCING

/-- There is room for an order beside the reductions already sent. -/
def Book.Room (b : Book) (o : SentOrder) : Prop :=
  b.reductions o.conid o.side + o.unfilled ≤ b.reducible o.conid o.side

theorem SentOrder.unfilled_nonneg (o : SentOrder) : 0 ≤ o.unfilled := by
  unfold SentOrder.unfilled
  split
  · exact le_refl 0
  · exact le_max_left _ _

theorem SentOrder.share_nonneg (conid : Int) (side : Side) (o : SentOrder) : 0 ≤ o.share conid side := by
  unfold SentOrder.share
  split
  · exact o.unfilled_nonneg
  · exact le_refl 0

theorem held_move (b : Book) (conid : Int) (delta : ℚ) (c : Int) :
    (b.move conid delta).held c = if conid = c then b.held conid + delta else b.held c := by
  unfold Book.move Book.held
  rw [Table.get?_upsert]
  by_cases h : conid = c
  · simp [h]
  · simp [h]

variable {o : SentOrder}
variable {k : Nat}

theorem sum_set (f : SentOrder → ℚ) {orders : List SentOrder} (hk : orders[k]? = some o)
    (o' : SentOrder) : ((orders.set k o').map f).sum = (orders.map f).sum - f o + f o' := by
  induction orders generalizing k with
  | nil => cases hk
  | cons x xs ih =>
    cases k with
    | zero =>
      cases hk
      rw [List.set_cons_zero, List.map_cons, List.sum_cons, List.map_cons, List.sum_cons]
      ring
    | succ k =>
      rw [List.getElem?_cons_succ] at hk
      rw [List.set_cons_succ, List.map_cons, List.sum_cons, ih hk, List.map_cons, List.sum_cons]
      ring

theorem sum_modify_le (f : SentOrder → ℚ) (g : SentOrder → SentOrder) (hg : ∀ o, f (g o) ≤ f o) (orders : List SentOrder)
    (k : Nat) : ((orders.modify k g).map f).sum ≤ (orders.map f).sum := by
  induction orders generalizing k with
  | nil => simp
  | cons x xs ih =>
    cases k with
    | zero =>
      have hx := hg x
      simpa using hx
    | succ k =>
      have hxs := ih k
      simpa using hxs

/-! ## Sides -/

theorem signed_add (side : Side) (p q : ℚ) : signed side (p + q) = signed side p + signed side q := by
  cases side
  · rfl
  · exact neg_add p q

theorem signed_signed (side : Side) (q : ℚ) : signed side (signed side q) = q := by
  cases side
  · rfl
  · exact neg_neg q

theorem signed_other {side other : Side} (h : other ≠ side) (q : ℚ) : signed other q = -signed side q := by
  cases side <;> cases other
  · exact absurd rfl h
  · rfl
  · exact (neg_neg q).symm
  · exact absurd rfl h

/-! ## A fill -/

theorem fill_cases (b : Book) (k : Nat) (q : ℚ) :
    b.fill k q = b ∨ ∃ o, b.orders[k]? = some o ∧ 0 < q ∧ q ≤ o.unfilled ∧
      b.fill k q =
        { b.move o.conid (signed o.side q) with orders := b.orders.set k { o with filled := o.filled + q } } := by
  unfold Book.fill
  split
  · rename_i o ho
    split
    · rename_i hc
      exact Or.inr ⟨o, ho, hc.2.1, hc.2.2, rfl⟩
    · exact Or.inl rfl
  · exact Or.inl rfl

theorem unfilled_fill {q : ℚ} (hq : 0 < q) (hle : q ≤ o.unfilled) :
    ({ o with filled := o.filled + q } : SentOrder).unfilled = o.unfilled - q := by
  unfold SentOrder.unfilled at hle ⊢
  dsimp only at hle ⊢
  by_cases hd : o.dead = true
  · rw [if_pos hd] at hle
    linarith
  · rw [if_neg hd] at hle ⊢
    rw [if_neg hd]
    have hpos : 0 < o.quantity - o.filled := by
      by_contra hn
      rw [max_eq_left (not_lt.mp hn)] at hle
      linarith
    rw [max_eq_right hpos.le] at hle ⊢
    rw [max_eq_right (by linarith)]
    ring

variable {b : Book}

theorem share_le_reductions (hk : b.orders[k]? = some o) (conid : Int) (side : Side) :
    o.share conid side ≤ b.reductions conid side := by
  refine List.single_le_sum ?_ _ (List.mem_map_of_mem (List.mem_of_getElem? hk))
  intro q hq
  obtain ⟨x, -, rfl⟩ := List.mem_map.mp hq
  exact x.share_nonneg conid side

variable {conid : Int}

theorem fill_effect (honly : b.OnlyReduces conid) (k : Nat) (q : ℚ) :
    ((b.fill k q).held conid = b.held conid ∧ ∀ side, (b.fill k q).reductions conid side = b.reductions conid side) ∨
    ∃ side, 0 < q ∧ q ≤ b.reductions conid side ∧ (b.fill k q).held conid = b.held conid + signed side q ∧
      (b.fill k q).reductions conid side = b.reductions conid side - q ∧
      ∀ other, other ≠ side → (b.fill k q).reductions conid other = b.reductions conid other := by
  rcases fill_cases b k q with hf | ⟨o, ho, hq, hle, hf⟩
  · rw [hf]
    exact Or.inl ⟨rfl, fun _ => rfl⟩
  · have hred : ∀ side, (b.fill k q).reductions conid side = b.reductions conid side - o.share conid side +
        ({ o with filled := o.filled + q } : SentOrder).share conid side := by
      intro side
      rw [hf]
      exact sum_set _ ho _
    have hheld : (b.fill k q).held conid = (b.move o.conid (signed o.side q)).held conid := by rw [hf]; rfl
    by_cases hc : o.conid = conid
    · have hdir : o.direction = .REDUCING := honly o (List.mem_of_getElem? ho) hc
      have hshare : o.share conid o.side = o.unfilled := if_pos ⟨hc, rfl, hdir⟩
      have hshare' : ({ o with filled := o.filled + q } : SentOrder).share conid o.side = o.unfilled - q :=
        (if_pos ⟨hc, rfl, hdir⟩).trans (unfilled_fill hq hle)
      refine Or.inr ⟨o.side, hq, ?_, ?_, ?_, ?_⟩
      · have := share_le_reductions ho conid o.side
        linarith
      · rw [hheld, held_move, if_pos hc, hc]
      · rw [hred, hshare, hshare']
        ring
      · intro other hother
        have hn : ∀ o' : SentOrder, o'.side = o.side → o'.share conid other = 0 := by
          intro o' ho'
          refine if_neg ?_
          rintro ⟨-, hs, -⟩
          exact hother (hs ▸ ho')
        rw [hred, hn o rfl, hn { o with filled := o.filled + q } rfl]
        ring
    · left
      refine ⟨?_, fun side => ?_⟩
      · rw [hheld, held_move, if_neg hc]
      · have hn : ∀ o' : SentOrder, o'.conid = o.conid → o'.share conid side = 0 := by
          intro o' ho'
          refine if_neg ?_
          rintro ⟨hs, -, -⟩
          exact hc (ho' ▸ hs)
        rw [hred, hn o rfl, hn { o with filled := o.filled + q } rfl]
        ring

theorem Book.OnlyReduces.fill (h : b.OnlyReduces conid) (k : Nat) (q : ℚ) : (b.fill k q).OnlyReduces conid := by
  rcases fill_cases b k q with hf | ⟨o, ho, -, -, hf⟩
  · rw [hf]
    exact h
  · rw [hf]
    intro o' ho' hc
    rcases List.mem_or_eq_of_mem_set ho' with hmem | rfl
    · exact h o' hmem hc
    · exact h o (List.mem_of_getElem? ho) hc

theorem Book.ReductionsFit.fill {b : Book} {conid : Int} (h : b.ReductionsFit conid) (honly : b.OnlyReduces conid) (k : Nat)
    (q : ℚ) : (b.fill k q).ReductionsFit conid ∧ (0 ≤ b.held conid → 0 ≤ (b.fill k q).held conid) ∧
      (b.held conid ≤ 0 → (b.fill k q).held conid ≤ 0) := by
  rcases fill_effect honly k q with ⟨hheld, hred⟩ | ⟨side, hq, hle, hheld, hred, hother⟩
  · refine ⟨⟨fun side => ?_⟩, ?_, ?_⟩
    · rw [hred, Book.reducible, hheld]
      exact h.fits side
    · rw [hheld]
      exact id
    · rw [hheld]
      exact id
  · have hside := h.fits side
    unfold Book.reducible at hside
    -- an order that can fill reduces a position that is there
    have hp : q ≤ -signed side (b.held conid) ∧ b.reductions conid side ≤ -signed side (b.held conid) := by
      rcases max_choice 0 (-signed side (b.held conid)) with hm | hm
      · rw [hm] at hside
        linarith
      · rw [hm] at hside
        exact ⟨le_trans hle hside, hside⟩
    have hnew : -signed side ((b.fill k q).held conid) = -signed side (b.held conid) - q := by
      rw [hheld, signed_add, signed_signed]
      ring
    refine ⟨⟨fun other => ?_⟩, ?_, ?_⟩
    · unfold Book.reducible
      by_cases ho : other = side
      · subst ho
        rw [hred, hnew]
        exact le_trans (by linarith [hp.2]) (le_max_right _ _)
      · have hfit := h.fits other
        unfold Book.reducible at hfit
        rw [signed_other ho, neg_neg, max_eq_left (by linarith [hp.1])] at hfit
        rw [hother other ho]
        exact le_trans hfit (le_max_left _ _)
    · intro hlong
      cases side
      · have := hp.1
        simp only [signed] at this
        linarith
      · have h1 := hp.1
        rw [hheld]
        simp only [signed, neg_neg] at h1 ⊢
        linarith
    · intro hshort
      cases side
      · have h1 := hp.1
        rw [hheld]
        simp only [signed] at h1 ⊢
        linarith
      · have := hp.1
        simp only [signed, neg_neg] at this
        linarith

/-- **Reductions that fit never take the position through zero.** -/
theorem Book.ReductionsFit.noReversal (h : b.ReductionsFit conid) (honly : b.OnlyReduces conid) : b.NoReversal conid := by
  have hall : ∀ (fs : List (Nat × ℚ)) (b : Book), b.ReductionsFit conid → b.OnlyReduces conid →
      (0 ≤ b.held conid → 0 ≤ (b.fills fs).held conid) ∧ (b.held conid ≤ 0 → (b.fills fs).held conid ≤ 0) := by
    intro fs
    induction fs with
    | nil => exact fun b _ _ => ⟨id, id⟩
    | cons f fs ih =>
      intro b h honly
      obtain ⟨hfit, hlong, hshort⟩ := h.fill honly f.1 f.2
      obtain ⟨ihl, ihs⟩ := ih _ hfit (honly.fill f.1 f.2)
      exact ⟨fun hb => ihl (hlong hb), fun hb => ihs (hshort hb)⟩
  exact ⟨h, fun fs => (hall fs b h honly).1, fun fs => (hall fs b h honly).2⟩

/-! ## The broker's own moves -/

theorem share_place (conid : Int) (side : Side) (o : SentOrder) :
    (if o.dead then o else { o with placed := true }).share conid side = o.share conid side := by
  split
  · rfl
  · rfl

theorem share_die (conid : Int) (side : Side) (o : SentOrder) :
    ({ o with dead := true } : SentOrder).share conid side ≤ o.share conid side := by
  unfold SentOrder.share
  split
  · exact o.unfilled_nonneg
  · exact le_refl 0

theorem Book.ReductionsFit.alter (h : b.ReductionsFit conid) (k : Nat) {g : SentOrder → SentOrder}
    (hg : ∀ side o, (g o).share conid side ≤ o.share conid side) : (b.alter k g).ReductionsFit conid :=
  ⟨fun side => le_trans (sum_modify_le _ g (hg side) b.orders k) (h.fits side)⟩

theorem Book.ReductionsFit.otherOrder (h : b.ReductionsFit conid) {c : Int} (hc : c ≠ conid) (delta : ℚ) :
    (b.move c delta).ReductionsFit conid := by
  refine ⟨fun side => ?_⟩
  have hfit := h.fits side
  unfold Book.reducible at hfit ⊢
  rw [held_move, if_neg hc]
  exact hfit

variable {s : Broker}

/-- **What the broker does on its own keeps the reductions fitting.** -/
theorem Book.ReductionsFit.step (h : s.book.ReductionsFit conid) (honly : s.book.OnlyReduces conid)
    {e : Outside} (he : ∀ delta, e ≠ .otherOrder conid delta) : (s.step e).book.ReductionsFit conid := by
  cases e with
  | place k => exact h.alter k fun side o => (share_place conid side o).le
  | fill k q => exact (h.fill honly k q).1
  | die k => exact h.alter k fun side o => share_die conid side o
  | enumerate => exact h
  | promote =>
    unfold Broker.step
    cases hs : s.staged with
    | none => exact h
    | some b => exact h
  | otherOrder c delta =>
    refine h.otherOrder ?_ delta
    rintro rfl
    exact he delta rfl

theorem step_orders_length (s : Broker) (e : Outside) : (s.step e).book.orders.length = s.book.orders.length := by
  cases e with
  | place k => exact List.length_modify ..
  | fill k q =>
    show (s.book.fill k q).orders.length = _
    rcases fill_cases s.book k q with hf | ⟨o, -, -, -, hf⟩
    · rw [hf]
    · rw [hf]
      exact List.length_set ..
  | die k => exact List.length_modify ..
  | enumerate => rfl
  | promote =>
    unfold Broker.step
    cases hs : s.staged with
    | none => rfl
    | some b => rfl
  | otherOrder c delta => rfl

/-! ## A sent order -/

theorem reductions_send (s : Broker) (o : SentOrder) (conid : Int) (side : Side) :
    (s.send o).book.reductions conid side = s.book.reductions conid side + o.share conid side := by
  unfold Broker.send Book.reductions
  rw [List.map_append, List.sum_append, List.map_singleton, List.sum_singleton]

/-- **A reducing order keeps the reductions fitting exactly when there is room for it.** -/
theorem send_fits (hdir : o.direction = .REDUCING) (h : s.book.ReductionsFit o.conid) :
    (s.send o).book.ReductionsFit o.conid ↔ s.book.Room o := by
  have hshare : o.share o.conid o.side = o.unfilled := if_pos ⟨rfl, rfl, hdir⟩
  constructor
  · intro hs
    have := hs.fits o.side
    rw [reductions_send, hshare] at this
    exact this
  · intro hroom
    refine ⟨fun side => ?_⟩
    rw [reductions_send]
    by_cases hside : side = o.side
    · subst hside
      rw [hshare]
      exact hroom
    · have hzero : o.share o.conid side = 0 := by
        refine if_neg ?_
        rintro ⟨-, hs, -⟩
        exact hside hs.symm
      rw [hzero, add_zero]
      exact h.fits side

/-- An order of another instrument does not matter. -/
theorem send_other (hc : o.conid ≠ conid) (h : s.book.ReductionsFit conid) : (s.send o).book.ReductionsFit conid := by
  refine ⟨fun side => ?_⟩
  have hzero : o.share conid side = 0 := if_neg fun hs => hc hs.1
  rw [reductions_send, hzero, add_zero]
  exact h.fits side

end MmrTrader.Command
