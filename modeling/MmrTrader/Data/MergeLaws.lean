import Mathlib.Data.List.Induction
import MmrTrader.Data.TickData

/-!
# Merging loses and doubles nothing, when each write fits

* `mem_resolved`, `resolved_nodup` — what a call writes: the last bar of each time, its own before the stored ones.
* `Keeps` — the table is a book; `Held` — what a call that has read still knows of the table.
* `Keeps.write` — a write that fits upserts the closed bars of its frame.
* `Merged`, `merged_of_fits` — runs whose writes all fit.
-/

namespace MmrTrader.Data

open Lib

variable {F ε : Type}

/-! ## What a call writes -/

variable {b : Bar F}

theorem lastOf_date {df : List (Bar F)} {t : Int} (hb : b ∈ df) (ht : b.date = t) :
    ∃ a, lastOf (·.date) df t = some a := lastOf_isSome hb ht

theorem mem_keepLast {df : List (Bar F)} : b ∈ keepLast df ↔ lastOf (·.date) df b.date = some b := by
  induction df with
  | nil => simp [keepLast, lastOf]
  | cons a rest ih =>
    have hcons : lastOf (·.date) (a :: rest) b.date =
        (lastOf (·.date) rest b.date).or (lastOf (·.date) [a] b.date) := by rw [← List.singleton_append, lastOf_append]
    have hone : lastOf (·.date) [a] b.date = if a.date = b.date then some a else none := by
      by_cases hd : a.date = b.date <;> simp [lastOf, hd]
    rw [hcons, hone, keepLast]
    by_cases hlater : ∃ r ∈ rest, r.date = a.date
    · have hany : rest.any (·.date == a.date) = true := by simpa using hlater
      rw [if_pos hany, ih]
      by_cases hd : a.date = b.date
      · obtain ⟨r, hr, hrd⟩ := hlater
        obtain ⟨x, hx⟩ := lastOf_date hr (hrd.trans hd)
        simp [hx]
      · simp [hd]
    · have hany : ¬ rest.any (·.date == a.date) = true := by simpa using hlater
      rw [if_neg hany, List.mem_cons, ih]
      by_cases hd : a.date = b.date
      · have hnone : lastOf (fun b : Bar F => b.date) rest b.date = none :=
          lastOf_eq_none.mpr fun r hr hrd => hlater ⟨r, hr, hrd.trans hd.symm⟩
        simp [hnone, hd, eq_comm]
      · have hne : b ≠ a := fun h => hd (h ▸ rfl)
        simp [hd, hne]

theorem keepLast_subset {df : List (Bar F)} (h : b ∈ keepLast df) : b ∈ df :=
  (lastOf_mem (mem_keepLast.mp h)).1

theorem keepLast_nodup (df : List (Bar F)) : ((keepLast df).map (·.date)).Nodup := by
  induction df with
  | nil => exact List.nodup_nil
  | cons a rest ih =>
    rw [keepLast]
    split
    · exact ih
    · rename_i hany
      refine List.nodup_cons.mpr ⟨fun hmem => hany ?_, ih⟩
      obtain ⟨r, hr, hd⟩ := List.mem_map.mp hmem
      simpa using ⟨r, keepLast_subset hr, hd⟩

section
variable {c : Call F} {existing df : List (Bar F)} {rows : List (Row F)}

theorem Call.Fits.dropEmptyBars (h : c.Fits existing rows) : dropEmptyBars c.frame = c.closed := by
  unfold Data.dropEmptyBars Call.closed
  rcases h.closeColumn with hclose | hempty
  · rw [if_pos hclose]
  · simp [hempty]

theorem mem_closed {b : Bar F} : b ∈ c.closed ↔ b ∈ c.frame.bars ∧ b.close.isSome = true := List.mem_filter

theorem closed_of_resolve_none (h : c.Fits existing rows) (hres : resolve c.frame existing = none) : c.closed = [] := by
  unfold resolve at hres
  rw [h.dropEmptyBars] at hres
  grind

theorem mem_resolved (h : c.Fits existing rows) (hres : resolve c.frame existing = some df) {b : Bar F} :
    b ∈ df ↔ lastOf (·.date) (existing ++ c.closed) b.date = some b := by
  simp only [resolve, h.dropEmptyBars] at hres
  split at hres
  · rename_i hnone
    cases hres
    subst hnone
    exact ⟨lastOf_of_nodup (h.single rfl), fun hlast => (lastOf_mem hlast).1⟩
  · split at hres
    · cases hres
    · cases hres
      rw [sortIndex, List.mem_insertionSort, mem_keepLast]

theorem resolved_nodup (h : c.Fits existing rows) (hres : resolve c.frame existing = some df) : (df.map (·.date)).Nodup := by
  simp only [resolve, h.dropEmptyBars] at hres
  split at hres
  · rename_i hnone
    cases hres
    exact h.single hnone
  · split at hres
    · cases hres
    · cases hres
      have hperm := (List.perm_insertionSort (fun a b : Bar F => a.date ≤ b.date) (keepLast (existing ++ c.closed))).map (·.date)
      exact hperm.nodup_iff.mpr (keepLast_nodup _)

theorem closed_of_resolved (h : c.Fits existing rows) (hres : resolve c.frame existing = some df) (hne : df ≠ []) :
    c.closed ≠ [] := by
  simp only [resolve, h.dropEmptyBars] at hres
  grind

theorem resolved_dates (h : c.Fits existing rows) (hres : resolve c.frame existing = some df) (p : Int → Prop) :
    (∃ b ∈ df, p b.date) ↔ ∃ b ∈ existing ++ c.closed, p b.date := by
  constructor
  · rintro ⟨b, hb, hp⟩
    exact ⟨b, (lastOf_mem ((mem_resolved h hres).mp hb)).1, hp⟩
  · rintro ⟨b, hb, hp⟩
    obtain ⟨a, ha⟩ := lastOf_date hb rfl
    obtain ⟨-, hd⟩ := lastOf_mem ha
    exact ⟨a, (mem_resolved h hres).mpr (hd ▸ ha), hd ▸ hp⟩

end

/-! ## One write -/

/-- The table holds each row of the book once, and nothing else. -/
structure Keeps (rows : List (Row F)) (book : Book F) : Prop where
  once : (rows.map Row.key).Nodup
  mem : ∀ r, r ∈ rows ↔ book r.key = some r

/-- What a call that has read `existing` still knows: the read bars had distinct keys, and no key is lost. -/
structure Held (c : Call F) (existing : List (Bar F)) (rows : List (Row F)) : Prop where
  once : ∀ a ∈ existing, ∀ b ∈ existing, a.barSize = b.barSize → a.date = b.date → a = b
  stored : ∀ b ∈ existing, ∃ r ∈ rows, r.key = ⟨c.symbol, b.barSize, b.date⟩

section
variable {c : Call F} {existing df : List (Bar F)} {rows rows' : List (Row F)} {book : Book F} {r : Row F}
variable {k : Key}

theorem lastBar_eq_some :
    c.lastBar k = some r ↔ k.symbol = c.symbol ∧ k.barSize = some c.libraryName ∧
      ∃ b, lastOf (·.date) c.closed k.date = some b ∧ r = b.row c.symbol := by
  unfold Call.lastBar
  split
  · simp_all [eq_comm]
  · rename_i hk
    simp only [reduceCtorEq, false_iff]
    rintro ⟨hs, hb, -⟩
    exact hk ⟨hs, hb⟩

theorem lastBar_key (h : c.lastBar k = some r) : r.key = k := by
  obtain ⟨hs, hb, b, hlast, rfl⟩ := lastBar_eq_some.mp h
  obtain ⟨hmem, hd⟩ := lastOf_mem hlast
  have hsize := c.own b (mem_closed.mp hmem).1
  rw [Bar.row_key, hsize, hd, ← hs, ← hb]

variable {b : Bar F}

theorem lastBar_of_closed (h : b ∈ c.closed) : ∃ r, c.lastBar ⟨c.symbol, some c.libraryName, b.date⟩ = some r := by
  obtain ⟨a, ha⟩ := lastOf_date h rfl
  exact ⟨a.row c.symbol, lastBar_eq_some.mpr ⟨rfl, rfl, a, ha, rfl⟩⟩

theorem lastBar_close (h : c.lastBar k = some r) : r.close.isSome = true := by
  obtain ⟨-, -, b, hlast, rfl⟩ := lastBar_eq_some.mp h
  exact (mem_closed.mp (lastOf_mem hlast).1).2

theorem Call.apply_some : c.apply book k = some r ↔ c.lastBar k = some r ∨ c.lastBar k = none ∧ book k = some r := by
  unfold Call.apply
  cases c.lastBar k <;> simp

theorem Call.apply_of_closed_nil (h : c.closed = []) : c.apply book = book :=
  funext fun k => by simp [Call.apply, Call.lastBar, h, lastOf]

theorem Call.apply_grows (h : book k = some r) : ∃ r', c.apply book k = some r' := by
  cases hl : c.lastBar k with
  | none => exact ⟨r, Call.apply_some.mpr (Or.inr ⟨hl, h⟩)⟩
  | some r' => exact ⟨r', Call.apply_some.mpr (Or.inl hl)⟩

theorem stored_of_resolved (hheld : Held c existing rows) (hfit : c.Fits existing rows)
    (hclosed : c.closed ≠ []) (hb : lastOf (·.date) existing b.date = some b)
    (hnone : ∀ a ∈ c.closed, a.date ≠ b.date) : b.barSize = some c.libraryName ∧ b.row c.symbol ∈ rows := by
  have hmem := (lastOf_mem hb).1
  have hsize := hfit.sized hclosed b hmem hb hnone
  refine ⟨hsize, ?_⟩
  obtain ⟨r, hr, hkey⟩ := hheld.stored b hmem
  have hsym : r.symbol = c.symbol := congrArg Key.symbol hkey
  have hrsize : r.barSize = b.barSize := congrArg Key.barSize hkey
  have hdate : r.date = b.date := congrArg Key.date hkey
  have hin : b ∈ existing ++ c.closed := List.mem_append_left _ hmem
  -- The row is where the delete strikes, so the call has read it.
  rcases hfit.seen hclosed r hr hsym (hrsize.trans hsize) ⟨b, hin, hdate.ge⟩ ⟨b, hin, hdate.le⟩ with hread | ⟨a, ha, had⟩
  · have heq : r.toBar = b := hheld.once _ hread _ hmem hrsize hdate
    rw [← heq, ← hsym]
    exact hr
  · exact absurd (had.trans hdate) (hnone a ha)

theorem resolved_size (hheld : Held c existing rows) (hfit : c.Fits existing rows)
    (hres : resolve c.frame existing = some df) (hne : df ≠ []) (hb : b ∈ df) : b.barSize = some c.libraryName := by
  have hclosed := closed_of_resolved hfit hres hne
  have hlast := (mem_resolved hfit hres).mp hb
  rw [lastOf_append] at hlast
  cases hown : lastOf (fun b : Bar F => b.date) c.closed b.date with
  | some a =>
    rw [hown] at hlast
    cases hlast
    exact c.own b (mem_closed.mp (lastOf_mem hown).1).1
  | none =>
    rw [hown] at hlast
    exact (stored_of_resolved hheld hfit hclosed hlast (lastOf_eq_none.mp hown)).1

theorem write_resolved {faults : Faults ε} (hheld : Held c existing rows) (hfit : c.Fits existing rows)
    (hres : resolve c.frame existing = some df) (hne : df ≠ []) (hwrite : write faults c.symbol df rows = .ok () rows') :
    ∃ kept, kept.Sublist rows ∧ rows' = kept ++ df.map (Bar.row c.symbol) ∧
      (∀ r ∈ kept, ∀ b ∈ existing ++ c.closed, r.key ≠ ⟨c.symbol, some c.libraryName, b.date⟩) ∧
      ∀ r ∈ rows, r ∉ kept → r.symbol = c.symbol ∧ r.barSize = some c.libraryName ∧
        (r.toBar ∈ existing ∨ ∃ b ∈ c.closed, b.date = r.date) := by
  have hclosed := closed_of_resolved hfit hres hne
  obtain ⟨kept, hsub, hrows, hkept⟩ := write_ok hne (fun b hb => resolved_size hheld hfit hres hne hb) hwrite
  refine ⟨kept, hsub, hrows, ?_, ?_⟩
  · intro r hr b hb hkey
    have hdate : r.date = b.date := congrArg Key.date hkey
    have hlo := (resolved_dates hfit hres fun d => d ≤ r.date).mpr ⟨b, hb, hdate.ge⟩
    have hhi := (resolved_dates hfit hres fun d => r.date ≤ d).mpr ⟨b, hb, hdate.le⟩
    exact ((hkept r).mp hr).2 ⟨congrArg Key.symbol hkey, hlo, hhi, congrArg Key.barSize hkey⟩
  · intro r hr hstruck
    obtain ⟨hs, hlo, hhi, hb⟩ := not_not.mp fun h => hstruck ((hkept r).mpr ⟨hr, h⟩)
    have hlo := (resolved_dates hfit hres fun d => d ≤ r.date).mp hlo
    have hhi := (resolved_dates hfit hres fun d => r.date ≤ d).mp hhi
    exact ⟨hs, hb, hfit.seen hclosed r hr hs hb hlo hhi⟩

theorem apply_resolved (hkeep : Keeps rows book) (hheld : Held c existing rows) (hfit : c.Fits existing rows)
    (hres : resolve c.frame existing = some df) (hne : df ≠ []) (hb : b ∈ df) :
    c.apply book (b.row c.symbol).key = some (b.row c.symbol) := by
  have hlast := (mem_resolved hfit hres).mp hb
  rw [lastOf_append] at hlast
  apply Call.apply_some.mpr
  cases hown : lastOf (fun b : Bar F => b.date) c.closed b.date with
  | some a =>
    rw [hown] at hlast
    cases hlast
    exact Or.inl (lastBar_eq_some.mpr ⟨rfl, resolved_size hheld hfit hres hne hb, b, hown, rfl⟩)
  | none =>
    rw [hown] at hlast
    have hstored := stored_of_resolved hheld hfit (closed_of_resolved hfit hres hne) hlast (lastOf_eq_none.mp hown)
    exact Or.inr ⟨by simp [Call.lastBar, hown], (hkeep.mem _).mp hstored.2⟩

/-- A stored row that the delete strikes and the frame does not correct is written back. -/
theorem resolved_of_read (hheld : Held c existing rows) (hfit : c.Fits existing rows)
    (hres : resolve c.frame existing = some df) (hclosed : c.closed ≠ []) (hb : r.barSize = some c.libraryName)
    (hread : r.toBar ∈ existing) (hnone : lastOf (·.date) c.closed r.date = none) : r.toBar ∈ df := by
  obtain ⟨a, ha⟩ := lastOf_date hread rfl
  obtain ⟨hamem, had⟩ := lastOf_mem ha
  have hasize := hfit.sized hclosed a hamem (had ▸ ha) (had ▸ lastOf_eq_none.mp hnone)
  have heq : a = r.toBar := hheld.once a hamem _ hread (hasize.trans hb.symm) had
  apply (mem_resolved hfit hres).mpr
  rw [lastOf_append, hnone, Option.none_or, ← heq, had]
  exact heq ▸ ha

/-- **A write that fits upserts the closed bars of its frame.** -/
theorem Keeps.write {faults : Faults ε} (hkeep : Keeps rows book) (hheld : Held c existing rows) (hfit : c.Fits existing rows)
    (hres : resolve c.frame existing = some df) (hwrite : write faults c.symbol df rows = .ok () rows') :
    Keeps rows' (c.apply book) := by
  by_cases hne : df = []
  · subst hne
    cases hwrite
    have hclosed : c.closed = [] := List.eq_nil_iff_forall_not_mem.mpr fun b hb => by
      have hdates := (resolved_dates hfit hres fun _ => True).mpr ⟨b, List.mem_append_right _ hb, trivial⟩
      simp at hdates
    rw [Call.apply_of_closed_nil hclosed]
    exact hkeep
  · obtain ⟨kept, hsub, rfl, hspared, hstruck⟩ := write_resolved hheld hfit hres hne hwrite
    have hclosed := closed_of_resolved hfit hres hne
    have hsize : ∀ b ∈ df, b.barSize = some c.libraryName := fun b hb => resolved_size hheld hfit hres hne hb
    refine ⟨?_, fun r => ?_⟩
    · rw [List.map_append, List.map_map]
      refine List.nodup_append.mpr ⟨(hsub.map _).nodup hkeep.once, ?_, ?_⟩
      · apply List.Nodup.of_map Key.date
        rw [List.map_map]
        exact resolved_nodup hfit hres
      · rintro k hk k' hk' rfl
        obtain ⟨r, hr, rfl⟩ := List.mem_map.mp hk
        obtain ⟨b, hb, hkey⟩ := List.mem_map.mp hk'
        refine hspared r hr b (lastOf_mem ((mem_resolved hfit hres).mp hb)).1 ?_
        rw [← hkey, ← hsize b hb]
        rfl
    · rw [List.mem_append]
      constructor
      · rintro (hr | hr)
        · refine Call.apply_some.mpr (Or.inr ⟨?_, (hkeep.mem r).mp (hsub.subset hr)⟩)
          by_contra hl
          obtain ⟨r', hl⟩ := Option.ne_none_iff_exists'.mp hl
          obtain ⟨hs, hb, b, hlast, -⟩ := lastBar_eq_some.mp hl
          obtain ⟨hbmem, hd⟩ := lastOf_mem hlast
          refine hspared r hr b (List.mem_append_right _ hbmem) ?_
          rw [hd, ← hs, ← hb]
        · obtain ⟨b, hb, rfl⟩ := List.mem_map.mp hr
          exact apply_resolved hkeep hheld hfit hres hne hb
      · intro happly
        rcases Call.apply_some.mp happly with hl | ⟨hl, hbook⟩
        · obtain ⟨-, -, b, hlast, rfl⟩ := lastBar_eq_some.mp hl
          have hown : lastOf (fun b : Bar F => b.date) c.closed b.date = some b := hlast
          refine Or.inr (List.mem_map_of_mem ((mem_resolved hfit hres).mpr ?_))
          rw [lastOf_append, hown]
          rfl
        · have hmem := (hkeep.mem r).mpr hbook
          by_cases hr : r ∈ kept
          · exact Or.inl hr
          · obtain ⟨hs, hb, hread⟩ := hstruck r hmem hr
            have hnone : lastOf (fun b : Bar F => b.date) c.closed r.date = none := by
              simpa [Call.lastBar, Row.key, hs, hb] using hl
            have hread := hread.resolve_right fun ⟨a, ha, had⟩ => lastOf_eq_none.mp hnone a ha had
            exact Or.inr (List.mem_map.mpr ⟨r.toBar, resolved_of_read hheld hfit hres hclosed hb hread hnone, by rw [← hs]; rfl⟩)

end

/-! ## Runs -/

def bookOf (initial : List (Row F)) : Book F := fun k => initial.find? (·.key == k)

theorem keeps_initial {initial : List (Row F)} (h : (initial.map Row.key).Nodup) : Keeps initial (bookOf initial) := by
  refine ⟨h, fun r => ⟨fun hr => ?_, fun hr => List.mem_of_find?_eq_some hr⟩⟩
  unfold bookOf
  cases hfind : initial.find? (·.key == r.key) with
  | none => exact absurd (List.find?_eq_none.mp hfind r hr) (by simp)
  | some r' =>
    have hkey : r'.key = r.key := by simpa using List.find?_some hfind
    rw [List.inj_on_of_nodup_map h (List.mem_of_find?_eq_some hfind) hr hkey]

variable {log : List (Call F)} {k : Key}

theorem foldl_apply {book : Book F} {r : Row F} :
    log.foldl Call.apply book k = some r ↔
      Newest log k r ∨ (∀ c ∈ log, c.lastBar k = none) ∧ book k = some r := by
  induction log using List.reverseRecOn with
  | nil => simp [Newest]
  | append_singleton log c ih =>
    rw [List.foldl_append, List.foldl_cons, List.foldl_nil, Call.apply_some, ih]
    constructor
    · rintro (hl | ⟨hl, ⟨before, d, after, rfl, hd, hafter⟩ | ⟨hnone, hbook⟩⟩)
      · exact Or.inl ⟨log, c, [], rfl, hl, by simp⟩
      · refine Or.inl ⟨before, d, after ++ [c], by simp, hd, fun e he => ?_⟩
        rcases List.mem_append.mp he with he | he
        · exact hafter e he
        · exact (List.mem_singleton.mp he) ▸ hl
      · refine Or.inr ⟨fun e he => ?_, hbook⟩
        rcases List.mem_append.mp he with he | he
        · exact hnone e he
        · exact (List.mem_singleton.mp he) ▸ hl
    · rintro (⟨before, d, after, hlog, hd, hafter⟩ | ⟨hnone, hbook⟩)
      · rcases List.eq_nil_or_concat' after with rfl | ⟨after, e, rfl⟩
        · obtain ⟨-, heq⟩ := List.append_inj' hlog rfl
          cases heq
          exact Or.inl hd
        · rw [← List.cons_append, ← List.append_assoc] at hlog
          obtain ⟨rfl, heq⟩ := List.append_inj' hlog rfl
          cases heq
          exact Or.inr ⟨hafter c (by simp), Or.inl ⟨before, d, after, rfl, hd, fun e he => hafter e (by simp [he])⟩⟩
      · exact Or.inr ⟨hnone c (by simp), Or.inr ⟨fun e he => hnone e (by simp [he]), hbook⟩⟩

theorem exists_newest (h : ¬ ∀ c ∈ log, c.lastBar k = none) : ∃ r, Newest log k r := by
  induction log using List.reverseRecOn with
  | nil => exact absurd (by simp) h
  | append_singleton log c ih =>
    cases hl : c.lastBar k with
    | some r => exact ⟨r, log, c, [], rfl, hl, by simp⟩
    | none =>
      obtain ⟨r, before, d, after, rfl, hd, hafter⟩ := ih fun hall => h fun e he => by
        rcases List.mem_append.mp he with he | he
        · exact hall e he
        · exact (List.mem_singleton.mp he) ▸ hl
      refine ⟨r, before, d, after ++ [c], by simp, hd, fun e he => ?_⟩
      rcases List.mem_append.mp he with he | he
      · exact hafter e he
      · exact (List.mem_singleton.mp he) ▸ hl

theorem Newest.key_eq {r : Row F} (h : Newest log k r) : r.key = k := by
  obtain ⟨before, c, after, -, hl, -⟩ := h
  exact lastBar_key hl

theorem Newest.mem {r : Row F} (h : Newest log k r) : ∃ c ∈ log, c.lastBar k = some r := by
  obtain ⟨before, c, after, rfl, hl, -⟩ := h
  exact ⟨c, by simp, hl⟩

/-- What holds in every state of a run whose writes fit. -/
structure Inv (initial : List (Row F)) (s : Store F) : Prop where
  keeps : Keeps s.rows (s.log.foldl Call.apply (bookOf initial))
  held : ∀ (i : Nat) (c : Call F) (existing : List (Bar F)), s.calls[i]? = some (c, .holding existing) → Held c existing s.rows
  logged : ∀ c, c ∈ s.log ↔ s.Done c

section
variable {initial : List (Row F)} {s : Store F} {i : Nat} {c : Call F} {phase phase' : Phase F}

theorem setPhase_calls (h : s.calls[i]? = some (c, phase)) (j : Nat) :
    (s.setPhase i c phase').calls[j]? = if i = j then some (c, phase') else s.calls[j]? := by
  have hi : i < s.calls.length := (List.getElem?_eq_some_iff.mp h).1
  simp only [Store.setPhase, List.getElem?_set]
  grind

theorem done_setPhase (h : s.calls[i]? = some (c, phase)) (hphase : phase ≠ .done) (hphase' : phase' ≠ .done) (d : Call F) :
    (s.setPhase i c phase').Done d ↔ s.Done d := by
  unfold Store.Done
  simp only [setPhase_calls h]
  constructor
  · rintro ⟨j, hj⟩
    split at hj
    · cases hj
      exact absurd rfl hphase'
    · exact ⟨j, hj⟩
  · rintro ⟨j, hj⟩
    refine ⟨j, ?_⟩
    split
    · rename_i hij
      subst hij
      rw [h] at hj
      cases hj
      exact absurd rfl hphase
    · exact hj

theorem done_complete (h : s.calls[i]? = some (c, phase)) (hphase : phase ≠ .done) {rows : List (Row F)} (d : Call F) :
    (s.complete i c rows).Done d ↔ s.Done d ∨ d = c := by
  have hcalls : ∀ j, (s.complete i c rows).calls[j]? = if i = j then some (c, .done) else s.calls[j]? := fun j => setPhase_calls h j
  unfold Store.Done
  simp only [hcalls]
  constructor
  · rintro ⟨j, hj⟩
    split at hj
    · cases hj
      exact Or.inr rfl
    · exact Or.inl ⟨j, hj⟩
  · rintro (⟨j, hj⟩ | rfl)
    · refine ⟨j, ?_⟩
      split
      · rename_i hij
        subst hij
        rw [h] at hj
        cases hj
        exact absurd rfl hphase
      · exact hj
    · exact ⟨i, if_pos rfl⟩

/-- No key is lost where the table goes from one book to a later one. -/
theorem Held.grow {existing : List (Bar F)} {rows rows' : List (Row F)} {book : Book F} {d : Call F}
    (h : Held c existing rows) (hkeep : Keeps rows book) (hkeep' : Keeps rows' (d.apply book)) : Held c existing rows' := by
  refine ⟨h.once, fun b hb => ?_⟩
  obtain ⟨r, hr, hkey⟩ := h.stored b hb
  obtain ⟨r', happly⟩ := Call.apply_grows (c := d) ((hkeep.mem r).mp hr)
  have hkey' : r'.key = r.key := by
    rcases Call.apply_some.mp happly with hl | ⟨-, hbook⟩
    · exact lastBar_key hl
    · have hmem := (hkeep.mem r).mp hr
      rw [hbook] at hmem
      cases hmem
      rfl
  exact ⟨r', (hkeep'.mem r').mpr (hkey' ▸ happly), hkey'.trans hkey⟩

/-- What a read answers. -/
theorem held_of_selects {epoch now : Int} {df : List (Bar F)} {rows : List (Row F)} (hnodup : (rows.map Row.key).Nodup)
    (h : Selects rows c.symbol epoch now c.barSizeFilter df) : Held c df rows := by
  have hmem : ∀ b ∈ df, b.row c.symbol ∈ rows := by
    intro b hb
    obtain ⟨r, hr, rfl⟩ := List.mem_map.mp (h.1.mem_iff.mp hb)
    obtain ⟨hrows, hsel⟩ := List.mem_filter.mp hr
    have hs : r.symbol = c.symbol := by
      simp only [selected, Bool.and_eq_true, beq_iff_eq] at hsel
      exact hsel.1.1.1
    rw [← hs]
    exact hrows
  refine ⟨fun a ha b hb hsize hdate => ?_, fun b hb => ⟨_, hmem b hb, rfl⟩⟩
  have hrow := List.inj_on_of_nodup_map hnodup (hmem a ha) (hmem b hb) (by simp [hsize, hdate])
  exact congrArg Row.toBar hrow

theorem Inv.complete {rows : List (Row F)} (hinv : Inv initial s) (h : s.calls[i]? = some (c, phase)) (hphase : phase ≠ .done)
    (hkeep : Keeps rows (c.apply (s.log.foldl Call.apply (bookOf initial)))) : Inv initial (s.complete i c rows) := by
  constructor
  · show Keeps rows ((s.log ++ [c]).foldl Call.apply (bookOf initial))
    rw [List.foldl_append]
    exact hkeep
  · intro j d existing hj
    have hj : (s.setPhase i c .done).calls[j]? = some (d, .holding existing) := hj
    rw [setPhase_calls h] at hj
    split at hj
    · cases hj
    · exact (hinv.held j d existing hj).grow hinv.keeps hkeep
  · intro d
    rw [done_complete h hphase, ← hinv.logged]
    show d ∈ s.log ++ [c] ↔ _
    simp

theorem Inv.setPhase (hinv : Inv initial s) (h : s.calls[i]? = some (c, phase)) (hphase : phase ≠ .done) (hphase' : phase' ≠ .done)
    (hheld : ∀ existing, phase' = .holding existing → Held c existing s.rows) : Inv initial (s.setPhase i c phase') := by
  constructor
  · exact hinv.keeps
  · intro j d existing hj
    rw [setPhase_calls h] at hj
    split at hj
    · cases hj
      exact hheld existing rfl
    · exact hinv.held j d existing hj
  · intro d
    rw [done_setPhase h hphase hphase']
    exact hinv.logged d

theorem Inv.merge {faults : Faults ε} {existing : List (Bar F)} (hinv : Inv initial s)
    (h : s.calls[i]? = some (c, .holding existing)) (hfit : c.Fits existing s.rows) :
    Inv initial (s.merge i c existing faults) := by
  have hheld := hinv.held i c existing h
  unfold Store.merge
  cases hres : resolve c.frame existing with
  | none =>
    have hclosed := closed_of_resolve_none hfit hres
    apply hinv.complete h nofun
    rw [Call.apply_of_closed_nil hclosed]
    exact hinv.keeps
  | some df =>
    cases hwrite : write faults c.symbol df s.rows with
    | ok v rows =>
      simp only [hwrite]
      exact hinv.complete h nofun (hinv.keeps.write hheld hfit hres hwrite)
    | error e rows =>
      simp only [hwrite, write_error hwrite]
      show Inv initial (s.setPhase i c .raised)
      exact hinv.setPhase h nofun nofun nofun

theorem Inv.step [DecidableEq F] {epoch : Int} {a : Act F ε} (hinv : Inv initial s) (hfit : Fits s a) :
    Inv initial (step epoch s a) := by
  cases a with
  | call c =>
    have hcalls : ∀ (j : Nat) (d : Call F) (phase : Phase F), phase ≠ .ready →
        ((s.calls ++ [(c, .ready)])[j]? = some (d, phase) ↔ s.calls[j]? = some (d, phase)) := by
      intro j d phase hne
      rw [List.getElem?_append]
      split
      · rfl
      · rename_i hj
        rw [List.getElem?_eq_none (Nat.le_of_not_lt hj), List.getElem?_singleton]
        split <;> simp [Ne.symm hne]
    refine ⟨hinv.keeps, fun j d existing hj => hinv.held j d existing ((hcalls j d (.holding existing) nofun).mp hj), fun d => ?_⟩
    exact (hinv.logged d).trans (exists_congr fun j => (hcalls j d .done nofun).symm)
  | read i now df =>
    simp only [Data.step]
    split
    · rename_i c h
      split
      · rename_i hsel
        refine hinv.setPhase h nofun (fun hdone => nomatch hdone) fun existing hsame => ?_
        cases hsame
        exact held_of_selects hinv.keeps.once hsel
      · exact hinv
    · exact hinv
  | write i faults =>
    simp only [Data.step]
    split
    · rename_i c existing h
      simp only [Data.Fits, h] at hfit
      exact hinv.merge h hfit
    · exact hinv
  | raise i =>
    simp only [Data.step]
    split
    · rename_i c h
      show Inv initial (s.setPhase i c .raised)
      exact hinv.setPhase h nofun nofun nofun
    · rename_i c existing h
      show Inv initial (s.setPhase i c .raised)
      exact hinv.setPhase h nofun nofun nofun
    · exact hinv

/-- The parts of the law, read off the book. -/
theorem Inv.merged (hinitial : (initial.map Row.key).Nodup) (hinv : Inv initial s) : Merged initial s := by
  have hmem : ∀ r, r ∈ s.rows ↔ Newest s.log r.key r ∨ (∀ c ∈ s.log, c.lastBar r.key = none) ∧ r ∈ initial := by
    intro r
    rw [hinv.keeps.mem, foldl_apply, (keeps_initial hinitial).mem]
  have hnewest : ∀ k r, Newest s.log k r → r ∈ s.rows := fun k r hnew => (hmem r).mpr (Or.inl (hnew.key_eq ▸ hnew))
  constructor
  · exact hinv.keeps.once
  · intro r hr
    by_cases hnone : ∀ c ∈ s.log, c.lastBar r.key = none
    · exact ⟨r, (hmem r).mpr (Or.inr ⟨hnone, hr⟩), rfl, Or.inl rfl⟩
    · obtain ⟨r', hnew⟩ := exists_newest hnone
      obtain ⟨c, hc, hl⟩ := hnew.mem
      exact ⟨r', hnewest _ _ hnew, hnew.key_eq, Or.inr ⟨c, (hinv.logged c).mp hc, hl⟩⟩
  · intro c hc b hb hclose
    obtain ⟨r, hl⟩ := lastBar_of_closed (mem_closed.mpr ⟨hb, hclose⟩)
    have hsome : ¬ ∀ d ∈ s.log, d.lastBar ⟨c.symbol, some c.libraryName, b.date⟩ = none := fun hnone => by
      rw [hnone c ((hinv.logged c).mpr hc)] at hl
      cases hl
    obtain ⟨r', hnew⟩ := exists_newest hsome
    exact ⟨r', hnewest _ _ hnew, hnew.key_eq, hnew.key_eq.symm ▸ hnew⟩
  · intro r hr hclose
    rcases (hmem r).mp hr with hnew | ⟨-, hr⟩
    · obtain ⟨c, -, hl⟩ := hnew.mem
      have hclosed := lastBar_close hl
      rw [hclose] at hclosed
      cases hclosed
    · exact hr
  · intro r hother
    have hnone : ∀ c ∈ s.log, c.lastBar r.key = none := fun c hc =>
      if_neg (hother c ((hinv.logged c).mp hc))
    rw [hmem]
    constructor
    · rintro (hnew | ⟨-, hr⟩)
      · obtain ⟨c, hc, hl⟩ := hnew.mem
        rw [hnone c hc] at hl
        cases hl
      · exact hr
    · exact fun hr => Or.inr ⟨hnone, hr⟩
  · exact hinv.logged

end

theorem rows_of_raises [DecidableEq F] {epoch : Int} {s : Store F} {a : Act F ε} (h : Raises epoch s a) :
    (step epoch s a).rows = s.rows := by
  obtain ⟨i, c, hafter, hbefore⟩ := h
  cases a with
  | call d => rfl
  | read j now df =>
    simp only [step]
    split
    · split <;> rfl
    · rfl
  | raise j =>
    simp only [step]
    split <;> rfl
  | write j faults =>
    simp only [step] at hafter ⊢
    split
    · rename_i d existing hcall
      simp only [hcall] at hafter
      unfold Store.merge at hafter ⊢
      cases hres : resolve d.frame existing with
      | none => rfl
      | some df =>
        simp only [hres] at hafter
        cases hwrite : write faults d.symbol df s.rows with
        | error e rows =>
          simp only [hwrite]
          exact write_error hwrite
        | ok v rows =>
          simp only [hwrite] at hafter
          have hafter : (s.setPhase j d .done).calls[i]? = some (c, .raised) := hafter
          rw [setPhase_calls hcall] at hafter
          split at hafter
          · cases hafter
          · exact absurd hafter hbefore
    · rfl

/-- **Merging loses and doubles nothing.**  In a run whose writes all fit, the stored bars are the old ones with the
    frames' closed bars over them, newest last, in every state; and a call that raises changes nothing. -/
theorem merge_loses_nothing [DecidableEq F] {epoch : Int} {initial : List (Row F)} {acts : List (Act F ε)}
    (hinitial : (initial.map Row.key).Nodup) (hfit : Meets (step epoch) Fits (start initial) acts) :
    ∀ pre, pre <+: acts → Merged initial (run epoch initial pre) ∧
      ∀ a : Act F ε, Raises epoch (run epoch initial pre) a →
        (step epoch (run epoch initial pre) a).rows = (run epoch initial pre).rows := by
  intro pre hpre
  have hstart : Inv initial (start initial) := by
    refine ⟨keeps_initial hinitial, fun i c existing h => ?_, fun c => ?_⟩
    · simp [start] at h
    · simp [start, Store.Done]
  have hinv : Inv initial (run epoch initial pre) := (hfit.of_prefix hpre).invariant (fun s a hs ha => hs.step ha) hstart
  exact ⟨hinv.merged hinitial, fun a ha => rows_of_raises ha⟩

/-! ### Runs that show it -/

/-- A bar that closes at `close` and has nothing else. -/
def closing (date : Int) (close : Option Int) (barSize : Option String) : Bar Int :=
  ⟨date, none, none, none, close, none, none, none, barSize, none⟩

def minute (date close : Int) : Bar Int := closing date (some close) (some "1 min")

def minutes (bars : List (Bar Int)) (own : ∀ b ∈ bars, b.barSize = some "1 min") (hasClose : Bool)
    (close_absent : hasClose = false → ∀ b ∈ bars, b.close = none) : Call Int :=
  ⟨"1 min", "4391", ⟨bars, hasClose, close_absent⟩, own⟩

/-- Two calls over a stored bar, one write that fails in its insert, and one that corrects the stored bar. -/
theorem merge_loses_nothing_corrects :
    let initial := [(minute 60 1).row "4391", (closing 60 (some 7) none).row "4391", (minute 60 9).row "265598"]
    let acts : List (Act Int String) :=
      [.call (minutes [minute 60 2, minute 120 3, minute 60 4, closing 180 none (some "1 min")] (by decide) true nofun),
        .call (minutes [minute 120 5] (by decide) true nofun),
        .read 0 500 [closing 60 (some 7) none, minute 60 1], .write 0 Faults.none,
        .read 1 500 [closing 60 (some 7) none, minute 60 4, minute 120 3],
        .write 1 ⟨fun _ => none, some "INSERT", none⟩]
    Merged initial (run 0 initial acts) ∧ minute 60 4 ∈ (run 0 initial acts).rows.map Row.toBar := by
  intro initial acts
  have hfit : Meets (step 0) Fits (start initial) acts := by decide +kernel
  exact ⟨(merge_loses_nothing (by decide) hfit acts (List.prefix_refl _)).1, by decide +kernel⟩

theorem exists_done {s : Store F} {p : Call F → Bool}
    (h : (s.calls.any fun q => match q.2 with | .done => p q.1 | _ => false) = true) : ∃ c, s.Done c ∧ p c = true := by
  obtain ⟨⟨c, phase⟩, hmem, hp⟩ := List.any_eq_true.mp h
  obtain ⟨i, hi⟩ := List.mem_iff_getElem?.mp hmem
  cases phase with
  | done => exact ⟨c, ⟨i, hi⟩, hp⟩
  | ready | holding | raised => cases hp

/-- Runs that lose or double a bar.  A row without a bar size is read with the library's and inserted again; the first
    frame of an instrument is written with its duplicates; a merge takes back what another has written since its read;
    a frame without a close column is stored as it is. -/
theorem merge_doubles_and_loses :
    (let initial := [(closing 60 (some 7) none).row "4391"]
     let acts : List (Act Int String) :=
       [.call (minutes [minute 120 2] (by decide) true nofun), .read 0 500 [closing 60 (some 7) none], .write 0 Faults.none]
     (initial.map Row.key).Nodup ∧ ¬ ((run 0 initial acts).rows.map Row.key).Nodup ∧ ¬ Merged initial (run 0 initial acts)) ∧
    (let acts : List (Act Int String) :=
       [.call (minutes [minute 60 1, minute 60 2] (by decide) true nofun), .read 0 500 [], .write 0 Faults.none]
     ¬ ((run 0 [] acts).rows.map Row.key).Nodup ∧ ¬ Merged [] (run 0 [] acts)) ∧
    (let initial := [(minute 60 1).row "4391", (minute 240 4).row "4391"]
     let acts : List (Act Int String) :=
       [.call (minutes [minute 120 2] (by decide) true nofun), .call (minutes [minute 180 3] (by decide) true nofun), .read 0 500 [minute 60 1, minute 240 4],
         .read 1 500 [minute 60 1, minute 240 4], .write 0 Faults.none, .write 1 Faults.none]
     (∀ r ∈ (run 0 initial acts).rows, r.date ≠ 120) ∧ ¬ Merged initial (run 0 initial acts)) ∧
    (let acts : List (Act Int String) :=
       [.call (minutes [closing 60 none (some "1 min")] (by decide) false (by decide)), .read 0 500 [], .write 0 Faults.none]
     (∃ r ∈ (run 0 [] acts).rows, r.close = none) ∧ ¬ Merged [] (run 0 [] acts)) := by
  refine ⟨?_, ?_, ?_, ?_⟩
  · have hdouble : ¬ ((run 0 [(closing 60 (some 7) none).row "4391"]
        [(.call (minutes [minute 120 2] (by decide) true nofun) : Act Int String), .read 0 500 [closing 60 (some 7) none],
          .write 0 Faults.none]).rows.map Row.key).Nodup := by decide +kernel
    exact ⟨by decide, hdouble, fun h => hdouble h.once⟩
  · have hdouble : ¬ ((run 0 [] [(.call (minutes [minute 60 1, minute 60 2] (by decide) true nofun) : Act Int String),
        .read 0 500 [], .write 0 Faults.none]).rows.map Row.key).Nodup := by decide +kernel
    exact ⟨hdouble, fun h => hdouble h.once⟩
  · intro initial acts
    have hlost : ∀ r ∈ (run 0 initial acts).rows, r.date ≠ 120 := by decide +kernel
    refine ⟨hlost, fun h => ?_⟩
    obtain ⟨c, hc, hmem⟩ := exists_done (p := fun c => decide (minute 120 2 ∈ c.frame.bars)) (s := run 0 initial acts) (by decide +kernel)
    obtain ⟨r, hr, hkey, -⟩ := h.stored c hc (minute 120 2) (of_decide_eq_true hmem) rfl
    exact hlost r hr (congrArg Key.date hkey)
  · intro acts
    have hempty : ∃ r ∈ (run 0 [] acts).rows, r.close = none := by decide +kernel
    obtain ⟨r, hr, hclose⟩ := hempty
    exact ⟨⟨r, hr, hclose⟩, fun h => absurd (h.noEmptyBar r hr hclose) List.not_mem_nil⟩

end MmrTrader.Data
