import Mathlib.Data.List.Nodup
import MmrTrader.Sandbox.SlotSteps

/-!
# Slots are conserved, and probes run apart

* `Promise` — slots, sessions, bars and children in one state.
* `Alone` — a reservation of a probe finds no live child on its way out.
* `Inv.step`, `slots_conserved` — what every run keeps whose probe reservations are alone.
* `probe_beside_live` — a probe reserved while a closed live session still has its child.
-/

namespace MmrTrader.Sandbox

open Lib

/-! ## The promise -/

def World.toFinish (w : World) (id : Nat) (s : Session) : Nat := tally (duty s.handle.isSome id) w.threads

structure Promise (c : Config) (w : World) : Prop where
  /-- A slot is free, quarantined, or held by a session that is not yet released. -/
  conserved : ∀ pool slot, slot ∈ c.slots pool →
    (w.sup.freeSlots pool).count slot + (w.sup.quarantined pool).count slot + tally (held pool slot) w.sup.sessions = 1
  /-- A pool has no other slots. -/
  own : ∀ pool slot, slot ∉ c.slots pool →
    slot ∉ w.sup.freeSlots pool ∧ slot ∉ w.sup.quarantined pool ∧ tally (held pool slot) w.sup.sessions = 0
  /-- A session is released once: it was, or one thread has it to finish, or it is open in the table. -/
  finished : ∀ (id : Nat) (s : Session), w.session? id = some s → s.released + w.toFinish id s + s.kept = 1
  /-- A free slot's sessions are all released, their children ended, and the wiper returned `True` each time. -/
  clean : ∀ s ∈ w.sup.sessions, s.slot ∈ w.sup.freeSlots s.pool →
    s.released = 1 ∧ s.child = .ended ∧ s.wiped = some true
  /-- No two children on one slot. -/
  oneChild : ∀ (id id' : Nat) (s s' : Session), w.session? id = some s → w.session? id' = some s' → s.slot = s'.slot →
    s.child = .alive → s'.child = .alive → id = id'
  oneSession : ∀ (id id' : Nat) (s s' : Session), w.session? id = some s → w.session? id' = some s' → s.inTable →
    s'.inTable → s.connId = s'.connId → id = id'
  /-- No two bars with one child. -/
  oneBar : ∀ (i j id : Nat) (conid t conid' t' : Int), w.threads[i]? = some (.sending id conid t) →
    w.threads[j]? = some (.sending id conid' t') → i = j
  increasing : w.accepted.Pairwise fun a b => a.session = b.session → a.conid = b.conid → a.t < b.t
  /-- No probe's child beside a live one. -/
  apart : ∀ s ∈ w.sup.sessions, ∀ s' ∈ w.sup.sessions, s.isProbe → s.child = .alive → s'.pool = .live →
    s'.child ≠ .alive

/-- When `_reserve` comes to a probe, every live session out of the table has lost its child. -/
def Alone (w : World) : Act → Prop
  | .next i _ =>
    match w.threads[i]? with
    | some (.reserve o) =>
      o.isProbe = true → ∀ s ∈ w.sup.sessions, s.pool = .live → s.inTable = false → s.child = .ended
    | _ => True
  | _ => True

instance (w : World) (act : Act) : Decidable (Alone w act) := by
  unfold Alone
  split
  · split <;> infer_instance
  · infer_instance

/-! ## The slots of the pools -/

variable {slot : Slot}

theorem slotDir_uid (c : Config) (pool : PoolName) (h : slot ∈ c.slots pool) : slot.uid ∈ poolUids pool := by
  unfold Config.slots at h
  split at h
  · cases h
  · obtain ⟨uid, huid, rfl⟩ := List.mem_map.mp h
    exact List.mem_of_mem_take huid

theorem slots_nodup (c : Config) (pool : PoolName) : (c.slots pool).Nodup := by
  unfold Config.slots
  split
  · exact List.nodup_nil
  · have huids : (poolUids pool).Nodup := by cases pool <;> decide
    exact (huids.sublist (List.take_sublist _ _)).map fun a b h => (Slot.mk.inj h).1

theorem slots_disjoint (c : Config) {pool pool' : PoolName} (h : slot ∈ c.slots pool)
    (h' : slot ∈ c.slots pool') : pool = pool' := by
  have hu := slotDir_uid c pool h
  have hu' := slotDir_uid c pool' h'
  cases pool <;> cases pool' <;> simp_all [poolUids] <;> omega

theorem count_slots (c : Config) (pool : PoolName) (h : slot ∈ c.slots pool) :
    (c.slots pool).count slot = 1 := List.count_eq_one_of_mem (slots_nodup c pool) h

section
variable {c : Config} {w : World}
variable {id : Nat}

theorem Inv.alive_unreleased (h : Inv c w) {s : Session} (hs : w.session? id = some s)
    (halive : s.child = .alive) : s.released = 0 := by
  by_contra hr
  obtain ⟨-, hend, -⟩ := (h.agree.session id s hs).settled (Nat.pos_of_ne_zero hr)
  rw [halive] at hend
  cases hend

variable {slot : Slot}

theorem Inv.own (h : Inv c w) {pool : PoolName} (hslot : slot ∉ c.slots pool) :
    slot ∉ w.sup.freeSlots pool ∧ slot ∉ w.sup.quarantined pool ∧ tally (held pool slot) w.sup.sessions = 0 := by
  have hc := h.pools.conserved pool slot
  rw [List.count_eq_zero.mpr hslot] at hc
  exact ⟨List.count_eq_zero.mp (by omega), List.count_eq_zero.mp (by omega), by omega⟩

theorem Inv.holds_slot (h : Inv c w) {s : Session} (hs : w.session? id = some s) (hr : s.released = 0) :
    held s.pool s.slot s = 1 ∧ s.slot ∈ c.slots s.pool := by
  have hheld : held s.pool s.slot s = 1 := by simp [held, hr]
  refine ⟨hheld, ?_⟩
  by_contra hslot
  have := (h.own hslot).2.2
  have := le_tally (f := held s.pool s.slot) hs
  omega

theorem Inv.holder_unique (h : Inv c w) {id' : Nat} {s s' : Session} (hs : w.session? id = some s)
    (hs' : w.session? id' = some s') (hr : s.released = 0) (hr' : s'.released = 0) (hslot : s.slot = s'.slot) : id = id' := by
  by_contra hne
  obtain ⟨h1, hmem⟩ := h.holds_slot hs hr
  obtain ⟨h2, hmem'⟩ := h.holds_slot hs' hr'
  have hpool : s'.pool = s.pool := slots_disjoint c hmem' (hslot ▸ hmem)
  rw [← hslot, hpool] at h2
  have := add_le_tally (f := held s.pool s.slot) hs hs' hne
  have := h.pools.conserved s.pool s.slot
  have := count_slots c s.pool hmem
  omega

theorem Inv.clean (h : Inv c w) {s : Session} (hs : s ∈ w.sup.sessions) (hfree : s.slot ∈ w.sup.freeSlots s.pool) :
    s.released = 1 ∧ s.child = .ended ∧ s.wiped = some true := by
  obtain ⟨id, hid⟩ := List.mem_iff_getElem?.mp hs
  have hslot : s.slot ∈ c.slots s.pool := by
    by_contra hslot
    exact (h.own hslot).1 hfree
  have hc := h.pools.conserved s.pool s.slot
  rw [count_slots c s.pool hslot] at hc
  have hcount := List.count_pos_iff.mpr hfree
  have hr : 0 < s.released := by
    by_contra hr
    have hheld := (h.holds_slot hid (by omega)).1
    have := le_tally (f := held s.pool s.slot) hid
    omega
  have howned := (h.agree.session id s hid).owned
  obtain ⟨-, hend, -⟩ := (h.agree.session id s hid).settled hr
  refine ⟨by omega, hend, ?_⟩
  by_contra hdirty
  have := List.count_pos_iff.mpr (h.pools.dirty s hs hr hdirty)
  omega

theorem Inv.promise (h : Inv c w) : Promise c w where
  conserved := fun pool slot hslot => by rw [h.pools.conserved, count_slots c pool hslot]
  own := fun _ _ => h.own
  finished := fun id s hs => (h.agree.session id s hs).owned
  clean := fun _ => h.clean
  oneChild := fun id id' s s' hs hs' hslot ha ha' =>
    h.holder_unique hs hs' (h.alive_unreleased hs ha) (h.alive_unreleased hs' ha') hslot
  oneSession := h.pools.oneSession
  oneBar := fun i j id conid t conid' t' hi hj => by
    obtain ⟨s, hs, -⟩ := (h.agree.thread _ (List.mem_of_getElem? hi)).asker id rfl
    exact (h.agree.session id s hs).asks_unique hi hj rfl rfl
  increasing := h.bars.increasing
  apart := fun s hs s' hs' hprobe ha hlive => by
    obtain ⟨id, hid⟩ := List.mem_iff_getElem?.mp hs
    have hmem := (h.probes.listed id).mpr ⟨s, hid, hprobe, h.alive_unreleased hid ha⟩
    rw [h.probes.apart (List.ne_nil_of_mem hmem) s' hs' hlive]
    exact nofun

/-! ## Every step keeps it -/

theorem Inv.start (c : Config) : Inv c (World.start c) where
  agree := ⟨fun _ hp => (by cases hp), fun _ _ hs => (by simp [World.start] at hs)⟩
  pools := ⟨fun pool slot => by simp [World.start], fun _ hs => (by cases hs), fun _ _ _ _ hs => (by simp [World.start] at hs)⟩
  bars := ⟨List.Pairwise.nil, fun _ hb => (by cases hb)⟩
  probes := ⟨fun id => by simp [World.start], fun _ _ hs => (by cases hs)⟩
  checked := fun _ hp => by cases hp

variable {i k : Nat} {p p' : Phase} {s s' : Session}

theorem Inv.checked_set (h : Inv c w) (hc : p'.Checked) : ∀ p ∈ w.threads.set i p', p.Checked := by
  intro p hp
  rcases List.mem_or_eq_of_mem_set hp with hp | rfl
  · exact h.checked p hp
  · exact hc

theorem Inv.goOn (h : Inv c w) (hagree : Threads w.sup.sessions (w.threads.set i p')) (hc : p'.Checked) :
    Inv c (w.goOn i p') :=
  ⟨hagree, h.pools, h.bars, h.probes, h.checked_set hc⟩

/-- A request is refused, or goes on before it has a session. -/
theorem Inv.idle (h : Inv c w) (hp : w.threads[i]? = some p) (hidle : p.Idle) (hidle' : p'.Idle) (hc : p'.Checked) :
    Inv c (w.goOn i p') := by
  obtain ⟨h1, h2, h3⟩ := hidle
  obtain ⟨h1', h2', h3'⟩ := hidle'
  exact h.goOn (h.agree.goOn hp (by rw [h1, h1']) (.inr h3') (by rw [h2, h2'])
    (fun id s _ e => by rw [h1'] at e; cases e) fun s _ _ => by cases p' <;> simp_all [AskOk, Phase.asks]) hc

theorem Inv.answer (h : Inv c w) (hp : w.threads[i]? = some p) (hidle : p.Idle) (reply : Reply) :
    Inv c (w.answer i reply) := h.idle hp hidle ⟨rfl, rfl, rfl⟩ trivial

theorem Inv.put (h : Inv c w) (hs : w.session? k = some s) (hk : s.Kept s')
    (hagree : Threads (w.sup.sessions.set k s') (w.threads.set i p')) (hc : p'.Checked) :
    Inv c ((w.put k s').goOn i p') where
  agree := hagree
  pools := h.pools.keep hs hk
  bars := h.bars.keep hs hk.lastT
  probes := h.probes.put hs hk.pool hk.isProbe hk.released hk.ended
  checked := h.checked_set hc

variable {o : OpenCall}

theorem Inv.checkOpen (h : Inv c w) (hp : w.threads[i]? = some (.checkOpen o)) : Inv c (w.checkOpen c i o) := by
  have hidle : (Phase.checkOpen o).Idle := ⟨rfl, rfl, rfl⟩
  unfold World.checkOpen
  split_ifs with hprobe
  · exact h.answer hp hidle _
  · exact h.answer hp hidle _
  · exact h.answer hp hidle _
  · exact h.answer hp hidle _
  · refine h.idle hp hidle ⟨rfl, rfl, rfl⟩ fun hp => ?_
    simpa [hp] using hprobe

/-! ### A reservation -/

variable {v : Supervisor}
variable {rest : List Slot}

theorem PoolsOk.reserved (h : PoolsOk c v)
    (hfree : v.freeSlots o.pool = slot :: rest) (hholds : v.connectionHoldsSession o.connId = false) (probes : List Nat) :
    PoolsOk c { v with
      freeSlots := Function.update v.freeSlots o.pool rest
      sessions := v.sessions ++ [World.newSession o slot]
      probes := probes } := by
  have hnone : ∀ {id : Nat} {s : Session}, v.sessions[id]? = some s → s.inTable → s.connId ≠ o.connId := by
    intro id s hs hin he
    have := List.any_eq_false.mp hholds s (List.mem_of_getElem? hs)
    simp [hin, he] at this
  have hcases : ∀ {id : Nat} {s : Session}, (v.sessions ++ [World.newSession o slot])[id]? = some s →
      v.sessions[id]? = some s ∨ id = v.sessions.length ∧ s = World.newSession o slot := by
    intro id s hs
    rw [List.getElem?_append] at hs
    split at hs
    · exact .inl hs
    · rename_i hid
      have : id - v.sessions.length = 0 := by
        by_contra hne
        rw [List.getElem?_eq_none (by simp only [List.length_singleton]; omega)] at hs
        cases hs
      rw [this] at hs
      exact .inr ⟨by omega, (Option.some.inj hs).symm⟩
  constructor
  · intro pool slot'
    have hc := h.conserved pool slot'
    simp only [tally_append, tally_cons, tally_nil, Nat.add_zero]
    by_cases hpool : o.pool = pool
    · subst hpool
      rw [hfree, List.count_cons] at hc
      have hnew : held o.pool slot' (World.newSession o slot) = if slot = slot' then 1 else 0 := by
        simp [held, World.newSession]
      rw [Function.update_self, hnew]
      simp only [beq_iff_eq] at hc
      omega
    · have hnew : held pool slot' (World.newSession o slot) = 0 := by simp [held, World.newSession, hpool]
      rw [Function.update_of_ne (Ne.symm hpool), hnew]
      exact hc
  · intro s hs hpos hdirty
    rcases List.mem_append.mp hs with hs | hs
    · exact h.dirty s hs hpos hdirty
    · obtain rfl := List.mem_singleton.mp hs
      exact absurd hpos (by simp [World.newSession])
  · intro id id' s s' hs hs' hin hin' he
    rcases hcases hs with hs | ⟨rfl, rfl⟩ <;> rcases hcases hs' with hs' | ⟨rfl, rfl⟩
    · exact h.oneSession id id' s s' hs hs' hin hin' he
    · exact absurd he (hnone hs hin)
    · exact absurd he.symm (hnone hs' hin')
    · rfl

theorem BarsOk.append {S : List Session} {accepted : List Bar} (h : BarsOk S accepted) (s : Session) :
    BarsOk (S ++ [s]) accepted := by
  refine ⟨h.increasing, fun b hb => ?_⟩
  obtain ⟨s₁, last, hs₁, hlast, hle⟩ := h.recorded b hb
  have hid := (List.getElem?_eq_some_iff.mp hs₁).1
  exact ⟨s₁, last, by rw [List.getElem?_append_left hid, hs₁], hlast, hle⟩

theorem ProbesOk.reserved (h : ProbesOk v) (hprobe : o.isProbe = true → o.pool = .research)
    (hlive : o.isProbe = true → ∀ s ∈ v.sessions, s.pool = .live → s.child = .ended) (hnone : o.pool = .live → v.probes = []) :
    ProbesOk { v with
      freeSlots := Function.update v.freeSlots o.pool rest
      sessions := v.sessions ++ [World.newSession o slot]
      probes := if o.isProbe then v.sessions.length :: v.probes else v.probes } := by
  have hat : ∀ {id : Nat}, id ≠ v.sessions.length → (v.sessions ++ [World.newSession o slot])[id]? = v.sessions[id]? := by
    intro id hid
    rcases Nat.lt_or_gt_of_ne hid with hlt | hgt
    · exact List.getElem?_append_left hlt
    · rw [List.getElem?_eq_none (by simp; omega), List.getElem?_eq_none (by omega)]
  have hold : v.sessions.length ∉ v.probes := by
    intro hmem
    obtain ⟨s, hs, -⟩ := (h.listed _).mp hmem
    simp at hs
  constructor
  · intro id
    by_cases hid : id = v.sessions.length
    · subst hid
      by_cases hp : o.isProbe
      · simp [hp, World.newSession]
      · simp [hp, World.newSession, hold]
    · dsimp only
      rw [hat hid, ← h.listed id]
      by_cases hp : o.isProbe
      · simp [hp, hid]
      · simp [hp]
  · intro hne s hs hpool
    rcases List.mem_append.mp hs with hs | hs
    · by_cases hp : o.isProbe
      · exact hlive hp s hs hpool
      · exact h.apart (by simpa [hp] using hne) s hs hpool
    · obtain rfl := List.mem_singleton.mp hs
      have hpool : o.pool = .live := hpool
      by_cases hp : o.isProbe
      · rw [hprobe hp] at hpool
        cases hpool
      · simp [hp, hnone hpool] at hne

theorem Inv.reserve (h : Inv c w) (hp : w.threads[i]? = some (.reserve o))
    (halone : o.isProbe = true → ∀ s ∈ w.sup.sessions, s.pool = .live → s.inTable = false → s.child = .ended) :
    Inv c (w.reserve i o) := by
  have hidle : (Phase.reserve o).Idle := ⟨rfl, rfl, rfl⟩
  have hprobe : o.isProbe = true → o.pool = .research := h.checked _ (List.mem_of_getElem? hp)
  unfold World.reserve
  split_ifs with hholds hlive hrunning
  · exact h.answer hp hidle _
  · exact h.answer hp hidle _
  · exact h.answer hp hidle _
  · split
    · exact h.answer hp hidle _
    · rename_i slot rest hfree
      refine ⟨h.agree.reserved hp slot hprobe, h.pools.reserved hfree (by simpa using hholds) _, h.bars.append _,
        h.probes.reserved hprobe (fun hpr s hs hpool => ?_) (fun hpool => ?_), h.checked_set trivial⟩
      · refine halone hpr s hs hpool ?_
        by_contra hin
        refine hlive ?_
        simp only [hpr, Bool.true_and, Supervisor.liveInTable, List.any_eq_true]
        exact ⟨s, hs, by simp [hpool, hin]⟩
      · by_contra hne
        exact hrunning ⟨hpool, hne⟩

/-! ### Bars, closes and drops -/

variable {connId : Nat}

theorem openSession_some (h : v.openSession? connId id = some s) :
    v.sessions[id]? = some s ∧ s.inTable = true ∧ s.connId = connId ∧ s.handle.isSome = true := by
  obtain ⟨hs, hp⟩ := Option.filter_eq_some_iff.mp h
  simp only [Bool.and_eq_true, beq_iff_eq] at hp
  exact ⟨hs, hp.1.1, hp.1.2, hp.2⟩

theorem Inv.bar (h : Inv c w) {conid t : Int} (hp : w.threads[i]? = some (.bar connId id conid t)) :
    Inv c (w.bar i connId id conid t) := by
  have hidle : (Phase.bar connId id conid t).Idle := ⟨rfl, rfl, rfl⟩
  unfold World.bar
  split
  · exact h.answer hp hidle _
  · rename_i s hopen
    obtain ⟨hs, hin, -, hh⟩ := openSession_some hopen
    by_cases hbusy : s.busy
    · rw [if_pos hbusy]
      exact h.answer hp hidle _
    rw [if_neg hbusy]
    by_cases hconid : conid ∉ s.conids
    · rw [if_pos hconid]
      exact h.answer hp hidle _
    rw [if_neg hconid]
    split
    · exact h.answer hp hidle _
    · rename_i ht
      have hlater : s.Later conid t := by
        intro last hlast
        by_contra hle
        exact ht (by simpa [hlast] using hle)
      exact h.put hs ⟨rfl, rfl, rfl, rfl, rfl, rfl, fun e => e, fun e => e, fun _ => rfl⟩
        (h.agree.asks hp hs hin hh (by simpa using hbusy) hlater) trivial

theorem Inv.close (h : Inv c w) (hp : w.threads[i]? = some (.close connId id)) (hopen : w.sup.openSession? connId id = some s) :
    Inv c ((w.put id { s with inTable := false }).goOn i (.closing id (.answer .closed))) := by
  obtain ⟨hs, hin, -, hh⟩ := openSession_some hopen
  exact h.put hs ⟨rfl, rfl, rfl, rfl, rfl, rfl, fun _ => rfl, fun e => e, fun _ => rfl⟩
    (h.agree.takeOut hp hs rfl rfl hin hh _) trivial

theorem filter_range_eq_singleton {n k : Nat} {q : Nat → Bool} (hk : k < n) (hq : q k) (honly : ∀ j, q j → j = k) :
    (List.range n).filter q = [k] := by
  have hperm : ((List.range n).filter q).Perm [k] := by
    refine (List.perm_ext_iff_of_nodup (List.nodup_range.filter q) (List.nodup_singleton k)).mpr fun j => ?_
    simp only [List.mem_filter, List.mem_range, List.mem_singleton]
    exact ⟨fun h => honly j h.2, fun h => h ▸ ⟨hk, hq⟩⟩
  exact List.perm_singleton.mp hperm

theorem Inv.drop_cases (h : Inv c w) (i connId : Nat) :
    w.drop i connId = w.goOn i (.dropping []) ∨
    ∃ k s, w.session? k = some s ∧ s.inTable = true ∧
      w.drop i connId = (w.put k { s with inTable := false }).goOn i (.dropping [k]) := by
  by_cases hany : ∃ k s, w.session? k = some s ∧ s.inTable = true ∧ s.connId = connId
  · obtain ⟨k, s, hs, hin, hconn⟩ := hany
    have honly : ∀ (j : Nat) (x : Session), w.session? j = some x → x.inTable = true → x.connId = connId → j = k :=
      fun j x hx hxin hxc => h.pools.oneSession j k x s hx hs hxin hin (by rw [hxc, hconn])
    refine .inr ⟨k, s, hs, hin, ?_⟩
    have hids : w.sup.ofConnection connId = [k] := by
      refine filter_range_eq_singleton (List.getElem?_eq_some_iff.mp hs).1 ?_ fun j hj => ?_
      · rw [show w.sup.sessions[k]? = some s from hs]
        simp [hin, hconn]
      · obtain ⟨x, hx, hcond⟩ := Option.any_eq_true _ _ |>.mp hj
        simp only [Bool.and_eq_true, beq_iff_eq] at hcond
        exact honly j x hx hcond.1 hcond.2
    have hmap : (w.sup.sessions.map fun s => { s with inTable := s.inTable && !(s.connId == connId) })
        = w.sup.sessions.set k { s with inTable := false } := by
      refine List.ext_getElem? fun j => ?_
      rw [List.getElem?_map]
      by_cases hj : k = j
      · subst hj
        rw [List.getElem?_set_self (List.getElem?_eq_some_iff.mp hs).1, show w.sup.sessions[k]? = some s from hs]
        simp [hconn]
      · rw [List.getElem?_set_ne hj]
        cases hx : w.sup.sessions[j]? with
        | none => rfl
        | some x =>
          have : (x.inTable && !(x.connId == connId)) = x.inTable := by
            by_cases hxin : x.inTable
            · have hxc : x.connId ≠ connId := fun hxc => hj (honly j x hx hxin hxc).symm
              simp [hxin, hxc]
            · simp [hxin]
          simp [this]
    simp only [World.drop, World.goOn, World.put, Supervisor.put, hids, hmap]
  · refine .inl ?_
    have hids : w.sup.ofConnection connId = [] := by
      refine List.filter_eq_nil_iff.mpr fun j _ hj => ?_
      obtain ⟨x, hx, hcond⟩ := Option.any_eq_true _ _ |>.mp hj
      simp only [Bool.and_eq_true, beq_iff_eq] at hcond
      exact hany ⟨j, x, hx, hcond.1, hcond.2⟩
    have hmap : (w.sup.sessions.map fun s => { s with inTable := s.inTable && !(s.connId == connId) })
        = w.sup.sessions := by
      refine (List.map_congr_left fun x hx => ?_).trans (List.map_id _)
      obtain ⟨j, hj⟩ := List.mem_iff_getElem?.mp hx
      have : (x.inTable && !(x.connId == connId)) = x.inTable := by
        by_cases hxin : x.inTable
        · have hxc : x.connId ≠ connId := fun hxc => hany ⟨j, x, hj, hxin, hxc⟩
          simp [hxin, hxc]
        · simp [hxin]
      simp [this]
    simp only [World.drop, World.goOn, hids, hmap]

theorem Inv.drop (h : Inv c w) (hp : w.threads[i]? = some (.drop connId)) : Inv c (w.drop i connId) := by
  rcases h.drop_cases i connId with he | ⟨k, s, hs, hin, he⟩
  · rw [he]
    exact h.idle hp ⟨rfl, rfl, rfl⟩ ⟨rfl, rfl, rfl⟩ trivial
  · rw [he]
    exact h.put hs ⟨rfl, rfl, rfl, rfl, rfl, rfl, fun _ => rfl, fun e => e, fun _ => rfl⟩
      (h.agree.dropped hp hs hin) trivial

/-! ### A release -/

theorem PoolsOk.release (h : PoolsOk c w.sup) (hs : w.session? k = some s) (hr : s.released = 0) {clean : Bool}
    (hwiped : s.wiped = some clean) : PoolsOk c (w.release k s clean).sup := by
  have hget : w.sup.sessions[k]? = some s := hs
  constructor
  · intro pool slot
    have hc := h.conserved pool slot
    have hset := tally_set (f := held pool slot) hget { s with released := s.released + 1 }
    have hafter : held pool slot { s with released := s.released + 1 } = 0 := by simp [held]
    have hbefore : held pool slot s = if s.pool = pool ∧ s.slot = slot then 1 else 0 := by simp [held, hr]
    rw [hafter, hbefore] at hset
    cases clean with
    | true =>
      simp only [World.release, if_true]
      by_cases hpool : s.pool = pool
      · subst hpool
        rw [Function.update_self, List.count_append, List.count_singleton]
        simp only [true_and] at hset
        simp only [beq_iff_eq]
        omega
      · rw [Function.update_of_ne (Ne.symm hpool)]
        simp only [hpool, false_and, if_false] at hset
        omega
    | false =>
      simp only [World.release, Bool.false_eq_true, if_false]
      by_cases hpool : s.pool = pool
      · subst hpool
        rw [Function.update_self, List.count_append, List.count_singleton]
        simp only [true_and] at hset
        simp only [beq_iff_eq]
        omega
      · rw [Function.update_of_ne (Ne.symm hpool)]
        simp only [hpool, false_and, if_false] at hset
        omega
  · have hquar : ∀ pool slot, slot ∈ w.sup.quarantined pool → slot ∈ (w.release k s clean).sup.quarantined pool := by
      intro pool slot hmem
      cases clean with
      | true => exact hmem
      | false =>
        simp only [World.release, Bool.false_eq_true, if_false]
        by_cases hpool : pool = s.pool
        · subst hpool
          rw [Function.update_self]
          exact List.mem_append_left _ hmem
        · rwa [Function.update_of_ne hpool]
    intro x hx hpos hdirty
    rcases mem_set_cases hx with hx | rfl
    · exact hquar _ _ (h.dirty x hx hpos hdirty)
    · cases clean with
      | true => exact absurd hwiped hdirty
      | false =>
        simp only [World.release, Bool.false_eq_true, if_false, Function.update_self]
        exact List.mem_append_right _ (List.mem_singleton_self _)
  · exact oneSession_set hget rfl (fun e => e) h.oneSession

theorem ProbesOk.release (h : ProbesOk w.sup) (hs : w.session? k = some s) (clean : Bool) :
    ProbesOk (w.release k s clean).sup where
  listed := fun id => by
    have hget : w.sup.sessions[k]? = some s := hs
    simp only [World.release, List.mem_filter, h.listed id]
    by_cases hid : k = id
    · subst hid
      simp [List.getElem?_set_self (List.getElem?_eq_some_iff.mp hget).1]
    · simp [List.getElem?_set_ne hid, Ne.symm hid]
  apart := fun hne x hx hlive => by
    have hne' : w.sup.probes ≠ [] := fun he => hne (by simp [World.release, he])
    rcases mem_set_cases hx with hx | rfl
    · exact h.apart hne' x hx hlive
    · exact h.apart hne' s (List.mem_of_getElem? hs) hlive

theorem Inv.release (h : Inv c w) {clean : Bool} {next : Next} (hp : w.threads[i]? = some (.releasing k clean next))
    (hs : w.session? k = some s) : Inv c ((w.release k s clean).proceed i next) := by
  obtain ⟨s₁, hs₁, -, -, hwiped⟩ := (h.agree.thread _ (List.mem_of_getElem? hp)).holder k rfl
  rw [show w.sup.sessions[k]? = some s from hs] at hs₁
  cases hs₁
  have hr := h.agree.unreleased hp hs rfl
  have hpools := h.pools.release hs hr hwiped
  have hprobes := h.probes.release hs clean
  have hbars : BarsOk (w.release k s clean).sup.sessions w.accepted := h.bars.keep hs rfl
  cases next with
  | answer reply => exact ⟨h.agree.release hp hs rfl rfl rfl, hpools, hbars, hprobes, h.checked_set trivial⟩
  | drop rest => exact ⟨h.agree.release hp hs rfl rfl rfl, hpools, hbars, hprobes, h.checked_set trivial⟩

/-! ### Sessions at work -/

theorem Inv.working (h : Inv c w) (hp : w.threads[i]? = some p) (hs : w.session? k = some s) (hk : p.holds = some k)
    (hk' : p'.holds = some k) (hasks : p'.asks = none) (hpending : p'.pending = p.pending)
    (hframe : s' = { s with inTable := s'.inTable, child := s'.child, wiped := s'.wiped }) (hkept : s'.kept = s.kept)
    (hgone : s.inTable = false → s'.inTable = false) (hend : s.child = .ended → s'.child = .ended)
    (hok : HolderOk s' p') (hc : p'.Checked) : Inv c ((w.put k s').goOn i p') := by
  have hr := h.agree.unreleased hp hs hk
  exact h.put hs
    ⟨by rw [hframe], by rw [hframe], by rw [hframe], by rw [hframe], by rw [hframe], by rw [hframe], hgone, hend,
      fun hpos => absurd hpos (by omega)⟩
    (h.agree.working hp hs hk hk' hasks hpending hframe hkept hgone hok) hc

theorem Inv.onSession (h : Inv c w) (hp : w.threads[i]? = some p) (hk : p.session? = some k)
    (hs : w.session? k = some s) (a : Answer) : Inv c (w.onSession i k s a p) := by
  have hget : w.sup.sessions[k]? = some s := hs
  have hthread := h.agree.thread p (List.mem_of_getElem? hp)
  have hholder : p.holds = some k → HolderOk s p := by
    intro hold
    obtain ⟨s₁, hs₁, hok⟩ := hthread.holder k hold
    rw [hget] at hs₁
    cases hs₁
    exact hok
  have hasker : p.asks = some k → AskOk s p := by
    intro hask
    obtain ⟨s₁, hs₁, hok⟩ := hthread.asker k hask
    rw [hget] at hs₁
    cases hs₁
    exact hok
  cases p with
  | spawn id =>
    obtain rfl := Option.some.inj hk
    obtain ⟨hnone, hchild⟩ := hholder rfl
    dsimp only [World.onSession]
    split
    · exact h.working hp hs rfl rfl rfl rfl rfl rfl (fun e => e) (fun _ => rfl) ⟨hnone, rfl⟩ trivial
    · exact h.working hp hs rfl rfl rfl rfl rfl rfl (fun e => e) (fun e => by rw [hchild] at e; cases e) hnone trivial
  | loading id =>
    obtain rfl := Option.some.inj hk
    have hnone : s.handle = none := hholder rfl
    dsimp only [World.onSession]
    split
    · refine h.goOn (h.agree.goOn hp rfl (.inl rfl) rfl (fun id s _ _ e => e) fun s _ e => e) trivial
    · exact h.working hp hs rfl rfl rfl rfl rfl rfl (fun e => e) (fun _ => rfl) ⟨hnone, rfl⟩ trivial
  | spawned id handle =>
    obtain rfl := Option.some.inj hk
    dsimp only [World.onSession]
    split_ifs with hin
    · exact h.put hs ⟨rfl, rfl, rfl, rfl, rfl, rfl, fun e => e, fun e => e, fun _ => rfl⟩
        (h.agree.opened hp hs hin _) trivial
    · refine h.goOn (h.agree.goOn hp rfl (.inl rfl) rfl (fun id s₁ hs₁ hid _ => ?_) fun s _ _ => trivial) trivial
      obtain rfl := Option.some.inj hid
      rw [hget] at hs₁
      cases hs₁
      simpa [HolderOk] using hin
  | forget id reply =>
    obtain rfl := Option.some.inj hk
    obtain ⟨hnone, hchild⟩ := hholder rfl
    exact h.working hp hs rfl rfl rfl rfl rfl (by simp [Session.kept, hnone]) (fun _ => rfl) (fun e => e)
      ⟨rfl, hchild⟩ trivial
  | sending id conid t =>
    obtain rfl := Option.some.inj hk
    dsimp only [World.onSession]
    split
    · exact h.goOn (h.agree.goOn hp rfl (.inl rfl) rfl (fun id s _ e _ => by cases e) fun s _ e => e) trivial
    · exact h.goOn (h.agree.goOn hp rfl (.inl rfl) rfl (fun id s _ e _ => by cases e) fun s _ e => ⟨e.1, e.2.1⟩) trivial
  | answered id conid t payload =>
    obtain rfl := Option.some.inj hk
    obtain ⟨-, -, hlater⟩ := hasker rfl
    dsimp only [World.onSession]
    split_ifs with hin
    · exact
        { agree := h.agree.accepts hp hs hin _
          pools := h.pools.put hs rfl rfl rfl rfl (fun e => e) fun _ => rfl
          bars := h.bars.accept hs hlater
          probes := h.probes.put hs rfl rfl rfl fun e => e
          checked := h.checked_set trivial }
    · exact h.goOn (h.agree.goOn hp rfl (.inr rfl) rfl (fun id s _ e _ => by cases e) fun s e _ => by cases e) trivial
  | ending id reply =>
    obtain rfl := Option.some.inj hk
    obtain ⟨hh, -⟩ := hasker rfl
    dsimp only [World.onSession]
    split_ifs with hin
    · exact h.put hs ⟨rfl, rfl, rfl, rfl, rfl, rfl, fun _ => rfl, fun e => e, fun _ => rfl⟩
        (h.agree.takeOut hp hs rfl rfl hin hh _) trivial
    · exact h.goOn (h.agree.goOn hp rfl (.inr rfl) rfl (fun id s _ e _ => by cases e) fun s e _ => by cases e) trivial
  | closing id next =>
    obtain rfl := Option.some.inj hk
    exact h.working hp hs rfl rfl rfl rfl rfl rfl (fun e => e) (fun _ => rfl) ⟨hholder rfl, rfl⟩ trivial
  | wiping id next =>
    obtain rfl := Option.some.inj hk
    obtain ⟨hout, hchild⟩ := hholder rfl
    exact h.working hp hs rfl rfl rfl rfl rfl rfl (fun e => e) (fun e => e) ⟨hout, hchild, rfl⟩ trivial
  | releasing id clean next =>
    obtain rfl := Option.some.inj hk
    exact h.release hp hs
  | _ => cases hk

/-! ### All steps -/

theorem Inv.next (h : Inv c w) (hp : w.threads[i]? = some p) (a : Answer) (halone : Alone w (.next i a)) :
    Inv c (w.next c i a p) := by
  have hwork : ∀ id, p.session? = some id → Inv c (w.next c i a p) := by
    intro id hid
    rcases w.next_session c i a hid with hsame | ⟨s, hs, hworks⟩
    · rw [hsame]
      exact h
    · rw [hworks]
      exact h.onSession hp hid hs a
  cases p with
  | checkOpen o => exact h.checkOpen hp
  | readSource o =>
    dsimp only [World.next]
    split
    · exact h.answer hp ⟨rfl, rfl, rfl⟩ _
    · exact h.idle hp ⟨rfl, rfl, rfl⟩ ⟨rfl, rfl, rfl⟩ (h.checked (.readSource o) (List.mem_of_getElem? hp))
  | reserve o =>
    refine h.reserve hp fun hprobe => ?_
    simp only [Alone, hp] at halone
    exact halone hprobe
  | bar connId id conid t => exact h.bar hp
  | close connId id =>
    dsimp only [World.next]
    split
    · exact h.answer hp ⟨rfl, rfl, rfl⟩ _
    · exact h.close hp ‹_›
  | drop connId => exact h.drop hp
  | dropping rest =>
    cases rest with
    | nil => exact h.idle hp ⟨rfl, rfl, rfl⟩ ⟨rfl, rfl, rfl⟩ trivial
    | cons id rest =>
      obtain ⟨s, hs, -⟩ := (h.agree.thread _ (List.mem_of_getElem? hp)).pending id (by simp [Phase.pending])
      have hcomes := h.agree.comesTo hp hs
      dsimp only [World.next]
      rw [show w.session? id = some s from hs]
      simp only [Option.any_some]
      split_ifs with hh
      · exact h.goOn (by simpa only [hh, if_true] using hcomes) trivial
      · exact h.goOn (by simpa only [hh, Bool.false_eq_true, if_false] using hcomes) trivial
  | done reply => exact h
  | spawn id => exact hwork id rfl
  | loading id => exact hwork id rfl
  | spawned id handle => exact hwork id rfl
  | forget id reply => exact hwork id rfl
  | sending id conid t => exact hwork id rfl
  | answered id conid t payload => exact hwork id rfl
  | ending id reply => exact hwork id rfl
  | closing id next => exact hwork id rfl
  | wiping id next => exact hwork id rfl
  | releasing id clean next => exact hwork id rfl

theorem Inv.request (h : Inv c w) (hidle : p.Idle) (hc : p.Checked) : Inv c (w.request p) where
  agree := h.agree.request hidle
  pools := h.pools
  bars := h.bars
  probes := h.probes
  checked := fun q hq => by
    rcases List.mem_append.mp hq with hq | hq
    · exact h.checked q hq
    · obtain rfl := List.mem_singleton.mp hq
      exact hc

theorem Inv.childDies (h : Inv c w) (hs : w.session? k = some s) (halive : s.child = .alive) :
    Inv c (w.put k { s with child := .ended }) where
  agree := h.agree.childDies hs halive
  pools := h.pools.put hs rfl rfl rfl rfl (fun e => e) fun _ => rfl
  bars := h.bars.keep hs rfl
  probes := h.probes.put hs rfl rfl rfl fun _ => rfl
  checked := h.checked

theorem Inv.step (h : Inv c w) (act : Act) (halone : Alone w act) : Inv c (w.step c act) := by
  cases act with
  | openSession o => exact h.request ⟨rfl, rfl, rfl⟩ trivial
  | bar connId id conid t => exact h.request ⟨rfl, rfl, rfl⟩ trivial
  | close connId id => exact h.request ⟨rfl, rfl, rfl⟩ trivial
  | dropConnection connId => exact h.request ⟨rfl, rfl, rfl⟩ trivial
  | next i a =>
    dsimp only [World.step]
    cases hp : w.threads[i]? with
    | none => exact h
    | some p => exact h.next hp a halone
  | childDies id =>
    dsimp only [World.step]
    split
    · split_ifs with halive
      · exact h.childDies ‹_› halive
      · exact h
    · exact h

/-- **Slots are conserved, and probes run apart.**  In every run whose probe reservations find no live child on its
    way out, every state keeps the promise. -/
theorem slots_conserved (c : Config) (acts : List Act)
    (h : Meets (World.step c) Alone (World.start c) acts) (pre : List Act) (hpre : pre <+: acts) :
    Promise c ((World.start c).run c pre) :=
  ((h.of_prefix hpre).invariant (fun _ act hinv halone => hinv.step act halone) (Inv.start c)).promise

end

/-! ## Two runs -/

theorem full_fits (pool : PoolName) (n : Nat) (h : some (poolUids pool).length = some n) : n ≤ (poolUids pool).length :=
  Nat.le_of_eq (Option.some.inj h).symm

def fullPools : Config := ⟨fun pool => some (poolUids pool).length, full_fits⟩

/-- The outside does nothing unexpected. -/
def fine : Answer := ⟨none, none, .ok ⟨20⟩, .ok ⟨none, 0⟩, true⟩

/-- A request's thread takes `n` steps. -/
def steps (i n : Nat) : List Act := List.replicate n (.next i fine)

def openLive : List Act := .openSession ⟨.live, 0, [1], false⟩ :: steps 0 6

/-- A probe on another connection, until its child is there. -/
def openProbe : List Act := .openSession ⟨.research, 1, [1], true⟩ :: steps 2 5

/-- A live session is opened and closed, and a probe opened after the close is over. -/
theorem slots_conserved_in_turn :
    Promise fullPools ((World.start fullPools).run fullPools (openLive ++ .close 0 0 :: steps 1 4 ++ openProbe)) :=
  slots_conserved fullPools (openLive ++ .close 0 0 :: steps 1 4 ++ openProbe) (by decide +kernel) _ (List.prefix_refl _)

/-- The close took the live session out of the table, but its child is not killed yet when the probe is reserved: then
    the probe's child runs beside it. -/
theorem probe_beside_live :
    ¬ ∀ (c : Config) (acts pre : List Act), pre <+: acts → Promise c ((World.start c).run c pre) := by
  intro hall
  have hp := (hall fullPools _ (openLive ++ .close 0 0 :: steps 1 1 ++ openProbe) (List.prefix_refl _)).apart
  have hboth : (((World.start fullPools).run fullPools (openLive ++ .close 0 0 :: steps 1 1 ++ openProbe)).sup.sessions.map
      fun s => (s.isProbe, s.pool, s.child)) = [(false, .live, .alive), (true, .research, .alive)] := by decide +kernel
  generalize (World.start fullPools).run fullPools (openLive ++ .close 0 0 :: steps 1 1 ++ openProbe) = w at hp hboth
  obtain ⟨s', hs', he'⟩ := List.mem_map.mp (hboth ▸ List.mem_cons_self (a := (false, PoolName.live, Child.alive)))
  obtain ⟨s, hs, he⟩ := List.mem_map.mp
    (hboth ▸ List.mem_cons_of_mem _ (List.mem_singleton_self (true, PoolName.research, Child.alive)))
  simp only [Prod.mk.injEq] at he he'
  exact hp s hs s' hs' he.1 he.2.2 he'.2.1 he'.2.2

end MmrTrader.Sandbox
