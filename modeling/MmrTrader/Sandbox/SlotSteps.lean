import MmrTrader.Sandbox.SlotLaws

/-!
# The steps of the supervisor

* `Threads.goOn`, `Threads.write` — a thread goes on; it changes one session.
* `Threads.working`, `Threads.takeOut`, `Threads.opened`, `Threads.asks`, `Threads.accepts`, `Threads.release`,
  `Threads.dropped`, `Threads.reserved` — each kind of write.
-/

namespace MmrTrader.Sandbox

open Lib

section
variable {S : List Session} {T : List Phase} {i k : Nat} {p p' : Phase} {s s' : Session}
variable {id : Nat}

/-- A session that the step does not touch. -/
theorem Local.same (hduty : duty s.handle.isSome id p' = duty s.handle.isSome id p)
    (hasks : p'.asks = some id → p.asks = some id ∧ AskOk s p') (hgone : id ∈ p'.pending → s.inTable = false)
    (hholder : p'.holds = some id → HolderOk s p') : Local p p' id s s where
  opened := .inl rfl
  owned := by rw [hduty]
  asked := by
    by_cases h : p'.asks = some id
    · simp [asking, h, (hasks h).1]
    · simp [asking, h]
  settled := .inl
  stays := fun _ => ⟨rfl, rfl, rfl⟩
  isProbe := rfl
  pool := rfl
  gone := fun h => h
  holders := .inr fun _ h => h
  askers := .inr fun _ h => h
  holder := hholder
  asker := fun h => (hasks h).2
  pending := hgone

/-- A thread goes on without touching a session. -/
theorem Threads.goOn (h : Threads S T) (hp : T[i]? = some p) (hholds : p'.holds = p.holds)
    (hasks : p'.asks = p.asks ∨ p'.asks = none) (hpending : p'.pending = p.pending)
    (hholder : ∀ (id : Nat) (s : Session), S[id]? = some s → p'.holds = some id → HolderOk s p → HolderOk s p')
    (hasker : ∀ s, p'.asks = p.asks → AskOk s p → AskOk s p') : Threads S (T.set i p') := by
  have hold := h.thread p (List.mem_of_getElem? hp)
  refine h.move hp rfl (fun id hid => ?_) fun id s s' hs hs' => ?_
  · rw [hholds, hpending] at hid
    have hlt : ∀ {Q : Session → Prop}, (∃ s, S[id]? = some s ∧ Q s) → id < S.length := fun ⟨_, hs, _⟩ =>
      (List.getElem?_eq_some_iff.mp hs).1
    rcases hid with hid | hid | hid
    · exact hlt (hold.holder id hid)
    · exact hlt (hold.pending id hid)
    · rcases hasks with hasks | hasks
      · exact hlt (hold.asker id (hasks ▸ hid))
      · rw [hasks] at hid
        cases hid
  · rw [hs] at hs'
    cases hs'
    have at_ : ∀ {Q : Session → Prop}, (∃ s, S[id]? = some s ∧ Q s) → Q s := by
      rintro Q ⟨s₁, hs₁, hQ⟩
      rw [hs] at hs₁
      cases hs₁
      exact hQ
    refine Local.same (by simp only [duty, hholds, hpending]) (fun hid => ?_)
      (fun hid => at_ (hold.pending id (hpending ▸ hid)))
      fun hid => hholder id s hs hid (at_ (hold.holder id (hholds ▸ hid)))
    rcases hasks with hasks | hasks
    · exact ⟨hasks ▸ hid, hasker s hasks (at_ (hold.asker id (hasks ▸ hid)))⟩
    · rw [hasks] at hid
      cases hid

/-- A step changes the session `k` alone, which alone its thread is about. -/
theorem Threads.write (h : Threads S T) (hp : T[i]? = some p) (hs : S[k]? = some s)
    (hholds : ∀ id, p'.holds = some id ∨ p.holds = some id ∨ p'.asks = some id → id = k)
    (hpending : ∀ id, id ∈ p'.pending → id = k ∨ id ∈ p.pending)
    (hcount : ∀ id ≠ k, p'.pending.count id = p.pending.count id) (hl : Local p p' k s s') :
    Threads (S.set k s') (T.set i p') := by
  have hk : k < S.length := (List.getElem?_eq_some_iff.mp hs).1
  have hold := h.thread p (List.mem_of_getElem? hp)
  refine h.move hp (List.length_set ..) (fun id hid => ?_) fun id s₁ s₁' hs₁ hs₁' => ?_
  · rcases hid with hid | hid | hid
    · exact hholds id (.inl hid) ▸ hk
    · rcases hpending id hid with rfl | hid
      · exact hk
      · obtain ⟨s₁, hs₁, -⟩ := hold.pending id hid
        exact (List.getElem?_eq_some_iff.mp hs₁).1
    · exact hholds id (.inr (.inr hid)) ▸ hk
  · by_cases hid : id = k
    · subst hid
      rw [hs] at hs₁
      rw [List.getElem?_set_self hk] at hs₁'
      cases hs₁
      cases hs₁'
      exact hl
    · rw [List.getElem?_set_ne (Ne.symm hid), hs₁] at hs₁'
      cases hs₁'
      have h1 : p'.holds ≠ some id := fun e => hid (hholds id (.inl e))
      have h2 : p.holds ≠ some id := fun e => hid (hholds id (.inr (.inl e)))
      refine Local.same (by simp only [duty, h1, h2, if_false, hcount id hid])
        (fun e => absurd (hholds id (.inr (.inr e))) hid) (fun hmem => ?_) fun e => absurd e h1
      obtain ⟨s₂, hs₂, hgone⟩ := hold.pending id ((hpending id hmem).resolve_left hid)
      rw [hs₁] at hs₂
      cases hs₂
      exact hgone

/-! ## The kinds of write -/

variable {q : Phase}

theorem AskOk.congr (h : AskOk s q) (hh : s'.handle = s.handle) (hb : s'.busy = s.busy)
    (hl : s'.lastT = s.lastT) : AskOk s' q := by
  unfold AskOk Session.Later at *
  simpa only [hh, hb, hl] using h

theorem Threads.unreleased (h : Threads S T) (hp : T[i]? = some p) (hs : S[k]? = some s) (hk : p.holds = some k) :
    s.released = 0 := by
  have := (h.session k s hs).owned
  have := le_tally (f := duty s.handle.isSome k) hp
  have := duty_of_holds s.handle.isSome hk
  omega

theorem Threads.inTable_unreleased (h : Threads S T) (hs : S[k]? = some s) (hin : s.inTable = true) :
    s.released = 0 := by
  by_contra hr
  obtain ⟨hout, -⟩ := (h.session k s hs).settled (Nat.pos_of_ne_zero hr)
  rw [hin] at hout
  cases hout

theorem Threads.pending_gone (h : Threads S T) (hp : T[i]? = some p) (hs : S[k]? = some s) (hk : k ∈ p.pending) :
    s.inTable = false := by
  obtain ⟨s₁, hs₁, hgone⟩ := (h.thread p (List.mem_of_getElem? hp)).pending k hk
  rw [hs] at hs₁
  cases hs₁
  exact hgone

section
-- the equations of what a thread owes, which every step below unfolds
attribute [local simp] duty asking Phase.holds Session.kept Phase.pending Phase.asks HolderOk AskOk Next.rest
end

/-- The thread that opens or finishes a session takes a step with it. -/
theorem Threads.working (h : Threads S T) (hp : T[i]? = some p) (hs : S[k]? = some s) (hk : p.holds = some k)
    (hk' : p'.holds = some k) (hasks : p'.asks = none) (hpending : p'.pending = p.pending)
    (hframe : s' = { s with inTable := s'.inTable, child := s'.child, wiped := s'.wiped }) (hkept : s'.kept = s.kept)
    (hgone : s.inTable = false → s'.inTable = false) (hok : HolderOk s' p') : Threads (S.set k s') (T.set i p') := by
  have hr := h.unreleased hp hs hk
  have hh : s'.handle = s.handle := by rw [hframe]
  have hb : s'.busy = s.busy := by rw [hframe]
  have hl : s'.lastT = s.lastT := by rw [hframe]
  have hr' : s'.released = s.released := by rw [hframe]
  refine h.write hp hs (fun id hid => ?_) (fun id hid => .inr (hpending ▸ hid)) (fun id _ => by rw [hpending]) ?_
  · rw [hk, hk', hasks] at hid
    rcases hid with e | e | e
    · exact (Option.some.inj e).symm
    · exact (Option.some.inj e).symm
    · cases e
  · exact
      { opened := .inl (by rw [hh])
        owned := by rw [hr', hkept, hh]; simp only [duty, hk, hk', hpending]
        asked := by simp [asking, hasks, hb]
        settled := fun hpos => absurd (hr' ▸ hpos) (by omega)
        stays := fun hpos => absurd hpos (by omega)
        isProbe := by rw [hframe]
        pool := by rw [hframe]
        gone := hgone
        holders := .inl hk
        askers := .inr fun q hq => hq.congr hh hb hl
        holder := fun _ => hok
        asker := fun e => by rw [hasks] at e; cases e
        pending := fun hmem => hgone (h.pending_gone hp hs (hpending ▸ hmem)) }

theorem Threads.takeOut (h : Threads S T) (hp : T[i]? = some p) (hs : S[k]? = some s) (hholds : p.holds = none)
    (hpending : p.pending = []) (hin : s.inTable = true) (hh : s.handle.isSome) (reply : Reply) :
    Threads (S.set k { s with inTable := false }) (T.set i (.closing k (.answer reply))) := by
  have hr := h.inTable_unreleased hs hin
  refine h.write hp hs (fun id hid => ?_) (fun id hid => by cases hid) (fun id _ => by rw [hpending]; rfl) ?_
  · rw [hholds] at hid
    rcases hid with e | e | e
    · exact (Option.some.inj e).symm
    · cases e
    · cases e
  · exact
      { opened := .inl rfl
        owned := by
          have hduty : duty s.handle.isSome k p = 0 := by simp [duty, hholds, hpending]
          rw [hduty]
          simp [duty, Phase.holds, Phase.pending, Next.rest, Session.kept, hin, hh]
        asked := by simp [asking, Phase.asks]
        settled := fun hpos => absurd hpos (by simp [hr])
        stays := fun hpos => absurd hpos (by omega)
        isProbe := rfl
        pool := rfl
        gone := fun _ => rfl
        holders := .inr fun q hq => by cases q <;> simp_all [HolderOk]
        askers := .inr fun q hq => hq.congr rfl rfl rfl
        holder := fun _ => rfl
        asker := fun e => by cases e
        pending := fun _ => rfl }

theorem Threads.opened {handle : ChildHandle} (h : Threads S T) (hp : T[i]? = some (.spawned k handle))
    (hs : S[k]? = some s) (hin : s.inTable = true) (reply : Reply) :
    Threads (S.set k { s with handle := some handle }) (T.set i (.done (some reply))) := by
  have hr := h.inTable_unreleased hs hin
  obtain ⟨s₁, hs₁, hnone : s₁.handle = none⟩ := (h.thread _ (List.mem_of_getElem? hp)).holder k rfl
  rw [hs] at hs₁
  cases hs₁
  refine h.write hp hs (fun id hid => ?_) (fun id hid => by cases hid) (fun id _ => rfl) ?_
  · rcases hid with e | e | e
    · cases e
    · exact (Option.some.inj e).symm
    · cases e
  · exact
      { opened := .inr hin
        owned := by simp [duty, Phase.holds, Phase.pending, Session.kept, hin, hnone]
        asked := by simp [asking, Phase.asks]
        settled := fun hpos => absurd hpos (by simp [hr])
        stays := fun hpos => absurd hpos (by omega)
        isProbe := rfl
        pool := rfl
        gone := fun e => e
        holders := .inl rfl
        askers := .inr fun q hq => by cases q <;> simp_all [AskOk, Session.Later]
        holder := fun e => by cases e
        asker := fun e => by cases e
        pending := fun hmem => by cases hmem }

variable {connId : Nat} {conid t : Int}

theorem Threads.asks (h : Threads S T) (hp : T[i]? = some (.bar connId k conid t))
    (hs : S[k]? = some s) (hin : s.inTable = true) (hh : s.handle.isSome) (hbusy : s.busy = false)
    (hlater : s.Later conid t) : Threads (S.set k { s with busy := true }) (T.set i (.sending k conid t)) := by
  have hr := h.inTable_unreleased hs hin
  refine h.write hp hs (fun id hid => ?_) (fun id hid => by cases hid) (fun id _ => rfl) ?_
  · rcases hid with e | e | e
    · cases e
    · cases e
    · exact (Option.some.inj e).symm
  · exact
      { opened := .inl rfl
        owned := by simp [duty, Phase.holds, Phase.pending, Session.kept]
        asked := by simp [asking, Phase.asks, hbusy]
        settled := .inl
        stays := fun _ => ⟨rfl, rfl, rfl⟩
        isProbe := rfl
        pool := rfl
        gone := fun e => e
        holders := .inr fun q hq => by cases q <;> simp_all [HolderOk]
        askers := .inr fun q hq => by cases q <;> simp_all [AskOk]
        holder := fun e => by cases e
        asker := fun _ => ⟨hh, rfl, hlater⟩
        pending := fun hmem => by cases hmem }

theorem Threads.accepts {payload : Signal} (h : Threads S T)
    (hp : T[i]? = some (.answered k conid t payload)) (hs : S[k]? = some s) (hin : s.inTable = true) (reply : Reply) :
    Threads (S.set k { s with lastT := Function.update s.lastT conid (some t), busy := false })
      (T.set i (.done (some reply))) := by
  have hr := h.inTable_unreleased hs hin
  refine h.write hp hs (fun id hid => ?_) (fun id hid => by cases hid) (fun id _ => rfl) ?_
  · rcases hid with e | e | e
    · cases e
    · cases e
    · cases e
  · exact
      { opened := .inl rfl
        owned := by simp [duty, Phase.holds, Phase.pending, Session.kept]
        asked := by simpa [asking, Phase.asks] using Bool.toNat_le s.busy
        settled := .inl
        stays := fun _ => ⟨rfl, rfl, rfl⟩
        isProbe := rfl
        pool := rfl
        gone := fun e => e
        holders := .inr fun q hq => by cases q <;> simp_all [HolderOk]
        askers := .inl rfl
        holder := fun e => by cases e
        asker := fun e => by cases e
        pending := fun hmem => by cases hmem }

/-- The slot of a finished session is given back. -/
theorem Threads.release {clean : Bool} {next : Next} (h : Threads S T) (hp : T[i]? = some (.releasing k clean next))
    (hs : S[k]? = some s) (hholds : p'.holds = none) (hasks : p'.asks = none) (hpending : p'.pending = next.rest) :
    Threads (S.set k { s with released := s.released + 1 }) (T.set i p') := by
  obtain ⟨s₁, hs₁, hout, hchild, hwiped⟩ := (h.thread _ (List.mem_of_getElem? hp)).holder k rfl
  rw [hs] at hs₁
  cases hs₁
  have hpend : p'.pending = (Phase.releasing k clean next).pending := hpending
  refine h.write hp hs (fun id hid => ?_) (fun id hid => .inr (hpend ▸ hid)) (fun id _ => by rw [hpend]) ?_
  · rw [hholds, hasks] at hid
    rcases hid with e | e | e
    · cases e
    · exact (Option.some.inj e).symm
    · cases e
  · exact
      { opened := .inl rfl
        owned := by
          have hduty : duty s.handle.isSome k p' + 1 = duty s.handle.isSome k (.releasing k clean next) := by
            simp only [duty, hholds, hpend]
            simp [Phase.holds, Nat.add_comm]
          simp only [Session.kept, ← hduty]
          omega
        asked := by simp [asking, hasks]
        settled := fun _ => .inr ⟨hout, hchild, by simp [hwiped]⟩
        stays := fun _ => ⟨rfl, rfl, rfl⟩
        isProbe := rfl
        pool := rfl
        gone := fun e => e
        holders := .inl rfl
        askers := .inr fun q hq => hq.congr rfl rfl rfl
        holder := fun e => by rw [hholds] at e; cases e
        asker := fun e => by rw [hasks] at e; cases e
        pending := fun _ => hout }

theorem Threads.dropped (h : Threads S T) (hp : T[i]? = some (.drop connId)) (hs : S[k]? = some s)
    (hin : s.inTable = true) : Threads (S.set k { s with inTable := false }) (T.set i (.dropping [k])) := by
  have hr := h.inTable_unreleased hs hin
  refine h.write hp hs (fun id hid => ?_) (fun id hid => .inl (by simpa [Phase.pending] using hid)) (fun id hid => ?_) ?_
  · rcases hid with e | e | e
    · cases e
    · cases e
    · cases e
  · simp [Phase.pending, Ne.symm hid]
  · exact
      { opened := .inl rfl
        owned := by simp [duty, Phase.holds, Phase.pending, Session.kept, hin]
        asked := by simp [asking, Phase.asks]
        settled := fun hpos => absurd hpos (by simp [hr])
        stays := fun hpos => absurd hpos (by omega)
        isProbe := rfl
        pool := rfl
        gone := fun _ => rfl
        holders := .inr fun q hq => by cases q <;> simp_all [HolderOk]
        askers := .inr fun q hq => hq.congr rfl rfl rfl
        holder := fun e => by cases e
        asker := fun e => by cases e
        pending := fun _ => rfl }

theorem Threads.comesTo {rest : List Nat} (h : Threads S T) (hp : T[i]? = some (.dropping (k :: rest)))
    (hs : S[k]? = some s) :
    Threads S (T.set i (if s.handle.isSome then .closing k (.drop rest) else .dropping rest)) := by
  have hgone : s.inTable = false := h.pending_gone hp hs (by simp [Phase.pending])
  have hset : S.set k s = S := by
    obtain ⟨hk, rfl⟩ := List.getElem?_eq_some_iff.mp hs
    exact List.set_getElem_self hk
  refine (congrArg (Threads · _) hset).mp (h.write hp hs (fun id hid => ?_) (fun id hid => ?_) (fun id hid => ?_) ?_)
  · split at hid <;> simp_all [Phase.holds, Phase.asks]
  · right
    split at hid
    · exact List.mem_cons_of_mem _ hid
    · exact List.mem_cons_of_mem _ hid
  · split <;> simp [Phase.pending, Next.rest, Ne.symm hid]
  · refine Local.same ?_ (fun e => ?_) (fun _ => hgone) fun e => ?_
    · split
      · rename_i hh
        simp [duty, Phase.holds, Phase.pending, Next.rest, hh, Nat.add_comm]
      · rename_i hh
        simp [duty, Phase.holds, hh]
    · split at e <;> cases e
    · split at e
      · simp [HolderOk, *]
      · cases e

/-! ## New sessions and new requests -/

theorem ThreadOk.duty_eq_zero (h : ThreadOk S q) {opened : Bool} (hid : S.length ≤ id) : duty opened id q = 0 := by
  have hlt : ∀ {Q : Session → Prop}, (∃ s, S[id]? = some s ∧ Q s) → False := by
    rintro Q ⟨s, hs, -⟩
    rw [List.getElem?_eq_none hid] at hs
    cases hs
  have h1 : q.holds ≠ some id := fun e => hlt (h.holder id e)
  have h2 : q.pending.count id = 0 := List.count_eq_zero.mpr fun hmem => hlt (h.pending id hmem)
  simp [duty, h1, h2]

theorem ThreadOk.asking_eq_zero (h : ThreadOk S q) (hid : S.length ≤ id) : asking id q = 0 := by
  have h1 : q.asks ≠ some id := by
    intro e
    obtain ⟨s, hs, -⟩ := h.asker id e
    rw [List.getElem?_eq_none hid] at hs
    cases hs
  simp [asking, h1]

theorem ThreadOk.append (h : ThreadOk S q) (s : Session) : ThreadOk (S ++ [s]) q := by
  have hold : ∀ {id : Nat} {Q : Session → Prop}, (∃ s₁, S[id]? = some s₁ ∧ Q s₁) →
      ∃ s₁, (S ++ [s])[id]? = some s₁ ∧ Q s₁ := by
    rintro id Q ⟨s₁, hs₁, hQ⟩
    have hid := (List.getElem?_eq_some_iff.mp hs₁).1
    exact ⟨s₁, by rw [List.getElem?_append_left hid, hs₁], hQ⟩
  exact ⟨fun id e => hold (h.holder id e), fun id e => hold (h.pending id e), fun id e => hold (h.asker id e)⟩

theorem Threads.reserved {o : OpenCall} (h : Threads S T) (hp : T[i]? = some (.reserve o)) (slot : Slot)
    (hprobe : o.isProbe = true → o.pool = .research) :
    Threads (S ++ [World.newSession o slot]) (T.set i (.spawn S.length)) := by
  constructor
  · intro q hq
    obtain rfl | hq := (List.mem_or_eq_of_mem_set hq).symm
    · refine ⟨fun id e => ?_, fun id e => (by cases e), fun id e => (by cases e)⟩
      obtain rfl := Option.some.inj e
      exact ⟨_, List.getElem?_concat_length, rfl, rfl⟩
    · exact (h.thread q hq).append _
  · intro id s hs
    rcases Nat.lt_trichotomy id S.length with hid | rfl | hid
    · rw [List.getElem?_append_left hid] at hs
      obtain ⟨ho, ha, hset, hres⟩ := h.session id s hs
      have h1 := tally_set (f := duty s.handle.isSome id) hp (.spawn S.length)
      have h2 := tally_set (f := asking id) hp (.spawn S.length)
      have hne : S.length ≠ id := by omega
      simp only [duty, asking, Phase.holds, Phase.pending, Phase.asks, List.count_nil, Option.some.injEq, hne,
        reduceCtorEq, if_false, ite_self, Nat.add_zero] at h1 h2
      refine ⟨?_, ?_, hset, hres⟩
      · rw [← ho, ← h1]
      · rw [← h2] at ha
        exact ha
    · obtain rfl : World.newSession o slot = s := by simpa using hs
      have h1 := tally_set (f := duty false S.length) hp (.spawn S.length)
      have h2 := tally_set (f := asking S.length) hp (.spawn S.length)
      rw [tally_eq_zero fun q hq => (h.thread q hq).duty_eq_zero (Nat.le_refl _)] at h1
      rw [tally_eq_zero fun q hq => (h.thread q hq).asking_eq_zero (Nat.le_refl _)] at h2
      refine ⟨?_, ?_, fun hpos => absurd hpos (by simp [World.newSession]), hprobe⟩
      · simp only [World.newSession, Session.kept, Option.isSome_none, Bool.and_false, Bool.false_eq_true, if_false]
        simp only [duty, Phase.holds, Phase.pending, if_true] at h1
        simp at h1 ⊢
        exact h1
      · simp only [asking, Phase.asks, reduceCtorEq, if_false] at h2
        simp only [World.newSession, Bool.toNat_false]
        omega
    · rw [List.getElem?_eq_none (by simp; omega)] at hs
      cases hs

/-- A thread that has not come to a session. -/
def Phase.Idle (p : Phase) : Prop := p.holds = none ∧ p.pending = [] ∧ p.asks = none

theorem Threads.request (h : Threads S T) (hidle : p.Idle) : Threads S (T ++ [p]) := by
  obtain ⟨hholds, hpending, hasks⟩ := hidle
  constructor
  · intro q hq
    rcases List.mem_append.mp hq with hq | hq
    · exact h.thread q hq
    · obtain rfl := List.mem_singleton.mp hq
      exact ⟨fun id e => by simp [hholds] at e, fun id e => by simp [hpending] at e, fun id e => by simp [hasks] at e⟩
  · intro id s hs
    obtain ⟨ho, ha, hset, hres⟩ := h.session id s hs
    exact ⟨by simpa [duty, hholds, hpending] using ho, by simpa [asking, hasks] using ha, hset, hres⟩

theorem Threads.childDies (h : Threads S T) (hs : S[k]? = some s) (halive : s.child = .alive) :
    Threads (S.set k { s with child := .ended }) T := by
  have hk : k < S.length := (List.getElem?_eq_some_iff.mp hs).1
  have hat : ∀ {id : Nat} {Q R : Session → Prop}, (∃ s₁, S[id]? = some s₁ ∧ Q s₁) →
      (∀ s₁, Q s₁ → R s₁) → (Q s → R { s with child := .ended }) →
      ∃ s₁, (S.set k { s with child := .ended })[id]? = some s₁ ∧ R s₁ := by
    rintro id Q R ⟨s₁, hs₁, hQ⟩ hR hR'
    by_cases hid : k = id
    · subst hid
      rw [hs] at hs₁
      cases hs₁
      exact ⟨_, List.getElem?_set_self hk, hR' hQ⟩
    · exact ⟨s₁, by rw [List.getElem?_set_ne hid, hs₁], hR s₁ hQ⟩
  constructor
  · intro q hq
    obtain ⟨hh, hpend, hask⟩ := h.thread q hq
    exact ⟨fun id e => hat (hh id e) (fun _ hok => hok) fun hok => by cases q <;> simp_all [HolderOk],
      fun id e => hat (hpend id e) (fun _ hok => hok) fun hok => hok,
      fun id e => hat (hask id e) (fun _ hok => hok) fun hok => hok.congr rfl rfl rfl⟩
  · intro id s₁ hs₁
    by_cases hid : k = id
    · subst hid
      obtain rfl : { s with child := .ended } = s₁ := by simpa [List.getElem?_set_self hk] using hs₁
      obtain ⟨ho, ha, hset, hres⟩ := h.session k s hs
      exact ⟨ho, ha, fun hpos => ⟨(hset hpos).1, rfl, (hset hpos).2.2⟩, hres⟩
    · rw [List.getElem?_set_ne hid] at hs₁
      exact h.session id s₁ hs₁

end

/-! ## The other tables -/

/-- What only a reservation, an accepted bar and a release change. -/
structure Session.Kept (s s' : Session) : Prop where
  pool : s'.pool = s.pool
  connId : s'.connId = s.connId
  slot : s'.slot = s.slot
  isProbe : s'.isProbe = s.isProbe
  released : s'.released = s.released
  lastT : s'.lastT = s.lastT
  gone : s.inTable = false → s'.inTable = false
  ended : s.child = .ended → s'.child = .ended
  wiped : 0 < s.released → s'.wiped = s.wiped

section
variable {c : Config} {v : Supervisor} {k : Nat} {s s' : Session}

theorem mem_set_cases {S : List Session} {x : Session} (h : x ∈ S.set k s') : x ∈ S ∨ x = s' :=
  List.mem_or_eq_of_mem_set h

theorem oneSession_set {S : List Session} (hs : S[k]? = some s) (hconn : s'.connId = s.connId)
    (hgone : s.inTable = false → s'.inTable = false)
    (hone : ∀ (id id' : Nat) (s s' : Session), S[id]? = some s → S[id']? = some s' → s.inTable → s'.inTable →
      s.connId = s'.connId → id = id') :
    ∀ (id id' : Nat) (s₁ s₂ : Session), (S.set k s')[id]? = some s₁ → (S.set k s')[id']? = some s₂ → s₁.inTable →
      s₂.inTable → s₁.connId = s₂.connId → id = id' := by
  have hback : ∀ {id : Nat} {s₁ : Session}, (S.set k s')[id]? = some s₁ → s₁.inTable →
      ∃ s₀, S[id]? = some s₀ ∧ s₀.inTable ∧ s₀.connId = s₁.connId := by
    intro id s₁ hs₁ hin
    by_cases hid : k = id
    · subst hid
      obtain rfl : s' = s₁ := by simpa [List.getElem?_set_self (List.getElem?_eq_some_iff.mp hs).1] using hs₁
      refine ⟨s, hs, ?_, hconn.symm⟩
      by_contra hout
      rw [hgone (by simpa using hout)] at hin
      cases hin
    · exact ⟨s₁, by rwa [List.getElem?_set_ne hid] at hs₁, hin, rfl⟩
  intro id id' s₁ s₂ hs₁ hs₂ hin₁ hin₂ he
  obtain ⟨t₁, ht₁, hin₁, he₁⟩ := hback hs₁ hin₁
  obtain ⟨t₂, ht₂, hin₂, he₂⟩ := hback hs₂ hin₂
  exact hone id id' t₁ t₂ ht₁ ht₂ hin₁ hin₂ (by rw [he₁, he₂, he])

theorem held_congr {pool : PoolName} {slot : Slot} (hpool : s'.pool = s.pool) (hslot : s'.slot = s.slot)
    (hr : s'.released = s.released) : held pool slot s' = held pool slot s := by
  simp only [held, hpool, hslot, hr]

theorem tally_held_set {S : List Session} (hs : S[k]? = some s) (hpool : s'.pool = s.pool) (hslot : s'.slot = s.slot)
    (hr : s'.released = s.released) (pool : PoolName) (slot : Slot) :
    tally (held pool slot) (S.set k s') = tally (held pool slot) S := by
  have h := tally_set (f := held pool slot) hs s'
  rw [held_congr hpool hslot hr] at h
  omega

theorem PoolsOk.put (h : PoolsOk c v) (hs : v.sessions[k]? = some s) (hpool : s'.pool = s.pool)
    (hslot : s'.slot = s.slot) (hr : s'.released = s.released) (hconn : s'.connId = s.connId)
    (hgone : s.inTable = false → s'.inTable = false) (hwiped : 0 < s.released → s'.wiped = s.wiped) :
    PoolsOk c (v.put k s') where
  conserved := fun pool slot => by
    rw [← h.conserved pool slot]
    exact congrArg _ (tally_held_set hs hpool hslot hr pool slot)
  dirty := fun x hx hpos hclean => by
    rcases mem_set_cases hx with hx | rfl
    · exact h.dirty x hx hpos hclean
    · rw [hr] at hpos
      rw [hwiped hpos] at hclean
      have := h.dirty s (List.mem_of_getElem? hs) hpos hclean
      rw [hpool, hslot]
      exact this
  oneSession := oneSession_set hs hconn hgone h.oneSession

theorem PoolsOk.keep (h : PoolsOk c v) (hs : v.sessions[k]? = some s) (hk : s.Kept s') : PoolsOk c (v.put k s') :=
  h.put hs hk.pool hk.slot hk.released hk.connId hk.gone hk.wiped

variable {accepted : List Bar}

theorem BarsOk.keep {S : List Session} (h : BarsOk S accepted) (hs : S[k]? = some s)
    (hl : s'.lastT = s.lastT) : BarsOk (S.set k s') accepted := by
  refine ⟨h.increasing, fun b hb => ?_⟩
  obtain ⟨s₁, last, hs₁, hlast, hle⟩ := h.recorded b hb
  by_cases hid : k = b.session
  · subst hid
    rw [hs] at hs₁
    cases hs₁
    exact ⟨s', last, List.getElem?_set_self (List.getElem?_eq_some_iff.mp hs).1, by rw [hl, hlast], hle⟩
  · exact ⟨s₁, last, by rw [List.getElem?_set_ne hid, hs₁], hlast, hle⟩

theorem BarsOk.accept {S : List Session} (h : BarsOk S accepted) (hs : S[k]? = some s)
    {conid t : Int} (hlater : s.Later conid t) :
    BarsOk (S.set k { s with lastT := Function.update s.lastT conid (some t), busy := false })
      (accepted ++ [⟨k, conid, t⟩]) := by
  have hk := (List.getElem?_eq_some_iff.mp hs).1
  have hbefore : ∀ b ∈ accepted, b.session = k → b.conid = conid → b.t < t := by
    rintro b hb rfl rfl
    obtain ⟨s₁, last, hs₁, hlast, hle⟩ := h.recorded b hb
    rw [hs] at hs₁
    cases hs₁
    have := hlater last hlast
    omega
  constructor
  · rw [List.pairwise_append]
    refine ⟨h.increasing, List.pairwise_singleton _ _, fun a ha b hb hse hco => ?_⟩
    obtain rfl := List.mem_singleton.mp hb
    exact hbefore a ha hse hco
  · intro b hb
    rcases List.mem_append.mp hb with hb' | hb
    · obtain ⟨s₁, last, hs₁, hlast, hle⟩ := h.recorded b hb'
      by_cases hid : k = b.session
      · subst hid
        rw [hs] at hs₁
        cases hs₁
        by_cases hc : b.conid = conid
        · subst hc
          exact ⟨_, t, List.getElem?_set_self hk, by simp, Int.le_of_lt (hbefore b hb' rfl rfl)⟩
        · exact ⟨_, last, List.getElem?_set_self hk, by simp [Function.update_of_ne hc, hlast], hle⟩
      · exact ⟨s₁, last, by rw [List.getElem?_set_ne hid, hs₁], hlast, hle⟩
    · obtain rfl := List.mem_singleton.mp hb
      exact ⟨_, t, List.getElem?_set_self hk, by simp, Int.le_refl _⟩

theorem ProbesOk.put (h : ProbesOk v) (hs : v.sessions[k]? = some s) (hpool : s'.pool = s.pool)
    (hprobe : s'.isProbe = s.isProbe) (hr : s'.released = s.released) (hend : s.child = .ended → s'.child = .ended) :
    ProbesOk (v.put k s') where
  listed := fun id => by
    rw [show (v.put k s').probes = v.probes from rfl, h.listed id]
    by_cases hid : k = id
    · subst hid
      have : (v.put k s').sessions[k]? = some s' := List.getElem?_set_self (List.getElem?_eq_some_iff.mp hs).1
      simp [this, hs, hprobe, hr]
    · have : (v.put k s').sessions[id]? = v.sessions[id]? := List.getElem?_set_ne hid
      rw [this]
  apart := fun hne x hx hlive => by
    rcases mem_set_cases hx with hx | rfl
    · exact h.apart hne x hx hlive
    · exact hend (h.apart hne s (List.mem_of_getElem? hs) (by rw [← hpool, hlive]))

end

end MmrTrader.Sandbox
