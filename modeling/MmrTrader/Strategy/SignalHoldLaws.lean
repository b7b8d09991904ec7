import MmrTrader.Strategy.SignalHold

/-!
# Held signals are settled once and in order

* `handed`, `handedTo` — the signals that came in, oldest first.
* `Accounts` — the settlements of a key and the signals each of them accounts for.
* `Permitted`, `Ruled` — what every entry of the trace keeps to.
* `Books` — the invariant; a fresh signal counts as a queue of its own while it is settled.
* `signals_settle_once` — **the books of every run balance.**
-/

namespace MmrTrader.Strategy.SignalHold

open Lib

variable {cfg : Config} {core : Core} {q : Key → Hold} {key : Key} {trace : List Event}

/-! ## What the trace says -/

def handed : List Event → List (Key × Signal)
  | [] => []
  | .handedOver key s _ :: trace => handed trace ++ [(key, s)]
  | _ :: trace => handed trace

def handedTo (key : Key) (trace : List Event) : List Signal :=
  ((handed trace).filter fun p => decide (p.1 = key)).map Prod.snd

def Event.settles : Event → Option Key
  | .dispatched key _ _ _ => some key
  | .gap key _ _ => some key
  | .holdFull key _ => some key
  | _ => none

/-- The drop record of these signals. -/
structure Counts (cfg : Config) (d : DroppedSignals) (block : List Signal) : Prop where
  count : d.count = block.length
  first : block.head?.map (·.signalTime) = some d.firstSignalTime
  last : block.getLast?.map (·.signalTime) = some d.lastSignalTime
  ids : d.sourceEventIds = block.map cfg.sourceEventId

def Waits (cfg : Config) : Option DroppedSignals → List Signal → Prop
  | none, waiting => waiting = []
  | some d, waiting => Counts cfg d waiting

/-- The settlements of `key` in the trace account for exactly these signals, each once, in this order. -/
inductive Accounts (cfg : Config) (key : Key) : List Event → List Signal → Prop where
  | nil : Accounts cfg key [] []
  | dispatched {trace : List Event} {settled : List Signal} (s : Signal) (block : Option Reason) (latest : Option Int)
      (h : Accounts cfg key trace settled) :
      Accounts cfg key (.dispatched key s block latest :: trace) (settled ++ [s])
  | gap {trace : List Event} {settled : List Signal} (held : HeldSignal) (reason : Reason) (recorded : List String)
      (h : Accounts cfg key trace settled) :
      Accounts cfg key (.gap key held.signal (gapRow cfg held reason recorded) :: trace) (settled ++ [held.signal])
  | holdFull {trace : List Event} {settled block : List Signal} (d : DroppedSignals) (recorded : List String)
      (hd : Counts cfg d block) (h : Accounts cfg key trace settled) :
      Accounts cfg key (.holdFull key (holdFullRow key d recorded) :: trace) (settled ++ block)
  | other {trace : List Event} {settled : List Signal} (e : Event) (he : e.settles ≠ some key)
      (h : Accounts cfg key trace settled) : Accounts cfg key (e :: trace) settled

/-- What has to hold at a dispatch, in terms of the trace before it. -/
structure MayDispatch (before : List Event) (s : Signal) (block : Option Reason) (latest : Option Int) : Prop where
  enabled : before.count (.disabled s.strategyName) = s.disablesWhenHeld
  /-- No disable since any moment that had the count the signal was decided under. -/
  since : ∀ between earlier, before = between ++ earlier →
    earlier.count (.disabled s.strategyName) = s.disablesWhenHeld → .disabled s.strategyName ∉ between
  unblocked : block = none
  newest : ∃ t, latest = some t ∧ t ≤ s.signalTime
  never : ∀ reason, .blocked s reason ∉ before

def Permitted (before : List Event) : Event → Prop
  | .handedOver _ s decided => s.disablesWhenHeld = decided.getD (before.count (.disabled s.strategyName))
  | .dispatched _ s block latest => MayDispatch before s block latest
  | .gap _ s row => .blocked s row.reason ∈ before
  | _ => True

/-- Every entry was permitted when it was made. -/
def Ruled (trace : List Event) : Prop := ∀ after e before, trace = after ++ e :: before → Permitted before e

theorem Ruled.nil : Ruled [] := by
  intro after e before h
  simp at h

theorem Ruled.cons {e : Event} (h : Ruled trace) (he : Permitted trace e) : Ruled (e :: trace) := by
  intro after e' before heq
  cases after with
  | nil =>
    cases heq
    exact he
  | cons _ after =>
    cases heq
    exact h after e' before rfl

variable {latest : Option Int}

theorem MayDispatch.of_count {s : Signal} {block : Option Reason} {t : Int}
    (hcount : trace.count (.disabled s.strategyName) = s.disablesWhenHeld) (hblock : block = none) (hlatest : latest = some t)
    (ht : t ≤ s.signalTime) (hnever : ∀ reason, .blocked s reason ∉ trace) : MayDispatch trace s block latest := by
  refine ⟨hcount, ?_, hblock, ⟨t, hlatest, ht⟩, hnever⟩
  rintro between earlier rfl hearlier hmem
  have hpos := List.count_pos_iff.mpr hmem
  rw [List.count_append] at hcount
  omega

/-! ## Drop records -/

theorem Waits.addDropped {dropped : Option DroppedSignals} {waiting : List Signal} (h : Waits cfg dropped waiting)
    (evicted : HeldSignal) : Counts cfg (addDropped cfg dropped evicted) (waiting ++ [evicted.signal]) := by
  cases dropped with
  | none =>
    obtain rfl : waiting = [] := h
    exact ⟨rfl, rfl, rfl, rfl⟩
  | some d =>
    have hd : Counts cfg d waiting := h
    refine ⟨?_, ?_, by simp [SignalHold.addDropped], ?_⟩
    · simp [SignalHold.addDropped, hd.count]
    · have hfirst := hd.first
      cases waiting with
      | nil => cases hfirst
      | cons s rest => exact hfirst
    · simp [SignalHold.addDropped, hd.ids]

/-! ## The invariant -/

structure Queue (cfg : Config) (core : Core) (key : Key) (hold : Hold) : Prop where
  accounts : ∃ settled waiting, Accounts cfg key core.trace settled ∧ Waits cfg hold.dropped waiting ∧
    handedTo key core.trace = settled ++ waiting ++ hold.signals.map (·.signal)
  marked : ∀ held ∈ hold.signals, ∀ reason, .blocked held.signal reason ∈ core.trace ↔ held.blockReason = some reason
  small : hold.signals.length ≤ max cfg.capacity 1

structure Books (cfg : Config) (core : Core) (q : Key → Hold) : Prop where
  queues : ∀ key, Queue cfg core key (q key)
  disables : ∀ name, core.disables name = core.trace.count (.disabled name)
  known : ∀ p ∈ handed core.trace, p.2.id < core.nextId
  once : ((handed core.trace).map (·.2.id)).Nodup
  blocked : ∀ s reason, .blocked s reason ∈ core.trace → s.id < core.nextId
  ruled : Ruled core.trace

theorem Books.start : Books cfg State.start.core fun _ => .empty where
  queues key := ⟨⟨[], [], Accounts.nil, rfl, rfl⟩, List.forall_mem_nil _, Nat.zero_le _⟩
  disables _ := rfl
  known p hp := by cases hp
  once := List.nodup_nil
  blocked s reason h := by cases h
  ruled := Ruled.nil

variable {hold : Hold}

theorem Books.queue (h : Books cfg core (Function.update q key hold)) : Queue cfg core key hold := by
  have hqueue := h.queues key
  rwa [Function.update_self] at hqueue

variable {k : Key}

theorem Books.others (h : Books cfg core (Function.update q key hold)) (hk : k ≠ key) : Queue cfg core k (q k) := by
  have hqueue := h.queues k
  rwa [Function.update_of_ne hk] at hqueue

theorem queues_update (hqueue : Queue cfg core key hold) (hothers : ∀ k, k ≠ key → Queue cfg core k (q k)) :
    ∀ k, Queue cfg core k (Function.update q key hold k) :=
  (Function.forall_update_iff q fun k hold => Queue cfg core k hold).mpr ⟨hqueue, hothers⟩

theorem Queue.mem_handed (h : Queue cfg core key hold) {held : HeldSignal} (hheld : held ∈ hold.signals) :
    (key, held.signal) ∈ handed core.trace := by
  obtain ⟨settled, waiting, -, -, heq⟩ := h.accounts
  have hmem : held.signal ∈ handedTo key core.trace := by
    rw [heq]
    exact List.mem_append_right _ (List.mem_map_of_mem hheld)
  obtain ⟨⟨k, s⟩, hp, hs⟩ := List.mem_map.mp hmem
  obtain ⟨hin, hk⟩ := List.mem_filter.mp hp
  obtain rfl : k = key := of_decide_eq_true hk
  obtain rfl : s = held.signal := hs
  exact hin

variable {other : HeldSignal}

theorem Books.apart (h : Books cfg core q) {hold' : Hold} {held : HeldSignal}
    (hqueue : Queue cfg core key hold) (hqueue' : Queue cfg core k hold') (hheld : held ∈ hold.signals)
    (hother : other ∈ hold'.signals) (hk : k ≠ key) : other.signal ≠ held.signal := by
  intro hsame
  have heq := List.inj_on_of_nodup_map h.once (hqueue'.mem_handed hother) (hqueue.mem_handed hheld) (by rw [hsame])
  exact hk (Prod.mk.inj heq).1

theorem handedTo_nodup (h : ((handed trace).map (·.2.id)).Nodup) (key : Key) : ((handedTo key trace).map (·.id)).Nodup := by
  have hsub : List.Sublist ((handedTo key trace).map (·.id)) ((handed trace).map (·.2.id)) := by
    unfold handedTo
    rw [List.map_map]
    exact List.filter_sublist.map _
  exact h.sublist hsub

variable {dropped : Option DroppedSignals}

theorem Books.head_apart (h : Books cfg core q) {held : HeldSignal} {rest : List HeldSignal}
    (hqueue : Queue cfg core key ⟨held :: rest, dropped⟩) (hother : other ∈ rest) : other.signal ≠ held.signal := by
  intro hsame
  obtain ⟨settled, waiting, -, -, heq⟩ := hqueue.accounts
  have hnodup := handedTo_nodup h.once key
  rw [heq, List.map_append, List.nodup_append] at hnodup
  apply (List.nodup_cons.mp hnodup.2.1).1
  rw [List.map_map]
  exact List.mem_map.mpr ⟨other, hother, congrArg Signal.id hsame⟩

variable {e : Event}

theorem Queue.log (h : Queue cfg core key hold) (he : e.settles ≠ some key)
    (hhanded : handedTo key (e :: core.trace) = handedTo key core.trace)
    (hblocked : ∀ held ∈ hold.signals, ∀ reason, Event.blocked held.signal reason ≠ e) : Queue cfg (core.log e) key hold := by
  obtain ⟨settled, waiting, hs, hw, heq⟩ := h.accounts
  refine ⟨⟨settled, waiting, hs.other e he, hw, hhanded.trans heq⟩, ?_, h.small⟩
  intro held hheld reason
  show Event.blocked held.signal reason ∈ e :: core.trace ↔ _
  rw [List.mem_cons, or_iff_right (hblocked held hheld reason)]
  exact h.marked held hheld reason

/-! ## What one step keeps -/

theorem Books.noteDisabled (h : Books cfg core q) (name : String) : Books cfg (core.noteDisabled name) q where
  queues key := by
    obtain ⟨haccounts, hmarked, hsmall⟩ := (h.queues key).log (e := .disabled name) (by simp [Event.settles]) rfl (by simp)
    exact ⟨haccounts, hmarked, hsmall⟩
  disables other := by
    simp only [Core.noteDisabled, List.count_cons, ← h.disables]
    by_cases hname : other = name
    · subst hname
      simp
    · have hne : (Event.disabled name == Event.disabled other) = false := by simpa using Ne.symm hname
      rw [Function.update_of_ne hname, hne]
      rfl
  known := h.known
  once := h.once
  blocked s reason hmem := h.blocked s reason (by simpa [Core.noteDisabled] using hmem)
  ruled := h.ruled.cons trivial

theorem Books.noteAll (names : List String) : ∀ {core : Core}, Books cfg core q → Books cfg (core.noteAll names) q := by
  induction names with
  | nil => exact fun h => h
  | cons name names ih => exact fun h => ih (h.noteDisabled name)

theorem Books.settled {e : Event} {hold left : Hold} (h : Books cfg core (Function.update q key hold))
    (he : e.settles = some key) (hperm : Permitted core.trace e) (hsub : left.signals.Sublist hold.signals)
    (hacc : ∀ settled waiting, Accounts cfg key core.trace settled → Waits cfg hold.dropped waiting →
      ∃ settled' waiting', Accounts cfg key (e :: core.trace) settled' ∧ Waits cfg left.dropped waiting' ∧
        settled ++ waiting ++ hold.signals.map (·.signal) = settled' ++ waiting' ++ left.signals.map (·.signal)) :
    Books cfg (core.log e) (Function.update q key left) := by
  have hhanded : handed (e :: core.trace) = handed core.trace := by
    cases e <;> first | rfl | cases he
  have hhandedTo : ∀ k, handedTo k (e :: core.trace) = handedTo k core.trace := fun k => by
    unfold handedTo
    rw [hhanded]
  have hdisabled : ∀ name, e ≠ .disabled name := by
    rintro name rfl
    cases he
  have hblocked : ∀ s reason, Event.blocked s reason ≠ e := by
    rintro s reason rfl
    cases he
  have hqueue : Queue cfg (core.log e) key left := by
    obtain ⟨settled, waiting, hs, hw, heq⟩ := h.queue.accounts
    obtain ⟨settled', waiting', hs', hw', heq'⟩ := hacc settled waiting hs hw
    refine ⟨⟨settled', waiting', hs', hw', ?_⟩, ?_, Nat.le_trans hsub.length_le h.queue.small⟩
    · exact (hhandedTo key).trans (heq.trans heq')
    · intro held hheld reason
      show Event.blocked held.signal reason ∈ e :: core.trace ↔ _
      rw [List.mem_cons, or_iff_right (hblocked _ _)]
      exact h.queue.marked held (hsub.subset hheld) reason
  refine ⟨queues_update hqueue ?_, ?_, ?_, ?_, ?_, h.ruled.cons hperm⟩
  · intro k hk
    apply (h.others hk).log
    · rw [he]
      exact fun hsome => hk (Option.some.inj hsome).symm
    · exact hhandedTo k
    · exact fun held _ reason => hblocked _ _
  · intro name
    show core.disables name = (e :: core.trace).count _
    rw [List.count_cons_of_ne (hdisabled name)]
    exact h.disables name
  · exact fun p hp => h.known p (hhanded ▸ hp)
  · show ((handed (e :: core.trace)).map _).Nodup
    rw [hhanded]
    exact h.once
  · intro s reason hmem
    exact h.blocked s reason ((List.mem_cons.mp hmem).resolve_left (hblocked _ _))

theorem Books.dispatched {held : HeldSignal} {rest : List HeldSignal} {block : Option Reason}
    (h : Books cfg core (Function.update q key ⟨held :: rest, none⟩)) (hmay : MayDispatch core.trace held.signal block latest) :
    Books cfg (core.log (.dispatched key held.signal block latest)) (Function.update q key ⟨rest, none⟩) := by
  refine h.settled rfl hmay (List.sublist_cons_self _ _) ?_
  rintro settled waiting hs rfl
  exact ⟨_, [], hs.dispatched _ _ _, rfl, by simp⟩

theorem Books.gap {held : HeldSignal} {rest : List HeldSignal} {reason : Reason}
    (h : Books cfg core (Function.update q key ⟨held :: rest, none⟩)) (hreason : held.blockReason = some reason)
    (recorded : List String) :
    Books cfg (core.log (.gap key held.signal (gapRow cfg held reason recorded))) (Function.update q key ⟨rest, none⟩) := by
  have hblocked : Event.blocked held.signal reason ∈ core.trace :=
    (h.queue.marked held List.mem_cons_self reason).mpr hreason
  refine h.settled rfl hblocked (List.sublist_cons_self _ _) ?_
  rintro settled waiting hs rfl
  exact ⟨_, [], hs.gap _ _ _, rfl, by simp⟩

variable {signals : List HeldSignal}

theorem Books.holdFull {d : DroppedSignals}
    (h : Books cfg core (Function.update q key ⟨signals, some d⟩)) (recorded : List String) :
    Books cfg (core.log (.holdFull key (holdFullRow key d recorded))) (Function.update q key ⟨signals, none⟩) := by
  refine h.settled rfl trivial (List.Sublist.refl _) ?_
  intro settled waiting hs hw
  exact ⟨_, [], hs.holdFull d recorded hw, rfl, by simp⟩

theorem Books.block {held : HeldSignal} {rest : List HeldSignal}
    (h : Books cfg core (Function.update q key ⟨held :: rest, none⟩)) (hclear : held.blockReason = none) (reason : Reason)
    (superseded : Option Int) :
    Books cfg (core.log (.blocked held.signal reason))
      (Function.update q key ⟨⟨held.signal, some reason, superseded⟩ :: rest, none⟩) := by
  have hqueue : Queue cfg (core.log (.blocked held.signal reason)) key ⟨⟨held.signal, some reason, superseded⟩ :: rest, none⟩ := by
    obtain ⟨settled, waiting, hs, hw, heq⟩ := h.queue.accounts
    refine ⟨⟨settled, waiting, hs.other _ (by simp [Event.settles]), hw, heq⟩, ?_, h.queue.small⟩
    intro other hother reason'
    show Event.blocked other.signal reason' ∈ Event.blocked held.signal reason :: core.trace ↔ _
    rw [List.mem_cons]
    rcases List.mem_cons.mp hother with rfl | hrest
    · have hnone := h.queue.marked held List.mem_cons_self reason'
      rw [hclear] at hnone
      simp only [Event.blocked.injEq, true_and, Option.some.injEq, hnone, reduceCtorEq, or_false]
      exact eq_comm
    · rw [or_iff_right (by simp [h.head_apart h.queue hrest])]
      exact h.queue.marked other (List.mem_cons_of_mem _ hrest) reason'
  refine ⟨queues_update hqueue ?_, ?_, h.known, h.once, ?_, h.ruled.cons trivial⟩
  · intro k hk
    apply (h.others hk).log (by simp [Event.settles]) rfl
    intro other hother reason' heq
    exact h.apart h.queue (h.others hk) List.mem_cons_self hother hk (Event.blocked.inj heq).1
  · intro name
    show core.disables name = (Event.blocked held.signal reason :: core.trace).count _
    rw [List.count_cons_of_ne (by simp)]
    exact h.disables name
  · intro s reason' hmem
    rcases List.mem_cons.mp hmem with heq | hmem
    · cases heq
      exact h.known _ (h.queue.mem_handed List.mem_cons_self)
    · exact h.blocked s reason' hmem

theorem Books.evict {evicted : HeldSignal} {rest : List HeldSignal}
    (h : Books cfg core (Function.update q key ⟨evicted :: rest, dropped⟩)) :
    Books cfg core (Function.update q key ⟨rest, some (addDropped cfg dropped evicted)⟩) := by
  have hqueue : Queue cfg core key ⟨rest, some (addDropped cfg dropped evicted)⟩ := by
    obtain ⟨settled, waiting, hs, hw, heq⟩ := h.queue.accounts
    refine ⟨⟨settled, waiting ++ [evicted.signal], hs, hw.addDropped evicted, by simpa using heq⟩, ?_, ?_⟩
    · exact fun held hheld => h.queue.marked held (List.mem_cons_of_mem _ hheld)
    · exact Nat.le_of_succ_le h.queue.small
  exact ⟨queues_update hqueue fun k hk => h.others hk, h.disables, h.known, h.once, h.blocked, h.ruled⟩

theorem Books.handOver (h : Books cfg core (Function.update q key ⟨signals, dropped⟩)) (fired : Fired) (decided : Option Nat)
    (hroom : signals.length < max cfg.capacity 1) :
    Books cfg (core.handOver key fired decided).1
      (Function.update q key ⟨signals ++ [(core.handOver key fired decided).2], dropped⟩) := by
  have hmarked : ∀ (hold : Hold), (∀ held ∈ hold.signals, ∀ reason, .blocked held.signal reason ∈ core.trace ↔
      held.blockReason = some reason) → ∀ held ∈ hold.signals, ∀ reason,
      .blocked held.signal reason ∈ (core.handOver key fired decided).1.trace ↔ held.blockReason = some reason := by
    intro hold hmarked held hheld reason
    rw [← hmarked held hheld reason]
    simp [Core.handOver]
  have hqueue : Queue cfg (core.handOver key fired decided).1 key ⟨signals ++ [(core.handOver key fired decided).2], dropped⟩ := by
    obtain ⟨settled, waiting, hs, hw, heq⟩ := h.queue.accounts
    refine ⟨⟨settled, waiting, hs.other _ (by simp [Event.settles]), hw, ?_⟩, ?_, ?_⟩
    · simp only [handedTo] at heq
      simp [Core.handOver, handedTo, handed, heq]
    · apply hmarked
      intro held hheld reason
      rcases List.mem_append.mp hheld with hheld | hheld
      · exact h.queue.marked held hheld reason
      · -- no mark is older than the signal
        rw [List.mem_singleton.mp hheld]
        constructor
        · intro hmem
          exact absurd (h.blocked _ _ hmem) (Nat.lt_irrefl _)
        · intro hsome
          cases hsome
    · rw [List.length_append]
      exact hroom
  refine ⟨queues_update hqueue ?_, ?_, ?_, ?_, ?_, ?_⟩
  · intro k hk
    obtain ⟨⟨settled, waiting, hs, hw, heq⟩, hmarks, hsmall⟩ := h.others hk
    refine ⟨⟨settled, waiting, hs.other _ (by simp [Event.settles]), hw, ?_⟩, hmarked _ hmarks, hsmall⟩
    simp only [handedTo] at heq
    simp [Core.handOver, handedTo, handed, heq, Ne.symm hk]
  · intro name
    show core.disables name = (Event.handedOver key _ decided :: core.trace).count _
    rw [List.count_cons_of_ne (by simp)]
    exact h.disables name
  · intro p hp
    rcases List.mem_append.mp hp with hp | hp
    · exact Nat.lt_succ_of_lt (h.known p hp)
    · rw [List.mem_singleton.mp hp]
      exact Nat.lt_succ_self _
  · show ((handed core.trace ++ [_]).map _).Nodup
    rw [List.map_append, List.nodup_append]
    refine ⟨h.once, List.nodup_singleton _, ?_⟩
    intro a ha b hb hab
    obtain ⟨p, hp, rfl⟩ := List.mem_map.mp ha
    rw [List.mem_singleton.mp hb] at hab
    exact Nat.ne_of_lt (h.known p hp) hab
  · intro s reason hmem
    exact Nat.lt_succ_of_lt (h.blocked s reason ((List.mem_cons.mp hmem).resolve_left (by simp)))
  · apply h.ruled.cons
    show decided.getD (core.disables fired.strategyName) = decided.getD _
    rw [h.disables]

/-! ## The functions -/

variable {a : Answers} {held : HeldSignal} {rest : List HeldSignal}

/-- What the checks found. -/
theorem whyBlocked_ok {held' : HeldSignal} {reason : Option Reason} (h : whyBlocked core a held = .ok (reason, held')) :
    held'.signal = held.signal ∧ (reason = none → held' = held ∧ core.disables held.signal.strategyName = held.signal.disablesWhenHeld ∧
      a.block = none ∧ ∃ t, a.latest = some t ∧ t ≤ held.signal.signalTime) := by
  unfold whyBlocked at h
  split at h
  · cases h
    exact ⟨rfl, fun hnone => by cases hnone⟩
  · rename_i hsame
    split at h
    · cases h
      exact ⟨rfl, fun hnone => by cases hnone⟩
    · rename_i hblock
      unfold staleness at h
      split at h
      · cases h
      · rename_i t hlatest
        split at h
        · rename_i hle
          cases h
          exact ⟨rfl, fun _ => ⟨rfl, not_not.mp hsame, hblock, t, hlatest, hle⟩⟩
        · cases h
          exact ⟨rfl, fun hnone => by cases hnone⟩

/-- Settled, the head is gone; otherwise it stays, perhaps marked. -/
def Left (cfg : Config) (q : Key → Hold) (key : Key) (rest : List HeldSignal) : Core × HeldSignal × Except NotSettled Unit → Prop
  | (core, _, .ok ()) => Books cfg core (Function.update q key ⟨rest, none⟩)
  | (core, held, .error _) => Books cfg core (Function.update q key ⟨held :: rest, none⟩)

theorem Books.writeBlockedGap {reason : Reason} (h : Books cfg core (Function.update q key ⟨held :: rest, none⟩))
    (hreason : held.blockReason = some reason) :
    Left cfg q key rest ((writeBlockedGap cfg key core a held reason).1, held, (writeBlockedGap cfg key core a held reason).2) := by
  unfold SignalHold.writeBlockedGap
  split
  · exact h
  · split
    · exact h.gap hreason _
    · exact h

theorem Books.settle (h : Books cfg core (Function.update q key ⟨held :: rest, none⟩)) :
    Left cfg q key rest (settle cfg key core a held) := by
  have hbefore := h.noteAll a.disabledBefore
  unfold SignalHold.settle
  dsimp only
  split
  · rename_i reason hreason
    exact hbefore.writeBlockedGap hreason
  · rename_i hclear
    split
    · exact hbefore
    · rename_i held' hwhy
      obtain ⟨-, hok⟩ := whyBlocked_ok hwhy
      obtain ⟨rfl, hcount, hblock, t, hlatest, ht⟩ := hok rfl
      split
      · apply Books.noteAll
        apply hbefore.dispatched
        refine MayDispatch.of_count ?_ hblock hlatest ht ?_
        · rw [← hbefore.disables]
          exact hcount
        · intro reason hmem
          rw [hbefore.queue.marked held' List.mem_cons_self reason, hclear] at hmem
          cases hmem
      · exact hbefore.noteAll a.disabledWithin
    · rename_i reason held' hwhy
      obtain ⟨hsignal, -⟩ := whyBlocked_ok hwhy
      have hmarked := hbefore.block hclear reason held'.supersededBy
      rw [← hsignal] at hmarked
      exact hmarked.writeBlockedGap rfl

theorem Books.settleInOrder (signals : List HeldSignal) : ∀ (answers : Nat → Answers) {core : Core},
    Books cfg core (Function.update q key ⟨signals, none⟩) →
    Books cfg (settleInOrder cfg key answers core signals).1
      (Function.update q key ⟨(settleInOrder cfg key answers core signals).2, none⟩) := by
  induction signals with
  | nil => exact fun _ _ h => h
  | cons held rest ih =>
    intro answers core h
    have hleft : Left cfg q key rest (SignalHold.settle cfg key core (answers 0) held) := h.settle
    rw [SignalHold.settleInOrder]
    generalize SignalHold.settle cfg key core (answers 0) held = outcome at hleft ⊢
    obtain ⟨core', held', result⟩ := outcome
    cases result with
    | ok _ => exact ih _ hleft
    | error e => exact hleft

theorem Books.flushDropped {signals : List HeldSignal} {dropped : Option DroppedSignals} {flush : FlushAnswers} {core' : Core}
    (h : Books cfg core (Function.update q key ⟨signals, dropped⟩)) (hflush : flushDropped key core flush dropped = some core') :
    Books cfg core' (Function.update q key ⟨signals, none⟩) := by
  unfold SignalHold.flushDropped at hflush
  split at hflush
  · cases hflush
    exact h
  · split at hflush
    · cases hflush
    · split at hflush
      · cases hflush
        exact h.holdFull _
      · cases hflush

theorem Books.enqueue {hold : Hold} (h : Books cfg core (Function.update q key hold)) (fired : Fired) (decided : Option Nat) :
    Books cfg (core.handOver key fired decided).1
      (Function.update q key (enqueue cfg hold (core.handOver key fired decided).2)) := by
  obtain ⟨signals, dropped⟩ := hold
  cases signals with
  | nil => exact h.handOver fired decided (Nat.lt_of_lt_of_le Nat.zero_lt_one (Nat.le_max_right _ _))
  | cons evicted rest =>
    have hsmall := h.queue.small
    rw [List.length_cons] at hsmall
    unfold SignalHold.enqueue
    dsimp only
    split
    · exact h.evict.handOver fired decided (by omega)
    · rename_i hroom
      rw [List.length_cons] at hroom
      exact h.handOver fired decided (by rw [List.length_cons]; omega)

/-! ## The calls -/

variable {st : State}

theorem queue_upsert (core : Core) (key : Key) (hold : Hold) :
    (⟨core, st.holds.upsert (key, hold)⟩ : State).queue = Function.update st.queue key hold := by
  funext k
  unfold State.queue State.holdOf
  rw [Table.get?_upsert]
  by_cases hk : k = key
  · subst hk
    simp
  · rw [if_neg (Ne.symm hk), Function.update_of_ne hk]

theorem queue_deleteWhere (core : Core) (key : Key) :
    (⟨core, st.holds.deleteWhere fun row => decide (row.1 = key)⟩ : State).queue = Function.update st.queue key .empty := by
  funext k
  unfold State.queue State.holdOf
  by_cases hk : k = key
  · subst hk
    have hnone : (st.holds.deleteWhere fun row => decide (row.1 = k)).get? k = none := by
      apply Table.get?_eq_none.mpr
      intro row hrow hkey
      have hkept := (Table.mem_deleteWhere.mp hrow).2
      exact of_decide_eq_false hkept hkey
    rw [hnone, Function.update_self]
    rfl
  · have hsame : (st.holds.deleteWhere fun row => decide (row.1 = key)).get? k = st.holds.get? k := by
      apply Option.ext
      intro row
      rw [Table.get?_eq_some, Table.get?_eq_some, Table.mem_deleteWhere]
      constructor
      · exact fun hrow => ⟨hrow.1.1, hrow.2⟩
      · rintro ⟨hrow, rfl⟩
        exact ⟨⟨hrow, decide_eq_false hk⟩, rfl⟩
    rw [hsame, Function.update_of_ne hk]

theorem queue_of_holdOf (h : st.holdOf key = some hold) : st.queue key = hold := by
  rw [State.queue, h]
  rfl

theorem queue_of_none (h : st.holdOf key = none) : st.queue key = .empty := by
  rw [State.queue, h]
  rfl

theorem Books.at (h : Books cfg core st.queue) (hhold : st.queue key = hold) :
    Books cfg core (Function.update st.queue key hold) := by
  rw [← hhold, Function.update_eq_self]
  exact h

theorem Books.dispatch {fired : Fired} {decided : Option Nat} (h : Books cfg st.core st.queue) :
    Books cfg (dispatch cfg key fired decided a st).core (dispatch cfg key fired decided a st).queue := by
  unfold SignalHold.dispatch
  dsimp only
  split
  · rename_i hold hhold
    rw [queue_upsert]
    exact (h.at (queue_of_holdOf hhold)).enqueue fired decided
  · rename_i hnone
    -- the fresh signal is the one of a queue of its own
    have hempty := queue_of_none hnone
    have hroom : ([] : List HeldSignal).length < max cfg.capacity 1 := Nat.lt_of_lt_of_le Nat.zero_lt_one (Nat.le_max_right _ _)
    have hleft : Left cfg st.queue key [] (SignalHold.settle cfg key (st.core.handOver key fired decided).1 a
        (st.core.handOver key fired decided).2) := ((h.at hempty).handOver fired decided hroom).settle
    generalize SignalHold.settle cfg key (st.core.handOver key fired decided).1 a
      (st.core.handOver key fired decided).2 = outcome at hleft ⊢
    obtain ⟨core', held', result⟩ := outcome
    cases result with
    | ok _ =>
      have hsame : Function.update st.queue key ⟨[], none⟩ = st.queue := by
        rw [Function.update_eq_iff]
        exact ⟨hempty.symm, fun _ _ => rfl⟩
      have hbooks : Books cfg core' (Function.update st.queue key ⟨[], none⟩) := hleft
      rw [hsame] at hbooks
      exact hbooks
    | error e =>
      show Books cfg core' _
      rw [queue_upsert]
      exact hleft

theorem Books.retry {flush : FlushAnswers} {answers : Nat → Answers} (h : Books cfg st.core st.queue) :
    Books cfg (retry cfg key flush answers st).core (retry cfg key flush answers st).queue := by
  unfold SignalHold.retry
  split
  · exact h
  · rename_i hold hhold
    split
    · exact h
    · rename_i core' hflush
      have hsettled := ((h.at (queue_of_holdOf hhold)).flushDropped hflush).settleInOrder hold.signals answers
      generalize SignalHold.settleInOrder cfg key answers core' hold.signals = outcome at hsettled ⊢
      obtain ⟨core'', signals⟩ := outcome
      cases signals with
      | nil =>
        show Books cfg core'' _
        rw [queue_deleteWhere]
        exact hsettled
      | cons held rest =>
        show Books cfg core'' _
        rw [queue_upsert]
        exact hsettled

theorem Books.retryAll {answers : Key → FlushAnswers × (Nat → Answers)} (h : Books cfg st.core st.queue) :
    Books cfg (retryAll cfg answers st).core (retryAll cfg answers st).queue := by
  unfold SignalHold.retryAll
  generalize st.holds.rows.map Prod.fst = keys
  induction keys generalizing st with
  | nil => exact h
  | cons key keys ih => exact ih h.retry

theorem Books.step (h : Books cfg st.core st.queue) (call : Call) :
    Books cfg (step cfg st call).core (step cfg st call).queue := by
  cases call with
  | dispatch key fired decided a => exact h.dispatch
  | retry key flush answers => exact h.retry
  | retryAll answers => exact h.retryAll
  | noteDisabled name => exact h.noteDisabled name

theorem books_run (cfg : Config) (calls : List Call) : Books cfg (run cfg calls).core (run cfg calls).queue := by
  unfold run
  have hstart : Books cfg State.start.core State.start.queue := Books.start
  generalize State.start = st at hstart
  induction calls generalizing st with
  | nil => exact hstart
  | cons call calls ih => exact ih _ (hstart.step call)

/-! ## What comes in is what the calls hand over -/

def Event.handsOver : Event → Option (Key × Fired × Option Nat)
  | .handedOver key s decided => some (key, s.toFired, decided)
  | _ => none

def Call.handsOver : Call → Option (Key × Fired × Option Nat)
  | .dispatch key fired decided _ => some (key, fired, decided)
  | _ => none

def Core.entries (core : Core) : List (Key × Fired × Option Nat) := core.trace.filterMap Event.handsOver

theorem entries_noteAll (names : List String) : ∀ core : Core, (core.noteAll names).entries = core.entries := by
  induction names with
  | nil => exact fun _ => rfl
  | cons name names ih => exact fun core => ih (core.noteDisabled name)

theorem entries_log (he : e.handsOver = none) : (core.log e).entries = core.entries :=
  List.filterMap_cons_none he

theorem entries_writeBlockedGap (reason : Reason) : (writeBlockedGap cfg key core a held reason).1.entries = core.entries := by
  unfold writeBlockedGap
  split
  · rfl
  · split
    · exact entries_log rfl
    · rfl

theorem entries_settle : (settle cfg key core a held).1.entries = core.entries := by
  have hbefore := entries_noteAll a.disabledBefore core
  unfold settle
  dsimp only
  split
  · exact (entries_writeBlockedGap _).trans hbefore
  · split
    · exact hbefore
    · split
      · exact (entries_noteAll _ _).trans ((entries_log rfl).trans hbefore)
      · exact (entries_noteAll _ _).trans hbefore
    · exact (entries_writeBlockedGap _).trans ((entries_log rfl).trans hbefore)

theorem entries_settleInOrder (signals : List HeldSignal) : ∀ (answers : Nat → Answers) (core : Core),
    (settleInOrder cfg key answers core signals).1.entries = core.entries := by
  induction signals with
  | nil => exact fun _ _ => rfl
  | cons held rest ih =>
    intro answers core
    have hsettle : (settle cfg key core (answers 0) held).1.entries = core.entries := entries_settle
    rw [settleInOrder]
    generalize settle cfg key core (answers 0) held = outcome at hsettle ⊢
    obtain ⟨core', held', result⟩ := outcome
    cases result with
    | ok _ => exact (ih _ core').trans hsettle
    | error e => exact hsettle

variable {flush : FlushAnswers}

theorem entries_flushDropped {core' : Core}
    (h : flushDropped key core flush dropped = some core') : core'.entries = core.entries := by
  unfold flushDropped at h
  split at h
  · cases h
    rfl
  · split at h
    · cases h
    · split at h
      · cases h
        exact entries_log rfl
      · cases h

theorem entries_retry {answers : Nat → Answers} : (retry cfg key flush answers st).core.entries = st.core.entries := by
  unfold retry
  split
  · rfl
  · split
    · rfl
    · rename_i hold _ _ core' hflush
      have hsettle : (settleInOrder cfg key answers core' hold.signals).1.entries = core'.entries := entries_settleInOrder _ _ _
      generalize settleInOrder cfg key answers core' hold.signals = outcome at hsettle ⊢
      obtain ⟨core'', signals⟩ := outcome
      cases signals with
      | nil => exact hsettle.trans (entries_flushDropped hflush)
      | cons held rest => exact hsettle.trans (entries_flushDropped hflush)

theorem entries_dispatch {fired : Fired} {decided : Option Nat} :
    (dispatch cfg key fired decided a st).core.entries = (key, fired, decided) :: st.core.entries := by
  unfold dispatch
  dsimp only
  split
  · rfl
  · have hsettle : (settle cfg key (st.core.handOver key fired decided).1 a (st.core.handOver key fired decided).2).1.entries =
      (key, fired, decided) :: st.core.entries := entries_settle
    generalize settle cfg key (st.core.handOver key fired decided).1 a (st.core.handOver key fired decided).2 = outcome at hsettle ⊢
    obtain ⟨core', held', result⟩ := outcome
    cases result with
    | ok _ => exact hsettle
    | error e => exact hsettle

theorem entries_step (call : Call) : (step cfg st call).core.entries = call.handsOver.toList ++ st.core.entries := by
  cases call with
  | dispatch key fired decided a => exact entries_dispatch
  | retry key flush answers => exact entries_retry
  | retryAll answers =>
    show (retryAll cfg answers st).core.entries = st.core.entries
    unfold retryAll
    generalize st.holds.rows.map Prod.fst = keys
    induction keys generalizing st with
    | nil => rfl
    | cons key keys ih =>
      rw [List.foldl_cons, ih]
      exact entries_retry
  | noteDisabled name => rfl

theorem entries_run (cfg : Config) (calls : List Call) :
    (run cfg calls).core.entries.reverse = calls.filterMap Call.handsOver := by
  have hrun : ∀ st : State, (calls.foldl (step cfg) st).core.entries.reverse =
      st.core.entries.reverse ++ calls.filterMap Call.handsOver := by
    induction calls with
    | nil => exact fun st => (List.append_nil _).symm
    | cons call calls ih =>
      intro st
      rw [List.foldl_cons, ih, entries_step]
      cases hcall : call.handsOver <;> simp [hcall]
  exact hrun .start

/-! ## Every run -/

/-- What a run leaves of a key: the signals handed over are the settled ones, then those that wait for the gap of a drop
record, then the held ones. -/
structure Balanced (cfg : Config) (st : State) (key : Key) : Prop where
  settled : ∃ settled waiting, Accounts cfg key st.core.trace settled ∧ Waits cfg (st.queue key).dropped waiting ∧
    handedTo key st.core.trace = settled ++ waiting ++ (st.queue key).signals.map (·.signal)
  bounded : (st.queue key).signals.length ≤ max cfg.capacity 1

/-- **The books of every run balance.**  A hold with a place for no signal still holds the one that opened it. -/
theorem signals_settle_once (cfg : Config) (calls : List Call) :
    (∀ key, Balanced cfg (run cfg calls) key) ∧
    ((handed (run cfg calls).core.trace).map (·.2.id)).Nodup ∧
    (run cfg calls).core.entries.reverse = calls.filterMap Call.handsOver ∧
    Ruled (run cfg calls).core.trace := by
  have hbooks := books_run cfg calls
  refine ⟨?_, hbooks.once, entries_run cfg calls, hbooks.ruled⟩
  intro key
  obtain ⟨haccounts, -, hsmall⟩ := hbooks.queues key
  exact ⟨haccounts, hsmall⟩

end MmrTrader.Strategy.SignalHold
