import Mathlib.Data.List.Perm.Subperm
import MmrTrader.Lib.GuardedRun
import MmrTrader.Journal.Feed

/-!
# Completeness of the feed tail

`Consumer.Complete` is the promise of `read_domain_events`: events in cursor order, each once,
and no event at or below the client's cursor that it was not given.

* `ConsumerInv.change` — no writer and no compaction can break it behind the client's back;
* `feed_tail_complete` — it holds in every state of every run in which no snapshot and no query
  is taken while an open transaction is overtaken, and a client that keeps reading is given
  everything or `CursorExpired`;
-/

namespace MmrTrader.Journal

open MmrTrader.Lib

variable {V : Type}

/-- What a client of the feed is promised. -/
structure Consumer.Complete (c : Consumer V) : Prop where
  ordered : c.delivered.Pairwise fun a b => a.sourceCursor < b.sourceCursor
  sound : ∀ e ∈ c.delivered, e ∈ c.since
  gapless : ∀ e ∈ c.since, e.sourceCursor ≤ c.after → e ∈ c.delivered

/-! ## The invariant of a call in flight -/

def PhaseInv (d : FeedDb V) (after : Nat) : Phase V → Prop
  | .waiting limit => 0 < limit
  | .woken limit wake => 0 < limit ∧ wake ≤ newestCursor d.journal
  | .queried wake events =>
      (events = [] → wake ≤ after) ∧
      events.Pairwise (fun a b => a.sourceCursor < b.sourceCursor) ∧
      (∀ e ∈ events, after < e.sourceCursor ∧ ∃ r ∈ d.history, r.toEvent = e) ∧
      (∀ e ∈ events, ∀ r ∈ d.openRows, e.sourceCursor < r.sourceCursor) ∧
      (after < highestFloor d.checkpoints ∨ ∀ e ∈ events, ∀ r ∈ d.history,
        after < r.sourceCursor → r.sourceCursor ≤ e.sourceCursor → r.toEvent ∈ events)
  | _ => True

structure ConsumerInv (d : FeedDb V) (c : Consumer V) : Prop where
  complete : c.Complete
  given : ∀ e ∈ c.delivered, e.sourceCursor ≤ c.after
  ahead : ∀ r ∈ d.openRows, c.after < r.sourceCursor
  position : c.after ≤ newestCursor d.journal
  since_history : ∀ e ∈ c.since, ∃ r ∈ d.history, r.toEvent = e
  since_all : ∀ r ∈ d.history, c.after < r.sourceCursor → r.toEvent ∈ c.since
  /-- A client behind the highest floor is behind every row a later, lower floor could name. -/
  behind : c.after < highestFloor d.checkpoints → ∀ r ∈ d.journal ++ d.openRows,
    r.sourceCursor < highestFloor d.checkpoints → c.after < r.sourceCursor
  inFlight : PhaseInv d c.after c.phase

theorem ConsumerInv.withPhase {d : FeedDb V} {c : Consumer V} (h : ConsumerInv d c) {p : Phase V}
    (hp : PhaseInv d c.after p) : ConsumerInv d { c with phase := p } :=
  ⟨⟨h.complete.ordered, h.complete.sound, h.complete.gapless⟩, h.given, h.ahead, h.position,
    h.since_history, h.since_all, h.behind, hp⟩

section
variable {d d' : FeedDb V} {c : Consumer V} {new : List (JournalRow V)}

theorem PhaseInv.change (hd : FeedInv d) (ch : Change d d' new) {after : Nat} {p : Phase V}
    (h : PhaseInv d after p) : PhaseInv d' after p := by
  cases p with
  | woken limit wake => exact ⟨h.1, h.2.trans ch.newest⟩
  | queried wake events =>
    obtain ⟨hempty, hpair, hmem, hopen, hall⟩ := h
    have hold : ∀ e ∈ events, e.sourceCursor ≤ d.seq := by
      intro e he
      obtain ⟨-, r, hr, rfl⟩ := hmem e he
      exact (hd.bounded r (List.mem_append_left _ hr)).2
    refine ⟨hempty, hpair, ?_, ?_, ?_⟩
    · intro e he
      obtain ⟨hlt, r, hr, hre⟩ := hmem e he
      exact ⟨hlt, r, ch.history ▸ List.mem_append_left _ hr, hre⟩
    · intro e he r hr
      rcases ch.opened r hr with hr | hr
      · exact hopen e he r hr
      · have := hold e he
        omega
    · refine hall.imp (fun hlt => lt_of_lt_of_le hlt ch.floor) fun hall e he r hr hlt hle => ?_
      rw [ch.history] at hr
      rcases List.mem_append.mp hr with hr | hr
      · exact hall e he r hr hlt hle
      · exact absurd (hopen e he r (ch.committed r hr)) (Nat.not_lt.mpr hle)
  | idle => trivial
  | waiting limit => exact h
  | expired => trivial

/-- **Writers and compactions cannot break a consumer.** -/
theorem ConsumerInv.change (hd : FeedInv d) (ch : Change d d' new) (h : ConsumerInv d c) :
    ConsumerInv d' { c with since := c.since ++ new.map JournalRow.toEvent } := by
  have hseq : c.after ≤ d.seq := h.position.trans (newestCursor_le_seq hd)
  have hahead : ∀ r ∈ d'.openRows, c.after < r.sourceCursor := by
    intro r hr
    rcases ch.opened r hr with hr | hr
    · exact h.ahead r hr
    · omega
  have hnew : ∀ r ∈ new, c.after < r.sourceCursor := fun r hr => h.ahead r (ch.committed r hr)
  refine ⟨⟨h.complete.ordered, ?_, ?_⟩, h.given, hahead, h.position.trans ch.newest, ?_, ?_, ?_,
    h.inFlight.change hd ch⟩
  · exact fun e he => List.mem_append_left _ (h.complete.sound e he)
  · intro e he hle
    rcases List.mem_append.mp he with he | he
    · exact h.complete.gapless e he hle
    · obtain ⟨r, hr, rfl⟩ := List.mem_map.mp he
      exact absurd (hnew r hr) (Nat.not_lt.mpr hle)
  · intro e he
    rw [ch.history]
    rcases List.mem_append.mp he with he | he
    · obtain ⟨r, hr, hre⟩ := h.since_history e he
      exact ⟨r, List.mem_append_left _ hr, hre⟩
    · obtain ⟨r, hr, hre⟩ := List.mem_map.mp he
      exact ⟨r, List.mem_append_right _ hr, hre⟩
  · intro r hr hlt
    rw [ch.history] at hr
    rcases List.mem_append.mp hr with hr | hr
    · exact List.mem_append_left _ (h.since_all r hr hlt)
    · exact List.mem_append_right _ (List.mem_map_of_mem hr)
  · intro hlt r hr hr'
    rcases List.mem_append.mp hr with hj | ho
    · rcases Nat.eq_or_lt_of_le ch.floor with heq | hraised
      · rw [← heq] at hlt hr'
        rcases ch.journal r hj with hj | hn
        · exact h.behind hlt r (List.mem_append_left _ hj) hr'
        · exact hnew r hn
      · exact absurd (ch.raised hraised r hj) (Nat.not_le.mpr hr')
    · exact hahead r ho

end

/-! ## The actions of a call -/

variable {journal : List (JournalRow V)} {after : Nat}
variable {e : DomainEvent V}

theorem mem_eventsAfter : e ∈ eventsAfter journal after ↔ ∃ r ∈ journal, after < r.sourceCursor ∧ r.toEvent = e := by
  rw [eventsAfter, List.mem_insertionSort, List.mem_map]
  constructor
  · rintro ⟨r, hr, rfl⟩
    obtain ⟨hr, hlt⟩ := List.mem_filter.mp hr
    exact ⟨r, hr, by simpa using hlt, rfl⟩
  · rintro ⟨r, hr, hlt, rfl⟩
    exact ⟨r, List.mem_filter.mpr ⟨hr, by simpa using hlt⟩, rfl⟩

/-- The sorted rows strictly increase, because cursors are distinct. -/
theorem eventsAfter_sorted (hd : (journal.map (·.sourceCursor)).Nodup)
    (after : Nat) : (eventsAfter journal after).Pairwise fun a b => a.sourceCursor < b.sourceCursor := by
  have hsorted : (eventsAfter journal after).Pairwise cursorOrder := List.pairwise_insertionSort _ _
  have hnodup : ((eventsAfter journal after).map (·.sourceCursor)).Nodup := by
    refine ((List.perm_insertionSort cursorOrder _).map _).nodup_iff.mpr ?_
    rw [List.map_map]
    exact hd.sublist (List.filter_sublist.map _)
  rw [List.Nodup, List.pairwise_map] at hnodup
  exact (hsorted.and hnodup).imp fun ⟨hle, hne⟩ => Nat.lt_of_le_of_ne hle hne

variable {limit : Nat}
variable {r : JournalRow V}

theorem readAfter_closed (hd : (journal.map (·.sourceCursor)).Nodup) (he : e ∈ readAfter journal after limit)
    (hr : r ∈ journal) (hlt : after < r.sourceCursor) (hle : r.sourceCursor ≤ e.sourceCursor) :
    r.toEvent ∈ readAfter journal after limit := by
  have hsorted := eventsAfter_sorted hd after
  have hmem := mem_eventsAfter.mpr ⟨r, hr, hlt, rfl⟩
  unfold readAfter at he ⊢
  rw [← List.take_append_drop limit (eventsAfter journal after)] at hsorted hmem
  rcases List.mem_append.mp hmem with hmem | hmem
  · exact hmem
  · have := (List.pairwise_append.mp hsorted).2.2 e he _ hmem
    have hcur : r.toEvent.sourceCursor = r.sourceCursor := rfl
    omega

theorem readAfter_eq_nil (hl : 0 < limit) (h : readAfter journal after limit = []) : newestCursor journal ≤ after := by
  refine foldl_max_le_iff.mpr ⟨Nat.zero_le _, fun r hr => ?_⟩
  by_contra hlt
  have hmem := mem_eventsAfter.mpr ⟨r, hr, Nat.lt_of_not_le hlt, rfl⟩
  unfold readAfter at h
  rw [List.take_eq_nil_iff] at h
  rcases h with h | h
  · omega
  · rw [h] at hmem
    cases hmem

theorem clamp_limit_pos (limit : Int) : 0 < (clamp limit MIN_LIMIT MAX_LIMIT).toNat := by
  unfold clamp MIN_LIMIT MAX_LIMIT
  omega

/-- A call that passes an expiry check is not behind any floor ever recorded, however the floors
    moved since. -/
theorem ConsumerInv.not_behind {d : FeedDb V} {c : Consumer V} (hd : FeedInv d) (h : ConsumerInv d c)
    (hex : isExpired d.checkpoints c.after = false) : highestFloor d.checkpoints ≤ c.after := by
  by_contra hlt
  have hlt : c.after < highestFloor d.checkpoints := Nat.lt_of_not_le hlt
  rcases hd.floor with h0 | ⟨cp, hcp, r, hr, hrc⟩
  · omega
  · have hle : cp.oldestRetainedCursor ≤ c.after := by
      simpa only [isExpired, hcp, decide_eq_false_iff_not, Nat.not_lt] using hex
    have := h.behind hlt r (List.mem_append_left _ hr) (by omega)
    omega

variable {wake : Nat}

theorem ConsumerInv.reply {d : FeedDb V} {c : Consumer V} (hd : FeedInv d) (h : ConsumerInv d c)
    {events : List (DomainEvent V)} (hphase : c.phase = .queried wake events) (hex : isExpired d.checkpoints c.after = false) :
    ConsumerInv d { c with
      after := replyCursor c.after wake events, phase := .idle, delivered := c.delivered ++ events } := by
  have hfloor := h.not_behind hd hex
  obtain ⟨hempty, hpair, hmem, hopen, hall⟩ := hphase ▸ h.inFlight
  have hall := hall.resolve_left (Nat.not_lt.mpr hfloor)
  rcases List.eq_nil_or_concat' events with rfl | ⟨init, last, rfl⟩
  · have hcur : replyCursor c.after wake ([] : List (DomainEvent V)) = c.after := Nat.max_eq_left (hempty rfl)
    rw [hcur, List.append_nil]
    exact h.withPhase trivial
  have hcur : replyCursor c.after wake (init ++ [last]) = last.sourceCursor := by simp [replyCursor]
  have hlast : last ∈ init ++ [last] := by simp
  have htop : ∀ e ∈ init ++ [last], e.sourceCursor ≤ last.sourceCursor := by
    intro e he
    rcases List.mem_append.mp he with he | he
    · exact ((List.pairwise_append.mp hpair).2.2 e he last (by simp)).le
    · rw [List.mem_singleton.mp he]
  obtain ⟨hafter, rl, hrl, hrle⟩ := hmem last hlast
  rw [hcur]
  refine ⟨⟨?_, ?_, ?_⟩, ?_, fun r hr => hopen last hlast r hr, ?_, h.since_history, ?_, ?_, trivial⟩
  · refine List.pairwise_append.mpr ⟨h.complete.ordered, hpair, ?_⟩
    intro a ha b hb
    exact lt_of_le_of_lt (h.given a ha) (hmem b hb).1
  · intro e he
    rcases List.mem_append.mp he with he | he
    · exact h.complete.sound e he
    · obtain ⟨hlt, r, hr, rfl⟩ := hmem e he
      exact h.since_all r hr hlt
  · intro e he hle
    rcases Nat.lt_or_ge c.after e.sourceCursor with hlt | hge
    · obtain ⟨r, hr, rfl⟩ := h.since_history e he
      exact List.mem_append_right _ (hall last hlast r hr hlt hle)
    · exact List.mem_append_left _ (h.complete.gapless e he hge)
  · intro e he
    rcases List.mem_append.mp he with he | he
    · exact (h.given e he).trans hafter.le
    · exact htop e he
  · exact hrle ▸ hd.newest rl hrl
  · exact fun r hr hlt => h.since_all r hr (hafter.trans hlt)
  · intro hlt r hr hr'
    have hlt : last.sourceCursor < highestFloor d.checkpoints := hlt
    omega

/-- Where an overtaken cursor would be missed. -/
def Unovertaken (s : FeedState V) : FeedAction V → Prop
  | .snapshot => NoneOvertaken s.db
  | .query => NoneOvertaken s.db
  | _ => True

instance (s : FeedState V) (a : FeedAction V) : Decidable (Unovertaken s a) :=
  match a with
  | .snapshot => inferInstanceAs (Decidable (NoneOvertaken s.db))
  | .query => inferInstanceAs (Decidable (NoneOvertaken s.db))
  | .db _ => .isTrue trivial
  | .read _ => .isTrue trivial
  | .wake => .isTrue trivial
  | .recheck => .isTrue trivial

theorem NoneOvertaken.openRows {d : FeedDb V} (h : NoneOvertaken d) {o : JournalRow V}
    (hr : r ∈ d.journal) (ho : o ∈ d.openRows) : r.sourceCursor < o.sourceCursor := by
  obtain ⟨u, hu, rfl⟩ := List.mem_map.mp ho
  exact h u hu r hr

theorem journal_distinct {d : FeedDb V} (hd : FeedInv d) : (d.journal.map (·.sourceCursor)).Nodup :=
  hd.distinct.sublist ((hd.kept.trans (List.sublist_append_left _ _)).map _)

theorem ConsumerInv.query {d : FeedDb V} {c : Consumer V} (hd : FeedInv d) (hno : NoneOvertaken d)
    (h : ConsumerInv d c) (hphase : c.phase = .woken limit wake) :
    ConsumerInv d { c with phase := .queried wake (readAfter d.journal c.after limit) } := by
  obtain ⟨hlimit, hwake⟩ := hphase ▸ h.inFlight
  have hdist := journal_distinct hd
  have hsub : (readAfter d.journal c.after limit).Sublist _ := List.take_sublist _ _
  refine h.withPhase ⟨?_, ?_, ?_, ?_, ?_⟩
  · exact fun hnil => hwake.trans (readAfter_eq_nil hlimit hnil)
  · exact (eventsAfter_sorted hdist c.after).sublist hsub
  · intro e he
    obtain ⟨r, hr, hlt, rfl⟩ := mem_eventsAfter.mp (hsub.subset he)
    exact ⟨hlt, r, hd.kept.subset hr, rfl⟩
  · intro e he o ho
    obtain ⟨r, hr, -, rfl⟩ := mem_eventsAfter.mp (hsub.subset he)
    exact hno.openRows hr ho
  · refine (Nat.lt_or_ge c.after (highestFloor d.checkpoints)).imp_right fun hge e he r hr hlt hle => ?_
    have hj : r ∈ d.journal := (hd.compacted r hr).resolve_right (by omega)
    exact readAfter_closed hdist he hj hlt hle

theorem ConsumerInv.step {d : FeedDb V} {c : Consumer V} (hd : FeedInv d) (h : ConsumerInv d c)
    {a : FeedAction V} (hno : a = .query → NoneOvertaken d) : ConsumerInv d (c.step d a) := by
  cases a with
  | db a => exact h
  | snapshot => exact h
  | read limit =>
    simp only [Consumer.step]
    split
    · split
      · exact h.withPhase trivial
      · exact h.withPhase (clamp_limit_pos limit)
    · exact h
  | wake =>
    simp only [Consumer.step]
    split
    · rename_i limit hphase
      have hwait : PhaseInv d c.after (.waiting limit) := hphase ▸ h.inFlight
      exact h.withPhase ⟨hwait, hd.signals _ List.mem_cons_self⟩
    · exact h
  | query =>
    simp only [Consumer.step]
    split
    · rename_i hphase
      exact h.query hd (hno rfl) hphase
    · exact h
  | recheck =>
    simp only [Consumer.step]
    split
    · rename_i hphase
      split
      · exact h.withPhase trivial
      · rename_i hex
        exact h.reply hd hphase (by simpa using hex)
    · exact h

theorem ConsumerInv.snapshot {d : FeedDb V} (hd : FeedInv d) (hno : NoneOvertaken d) :
    ConsumerInv d ⟨newestCursor d.journal, .idle, [], []⟩ := by
  refine ⟨⟨List.Pairwise.nil, by simp, by simp⟩, by simp, ?_, Nat.le_refl _, by simp, ?_, ?_, trivial⟩
  · intro o ho
    change newestCursor d.journal < o.sourceCursor
    have hpos := (hd.bounded o (List.mem_append_right _ ho)).1
    rcases foldl_max_attained (fun r : JournalRow V => r.sourceCursor) d.journal 0 with h0 | ⟨r, hr, hrc⟩
    · exact lt_of_eq_of_lt h0 hpos
    · exact lt_of_eq_of_lt hrc.symm (hno.openRows hr ho)
  · intro r hr hlt
    exact absurd (hd.newest r hr) (Nat.not_le.mpr hlt)
  · intro hlt
    exact absurd hd.floor_le (Nat.not_le.mpr hlt)

/-! ## Whole runs -/

/-- The database invariant, and that of the client if there is one. -/
structure FeedStateInv (s : FeedState V) : Prop where
  db : FeedInv s.db
  consumer : ∀ c ∈ s.consumer, ConsumerInv s.db c

theorem committed_eq (d : FeedDb V) (a : DbAction V) :
    a.committed d = (a.newRows d).map JournalRow.toEvent := by
  cases a <;> rfl

/-- **One action of the system.** -/
theorem feedStep_inv (s : FeedState V) (a : FeedAction V) (h : FeedStateInv s) (hno : Unovertaken s a) :
    FeedStateInv (feedStep s a) := by
  -- an action of the client leaves the database alone
  have hclient : ∀ a : FeedAction V, (a = .query → NoneOvertaken s.db) →
      FeedStateInv { s with consumer := s.consumer.map fun c => c.step s.db a } := by
    refine fun a hno => ⟨h.db, fun c hc => ?_⟩
    obtain ⟨c₀, hc₀, rfl⟩ := Option.mem_map.mp hc
    exact (h.consumer c₀ hc₀).step h.db hno
  cases a with
  | db a =>
    refine ⟨h.db.step a, fun c hc => ?_⟩
    obtain ⟨c₀, hc₀, rfl⟩ := Option.mem_map.mp hc
    have hinv := (h.consumer c₀ hc₀).change h.db (step_change s.db a)
    rw [← committed_eq] at hinv
    refine hinv.withPhase ?_
    split
    · trivial
    · trivial
    · exact hinv.inFlight
  | snapshot =>
    simp only [feedStep]
    split
    · exact h
    · refine ⟨h.db, fun c hc => ?_⟩
      cases hc
      exact ConsumerInv.snapshot h.db hno
  | read limit => exact hclient _ (by simp)
  | wake => exact hclient _ (by simp)
  | query => exact hclient _ fun _ => hno
  | recheck => exact hclient _ (by simp)

theorem run_inv {as : List (FeedAction V)} (h : Meets feedStep Unovertaken FeedState.init as) :
    FeedStateInv (as.foldl feedStep (FeedState.init : FeedState V)) :=
  h.invariant feedStep_inv ⟨FeedInv.empty, fun c hc => by cases hc⟩

/-! ## A client that keeps reading -/

/-- One `read_domain_events` call that nothing interrupts. -/
def readCall (limit : Int) : List (FeedAction V) := [.read limit, .wake, .query, .recheck]

variable {s : FeedState V}

/-- The reply of such a call: `CursorExpired`, or the next part of the tail. -/
theorem readCall_expired {c : Consumer V} (hc : s.consumer = some c)
    (hidle : c.phase = .idle) (limit : Int) (hex : isExpired s.db.checkpoints c.after = true) :
    (readCall limit).foldl feedStep s = { s with consumer := some { c with phase := .expired } } := by
  simp [readCall, feedStep, Consumer.step, hc, hidle, hex]

theorem readCall_reply {c : Consumer V} (hc : s.consumer = some c)
    (hidle : c.phase = .idle) (limit : Int) (hex : isExpired s.db.checkpoints c.after = false) :
    (readCall limit).foldl feedStep s =
      let events := readAfter s.db.journal c.after (clamp limit MIN_LIMIT MAX_LIMIT).toNat
      ⟨s.db, some ⟨replyCursor c.after s.db.latestCommittedCursor events, .idle, c.since,
        c.delivered ++ events⟩⟩ := by
  simp [readCall, feedStep, Consumer.step, hc, hidle, hex]

theorem readCalls_of_expired (limits : List Int) {c : Consumer V} (hc : s.consumer = some c) (hexp : c.phase = .expired) :
    (limits.flatMap readCall).foldl feedStep s = s := by
  induction limits with
  | nil => rfl
  | cons limit limits ih =>
    have hone : (readCall limit).foldl feedStep s = s := by
      obtain ⟨db, consumer⟩ := s
      cases hc
      simp [readCall, feedStep, Consumer.step, hexp]
    rw [List.flatMap_cons, List.foldl_append, hone]
    exact ih

theorem readCalls_drain (limits : List Int) :
    ∀ {s : FeedState V} {c : Consumer V}, FeedStateInv s → NoneOvertaken s.db → s.consumer = some c →
      c.phase = .idle →
      (∀ e ∈ c.since, e ∈ c.delivered) ∨ c.since.length ≤ c.delivered.length + limits.length →
      ∃ c', ((limits.flatMap readCall).foldl feedStep s).consumer = some c' ∧
        (c'.phase = .expired ∨ c'.since = c.since ∧ ∀ e ∈ c.since, e ∈ c'.delivered) := by
  induction limits with
  | nil =>
    intro s c hs hno hc hidle hlen
    refine ⟨c, hc, Or.inr ⟨rfl, hlen.elim id fun hlen => ?_⟩⟩
    have hinv := (hs.consumer c hc).complete
    have hnodup : c.delivered.Nodup := hinv.ordered.imp fun hlt heq => by rw [heq] at hlt; omega
    exact ((hnodup.subperm hinv.sound).perm_of_length_le hlen).symm.subset
  | cons limit limits ih =>
    intro s c hs hno hc hidle hlen
    have hmeets : Meets feedStep Unovertaken s (readCall limit) := ⟨trivial, trivial, hno, trivial, trivial⟩
    have hnext := hmeets.invariant feedStep_inv hs
    rw [List.flatMap_cons, List.foldl_append]
    cases hex : isExpired s.db.checkpoints c.after with
    | true =>
      rw [readCall_expired hc hidle limit hex]
      refine ⟨{ c with phase := .expired }, ?_, Or.inl rfl⟩
      rw [readCalls_of_expired limits rfl rfl]
    | false =>
      rw [readCall_reply hc hidle limit hex] at hnext ⊢
      set events := readAfter s.db.journal c.after (clamp limit MIN_LIMIT MAX_LIMIT).toNat with hevents
      refine @ih _ ⟨replyCursor c.after s.db.latestCommittedCursor events, .idle, c.since,
        c.delivered ++ events⟩ hnext hno rfl rfl ?_
      rcases hev : events with _ | ⟨e, es⟩
      · -- nothing behind the client's cursor: it has everything already
        left
        intro e he
        have hinv := hs.consumer c hc
        refine List.mem_append_left _ (hinv.complete.gapless e he ?_)
        obtain ⟨r, hr, rfl⟩ := hinv.since_history e he
        exact (hs.db.newest r hr).trans (readAfter_eq_nil (clamp_limit_pos limit) (hevents ▸ hev))
      · refine hlen.imp (fun hall e he => List.mem_append_left _ (hall e he)) fun hlen => ?_
        simp only [List.length_append, List.length_cons] at hlen ⊢
        omega

/-- **Snapshot plus feed tail is complete** in every run in which no snapshot and no query is taken
    while an open transaction holds a cursor below a committed one: the client is given events of
    the tail only, each once and in cursor order, and is never advanced past one it was not given;
    and from every such state as many calls as there are events end with `CursorExpired` or with
    everything delivered. -/
theorem feed_tail_complete (as : List (FeedAction V)) (h : Meets feedStep Unovertaken FeedState.init as) :
    ∀ c ∈ (as.foldl feedStep FeedState.init).consumer, c.Complete ∧
      (c.phase = .idle → NoneOvertaken (as.foldl feedStep FeedState.init).db →
        ∀ limits : List Int, c.since.length ≤ limits.length →
          ∃ c' ∈ ((limits.flatMap readCall).foldl feedStep (as.foldl feedStep FeedState.init)).consumer,
            c'.phase = .expired ∨ c'.since = c.since ∧ ∀ e ∈ c.since, e ∈ c'.delivered) := by
  intro c hc
  have hs := run_inv h
  refine ⟨(hs.consumer c hc).complete, fun hidle hno limits hlen => ?_⟩
  exact readCalls_drain limits hs hno hc hidle (Or.inr (by omega))

/-! ## An overtaken transaction -/

section
variable (m : DomainMutation V)

/-- A pause takes cursor 1 and stays open; a batch takes cursor 2, commits and is read; then the
    pause commits. -/
def overtakenRun : List (FeedAction V) :=
  [.snapshot, .db (.begin 1 false), .db (.append 1 "trading_control:DU1:2" 2 m 0),
   .db (.begin 2 true), .db (.append 2 "order:7" 1 m 0), .db (.commit 2), .db (.signal 2),
   .read 100, .wake, .query, .recheck, .db (.commit 1)]

/-- The same two transactions, committed in the order of their cursors. -/
def inOrderRun : List (FeedAction V) :=
  [.snapshot, .db (.begin 1 false), .db (.append 1 "trading_control:DU1:2" 2 m 0), .db (.commit 1),
   .db (.begin 2 true), .db (.append 2 "order:7" 1 m 0), .db (.commit 2), .db (.signal 2),
   .read 100, .wake, .query, .recheck]

end

/-- `trading_control.updated` of a pause. -/
def pauseMutation : DomainMutation Unit :=
  ⟨"trading_control.updated", "trading_control", "DU1", .upsert, some "DU1", "trader_service", 0,
    some "cmd-1", some [], rfl⟩

/-- The client has cursor 2 and was never given event 1. -/
theorem overtaken_event_lost :
    ¬ ∀ as : List (FeedAction Unit), ∀ c ∈ (as.foldl feedStep FeedState.init).consumer, c.Complete := by
  intro h
  have hrun : ((overtakenRun pauseMutation).foldl feedStep FeedState.init).consumer =
      some ⟨2, .idle, [⟨"order:7", 2, 1, pauseMutation⟩, ⟨"trading_control:DU1:2", 1, 2, pauseMutation⟩],
        [⟨"order:7", 2, 1, pauseMutation⟩]⟩ := rfl
  have hlost := (h _ _ hrun).gapless ⟨"trading_control:DU1:2", 1, 2, pauseMutation⟩ (by simp) (by simp)
  simp at hlost

/-- Both events reach a client when the commits keep the order of the cursors. -/
theorem feed_tail_complete_in_order :
    Meets feedStep Unovertaken FeedState.init (inOrderRun pauseMutation) ∧
      ∀ c ∈ ((inOrderRun pauseMutation).foldl feedStep FeedState.init).consumer,
        c.Complete ∧ c.delivered.map (·.sourceCursor) = [1, 2] := by
  have hmeets : Meets feedStep Unovertaken FeedState.init (inOrderRun pauseMutation) := by decide
  refine ⟨hmeets, fun c hc => ⟨(feed_tail_complete _ hmeets c hc).1, ?_⟩⟩
  cases hc
  rfl

end MmrTrader.Journal
