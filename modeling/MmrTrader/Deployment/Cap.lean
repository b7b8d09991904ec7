import MmrTrader.Deployment.RegistrationLaws

/-!
# The deployment cap and the renewal lines

What holds in every state that registrations, withdrawals and reads of the statuses can reach, in any order
of their steps: `deployment_lines_hold`.

A retry is a registration that begins when its judgment is sealed by the same request.  A registration that
began before that seal either returns the same version or is refused: `Capped.registered` and
`Capped.refused` are about every call.
-/

namespace MmrTrader.Deployment

open MmrTrader.Lib MmrTrader.Lib.Interleaving

abbrev CallWorld := World Shared Answers DeployError Result

abbrev CallLabel := Label Answers DeployError Request Event

/-- Follow `prior_version` from a version. -/
def firstVersion (db : VersionDb) (r : VersionRow) : Option VersionRow :=
  Lineage.ancestor VersionRow.priorVersion db.versions db.versions.rows.length r

/-- What is said of a state, of the calls that ended in it and of those that begin in it. -/
structure Capped (P : Setup) (w : CallWorld) : Prop where
  cap : (standingNow P w.shared).length ≤ P.maxActive
  noneOver : ∀ i l, w.threads i = some (.done (.ok (.statuses l))) → ∀ e ∈ l, e.2 ≠ .OVER_CAP
  oneVersion : ∀ r ∈ w.shared.db.versions.rows, ∀ r' ∈ w.shared.db.versions.rows,
    r.judgmentId = r'.judgmentId → r = r'
  oneRenewal : ∀ r ∈ w.shared.db.versions.rows, ∀ r' ∈ w.shared.db.versions.rows, ∀ d,
    r.priorVersion = some d → r'.priorVersion = some d → r = r'
  apart : ∀ r ∈ w.shared.db.versions.rows, ∀ d, r.priorVersion = some d → d ∉ w.shared.db.withdrawnIds
  line : ∀ r ∈ w.shared.db.versions.rows, ∃ first, firstVersion w.shared.db r = some first ∧
    first.record.kind = .INITIAL ∧ first.baseDigest = r.baseDigest
  /-- A registration returns the version its own request sealed for its judgment. -/
  registered : ∀ i body principal commandId (later : List CallLabel), (∀ l ∈ later, l.Spares i) →
    let w' := (deployments P).run ((deployments P).step w (.start i (.register body principal commandId))) later
    ∀ o, w'.threads i = some (.done (.ok (.registered o))) → Registered P body o w'.shared
  /-- An exact retry returns that version, and none of its steps writes. -/
  retry : ∀ row ∈ w.shared.db.versions.rows, ∀ i body principal commandId (later : List CallLabel),
    row.judgmentId = body.judgmentId → row.requestDigest = P.requestDigest body → (∀ l ∈ later, l.Spares i) →
    let w' := (deployments P).run ((deployments P).step w (.start i (.register body principal commandId))) later
    (∀ r, w'.threads i = some (.done r) → r = .ok (.registered (outcome row.digest row.record false))) ∧
      ∀ a, (w'.go i a).shared = w'.shared
  /-- No step of a call that ends with an exception wrote. -/
  refused : ∀ i a (later : List CallLabel) e, (∀ l ∈ later, l.Leaves i) →
    ((deployments P).run (w.go i a) later).threads i = some (.done (.error e)) → (w.go i a).shared = w.shared

variable {P : Setup} {w : CallWorld}
variable {r : VersionRow}

theorem line_of_inv (h : Inv P w.shared) (hr : r ∈ w.shared.db.versions.rows) :
    ∃ first, firstVersion w.shared.db r = some first ∧ first.record.kind = .INITIAL ∧
      first.baseDigest = r.baseDigest := by
  obtain ⟨first, hfirst, hancestor, hnone, hbase⟩ := h.descends.ancestor hr
  refine ⟨first, hancestor, ?_, hbase⟩
  exact first.record.initial_iff.mpr ((h.columns hfirst).2.2.2.symm.trans hnone)

theorem oneRenewal_of_inv (h : Inv P w.shared) {r' : VersionRow} (hr : r ∈ w.shared.db.versions.rows)
    (hr' : r' ∈ w.shared.db.versions.rows) {d : Digest} (hd : r.priorVersion = some d) (hd' : r'.priorVersion = some d) :
    r = r' := by
  refine h.oneRenewal r hr r' hr' ?_ (hd.trans hd'.symm)
  rw [hd]
  exact Option.some_ne_none d

variable {later : List CallLabel}

/-- A call that begins in a steady state, while the others go on. -/
theorem begun {Q : Except DeployError Result → Shared → Prop} {G : Shared → Shared → Prop} {k : Request}
    (h : Steady (Inv P) (Keeps P) (Post fun r _ => r.Fine) w) (hQ : ∀ r s t, Keeps P s t → Q r s → Q r t) (i : Nat)
    (hk : Safe (Keeps P) G Q (k.program P) w.shared) (hl : ∀ l ∈ later, l.Spares i) :
    Steady (Inv P) (Keeps P) (Post fun r _ => r.Fine)
      ((deployments P).run ((deployments P).step w (.start i k)) later) ∧
    ∃ p, ((deployments P).run ((deployments P).step w (.start i k)) later).threads i = some p ∧
      Safe (Keeps P) G Q p ((deployments P).run ((deployments P).step w (.start i k)) later).shared := by
  have hS := deployments_sound P
  have hstep := (hS.step h (.start i k)).1
  refine ⟨(hS.run hstep later).1, ?_⟩
  exact hS.thread hstep hQ (World.set_self w i _) hk hl

theorem registered_of_steady (h : Steady (Inv P) (Keeps P) (Post fun r _ => r.Fine) w) (i : Nat) (body : Body)
    (principal commandId : String) (hl : ∀ l ∈ later, l.Spares i) {o : Outcome}
    (ho : ((deployments P).run ((deployments P).step w (.start i (.register body principal commandId))) later).threads i =
      some (.done (.ok (.registered o)))) :
    Registered P body o
      ((deployments P).run ((deployments P).step w (.start i (.register body principal commandId))) later).shared := by
  have hsafe : Runs P (fun r t => ∀ o, r = .registered o → Registered P body o t)
      ((Request.register body principal commandId).program P) w.shared := by
    refine Runs.bind h.inv (register_runs h.inv) ?_
    intro o t _ hreg
    refine Runs.pure ?_
    intro o' ho'
    cases ho'
    exact hreg
  obtain ⟨-, p, hp, hp'⟩ := begun h (fun r s t ht hr v hv o ho => (hr v hv o ho).later ht) i hsafe hl
  rw [ho] at hp
  cases hp
  exact hp' _ rfl o rfl

theorem retry_of_steady (h : Steady (Inv P) (Keeps P) (Post fun r _ => r.Fine) w) {row : VersionRow}
    (hrow : row ∈ w.shared.db.versions.rows) (i : Nat) (body : Body) (principal commandId : String)
    (hid : row.judgmentId = body.judgmentId)
    (hrequest : row.requestDigest = P.requestDigest body) (hl : ∀ l ∈ later, l.Spares i) :
    let w' := (deployments P).run ((deployments P).step w (.start i (.register body principal commandId))) later
    (∀ r, w'.threads i = some (.done r) → r = .ok (.registered (outcome row.digest row.record false))) ∧
      ∀ a, (w'.go i a).shared = w'.shared := by
  have hsafe : Safe (Keeps P) Eq (fun r _ => r = .ok (.registered (outcome row.digest row.record false)))
      ((Request.register body principal commandId).program P) w.shared := by
    refine Safe.bind (retry_runs h.inv hrow hid hrequest) ?_ ?_
    · intro o t ho
      cases ho
      exact Safe.pure rfl
    · intro e t he
      cases he
  obtain ⟨hsteady, p, hp, hp'⟩ := begun h (fun r s t _ hr => hr) i hsafe hl
  refine ⟨?_, ?_⟩
  · intro r hr
    rw [hr] at hp
    cases hp
    exact hp'
  · intro a
    exact (hp'.go hp hsteady.inv.keeps_refl rfl a).symm

/-- **The deployment cap and the renewal lines hold in every reachable state.** -/
theorem deployment_lines_hold (P : Setup) (judgments : Table JudgmentFacts.judgmentId)
    (bases : Table DeploymentRow.digest) (authored : Table AuthoredRecord.digest) (clock : Int) (ls : List CallLabel) :
    Capped P ((deployments P).run (start judgments bases authored clock) ls) := by
  have hstart : Steady (Inv P) (Keeps P) (Post fun r _ => r.Fine) (start judgments bases authored clock) :=
    Steady.init start_inv fun _ => rfl
  have h := ((deployments_sound P).run hstart ls).1
  have hlast : AllWriteLast ((deployments P).run (start judgments bases authored clock) ls) := by
    refine AllWriteLast.run program_writesLast ?_ ls
    intro i p hp
    cases hp
  refine ⟨h.inv.cap, ?_, h.inv.oneVersion, ?_, ?_, ?_, ?_, ?_, ?_⟩
  · intro i l hl
    exact h.safe i _ hl _ rfl
  · intro r hr r' hr' d hd hd'
    exact oneRenewal_of_inv h.inv hr hr' hd hd'
  · intro r hr d hd
    exact h.inv.apart d (List.mem_filterMap.mpr ⟨r, hr, hd⟩)
  · intro r hr
    exact line_of_inv h.inv hr
  · intro i body principal commandId later hl w' o ho
    exact registered_of_steady h i body principal commandId hl ho
  · intro row hrow i body principal commandId later hid hrequest hl
    exact retry_of_steady h hrow i body principal commandId hid hrequest hl
  · intro i a later e hl hend
    exact System.refused_wrote_nothing hlast hl hend

end MmrTrader.Deployment
