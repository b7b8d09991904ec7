import MmrTrader.Lib.GuardedRun
import MmrTrader.Rpc.Server

/-!
# When a nonce is accepted twice

* `Authentic` — the request was signed by the principal it names, for this server and role, with these field values.
* `Promise` — each nonce is accepted once, only accepted requests hold a nonce, every accepted request is authentic,
  and a handler ran only for an accepted request of a principal on the allow-list.
* `Remembered` — a nonce that was accepted at a reading `c` is claimed again only while no claim since, this one
  included, has read the clock after `c + 60`.
* `replay_accepted` — a run that accepts one request twice; `accepted_once_iff` — a run keeps the promise in every
  state exactly when each claim is of a nonce still remembered or never accepted.
-/

namespace MmrTrader.Rpc

open Lib

variable {F : Type} [PyFloat F]

/-- What `verify_request` has established. -/
structure Authentic (S : ServiceIdentity F) (role : String) (request : TypedRpcRequest F) (caller : RpcCaller) : Prop where
  signed : ∃ r, S.signed request.principal (.request r) ∧ SameFields r request
  server : request.server = S.principal
  role : request.role = role
  caller : caller = ⟨request.principal, request.onBehalfOf, request.controllerEpoch⟩

namespace Server

/-- **A signed request is accepted at most once**, and only accepted requests reach a handler. -/
structure Promise (S : ServiceIdentity F) (acl : Acl) (s : Server F) : Prop where
  once : (s.acceptances.map (·.request.nonce)).Nodup
  claimed : ∀ e ∈ s.cache, ∃ a ∈ s.acceptances, a.request.nonce = e.1
  authentic : ∀ a ∈ s.acceptances, Authentic S a.role a.request a.caller
  dispatched : ∀ d ∈ s.dispatches, (∃ a ∈ s.acceptances, a.task = d.task ∧ a.role = d.role ∧ a.request = d.request) ∧
    ∃ allowed, acl.allowed d.role d.request.method = some allowed ∧ d.request.principal ∈ allowed

/-- A claim of a nonce accepted before comes while it is still remembered. -/
def Remembered (s : Server F) : Act F → Prop
  | .next i _ => ∀ role request caller now, s.tasks i = some (.claiming role request caller now) →
      ∀ a ∈ s.acceptances, a.request.nonce = request.nonce →
        a.latest ≤ a.claimedAt + DEFAULT_NONCE_TTL_SECONDS ∧ now ≤ a.claimedAt + DEFAULT_NONCE_TTL_SECONDS
  | _ => True

end Server

variable {role : String} {request : TypedRpcRequest F} {caller : RpcCaller}

/-- The signature of an accepted request is one of its principal, on these very fields. -/
theorem checkRequest_ok {S : ServiceIdentity F} {now : ℚ}
    (h : S.checkRequest role now request = .ok caller) : Authentic S role request caller := by
  unfold ServiceIdentity.checkRequest at h
  split at h
  · cases h
  split at h
  · cases h
  cases hkey : S.keyring request.principal with
  | none =>
    rw [hkey] at h
    cases h
  | some key =>
    rw [hkey] at h
    dsimp only at h
    split at h
    · cases h
    rename_i hverify
    split at h
    · cases h
    rename_i hdestination
    split at h
    · cases h
    split at h
    · cases h
    cases h
    rw [not_or, not_not, not_not] at hdestination
    refine ⟨?_, hdestination.1, hdestination.2, rfl⟩
    obtain ⟨m, hm, hbytes⟩ := S.unforgeable _ key _ _ hkey (by simpa using hverify)
    cases m with
    | request r => exact ⟨r, hm, rpcSigningBytes_injective hbytes⟩
    | response r => exact absurd hbytes.symm (request_ne_response request r)

/-! ## The nonce cache -/

/-- An acceptance after one more claim. -/
def Acceptance.hear (now : ℚ) (a : Acceptance F) : Acceptance F := { a with latest := max a.latest now }

/-- The cache holds exactly the acceptances no claim since has outlived. -/
def CacheHolds (cache : NonceCache) (acceptances : List (Acceptance F)) : Prop :=
  ∀ n c, (n, c) ∈ cache ↔ ∃ a ∈ acceptances, a.request.nonce = n ∧ a.claimedAt = c ∧ a.latest ≤ c + DEFAULT_NONCE_TTL_SECONDS

variable {cache : NonceCache} {acceptances : List (Acceptance F)} {now : ℚ}

theorem mem_evictExpired {e : String × ℚ} :
    e ∈ cache.evictExpired now ↔ e ∈ cache ∧ now ≤ e.2 + DEFAULT_NONCE_TTL_SECONDS := by
  rw [NonceCache.evictExpired, List.mem_filter, decide_eq_true_iff, not_lt, sub_le_iff_le_add']

omit [PyFloat F] in
theorem CacheHolds.evict (h : CacheHolds cache acceptances) (now : ℚ) :
    CacheHolds (cache.evictExpired now) (acceptances.map (Acceptance.hear now)) := by
  intro n c
  rw [mem_evictExpired, h n c]
  constructor
  · rintro ⟨⟨a, ha, hn, hc, hlatest⟩, hnow⟩
    exact ⟨_, List.mem_map.mpr ⟨a, ha, rfl⟩, hn, hc, max_le hlatest hnow⟩
  · rintro ⟨_, hb, hn, hc, hlatest⟩
    obtain ⟨a, ha, rfl⟩ := List.mem_map.mp hb
    exact ⟨⟨a, ha, hn, hc, (le_max_left _ _).trans hlatest⟩, (le_max_right _ _).trans hlatest⟩

omit [PyFloat F] in
theorem CacheHolds.accept (h : CacheHolds cache acceptances) (i : Nat) (role : String) (request : TypedRpcRequest F)
    (caller : RpcCaller) (now : ℚ) :
    CacheHolds (cache ++ [(request.nonce, now)]) (acceptances ++ [⟨i, role, request, caller, now, now⟩]) := by
  have hfresh : now ≤ now + DEFAULT_NONCE_TTL_SECONDS := le_add_of_nonneg_right (by decide)
  intro n c
  rw [List.mem_append, List.mem_singleton, h n c]
  constructor
  · rintro (⟨a, ha, hrest⟩ | heq)
    · exact ⟨a, List.mem_append_left _ ha, hrest⟩
    · cases heq
      exact ⟨_, List.mem_append_right _ (List.mem_singleton.mpr rfl), rfl, rfl, hfresh⟩
  · rintro ⟨a, ha, hn, hc, hlatest⟩
    rcases List.mem_append.mp ha with ha | ha
    · exact Or.inl ⟨a, ha, hn, hc, hlatest⟩
    · obtain rfl := List.mem_singleton.mp ha
      cases hn
      cases hc
      exact Or.inr rfl

/-! ## What every state keeps -/

/-- Where a task stands. -/
def PhaseOk (S : ServiceIdentity F) (acceptances : List (Acceptance F)) (i : Nat) : Phase F → Prop
  | .checked role request caller => Authentic S role request caller
  | .claiming role request caller _ => Authentic S role request caller
  | .accepted role request caller => ∃ a ∈ acceptances, a.task = i ∧ a.role = role ∧ a.request = request ∧ a.caller = caller
  | _ => True

structure Inv (S : ServiceIdentity F) (acl : Acl) (s : Server F) : Prop where
  kept : s.Promise S acl
  cache : CacheHolds s.cache s.acceptances
  registry : ∀ r ∈ s.registry.rows, acl.allowed r.socketRole r.method = some r.allowedPrincipals
  tasks : ∀ i p, s.tasks i = some p → PhaseOk S s.acceptances i p

variable {S : ServiceIdentity F} {acl : Acl} {s : Server F}

theorem Inv.keep {s' : Server F} (h : Inv S acl s) (hcache : s'.cache = s.cache) (hacc : s'.acceptances = s.acceptances)
    (hdis : s'.dispatches = s.dispatches)
    (hreg : ∀ r ∈ s'.registry.rows, acl.allowed r.socketRole r.method = some r.allowedPrincipals)
    (htasks : ∀ i p, s'.tasks i = some p → s.tasks i = some p ∨ PhaseOk S s.acceptances i p) : Inv S acl s' := by
  refine ⟨⟨?_, ?_, ?_, ?_⟩, ?_, hreg, fun i p hp => ?_⟩
  · rw [hacc]
    exact h.kept.once
  · rw [hcache, hacc]
    exact h.kept.claimed
  · rw [hacc]
    exact h.kept.authentic
  · rw [hdis, hacc]
    exact h.kept.dispatched
  · rw [hcache, hacc]
    exact h.cache
  · rw [hacc]
    exact (htasks i p hp).elim (h.tasks i p) id

variable {i : Nat}

theorem Inv.set (h : Inv S acl s) {q : Option (Phase F)} (hq : ∀ p, q = some p → PhaseOk S s.acceptances i p) :
    Inv S acl (s.set i q) := by
  refine h.keep rfl rfl rfl h.registry fun k p hp => ?_
  by_cases hk : k = i
  · subst hk
    exact Or.inr (hq p (by simpa [Server.set] using hp))
  · exact Or.inl (by simpa [Server.set, hk] using hp)

theorem Inv.refuse (h : Inv S acl s) (i : Nat) (problem : Problem) : Inv S acl (s.refuse i problem) :=
  h.set (by rintro _ ⟨⟩; trivial)

theorem Inv.release (h : Inv S acl s) (role : String) : Inv S acl (s.release role) :=
  h.keep rfl rfl rfl h.registry fun _ _ hp => Or.inl hp

omit [PyFloat F] in
theorem hear_kept (now : ℚ) : (acceptances.map (Acceptance.hear now)).map (·.request.nonce) = acceptances.map (·.request.nonce) := by
  rw [List.map_map]
  rfl

/-- One more claim, whatever it says. -/
theorem Inv.hear (h : Inv S acl s) (now : ℚ) :
    Inv S acl { s with cache := s.cache.evictExpired now, acceptances := s.acceptances.map (Acceptance.hear now) } := by
  have hsome : ∀ {Q : Acceptance F → Prop}, (∀ a, Q a → Q (a.hear now)) → (∃ a ∈ s.acceptances, Q a) →
      ∃ a ∈ s.acceptances.map (Acceptance.hear now), Q a := by
    rintro Q hQ ⟨a, ha, hq⟩
    exact ⟨_, List.mem_map.mpr ⟨a, ha, rfl⟩, hQ a hq⟩
  refine ⟨⟨?_, fun e he => ?_, fun b hb => ?_, fun d hd => ?_⟩, h.cache.evict now, h.registry, fun i p hp => ?_⟩
  · rw [hear_kept]
    exact h.kept.once
  · exact hsome (fun _ hn => hn) (h.kept.claimed e (mem_evictExpired.mp he).1)
  · obtain ⟨a, ha, rfl⟩ := List.mem_map.mp hb
    exact h.kept.authentic a ha
  · obtain ⟨hfrom, hallowed⟩ := h.kept.dispatched d hd
    exact ⟨hsome (fun _ hq => hq) hfrom, hallowed⟩
  · have hok := h.tasks i p hp
    cases p with
    | accepted role request caller => exact hsome (fun _ hq => hq) hok
    | decoded => trivial
    | checked => exact hok
    | claiming => exact hok
    | running => trivial
    | replied => trivial

/-- An acceptance of a nonce never accepted before. -/
theorem Inv.accept (h : Inv S acl s) {now : ℚ}
    (hauthentic : Authentic S role request caller) (hfresh : ∀ a ∈ s.acceptances, a.request.nonce ≠ request.nonce) :
    Inv S acl { s with
      cache := s.cache ++ [(request.nonce, now)]
      acceptances := s.acceptances ++ [⟨i, role, request, caller, now, now⟩] } := by
  have hsome : ∀ {Q : Acceptance F → Prop}, (∃ a ∈ s.acceptances, Q a) →
      ∃ a ∈ s.acceptances ++ [⟨i, role, request, caller, now, now⟩], Q a := by
    rintro Q ⟨a, ha, hq⟩
    exact ⟨a, List.mem_append_left _ ha, hq⟩
  refine ⟨⟨?_, fun e he => ?_, fun b hb => ?_, fun d hd => ?_⟩, h.cache.accept i role request caller now, h.registry,
    fun k p hp => ?_⟩
  · rw [List.map_append, List.nodup_append]
    refine ⟨h.kept.once, List.nodup_singleton _, ?_⟩
    rintro _ hn _ hm rfl
    obtain ⟨a, ha, hnonce⟩ := List.mem_map.mp hn
    exact hfresh a ha (hnonce.trans (List.mem_singleton.mp hm))
  · rcases List.mem_append.mp he with he | he
    · exact hsome (h.kept.claimed e he)
    · obtain rfl := List.mem_singleton.mp he
      exact ⟨_, List.mem_append_right _ (List.mem_singleton.mpr rfl), rfl⟩
  · rcases List.mem_append.mp hb with hb | hb
    · exact h.kept.authentic b hb
    · obtain rfl := List.mem_singleton.mp hb
      exact hauthentic
  · obtain ⟨hfrom, hallowed⟩ := h.kept.dispatched d hd
    exact ⟨hsome hfrom, hallowed⟩
  · have hok := h.tasks k p hp
    cases p with
    | accepted role' request' caller' => exact hsome hok
    | decoded => trivial
    | checked => exact hok
    | claiming => exact hok
    | running => trivial
    | replied => trivial

/-! ## Steps -/

omit [PyFloat F] in
theorem claim_cases (s : Server F) (i : Nat) (role : String) (request : TypedRpcRequest F) (caller : RpcCaller) (now : ℚ) :
    ((∃ e ∈ s.cache.evictExpired now, e.1 = request.nonce) ∧
      s.claim i role request caller now = Server.refuse { s with
        cache := s.cache.evictExpired now, acceptances := s.acceptances.map (Acceptance.hear now) } i
        (RpcError.replay request.nonce).problem) ∨
    ((∀ e ∈ s.cache.evictExpired now, e.1 ≠ request.nonce) ∧
      s.claim i role request caller now = Server.set { s with
        cache := s.cache.evictExpired now ++ [(request.nonce, now)]
        acceptances := s.acceptances.map (Acceptance.hear now) ++ [⟨i, role, request, caller, now, now⟩] } i
        (some (.accepted role request caller))) := by
  unfold Server.claim NonceCache.claim
  dsimp only
  cases hany : (s.cache.evictExpired now).any (·.1 == request.nonce) with
  | true =>
    obtain ⟨e, he, hn⟩ := List.any_eq_true.mp hany
    exact Or.inl ⟨⟨e, he, beq_iff_eq.mp hn⟩, rfl⟩
  | false =>
    refine Or.inr ⟨fun e he hn => ?_, rfl⟩
    exact absurd (List.any_eq_false.mp hany e he) (by simp [hn])

theorem Inv.found (h : Inv S acl s) {a : Acceptance F} (ha : a ∈ s.acceptances) {now : ℚ}
    (hlatest : a.latest ≤ a.claimedAt + DEFAULT_NONCE_TTL_SECONDS) (hnow : now ≤ a.claimedAt + DEFAULT_NONCE_TTL_SECONDS) :
    ∃ e ∈ s.cache.evictExpired now, e.1 = a.request.nonce :=
  ⟨_, mem_evictExpired.mpr ⟨(h.cache _ _).mpr ⟨a, ha, rfl, rfl, hlatest⟩, hnow⟩, rfl⟩

variable {answer : Except Problem Unit}

theorem Inv.claim (h : Inv S acl s) {now : ℚ} (htask : s.tasks i = some (.claiming role request caller now))
    (hr : s.Remembered (.next i answer)) : Inv S acl (s.claim i role request caller now) := by
  have hheard := h.hear now
  rcases claim_cases s i role request caller now with ⟨-, hstep⟩ | ⟨habsent, hstep⟩
  · rw [hstep]
    exact hheard.refuse i _
  · rw [hstep]
    have hfresh : ∀ a ∈ s.acceptances.map (Acceptance.hear now), a.request.nonce ≠ request.nonce := by
      intro b hb hnonce
      obtain ⟨a, ha, rfl⟩ := List.mem_map.mp hb
      obtain ⟨hlatest, hnow⟩ := hr role request caller now htask a ha hnonce
      obtain ⟨e, he, hen⟩ := h.found ha hlatest hnow
      exact habsent e he (hen.trans hnonce)
    refine (hheard.accept (i := i) (h.tasks i _ htask) hfresh).set ?_
    rintro _ ⟨⟩
    exact ⟨_, List.mem_append_right _ (List.mem_singleton.mpr rfl), rfl, rfl, rfl, rfl⟩

theorem Inv.dispatch (h : Inv S acl s)
    (htask : s.tasks i = some (.accepted role request caller)) (parsedBody : Except Problem Unit) :
    Inv S acl (s.dispatch i role request caller parsedBody) := by
  unfold Server.dispatch
  cases hreg : s.registry.resolve role request.method with
  | none => exact h.refuse i _
  | some registration =>
    dsimp only
    split
    · exact h.refuse i _
    · rename_i hallowed
      cases parsedBody with
      | error problem => exact h.refuse i _
      | ok _ =>
        dsimp only
        split
        · exact h.refuse i _
        · obtain ⟨a, ha, htaskId, hrole, hrequest, hcaller⟩ := h.tasks i _ htask
          obtain ⟨hmem, hkey⟩ := Table.get?_eq_some.mp hreg
          have hacl := h.registry registration hmem
          have hprincipal : caller.principal = request.principal := by
            rw [← hcaller, (h.kept.authentic a ha).caller, hrequest]
          have hdispatched : Inv S acl { s with
              activeHandlers := Function.update s.activeHandlers role (s.activeHandlers role + 1)
              dispatches := s.dispatches ++ [⟨i, role, request, caller⟩] } := by
            refine ⟨⟨h.kept.once, h.kept.claimed, h.kept.authentic, fun d hd => ?_⟩, h.cache, h.registry, h.tasks⟩
            rcases List.mem_append.mp hd with hd | hd
            · exact h.kept.dispatched d hd
            · obtain rfl := List.mem_singleton.mp hd
              refine ⟨⟨a, ha, htaskId, hrole, hrequest⟩, registration.allowedPrincipals, ?_, ?_⟩
              · have hrole' : registration.socketRole = role := congrArg Prod.fst hkey
                have hmethod : registration.method = request.method := congrArg Prod.snd hkey
                rw [hrole', hmethod] at hacl
                exact hacl
              · rw [← hprincipal]
                exact not_not.mp hallowed
          exact hdispatched.set (by rintro _ ⟨⟩; trivial)

theorem Inv.next (h : Inv S acl s) (hr : s.Remembered (.next i answer)) : Inv S acl (s.next S i answer) := by
  unfold Server.next
  cases htask : s.tasks i with
  | none => exact h
  | some p =>
    have hok := h.tasks i p htask
    cases p with
    | decoded role request =>
      dsimp only
      cases hcheck : S.checkRequest role s.clock request with
      | error e => exact h.refuse i _
      | ok caller => exact h.set (by rintro _ ⟨⟩; exact checkRequest_ok hcheck)
    | checked role request caller => exact h.set (by rintro _ ⟨⟩; exact hok)
    | claiming role request caller now => exact h.claim htask hr
    | accepted role request caller => exact h.dispatch htask answer
    | running role request =>
      cases answer with
      | ok _ => exact (h.release role).set (by rintro _ ⟨⟩; trivial)
      | error problem => exact (h.release role).refuse i problem
    | replied => exact h

theorem register_allowed {registry registry' : Registry} {method : String}
    (hreg : ∀ r ∈ registry.rows, acl.allowed r.socketRole r.method = some r.allowedPrincipals)
    (h : registry.register acl role method = some registry') :
    ∀ r ∈ registry'.rows, acl.allowed r.socketRole r.method = some r.allowedPrincipals := by
  unfold Registry.register at h
  split at h
  · cases h
  split at h
  · cases h
  cases hallowed : acl.allowed role method with
  | none =>
    rw [hallowed] at h
    cases h
  | some allowed =>
    rw [hallowed] at h
    intro r hr
    rcases (Table.mem_insert? h).mp hr with hr | rfl
    · exact hreg r hr
    · exact hallowed

theorem Inv.step (h : Inv S acl s) (a : Act F) (hr : s.Remembered a) : Inv S acl (s.step S acl a) := by
  cases a with
  | tick seconds micros => exact h.keep rfl rfl rfl h.registry fun _ _ hp => Or.inl hp
  | next i answer => exact h.next hr
  | close role => exact h.keep rfl rfl rfl h.registry fun _ _ hp => Or.inl hp
  | unregister role method =>
    exact h.keep rfl rfl rfl (fun r hr => h.registry r (Table.mem_deleteWhere.mp hr).1) fun _ _ hp => Or.inl hp
  | register role method =>
    simp only [Server.step]
    cases hreg : s.registry.register acl role method with
    | none => exact h
    | some registry => exact h.keep rfl rfl rfl (register_allowed h.registry hreg) fun _ _ hp => Or.inl hp
  | receive i role decoded =>
    simp only [Server.step]
    split
    · exact h
    · cases decoded with
      | error problem => exact h.refuse i problem
      | ok request => exact h.set (by rintro _ ⟨⟩; trivial)
  | cancel i =>
    simp only [Server.step]
    split
    · exact (h.release _).set (by rintro _ ⟨⟩)
    · exact h.set (by rintro _ ⟨⟩)

/-- A claim of a forgotten nonce is accepted again. -/
theorem Inv.broken (h : Inv S acl s) (a : Act F) (hr : ¬ s.Remembered a) : ¬ (s.step S acl a).Promise S acl := by
  intro hkept
  refine hr ?_
  cases a with
  | next i answer =>
    intro role request caller now htask a ha hnonce
    have hnext : s.step S acl (.next i answer) = s.claim i role request caller now := by
      simp only [Server.step, Server.next, htask]
    rw [hnext] at hkept
    rcases claim_cases s i role request caller now with ⟨⟨e, he, hen⟩, -⟩ | ⟨-, hstep⟩
    · -- refused: the entry found is the one of this acceptance
      obtain ⟨hmem, hnow⟩ := mem_evictExpired.mp he
      obtain ⟨b, hb, hbn, hbc, hlatest⟩ := (h.cache e.1 e.2).mp hmem
      have hab : b = a := List.inj_on_of_nodup_map h.kept.once hb ha (hbn.trans (hen.trans hnonce.symm))
      subst hab
      rw [hbc]
      exact ⟨hlatest, hnow⟩
    · -- accepted: twice the same nonce
      have honce := hkept.once
      rw [hstep] at honce
      have honce : ((s.acceptances.map (Acceptance.hear now) ++ ([⟨i, role, request, caller, now, now⟩] : List (Acceptance F))).map
          (·.request.nonce)).Nodup := honce
      rw [List.map_append, hear_kept, List.nodup_append] at honce
      exact absurd hnonce (honce.2.2 _ (List.mem_map.mpr ⟨a, ha, rfl⟩) _ (List.mem_singleton.mpr rfl))
  | tick seconds micros => trivial
  | register role method => trivial
  | unregister role method => trivial
  | close role => trivial
  | receive i role decoded => trivial
  | cancel i => trivial

/-- **When a request is accepted at most once**: over every interleaving, the promise holds in every state exactly when
each claim of a nonce accepted before comes while that is remembered. -/
theorem accepted_once_iff (S : ServiceIdentity F) (acl : Acl) (clock : ℚ) (maxInFlight : Nat) (acts : List (Act F)) :
    (∀ pre, pre <+: acts → (pre.foldl (Server.step S acl) (.start clock maxInFlight)).Promise S acl) ↔
      Meets (Server.step S acl) Server.Remembered (.start clock maxInFlight) acts := by
  refine Meets.iff_prefixes (I := Inv S acl) (fun _ h => h.kept) (fun _ a h hr => h.step a hr) (fun _ a h hr => h.broken a hr) ?_
  refine ⟨⟨List.nodup_nil, ?_, ?_, ?_⟩, fun n c => ⟨?_, ?_⟩, ?_, ?_⟩
  · rintro e ⟨⟩
  · rintro a ⟨⟩
  · rintro d ⟨⟩
  · rintro ⟨⟩
  · rintro ⟨a, ⟨⟩, -⟩
  · rintro r ⟨⟩
  · rintro i p ⟨⟩

/-! ## A replay -/

/-- A model of floats for a run: whole seconds, written with a point. -/
structure WholeSeconds where
  seconds : Int
  deriving DecidableEq

theorem repr_whole_injective (f g : WholeSeconds) (h : intText f.seconds ++ ['.', '0'] = intText g.seconds ++ ['.', '0']) :
    f = g := by
  obtain ⟨m⟩ := f
  obtain ⟨n⟩ := g
  exact congrArg _ (intText_injective (List.append_cancel_right h))

instance : PyFloat WholeSeconds where
  value f := f.seconds
  repr f := intText f.seconds ++ ['.', '0']
  repr_injective := repr_whole_injective
  repr_chars := by
    intro f c hc
    rcases List.mem_append.mp hc with hc | hc
    · rcases intText_chars hc with rfl | hdigit
      · decide
      · simp [Lib.CanonicalJson.isNumberChar, hdigit]
    · simp only [List.mem_cons, List.not_mem_nil, or_false] at hc
      rcases hc with rfl | rfl <;> decide
  repr_marked f := ⟨'.', by simp, Or.inl rfl⟩

/-- A trading command, signed once. -/
def sampleRequest : TypedRpcRequest WholeSeconds where
  method := "approve_proposal"
  requestId := "request-1"
  timestamp := ⟨1030⟩
  nonce := "nonce-1"
  body := .empty
  principal := "cli"
  server := "trader"
  role := "command"
  onBehalfOf := none
  signature := "signature"
  controllerEpoch := none

/-- The trader's identity; the one key it knows has signed the one request. -/
def sampleIdentity : ServiceIdentity WholeSeconds where
  principal := "trader"
  Key := Unit
  keyring name := if name = "cli" then some () else none
  verifyBytes _ message _ := @decide _ (ByteArray.instDecidableEq message (rpcSigningBytes sampleRequest))
  signed _ m := m = .request sampleRequest
  unforgeable _ _ _ _ _ h := ⟨_, rfl, (of_decide_eq_true h).symm⟩

/-- The request arrives 30 s early and is claimed at once; it is sent again, passes the skew check 30 s late, and reads
the clock for its claim a microsecond later. -/
def replayActs : List (Act WholeSeconds) :=
  [.receive 0 "command" (.ok sampleRequest), .next 0 (.ok ()), .next 0 (.ok ()), .next 0 (.ok ()),
    .tick 60 0, .receive 1 "command" (.ok sampleRequest), .next 1 (.ok ()), .tick 0 1, .next 1 (.ok ()), .next 1 (.ok ())]

theorem sampleIdentity_checks {now : ℚ} (h : |now - 1030| ≤ 30) :
    sampleIdentity.checkRequest "command" now sampleRequest = .ok ⟨"cli", none, none⟩ := by
  have htime : ¬ DEFAULT_CLOCK_SKEW_SECONDS < |now - PyFloat.value sampleRequest.timestamp| := not_lt.mpr h
  have hverify : ∀ key, sampleIdentity.verifyBytes key (rpcSigningBytes sampleRequest) sampleRequest.signature = true :=
    fun _ => by simp only [sampleIdentity, decide_true]
  rw [ServiceIdentity.checkRequest, if_neg htime, if_neg (by decide +kernel)]
  cases hkey : sampleIdentity.keyring sampleRequest.principal with
  | none => exact absurd hkey (by decide +kernel)
  | some key =>
    simp only [hverify]
    rfl

theorem step_checked {F : Type} [PyFloat F] {S : ServiceIdentity F} {acl : Acl} {s : Server F} {i : Nat} {role : String}
    {request : TypedRpcRequest F} {caller : RpcCaller} (answer : Except Problem Unit)
    (ht : s.tasks i = some (.decoded role request)) (hc : S.checkRequest role s.clock request = .ok caller) :
    s.step S acl (.next i answer) = s.set i (some (.checked role request caller)) := by
  simp only [Server.step, Server.next, ht, hc]

/-- **A request is accepted twice.** -/
theorem replay_accepted :
    ¬ ∀ pre, pre <+: replayActs → (pre.foldl (Server.step sampleIdentity none) (.start 1000 32)).Promise sampleIdentity none := by
  intro h
  have honce := (h replayActs (List.prefix_refl _)).once
  have htwice : (replayActs.foldl (Server.step sampleIdentity none) (.start 1000 32)).acceptances.map (·.request.nonce) =
      ["nonce-1", "nonce-1"] := by
    rw [replayActs, List.foldl_cons, List.foldl_cons, step_checked _ rfl (sampleIdentity_checks (by decide +kernel))]
    iterate 5 rw [List.foldl_cons]
    rw [step_checked _ rfl (sampleIdentity_checks (by decide +kernel))]
    decide +kernel
  rw [htwice] at honce
  exact absurd honce (by decide)

end MmrTrader.Rpc
