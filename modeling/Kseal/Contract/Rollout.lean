import Kseal.Device.Config
import Kseal.Infra.Run
import Kseal.Server.Config

/-!
# Policy changes and the devices that fetch them

A device fetches its configuration while policies are activated and candidates rolled out, promoted
and withdrawn, and refuses a version below the one it has. What the server has in place for it is
the `Placement`; `after` says how an operation changes it (`fetches_accepted_iff`).
-/

namespace Kseal.Contract.Rollout

open Infra Wire Server Registry Option
open Config (Env Fresh)

/--
One device instance and the service it fetches from.

Signatures are taken to be valid, and what was encoded is decoded again.
-/
structure Setup where
  env : Env
  ttl : Int64
  flags : FeatureFlags
  principal : Option Principal
  device : ConfigRequest
  publicKey : Bytes
  verify : Bytes → Bytes → Bytes → Bool
  decode : Bytes → Except String PolicyConfig
  tenant_ne : device.tenantId ≠ ""
  admitted : enforceTenant principal device.tenantId = true
  verifies : ∀ message signature, verify publicKey message signature = true
  decodes : ∀ {config bytes}, env.marshal config = .ok bytes → decode bytes = .ok config

structure World where
  registry : MemStore
  compliance : Compliance.MemStore
  snapshot : Canary.Registry
  cache : Device.ConfigCache

def World.unused (w : World) (id : String) : Bool :=
  (w.registry.policies.lookup id).isNone &&
    w.compliance.canaries.pairs.all fun e => e.2.candidatePolicyId ≠ id

def World.refresh (w : World) (compliance : Compliance.MemStore) : World :=
  { w with
    compliance := compliance
    snapshot := Canary.replace compliance.listActiveCanaries }

inductive Action where
  | createPolicy (input : CreatePolicyInput) (id : String) (now : Int64)
  | activatePolicy (tenantID id : String) (now : Int64)
  | setCanary (input : Compliance.CanaryInput) (now : Int64)
  | promoteCanary (ctx : Option Principal) (tenantId appId : String) (now : Int64)
  | rollbackCanary (tenantID appID reason : String) (obs : Compliance.CanaryObservation)
      (now : Int64)
  | fetch (ifNoneMatch : String) (fresh : Fresh) (now : Int64)

def Action.isControl : Action → Bool
  | .fetch .. => false
  | _ => true

namespace Setup

variable (S : Setup)

def service (w : World) : Config.Service := ⟨S.ttl, some w.snapshot, some w.compliance, S.flags⟩

def getConfig (w : World) (ifNoneMatch : String) (fresh : Fresh) :
    Except ConnectError (Config.ConfigResponse × MemStore) :=
  Config.getConfig S.env (S.service w) w.registry fresh S.principal ifNoneMatch S.device

def resolvePolicy (w : World) : Except StoreError (Policy × Bool) :=
  Config.resolvePolicy S.env (S.service w) w.registry S.device

def update (cache : Device.ConfigCache) (c : SignedConfig) (now : Int64) :
    Except Device.Error Device.ConfigCache :=
  cache.update S.verify S.decode c S.publicKey now

def fetch (w : World) (ifNoneMatch : String) (fresh : Fresh) (now : Int64) : World :=
  match S.getConfig w ifNoneMatch fresh with
  | .error _ => w
  | .ok (resp, registry) =>
    { w with
      registry := registry
      cache := (resp.config.bind fun c => (S.update w.cache c now).toOption).getD w.cache }

def step (w : World) : Action → Option World
  | .createPolicy input id now =>
    if w.unused id then
      (w.registry.createPolicy input id now).toOption.map fun r => { w with registry := r.2 }
    else none
  | .activatePolicy tenantID id now =>
    (w.registry.activatePolicy tenantID id now).toOption.map fun r => { w with registry := r.2 }
  | .setCanary input now =>
    (w.compliance.setCanary input now).toOption.map fun r => w.refresh r.2
  | .promoteCanary ctx tenantId appId now =>
    (Compliance.promoteCanary w.registry w.compliance ctx tenantId appId now).toOption.map fun r =>
      World.refresh { w with registry := r.2.1 } r.2.2
  | .rollbackCanary tenantID appID reason obs now =>
    (w.compliance.rollbackCanary tenantID appID reason obs now).toOption.map fun r =>
      w.refresh r.2
  | .fetch ifNoneMatch fresh now => some (S.fetch w ifNoneMatch fresh now)

/--
A fetch in this state succeeds: the configuration that is served, if there is one, is accepted,
and the device then has the policy that was resolved.
-/
def FetchAccepted (w : World) : Prop :=
  ∀ ifNoneMatch fresh now resp registry c,
    S.getConfig w ifNoneMatch fresh = .ok (resp, registry) → resp.config = some c →
      ∃ policy candidate cached, S.resolvePolicy w = .ok (policy, candidate) ∧
        S.update w.cache c now = .ok ⟨some cached⟩ ∧
        cached.policy =
          .new (Config.buildPolicyConfig S.env.parse S.env.sha256 policy)

/-! ## What is in place for the device -/

end Setup

structure Offer where
  version : Int32
  config : PolicyConfig

structure Placement where
  app : Option Offer
  tenant : Option Offer
  candidate : Option Offer

def Placement.served (p : Placement) : Option Offer :=
  (p.app.or p.tenant).map fun o => p.candidate.getD o

variable {bytes : Bytes}

namespace Setup

variable (S : Setup)

def offer (p : Policy) : Offer :=
  ⟨p.version, Config.buildPolicyConfig S.env.parse S.env.sha256 p⟩

def inCohort (percent : UInt32) : Bool :=
  decide (S.device.instanceId ≠ "") && S.flags.enabled S.device.tenantId flagCanaryRollout &&
    Canary.inCanary S.env.sha256 S.device.tenantId S.device.appId S.device.instanceId percent

def candidate (registry : MemStore) (id : String) (percent : UInt32) : Option Offer :=
  if S.inCohort percent = true ∧ id ≠ "" then
    (registry.getPolicy S.device.tenantId id).toOption.map S.offer
  else none

def offered (registry : MemStore) (cs : CanaryStatus) : Option Offer :=
  if cs.state = .active then S.candidate registry cs.candidatePolicyId cs.percent else none

def placement (w : World) : Placement where
  app := (w.registry.activeAt S.device.tenantId S.device.appId).map S.offer
  tenant := (w.registry.activeAt S.device.tenantId "").map S.offer
  candidate :=
    (w.compliance.canaries.lookup (Compliance.scopeKey S.device.tenantId S.device.appId "")).bind
      (S.offered w.registry)

def activate (target : Policy) (p : Placement) : Placement :=
  if target.tenantId = S.device.tenantId then
    { p with
      app := if target.appId = S.device.appId then some (S.offer target) else p.app
      tenant := if target.appId = "" then some (S.offer target) else p.tenant }
  else p

def rollOut (tenantID appID : String) (o : Option Offer) (p : Placement) : Placement :=
  if Canary.regKey tenantID appID = Canary.regKey S.device.tenantId S.device.appId then
    { p with candidate := o }
  else p

def after (w : World) (a : Action) (p : Placement) : Placement :=
  match a with
  | .createPolicy .. | .fetch .. => p
  | .activatePolicy _ id _ =>
    match w.registry.policies.lookup id with
    | none => p
    | some target => S.activate target p
  | .setCanary input _ =>
    S.rollOut input.tenantID input.appID
      (S.candidate w.registry input.candidatePolicyID input.percent) p
  | .promoteCanary ctx tenantId appId _ =>
    match Compliance.requireTenant ctx tenantId with
    | .error _ => p
    | .ok (tenant, _) =>
      match (w.compliance.canaries.lookup (Compliance.scopeKey tenant appId "")).bind fun cs =>
        w.registry.policies.lookup cs.candidatePolicyId with
      | none => p
      | some target => S.rollOut tenant appId none (S.activate target p)
  | .rollbackCanary tenantID appID _ _ _ => S.rollOut tenantID appID none p

def takes (cache : Device.ConfigCache) (o : Offer) : Bool :=
  match S.env.marshal o.config, cache.current with
  | .ok _, some cached => decide (cached.version ≤ o.version.toInt64)
  | _, _ => true

def forward (w : World) (a : Action) : Bool :=
  match a with
  | .createPolicy .. | .fetch .. => true
  | a => (S.after w a (S.placement w)).served.all (S.takes w.cache)

/-! ## The service serves what is in place -/

structure Ready (w : World) : Prop where
  keyed : w.compliance.Keyed
  refreshed : w.snapshot = Canary.replace w.compliance.listActiveCanaries
  registered : ∃ app, w.registry.getApp S.device.tenantId S.device.appId = .ok app

variable {S} {w w' : World} {a : Action}

theorem lookup_snapshot (h : S.Ready w) :
    w.snapshot.lookup (Canary.regKey S.device.tenantId S.device.appId) =
      ((w.compliance.canaries.lookup
        (Compliance.scopeKey S.device.tenantId S.device.appId "")).filter fun cs =>
          cs.state = .active).map Canary.Active.of := by
  rw [h.refreshed, Canary.lookup_replace_listActiveCanaries h.keyed]

theorem served_placement :
    (S.placement w).served =
      (w.registry.active S.device.tenantId S.device.appId).map fun p =>
        (S.placement w).candidate.getD (S.offer p) := by
  show (Option.or (Option.map _ _) (Option.map _ _)).map _ = (Option.or _ _).map _
  rw [← map_or, map_map]
  rfl

theorem candidate_placement (h : S.Ready w) :
    (S.placement w).candidate =
      (Config.candidateOf S.env (S.service w) w.registry S.device).map S.offer := by
  show Option.bind _ _ = Option.map S.offer (Option.bind (some w.snapshot) _)
  rw [bind_some, lookup_snapshot h]
  by_cases hoff : S.device.instanceId = "" ∨
      (S.service w).flags.enabled S.device.tenantId flagCanaryRollout = false
  · have hout : ∀ percent, S.inCohort percent = false := by
      rcases hoff with hinst | hflag
      · simp [inCohort, hinst]
      · rw [service] at hflag
        simp [inCohort, hflag]
    have hnone : ∀ cs, S.offered w.registry cs = none := by
      simp [offered, candidate, hout]
    rw [if_pos hoff]
    simp [hnone]
  · rw [if_neg hoff]
    rw [not_or, service] at hoff
    cases w.compliance.canaries.lookup _ with
    | none => rfl
    | some cs =>
      rw [bind_some, filter_some]
      by_cases hstate : cs.state = .active
      · have hin : S.inCohort cs.percent = Canary.inCanary S.env.sha256 S.device.tenantId
            S.device.appId S.device.instanceId cs.percent := by
          simp [inCohort, hoff]
        rw [if_pos (decide_eq_true hstate), offered, if_pos hstate, candidate, hin]
        exact (apply_ite (Option.map S.offer) _ _ none).symm
      · rw [if_neg (by simpa using hstate), offered, if_neg hstate]
        rfl

/-- **The policy that is resolved is the one in place.** -/
theorem served_eq (h : S.Ready w) :
    (S.placement w).served = (S.resolvePolicy w).toOption.map fun r => S.offer r.1 := by
  have hresolve := congrArg (Option.map S.offer)
    (Config.resolvePolicy_eq S.env (S.service w) w.registry S.device)
  rw [map_map, map_map] at hresolve
  refine Eq.trans ?_ hresolve.symm
  rw [served_placement, candidate_placement h]
  congr 1
  funext p
  exact getD_map _ _ _

theorem served_of_resolved (h : S.Ready w) {policy : Policy} {candidate : Bool}
    (hresolved : S.resolvePolicy w = .ok (policy, candidate)) :
    (S.placement w).served = some (S.offer policy) := by
  rw [served_eq h, hresolved]
  rfl

theorem takes_eq_true_iff {cache : Device.ConfigCache} {o : Offer}
    (hbytes : S.env.marshal o.config = .ok bytes) :
    S.takes cache o = true ↔
      ∀ cached, cache.current = some cached → cached.version ≤ o.version.toInt64 := by
  unfold takes
  rw [hbytes]
  cases cache.current with
  | none => simp
  | some cached => simp

/-- **A fetch succeeds exactly if the device has nothing newer than what is in place.** -/
theorem fetchAccepted_iff (h : S.Ready w) :
    S.FetchAccepted w ↔ (S.placement w).served.all (S.takes w.cache) = true := by
  constructor
  · intro haccepted
    rw [all_eq_true]
    intro o ho
    rw [served_eq h] at ho
    obtain ⟨⟨policy, candidate⟩, hresolved, rfl⟩ := map_eq_some_iff.mp ho
    have hresolved := eq_ok_of_toOption hresolved
    cases hbytes : S.env.marshal (S.offer policy).config with
    | error e => rw [takes, hbytes]
    | ok bytes =>
      -- What is served has the version of the policy, and it was accepted.
      obtain ⟨app, happ⟩ := h.registered
      obtain ⟨resp, registry, c, hget, hc, hversion⟩ :=
        Config.getConfig_serves ⟨([], []), "", 0⟩ S.tenant_ne S.admitted happ hresolved hbytes
      obtain ⟨-, -, cached, -, hupdate, -⟩ := haccepted "" _ 0 resp registry c hget hc
      rw [takes_eq_true_iff hbytes]
      intro existing hexisting
      have hle := (Device.update_eq_ok_iff.mp hupdate).1 existing hexisting
      rwa [hversion] at hle
  · intro htakes ifNoneMatch fresh now resp registry c hget hc
    obtain ⟨policy, sk, hserves⟩ := Config.getConfig_eq_ok hget hc
    obtain ⟨candidate, hresolved⟩ := hserves.resolved
    rw [served_of_resolved h hresolved, all_some, takes_eq_true_iff hserves.marshalled,
      show (S.offer policy).version.toInt64 = c.version from hserves.version.symm] at htakes
    obtain ⟨cached, hcached, hpolicy, -⟩ :=
      Device.verifyAndDecode_eq_ok now (S.verifies _ _) (S.decodes hserves.marshalled)
    exact ⟨policy, candidate, cached, hresolved,
      Device.update_eq_ok_iff.mpr ⟨htakes, cached, hcached, rfl⟩, hpolicy⟩

/-! ## What the operations change -/

variable {id : String} {registry : MemStore}

variable {input : CreatePolicyInput} {now : Int64} {p : Policy}

theorem candidate_createPolicy (h : w.registry.createPolicy input id now = .ok (p, registry))
    {id' : String} (hne : id' ≠ id) (percent : UInt32) :
    S.candidate registry id' percent = S.candidate w.registry id' percent := by
  unfold candidate
  rw [getPolicy_createPolicy h _ hne]

theorem placement_createPolicy (hunused : w.unused id = true)
    (h : w.registry.createPolicy input id now = .ok (p, registry)) :
    S.placement { w with registry := registry } = S.placement w := by
  rw [World.unused, Bool.and_eq_true, isNone_iff_eq_none, List.all_eq_true] at hunused
  obtain ⟨hfresh, hcandidates⟩ := hunused
  unfold placement
  rw [activeAt_createPolicy h hfresh, activeAt_createPolicy h hfresh]
  cases hlook : w.compliance.canaries.lookup _ with
  | none => rfl
  | some cs =>
    have hne := of_decide_eq_true (hcandidates _ (GoMap.mem_pairs.mpr hlook))
    rw [bind_some, bind_some, offered, offered, candidate_createPolicy h hne]

theorem placement_activate {target : Policy} (now : Int64)
    (hlook : w.registry.policies.lookup id = some target) :
    S.placement { w with registry := w.registry.withActive target id now } =
      S.activate target (S.placement w) := by
  have hcandidate : S.offered (w.registry.withActive target id now) = S.offered w.registry := by
    funext cs
    unfold offered candidate
    rw [getPolicy_activated hlook fun _ _ _ => rfl]
  have hoffer : ∀ appID,
      ((w.registry.withActive target id now).activeAt S.device.tenantId appID).map S.offer =
        if target.tenantId = S.device.tenantId ∧ target.appId = appID then some (S.offer target)
        else (w.registry.activeAt S.device.tenantId appID).map S.offer := by
    intro appID
    rw [activeAt_activated hlook, apply_ite (Option.map S.offer)]
    rfl
  unfold placement activate
  rw [hoffer, hoffer, hcandidate]
  by_cases htenant : target.tenantId = S.device.tenantId
  · simp only [htenant, true_and, if_true]
  · simp only [htenant, false_and, if_false]

theorem placement_refresh (registry : MemStore) (cs : CanaryStatus) :
    S.placement (World.refresh { w with registry := registry } (w.compliance.putCanary cs)) =
      S.rollOut cs.tenantId cs.appId (S.offered registry cs)
        (S.placement { w with registry := registry }) := by
  unfold rollOut placement World.refresh Compliance.MemStore.putCanary
  split
  · next hkey =>
    rw [Canary.scopeKey_eq_iff.mpr hkey, AList.lookup_insert]
    rfl
  · next hkey =>
    rw [AList.lookup_insert_ne fun heq => hkey (Canary.scopeKey_eq_iff.mp heq).symm]

theorem Ready.withRegistry (h : S.Ready w) (happs : registry.apps = w.registry.apps) :
    S.Ready { w with registry := registry } where
  keyed := h.keyed
  refreshed := h.refreshed
  registered := by
    obtain ⟨app, happ⟩ := h.registered
    refine ⟨app, ?_⟩
    unfold MemStore.getApp at happ ⊢
    rw [happs]
    exact happ

theorem Ready.refresh (h : S.Ready w) (cs : CanaryStatus) :
    S.Ready (w.refresh (w.compliance.putCanary cs)) where
  keyed := h.keyed.putCanary cs
  refreshed := rfl
  registered := h.registered

/-- **What an operation of the control plane changes for the device.** -/
theorem step_control (h : S.Ready w) (hstep : S.step w a = some w') (hcontrol : a.isControl = true) :
    S.Ready w' ∧ S.placement w' = S.after w a (S.placement w) ∧ w'.cache = w.cache := by
  cases a with
  | createPolicy input id now =>
    obtain ⟨hunused, hstep⟩ := guard_some hstep
    obtain ⟨⟨p, registry⟩, hcreate, rfl⟩ := map_eq_some_iff.mp hstep
    have hcreate := eq_ok_of_toOption hcreate
    exact ⟨h.withRegistry (apps_createPolicy hcreate),
      placement_createPolicy hunused hcreate, rfl⟩
  | activatePolicy tenantID id now =>
    obtain ⟨⟨p, registry⟩, hactivate, rfl⟩ := map_eq_some_iff.mp hstep
    obtain ⟨target, hlook, -, rfl⟩ := activatePolicy_eq_ok (eq_ok_of_toOption hactivate)
    refine ⟨h.withRegistry rfl, ?_, rfl⟩
    rw [after, hlook]
    exact placement_activate now hlook
  | setCanary input now =>
    obtain ⟨⟨cs, compliance⟩, hset, rfl⟩ := map_eq_some_iff.mp hstep
    obtain ⟨rfl, ht, ha, hid, hpercent, hstate⟩ :=
      Compliance.setCanary_eq_ok (eq_ok_of_toOption hset)
    refine ⟨h.refresh cs, ?_, rfl⟩
    rw [after, ← ht, ← ha, ← hid, ← hpercent]
    refine (placement_refresh w.registry cs).trans ?_
    rw [offered, if_pos hstate]
  | promoteCanary ctx tenantId appId now =>
    obtain ⟨⟨cs, registry, compliance⟩, hpromote, rfl⟩ := map_eq_some_iff.mp hstep
    obtain ⟨tenant, apiKeyID, cur, p, htenant, hcur, hactivate, hkey, rfl, hstate⟩ :=
      Compliance.promoteCanary_eq_ok h.keyed (eq_ok_of_toOption hpromote)
    obtain ⟨target, hlook, -, rfl⟩ := activatePolicy_eq_ok hactivate
    have hready : S.Ready { w with
        registry := w.registry.withActive target cur.candidatePolicyId now } := h.withRegistry rfl
    refine ⟨hready.refresh cs, ?_, rfl⟩
    have htarget : (w.compliance.canaries.lookup (Compliance.scopeKey tenant appId "")).bind
        (fun cs => w.registry.policies.lookup cs.candidatePolicyId) = some target := by
      rw [hcur]
      exact hlook
    simp only [after, htenant, htarget]
    refine (placement_refresh _ cs).trans ?_
    rw [placement_activate now hlook, offered, if_neg (by rw [hstate]; decide)]
    unfold rollOut
    rw [Canary.scopeKey_eq_iff.mp hkey]
  | rollbackCanary tenantID appID reason obs now =>
    obtain ⟨⟨cs, compliance⟩, hrollback, rfl⟩ := map_eq_some_iff.mp hstep
    obtain ⟨hkey, rfl, hstate⟩ :=
      Compliance.rollbackCanary_eq_ok h.keyed (eq_ok_of_toOption hrollback)
    refine ⟨h.refresh cs, ?_, rfl⟩
    refine (placement_refresh w.registry cs).trans ?_
    rw [offered, if_neg (by rw [hstate]; decide), after]
    unfold rollOut
    rw [Canary.scopeKey_eq_iff.mp hkey]
  | fetch => cases hcontrol

theorem fetch_frame (h : S.Ready w) (ifNoneMatch : String) (fresh : Fresh) (now : Int64) :
    S.Ready (S.fetch w ifNoneMatch fresh now) ∧
      S.placement (S.fetch w ifNoneMatch fresh now) = S.placement w := by
  unfold fetch
  cases hget : S.getConfig w ifNoneMatch fresh with
  | error e => exact ⟨h, rfl⟩
  | ok r =>
    obtain ⟨resp, registry⟩ := r
    obtain ⟨signing, rfl⟩ := Config.getConfig_frame hget
    exact ⟨⟨h.keyed, h.refreshed, h.registered⟩, rfl⟩

theorem cache_fetch (h : S.Ready w) (haccepted : S.FetchAccepted w) (ifNoneMatch : String)
    (fresh : Fresh) (now : Int64) :
    (S.fetch w ifNoneMatch fresh now).cache = w.cache ∨
      ∃ o cached, (S.placement w).served = some o ∧
        (S.fetch w ifNoneMatch fresh now).cache = ⟨some cached⟩ ∧
        cached.version = o.version.toInt64 := by
  unfold fetch
  cases hget : S.getConfig w ifNoneMatch fresh with
  | error e => exact .inl rfl
  | ok r =>
    obtain ⟨resp, registry⟩ := r
    dsimp only
    cases hc : resp.config with
    | none => exact .inl rfl
    | some c =>
      obtain ⟨-, -, cached, -, hupdate, -⟩ := haccepted ifNoneMatch fresh now resp registry c hget hc
      obtain ⟨policy, sk, hserves⟩ := Config.getConfig_eq_ok hget hc
      obtain ⟨candidate, hresolved⟩ := hserves.resolved
      obtain ⟨cached', hcached', -, hversion⟩ :=
        Device.verifyAndDecode_eq_ok now (S.verifies _ _) (S.decodes hserves.marshalled)
      have hsame : cached = cached' := by
        obtain ⟨-, cached'', hcached, heq⟩ := Device.update_eq_ok_iff.mp hupdate
        rw [hcached'] at hcached
        cases hcached
        cases heq
        rfl
      refine .inr ⟨S.offer policy, cached, served_of_resolved h hresolved, ?_, ?_⟩
      · rw [bind_some, hupdate]
        rfl
      · rw [hsame, hversion]
        exact hserves.version

theorem fetchAccepted_fetch (h : S.Ready w) (haccepted : S.FetchAccepted w) (ifNoneMatch : String)
    (fresh : Fresh) (now : Int64) : S.FetchAccepted (S.fetch w ifNoneMatch fresh now) := by
  obtain ⟨hready, hplacement⟩ := fetch_frame h ifNoneMatch fresh now
  rw [fetchAccepted_iff hready, hplacement]
  rcases cache_fetch h haccepted ifNoneMatch fresh now with hcache | ⟨o, cached, ho, hcache, hversion⟩
  · rw [hcache]
    exact (fetchAccepted_iff h).mp haccepted
  · rw [ho, hcache, all_some, takes]
    split
    · next heq =>
      cases heq
      exact decide_eq_true (Int64.le_of_eq hversion)
    · rfl

theorem ready_step (h : S.Ready w) (hstep : S.step w a = some w') : S.Ready w' := by
  by_cases hcontrol : a.isControl = true
  · exact (step_control h hstep hcontrol).1
  · cases a with
    | fetch ifNoneMatch fresh now =>
      cases hstep
      exact (fetch_frame h ifNoneMatch fresh now).1
    | _ => exact absurd rfl hcontrol

/-- **The next fetch succeeds exactly if the operation put nothing older in place.** -/
theorem fetchAccepted_step (h : S.Ready w) (haccepted : S.FetchAccepted w)
    (hstep : S.step w a = some w') : S.FetchAccepted w' ↔ S.forward w a = true := by
  by_cases hcontrol : a.isControl = true
  · obtain ⟨hready, hplacement, hcache⟩ := step_control h hstep hcontrol
    rw [fetchAccepted_iff hready, hplacement, hcache]
    cases a with
    | fetch => cases hcontrol
    | createPolicy => simpa [forward, after] using (fetchAccepted_iff h).mp haccepted
    | _ => rfl
  · cases a with
    | fetch ifNoneMatch fresh now =>
      cases hstep
      exact iff_of_true (fetchAccepted_fetch h haccepted ifNoneMatch fresh now) rfl
    | _ => exact absurd rfl hcontrol

theorem fetchAccepted_of_empty (h : S.Ready w) (hempty : w.cache.current = none) :
    S.FetchAccepted w := by
  rw [fetchAccepted_iff h, all_eq_true]
  intro o _
  rw [takes, hempty]
  cases S.env.marshal o.config <;> rfl

end Setup

/--
**When every configuration is accepted.**

In a run that a device starts without a configuration, every fetch in every state that is reached
succeeds exactly if no operation puts a policy in place for the device whose version is below the
one it has.
-/
theorem fetches_accepted_iff {S : Setup} {w t : World} {es : List (Event World Action)}
    (hrun : Run S.step w es t) (hready : S.Ready w) (hempty : w.cache.current = none) :
    (∀ e ∈ es, S.FetchAccepted e.after) ↔ ∀ e ∈ es, S.forward e.before e.action = true :=
  Run.always_iff Setup.ready_step Setup.fetchAccepted_step hrun hready
    (Setup.fetchAccepted_of_empty hready hempty)

/-! ## A tenant with two policies -/

namespace Sample

def observeDigest : Bytes :=
  [53, 208, 15, 222, 193, 230, 196, 24, 63, 201, 205, 150, 99, 96, 165, 84, 49, 140, 98, 48, 42,
    175, 62, 49, 55, 129, 103, 165, 231, 44, 107, 207]

def blockDigest : Bytes :=
  [213, 166, 174, 88, 81, 204, 245, 174, 222, 85, 224, 102, 0, 168, 109, 182, 116, 6, 94, 247, 165,
    179, 38, 0, 234, 116, 188, 61, 238, 32, 131, 94]

def configOf (mode : EnforcementMode) (policyHash : String) : PolicyConfig :=
  ⟨[], ∅, mode, [], ∅, policyHash, 0⟩

def isConfigOf (mode : EnforcementMode) (policyHash : String) (config : PolicyConfig) : Bool :=
  config.rules.isEmpty && config.riskThresholds.entries.isEmpty && config.defaultMode = mode &&
    config.modulesEnabled.isEmpty && config.signalWeights.entries.isEmpty &&
    config.policyHash = policyHash && config.reattestIntervalSecs = 0

def observeHash : String := "35d00fdec1e6c4183fc9cd966360a554318c62302aaf3e31378167a5e72c6bcf"
def blockHash : String := "d5a6ae5851ccf5aede55e06600a86db674065ef7a5b32600ea74bc3dee20835e"

def observeBytes : Bytes := [24, 1, 50, 64] ++ ascii observeHash
def blockBytes : Bytes := [24, 3, 50, 64] ++ ascii blockHash

def marshal (config : PolicyConfig) : Except String Bytes :=
  if isConfigOf .observe observeHash config then .ok observeBytes
  else if isConfigOf .block blockHash config then .ok blockBytes
  else .error "not encoded"

def decode (bytes : Bytes) : Except String PolicyConfig :=
  if bytes = observeBytes then .ok (configOf .observe observeHash)
  else if bytes = blockBytes then .ok (configOf .block blockHash)
  else .error "not decoded"

variable {config : PolicyConfig}

theorem eq_configOf {mode : EnforcementMode} {policyHash : String}
    (h : isConfigOf mode policyHash config = true) : config = configOf mode policyHash := by
  obtain ⟨rules, thresholds, defaultMode, modules, weights, hash, interval⟩ := config
  simp only [isConfigOf, Bool.and_eq_true, List.isEmpty_iff, decide_eq_true_eq] at h
  obtain ⟨⟨⟨⟨⟨⟨rfl, ht⟩, rfl⟩, rfl⟩, hw⟩, rfl⟩, rfl⟩ := h
  have hthresholds : thresholds = ∅ := AList.ext ht
  have hweights : weights = ∅ := AList.ext hw
  rw [hthresholds, hweights, configOf]

theorem decode_marshal (h : marshal config = .ok bytes) :
    decode bytes = .ok config := by
  unfold marshal at h
  split at h
  · next hconfig =>
    cases h
    rw [eq_configOf hconfig]
    rfl
  · split at h
    · next hconfig =>
      cases h
      rw [eq_configOf hconfig]
      rfl
    · cases h

def env : Env where
  parse text :=
    if text = "[]" then some (.arr []) else if text = "\x7b\x7d" then some (.obj []) else none
  -- The byte tells the modes apart, in `a1`, a zero, and the name of the mode.
  sha256 message := if message[20]? = some 66 then blockDigest else observeDigest
  marshal := marshal
  sign _ _ := []
  seconds d := d / 1000000000

def setup : Setup where
  env := env
  ttl := 300000000000
  flags := ⟨∅, AList.singleton flagCanaryRollout true⟩
  principal := some ⟨"t1", "api"⟩
  device := ⟨"t1", "a1", "i1", "b1"⟩
  publicKey := []
  verify _ _ _ := true
  decode := decode
  tenant_ne := by decide
  admitted := by decide
  verifies _ _ := rfl
  decodes := decode_marshal

def start : World where
  registry := ⟨AList.singleton "a1" ⟨"a1", "t1", "com.example"⟩, ∅, ∅, ∅⟩
  compliance := ⟨∅, ∅⟩
  snapshot := ∅
  cache := ⟨none⟩

def input (mode : EnforcementMode) : CreatePolicyInput :=
  ⟨"t1", "a1", "policy", mode, "", "", []⟩

def fetch : Action := .fetch "" ⟨([], []), "k1", 0⟩ 0

def create : List Action :=
  [.createPolicy (input .observe) "p1" 0, .createPolicy (input .block) "p2" 0]

def promotion : List Action :=
  create ++ [.activatePolicy "t1" "p1" 0, fetch, .setCanary ⟨"t1", "a1", "p2", "p1", 100, 0⟩ 0, fetch,
    .promoteCanary (some ⟨"t1", "api"⟩) "t1" "a1" 0, fetch]

def reactivation : List Action :=
  create ++ [.activatePolicy "t1" "p2" 0, fetch, .activatePolicy "t1" "p1" 0]

theorem ready : setup.Ready start where
  keyed _ _ h := by cases h
  refreshed := rfl
  registered := ⟨_, rfl⟩

def answer (w : World) : Option Device.Error :=
  match setup.getConfig w "" ⟨([], []), "k1", 0⟩ with
  | .error _ => none
  | .ok (resp, _) =>
    match resp.config.map fun c => setup.update w.cache c 0 with
    | some (.error e) => some e
    | _ => none

end Sample

theorem fetches_accepted_promotion :
    ∃ es t, Run Sample.setup.step Sample.start es t ∧ es.map Event.action = Sample.promotion ∧
      ∀ e ∈ es, Sample.setup.FetchAccepted e.after := by
  obtain ⟨t, ht⟩ : ∃ t, exec Sample.setup.step Sample.setup.forward Sample.start Sample.promotion =
      some t := isSome_iff_exists.mp (by decide +kernel)
  obtain ⟨es, hrun, hforward, hactions⟩ := run_of_exec _ _ _ _ ht
  exact ⟨es, t, hrun, hactions, (fetches_accepted_iff hrun Sample.ready rfl).mpr hforward⟩

theorem reactivated_policy_rejected :
    ∃ es t resp registry c, Run Sample.setup.step Sample.start es t ∧
      es.map Event.action = Sample.reactivation ∧
      Sample.setup.getConfig t "" ⟨([], []), "k1", 0⟩ = .ok (resp, registry) ∧
      resp.config = some c ∧
      Sample.setup.update t.cache c 0 =
        .error (.config "config rollback rejected: incoming version 1 < cached 2") := by
  obtain ⟨es, t, hrun, hactions, hanswer⟩ : ∃ es t, Run Sample.setup.step Sample.start es t ∧
      es.map Event.action = Sample.reactivation ∧ Sample.answer t =
        some (.config "config rollback rejected: incoming version 1 < cached 2") :=
    exists_run (by decide +kernel)
  unfold Sample.answer at hanswer
  split at hanswer
  · cases hanswer
  · next resp registry hget =>
    split at hanswer
    · next e hupdate =>
      cases hanswer
      obtain ⟨c, hc, hupdate⟩ := map_eq_some_iff.mp hupdate
      exact ⟨es, t, resp, registry, c, hrun, hactions, hget, hc, hupdate⟩
    · cases hanswer

end Kseal.Contract.Rollout
