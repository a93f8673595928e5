import Kseal.Server.Registry
import Kseal.Server.Request

/-!
# Kill switches and staged rollouts (`control-plane/compliance`)

The store of the compliance service, and its requests that start, promote and withdraw the
rollout of a candidate policy.

* `MemStore.Keyed` — each rollout is kept under the key of its own scope
-/

namespace Kseal.Compliance

open Infra Wire Server

/-! ## Kill switches -/

structure KillSwitchScope where
  appID : String
  buildHash : String

def KillSwitchScope.matches (s q : KillSwitchScope) : Bool :=
  if s.appID ≠ "" ∧ s.appID ≠ q.appID then false
  else if s.buildHash ≠ "" ∧ s.buildHash ≠ q.buildHash then false
  else true

def KillSwitchScope.specificity (s : KillSwitchScope) : Int :=
  (if s.appID ≠ "" then 2 else 0) + (if s.buildHash ≠ "" then 1 else 0)

def effectiveLoop (q : KillSwitchScope) :
    Option SignedKillSwitch → Int → List SignedKillSwitch → Option SignedKillSwitch
  | best, _, [] => best
  | best, bestRank, ks :: rest =>
    let sc : KillSwitchScope := ⟨ks.appId, ks.buildHash⟩
    if !sc.matches q then effectiveLoop q best bestRank rest
    else if sc.specificity > bestRank then effectiveLoop q (some ks) sc.specificity rest
    else effectiveLoop q best bestRank rest

def resolveEffective (switches : List SignedKillSwitch) (q : KillSwitchScope) :
    Option SignedKillSwitch :=
  effectiveLoop q none (-1) switches

def getKillSwitchState (switches : List SignedKillSwitch) (appID buildHash : String) :
    KillSwitchCommand × Option SignedKillSwitch :=
  match resolveEffective switches ⟨appID, buildHash⟩ with
  | none => (.enable, none)
  | some active => (active.command, some active)

/-! ## The store -/

inductive StoreError where
  | notFound
  | invalidInput (reason : String)
deriving Repr, DecidableEq

def StoreError.message : StoreError → String
  | .notFound => "compliance: not found"
  | .invalidInput reason => "compliance: invalid input: " ++ reason

structure MemStore where
  killSw : GoMap String SignedKillSwitch
  canaries : GoMap String CanaryStatus

def scopeKey (tenantID appID buildHash : String) : String :=
  tenantID ++ "\x00" ++ appID ++ "\x00" ++ buildHash

def MemStore.listKillSwitches (s : MemStore) (tenantID : String) :
    Except StoreError (List SignedKillSwitch) :=
  if tenantID = "" then .error (.invalidInput "tenant_id required")
  else
    let out := (s.killSw.pairs.map Prod.snd).filter fun ks => ks.tenantId = tenantID
    .ok (out.mergeSort fun a b =>
      if a.appId ≠ b.appId then decide (a.appId ≤ b.appId) else decide (a.buildHash ≤ b.buildHash))

def defaultRollbackThreshold : Float := 0.05

structure CanaryInput where
  tenantID : String
  appID : String
  candidatePolicyID : String
  stablePolicyID : String
  percent : UInt32
  rollbackThreshold : Float

def stableOf (given : String) (prev : Option CanaryStatus) : String :=
  if given = "" then
    match prev with
    | some p => if p.stablePolicyId ≠ "" then p.stablePolicyId else given
    | none => given
  else given

def MemStore.setCanary (s : MemStore) (input : CanaryInput) (now : Int64) :
    Except StoreError (CanaryStatus × MemStore) :=
  if input.tenantID = "" ∨ input.appID = "" then
    .error (.invalidInput "tenant_id and app_id required")
  else if input.candidatePolicyID = "" then
    .error (.invalidInput "candidate_policy_id required")
  else if input.percent > 100 then .error (.invalidInput "percent must be 0..100")
  else
    let key := scopeKey input.tenantID input.appID ""
    let cs : CanaryStatus :=
      { tenantId := input.tenantID
        appId := input.appID
        candidatePolicyId := input.candidatePolicyID
        stablePolicyId := stableOf input.stablePolicyID (s.canaries.lookup key)
        percent := input.percent
        state := .active
        blockRate := 0
        sampleCount := 0
        rollbackThreshold :=
          if input.rollbackThreshold ≤ 0 then defaultRollbackThreshold else input.rollbackThreshold
        lastEvent := "rollout set to " ++ input.percent.toNat.repr ++ "%"
        updatedAt := now }
    .ok (cs, { s with canaries := s.canaries.insert key cs })

def MemStore.getCanary (s : MemStore) (tenantID appID : String) : Except StoreError CanaryStatus :=
  match s.canaries.lookup (scopeKey tenantID appID "") with
  | some cs => .ok cs
  | none => .error .notFound

def MemStore.listActiveCanaries (s : MemStore) : List CanaryStatus :=
  (s.canaries.pairs.map Prod.snd).filter fun cs => cs.state = .active

def MemStore.updateCanary (s : MemStore) (tenantID appID : String)
    (f : CanaryStatus → CanaryStatus) : Except StoreError (CanaryStatus × MemStore) :=
  let key := scopeKey tenantID appID ""
  match s.canaries.lookup key with
  | none => .error .notFound
  | some cs => .ok (f cs, { s with canaries := s.canaries.insert key (f cs) })

def MemStore.promoteCanary (s : MemStore) (tenantID appID : String) (now : Int64) :
    Except StoreError (CanaryStatus × MemStore) :=
  s.updateCanary tenantID appID fun cs =>
    { cs with
      state := .promoted
      percent := 100
      stablePolicyId := cs.candidatePolicyId
      lastEvent := "promoted to stable"
      updatedAt := now }

structure CanaryObservation where
  blockRate : Float
  sampleCount : Int64

def rollbackEvent (reason : String) : String :=
  if reason = "" then "rolled back to stable" else "rolled back to stable: " ++ reason

def MemStore.rollbackCanary (s : MemStore) (tenantID appID reason : String)
    (obs : CanaryObservation) (now : Int64) : Except StoreError (CanaryStatus × MemStore) :=
  s.updateCanary tenantID appID fun cs =>
    { cs with
      state := .rolledBack
      percent := 0
      blockRate := obs.blockRate
      sampleCount := obs.sampleCount
      lastEvent := rollbackEvent reason
      updatedAt := now }

/-! ### Rollouts and their keys -/

def MemStore.Keyed (s : MemStore) : Prop :=
  ∀ key cs, s.canaries.lookup key = some cs → key = scopeKey cs.tenantId cs.appId ""

def MemStore.putCanary (s : MemStore) (cs : CanaryStatus) : MemStore :=
  { s with canaries := s.canaries.insert (scopeKey cs.tenantId cs.appId "") cs }

variable {s : MemStore} {cs : CanaryStatus}

theorem mem_listActiveCanaries_iff (hkeyed : s.Keyed) :
    cs ∈ s.listActiveCanaries ↔
      s.canaries.lookup (scopeKey cs.tenantId cs.appId "") = some cs ∧ cs.state = .active := by
  unfold MemStore.listActiveCanaries
  rw [List.mem_filter, decide_eq_true_iff, List.mem_map]
  refine and_congr_left fun _ => ⟨?_, fun hlook => ⟨_, GoMap.mem_pairs.mpr hlook, rfl⟩⟩
  rintro ⟨⟨key, cs'⟩, hpair, rfl⟩
  have hlook := GoMap.mem_pairs.mp hpair
  rw [← hkeyed _ _ hlook]
  exact hlook

theorem MemStore.Keyed.putCanary (h : s.Keyed) (cs : CanaryStatus) :
    (s.putCanary cs).Keyed := by
  intro key cs' hlook
  unfold MemStore.putCanary at hlook
  by_cases hkey : key = scopeKey cs.tenantId cs.appId ""
  · rw [hkey, AList.lookup_insert] at hlook
    cases hlook
    exact hkey
  · rw [AList.lookup_insert_ne hkey] at hlook
    exact h key cs' hlook

variable {s' : MemStore} {now : Int64}

theorem setCanary_eq_ok {input : CanaryInput} (h : s.setCanary input now = .ok (cs, s')) :
    s' = s.putCanary cs ∧ cs.tenantId = input.tenantID ∧ cs.appId = input.appID ∧
      cs.candidatePolicyId = input.candidatePolicyID ∧ cs.percent = input.percent ∧
      cs.state = .active := by
  obtain ⟨-, h⟩ := guard_ok h
  obtain ⟨-, h⟩ := guard_ok h
  obtain ⟨-, ⟨⟩⟩ := guard_ok h
  exact ⟨rfl, rfl, rfl, rfl, rfl, rfl⟩

theorem updateCanary_eq_ok {tenantID appID : String} {f : CanaryStatus → CanaryStatus}
    (hkeyed : s.Keyed) (h : s.updateCanary tenantID appID f = .ok (cs, s'))
    (hf : ∀ cs, (f cs).tenantId = cs.tenantId ∧ (f cs).appId = cs.appId) :
    ∃ old, s.canaries.lookup (scopeKey tenantID appID "") = some old ∧ cs = f old ∧
      scopeKey cs.tenantId cs.appId "" = scopeKey tenantID appID "" ∧ s' = s.putCanary cs := by
  rw [MemStore.updateCanary] at h
  split at h
  · cases h
  · next old hlook =>
    cases h
    have hkey : scopeKey (f old).tenantId (f old).appId "" = scopeKey tenantID appID "" := by
      rw [(hf old).1, (hf old).2, ← hkeyed _ _ hlook]
    exact ⟨old, hlook, rfl, hkey, by rw [MemStore.putCanary, hkey]⟩

theorem rollbackCanary_eq_ok {tenantID appID reason : String} {obs : CanaryObservation}
    (hkeyed : s.Keyed) (h : s.rollbackCanary tenantID appID reason obs now = .ok (cs, s')) :
    scopeKey cs.tenantId cs.appId "" = scopeKey tenantID appID "" ∧ s' = s.putCanary cs ∧
      cs.state = .rolledBack := by
  obtain ⟨old, -, rfl, hkey, hs'⟩ := updateCanary_eq_ok hkeyed h fun _ => ⟨rfl, rfl⟩
  exact ⟨hkey, hs', rfl⟩

/-! ## The service -/

def toConnectErr : StoreError → ConnectError
  | .invalidInput reason => ⟨.invalidArgument, (StoreError.invalidInput reason).message⟩
  | .notFound => ⟨.notFound, StoreError.notFound.message⟩

def registryErr : Registry.StoreError → ConnectError
  | .notFound => ⟨.notFound, Registry.StoreError.notFound.message⟩
  | e => ⟨.internal, e.message⟩

def requireTenant (ctx : Option Principal) (bodyTenant : String) :
    Except ConnectError (String × String) :=
  match ctx with
  | none => .error ⟨.unauthenticated, "missing tenant context"⟩
  | some p =>
    if p.tenantID = "" then .error ⟨.unauthenticated, "missing tenant context"⟩
    else if bodyTenant ≠ "" ∧ bodyTenant ≠ p.tenantID then
      .error ⟨.permissionDenied, "cross-tenant request denied"⟩
    else .ok (p.tenantID, p.apiKeyID)

structure SetCanaryRolloutRequest where
  tenantId : String
  appId : String
  candidatePolicyId : String
  percent : UInt32
  rollbackThreshold : Float

def setCanaryRollout (registry : Registry.MemStore) (s : MemStore) (ctx : Option Principal)
    (m : SetCanaryRolloutRequest) (now : Int64) : Except ConnectError (CanaryStatus × MemStore) := do
  let (tenant, _) ← requireTenant ctx m.tenantId
  if m.appId = "" then .error ⟨.invalidArgument, "app_id required"⟩
  else
    let candidate ← (registry.getPolicy tenant m.candidatePolicyId).mapError registryErr
    if candidate.appId ≠ "" ∧ candidate.appId ≠ m.appId then
      .error ⟨.invalidArgument, "candidate policy does not belong to app"⟩
    else
      let stable ← match registry.getActivePolicy tenant m.appId with
        | .ok active => pure active.id
        | .error .notFound => pure ""
        | .error e => .error (registryErr e)
      (s.setCanary ⟨tenant, m.appId, m.candidatePolicyId, stable, m.percent, m.rollbackThreshold⟩
        now).mapError toConnectErr

def promoteCanary (registry : Registry.MemStore) (s : MemStore) (ctx : Option Principal)
    (tenantId appId : String) (now : Int64) :
    Except ConnectError (CanaryStatus × Registry.MemStore × MemStore) := do
  let (tenant, _) ← requireTenant ctx tenantId
  let cur ← (s.getCanary tenant appId).mapError toConnectErr
  let (_, registry) ← (registry.activatePolicy tenant cur.candidatePolicyId now).mapError registryErr
  let (status, s) ← (s.promoteCanary tenant appId now).mapError toConnectErr
  pure (status, registry, s)

def rollbackCanary (s : MemStore) (ctx : Option Principal) (tenantId appId reason : String)
    (now : Int64) : Except ConnectError (CanaryStatus × MemStore) := do
  let (tenant, _) ← requireTenant ctx tenantId
  (s.rollbackCanary tenant appId reason ⟨0, 0⟩ now).mapError toConnectErr

/-- **A promotion activates the candidate and ends the rollout.** -/
theorem promoteCanary_eq_ok {registry registry' : Registry.MemStore} {ctx : Option Principal}
    {tenantId appId : String} (hkeyed : s.Keyed)
    (h : promoteCanary registry s ctx tenantId appId now = .ok (cs, registry', s')) :
    ∃ tenant apiKeyID cur p, requireTenant ctx tenantId = .ok (tenant, apiKeyID) ∧
      s.canaries.lookup (scopeKey tenant appId "") = some cur ∧
      registry.activatePolicy tenant cur.candidatePolicyId now = .ok (p, registry') ∧
      scopeKey cs.tenantId cs.appId "" = scopeKey tenant appId "" ∧ s' = s.putCanary cs ∧
      cs.state = .promoted := by
  obtain ⟨⟨tenant, apiKeyID⟩, htenant, h⟩ := bind_eq_ok h
  obtain ⟨cur, hcur, h⟩ := bind_eq_ok h
  obtain ⟨⟨p, registry₁⟩, hactivate, h⟩ := bind_eq_ok h
  obtain ⟨⟨status, s₁⟩, hpromote, h⟩ := bind_eq_ok h
  cases h
  obtain ⟨old, hlook, rfl, hkey, hs'⟩ :=
    updateCanary_eq_ok hkeyed (eq_ok_of_mapError hpromote) fun _ => ⟨rfl, rfl⟩
  have hold : cur = old := by
    have hget := eq_ok_of_mapError hcur
    unfold MemStore.getCanary at hget
    rw [hlook] at hget
    exact (Except.ok.inj hget).symm
  subst hold
  exact ⟨tenant, apiKeyID, cur, p, htenant, hlook, eq_ok_of_mapError hactivate, hkey, hs', rfl⟩

end Kseal.Compliance
