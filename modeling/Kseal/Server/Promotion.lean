import Kseal.Server.Compliance

/-!
# Promotion of a candidate (`control-plane/compliance/service.go`)

`PromoteCanary` reads the rollout, activates its candidate and marks the rollout as promoted, in
three steps on two stores (`promotion_iff`).
-/

namespace Kseal.Compliance

open Infra Wire Server List

/-! ## Calls between the steps -/

structure SetCall where
  registry : Registry.MemStore
  ctx : Option Principal
  m : SetCanaryRolloutRequest
  now : Int64

def SetCall.run (s : MemStore) (call : SetCall) : MemStore :=
  match setCanaryRollout call.registry s call.ctx call.m call.now with
  | .ok (_, s) => s
  | .error _ => s

def promoteInterleaved (registry : Registry.MemStore) (s : MemStore) (ctx : Option Principal)
    (tenantId appId : String) (now : Int64) (early late : List SetCall) :
    Except ConnectError (CanaryStatus × Registry.MemStore × MemStore) := do
  let (tenant, _) ← requireTenant ctx tenantId
  let cur ← (s.getCanary tenant appId).mapError toConnectErr
  let s := early.foldl SetCall.run s
  let (_, registry) ← (registry.activatePolicy tenant cur.candidatePolicyId now).mapError registryErr
  let s := late.foldl SetCall.run s
  let (status, s) ← (s.promoteCanary tenant appId now).mapError toConnectErr
  pure (status, registry, s)

def SetCall.sets (call : SetCall) : Option (String × String) :=
  match setCanaryRollout call.registry ⟨∅, ∅⟩ call.ctx call.m call.now with
  | .ok (cs, _) => some (scopeKey cs.tenantId cs.appId "", cs.candidatePolicyId)
  | .error _ => none

def candidateAfter (key candidate : String) (calls : List SetCall) : String :=
  calls.foldl (fun candidate call =>
    match call.sets with
    | some (k, c) => if k = key then c else candidate
    | none => candidate) candidate

def rolloutInput (registry : Registry.MemStore) (ctx : Option Principal)
    (m : SetCanaryRolloutRequest) : Except ConnectError CanaryInput := do
  let (tenant, _) ← requireTenant ctx m.tenantId
  if m.appId = "" then .error ⟨.invalidArgument, "app_id required"⟩
  else
    let candidate ← (registry.getPolicy tenant m.candidatePolicyId).mapError registryErr
    if candidate.appId ≠ "" ∧ candidate.appId ≠ m.appId then
      .error ⟨.invalidArgument, "candidate policy does not belong to app"⟩
    else
      let stable ← match registry.getActivePolicy tenant m.appId with
        | .ok active => pure active.id
        | .error .notFound => pure ""
        | .error e => .error (registryErr e)
      pure ⟨tenant, m.appId, m.candidatePolicyId, stable, m.percent, m.rollbackThreshold⟩

theorem setCanaryRollout_eq (registry : Registry.MemStore) (s : MemStore) (ctx : Option Principal)
    (m : SetCanaryRolloutRequest) (now : Int64) :
    setCanaryRollout registry s ctx m now =
      rolloutInput registry ctx m >>= fun input => (s.setCanary input now).mapError toConnectErr := by
  unfold setCanaryRollout rolloutInput
  cases requireTenant ctx m.tenantId with
  | error e => rfl
  | ok r =>
    rw [ok_bind, ok_bind]
    dsimp only
    by_cases happ : m.appId = ""
    · rw [if_pos happ, if_pos happ]
      rfl
    · rw [if_neg happ, if_neg happ]
      cases registry.getPolicy r.1 m.candidatePolicyId with
      | error e => rfl
      | ok candidate =>
        by_cases hforeign : candidate.appId ≠ "" ∧ candidate.appId ≠ m.appId
        · simp only [Except.mapError, ok_bind, if_pos hforeign]
          rfl
        · simp only [Except.mapError, ok_bind, if_neg hforeign]
          cases registry.getActivePolicy r.1 m.appId with
          | ok active => rfl
          | error e => cases e <;> rfl

theorem setCanary_indep (s s₀ : MemStore) (input : CanaryInput) (now : Int64) :
    (∃ e, s.setCanary input now = .error e ∧ s₀.setCanary input now = .error e) ∨
      ∃ cs cs₀ s₀', s.setCanary input now = .ok (cs, s.putCanary cs) ∧
        s₀.setCanary input now = .ok (cs₀, s₀') ∧ cs₀.tenantId = cs.tenantId ∧
        cs₀.appId = cs.appId ∧ cs₀.candidatePolicyId = cs.candidatePolicyId := by
  unfold MemStore.setCanary
  split
  · exact .inl ⟨_, rfl, rfl⟩
  · split
    · exact .inl ⟨_, rfl, rfl⟩
    · split
      · exact .inl ⟨_, rfl, rfl⟩
      · exact .inr ⟨_, _, _, rfl, rfl, rfl, rfl, rfl⟩

theorem SetCall.run_eq (s : MemStore) (call : SetCall) :
    (call.sets = none ∧ call.run s = s) ∨
      ∃ cs, call.sets = some (scopeKey cs.tenantId cs.appId "", cs.candidatePolicyId) ∧
        call.run s = s.putCanary cs := by
  unfold SetCall.sets SetCall.run
  rw [setCanaryRollout_eq, setCanaryRollout_eq]
  cases rolloutInput call.registry call.ctx call.m with
  | error e => exact .inl ⟨rfl, rfl⟩
  | ok input =>
    rw [ok_bind, ok_bind]
    rcases setCanary_indep s ⟨∅, ∅⟩ input call.now with
      ⟨e, herr, herr₀⟩ | ⟨cs, cs₀, s₀', hok, hok₀, htenant, happ, hcandidate⟩
    · rw [herr, herr₀]
      exact .inl ⟨rfl, rfl⟩
    · rw [hok, hok₀]
      refine .inr ⟨cs, ?_, rfl⟩
      show some (scopeKey cs₀.tenantId cs₀.appId "", cs₀.candidatePolicyId) = _
      rw [htenant, happ, hcandidate]

/-- **The candidate of a scope after the calls** is that of the last one accepted for it. -/
theorem candidate_foldl_run {s : MemStore} (hkeyed : s.Keyed) (calls : List SetCall) {key : String}
    {cs : CanaryStatus} (h : s.canaries.lookup key = some cs) :
    (calls.foldl SetCall.run s).Keyed ∧
      ∃ cs', (calls.foldl SetCall.run s).canaries.lookup key = some cs' ∧
        cs'.candidatePolicyId = candidateAfter key cs.candidatePolicyId calls := by
  induction calls generalizing s cs with
  | nil => exact ⟨hkeyed, cs, h, rfl⟩
  | cons call calls ih =>
    rw [foldl_cons]
    unfold candidateAfter
    rw [foldl_cons]
    rcases call.run_eq s with ⟨hnone, hrun⟩ | ⟨new, hsets, hrun⟩
    · rw [hrun, hnone]
      exact ih hkeyed h
    · rw [hrun, hsets]
      dsimp only
      have hlook := GoMap.lookup_insert_eq s.canaries (scopeKey new.tenantId new.appId "") key new
      by_cases hkey : scopeKey new.tenantId new.appId "" = key
      · rw [if_pos hkey.symm] at hlook
        rw [if_pos hkey]
        exact ih (hkeyed.putCanary new) hlook
      · rw [if_neg (Ne.symm hkey), h] at hlook
        rw [if_neg hkey]
        exact ih (hkeyed.putCanary new) hlook

/-! ## What a promotion does -/

theorem promoteInterleaved_eq_ok {registry registry' : Registry.MemStore} {s s' : MemStore}
    {ctx : Option Principal} {tenantId appId : String} {now : Int64} {early late : List SetCall}
    {status : CanaryStatus} (hkeyed : s.Keyed)
    (h : promoteInterleaved registry s ctx tenantId appId now early late =
      .ok (status, registry', s')) :
    ∃ tenant apiKeyID cur target, requireTenant ctx tenantId = .ok (tenant, apiKeyID) ∧
      s.getCanary tenant appId = .ok cur ∧
      registry.getPolicy tenant cur.candidatePolicyId = .ok target ∧
      registry.policies.lookup cur.candidatePolicyId = some target ∧ target.tenantId = tenant ∧
      registry' = registry.withActive target cur.candidatePolicyId now ∧
      status.candidatePolicyId = candidateAfter (scopeKey tenant appId "") cur.candidatePolicyId
        (early ++ late) := by
  obtain ⟨⟨tenant, apiKeyID⟩, htenant, h⟩ := bind_eq_ok h
  obtain ⟨cur, hcur, h⟩ := bind_eq_ok h
  obtain ⟨⟨p, registry₁⟩, hactivate, h⟩ := bind_eq_ok h
  obtain ⟨⟨status₁, s₁⟩, hpromote, h⟩ := bind_eq_ok h
  cases h
  obtain ⟨target, hlook, ht, hregistry⟩ :=
    Registry.activatePolicy_eq_ok (eq_ok_of_mapError hactivate)
  have hget := eq_ok_of_mapError hcur
  have hpolicy : registry.getPolicy tenant cur.candidatePolicyId = .ok target := by
    unfold Registry.MemStore.getPolicy
    rw [hlook]
    exact if_neg (not_not.mpr ht)
  have hrow : s.canaries.lookup (scopeKey tenant appId "") = some cur := by
    unfold MemStore.getCanary at hget
    split at hget
    · next hrow =>
      cases hget
      exact hrow
    · cases hget
  obtain ⟨hkeyed', cs', hcs', hcandidate⟩ := candidate_foldl_run hkeyed (early ++ late) hrow
  rw [foldl_append] at hkeyed' hcs'
  obtain ⟨old, hold, rfl, -, -⟩ :=
    updateCanary_eq_ok hkeyed' (eq_ok_of_mapError hpromote) fun _ => ⟨rfl, rfl⟩
  obtain rfl : cs' = old := Option.some.inj (hcs'.symm.trans hold)
  exact ⟨tenant, apiKeyID, cur, target, htenant, hget, hpolicy, hlook, ht, hregistry, hcandidate⟩

def shadow (registry : Registry.MemStore) (tenant appId : String) (candidate : Policy) :
    Option Policy :=
  if candidate.appId = appId then none else registry.activeAt tenant appId

section active

variable {registry : Registry.MemStore} {tenant appId id : String} {now : Int64} {target : Policy}

theorem active_withActive (hlook : registry.policies.lookup id = some target)
    (htenant : target.tenantId = tenant) (app : String) :
    (registry.withActive target id now).active tenant app =
      (if target.appId = app then some { target with isActive := true, updatedAt := now }
        else registry.activeAt tenant app).or
      (if target.appId = "" then some { target with isActive := true, updatedAt := now }
        else registry.activeAt tenant "") := by
  unfold Registry.MemStore.active
  rw [Registry.activeAt_activated hlook, Registry.activeAt_activated hlook, htenant]
  simp

theorem active_of_promoted (hlook : registry.policies.lookup id = some target)
    (htenant : target.tenantId = tenant) (hid : target.id = id)
    (hscope : target.appId = "" ∨ target.appId = appId) :
    ((registry.withActive target id now).active tenant appId).map Policy.id =
      some (((shadow registry tenant appId target).map Policy.id).getD id) := by
  rw [active_withActive hlook htenant, shadow]
  by_cases happ : target.appId = appId
  · rw [if_pos happ, if_pos happ]
    exact congrArg some hid
  · rw [if_neg happ, if_neg happ, if_pos (hscope.resolve_right happ)]
    cases registry.activeAt tenant appId with
    | none => exact congrArg some hid
    | some q => rfl

/-- Another app keeps its policy exactly if it does not fall back to the tenant's, or that is kept. -/
theorem active_of_other (hlook : registry.policies.lookup id = some target)
    (htenant : target.tenantId = tenant) (hid : target.id = id)
    (hscope : target.appId = "" ∨ target.appId = appId) {app : String} (hne : app ≠ appId) :
    ((registry.withActive target id now).active tenant app).map Policy.id =
        (registry.active tenant app).map Policy.id ↔
      target.appId ≠ "" ∨ (app ≠ "" ∧ (registry.activeAt tenant app).isSome = true) ∨
        (registry.activeAt tenant "").map Policy.id = some id := by
  rw [active_withActive hlook htenant, Registry.MemStore.active]
  by_cases hwide : target.appId = ""
  · rw [hwide]
    by_cases hempty : app = ""
    · rw [hempty, Option.or_self, Option.or_self]
      constructor
      · intro h
        exact .inr (.inr (h.symm.trans (congrArg some hid)))
      · rintro (h | ⟨h, -⟩ | h)
        · exact absurd rfl h
        · exact absurd rfl h
        · exact (congrArg some hid).trans h.symm
    · rw [if_neg (Ne.symm hempty)]
      cases registry.activeAt tenant app with
      | none =>
        constructor
        · intro h
          exact .inr (.inr (h.symm.trans (congrArg some hid)))
        · rintro (h | ⟨-, h⟩ | h)
          · exact absurd rfl h
          · cases h
          · exact (congrArg some hid).trans h.symm
      | some q => exact iff_of_true rfl (.inr (.inl ⟨hempty, rfl⟩))
  · have happ : target.appId ≠ app := by
      rw [hscope.resolve_left hwide]
      exact Ne.symm hne
    rw [if_neg happ, if_neg hwide]
    exact iff_of_true rfl (.inl hwide)

end active

/--
**When a promotion does what it reports.**

The app's policy is the candidate that is reported exactly if the rollout has still, or again, the
candidate that was activated (with an app policy in front of a candidate for the whole tenant: if it
has that policy as its candidate). The other apps keep their policies exactly if the candidate is the
app's own, or none of them falls back to a policy of the tenant other than the candidate.
-/
theorem promotion_iff {registry registry' : Registry.MemStore} {s s' : MemStore}
    {ctx : Option Principal} {tenantId appId tenant apiKeyID : String} {now : Int64}
    {early late : List SetCall} {status cur : CanaryStatus} {candidate : Policy}
    (hpolicies : registry.Keyed) (hkeyed : s.Keyed)
    (htenant : requireTenant ctx tenantId = .ok (tenant, apiKeyID))
    (hcur : s.getCanary tenant appId = .ok cur)
    (hcandidate : registry.getPolicy tenant cur.candidatePolicyId = .ok candidate)
    (haccepted : candidate.appId = "" ∨ candidate.appId = appId)
    (hok : promoteInterleaved registry s ctx tenantId appId now early late =
      .ok (status, registry', s')) :
    ((registry'.getActivePolicy tenant appId).toOption.map Policy.id =
          some status.candidatePolicyId ∧
        ∀ app a, registry.getApp tenant app = .ok a → app ≠ appId →
          (registry'.getActivePolicy tenant app).toOption.map Policy.id =
            (registry.getActivePolicy tenant app).toOption.map Policy.id) ↔
      (candidateAfter (scopeKey tenant appId "") cur.candidatePolicyId (early ++ late) =
          ((shadow registry tenant appId candidate).map Policy.id).getD cur.candidatePolicyId ∧
        ∀ app a, registry.getApp tenant app = .ok a → app ≠ appId →
          candidate.appId ≠ "" ∨ (app ≠ "" ∧ (registry.activeAt tenant app).isSome = true) ∨
            (registry.activeAt tenant "").map Policy.id = some cur.candidatePolicyId) := by
  obtain ⟨tenant', apiKeyID', cur', target, htenant', hcur', htarget, hlook, ht, rfl, hstatus⟩ :=
    promoteInterleaved_eq_ok hkeyed hok
  obtain ⟨rfl, rfl⟩ := Prod.mk.inj (Except.ok.inj (htenant.symm.trans htenant'))
  obtain rfl : cur = cur' := Except.ok.inj (hcur.symm.trans hcur')
  obtain rfl : candidate = target := Except.ok.inj (hcandidate.symm.trans htarget)
  have hid : candidate.id = cur.candidatePolicyId := hpolicies _ _ hlook
  rw [hstatus, Registry.toOption_getActivePolicy, active_of_promoted hlook ht hid haccepted,
    Option.some.injEq]
  refine and_congr eq_comm ?_
  refine forall_congr' fun app => forall_congr' fun a => forall_congr' fun _ =>
    forall_congr' fun hne => ?_
  rw [Registry.toOption_getActivePolicy, Registry.toOption_getActivePolicy]
  exact active_of_other hlook ht hid haccepted hne

/-! ## Promotions that misreport -/

namespace PromotionSample

def policy (id appId : String) (isActive : Bool) : Policy where
  id := id
  tenantId := "t"
  appId := appId
  name := id
  version := 1
  enforcementMode := .block
  rules := "[]"
  riskThresholds := ""
  modulesEnabled := []
  isActive := isActive
  createdAt := 0
  updatedAt := 0

def registry : Registry.MemStore where
  apps := (AList.singleton "a" ⟨"a", "t", "com.a"⟩).insert "b" ⟨"b", "t", "com.b"⟩
  policies := (((AList.singleton "p" (policy "p" "a" true)).insert "w" (policy "w" "" false)).insert
    "c1" (policy "c1" "a" false)).insert "c2" (policy "c2" "a" false)
  signing := ∅
  sessions := ∅

def ctx : Option Principal := some ⟨"t", "api"⟩

def call (candidate : String) : SetCall := ⟨registry, ctx, ⟨"t", "a", candidate, 10, 0.05⟩, 1⟩

def rollouts (candidate : String) : MemStore := (call candidate).run ⟨∅, ∅⟩

def rollout (candidate : String) : CanaryStatus where
  tenantId := "t"
  appId := "a"
  candidatePolicyId := candidate
  stablePolicyId := "p"
  percent := 10
  state := .active
  blockRate := 0
  sampleCount := 0
  rollbackThreshold := if (0.05 : Float) ≤ 0 then defaultRollbackThreshold else 0.05
  lastEvent := "rollout set to 10%"
  updatedAt := 1

def promoted (candidate : String) (early late : List SetCall) :
    Option (String × Option String × Option String) :=
  (promoteInterleaved registry (rollouts candidate) ctx "t" "a" 5 early late).toOption.map fun r =>
    (r.1.candidatePolicyId, (r.2.1.getActivePolicy "t" "a").toOption.map Policy.id,
      (r.2.1.getActivePolicy "t" "b").toOption.map Policy.id)

theorem registry_keyed : registry.Keyed := by
  have hall : ∀ e ∈ registry.policies.pairs, e.2.id = e.1 := by decide +kernel
  intro key p hlook
  exact hall (key, p) (GoMap.mem_pairs.mpr hlook)

theorem rollouts_keyed (candidate : String) : (rollouts candidate).Keyed := by
  have hempty : (⟨∅, ∅⟩ : MemStore).Keyed := by
    intro key cs hlook
    cases hlook
  unfold rollouts
  rcases (call candidate).run_eq ⟨∅, ∅⟩ with ⟨-, hrun⟩ | ⟨cs, -, hrun⟩
  · rw [hrun]
    exact hempty
  · rw [hrun]
    exact hempty.putCanary cs

end PromotionSample

open PromotionSample in
theorem own_candidate_promoted :
    ∃ status registry' s',
      promoteInterleaved registry (rollouts "c1") ctx "t" "a" 5 [] [] = .ok (status, registry', s') ∧
        (registry'.getActivePolicy "t" "a").toOption.map Policy.id =
          some status.candidatePolicyId := by
  cases hok : promoteInterleaved registry (rollouts "c1") ctx "t" "a" 5 [] [] with
  | error e =>
    have hsucceeds : (promoted "c1" [] []).isSome = true := by decide +kernel
    unfold promoted at hsucceeds
    rw [hok] at hsucceeds
    cases hsucceeds
  | ok r =>
    obtain ⟨status, registry', s'⟩ := r
    have htenant : requireTenant ctx "t" = .ok ("t", "api") := rfl
    have hcur : (rollouts "c1").getCanary "t" "a" = .ok (rollout "c1") := rfl
    have hcandidate : registry.getPolicy "t" "c1" = .ok (policy "c1" "a" false) := rfl
    refine ⟨status, registry', s', rfl, ((promotion_iff registry_keyed (rollouts_keyed "c1") htenant
      hcur hcandidate (.inr rfl) hok).mpr ⟨by decide +kernel, ?_⟩).1⟩
    intro app a _ _
    exact .inl (by decide)

open PromotionSample in
/--
**Promotions that misreport.** A candidate of the tenant is reported for `a`, which keeps its own
policy, while `b` gets the candidate; and a candidate that was set in the meantime is reported,
while the one before is active.
-/
theorem promotion_misreports :
    (registry.getActivePolicy "t" "b").toOption.map Policy.id = none ∧
      promoted "w" [] [] = some ("w", some "p", some "w") ∧
      promoted "c1" [call "c2"] [] = some ("c2", some "c1", none) ∧
      promoted "c1" [] [call "c2"] = some ("c2", some "c1", none) := by
  refine ⟨?_, ?_, ?_, ?_⟩ <;> decide +kernel

end Kseal.Compliance
