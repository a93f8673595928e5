import Kseal.Server.Compliance

/-!
# Stores of rollouts (`control-plane/compliance`)

Rollouts are kept in memory under a text key (`MemStore`), or as rows with tenant and app as their
key (`PostgresStore`). What a user may rely on is the same for both.
-/

namespace Kseal.Compliance

open Infra Wire

/-! ## The rows of `canary_rollouts` (`postgres.go`) -/

structure PostgresStore where
  canaryRollouts : GoMap (String × String) CanaryStatus

def PostgresStore.setCanary (s : PostgresStore) (input : CanaryInput) (now : Int64) :
    Except StoreError (CanaryStatus × PostgresStore) :=
  if input.tenantID = "" ∨ input.appID = "" then
    .error (.invalidInput "tenant_id and app_id required")
  else if input.candidatePolicyID = "" then
    .error (.invalidInput "candidate_policy_id required")
  else if input.percent > 100 then .error (.invalidInput "percent must be 0..100")
  else
    let key := (input.tenantID, input.appID)
    let old := s.canaryRollouts.lookup key
    let cs : CanaryStatus :=
      { tenantId := input.tenantID
        appId := input.appID
        candidatePolicyId := input.candidatePolicyID
        stablePolicyId :=
          if input.stablePolicyID ≠ "" then input.stablePolicyID
          else (old.map CanaryStatus.stablePolicyId).getD ""
        percent := input.percent
        state := .active
        blockRate := (old.map CanaryStatus.blockRate).getD 0
        sampleCount := (old.map CanaryStatus.sampleCount).getD 0
        rollbackThreshold :=
          if input.rollbackThreshold ≤ 0 then defaultRollbackThreshold else input.rollbackThreshold
        lastEvent := "rollout set to " ++ input.percent.toNat.repr ++ "%"
        updatedAt := now }
    .ok (cs, ⟨s.canaryRollouts.insert key cs⟩)

def PostgresStore.listActiveCanaries (s : PostgresStore) : List CanaryStatus :=
  (s.canaryRollouts.pairs.map Prod.snd).filter fun cs => cs.state = .active

def PostgresStore.updateCanary (s : PostgresStore) (tenantID appID : String)
    (f : CanaryStatus → CanaryStatus) : Except StoreError (CanaryStatus × PostgresStore) :=
  if tenantID = "" ∨ appID = "" then .error (.invalidInput "tenant_id and app_id required")
  else
    match s.canaryRollouts.lookup (tenantID, appID) with
    | none => .error .notFound
    | some cs => .ok (f cs, ⟨s.canaryRollouts.insert (tenantID, appID) (f cs)⟩)

def PostgresStore.promoteCanary (s : PostgresStore) (tenantID appID : String) (now : Int64) :
    Except StoreError (CanaryStatus × PostgresStore) :=
  s.updateCanary tenantID appID fun cs =>
    { cs with
      state := .promoted
      percent := 100
      stablePolicyId := cs.candidatePolicyId
      lastEvent := "promoted to stable"
      updatedAt := now }

def PostgresStore.rollbackCanary (s : PostgresStore) (tenantID appID reason : String)
    (obs : CanaryObservation) (now : Int64) : Except StoreError (CanaryStatus × PostgresStore) :=
  s.updateCanary tenantID appID fun cs =>
    { cs with
      state := .rolledBack
      percent := 0
      blockRate := obs.blockRate
      sampleCount := obs.sampleCount
      lastEvent := rollbackEvent reason
      updatedAt := now }

def PostgresStore.Keyed (s : PostgresStore) : Prop :=
  ∀ key cs, s.canaryRollouts.lookup key = some cs → key = (cs.tenantId, cs.appId)

/-! ## What both stores do -/

structure CanaryStore where
  Store : Type
  Scope : Type
  [decEqScope : DecidableEq Scope]
  scope : String → String → Scope
  Valid : Store → Prop
  rollout : Store → Scope → Option CanaryStatus
  listActive : Store → List CanaryStatus
  set : Store → CanaryInput → Int64 → Except StoreError (CanaryStatus × Store)
  promote : Store → String → String → Int64 → Except StoreError (CanaryStatus × Store)
  rollback : Store → String → String → String → CanaryObservation → Int64 →
    Except StoreError (CanaryStatus × Store)
  listActive_spec : ∀ {s cs}, Valid s → cs ∈ listActive s →
    rollout s (scope cs.tenantId cs.appId) = some cs ∧ cs.state = .active
  set_spec : ∀ {s input now cs s'}, Valid s → set s input now = .ok (cs, s') →
    Valid s' ∧ cs.state = .active ∧ cs.candidatePolicyId = input.candidatePolicyID ∧
      ∀ k, rollout s' k = if k = scope input.tenantID input.appID then some cs else rollout s k
  promote_spec : ∀ {s tenantID appID now cs s'}, Valid s →
    promote s tenantID appID now = .ok (cs, s') → Valid s' ∧ cs.state = .promoted ∧
      ∀ k, rollout s' k = if k = scope tenantID appID then some cs else rollout s k
  rollback_spec : ∀ {s tenantID appID reason obs now cs s'}, Valid s →
    rollback s tenantID appID reason obs now = .ok (cs, s') → Valid s' ∧ cs.state = .rolledBack ∧
      ∀ k, rollout s' k = if k = scope tenantID appID then some cs else rollout s k

attribute [instance] CanaryStore.decEqScope

section mem

variable {s s' : MemStore} {tenantID appID : String} {cs : CanaryStatus}

theorem lookup_putCanary (hkey : scopeKey cs.tenantId cs.appId "" = scopeKey tenantID appID "")
    (k : String) :
    (s.putCanary cs).canaries.lookup k =
      if k = scopeKey tenantID appID "" then some cs else s.canaries.lookup k := by
  rw [← hkey]
  exact GoMap.lookup_insert_eq _ _ _ _

end mem

def memCanaries : CanaryStore where
  Store := MemStore
  Scope := String
  scope tenantID appID := scopeKey tenantID appID ""
  Valid := MemStore.Keyed
  rollout s k := s.canaries.lookup k
  listActive := MemStore.listActiveCanaries
  set := MemStore.setCanary
  promote := MemStore.promoteCanary
  rollback := MemStore.rollbackCanary
  listActive_spec hkeyed := (mem_listActiveCanaries_iff hkeyed).mp
  set_spec := by
    intro s input now cs s' hkeyed h
    obtain ⟨rfl, htenant, happ, hcandidate, -, hactive⟩ := setCanary_eq_ok h
    exact ⟨hkeyed.putCanary cs, hactive, hcandidate, lookup_putCanary (by rw [htenant, happ])⟩
  promote_spec := by
    intro s tenantID appID now cs s' hkeyed h
    obtain ⟨old, -, rfl, hkey, rfl⟩ := updateCanary_eq_ok hkeyed h fun _ => ⟨rfl, rfl⟩
    exact ⟨hkeyed.putCanary _, rfl, lookup_putCanary hkey⟩
  rollback_spec := by
    intro s tenantID appID reason obs now cs s' hkeyed h
    obtain ⟨hkey, rfl, hstate⟩ := rollbackCanary_eq_ok hkeyed h
    exact ⟨hkeyed.putCanary cs, hstate, lookup_putCanary hkey⟩

section postgres

variable {s s' : PostgresStore} {tenantID appID : String} {cs : CanaryStatus}

theorem PostgresStore.Keyed.insert (hkeyed : s.Keyed) (htenant : cs.tenantId = tenantID)
    (happ : cs.appId = appID) :
    (PostgresStore.mk (s.canaryRollouts.insert (tenantID, appID) cs)).Keyed := by
  intro key cs' hlook
  rw [GoMap.lookup_insert_eq] at hlook
  split at hlook
  · next hkey =>
    cases hlook
    rw [hkey, htenant, happ]
  · exact hkeyed key cs' hlook

theorem PostgresStore.updateCanary_eq_ok {f : CanaryStatus → CanaryStatus} (hkeyed : s.Keyed)
    (h : s.updateCanary tenantID appID f = .ok (cs, s'))
    (hf : ∀ cs, (f cs).tenantId = cs.tenantId ∧ (f cs).appId = cs.appId) :
    s'.Keyed ∧ (∃ old, cs = f old) ∧ ∀ k, s'.canaryRollouts.lookup k =
      if k = (tenantID, appID) then some cs else s.canaryRollouts.lookup k := by
  obtain ⟨-, h⟩ := guard_ok h
  split at h
  · cases h
  · next old hlook =>
    cases h
    have hkey := hkeyed _ _ hlook
    refine ⟨hkeyed.insert ?_ ?_, ⟨old, rfl⟩, fun k => GoMap.lookup_insert_eq _ _ k _⟩
    · rw [(hf old).1, ← (Prod.mk.inj hkey).1]
    · rw [(hf old).2, ← (Prod.mk.inj hkey).2]

end postgres

def pgCanaries : CanaryStore where
  Store := PostgresStore
  Scope := String × String
  scope tenantID appID := (tenantID, appID)
  Valid := PostgresStore.Keyed
  rollout s k := s.canaryRollouts.lookup k
  listActive := PostgresStore.listActiveCanaries
  set := PostgresStore.setCanary
  promote := PostgresStore.promoteCanary
  rollback := PostgresStore.rollbackCanary
  listActive_spec := by
    intro s cs hkeyed h
    obtain ⟨hmem, hactive⟩ := List.mem_filter.mp h
    obtain ⟨⟨key, cs'⟩, hpair, rfl⟩ := List.mem_map.mp hmem
    have hlook := GoMap.mem_pairs.mp hpair
    refine ⟨?_, of_decide_eq_true hactive⟩
    rw [← hkeyed _ _ hlook]
    exact hlook
  set_spec := by
    intro s input now cs s' hkeyed h
    obtain ⟨-, h⟩ := guard_ok h
    obtain ⟨-, h⟩ := guard_ok h
    obtain ⟨-, ⟨⟩⟩ := guard_ok h
    exact ⟨hkeyed.insert rfl rfl, rfl, rfl, fun k => GoMap.lookup_insert_eq _ _ k _⟩
  promote_spec := by
    intro s tenantID appID now cs s' hkeyed h
    obtain ⟨hkeyed', ⟨old, rfl⟩, hlook⟩ :=
      PostgresStore.updateCanary_eq_ok hkeyed h fun _ => ⟨rfl, rfl⟩
    exact ⟨hkeyed', rfl, hlook⟩
  rollback_spec := by
    intro s tenantID appID reason obs now cs s' hkeyed h
    obtain ⟨hkeyed', ⟨old, rfl⟩, hlook⟩ :=
      PostgresStore.updateCanary_eq_ok hkeyed h fun _ => ⟨rfl, rfl⟩
    exact ⟨hkeyed', rfl, hlook⟩

end Kseal.Compliance
