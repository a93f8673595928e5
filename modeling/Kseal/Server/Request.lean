import Kseal.Infra.GoMap

/-!
# Requests (`shared/auth`, `shared/config/flags.go`)

Who makes a request, what a failed one answers, and the feature flags of a tenant.
-/

namespace Kseal.Server

open Infra

inductive Code where
  | invalidArgument
  | unauthenticated
  | permissionDenied
  | notFound
  | unavailable
  | internal
deriving Repr, DecidableEq

structure ConnectError where
  code : Code
  message : String
deriving Repr, DecidableEq

structure Principal where
  tenantID : String
  apiKeyID : String

def tenantFrom (ctx : Option Principal) : Option String :=
  ctx.bind fun p => if p.tenantID = "" then none else some p.tenantID

def enforceTenant (ctx : Option Principal) (rowTenantID : String) : Bool :=
  match tenantFrom ctx with
  | none => false
  | some tenant => !(rowTenantID ≠ "" ∧ rowTenantID ≠ tenant)

structure FeatureFlags where
  byTenant : GoMap String (GoMap String Bool)
  globally : GoMap String Bool

def FeatureFlags.enabled (f : FeatureFlags) (tenantID flag : String) : Bool :=
  match (f.byTenant.lookup tenantID).bind fun t => t.lookup flag with
  | some v => v
  | none => (f.globally.lookup flag).getD false

def flagKillSwitch : String := "kill_switch"
def flagCanaryRollout : String := "canary_rollout"
def flagFleetAnomaly : String := "fleet_anomaly"

end Kseal.Server
