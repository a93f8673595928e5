import Kseal.Server.Canary
import Kseal.Server.Guardrails
import Kseal.Server.Trust

/-!
# The stages of a request proof (`data-plane/trust/service.go`)

`ValidateRequestProof` reads the session, later consumes the sequence, and then decides and
records the decision for the cohort of the instance. Between these stages other requests may run.

* `recordCanaryHealth_filed` — what the detector is given
-/

namespace Kseal.Trust

open Infra Wire Server Registry

/-! ## The stages -/

/--
`ValidateRequestProof` up to the tag, where `session` is the answer of `GetTrustSession`: an
answer, or the tenant and the session.
-/
def checkProof (env : Env) (session : String → Except StoreError TrustSession)
    (now : Int64) (ctx : Option Principal) (m : RequestProof) :
    Except ConnectError (RequestProofResult ⊕ String × TrustSession) :=
  if m.trustTokenId = "" then .ok (.inl (deny "missing trust token id"))
  else if m.requestHash.length = 0 ∨ m.nonce.length = 0 then
    .ok (.inl (deny "invalid proof: missing request hash or nonce"))
  else if m.appInstanceSignature.length = 0 then
    .ok (.inl (deny "invalid proof: missing signature"))
  else if env.validUUID m.trustTokenId = false then .ok (.inl (deny "unknown trust token"))
  else
    match tenantFrom ctx with
    | none => .ok (.inl (deny "tenant credential required"))
    | some tenantID =>
      match session tenantID with
      | .error .notFound => .ok (.inl (deny "unknown trust token"))
      | .error e => .error ⟨.internal, e.message⟩
      | .ok sess =>
        if sess.status ≠ .active then .ok (.inl (deny "revoked trust token"))
        else if now ≥ sess.expiresAt then .ok (.inl (deny "expired trust token"))
        else if expectedTag env sess m.trustTokenId m.requestHash m.nonce m.monotonicSequence ≠
            m.appInstanceSignature then .ok (.inl (deny "invalid proof signature"))
        else .ok (.inr (tenantID, sess))

def consumed {σ : Type} : Except StoreError σ → Except ConnectError (RequestProofResult ⊕ σ)
  | .error .replay => .ok (.inl (deny "sequence replay"))
  | .error .notFound => .ok (.inl (deny "unknown trust token"))
  | .error e => .error ⟨.internal, e.message⟩
  | .ok store => .ok (.inr store)

def modeOf (policy : Except StoreError Policy) : EnforcementMode :=
  match policy with
  | .ok policy => policy.enforcementMode
  | .error _ => .stepUp

def decideProof (store : MemStore) (sess : TrustSession) : Decision :=
  Risk.decision sess.riskLevel (modeOf (store.getActivePolicy sess.tenantID sess.appID))

/-! ## The health of a rollout -/

structure Filing where
  tenantID : String
  appID : String
  policyID : String
  blocked : Bool
deriving DecidableEq

def Filing.key (f : Filing) : Guardrails.ScopeKey := ⟨f.tenantID, f.appID, f.policyID⟩

structure CanaryFeed where
  detector : Option Guardrails.Detector
  canary : Option Canary.Registry

def filingOf (sha256 : Bytes → Bytes) (s : Service) (canary : Canary.Registry)
    (tenantID appID instanceID : String) (decision : Decision) : Option Filing :=
  if instanceID = "" then none
  else if s.flags.enabled tenantID flagCanaryRollout = false then none
  else
    let (policyID, _) := Canary.cohort sha256 canary tenantID appID instanceID
    if policyID = "" then none else some ⟨tenantID, appID, policyID, decision = .deny⟩

def recordCanaryHealth (sha256 : Bytes → Bytes) (s : Service) (feed : CanaryFeed) (epoch : Int)
    (tenantID appID instanceID : String) (decision : Decision) : CanaryFeed :=
  match feed.detector, feed.canary with
  | some detector, some canary =>
    match filingOf sha256 s canary tenantID appID instanceID decision with
    | none => feed
    | some f => { feed with detector := some (detector.recordDecision epoch f.key f.blocked) }
  | _, _ => feed

def validateAndRecord (env : Env) (s : Service) (store : MemStore) (feed : CanaryFeed)
    (now : Int64) (epoch : Int) (ctx : Option Principal) (m : RequestProof) :
    Except ConnectError (RequestProofResult × MemStore × CanaryFeed) := do
  match ← checkProof env (store.getTrustSession · m.trustTokenId) now ctx m with
  | .inl r => pure (r, store, feed)
  | .inr (tenantID, sess) =>
    match ← consumed (store.consumeSequence tenantID m.trustTokenId m.monotonicSequence) with
    | .inl r => pure (r, store, feed)
    | .inr store =>
      let d := decideProof store sess
      pure (⟨d, decisionReason d⟩, store,
        recordCanaryHealth env.sha256 s feed epoch sess.tenantID sess.appID sess.instanceID d)

variable {env : Env} {s : Service} {store store' : MemStore} {feed feed' : CanaryFeed}
  {now : Int64} {epoch : Int} {ctx : Option Principal} {m : RequestProof}

/-- **The stages, one after the other, answer and store what `ValidateRequestProof` does.** -/
theorem validateRequestProof_eq :
    validateRequestProof env store now ctx m =
      (validateAndRecord env s store feed now epoch ctx m).map fun r => (r.1, r.2.1) := by
  unfold validateAndRecord validateRequestProof checkProof
  -- The checks are in the same order on both sides.
  split
  · rfl
  split
  · rfl
  split
  · rfl
  split
  · rfl
  cases tenantFrom ctx with
  | none => rfl
  | some tenantID =>
    dsimp only
    cases store.getTrustSession tenantID m.trustTokenId with
    | error e => cases e <;> rfl
    | ok sess =>
      dsimp only
      split
      · rfl
      split
      · rfl
      split
      · rfl
      rw [ok_bind]
      dsimp only
      cases store.consumeSequence tenantID m.trustTokenId m.monotonicSequence with
      | error e => cases e <;> rfl
      | ok store' => rfl

theorem filingOf_eq_some {sha256 : Bytes → Bytes} {canary : Canary.Registry}
    {tenantID appID instanceID : String} {decision : Decision} {f : Filing}
    (h : filingOf sha256 s canary tenantID appID instanceID decision = some f) :
    f = ⟨tenantID, appID, (Canary.cohort sha256 canary tenantID appID instanceID).1,
      decision = .deny⟩ := by
  obtain ⟨-, h⟩ := unless_some h
  obtain ⟨-, h⟩ := unless_some h
  dsimp only at h
  obtain ⟨-, ⟨⟩⟩ := unless_some h
  rfl

end Kseal.Trust
