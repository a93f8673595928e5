import Kseal.Server.RequestProof

/-!
# The health of a rollout

Three policies meet in the decision that is filed for a request proof: that of the attestation, that
of the request, and the one it is filed under (`filed_decision_iff`).
-/

namespace Kseal.Contract

open Infra Wire Server Trust List Registry

/-! ## Levels under a policy -/

def levelUnder (parse : String → Option Json) (policy : Option Policy) (w : UInt64) : TrustLevel :=
  Risk.level (Risk.score w (parseWeights parse policy)) (parseThresholds parse policy)

def ownDecision (parse : String → Option Json) (p : Policy) (w : UInt64) : Decision :=
  Risk.decision (levelUnder parse (some p) w) p.enforcementMode

def weightUnder (parse : String → Option Json) (policy : Option Policy) (w : UInt64) : Nat :=
  satSum (2 ^ 32 - 1) (bits w) fun i => (Risk.bitWeight (parseWeights parse policy) i).toNat

def ReachesUnder (parse : String → Option Json) (policy : Option Policy) (n : Nat) (w : UInt64) :
    Prop :=
  ∃ t ∈ Risk.thresholdList (parseThresholds parse policy),
    n ≤ t.2.toNat ∧ t.1.toNat ≤ weightUnder parse policy w

def Blocks (parse : String → Option Json) (policy : Option Policy) (mode : EnforcementMode)
    (w : UInt64) : Prop :=
  mode ≠ .observe ∧ ReachesUnder parse policy (Risk.denyFrom mode) w

def Challenges (parse : String → Option Json) (policy : Option Policy) (mode : EnforcementMode)
    (w : UInt64) : Prop :=
  mode ≠ .observe ∧ ReachesUnder parse policy 3 w

section levels

variable {parse : String → Option Json} {policy : Option Policy} {mode : EnforcementMode}
  {w : UInt64}

theorem le_levelUnder_iff {n : Nat} (hn : 1 < n) :
    n ≤ (levelUnder parse policy w).toNat ↔ ReachesUnder parse policy n w := by
  unfold levelUnder ReachesUnder weightUnder
  rw [Risk.le_level_iff_thresholdList _ _ hn, ← Risk.toNat_score]
  rfl

theorem decision_eq_deny_iff_blocks :
    Risk.decision (levelUnder parse policy w) mode = .deny ↔ Blocks parse policy mode w := by
  have hn : 1 < Risk.denyFrom mode := by
    unfold Risk.denyFrom
    split <;> decide
  rw [Risk.decision_eq_deny_iff, le_levelUnder_iff hn, Blocks]

theorem decision_ne_allow_iff_challenges :
    Risk.decision (levelUnder parse policy w) mode ≠ .allow ↔ Challenges parse policy mode w := by
  rw [Risk.decision_ne_allow_iff, le_levelUnder_iff (by decide), Challenges]

end levels

/-! ## Attested sessions -/

def fusedBits (env : Env) (s : Service) (m : AttestationRequest) (riskBits : UInt64) : UInt64 :=
  applyFleetGuard env s m.tenantId m.appId m.buildHash (Risk.fuse (Risk.fromWire m.riskBitset) riskBits)

structure Attested where
  env : Env
  s : Service
  store : MemStore
  fresh : Fresh
  m : AttestationRequest
  app : App
  res : AttestationResult
  resp : AttestationResponse
  store' : MemStore
  found : store.getApp m.tenantId m.appId = .ok app
  verified :
    env.verify ⟨m.platform, m.platformAttestationToken, m.nonce, app.packageId⟩ = .ok res
  answered : verifyAttestation env s store fresh m = .ok (resp, store')
  accepted : resp.accepted = true

namespace Attested

variable (a : Attested)

def bits : UInt64 := fusedBits a.env a.s a.m a.res.riskBits

def policy : Option Policy := (a.store.getActivePolicy a.m.tenantId a.m.appId).toOption

def IsSession (sess : TrustSession) : Prop :=
  ∃ token created, a.resp.trustToken = some token ∧
    a.store'.getTrustSession a.m.tenantId token.tokenId = .ok created ∧
    sess = { created with lastSequence := sess.lastSequence, status := sess.status }

theorem isSession_created {a : Attested} {token : TrustToken} {created : TrustSession}
    (htoken : a.resp.trustToken = some token)
    (h : a.store'.getTrustSession a.m.tenantId token.tokenId = .ok created) : a.IsSession created :=
  ⟨token, created, htoken, h, rfl⟩

theorem session_eq {a : Attested} {sess : TrustSession} (h : a.IsSession sess) :
    sess.tenantID = a.m.tenantId ∧ sess.appID = a.m.appId ∧ sess.instanceID = a.m.instanceId ∧
      sess.riskLevel = levelUnder a.env.parse a.policy a.bits := by
  obtain ⟨token, created, htoken, hcreated, hsess⟩ := h
  obtain ⟨-, -, app, res, happ, -, hres, -, hmint⟩ := verifyAttestation_eq_ok a.answered a.accepted
  obtain rfl : a.app = app := Except.ok.inj (a.found.symm.trans happ)
  obtain rfl : a.res = res := Except.ok.inj (a.verified.symm.trans hres)
  obtain ⟨token', signed, htoken', hsession⟩ := getTrustSession_of_mintSession hmint
  obtain rfl : token = token' := Option.some.inj (htoken.symm.trans htoken')
  obtain rfl := Except.ok.inj (hcreated.symm.trans hsession)
  rw [hsess]
  exact ⟨rfl, rfl, rfl, rfl⟩

end Attested

/-! ## Calls that are filed -/

structure FiledCall where
  attested : Attested
  env : Env
  s : Service
  store : MemStore
  detector : Guardrails.Detector
  canary : Canary.Registry
  now : Int64
  epoch : Int
  ctx : Option Principal
  m : RequestProof
  tenantID : String
  sess : TrustSession
  store' : MemStore
  filing : Filing
  policy : Policy
  sameParser : env.parse = attested.env.parse
  checked : checkProof env (store.getTrustSession · m.trustTokenId) now ctx m =
    .ok (.inr (tenantID, sess))
  session : attested.IsSession sess
  consumed : store.consumeSequence tenantID m.trustTokenId m.monotonicSequence = .ok store'
  filed : filingOf env.sha256 s canary sess.tenantID sess.appID sess.instanceID
    (decideProof store' sess) = some filing
  known : store.getPolicy sess.tenantID filing.policyID = .ok policy

namespace FiledCall

variable (call : FiledCall)

def decision : Decision := decideProof call.store' call.sess

def own : Decision := ownDecision call.env.parse call.policy call.attested.bits

def mode : EnforcementMode :=
  modeOf (call.store.getActivePolicy call.attested.m.tenantId call.attested.m.appId)

/--
The session is blocked at the levels of the policy active at the attestation, in the mode of the
policy active at the request, exactly if the policy of the cohort by itself blocks it.
-/
def SameBlocking : Prop :=
  Blocks call.env.parse call.attested.policy call.mode call.attested.bits ↔
    Blocks call.env.parse (some call.policy) call.policy.enforcementMode call.attested.bits

def SameChallenge : Prop :=
  Challenges call.env.parse call.attested.policy call.mode call.attested.bits ↔
    Challenges call.env.parse (some call.policy) call.policy.enforcementMode call.attested.bits

def detector' : Guardrails.Detector :=
  call.detector.recordDecision call.epoch call.filing.key call.filing.blocked

theorem decision_eq :
    call.decision =
      Risk.decision (levelUnder call.env.parse call.attested.policy call.attested.bits)
        call.mode := by
  obtain ⟨htenant, happ, -, hlevel⟩ := Attested.session_eq call.session
  obtain ⟨sess, -, -, -, -, hstore⟩ := consumeSequence_eq_ok call.consumed
  have hactive : call.store'.getActivePolicy call.attested.m.tenantId call.attested.m.appId =
      call.store.getActivePolicy call.attested.m.tenantId call.attested.m.appId := by
    rw [hstore]
    rfl
  unfold decision decideProof mode
  rw [htenant, happ, hlevel, hactive, call.sameParser]

theorem blocked_filing : call.filing.blocked = decide (call.decision = .deny) := by
  rw [filingOf_eq_some call.filed]
  rfl

theorem blocked_eq_own_iff :
    call.filing.blocked = decide (call.own = .deny) ↔ call.SameBlocking := by
  rw [blocked_filing, decide_eq_decide, decision_eq, own, ownDecision, decision_eq_deny_iff_blocks,
    decision_eq_deny_iff_blocks, SameBlocking]

theorem decision_eq_own_iff :
    call.decision = call.own ↔ call.SameBlocking ∧ call.SameChallenge := by
  rw [decision_eq, own, ownDecision, Risk.decision_eq_decision_iff, decision_eq_deny_iff_blocks,
    decision_eq_deny_iff_blocks, decision_ne_allow_iff_challenges, decision_ne_allow_iff_challenges,
    SameBlocking, SameChallenge]

end FiledCall

/-! ## The rate the controller reads -/

inductive Fed : Guardrails.Detector → List FiledCall → Guardrails.Detector → Prop where
  | nil (d : Guardrails.Detector) : Fed d [] d
  | cons {call : FiledCall} {calls : List FiledCall} {d' : Guardrails.Detector}
      (h : Fed call.detector' calls d') : Fed call.detector (call :: calls) d'

def ownFed (d : Guardrails.Detector) (calls : List FiledCall) : Guardrails.Detector :=
  calls.foldl (fun d call => d.recordDecision call.epoch call.filing.key (call.own = .deny)) d

theorem Fed.lookup_eq {d₀ d d' : Guardrails.Detector} {calls : List FiledCall}
    {key : Guardrails.ScopeKey} (hfed : Fed d calls d')
    (hsame : ∀ call ∈ calls, call.filing.key = key → call.SameBlocking)
    (h : d.scopes.lookup key = d₀.scopes.lookup key) :
    d'.scopes.lookup key = (ownFed d₀ calls).scopes.lookup key := by
  induction hfed generalizing d₀ with
  | nil d => exact h
  | @cons call calls d' _ ih =>
    rw [forall_mem_cons] at hsame
    refine ih hsame.2 (Guardrails.lookup_recordDecision h ?_ call.epoch)
    intro hkey
    exact call.blocked_eq_own_iff.mpr (hsame.1 hkey)

/--
**When the health of a rollout is that of the policy it is filed under.**

The decision that is filed is the policy's own exactly if the level under the policy active at the
attestation and the mode of the policy active at the request lead to it; and if that is so for all
calls of a scope, then the rate that is read for the scope is that of the policy's own decisions.
-/
theorem filed_decision_iff (calls : List FiledCall) (d d' : Guardrails.Detector)
    (key : Guardrails.ScopeKey) (epoch : Int) :
    (∀ call ∈ calls,
      (call.decision = call.own ↔ call.SameBlocking ∧ call.SameChallenge) ∧
        (call.filing.blocked = decide (call.own = .deny) ↔ call.SameBlocking)) ∧
      (Fed d calls d' → (∀ call ∈ calls, call.filing.key = key → call.SameBlocking) →
        d'.sample epoch key = (ownFed d calls).sample epoch key) := by
  refine ⟨fun call _ => ⟨call.decision_eq_own_iff, call.blocked_eq_own_iff⟩, ?_⟩
  intro hfed hsame
  exact Guardrails.sample_congr (hfed.lookup_eq hsame rfl) epoch

/-! ## A candidate that blocks, while the active policy observes -/

namespace HealthSample

def tokenID : String := "6ba7b810-9dad-11d1-80b4-00c04fd430c8"

def env : Env where
  parse _ := none
  sha256 _ := []
  hmac _ _ := [1]
  mint _ _ _ := .ok []
  consumeNonce _ _ _ := .ok true
  verify _ := .ok ⟨true, 0x30, ""⟩
  fleet := none
  validUUID id := id == tokenID

def service : Service := ⟨900, ⟨∅, AList.singleton flagCanaryRollout true⟩⟩

def policy (id : String) (mode : EnforcementMode) (isActive : Bool) : Policy where
  id := id
  tenantId := "t"
  appId := "a"
  name := id
  version := 1
  enforcementMode := mode
  rules := ""
  riskThresholds := ""
  modulesEnabled := []
  isActive := isActive
  createdAt := 0
  updatedAt := 0

def store (mode : EnforcementMode) : MemStore where
  apps := AList.singleton "a" ⟨"a", "t", "com.example"⟩
  policies := (AList.singleton "s" (policy "s" .observe true)).insert "c" (policy "c" mode false)
  signing := ∅
  sessions := ∅

def fresh : Fresh := ⟨1000, tokenID, "", ([7], [8]), "k"⟩

def attestation : AttestationRequest where
  tenantId := "t"
  appId := "a"
  buildHash := "b"
  policyHash := ""
  riskBitset := 0
  nonce := [1, 2, 3]
  platformAttestationToken := [4]
  platform := .android
  instanceId := "i"

def claims (mode : EnforcementMode) : TrustClaims :=
  claimsOf env service (store mode) fresh attestation 0x30

def session (mode : EnforcementMode) : TrustSession := sessionOf env (claims mode) []

def attestedStore (mode : EnforcementMode) (sess : TrustSession) : MemStore where
  apps := (store mode).apps
  policies := (store mode).policies
  signing := AList.singleton "k" ⟨"k", "t", "ed25519", [7], [8], true, 1000⟩
  sessions := AList.singleton tokenID sess

theorem verifyAttestation_eq (mode : EnforcementMode) :
    verifyAttestation env service (store mode) fresh attestation =
      .ok (⟨some (tokenToProto (claims mode) (Risk.nextChecks (claims mode).riskLevel)), [], true, ""⟩,
        attestedStore mode (session mode)) := by
  have hkey : (store mode).signingKey "t" ([7], [8]) "k" 1000 =
      .ok (⟨"k", "t", "ed25519", [7], [8], true, 1000⟩,
        { attestedStore mode (session mode) with sessions := ∅ }) := rfl
  have hids : ¬ ((claims mode).tenantID = "" ∨ (claims mode).id = "") :=
    show ¬ ("t" = "" ∨ tokenID = "") by decide
  unfold verifyAttestation
  exact mintSession_of_signed rfl hkey rfl hids

def attested (mode : EnforcementMode) : Attested where
  env := env
  s := service
  store := store mode
  fresh := fresh
  m := attestation
  app := ⟨"a", "t", "com.example"⟩
  res := ⟨true, 0x30, ""⟩
  resp := ⟨some (tokenToProto (claims mode) (Risk.nextChecks (claims mode).riskLevel)), [], true, ""⟩
  store' := attestedStore mode (session mode)
  found := rfl
  verified := rfl
  answered := verifyAttestation_eq mode
  accepted := rfl

def call (mode : EnforcementMode) : FiledCall where
  attested := attested mode
  env := env
  s := service
  store := attestedStore mode (session mode)
  detector := ⟨∅⟩
  canary := AList.singleton (Canary.regKey "t" "a") ⟨"c", "s", 100⟩
  now := 1001
  epoch := 0
  ctx := some ⟨"t", "api"⟩
  m := ⟨tokenID, [9], [5], [1], 1⟩
  tenantID := "t"
  sess := session mode
  store' := attestedStore mode { session mode with lastSequence := 1 }
  filing := ⟨"t", "a", "c", false⟩
  policy := policy "c" mode false
  sameParser := rfl
  checked := rfl
  session := Attested.isSession_created rfl rfl
  consumed := rfl
  filed := rfl
  known := rfl

end HealthSample

theorem observing_health_measured :
    (HealthSample.call .observe).decision = (HealthSample.call .observe).own ∧
      (HealthSample.call .observe).detector'.sample 0 ⟨"t", "a", "c"⟩ =
        (ownFed ⟨∅⟩ [HealthSample.call .observe]).sample 0 ⟨"t", "a", "c"⟩ := by
  have hblock : (HealthSample.call .observe).SameBlocking :=
    iff_of_false (fun h => h.1 rfl) (fun h => h.1 rfl)
  have hchallenge : (HealthSample.call .observe).SameChallenge :=
    iff_of_false (fun h => h.1 rfl) (fun h => h.1 rfl)
  have hfed : Fed (HealthSample.call .observe).detector [HealthSample.call .observe]
      (HealthSample.call .observe).detector' := Fed.cons (Fed.nil _)
  obtain ⟨hdecision, hrate⟩ := filed_decision_iff [HealthSample.call .observe]
    (HealthSample.call .observe).detector (HealthSample.call .observe).detector' ⟨"t", "a", "c"⟩ 0
  refine ⟨(hdecision _ (mem_singleton_self _)).1.mpr ⟨hblock, hchallenge⟩, ?_⟩
  refine hrate hfed ?_
  intro call hcall _
  rw [mem_singleton.mp hcall]
  exact hblock

/-- **The candidate would block the session; what is filed for it is a request that was allowed.** -/
theorem candidate_health_unmeasured :
    (HealthSample.call .block).filing = ⟨"t", "a", "c", false⟩ ∧
      (HealthSample.call .block).decision = .allow ∧ (HealthSample.call .block).own = .deny := by
  decide +kernel

end Kseal.Contract
