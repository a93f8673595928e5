import Kseal.Infra.Framing
import Kseal.Server.PolicyDoc
import Kseal.Server.Request
import Kseal.Server.Risk

/-!
# The trust service (`data-plane/trust`)

Parameters (`Env`) are the JSON reader, the hash functions, the minting of tokens, the nonce store,
the attestation verifier and the fleet engine (`verifyAttestation_accepted`).
-/

namespace Kseal.Trust

open Infra Wire Server Registry Risk

/-! ## Proof keys and messages (`token.go`, `shared/crypto`) -/

def proofKeyLabel : Bytes := ascii "kseal/v1/proof-key"

def deriveProofKey (hmac : Bytes → Bytes → Bytes) (signedToken : Bytes) : Bytes :=
  hmac signedToken proofKeyLabel

def requestProofDomain : Bytes := ascii "kseal/v1/request-proof"

def proofMessage (tokenID : String) (requestHash nonce : Bytes) (sequence : Int64) : Bytes :=
  lp requestProofDomain ++ lp (utf8 tokenID) ++ lp requestHash ++ lp nonce ++ i64Be sequence

def requestProofPreimage (tokenID : String) (requestHash nonce : Bytes) (seq : Int64) :
    Option Bytes := do
  let buf ← pushLP [] requestProofDomain
  let buf ← pushLP buf (utf8 tokenID)
  let buf ← pushLP buf requestHash
  let buf ← pushLP buf nonce
  pure (buf ++ i64Be seq)

theorem requestProofPreimage_eq {tokenID : String} {requestHash nonce : Bytes}
    (htoken : (utf8 tokenID).length < 2 ^ 32) (hhash : requestHash.length < 2 ^ 32)
    (hnonce : nonce.length < 2 ^ 32) (seq : Int64) :
    requestProofPreimage tokenID requestHash nonce seq =
      some (proofMessage tokenID requestHash nonce seq) := by
  have hdomain : requestProofDomain.length < 2 ^ 32 := by decide
  simp only [requestProofPreimage, pushLP_of_lt htoken, pushLP_of_lt hhash,
    pushLP_of_lt hnonce]
  rfl

/-! ## Attestation -/

structure TrustClaims where
  id : String
  issuedAt : Int64
  expiresAt : Int64
  subject : String
  tenantID : String
  appID : String
  buildHash : String
  riskLevel : TrustLevel
  capabilityScope : List String
  policyHash : String

structure AttestationInput where
  platform : Platform
  token : Bytes
  nonce : Bytes
  appID : String

structure AttestationResult where
  accepted : Bool
  riskBits : UInt64
  reason : String

inductive VerifierError where
  | unsupportedPlatform
  | other (message : String)

structure Env where
  parse : String → Option Json
  sha256 : Bytes → Bytes
  hmac : Bytes → Bytes → Bytes
  mint : String → Bytes → TrustClaims → Except String Bytes
  /-- The answer of the nonce store to `Consume`. -/
  consumeNonce : String → Bytes → String → Except String Bool
  verify : AttestationInput → Except VerifierError AttestationResult
  /-- Whether the fleet engine, if there is one, finds the cohort anomalous. -/
  fleet : Option (String → String → String → UInt64 → Bool)
  validUUID : String → Bool

structure Service where
  /-- `tokenTTL`, in seconds. -/
  tokenTTL : Int64
  flags : FeatureFlags

structure Fresh where
  now : Int64
  tokenID : String
  failedID : String
  pair : Bytes × Bytes
  keyID : String

def applyFleetGuard (env : Env) (s : Service) (tenantID appID buildHash : String) (fused : UInt64) :
    UInt64 :=
  match env.fleet with
  | none => fused
  | some anomalous =>
    if s.flags.enabled tenantID flagFleetAnomaly = false then fused
    else if anomalous tenantID appID buildHash fused then fused ||| bitFleetAnomaly
    else fused

def capabilityScope : TrustLevel → List String
  | .trusted => ["*"]
  | .lowRisk => ["read", "write"]
  | .mediumRisk => ["read"]
  | .highRisk => ["read"]
  | _ => []

def tokenToProto (claims : TrustClaims) (requiredChecks : List EventType) : TrustToken where
  tokenId := claims.id
  tenantId := claims.tenantID
  appId := claims.appID
  buildHash := claims.buildHash
  capabilityScope := claims.capabilityScope
  ttlSeconds := claims.expiresAt - claims.issuedAt
  riskLevel := claims.riskLevel
  issuedAt := claims.issuedAt
  expiresAt := claims.expiresAt
  policyHash := claims.policyHash
  requiredNextChecks := requiredChecks

def reject (reason : String) : AttestationResponse := ⟨none, [], false, reason⟩

def sessionLevel (env : Env) (s : Service) (policy : Option Policy) (m : AttestationRequest)
    (riskBits : UInt64) : TrustLevel :=
  let thresholds := parseThresholds env.parse policy
  let fused := fuse (fromWire m.riskBitset) riskBits
  let fused := applyFleetGuard env s m.tenantId m.appId m.buildHash fused
  level (score fused (parseWeights env.parse policy)) thresholds

def claimsOf (env : Env) (s : Service) (store : MemStore) (fresh : Fresh)
    (m : AttestationRequest) (riskBits : UInt64) : TrustClaims :=
  let policy := (store.getActivePolicy m.tenantId m.appId).toOption
  let level := sessionLevel env s policy m riskBits
  { id := fresh.tokenID
    issuedAt := fresh.now
    expiresAt := fresh.now + s.tokenTTL
    subject := m.instanceId
    tenantID := m.tenantId
    appID := m.appId
    buildHash := m.buildHash
    riskLevel := level
    capabilityScope := capabilityScope level
    policyHash :=
      match policy with
      | some p => hashPolicy env.sha256 p.appId p.enforcementMode p.rules p.riskThresholds
          p.modulesEnabled
      | none => m.policyHash }

def sessionOf (env : Env) (claims : TrustClaims) (signed : Bytes) : TrustSession where
  tokenID := claims.id
  tenantID := claims.tenantID
  appID := claims.appID
  buildHash := claims.buildHash
  instanceID := claims.subject
  policyHash := claims.policyHash
  riskLevel := claims.riskLevel
  capabilityScope := claims.capabilityScope
  sessionSecret := deriveProofKey env.hmac signed
  lastSequence := 0
  status := .active
  issuedAt := claims.issuedAt
  expiresAt := claims.expiresAt

def mintSession (env : Env) (s : Service) (store : MemStore) (fresh : Fresh)
    (m : AttestationRequest) (riskBits : UInt64) :
    Except ConnectError (AttestationResponse × MemStore) := do
  let claims := claimsOf env s store fresh m riskBits
  let (sk, store) ← (store.signingKey m.tenantId fresh.pair fresh.keyID fresh.now).mapError fun e =>
    ⟨.internal, e.message⟩
  let signed ← (env.mint sk.id sk.privateKey claims).mapError fun e => ⟨.internal, e⟩
  let store ← (store.createTrustSession (sessionOf env claims signed)).mapError fun e =>
    ⟨.internal, e.message⟩
  pure (⟨some (tokenToProto claims (nextChecks claims.riskLevel)), signed, true, ""⟩, store)

def failedSession (m : AttestationRequest) (now : Int64) : TrustSession where
  tokenID := ""
  tenantID := m.tenantId
  appID := m.appId
  buildHash := m.buildHash
  instanceID := m.instanceId
  policyHash := ""
  riskLevel := .unspecified
  capabilityScope := []
  sessionSecret := []
  lastSequence := 0
  status := .active
  issuedAt := now
  expiresAt := 0

def verifyAttestation (env : Env) (s : Service) (store : MemStore) (fresh : Fresh)
    (m : AttestationRequest) : Except ConnectError (AttestationResponse × MemStore) :=
  if m.tenantId = "" ∨ m.appId = "" then
    .error ⟨.invalidArgument, "tenant_id and app_id required"⟩
  else
    match env.consumeNonce m.tenantId m.nonce m.appId with
    | .error e => .error ⟨.unavailable, e⟩
    | .ok false => .ok (reject "invalid or expired nonce", store)
    | .ok true =>
      match store.getApp m.tenantId m.appId with
      | .error .notFound => .ok (reject "unknown tenant or app", store)
      | .error e => .error ⟨.internal, e.message⟩
      | .ok app =>
        if app.packageId = "" then .ok (reject "app identity is not configured", store)
        else
          match env.verify ⟨m.platform, m.platformAttestationToken, m.nonce, app.packageId⟩ with
          | .error .unsupportedPlatform => .ok (reject "unsupported platform", store)
          | .error (.other e) => .error ⟨.internal, e⟩
          | .ok res =>
            if res.accepted = false then
              -- The failure is recorded; an error of the store is ignored.
              let recorded :=
                ((store.recordFailedAttestation (failedSession m fresh.now)
                  fresh.failedID).toOption).getD store
              .ok (reject (if res.reason = "" then "attestation rejected" else res.reason), recorded)
            else mintSession env s store fresh m res.riskBits

/-! ## Request proofs -/

def deny (reason : String) : RequestProofResult := ⟨.deny, reason⟩

def decisionReason : Decision → String
  | .allow => "ok"
  | .stepUp => "step-up required"
  | .deny => "denied"
  | .unspecified => ""

def expectedTag (env : Env) (sess : TrustSession) (tokenID : String)
    (requestHash nonce : Bytes) (sequence : Int64) : Bytes :=
  env.hmac sess.sessionSecret (proofMessage tokenID requestHash nonce sequence)

def validateRequestProof (env : Env) (store : MemStore) (now : Int64)
    (ctx : Option Principal) (m : RequestProof) :
    Except ConnectError (RequestProofResult × MemStore) :=
  if m.trustTokenId = "" then .ok (deny "missing trust token id", store)
  else if m.requestHash.length = 0 ∨ m.nonce.length = 0 then
    .ok (deny "invalid proof: missing request hash or nonce", store)
  else if m.appInstanceSignature.length = 0 then
    .ok (deny "invalid proof: missing signature", store)
  else if env.validUUID m.trustTokenId = false then .ok (deny "unknown trust token", store)
  else
    match tenantFrom ctx with
    | none => .ok (deny "tenant credential required", store)
    | some tenantID =>
      match store.getTrustSession tenantID m.trustTokenId with
      | .error .notFound => .ok (deny "unknown trust token", store)
      | .error e => .error ⟨.internal, e.message⟩
      | .ok sess =>
        if sess.status ≠ .active then .ok (deny "revoked trust token", store)
        else if now ≥ sess.expiresAt then .ok (deny "expired trust token", store)
        else if expectedTag env sess m.trustTokenId m.requestHash m.nonce m.monotonicSequence ≠
            m.appInstanceSignature then .ok (deny "invalid proof signature", store)
        else
          match store.consumeSequence tenantID m.trustTokenId m.monotonicSequence with
          | .error .replay => .ok (deny "sequence replay", store)
          | .error .notFound => .ok (deny "unknown trust token", store)
          | .error e => .error ⟨.internal, e.message⟩
          | .ok store =>
            let mode :=
              match store.getActivePolicy sess.tenantID sess.appID with
              | .ok policy => policy.enforcementMode
              | .error _ => .stepUp
            let d := decision sess.riskLevel mode
            .ok (⟨d, decisionReason d⟩, store)

/-! ## What an accepted attestation leaves -/

def Env.withHmac (env : Env) (hmac : Bytes → Bytes → Bytes) : Env := { env with hmac := hmac }

variable {env : Env} {s : Service} {store store' : MemStore} {fresh : Fresh}
  {m : AttestationRequest} {resp : AttestationResponse}

variable {claims : TrustClaims} {signed : Bytes}

theorem createTrustSession_withHmac (hmac : Bytes → Bytes → Bytes)
    (h : store.createTrustSession (sessionOf env claims signed) = .ok store') :
    ∃ store₁, store.createTrustSession (sessionOf (env.withHmac hmac) claims signed) =
      .ok store₁ := by
  unfold MemStore.createTrustSession at h ⊢
  obtain ⟨hne, h⟩ := guard_ok h
  exact ⟨_, if_neg hne⟩

variable {riskBits : UInt64}

theorem mintSession_parts (h : mintSession env s store fresh m riskBits = .ok (resp, store')) :
    ∃ sk storeₖ signed,
      store.signingKey m.tenantId fresh.pair fresh.keyID fresh.now = .ok (sk, storeₖ) ∧
      env.mint sk.id sk.privateKey (claimsOf env s store fresh m riskBits) = .ok signed ∧
      storeₖ.createTrustSession (sessionOf env (claimsOf env s store fresh m riskBits) signed) =
        .ok store' ∧
      resp = ⟨some (tokenToProto (claimsOf env s store fresh m riskBits)
        (nextChecks (claimsOf env s store fresh m riskBits).riskLevel)), signed, true, ""⟩ := by
  obtain ⟨⟨sk, storeₖ⟩, hkey, h⟩ := bind_eq_ok h
  obtain ⟨signed, hsigned, h⟩ := bind_eq_ok h
  obtain ⟨storeₛ, hsession, h⟩ := bind_eq_ok h
  cases h
  exact ⟨sk, storeₖ, signed, eq_ok_of_mapError hkey, eq_ok_of_mapError hsigned,
    eq_ok_of_mapError hsession, rfl⟩

theorem mintSession_eq_ok (h : mintSession env s store fresh m riskBits = .ok (resp, store'))
    (hmac : Bytes → Bytes → Bytes) :
    ∃ store₁ token sess,
      mintSession (env.withHmac hmac) s store fresh m riskBits = .ok (resp, store₁) ∧
      resp.trustToken = some token ∧ store₁.getTrustSession m.tenantId token.tokenId = .ok sess ∧
      sess.sessionSecret = deriveProofKey hmac resp.signedToken := by
  obtain ⟨sk, storeₖ, signed, hkey, hsigned, hsession, rfl⟩ := mintSession_parts h
  obtain ⟨store₁, hstore₁⟩ := createTrustSession_withHmac hmac hsession
  refine ⟨store₁, _, _, ?_, rfl, getTrustSession_of_create hstore₁, rfl⟩
  have hclaims : claimsOf (env.withHmac hmac) s store fresh m riskBits =
    claimsOf env s store fresh m riskBits := rfl
  have hmint : (env.withHmac hmac).mint = env.mint := rfl
  simp only [mintSession, hclaims, hmint, hkey, hsigned, hstore₁, Except.mapError, ok_bind]
  rfl

theorem verifyAttestation_eq_ok
    (h : verifyAttestation env s store fresh m = .ok (resp, store')) (hacc : resp.accepted = true) :
    ¬ (m.tenantId = "" ∨ m.appId = "") ∧ env.consumeNonce m.tenantId m.nonce m.appId = .ok true ∧
      ∃ app res, store.getApp m.tenantId m.appId = .ok app ∧ app.packageId ≠ "" ∧
        env.verify ⟨m.platform, m.platformAttestationToken, m.nonce, app.packageId⟩ = .ok res ∧
        res.accepted = true ∧ mintSession env s store fresh m res.riskBits = .ok (resp, store') := by
  revert h
  fun_cases verifyAttestation env s store fresh m <;> intro h
  case case10 hids hnonce app happ hpkg res hres hverified =>
    exact ⟨hids, hnonce, app, res, happ, hpkg, hres, (Bool.not_eq_false _).mp hverified, h⟩
  -- the other answers are errors or rejections
  all_goals cases congrArg (·.toOption.map Prod.fst) h <;> cases hacc

theorem verifyAttestation_eq_mintSession
    (h : verifyAttestation env s store fresh m = .ok (resp, store')) (hacc : resp.accepted = true) :
    ∃ riskBits, ∀ hmac, verifyAttestation (env.withHmac hmac) s store fresh m =
      mintSession (env.withHmac hmac) s store fresh m riskBits := by
  obtain ⟨hids, hnonce, app, res, happ, hpkg, hres, hverified, -⟩ := verifyAttestation_eq_ok h hacc
  refine ⟨res.riskBits, fun hmac => ?_⟩
  simp only [verifyAttestation, Env.withHmac, if_neg hids, hnonce, happ, if_neg hpkg, hres,
    hverified,
    Bool.true_eq_false, if_false]

/--
**An accepted attestation leaves a session whose secret is derived from the token.**

The response does not depend on `hmac`; the secret of the session does.
-/
theorem verifyAttestation_accepted
    (h : verifyAttestation env s store fresh m = .ok (resp, store')) (hacc : resp.accepted = true)
    (hmac : Bytes → Bytes → Bytes) :
    ∃ store₁ token sess,
      verifyAttestation (env.withHmac hmac) s store fresh m = .ok (resp, store₁) ∧
      resp.trustToken = some token ∧ store₁.getTrustSession m.tenantId token.tokenId = .ok sess ∧
      sess.sessionSecret = deriveProofKey hmac resp.signedToken := by
  obtain ⟨riskBits, hmint⟩ := verifyAttestation_eq_mintSession h hacc
  have hself : mintSession env s store fresh m riskBits = .ok (resp, store') := by
    rw [← h]
    exact (hmint env.hmac).symm
  rw [hmint]
  exact mintSession_eq_ok hself hmac

theorem mintSession_of_signed {sk : SigningKey} {storeₖ : MemStore}
    (hclaims : claimsOf env s store fresh m riskBits = claims)
    (hkey : store.signingKey m.tenantId fresh.pair fresh.keyID fresh.now = .ok (sk, storeₖ))
    (hsigned : env.mint sk.id sk.privateKey claims = .ok signed)
    (hids : ¬ (claims.tenantID = "" ∨ claims.id = "")) :
    mintSession env s store fresh m riskBits =
      .ok (⟨some (tokenToProto claims (nextChecks claims.riskLevel)), signed, true, ""⟩,
        { storeₖ with
          sessions := storeₖ.sessions.insert claims.id (sessionOf env claims signed) }) := by
  have hcreate : storeₖ.createTrustSession (sessionOf env claims signed) =
      .ok { storeₖ with
        sessions := storeₖ.sessions.insert claims.id (sessionOf env claims signed) } := by
    exact if_neg hids
  simp only [mintSession, hclaims, hkey, Except.mapError, ok_bind, hsigned, hcreate]
  rfl

theorem getTrustSession_of_mintSession
    (h : mintSession env s store fresh m riskBits = .ok (resp, store')) :
    ∃ token signed, resp.trustToken = some token ∧
      store'.getTrustSession m.tenantId token.tokenId =
        .ok (sessionOf env (claimsOf env s store fresh m riskBits) signed) := by
  obtain ⟨sk, storeₖ, signed, -, -, hsession, rfl⟩ := mintSession_parts h
  exact ⟨_, signed, rfl, getTrustSession_of_create hsession⟩

end Kseal.Trust
