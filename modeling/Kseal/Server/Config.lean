import Kseal.Infra.Framing
import Kseal.Server.Canary
import Kseal.Server.PolicyDoc

/-!
# The config service (`data-plane/config`)

What the server answers when a device asks for its configuration. The code that lives elsewhere
is a parameter (`Env`): the JSON reader, SHA-256, the protobuf encoder, Ed25519 signing and the
conversion of a duration to seconds.

* `etagOf_inj` — what an ETag tells apart
-/

namespace Kseal.Config

open Infra Wire Server List Registry

structure Env where
  parse : String → Option Json
  sha256 : Bytes → Bytes
  marshal : PolicyConfig → Except String Bytes
  sign : Bytes → Bytes → Bytes
  seconds : Int64 → Int64

structure Service where
  ttl : Int64
  canary : Option Canary.Registry
  killSwitch : Option Compliance.MemStore
  flags : FeatureFlags

def defaultTtl : Int64 := 300000000000

def Service.new (ttl : Int64) : Service where
  ttl := if ttl ≤ 0 then defaultTtl else ttl
  canary := none
  killSwitch := none
  flags := ⟨∅, ∅⟩

def Service.attachCompliance (s : Service) (reg : Option Canary.Registry)
    (killSwitch : Option Compliance.MemStore) (flags : FeatureFlags) : Service :=
  { s with canary := reg, killSwitch := killSwitch, flags := flags }

structure Fresh where
  pair : Bytes × Bytes
  keyID : String
  now : Int64

def signedConfigDomain : Bytes := ascii "kseal/v1/signed-config"

def signedConfigPreimage (version ttlSeconds : Int64) (keyID : String) (configBytes : Bytes) :
    Option Bytes := do
  let buf ← pushLP [] signedConfigDomain
  let buf := buf ++ i64Be version
  let buf := buf ++ i64Be ttlSeconds
  let buf ← pushLP buf (utf8 keyID)
  pushLP buf configBytes

def sign (env : Env) (store : MemStore) (fresh : Fresh) (tenantID : String)
    (configBytes : Bytes) : Except StoreError (Bytes × String × MemStore) := do
  let (sk, store) ← store.signingKey tenantID fresh.pair fresh.keyID fresh.now
  pure (env.sign sk.privateKey configBytes, sk.id, store)

def resolvePolicy (env : Env) (s : Service) (store : MemStore) (m : ConfigRequest) :
    Except StoreError (Policy × Bool) := do
  let active ← store.getActivePolicy m.tenantId m.appId
  match s.canary with
  | none => pure (active, false)
  | some reg =>
    if m.instanceId = "" ∨ s.flags.enabled m.tenantId flagCanaryRollout = false then
      pure (active, false)
    else
      let (policyID, candidate) := Canary.cohort env.sha256 reg m.tenantId m.appId m.instanceId
      if candidate = false ∨ policyID = "" then pure (active, false)
      else
        match store.getPolicy m.tenantId policyID with
        | .error _ => pure (active, false)
        | .ok cand => pure (cand, true)

def resolveKillSwitch (s : Service) (m : ConfigRequest) : Option SignedKillSwitch :=
  match s.killSwitch with
  | none => none
  | some source =>
    if s.flags.enabled m.tenantId flagKillSwitch = false then none
    else
      match source.listKillSwitches m.tenantId with
      | .error _ => none
      | .ok switches => (Compliance.getKillSwitchState switches m.appId m.buildHash).2

def killSwitchEtag : Option SignedKillSwitch → String
  | none => ""
  | some ks => ":ks" ++ toString ks.command.toInt32.toInt ++ "." ++ toString ks.version.toInt

structure ConfigResponse where
  config : Option SignedConfig
  etag : String
  lastModified : Int64
  killSwitch : Option SignedKillSwitch
  cacheControl : Option String

def etagOf (pc : PolicyConfig) (killSwitch : Option SignedKillSwitch) : String :=
  "\"" ++ pc.policyHash ++ killSwitchEtag killSwitch ++ "\""

def getConfig (env : Env) (s : Service) (store : MemStore) (fresh : Fresh)
    (ctx : Option Principal) (ifNoneMatch : String) (m : ConfigRequest) :
    Except ConnectError (ConfigResponse × MemStore) :=
  if m.tenantId = "" then .error ⟨.invalidArgument, "tenant_id required"⟩
  else if enforceTenant ctx m.tenantId = false then
    .error ⟨.unauthenticated, "device credential required"⟩
  else do
    let _ ← (store.getApp m.tenantId m.appId).mapError fun
      | .notFound => ⟨.notFound, "unknown tenant or app"⟩
      | e => ⟨.internal, e.message⟩
    let (policy, candidate) ← (resolvePolicy env s store m).mapError fun
      | .notFound => ⟨.notFound, "no active policy"⟩
      | e => ⟨.internal, e.message⟩
    let killSwitch := resolveKillSwitch s m
    let pc := buildPolicyConfig env.parse env.sha256 policy
    let etag := etagOf pc killSwitch
    if ifNoneMatch ≠ "" ∧ ifNoneMatch = etag then
      pure (⟨none, etag, policy.updatedAt, none, none⟩, store)
    else
      let bytes ← (env.marshal pc).mapError fun e => ⟨.internal, e⟩
      let (sig, keyID, store) ← (sign env store fresh m.tenantId bytes).mapError fun e =>
        ⟨.internal, e.message⟩
      let config : SignedConfig :=
        { configBytes := bytes
          signature := sig
          keyId := keyID
          version := policy.version.toInt64
          ttlSeconds := env.seconds s.ttl }
      let maxAge := "max-age=" ++ toString (env.seconds s.ttl).toInt
      let cacheControl :=
        (if candidate = true ∨ killSwitch.isSome = true then "private, " else "public, ") ++ maxAge
      pure (⟨some config, etag, policy.updatedAt, killSwitch, some cacheControl⟩, store)

/-! ## The policy that is served -/

def candidateOf (env : Env) (s : Service) (store : MemStore) (m : ConfigRequest) :
    Option Policy :=
  s.canary.bind fun reg =>
    if m.instanceId = "" ∨ s.flags.enabled m.tenantId flagCanaryRollout = false then none
    else
      (reg.lookup (Canary.regKey m.tenantId m.appId)).bind fun a =>
        if Canary.inCanary env.sha256 m.tenantId m.appId m.instanceId a.percent = true ∧
            a.candidatePolicyID ≠ "" then
          (store.getPolicy m.tenantId a.candidatePolicyID).toOption
        else none

/-- **The candidate is served, or else the active policy.** -/
theorem resolvePolicy_eq (env : Env) (s : Service) (store : MemStore) (m : ConfigRequest) :
    (resolvePolicy env s store m).toOption.map Prod.fst =
      (store.active m.tenantId m.appId).map fun p => (candidateOf env s store m).getD p := by
  unfold resolvePolicy
  cases hactive : store.getActivePolicy m.tenantId m.appId with
  | error e =>
    rw [active_eq_none hactive]
    rfl
  | ok p =>
    rw [getActivePolicy_eq_ok_iff.mp hactive, ok_bind]
    unfold candidateOf
    cases s.canary with
    | none => rfl
    | some reg =>
      dsimp only [Option.bind_some]
      by_cases hoff : m.instanceId = "" ∨ s.flags.enabled m.tenantId flagCanaryRollout = false
      · rw [if_pos hoff, if_pos hoff]
        rfl
      · rw [if_neg hoff, if_neg hoff]
        cases hlook : reg.lookup (Canary.regKey m.tenantId m.appId) with
        | none =>
          have hcohort : Canary.cohort env.sha256 reg m.tenantId m.appId m.instanceId =
              ("", false) := by rw [Canary.cohort, hlook]
          simp only [hcohort]
          rfl
        | some a =>
          rw [Option.bind_some]
          by_cases hin : Canary.inCanary env.sha256 m.tenantId m.appId m.instanceId a.percent = true
          · have hcohort : Canary.cohort env.sha256 reg m.tenantId m.appId m.instanceId =
                (a.candidatePolicyID, true) := by
              rw [Canary.cohort, hlook]
              exact if_pos hin
            simp only [hcohort, Bool.true_eq_false, false_or, hin, true_and]
            by_cases hid : a.candidatePolicyID = ""
            · rw [if_pos hid, if_neg (not_not.mpr hid)]
              rfl
            · rw [if_neg hid, if_pos hid]
              cases store.getPolicy m.tenantId a.candidatePolicyID with
              | error e => rfl
              | ok cand => rfl
          · have hcohort : Canary.cohort env.sha256 reg m.tenantId m.appId m.instanceId =
                (a.stablePolicyID, false) := by
              rw [Canary.cohort, hlook]
              exact if_neg hin
            simp only [hcohort, hin]
            rfl

/-! ## Responses -/

variable {env : Env} {s : Service} {store store' : MemStore} {fresh : Fresh}
  {ctx : Option Principal} {ifNoneMatch : String} {m : ConfigRequest} {resp : ConfigResponse}

structure Serves (env : Env) (s : Service) (store store' : MemStore) (fresh : Fresh)
    (m : ConfigRequest) (c : SignedConfig) (policy : Policy) (sk : SigningKey) : Prop where
  resolved : ∃ candidate, resolvePolicy env s store m = .ok (policy, candidate)
  marshalled : env.marshal (buildPolicyConfig env.parse env.sha256 policy) = .ok c.configBytes
  key : store.signingKey m.tenantId fresh.pair fresh.keyID fresh.now = .ok (sk, store')
  signature : c.signature = env.sign sk.privateKey c.configBytes
  keyId : c.keyId = sk.id
  version : c.version = policy.version.toInt64
  ttlSeconds : c.ttlSeconds = env.seconds s.ttl

/-- **A configuration that is served is the signed policy that was resolved.** -/
theorem getConfig_eq_ok {c : SignedConfig}
    (h : getConfig env s store fresh ctx ifNoneMatch m = .ok (resp, store'))
    (hc : resp.config = some c) : ∃ policy sk, Serves env s store store' fresh m c policy sk := by
  obtain ⟨-, h⟩ := guard_ok h
  obtain ⟨-, h⟩ := guard_ok h
  obtain ⟨_, -, h⟩ := bind_eq_ok h
  obtain ⟨⟨policy, candidate⟩, hpolicy, h⟩ := bind_eq_ok h
  dsimp only at h
  split at h
  · -- The short response has no configuration.
    cases h
    cases hc
  · obtain ⟨bytes, hbytes, h⟩ := bind_eq_ok h
    obtain ⟨⟨sig, keyID, store₁⟩, hsign, h⟩ := bind_eq_ok h
    obtain ⟨⟨sk, store₂⟩, hkey, hsign⟩ := bind_eq_ok (eq_ok_of_mapError hsign)
    cases hsign
    cases h
    cases hc
    exact ⟨policy, sk,
      { resolved := ⟨candidate, eq_ok_of_mapError hpolicy⟩
        marshalled := eq_ok_of_mapError hbytes
        key := hkey
        signature := rfl
        keyId := rfl
        version := rfl
        ttlSeconds := rfl }⟩

theorem tenant_ne_of_getConfig
    (h : getConfig env s store fresh ctx ifNoneMatch m = .ok (resp, store')) :
    m.tenantId ≠ "" := by
  intro hempty
  unfold getConfig at h
  rw [if_pos hempty] at h
  cases h

/--
**Every response has the ETag of the policy that was resolved and of the kill switch in effect.** A
request with that ETag gets nothing else, any other one the configuration and the kill switch.
-/
theorem getConfig_answer
    (h : getConfig env s store fresh ctx ifNoneMatch m = .ok (resp, store')) :
    ∃ policy candidate, resolvePolicy env s store m = .ok (policy, candidate) ∧
      resp.etag = etagOf (buildPolicyConfig env.parse env.sha256 policy) (resolveKillSwitch s m) ∧
      (((ifNoneMatch ≠ "" ∧ ifNoneMatch = resp.etag) ∧ resp.config = none ∧
          resp.killSwitch = none) ∨
        (¬ (ifNoneMatch ≠ "" ∧ ifNoneMatch = resp.etag) ∧ resp.config.isSome = true ∧
          resp.killSwitch = resolveKillSwitch s m)) := by
  obtain ⟨-, h⟩ := guard_ok h
  obtain ⟨-, h⟩ := guard_ok h
  obtain ⟨_, -, h⟩ := bind_eq_ok h
  obtain ⟨⟨policy, candidate⟩, hpolicy, h⟩ := bind_eq_ok h
  refine ⟨policy, candidate, eq_ok_of_mapError hpolicy, ?_⟩
  dsimp only at h
  split at h
  · next hsame =>
    cases h
    exact ⟨rfl, .inl ⟨hsame, rfl, rfl⟩⟩
  · next hsame =>
    obtain ⟨bytes, -, h⟩ := bind_eq_ok h
    obtain ⟨⟨sig, keyID, store₁⟩, -, h⟩ := bind_eq_ok h
    cases h
    exact ⟨rfl, .inr ⟨hsame, rfl, rfl⟩⟩

/-- **A response carries the kill switch in effect, unless it says that nothing was modified.** -/
theorem getConfig_killSwitch
    (h : getConfig env s store fresh ctx ifNoneMatch m = .ok (resp, store')) :
    (∃ policy, resp.etag =
        etagOf (buildPolicyConfig env.parse env.sha256 policy) (resolveKillSwitch s m)) ∧
      resp.killSwitch =
        if ifNoneMatch ≠ "" ∧ ifNoneMatch = resp.etag then none else resolveKillSwitch s m := by
  obtain ⟨policy, -, -, hetag, hcase⟩ := getConfig_answer h
  refine ⟨⟨policy, hetag⟩, ?_⟩
  rcases hcase with ⟨hsame, -, hswitch⟩ | ⟨hsame, -, hswitch⟩
  · rw [hswitch, if_pos hsame]
  · rw [hswitch, if_neg hsame]

theorem getConfig_frame (h : getConfig env s store fresh ctx ifNoneMatch m = .ok (resp, store')) :
    ∃ signing, store' = { store with signing := signing } := by
  obtain ⟨htenant, h⟩ := guard_ok h
  obtain ⟨-, h⟩ := guard_ok h
  obtain ⟨_, -, h⟩ := bind_eq_ok h
  obtain ⟨⟨policy, candidate⟩, -, h⟩ := bind_eq_ok h
  dsimp only at h
  split at h
  · cases h
    exact ⟨store.signing, rfl⟩
  · obtain ⟨bytes, -, h⟩ := bind_eq_ok h
    obtain ⟨⟨sig, keyID, store₁⟩, hsign, h⟩ := bind_eq_ok h
    obtain ⟨⟨sk, store₂⟩, hkey, hsign⟩ := bind_eq_ok (eq_ok_of_mapError hsign)
    obtain ⟨sk', signing, hkey'⟩ :=
      signingKey_eq_ok htenant store fresh.pair fresh.keyID fresh.now
    rw [hkey'] at hkey
    cases hkey
    cases hsign
    cases h
    exact ⟨signing, rfl⟩

/-- **A device that is admitted is served the policy that was resolved.** -/
theorem getConfig_serves (fresh : Fresh) {app : App} {policy : Policy} {candidate : Bool}
    {bytes : Bytes}
    (htenant : m.tenantId ≠ "") (hadmitted : enforceTenant ctx m.tenantId = true)
    (happ : store.getApp m.tenantId m.appId = .ok app)
    (hpolicy : resolvePolicy env s store m = .ok (policy, candidate))
    (hbytes : env.marshal (buildPolicyConfig env.parse env.sha256 policy) = .ok bytes) :
    ∃ resp store' c, getConfig env s store fresh ctx "" m = .ok (resp, store') ∧
      resp.config = some c ∧ c.version = policy.version.toInt64 := by
  obtain ⟨sk, signing, hkey⟩ :=
    signingKey_eq_ok htenant store fresh.pair fresh.keyID fresh.now
  have hadmitted' : ¬ enforceTenant ctx m.tenantId = false := by rw [hadmitted]; exact Bool.noConfusion
  unfold getConfig
  rw [if_neg htenant, if_neg hadmitted', happ, hpolicy]
  simp only [Except.mapError, bind, Except.bind, hbytes, sign, hkey]
  exact ⟨_, _, _, rfl, rfl, rfl⟩

theorem getConfig_notModified (fresh : Fresh) {app : App} {policy : Policy}
    {candidate : Bool}
    (htenant : m.tenantId ≠ "") (hadmitted : enforceTenant ctx m.tenantId = true)
    (happ : store.getApp m.tenantId m.appId = .ok app)
    (hpolicy : resolvePolicy env s store m = .ok (policy, candidate)) {etag : String}
    (hetag : etag =
      etagOf (buildPolicyConfig env.parse env.sha256 policy) (resolveKillSwitch s m)) :
    ∃ resp, getConfig env s store fresh ctx etag m = .ok (resp, store) ∧ resp.config = none := by
  have hadmitted' : ¬ enforceTenant ctx m.tenantId = false := by rw [hadmitted]; exact Bool.noConfusion
  have hne : etag ≠ "" := by
    intro hempty
    have hlist := congrArg String.toList (hetag.symm.trans hempty)
    simp [etagOf] at hlist
  unfold getConfig
  rw [if_neg htenant, if_neg hadmitted', happ, hpolicy]
  simp only [Except.mapError, bind, Except.bind]
  rw [if_pos ⟨hne, hetag⟩]
  exact ⟨_, rfl, rfl⟩

/-! ## ETags -/

theorem colon_notMem_policyHash (parse : String → Option Json) (sha256 : Bytes → Bytes)
    (p : Policy) : ':' ∉ (buildPolicyConfig parse sha256 p).policyHash.toList := by
  intro hmem
  obtain ⟨n, hn⟩ := exists_of_mem_hexEncode hmem
  exact absurd hn.symm ((by decide : ∀ n : Fin 16, hexDigit n ≠ ':') n)

def etagTail : Option SignedKillSwitch → List Char
  | none => ['"']
  | some ks => ':' :: 'k' :: 's' :: ((toString ks.command.toInt32.toInt).toList ++
      '.' :: ((toString ks.version.toInt).toList ++ ['"']))

theorem toList_etagOf (pc : PolicyConfig) (ks : Option SignedKillSwitch) :
    (etagOf pc ks).toList = '"' :: (pc.policyHash.toList ++ etagTail ks) := by
  cases ks with
  | none => simp [etagOf, killSwitchEtag, etagTail]
  | some ks => simp [etagOf, killSwitchEtag, etagTail]

theorem hash_append_ne {hash hash' rest : List Char} (h : ':' ∉ hash) :
    hash ++ ['"'] ≠ hash' ++ ':' :: rest := by
  intro heq
  have hmem : ':' ∈ hash ++ ['"'] := by
    rw [heq]
    exact mem_append_right _ mem_cons_self
  rcases mem_append.mp hmem with hmem | hmem
  · exact h hmem
  · exact absurd (mem_singleton.mp hmem) (by decide)

/-- **Equal ETags are of policies with the same hash and of kill switches with the same command.** -/
theorem etagOf_inj {pc pc' : PolicyConfig} {ks ks' : Option SignedKillSwitch}
    (hpc : ':' ∉ pc.policyHash.toList) (hpc' : ':' ∉ pc'.policyHash.toList)
    (h : etagOf pc ks = etagOf pc' ks') :
    pc.policyHash = pc'.policyHash ∧
      (ks.map fun ks => ks.command.toInt32) = ks'.map fun ks => ks.command.toInt32 := by
  replace h := congrArg String.toList h
  rw [toList_etagOf, toList_etagOf] at h
  replace h := (List.cons.inj h).2
  cases ks with
  | none =>
    cases ks' with
    | none => exact ⟨String.toList_injective (append_cancel_right h), rfl⟩
    | some ks' => exact absurd h (hash_append_ne hpc)
  | some ks =>
    cases ks' with
    | none => exact absurd h.symm (hash_append_ne hpc')
    | some ks' =>
      obtain ⟨hhash, h⟩ := append_sep_inj hpc hpc' h
      replace h := (List.cons.inj (List.cons.inj h).2).2
      have hdot := notMem_repr (c := '.') (by decide) (by decide)
      obtain ⟨hcommand, -⟩ := append_sep_inj (hdot _) (hdot _) h
      have hint := repr_injective (String.toList_injective hcommand)
      rw [Option.map_some, Int32.toInt_inj.mp hint]
      exact ⟨String.toList_injective hhash, rfl⟩

/-- **Equal ETags are of kill switches with the same command.** -/
theorem command_eq_of_etagOf {pc pc' : PolicyConfig} {ks ks' : Option SignedKillSwitch}
    (hpc : ':' ∉ pc.policyHash.toList) (hpc' : ':' ∉ pc'.policyHash.toList)
    (h : etagOf pc ks = etagOf pc' ks') :
    (ks.map fun ks => ks.command.toInt32) = ks'.map fun ks => ks.command.toInt32 :=
  (etagOf_inj hpc hpc' h).2

end Kseal.Config
