import Kseal.Server.Config

/-!
# ETags of configurations (`data-plane/config/service.go`, `registry.HashPolicy`)

The ETag hashes the fields of the policy with separators, its modules joined by commas. The weights
come out of a loop over a map, so a policy can be assembled in several ways (`etag_sound_iff`).
-/

namespace Kseal.Config

open Infra Wire Server List Registry String

variable {env : Env}

/-! ## What is hashed -/

def joinModules (modules : List String) : String :=
  ",".intercalate (modules.mergeSort fun a b => decide (a ≤ b))

def policyText (p : Policy) : String :=
  p.appId ++ "\x00" ++ modeString p.enforcementMode ++ "\x00" ++ p.rules ++ "\x00" ++
    p.riskThresholds ++ "\x00" ++ joinModules p.modulesEnabled

theorem policyHash_buildPolicyConfig (parse : String → Option Json) (sha256 : Bytes → Bytes)
    (p : Policy) :
    (buildPolicyConfig parse sha256 p).policyHash = hexEncode (sha256 (utf8 (policyText p))) := by
  have hsep : utf8 "\x00" = [0] := by decide
  rfl

structure JsonText (p : Policy) : Prop where
  rules : '\x00' ∉ p.rules.toList
  riskThresholds : '\x00' ∉ p.riskThresholds.toList

structure PlainNames (p : Policy) : Prop where
  appId : '\x00' ∉ p.appId.toList
  modules : ∀ name ∈ p.modulesEnabled, name ≠ "" ∧ ',' ∉ name.toList

section
variable {p p' : Policy}

theorem toList_policyText (p : Policy) : (policyText p).toList =
    p.appId.toList ++ '\x00' :: ((modeString p.enforcementMode).toList ++ '\x00' ::
      (p.rules.toList ++ '\x00' :: (p.riskThresholds.toList ++ '\x00' ::
        (joinModules p.modulesEnabled).toList))) := by
  simp [policyText]

/-- **The text that is hashed has four fields that can be told apart.** -/
theorem policyText_inj (hjson : JsonText p) (hjson' : JsonText p')
    (happ : '\x00' ∉ p.appId.toList) (happ' : '\x00' ∉ p'.appId.toList)
    (h : policyText p = policyText p') :
    p.enforcementMode = p'.enforcementMode ∧ p.rules = p'.rules ∧
      p.riskThresholds = p'.riskThresholds ∧
      joinModules p.modulesEnabled = joinModules p'.modulesEnabled := by
  replace h := congrArg String.toList h
  rw [toList_policyText, toList_policyText] at h
  obtain ⟨-, h⟩ := append_sep_inj happ happ' h
  obtain ⟨hmode, h⟩ := append_sep_inj (nul_notMem_modeString _)
    (nul_notMem_modeString _) h
  obtain ⟨hrules, h⟩ := append_sep_inj hjson.rules hjson'.rules h
  obtain ⟨hthresholds, hmodules⟩ := append_sep_inj hjson.riskThresholds hjson'.riskThresholds h
  exact ⟨modeString_injective (toList_injective hmode),
    toList_injective hrules, toList_injective hthresholds,
    toList_injective hmodules⟩

end

variable {modules : List String}

theorem splitOn_joinModules (hne : modules ≠ []) (hcomma : ∀ name ∈ modules, ',' ∉ name.toList) :
    ((joinModules modules).toList.splitOn ',').Perm (modules.map String.toList) := by
  have hperm := mergeSort_perm modules fun a b => decide (a ≤ b)
  unfold joinModules
  rw [toList_intercalate, show ",".toList = [','] from rfl, splitOn_intercalate]
  · exact hperm.map _
  · intro l hl
    obtain ⟨name, hname, rfl⟩ := mem_map.mp hl
    exact hcomma name (hperm.mem_iff.mp hname)
  · intro hnil
    rw [map_eq_nil_iff] at hnil
    exact hne (perm_nil.mp (hnil ▸ hperm).symm)

theorem joinModules_ne_empty (hne : modules ≠ [])
    (hplain : ∀ name ∈ modules, name ≠ "" ∧ ',' ∉ name.toList) : joinModules modules ≠ "" := by
  intro hempty
  have hperm := splitOn_joinModules hne fun name hname => (hplain name hname).2
  rw [hempty] at hperm
  obtain ⟨name, hname⟩ := exists_mem_of_ne_nil modules hne
  have hmem := hperm.mem_iff.mpr (mem_map_of_mem hname)
  refine (hplain name hname).1 (toList_injective ?_)
  simpa using hmem

variable {modules' : List String}

/-- **Plain names that are joined alike are the same.** -/
theorem mem_modules_iff (hplain : ∀ name ∈ modules, name ≠ "" ∧ ',' ∉ name.toList)
    (hplain' : ∀ name ∈ modules', name ≠ "" ∧ ',' ∉ name.toList)
    (h : joinModules modules = joinModules modules') (name : String) :
    name ∈ modules ↔ name ∈ modules' := by
  by_cases hnil : modules = []
  · by_cases hnil' : modules' = []
    · rw [hnil, hnil']
    · rw [hnil] at h
      exact absurd (h.symm.trans (by simp [joinModules])) (joinModules_ne_empty hnil' hplain')
  · by_cases hnil' : modules' = []
    · rw [hnil'] at h
      exact absurd (h.trans (by simp [joinModules])) (joinModules_ne_empty hnil hplain)
    · have hperm := splitOn_joinModules hnil fun name hname => (hplain name hname).2
      have hperm' := splitOn_joinModules hnil' fun name hname => (hplain' name hname).2
      rw [h] at hperm
      have hinj : Function.Injective String.toList := fun _ _ => toList_injective
      rw [← mem_map_of_injective hinj, ← mem_map_of_injective hinj]
      exact (hperm.symm.trans hperm').mem_iff

/-! ## What a policy is assembled to -/

def weightsOf (env : Env) (p : Policy) : GoMap String UInt32 :=
  (parsePolicyDoc env.parse p.rules).signalWeights.getD ∅

def Assembles (env : Env) (p : Policy) (pc : PolicyConfig) : Prop :=
  ∃ weights : GoMap String UInt32, weights.entries.Perm (weightsOf env p).entries ∧
    pc = { buildPolicyConfig env.parse env.sha256 p with signalWeights := weights.rekey scanIndex }

theorem assembles_buildPolicyConfig (env : Env) (p : Policy) :
    Assembles env p (buildPolicyConfig env.parse env.sha256 p) :=
  ⟨weightsOf env p, .refl _, rfl⟩

structure SameConfig (pc pc' : PolicyConfig) : Prop where
  rules : pc.rules = pc'.rules
  riskThresholds : ∀ key, pc.riskThresholds.lookup key = pc'.riskThresholds.lookup key
  signalWeights : ∀ i, pc.signalWeights.lookup i = pc'.signalWeights.lookup i
  defaultMode : pc.defaultMode = pc'.defaultMode
  modulesEnabled : ∀ name, name ∈ pc.modulesEnabled ↔ name ∈ pc'.modulesEnabled
  reattestIntervalSecs : pc.reattestIntervalSecs = pc'.reattestIntervalSecs

theorem sameConfig_iff {p p' : Policy} {pc pc' : PolicyConfig} (hpc : Assembles env p pc)
    (hpc' : Assembles env p' pc') (hmode : p.enforcementMode = p'.enforcementMode)
    (hrules : p.rules = p'.rules) (hthresholds : p.riskThresholds = p'.riskThresholds)
    (hmodules : ∀ name, name ∈ p.modulesEnabled ↔ name ∈ p'.modulesEnabled) :
    SameConfig pc pc' ↔ ∀ i, pc.signalWeights.lookup i = pc'.signalWeights.lookup i := by
  obtain ⟨weights, -, rfl⟩ := hpc
  obtain ⟨weights', -, rfl⟩ := hpc'
  refine ⟨SameConfig.signalWeights, fun hweights => ?_⟩
  constructor
  case signalWeights => exact hweights
  case modulesEnabled => exact hmodules
  all_goals simp only [buildPolicyConfig, hmode, hrules, hthresholds, implies_true]

/-! ## Two answers with one ETag -/

structure Call where
  service : Service
  store : MemStore
  fresh : Fresh
  ctx : Option Principal
  ifNoneMatch : String
  m : ConfigRequest

def Call.answer (env : Env) (c : Call) (pc : PolicyConfig) :
    Except ConnectError (ConfigResponse × MemStore) :=
  getConfig { env with marshal := fun _ => env.marshal pc } c.service c.store c.fresh c.ctx
    c.ifNoneMatch c.m

structure Call.Answered (env : Env) (c : Call) (p : Policy) (pc : PolicyConfig)
    (resp : ConfigResponse) : Prop where
  resolved : ∃ candidate, resolvePolicy env c.service c.store c.m = .ok (p, candidate)
  assembled : Assembles env p pc
  answer : ∃ store', c.answer env pc = .ok (resp, store')

theorem Call.Answered.etag {c : Call} {p : Policy} {pc : PolicyConfig} {resp : ConfigResponse}
    (h : c.Answered env p pc resp) :
    resp.etag =
        etagOf (buildPolicyConfig env.parse env.sha256 p) (resolveKillSwitch c.service c.m) ∧
      (resp.config.isSome = true → resp.killSwitch = resolveKillSwitch c.service c.m) := by
  obtain ⟨candidate, hresolved⟩ := h.resolved
  obtain ⟨store', hanswer⟩ := h.answer
  obtain ⟨policy, candidate', hpolicy, hetag, hcase⟩ := getConfig_answer hanswer
  -- The policy that is served does not depend on the encoder.
  have heq : (policy, candidate') = (p, candidate) := Except.ok.inj (hpolicy.symm.trans hresolved)
  cases heq
  refine ⟨hetag, fun hsome => ?_⟩
  rcases hcase with ⟨-, hnone, -⟩ | ⟨-, -, hswitch⟩
  · rw [hnone] at hsome
    cases hsome
  · exact hswitch

structure Call.Full (env : Env) (c : Call) (p : Policy) (pc : PolicyConfig)
    (resp : ConfigResponse) : Prop extends c.Answered env p pc resp where
  config : resp.config.isSome = true

structure Call.Short (env : Env) (c : Call) (p : Policy) (pc : PolicyConfig)
    (resp : ConfigResponse) : Prop extends c.Answered env p pc resp where
  config : resp.config = none

section
variable {c : Call} {p : Policy} {pc : PolicyConfig} {candidate : Bool} {app : App}

theorem exists_full (hfirst : c.ifNoneMatch = "") (htenant : c.m.tenantId ≠ "")
    (hadmitted : enforceTenant c.ctx c.m.tenantId = true)
    (happ : c.store.getApp c.m.tenantId c.m.appId = .ok app)
    (hpolicy : resolvePolicy env c.service c.store c.m = .ok (p, candidate))
    (hpc : Assembles env p pc) {bytes : Bytes} (hbytes : env.marshal pc = .ok bytes) :
    ∃ resp, c.Full env p pc resp := by
  obtain ⟨resp, store', config, hget, hconfig, -⟩ :=
    @getConfig_serves { env with marshal := fun _ => env.marshal pc } _ _ _ _ c.fresh _ _ _ _ htenant
      hadmitted happ hpolicy hbytes
  refine ⟨resp, ⟨⟨candidate, hpolicy⟩, hpc, store', ?_⟩, by rw [hconfig]; rfl⟩
  rw [Call.answer, hfirst]
  exact hget

theorem exists_short (htenant : c.m.tenantId ≠ "")
    (hadmitted : enforceTenant c.ctx c.m.tenantId = true)
    (happ : c.store.getApp c.m.tenantId c.m.appId = .ok app)
    (hpolicy : resolvePolicy env c.service c.store c.m = .ok (p, candidate))
    (hpc : Assembles env p pc)
    (hetag : c.ifNoneMatch = etagOf (buildPolicyConfig env.parse env.sha256 p)
      (resolveKillSwitch c.service c.m)) :
    ∃ resp, c.Short env p pc resp := by
  obtain ⟨resp, hget, hconfig⟩ :=
    @getConfig_notModified { env with marshal := fun _ => env.marshal pc } _ _ _ _ c.fresh _ _ _
      htenant hadmitted happ hpolicy _ hetag
  exact ⟨resp, ⟨⟨candidate, hpolicy⟩, hpc, c.store, hget⟩, hconfig⟩

end

def NoCollision (sha256 : Bytes → Bytes) (p p' : Policy) : Prop :=
  sha256 (utf8 (policyText p)) = sha256 (utf8 (policyText p')) →
    utf8 (policyText p) = utf8 (policyText p')

/--
**When a short answer is sound.** A response with a configuration and a short answer have the same
ETag. Then the configuration is what the current policy is assembled to, in every order of its
weights, and the kill switch has the same command, if and only if no two keys of the weights that
are read alike have different values.
-/
theorem etag_sound_iff {c c' : Call} {p p' : Policy} {pc pc₀ : PolicyConfig}
    {resp resp' : ConfigResponse} (hfull : c.Full env p pc resp) (hshort : c'.Short env p' pc₀ resp')
    (hetag : resp.etag = resp'.etag) (hcoll : NoCollision env.sha256 p p') (hjson : JsonText p)
    (hjson' : JsonText p') (hplain : PlainNames p) (hplain' : PlainNames p') :
    (∀ pc', Assembles env p' pc' → SameConfig pc pc' ∧
        (resp.killSwitch.map fun ks => ks.command.toInt32) =
          (resolveKillSwitch c'.service c'.m).map fun ks => ks.command.toInt32) ↔
      GoMap.Unambiguous scanIndex (weightsOf env p') := by
  obtain ⟨hetag₁, hswitch⟩ := hfull.etag
  obtain ⟨hetag₂, -⟩ := hshort.etag
  rw [hetag₁, hetag₂] at hetag
  obtain ⟨hhash, hcommand⟩ := etagOf_inj (colon_notMem_policyHash _ _ p)
    (colon_notMem_policyHash _ _ p') hetag
  obtain ⟨hmode, hrules, hthresholds, hjoin⟩ := policyText_inj hjson hjson' hplain.appId
    hplain'.appId (utf8_injective (hcoll (hexEncode_injective hhash)))
  have hmodules := mem_modules_iff hplain.modules hplain'.modules hjoin
  have hweights : weightsOf env p = weightsOf env p' := by rw [weightsOf, weightsOf, hrules]
  have hsame : ∀ {pc'}, Assembles env p' pc' →
      (SameConfig pc pc' ↔ ∀ i, pc.signalWeights.lookup i = pc'.signalWeights.lookup i) :=
    fun hpc' => sameConfig_iff hfull.assembled hpc' hmode hrules hthresholds hmodules
  rw [hswitch hfull.config, hcommand]
  obtain ⟨weights, hperm, hpc⟩ := hfull.assembled
  rw [hweights] at hperm
  rw [← GoMap.rekey_perm_iff ⟨weights, hperm, congrArg PolicyConfig.signalWeights hpc⟩]
  constructor
  · intro hall weights' hperm' i
    obtain ⟨hconfig, -⟩ := hall _ ⟨weights', hperm', rfl⟩
    exact hconfig.signalWeights i
  · rintro hall pc' ⟨weights', hperm', rfl⟩
    exact ⟨(hsame ⟨weights', hperm', rfl⟩).mpr (hall weights' hperm'), rfl⟩

/-! ## A policy that is published again, and one with a comma in a name -/

namespace EtagSample

def weights : String := "\x7b\"signal_weights\":\x7b\"1\":40,\"2\":60\x7d\x7d"

def sampleEnv : Env where
  parse text :=
    if text = "[]" then some (.arr [])
    else if text = "\x7b\x7d" then some (.obj [])
    else if text = weights then
      some (.obj [("signal_weights", .obj [("1", .num "40"), ("2", .num "60")])])
    else none
  sha256 text :=
    if text = utf8 "a\x00ENFORCEMENT_MODE_BLOCK\x00[]\x00\x7b\x7d\x00a,b" then
      [181, 152, 173, 148, 150, 68, 22, 195, 184, 239, 96, 120, 90, 148, 206, 162, 127, 55, 170,
      33, 59, 32, 21, 83, 199, 70, 221, 49, 87, 119, 58, 144]
    else
      [115, 2, 122, 141, 37, 29, 19, 61, 72, 102, 105, 113, 180, 246, 70, 16, 60, 118, 228, 101,
      125, 94, 98, 192, 169, 224, 131, 178, 139, 215, 13, 93]
  -- Enough of the encoder for names and numbers that fit a byte.
  marshal pc := .ok ([24, 3] ++
    pc.modulesEnabled.flatMap (fun name => [34, UInt8.ofNat (utf8 name).length] ++ utf8 name) ++
    pc.signalWeights.pairs.flatMap (fun e => [42, 4, 8, e.1.toUInt8, 16, e.2.toUInt8]) ++
    [50, 64] ++ utf8 pc.policyHash)
  sign _ _ := List.replicate 64 0
  seconds ns := ns / 1000000000

def start : MemStore where
  apps := (∅ : GoMap String App).insert "a" ⟨"a", "t", "com.example"⟩
  policies := ∅
  signing := ∅
  sessions := ∅

def publish (store : MemStore) (id rules : String) (modules : List String) :
    Except StoreError MemStore := do
  let (_, store) ← store.createPolicy ⟨"t", "a", "default", .block, rules, "", modules⟩ id 0
  let (_, store) ← store.activatePolicy "t" id 0
  return store

def policy (id : String) (version : Int32) (rules : String) (modules : List String) : Policy where
  id := id
  tenantId := "t"
  appId := "a"
  name := "default"
  version := version
  enforcementMode := .block
  rules := defaultJSON rules "[]"
  riskThresholds := "\x7b\x7d"
  modulesEnabled := modules
  isActive := true
  createdAt := 0
  updatedAt := 0

def call (store : MemStore) (ifNoneMatch : String) : Call where
  service := .new 300000000000
  store := store
  fresh := ⟨(List.replicate 32 0, List.replicate 64 0), "k", 0⟩
  ctx := some ⟨"t", "device"⟩
  ifNoneMatch := ifNoneMatch
  m := ⟨"t", "a", "i", "b"⟩

theorem publish_start (rules : String) (modules : List String) :
    ∃ store, publish start "p1" rules modules = .ok store ∧
      store.getApp "t" "a" = .ok ⟨"a", "t", "com.example"⟩ ∧
      store.getActivePolicy "t" "a" = .ok (policy "p1" 1 rules modules) ∧
      -- A request in between may have created a key.
      ∀ signing modules', ∃ store',
        publish { store with signing := signing } "p2" rules modules' = .ok store' ∧
          store'.getApp "t" "a" = .ok ⟨"a", "t", "com.example"⟩ ∧
          store'.getActivePolicy "t" "a" = .ok (policy "p2" 2 rules modules') :=
  ⟨_, rfl, rfl, rfl, fun _ _ => ⟨_, rfl, rfl, rfl⟩⟩

theorem resolvePolicy_call {store : MemStore} {p : Policy}
    (h : store.getActivePolicy "t" "a" = .ok p) (etag : String) :
    resolvePolicy sampleEnv (call store etag).service store (call store etag).m = .ok (p, false) := by
  show (store.getActivePolicy "t" "a" >>= fun active => pure (active, false)) = _
  rw [h]
  rfl

def config (p : Policy) : PolicyConfig := buildPolicyConfig sampleEnv.parse sampleEnv.sha256 p

theorem policyText_policy (rules : String) (hjoin : joinModules modules = joinModules modules') :
    policyText (policy "p1" 1 rules modules) = policyText (policy "p2" 2 rules modules') :=
  congrArg (_ ++ ·) hjoin

/--
A policy is published and a device gets it. It is published again with modules that are joined alike,
and the device, which asks with the ETag it has, gets the short answer.
-/
theorem exists_answers (rules : String) (hjoin : joinModules modules = joinModules modules') :
    ∃ store store₁ store' resp resp', publish start "p1" rules modules = .ok store ∧
      (call store "").answer sampleEnv (config (policy "p1" 1 rules modules)) = .ok (resp, store₁) ∧
      publish store₁ "p2" rules modules' = .ok store' ∧
      (call store "").Full sampleEnv (policy "p1" 1 rules modules)
        (config (policy "p1" 1 rules modules)) resp ∧
      (call store' resp.etag).Short sampleEnv (policy "p2" 2 rules modules')
        (config (policy "p2" 2 rules modules')) resp' ∧
      resp.etag = resp'.etag := by
  obtain ⟨store, hstore, happ, hactive, hnext⟩ := publish_start rules modules
  have htenant : "t" ≠ "" := by decide
  obtain ⟨resp, hfull⟩ := exists_full (c := call store "") rfl htenant rfl happ
    (resolvePolicy_call hactive "") (assembles_buildPolicyConfig _ _) rfl
  obtain ⟨store₁, hanswer⟩ := hfull.answer
  obtain ⟨signing, rfl⟩ := getConfig_frame hanswer
  obtain ⟨store', hstore', happ', hactive'⟩ := hnext signing modules'
  have hetag : resp.etag = etagOf (config (policy "p2" 2 rules modules')) none := by
    rw [hfull.etag.1, etagOf, etagOf, config, policyHash_buildPolicyConfig,
      policyText_policy rules hjoin]
    rfl
  obtain ⟨resp', hshort⟩ := exists_short (c := call store' resp.etag) htenant rfl happ'
    (resolvePolicy_call hactive' _) (assembles_buildPolicyConfig _ _) hetag
  exact ⟨store, _, store', resp, resp', hstore, hanswer, hstore', hfull, hshort,
    hetag.trans hshort.etag.1.symm⟩

theorem joinModules_swap : joinModules ["root", "hook"] = joinModules ["hook", "root"] := by
  simp [joinModules, List.mergeSort]

theorem joinModules_comma : joinModules ["a,b"] = joinModules ["a", "b"] := by
  simp [joinModules, List.mergeSort]

end EtagSample

open EtagSample in
theorem etag_sound_iff_sample :
    ∃ (c c' : Call) (resp resp' : ConfigResponse) (p p' : Policy), c.Full sampleEnv p (config p) resp ∧
      c'.Short sampleEnv p' (config p') resp' ∧ c.m.tenantId = c'.m.tenantId ∧
      resp.etag = resp'.etag ∧ p.modulesEnabled ≠ p'.modulesEnabled ∧
      SameConfig (config p) (config p') := by
  obtain ⟨store, -, store', resp, resp', -, -, -, hfull, hshort, hetag⟩ :=
    exists_answers weights joinModules_swap
  refine ⟨_, _, resp, resp', _, _, hfull, hshort, rfl, hetag, by decide, ?_⟩
  have hsound := etag_sound_iff hfull hshort hetag
    (fun _ => congrArg utf8 (policyText_policy weights joinModules_swap))
    ⟨by decide +kernel, by decide +kernel⟩ ⟨by decide +kernel, by decide +kernel⟩
    ⟨by decide +kernel, by decide +kernel⟩ ⟨by decide +kernel, by decide +kernel⟩
  exact (hsound.mpr (by decide +kernel) _ (assembles_buildPolicyConfig _ _)).1

open EtagSample in
theorem comma_in_name_unsound :
    ∃ (store store₁ store' : MemStore) (resp resp' : ConfigResponse) (p p' : Policy),
      publish start "p1" "[]" ["a,b"] = .ok store ∧
      (call store "").answer sampleEnv (config p) = .ok (resp, store₁) ∧
      publish store₁ "p2" "[]" ["a", "b"] = .ok store' ∧
      (call store "").Full sampleEnv p (config p) resp ∧
      (call store' resp.etag).Short sampleEnv p' (config p') resp' ∧ resp.etag = resp'.etag ∧
      JsonText p ∧ JsonText p' ∧ NoCollision sampleEnv.sha256 p p' ∧
      "a" ∉ (config p).modulesEnabled ∧ "a" ∈ (config p').modulesEnabled := by
  obtain ⟨store, store₁, store', resp, resp', hstore, hanswer, hstore', hfull, hshort, hetag⟩ :=
    exists_answers "[]" joinModules_comma
  exact ⟨store, store₁, store', resp, resp', _, _, hstore, hanswer, hstore', hfull, hshort, hetag,
    ⟨by decide +kernel, by decide +kernel⟩, ⟨by decide +kernel, by decide +kernel⟩,
    fun _ => congrArg utf8 (policyText_policy "[]" joinModules_comma), by decide +kernel,
    by decide +kernel⟩

end Kseal.Config
