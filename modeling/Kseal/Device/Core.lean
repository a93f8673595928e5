import Kseal.Device.Config
import Kseal.Device.RiskEngine

/-!
# Loading configurations into the core (`lib.rs`, `config.rs`)

What was done to the state before a failure stays, so each function returns the state it leaves
behind whether it fails or not. Calls hold the lock of the core. The Ed25519 check and the two
protobuf decoders are parameters.
-/

namespace Kseal.Device

open Infra Wire

/-! ## Expiry -/

def saturatingAddI64 (a b : Int64) : Int64 :=
  if a.toInt + b.toInt > Int64.maxValue.toInt then .maxValue
  else if a.toInt + b.toInt < Int64.minValue.toInt then .minValue
  else a + b

def CachedConfig.expiresAt (c : CachedConfig) : Int64 := saturatingAddI64 c.loadedAt c.ttlSeconds

theorem toInt_saturatingAddI64 (a b : Int64) :
    (saturatingAddI64 a b).toInt = max (-2 ^ 63) (min (2 ^ 63 - 1) (a.toInt + b.toInt)) := by
  have hmax : Int64.maxValue.toInt = 2 ^ 63 - 1 := by decide
  have hmin : Int64.minValue.toInt = -2 ^ 63 := by decide
  unfold saturatingAddI64
  split
  · omega
  · split
    · omega
    · rw [Int64.toInt_add, Int.bmod_eq_of_le (by omega) (by omega)]
      omega

theorem clamp_bounds (x : Int64) {lo hi : Int64} (h : lo ≤ hi) :
    lo ≤ clamp x lo hi ∧ clamp x lo hi ≤ hi := by
  unfold clamp
  split
  · exact ⟨Int64.le_refl lo, h⟩
  · next hlo =>
    split
    · exact ⟨h, Int64.le_refl hi⟩
    · next hhi => exact ⟨Int64.not_lt.mp hlo, Int64.not_lt.mp hhi⟩

/-! ## The core -/

structure CoreState where
  cache : ConfigCache
  engine : Option RiskEngine

def CoreState.init : CoreState := ⟨⟨none⟩, none⟩

structure CoreEnv where
  verify : Bytes → Bytes → Bytes → Bool
  decodeSigned : Bytes → Except String SignedConfig
  decodePolicy : Bytes → Except String PolicyConfig
  configPublicKey : Bytes
  riskWindow : Nat

section core

variable (env : CoreEnv)

def ConfigCache.updateInPlace (cache : ConfigCache) (signed : SignedConfig) (now : Int64) :
    Except Error CachedConfig × ConfigCache :=
  let verified : Except Error CachedConfig × ConfigCache :=
    match verifyAndDecode env.verify env.decodePolicy signed env.configPublicKey now with
    | .error e => (.error e, cache)
    | .ok cached => (.ok cached, ⟨some cached⟩)
  match cache.current with
  | none => verified
  | some existing =>
    if signed.version < existing.version then
      (.error (.config ("config rollback rejected: incoming version " ++
        toString signed.version.toInt ++ " < cached " ++ toString existing.version.toInt)), cache)
    else verified

def nextEngine (engine : Option RiskEngine) (policy : Policy) : RiskEngine :=
  match engine with
  | some engine => engine.setPolicy policy
  | none => .new policy env.riskWindow

def loadConfigAt (state : CoreState) (signedBytes : Bytes) (now : Int64) :
    Except Error Unit × CoreState :=
  match env.decodeSigned signedBytes with
  | .error e => (.error (.decode e), state)
  | .ok signed =>
    match state.cache.updateInPlace env signed now with
    | (.error e, cache) => (.error e, { state with cache := cache })
    | (.ok cached, cache) => (.ok (), ⟨cache, some (nextEngine env state.engine cached.policy)⟩)

def fuseRisk (state : CoreState) (signals : RiskBitset) : Option FusedRisk × CoreState :=
  match state.engine with
  | some engine =>
    (some (engine.fuse signals).1, { state with engine := some (engine.fuse signals).2 })
  | none => (none, state)

inductive CoreCall where
  | load (signedBytes : Bytes) (now : Int64)
  | fuse (signals : RiskBitset)

def CoreState.call (state : CoreState) : CoreCall → CoreState
  | .load signedBytes now => (loadConfigAt env state signedBytes now).2
  | .fuse signals => (fuseRisk state signals).2

def coreRun (calls : List CoreCall) : CoreState := calls.foldl (CoreState.call env) .init

end core

/-! ## One call -/

section call

variable {env : CoreEnv} {state : CoreState} {now : Int64}

/-- **The cache is changed by a success only, and then to what `update` returns.** -/
theorem updateInPlace_eq (env : CoreEnv) (cache : ConfigCache) (signed : SignedConfig)
    (now : Int64) :
    (∃ e, cache.update env.verify env.decodePolicy signed env.configPublicKey now = .error e ∧
      cache.updateInPlace env signed now = (.error e, cache)) ∨
    ∃ cached, cache.update env.verify env.decodePolicy signed env.configPublicKey now =
        .ok ⟨some cached⟩ ∧
      cache.updateInPlace env signed now = (.ok cached, ⟨some cached⟩) := by
  unfold ConfigCache.update ConfigCache.updateInPlace
  cases hverified : verifyAndDecode env.verify env.decodePolicy signed env.configPublicKey now with
  | error e =>
    cases cache.current with
    | none => exact .inl ⟨e, rfl, rfl⟩
    | some existing =>
      dsimp only
      split
      · exact .inl ⟨_, rfl, rfl⟩
      · exact .inl ⟨e, rfl, rfl⟩
  | ok cached =>
    cases cache.current with
    | none => exact .inr ⟨cached, rfl, rfl⟩
    | some existing =>
      dsimp only
      split
      · exact .inl ⟨_, rfl, rfl⟩
      · exact .inr ⟨cached, rfl, rfl⟩

theorem verifyAndDecode_fields {signed : SignedConfig} {publicKey : Bytes} {cached : CachedConfig}
    {verify : Bytes → Bytes → Bytes → Bool} {decode : Bytes → Except String PolicyConfig}
    (h : verifyAndDecode verify decode signed publicKey now = .ok cached) :
    cached.version = signed.version ∧ cached.loadedAt = now ∧
      cached.ttlSeconds = clamp signed.ttlSeconds 0 maxTtlSeconds := by
  obtain ⟨-, h⟩ := guard_ok h
  split at h
  · cases h
  · cases h
    exact ⟨rfl, rfl, rfl⟩

inductive LoadOutcome (env : CoreEnv) (state : CoreState) (now : Int64) :
    Except Error Unit × CoreState → Prop where
  | failed (e : Error) : LoadOutcome env state now (.error e, state)
  | loaded (cached : CachedConfig)
      (hversion : ∀ existing, state.cache.current = some existing →
        existing.version ≤ cached.version)
      (hloaded : cached.loadedAt = now)
      (httl : ∃ ttl, cached.ttlSeconds = clamp ttl 0 maxTtlSeconds) :
    LoadOutcome env state now
      (.ok (), ⟨⟨some cached⟩, some (nextEngine env state.engine cached.policy)⟩)

theorem loadConfigAt_outcome (env : CoreEnv) (state : CoreState) (signedBytes : Bytes)
    (now : Int64) : LoadOutcome env state now (loadConfigAt env state signedBytes now) := by
  unfold loadConfigAt
  cases env.decodeSigned signedBytes with
  | error e => exact .failed _
  | ok signed =>
    dsimp only
    rcases updateInPlace_eq env state.cache signed now with
      ⟨e, -, heq⟩ | ⟨cached, hupdate, heq⟩
    · rw [heq]
      exact .failed e
    · obtain ⟨hversion, cached', hverified, hsame⟩ := update_eq_ok_iff.mp hupdate
      obtain rfl : cached = cached' := by
        injection hsame with hsame
        exact Option.some.inj hsame
      obtain ⟨hver, hloaded, httl⟩ := verifyAndDecode_fields hverified
      rw [heq]
      refine .loaded cached ?_ hloaded ⟨_, httl⟩
      intro existing hexisting
      rw [hver]
      exact hversion existing hexisting

end call

/-! ## Whole runs -/

def VersionLe (c c' : ConfigCache) : Prop :=
  ∀ old, c.current = some old → ∃ new, c'.current = some new ∧ old.version ≤ new.version

section runs

variable {env : CoreEnv} {state : CoreState}

theorem VersionLe.refl (c : ConfigCache) : VersionLe c c :=
  fun old h => ⟨old, h, Int64.le_refl _⟩

theorem VersionLe.trans {c c' c'' : ConfigCache} (h : VersionLe c c') (h' : VersionLe c' c'') :
    VersionLe c c'' := by
  intro old hold
  obtain ⟨mid, hmid, hle⟩ := h old hold
  obtain ⟨new, hnew, hle'⟩ := h' mid hmid
  exact ⟨new, hnew, Int64.le_trans hle hle'⟩

theorem fuseRisk_cache (state : CoreState) (signals : RiskBitset) :
    (fuseRisk state signals).2.cache = state.cache := by
  unfold fuseRisk
  split <;> rfl

theorem versionLe_call (env : CoreEnv) (state : CoreState) (c : CoreCall) :
    VersionLe state.cache (state.call env c).cache := by
  cases c with
  | fuse signals =>
    rw [CoreState.call, fuseRisk_cache]
    exact .refl _
  | load signedBytes now =>
    have h := loadConfigAt_outcome env state signedBytes now
    rw [CoreState.call]
    generalize loadConfigAt env state signedBytes now = r at h ⊢
    cases h with
    | failed e => exact .refl _
    | loaded cached hversion _ _ => exact fun old hold => ⟨cached, rfl, hversion old hold⟩

theorem versionLe_foldl (env : CoreEnv) (calls : List CoreCall) (state : CoreState) :
    VersionLe state.cache (calls.foldl (CoreState.call env) state).cache := by
  induction calls generalizing state with
  | nil => exact .refl _
  | cons c calls ih => exact (versionLe_call env state c).trans (ih _)

theorem expiresAt_bounds {cached : CachedConfig} {now : Int64} (hloaded : cached.loadedAt = now)
    (httl : ∃ ttl, cached.ttlSeconds = clamp ttl 0 maxTtlSeconds) :
    now ≤ cached.expiresAt ∧ cached.expiresAt ≤ saturatingAddI64 now maxTtlSeconds := by
  obtain ⟨ttl, httl⟩ := httl
  obtain ⟨hlo, hhi⟩ := clamp_bounds ttl (show 0 ≤ maxTtlSeconds by decide)
  rw [← httl, Int64.le_iff_toInt_le] at hlo hhi
  have hzero : (0 : Int64).toInt = 0 := by decide
  have hupper := now.toInt_lt
  unfold CachedConfig.expiresAt
  rw [hloaded, Int64.le_iff_toInt_le, Int64.le_iff_toInt_le, toInt_saturatingAddI64,
    toInt_saturatingAddI64]
  omega

end runs

/--
**Loading is atomic and monotone**: in any run versions do not go back, a call that fails leaves
the state as it was, and what a call loads expires in time.
-/
theorem config_loading (env : CoreEnv) (calls : List CoreCall) :
    (∀ before after, calls = before ++ after →
      VersionLe (coreRun env before).cache (coreRun env calls).cache) ∧
    (∀ before signedBytes now after, calls = before ++ .load signedBytes now :: after →
      (∀ e, (loadConfigAt env (coreRun env before) signedBytes now).1 = .error e →
        (loadConfigAt env (coreRun env before) signedBytes now).2 = coreRun env before) ∧
      ((loadConfigAt env (coreRun env before) signedBytes now).1 = .ok () →
        ∃ cached,
          (loadConfigAt env (coreRun env before) signedBytes now).2.cache.current = some cached ∧
            now ≤ cached.expiresAt ∧ cached.expiresAt ≤ saturatingAddI64 now maxTtlSeconds)) := by
  constructor
  · rintro before after rfl
    rw [coreRun, coreRun, List.foldl_append]
    exact versionLe_foldl env after _
  · intro before signedBytes now after _
    have h := loadConfigAt_outcome env (coreRun env before) signedBytes now
    generalize loadConfigAt env (coreRun env before) signedBytes now = r at h ⊢
    cases h with
    | failed e => exact ⟨fun _ _ => rfl, nofun⟩
    | loaded cached _ hloaded httl =>
      exact ⟨nofun, fun _ => ⟨cached, rfl, expiresAt_bounds hloaded httl⟩⟩

end Kseal.Device
