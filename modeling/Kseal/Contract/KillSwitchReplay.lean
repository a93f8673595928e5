import Kseal.Device.KillSwitch
import Kseal.Server.Compliance

/-!
# Replayed kill switches

Which sets of signed commands a device can be given in any order and any number of times, without a
command that was applied or is for another device changing its flag (`killSwitch_replay_safe_iff`).
-/

namespace Kseal.Contract

open Infra Wire Device Compliance List

structure KillDevice where
  verify : Bytes → Bytes → Bytes → Bool
  decode : Bytes → Except String SignedKillSwitch
  publicKey : Bytes
  tenantID : String
  scope : KillSwitchScope

structure Payload (dev : KillDevice) where
  bytes : Bytes
  ks : SignedKillSwitch
  decoded : dev.decode bytes = .ok ks
  verified : verifyKillSwitch dev.verify dev.publicKey ks = true
  tenant : ks.tenantId = dev.tenantID

variable {dev : KillDevice}

def applyPayload (s : KillState) (p : Payload dev) : KillState :=
  (applyKillSwitch dev.verify dev.decode dev.publicKey s p.bytes).2

def applyAll (ps : List (Payload dev)) : KillState := ps.foldl applyPayload .init

def Payload.matches (p : Payload dev) : Bool :=
  KillSwitchScope.matches ⟨p.ks.appId, p.ks.buildHash⟩ dev.scope

def ReplaySafe (ps : List (Payload dev)) : Prop :=
  ∀ pre p post, ps = pre ++ p :: post →
    (p.bytes ∈ pre.map Payload.bytes ∨ p.matches = false) →
      (applyAll (pre ++ [p])).killed = (applyAll pre).killed

/-! ## Steps -/

variable {s : KillState} {p : Payload dev}

theorem applyPayload_of_accepts (h : s.accepts p.ks) :
    applyPayload s p = s.take p.ks := by
  unfold applyPayload
  rw [(applyKillSwitch_eq s p.decoded p.verified).1 h]

theorem applyPayload_of_not_accepts (h : ¬ s.accepts p.ks) :
    applyPayload s p = s := by
  unfold applyPayload
  rw [(applyKillSwitch_eq s p.decoded p.verified).2 h]

theorem applyAll_concat (ps : List (Payload dev)) (p : Payload dev) :
    applyAll (ps ++ [p]) = applyPayload (applyAll ps) p := by
  simp [applyAll]

theorem applyAll_singleton (p : Payload dev) : applyAll [p] = KillState.init.take p.ks :=
  applyPayload_of_accepts (KillState.accepts_init p.ks)

theorem Payload.ks_eq {p' : Payload dev} (h : p.bytes = p'.bytes) : p.ks = p'.ks := by
  have hdecoded := p.decoded
  rw [h, p'.decoded] at hdecoded
  exact (Except.ok.inj hdecoded).symm

theorem Payload.exists_of_bytes_mem {ps : List (Payload dev)} (h : p.bytes ∈ ps.map Payload.bytes) :
    ∃ p' ∈ ps, p'.ks = p.ks := by
  obtain ⟨p', hp', hbytes⟩ := mem_map.mp h
  exact ⟨p', hp', Payload.ks_eq hbytes⟩

theorem Payload.scope_ne {p' : Payload dev} (hp : p.matches = true) (hp' : p'.matches = false) :
    scopeOf p'.ks ≠ scopeOf p.ks := by
  intro hscope
  unfold Payload.matches at hp hp'
  obtain ⟨-, happ, hbuild⟩ : _ ∧ p'.ks.appId = p.ks.appId ∧ p'.ks.buildHash = p.ks.buildHash := by
    simpa [scopeOf] using hscope
  rw [happ, hbuild, hp] at hp'
  cases hp'

/-! ## Safe sets -/

structure OneScope (K : Set (Payload dev)) : Prop where
  scope : ∀ p ∈ K, ∀ p' ∈ K, scopeOf p.ks = scopeOf p'.ks
  version : ∀ p ∈ K, ∀ p' ∈ K, p.ks.version = p'.ks.version → disables p.ks = disables p'.ks

def Harmless (K : Set (Payload dev)) : Prop :=
  (∀ p ∈ K, disables p.ks = false) ∨
    (∀ p ∈ K, p.matches = true) ∧ ((∀ p ∈ K, disables p.ks = true) ∨ OneScope K)

section safe

variable {K : Set (Payload dev)} {ps : List (Payload dev)}

theorem applyPayload_killed (s : KillState) (p : Payload dev) :
    (applyPayload s p).killed = disables p.ks ∨ applyPayload s p = s := by
  by_cases h : s.accepts p.ks
  · rw [applyPayload_of_accepts h]
    exact .inl rfl
  · exact .inr (applyPayload_of_not_accepts h)

theorem applyAll_of_enable (h : ∀ p ∈ ps, disables p.ks = false) : (applyAll ps).killed = false := by
  induction ps using List.reverseRecOn with
  | nil => rfl
  | append_singleton ps p ih =>
    rw [applyAll_concat]
    rcases applyPayload_killed (applyAll ps) p with hkilled | hsame
    · rw [hkilled]
      exact h p (by simp)
    · rw [hsame]
      exact ih fun p' hp' => h p' (mem_append_left _ hp')

theorem applyAll_of_disable (hne : ps ≠ []) (h : ∀ p ∈ ps, disables p.ks = true) :
    (applyAll ps).killed = true := by
  induction ps using List.reverseRecOn with
  | nil => exact absurd rfl hne
  | append_singleton ps p ih =>
    have hp := h p (by simp)
    by_cases hps : ps = []
    · subst hps
      show (applyAll [p]).killed = true
      rw [applyAll_singleton]
      exact hp
    · rw [applyAll_concat]
      rcases applyPayload_killed (applyAll ps) p with hkilled | hsame
      · rw [hkilled]
        exact hp
      · rw [hsame]
        exact ih hps fun p' hp' => h p' (mem_append_left _ hp')

structure Highest (ps : List (Payload dev)) (s : KillState) (top : Payload dev) : Prop where
  mem : top ∈ ps
  version : s.killSwitchVersions.lookup (scopeOf top.ks) = some top.ks.version
  killed : s.killed = disables top.ks
  bound : ∀ p ∈ ps, p.ks.version ≤ top.ks.version

theorem exists_highest (hne : ps ≠ [])
    (hscope : ∀ p ∈ ps, ∀ p' ∈ ps, scopeOf p.ks = scopeOf p'.ks) :
    ∃ top, Highest ps (applyAll ps) top := by
  induction ps using List.reverseRecOn with
  | nil => exact absurd rfl hne
  | append_singleton ps p ih =>
    rw [applyAll_concat]
    by_cases hps : ps = []
    · subst hps
      rw [← applyAll_concat, nil_append, applyAll_singleton]
      exact ⟨p, by simp, AList.lookup_insert _, rfl, by simp⟩
    · obtain ⟨top, htop⟩ := ih hps fun p hp p' hp' =>
        hscope p (mem_append_left _ hp) p' (mem_append_left _ hp')
      have hsame : scopeOf p.ks = scopeOf top.ks :=
        hscope p (by simp) top (mem_append_left _ htop.mem)
      have haccepts : (applyAll ps).accepts p.ks ↔ top.ks.version ≤ p.ks.version := by
        unfold KillState.accepts
        rw [hsame, htop.version]
        simp
      by_cases hv : top.ks.version ≤ p.ks.version
      · rw [applyPayload_of_accepts (haccepts.mpr hv)]
        refine ⟨p, by simp, AList.lookup_insert _, rfl, ?_⟩
        intro p' hp'
        rcases mem_append.mp hp' with hp' | hp'
        · exact Int64.le_trans (htop.bound p' hp') hv
        · rw [mem_singleton.mp hp']
          exact Int64.le_refl _
      · rw [applyPayload_of_not_accepts (haccepts.not.mpr hv)]
        refine ⟨top, mem_append_left _ htop.mem, htop.version, htop.killed, ?_⟩
        intro p' hp'
        rcases mem_append.mp hp' with hp' | hp'
        · exact htop.bound p' hp'
        · rw [mem_singleton.mp hp']
          exact Int64.le_of_lt (Int64.not_le.mp hv)

theorem Highest.replay {top : Payload dev} (h : Highest ps s top)
    (hp : p.ks.version ≤ top.ks.version) (hscope : scopeOf p.ks = scopeOf top.ks)
    (hversion : p.ks.version = top.ks.version → disables p.ks = disables top.ks) :
    (applyPayload s p).killed = s.killed := by
  by_cases haccepts : s.accepts p.ks
  · rw [applyPayload_of_accepts haccepts, h.killed]
    refine hversion (Int64.le_antisymm hp (haccepts _ ?_))
    rw [hscope]
    exact h.version
  · rw [applyPayload_of_not_accepts haccepts]

/-- **Harmless payloads can be given in any order.** -/
theorem Harmless.replaySafe (h : Harmless K) (hps : ∀ p ∈ ps, p ∈ K) : ReplaySafe ps := by
  rintro pre p post rfl hrepeat
  have hpre : ∀ p' ∈ pre, p' ∈ K := fun p' hp' => hps p' (mem_append_left _ hp')
  have hp : p ∈ K := hps p (by simp)
  have hpre' : ∀ p' ∈ pre ++ [p], p' ∈ K := by simpa [or_imp, forall_and] using ⟨hpre, hp⟩
  rcases h with henable | ⟨hmatch, h⟩
  · rw [applyAll_of_enable fun p' hp' => henable p' (hpre' p' hp'),
      applyAll_of_enable fun p' hp' => henable p' (hpre p' hp')]
  · obtain ⟨p', hp', hks⟩ := Payload.exists_of_bytes_mem
      (hrepeat.resolve_right (by simp [hmatch p hp]))
    have hne : pre ≠ [] := ne_nil_of_mem hp'
    rcases h with hdisable | hone
    · rw [applyAll_of_disable (by simp) fun p' hp' => hdisable p' (hpre' p' hp'),
        applyAll_of_disable hne fun p' hp' => hdisable p' (hpre p' hp')]
    · obtain ⟨top, htop⟩ := exists_highest hne fun p hp p' hp' =>
        hone.scope p (hpre p hp) p' (hpre p' hp')
      have htopK := hpre top htop.mem
      rw [applyAll_concat]
      exact htop.replay (hks ▸ htop.bound p' hp') (hone.scope p hp top htopK)
        (hone.version p hp top htopK)

end safe

/-! ## Harmful sets -/

section harmful

variable {K : Set (Payload dev)}

variable {d e : Payload dev}

theorem killed_toggles (hd : disables d.ks = true) (he : disables e.ks = false)
    (h : scopeOf d.ks = scopeOf e.ks → d.ks.version = e.ks.version) :
    (applyAll [d, e]).killed = false ∧ (applyAll [d, e, d]).killed = true := by
  have hde : applyAll [d, e] = (KillState.init.take d.ks).take e.ks := by
    show applyPayload (applyAll [d]) e = _
    rw [applyAll_singleton]
    apply applyPayload_of_accepts
    rw [KillState.accepts_take]
    split
    · next hscope =>
      rw [h hscope.symm]
      exact Int64.le_refl _
    · exact KillState.accepts_init _
  have hded : applyAll [d, e, d] = ((KillState.init.take d.ks).take e.ks).take d.ks := by
    show applyPayload (applyAll [d, e]) d = _
    rw [hde]
    apply applyPayload_of_accepts
    rw [KillState.accepts_take]
    split
    · next hscope =>
      rw [h hscope]
      exact Int64.le_refl _
    · rw [KillState.accepts_take, if_pos rfl]
      exact Int64.le_refl _
  rw [hde, hded]
  exact ⟨he, hd⟩

variable (hsafe : ∀ ps : List (Payload dev), (∀ p ∈ ps, p ∈ K) → ReplaySafe ps)

include hsafe

theorem matches_of_disables (hdK : d ∈ K) (hd : disables d.ks = true) :
    d.matches = true := by
  by_contra hmatch
  have hsame := hsafe [d] (by simpa using hdK) [] d [] rfl (.inr (Bool.eq_false_iff.mpr hmatch))
  rw [nil_append, applyAll_singleton] at hsame
  exact Bool.noConfusion (hd.symm.trans hsame)

theorem matches_of_exists_disables (hdK : d ∈ K) (hd : disables d.ks = true) (hpK : p ∈ K) :
    p.matches = true := by
  cases hp : disables p.ks with
  | true => exact matches_of_disables hsafe hpK hp
  | false =>
    by_contra hmatch
    rw [Bool.not_eq_true] at hmatch
    have hscope := Payload.scope_ne (matches_of_disables hsafe hdK hd) hmatch
    have hsame := hsafe [d, p] (by simp [hdK, hpK]) [d] p [] rfl (.inr hmatch)
    rw [singleton_append, (killed_toggles hd hp fun h => absurd h.symm hscope).1,
      applyAll_singleton] at hsame
    exact Bool.noConfusion (hsame.trans hd)

theorem scope_eq_of_disables (hdK : d ∈ K) (heK : e ∈ K) (hd : disables d.ks = true)
    (he : disables e.ks = false) :
    scopeOf d.ks = scopeOf e.ks ∧ d.ks.version ≠ e.ks.version := by
  by_contra hnot
  obtain ⟨hde, hded⟩ := killed_toggles hd he (by tauto)
  have hsame := hsafe [d, e, d] (by simp [hdK, heK]) [d, e] d [] rfl (.inl (by simp))
  rw [cons_append, cons_append, nil_append, hde, hded] at hsame
  cases hsame

theorem oneScope_of_safe (hdK : d ∈ K) (heK : e ∈ K) (hd : disables d.ks = true)
    (he : disables e.ks = false) : OneScope K := by
  have hscope : ∀ p ∈ K, scopeOf p.ks = scopeOf d.ks := by
    intro p hp
    cases hdis : disables p.ks with
    | true =>
      rw [(scope_eq_of_disables hsafe hp heK hdis he).1,
        (scope_eq_of_disables hsafe hdK heK hd he).1]
    | false => exact (scope_eq_of_disables hsafe hdK hp hd hdis).1.symm
  refine ⟨fun p hp p' hp' => (hscope p hp).trans (hscope p' hp').symm, ?_⟩
  intro p hp p' hp' hversion
  cases hdis : disables p.ks with
  | true =>
    cases hdis' : disables p'.ks with
    | true => rfl
    | false => exact absurd hversion (scope_eq_of_disables hsafe hp hp' hdis hdis').2
  | false =>
    cases hdis' : disables p'.ks with
    | true => exact absurd hversion.symm (scope_eq_of_disables hsafe hp' hp hdis' hdis).2
    | false => rfl

end harmful

/-- **Replay safety**: the payloads of a set can be given to a device in any sequence, without a
repeated payload or one for another scope changing its flag, exactly if the set is harmless. -/
theorem killSwitch_replay_safe_iff (dev : KillDevice) (K : Set (Payload dev)) :
    (∀ ps : List (Payload dev), (∀ p ∈ ps, p ∈ K) → ReplaySafe ps) ↔ Harmless K := by
  constructor
  · intro hsafe
    by_cases hd : ∃ d ∈ K, disables d.ks = true
    · obtain ⟨d, hdK, hd⟩ := hd
      refine .inr ⟨fun p hp => matches_of_exists_disables hsafe hdK hd hp, ?_⟩
      by_cases he : ∃ e ∈ K, disables e.ks = false
      · obtain ⟨e, heK, he⟩ := he
        exact .inr (oneScope_of_safe hsafe hdK heK hd he)
      · push Not at he
        exact .inl fun p hp => by simpa using he p hp
    · push Not at hd
      exact .inl fun p hp => by simpa using hd p hp
  · exact fun h ps hps => h.replaySafe hps

/-! ## A command that is given again -/

def firstCommand (appID buildHash : String) (command : KillSwitchCommand) : SignedKillSwitch where
  tenantId := "t"
  appId := appID
  buildHash := buildHash
  command := command
  version := 1
  issuedAt := 0
  reason := ""
  signature := List.replicate 64 0
  keyId := "k"

def sampleKillDevice : KillDevice where
  verify := fun _ _ _ => true
  decode := fun bytes =>
    if bytes = [0] then .ok (firstCommand "a" "b" .disable)
    else if bytes = [1] then .ok (firstCommand "" "" .enable)
    else if bytes = [2] then .ok (firstCommand "other" "" .disable)
    else .error "unexpected end of input"
  publicKey := List.replicate 32 0
  tenantID := "t"
  scope := ⟨"a", "b"⟩

def disableBuild : Payload sampleKillDevice := ⟨[0], firstCommand "a" "b" .disable, rfl, rfl, rfl⟩

def enableTenant : Payload sampleKillDevice := ⟨[1], firstCommand "" "" .enable, rfl, rfl, rfl⟩

def disableOther : Payload sampleKillDevice := ⟨[2], firstCommand "other" "" .disable, rfl, rfl, rfl⟩

/-- A captured `DISABLE` kills the app again after the tenant was enabled; and a `DISABLE` of another
app kills it, too. -/
theorem killSwitch_replayed :
    disableBuild.matches = true ∧ enableTenant.matches = true ∧
      (applyAll [disableBuild, enableTenant]).killed = false ∧
      (applyAll [disableBuild, enableTenant, disableBuild]).killed = true ∧
      disableOther.matches = false ∧ (applyAll [disableOther]).killed = true := by
  decide +kernel

end Kseal.Contract
