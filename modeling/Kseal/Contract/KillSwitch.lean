import Kseal.Device.KillSwitch
import Kseal.Infra.Run
import Kseal.Server.Config
import Kseal.Server.KillSwitch

/-!
# Delivery of kill switches

A device fetches its configuration while switches are issued, for any scopes. What the service has
of a scope is under a key made of its texts; scopes with one key clash (`clash_keeps_killed`), and
without such the flag is right after each fetch (`fetches_exact`).
-/

namespace Kseal.Contract.Delivery

open Infra Wire Server Device Compliance List Option AList

/--
One device and the service it fetches from.

The feature is enabled, and what is signed with the key of the tenant verifies on the device.
-/
structure Setup where
  env : Config.Env
  flags : FeatureFlags
  sk : Registry.SigningKey
  verify : Bytes → Bytes → Bytes → Bool
  decode : Bytes → Except String SignedKillSwitch
  publicKey : Bytes
  tenantID : String
  appID : String
  buildHash : String
  flag : flags.enabled tenantID flagKillSwitch = true
  verifies : ∀ message, verify publicKey message (env.sign sk.privateKey message) = true

/-- The store of the service, all switches issued so far (the newest first), the state of the device
and the ETag of its last response. -/
structure World where
  store : Compliance.MemStore
  issued : List SignedKillSwitch
  device : KillState
  etag : String

def World.init : World := ⟨⟨∅, ∅⟩, [], .init, ""⟩

def latestOf : List SignedKillSwitch → List SignedKillSwitch
  | [] => []
  | ks :: rest =>
    ks :: (latestOf rest).filter fun ks' => ¬ (ks'.appId = ks.appId ∧ ks'.buildHash = ks.buildHash)

/-- What a fetch meets and sends: the registry and the rollouts at that time, and the bytes in which
a kill switch arrives. -/
structure Fetch where
  registry : Registry.MemStore
  canary : Option Canary.Registry
  ttl : Int64
  fresh : Config.Fresh
  principal : Option Principal
  instanceID : String
  conditional : Bool
  payload : Bytes

inductive Action where
  | issue (input : KillSwitchInput) (now : Int64)
  | fetch (f : Fetch)

def Action.isFetch : Action → Bool
  | .fetch _ => true
  | .issue .. => false

namespace Setup

variable (S : Setup)

def scope : KillSwitchScope := ⟨S.appID, S.buildHash⟩

def request (f : Fetch) : ConfigRequest := ⟨S.tenantID, S.appID, f.instanceID, S.buildHash⟩

def service (w : World) (f : Fetch) : Config.Service := ⟨f.ttl, f.canary, some w.store, S.flags⟩

def getConfig (w : World) (f : Fetch) :
    Except ConnectError (Config.ConfigResponse × Registry.MemStore) :=
  Config.getConfig S.env (S.service w f) f.registry f.fresh f.principal
    (if f.conditional then w.etag else "") (S.request f)

def encodes (payload : Bytes) (ks : SignedKillSwitch) : Bool :=
  match S.decode payload with
  | .ok ks' => ks' = ks
  | .error _ => false

def deliver (device : KillState) (payload : Bytes) : Option SignedKillSwitch → Option KillState
  | none => some device
  | some ks =>
    if S.encodes payload ks then
      some (applyKillSwitch S.verify S.decode S.publicKey device payload).2
    else none

def step (w : World) : Action → Option World
  | .issue input now =>
    if input.tenantID = S.tenantID then
      (w.store.issueKillSwitch S.env.sign S.sk input now).toOption.map fun r =>
        { w with store := r.2, issued := r.1 :: w.issued }
    else none
  | .fetch f =>
    (S.getConfig w f).toOption.bind fun r =>
      (S.deliver w.device f.payload r.1.killSwitch).map fun device =>
        { w with device := device, etag := r.1.etag }

def Exact (w : World) : Prop :=
  w.device.killed = (resolveEffective (latestOf w.issued) S.scope).any disables

/-! ## Keys -/

def NoClash (appID buildHash : String) : Prop :=
  ∀ s : KillSwitchScope, s.matches S.scope = true →
    scopeKey S.tenantID appID buildHash = scopeKey S.tenantID s.appID s.buildHash →
      appID = s.appID ∧ buildHash = s.buildHash

/-- The switch is issued for a scope that is not confused with one of the device, and its version
does not overflow. -/
def Safe (w : World) : Action → Prop
  | .issue input _ =>
    S.NoClash input.appID input.buildHash ∧
      ∀ prev, w.store.killSw.lookup (scopeKey input.tenantID input.appID input.buildHash) =
        some prev → prev.version ≠ Int64.maxValue
  | .fetch _ => True

end Setup

def NulFree (s : String) : Prop := '\x00' ∉ s.toList

variable {appID buildHash : String}

theorem scopeKey_inj {tenantID appID' buildHash' : String} (happ : NulFree appID')
    (hbuild : NulFree buildHash')
    (h : scopeKey tenantID appID buildHash = scopeKey tenantID appID' buildHash') :
    appID = appID' ∧ buildHash = buildHash' := by
  replace h := congrArg String.toList h
  rw [toList_scopeKey, toList_scopeKey] at h
  replace h := (List.cons.inj (append_cancel_left h)).2
  obtain ⟨happ, -, hbuild⟩ := (append_cons_inj_of_notMem happ hbuild).mp h.symm
  exact ⟨(String.toList_injective happ).symm, (String.toList_injective hbuild).symm⟩

theorem exists_nul {s : String} (h : ¬ NulFree s) : ∃ x y, s = x ++ "\x00" ++ y := by
  obtain ⟨xs, ys, hs⟩ := append_of_mem (not_not.mp h)
  refine ⟨String.ofList xs, String.ofList ys, String.toList_injective ?_⟩
  simpa using hs

/-- **The scopes of a device are confused with others exactly if there is a NUL in its names.** -/
theorem noClash_iff (S : Setup) :
    (∀ appID buildHash, S.NoClash appID buildHash) ↔ NulFree S.appID ∧ NulFree S.buildHash := by
  constructor
  · intro hclash
    have hself : S.scope.matches S.scope = true := matches_iff.mpr ⟨.inr rfl, .inr rfl⟩
    constructor
    · by_contra hnul
      obtain ⟨x, y, happ⟩ := exists_nul hnul
      have hkey : scopeKey S.tenantID x (y ++ "\x00" ++ S.buildHash) =
          scopeKey S.tenantID S.appID S.buildHash := by
        simp only [scopeKey, happ, String.append_assoc]
      have hlen := congrArg String.length (hclash _ _ S.scope hself hkey).2
      simp only [String.length_append, Setup.scope] at hlen
      have hone : "\x00".length = 1 := rfl
      omega
    · by_contra hnul
      obtain ⟨x, y, hbuild⟩ := exists_nul hnul
      have hkey : scopeKey S.tenantID (S.appID ++ "\x00" ++ x) y =
          scopeKey S.tenantID S.appID S.buildHash := by
        simp only [scopeKey, hbuild, String.append_assoc]
      have hlen := congrArg String.length (hclash _ _ S.scope hself hkey).1
      simp only [String.length_append, Setup.scope] at hlen
      have hone : "\x00".length = 1 := rfl
      omega
  · rintro ⟨happ, hbuild⟩ appID buildHash s hmatch hkey
    have hempty : NulFree "" := by simp [NulFree]
    obtain ⟨hsapp, hsbuild⟩ := matches_iff.mp hmatch
    refine scopeKey_inj ?_ ?_ hkey
    · rcases hsapp with hs | hs
      · rwa [hs]
      · rwa [hs]
    · rcases hsbuild with hs | hs
      · rwa [hs]
      · rwa [hs]

/-! ## The latest switch of a scope -/

def ofScope (appID buildHash : String) (ks : SignedKillSwitch) : Bool :=
  ks.appId = appID ∧ ks.buildHash = buildHash

variable {ks : SignedKillSwitch}

theorem ofScope_iff :
    ofScope appID buildHash ks = true ↔ ks.appId = appID ∧ ks.buildHash = buildHash :=
  decide_eq_true_iff

theorem mem_latestOf {issued : List SignedKillSwitch} :
    ks ∈ latestOf issued ↔ issued.find? (ofScope ks.appId ks.buildHash) = some ks := by
  induction issued with
  | nil => simp [latestOf]
  | cons newest issued ih =>
    rw [latestOf, mem_cons, mem_filter, ih, find?_cons, decide_eq_true_iff]
    cases hscope : ofScope ks.appId ks.buildHash newest with
    | true =>
      have hsame := ofScope_iff.mp hscope
      constructor
      · rintro (rfl | ⟨-, hother⟩)
        · rfl
        · exact absurd ⟨hsame.1.symm, hsame.2.symm⟩ hother
      · intro hks
        exact .inl (some.inj hks).symm
    | false =>
      have hother : ¬ (ks.appId = newest.appId ∧ ks.buildHash = newest.buildHash) := by
        intro hsame
        rw [ofScope_iff.mpr ⟨hsame.1.symm, hsame.2.symm⟩] at hscope
        cases hscope
      constructor
      · rintro (rfl | ⟨hks, -⟩)
        · exact absurd ⟨rfl, rfl⟩ hother
        · exact hks
      · exact fun hks => .inr ⟨hks, hother⟩

/-! ## The invariant -/

variable {S : Setup}

structure Inv (S : Setup) (w : World) : Prop where
  /-- Each switch is under the key of its own scope. -/
  keyed : ∀ key ks, w.store.killSw.lookup key = some ks →
    Genuine S.env.sign S.sk S.tenantID ks ∧ key = scopeKey S.tenantID ks.appId ks.buildHash
  /-- Of the scopes the device is in, the store has the latest switches. -/
  latest : ∀ s : KillSwitchScope, s.matches S.scope = true →
    w.store.killSw.lookup (scopeKey S.tenantID s.appID s.buildHash) =
      w.issued.find? (ofScope s.appID s.buildHash)
  /-- The device has not seen a higher version. -/
  floors : ∀ s : KillSwitchScope, s.matches S.scope = true → ∀ last,
    w.device.killSwitchVersions.lookup (S.tenantID, s.appID, s.buildHash) = some last →
      ∃ ks, w.store.killSw.lookup (scopeKey S.tenantID s.appID s.buildHash) = some ks ∧
        last ≤ ks.version
  /-- A device that is killed is so by a switch of one of its scopes. -/
  killed : w.device.killed = true → ∃ s : KillSwitchScope, s.matches S.scope = true ∧
    (w.store.killSw.lookup (scopeKey S.tenantID s.appID s.buildHash)).isSome = true
  /-- The flag is what the ETag says. -/
  etag : w.etag = "" ∨ ∃ policy ks, w.device.killed = Option.any disables ks ∧
    w.etag = Config.etagOf (Config.buildPolicyConfig S.env.parse S.env.sha256 policy) ks

theorem inv_init (S : Setup) : Inv S .init where
  keyed := by
    intro key ks hlook
    cases hlook
  latest := fun _ _ => rfl
  floors := by
    intro s _ last hlook
    cases hlook
  killed := by
    intro hkilled
    cases hkilled
  etag := .inl rfl

variable {w w' : World}

variable {input : KillSwitchInput} {now : Int64}

theorem step_issue (h : S.step w (.issue input now) = some w') :
    ∃ ks store, input.tenantID = S.tenantID ∧
      w.store.issueKillSwitch S.env.sign S.sk input now = .ok (ks, store) ∧
      w' = { w with store := store, issued := ks :: w.issued } := by
  obtain ⟨htenant, h⟩ := guard_some h
  obtain ⟨⟨ks, store⟩, hissue, rfl⟩ := map_eq_some_iff.mp h
  exact ⟨ks, store, htenant, eq_ok_of_toOption hissue, rfl⟩

variable {f : Fetch}

theorem step_fetch (h : S.step w (.fetch f) = some w') :
    ∃ resp registry device, S.getConfig w f = .ok (resp, registry) ∧
      S.deliver w.device f.payload resp.killSwitch = some device ∧
      w' = { w with device := device, etag := resp.etag } := by
  obtain ⟨⟨resp, registry⟩, hconfig, h⟩ := bind_eq_some_iff.mp h
  obtain ⟨device, hdeliver, rfl⟩ := map_eq_some_iff.mp h
  exact ⟨resp, registry, device, eq_ok_of_toOption hconfig, hdeliver, rfl⟩

theorem Inv.resolveKillSwitch_eq (hinv : Inv S w) (f : Fetch) (htenant : S.tenantID ≠ "") :
    Config.resolveKillSwitch (S.service w f) (S.request f) =
      resolveEffective (latestOf w.issued) S.scope := by
  obtain ⟨switches, hlist⟩ : ∃ switches, w.store.listKillSwitches S.tenantID = .ok switches :=
    ⟨_, if_neg htenant⟩
  have hstored : ∀ ks, ks ∈ switches ↔
      w.store.killSw.lookup (scopeKey S.tenantID ks.appId ks.buildHash) = some ks := by
    intro ks
    rw [mem_listKillSwitches hlist]
    constructor
    · rintro ⟨-, key, hlook⟩
      rw [← (hinv.keyed key ks hlook).2]
      exact hlook
    · exact fun hlook => ⟨(hinv.keyed _ ks hlook).1.tenant, _, hlook⟩
  have hresolve : Config.resolveKillSwitch (S.service w f) (S.request f) =
      resolveEffective switches S.scope := by
    unfold Config.resolveKillSwitch
    simp only [Setup.service, Setup.request, S.flag, hlist, getKillSwitchState]
    unfold Setup.scope
    cases resolveEffective switches ⟨S.appID, S.buildHash⟩ <;> rfl
  rw [hresolve]
  apply resolveEffective_unique
  · intro ks hmatch
    rw [hstored, mem_latestOf, hinv.latest _ hmatch]
  · intro ks hks ks' hks' happ hbuild
    rw [hstored] at hks hks'
    rw [happ, hbuild, hks'] at hks
    exact (some.inj hks).symm

theorem any_disables_eq {ks ks' : Option SignedKillSwitch}
    (h : (ks.map fun ks => ks.command.toInt32) = ks'.map fun ks => ks.command.toInt32) :
    ks.any disables = ks'.any disables := by
  have hfactor : ∀ ks : Option SignedKillSwitch, ks.any disables =
      (ks.map fun ks => ks.command.toInt32).any fun n => n = KillSwitchCommand.disable.toInt32 := by
    intro ks
    cases ks <;> rfl
  rw [hfactor, hfactor, h]

theorem Inv.issue (hinv : Inv S w) (hsafe : S.Safe w (.issue input now))
    (h : S.step w (.issue input now) = some w') :
    Inv S w' := by
  obtain ⟨ks, store, htenant, hissue, rfl⟩ := step_issue h
  obtain ⟨rfl, hgenuine, happ, hbuild, hversion⟩ := issueKillSwitch_eq_ok hissue
  obtain ⟨hclash, hmax⟩ := hsafe
  rw [htenant] at hgenuine hmax
  rw [← happ, ← hbuild] at hclash hmax
  rw [hgenuine.tenant] at hversion ⊢
  have hkey : ∀ s : KillSwitchScope, s.matches S.scope = true →
      (scopeKey S.tenantID s.appID s.buildHash = scopeKey S.tenantID ks.appId ks.buildHash ↔
        ofScope s.appID s.buildHash ks = true) := by
    intro s hmatch
    rw [ofScope_iff]
    constructor
    · exact fun heq => hclash s hmatch heq.symm
    · rintro ⟨hsapp, hsbuild⟩
      rw [hsapp, hsbuild]
  constructor
  · intro key ks' hlook
    by_cases hk : key = scopeKey S.tenantID ks.appId ks.buildHash
    · rw [hk, lookup_insert] at hlook
      cases hlook
      exact ⟨hgenuine, hk⟩
    · rw [lookup_insert_ne hk] at hlook
      exact hinv.keyed key ks' hlook
  · intro s hmatch
    rw [find?_cons]
    cases hscope : ofScope s.appID s.buildHash ks with
    | true =>
      rw [(hkey s hmatch).mpr hscope, lookup_insert]
    | false =>
      have hne : scopeKey S.tenantID s.appID s.buildHash ≠
          scopeKey S.tenantID ks.appId ks.buildHash := by
        intro heq
        rw [(hkey s hmatch).mp heq] at hscope
        cases hscope
      rw [lookup_insert_ne hne]
      exact hinv.latest s hmatch
  · intro s hmatch last hlast
    obtain ⟨prev, hprev, hle⟩ := hinv.floors s hmatch last hlast
    by_cases heq : scopeKey S.tenantID s.appID s.buildHash =
        scopeKey S.tenantID ks.appId ks.buildHash
    · refine ⟨ks, by rw [heq]; exact lookup_insert _, ?_⟩
      rw [heq] at hprev
      rw [hversion, hprev]
      exact Int64.le_trans hle (le_nextKillVersion (hmax prev hprev))
    · exact ⟨prev, by rw [lookup_insert_ne heq]; exact hprev, hle⟩
  · intro hkilled
    obtain ⟨s, hmatch, hsome⟩ := hinv.killed hkilled
    refine ⟨s, hmatch, ?_⟩
    by_cases heq : scopeKey S.tenantID s.appID s.buildHash =
        scopeKey S.tenantID ks.appId ks.buildHash
    · rw [heq, lookup_insert]
      rfl
    · rw [lookup_insert_ne heq]
      exact hsome
  · exact hinv.etag

theorem Inv.killed_of_none (hinv : Inv S w)
    (hnone : resolveEffective (latestOf w.issued) S.scope = none) : w.device.killed = false := by
  have hchosen := chosen_resolveEffective S.scope (latestOf w.issued)
  rw [hnone] at hchosen
  by_contra hkilled
  obtain ⟨s, hmatch, hsome⟩ := hinv.killed (Bool.not_eq_false _ ▸ hkilled)
  obtain ⟨ks, hks⟩ := isSome_iff_exists.mp hsome
  rw [hinv.latest s hmatch] at hks
  obtain ⟨happ, hbuild⟩ := ofScope_iff.mp (find?_some hks)
  have hmem : ks ∈ latestOf w.issued := by
    rw [mem_latestOf, happ, hbuild]
    exact hks
  have hno := hchosen ks hmem
  rw [happ, hbuild, hmatch] at hno
  cases hno

theorem Inv.deliver_effective (hinv : Inv S w) {payload : Bytes} {device : KillState}
    (heff : resolveEffective (latestOf w.issued) S.scope = some ks)
    (hdeliver : S.deliver w.device payload (some ks) = some device) :
    device = w.device.take ks ∧
      KillSwitchScope.matches ⟨ks.appId, ks.buildHash⟩ S.scope = true ∧ ks.tenantId = S.tenantID ∧
      w.store.killSw.lookup (scopeKey S.tenantID ks.appId ks.buildHash) = some ks := by
  have hchosen := chosen_resolveEffective S.scope (latestOf w.issued)
  rw [heff] at hchosen
  have hlook := hinv.latest _ hchosen.matches_
  rw [mem_latestOf.mp hchosen.mem] at hlook
  have hgenuine := (hinv.keyed _ ks hlook).1
  have hverify : verifyKillSwitch S.verify S.publicKey ks = true := by
    unfold verifyKillSwitch
    rw [hgenuine.signature]
    exact S.verifies _
  have haccepts : w.device.accepts ks := by
    intro last hlast
    unfold scopeOf at hlast
    rw [hgenuine.tenant] at hlast
    obtain ⟨ks', hks', hle⟩ := hinv.floors _ hchosen.matches_ last hlast
    rw [hlook] at hks'
    cases hks'
    exact hle
  obtain ⟨hencodes, hdeliver⟩ := guard_some hdeliver
  have hdecode : S.decode payload = .ok ks := by
    unfold Setup.encodes at hencodes
    split at hencodes
    · next ks' hks' => rw [hks', of_decide_eq_true hencodes]
    · cases hencodes
  rw [(applyKillSwitch_eq w.device hdecode hverify).1 haccepts] at hdeliver
  exact ⟨(some.inj hdeliver).symm, hchosen.matches_, hgenuine.tenant, hlook⟩

/-- **After a fetch the flag is that of the switch in effect.** -/
theorem Inv.fetch (hinv : Inv S w) (h : S.step w (.fetch f) = some w') :
    Inv S w' ∧ S.Exact w' := by
  obtain ⟨resp, registry, device, hconfig, hdeliver, rfl⟩ := step_fetch h
  obtain ⟨⟨policy, hetag⟩, hswitch⟩ := Config.getConfig_killSwitch hconfig
  rw [hinv.resolveKillSwitch_eq f (Config.tenant_ne_of_getConfig hconfig)] at hetag hswitch
  -- The flag is right in all cases; the rest of the invariant follows the switch that is taken.
  suffices hgoal : device.killed = (resolveEffective (latestOf w.issued) S.scope).any disables ∧
      (device = w.device ∨ ∃ ks, device = w.device.take ks ∧
        KillSwitchScope.matches ⟨ks.appId, ks.buildHash⟩ S.scope = true ∧ ks.tenantId = S.tenantID ∧
        w.store.killSw.lookup (scopeKey S.tenantID ks.appId ks.buildHash) = some ks) by
    obtain ⟨hkilled, hdevice⟩ := hgoal
    refine ⟨⟨hinv.keyed, hinv.latest, ?_, ?_, .inr ⟨policy, _, hkilled, hetag⟩⟩, hkilled⟩
    · intro s hmatch last hlast
      rcases hdevice with rfl | ⟨ks, rfl, -, htenant, hlook⟩
      · exact hinv.floors s hmatch last hlast
      · dsimp only [KillState.take] at hlast
        by_cases hscope : (S.tenantID, s.appID, s.buildHash) = scopeOf ks
        · rw [hscope, lookup_insert] at hlast
          cases hlast
          obtain ⟨-, happ, hbuild⟩ : _ ∧ s.appID = ks.appId ∧ s.buildHash = ks.buildHash := by
            simpa [scopeOf] using hscope
          rw [happ, hbuild]
          exact ⟨ks, hlook, Int64.le_refl _⟩
        · rw [lookup_insert_ne hscope] at hlast
          exact hinv.floors s hmatch last hlast
    · rcases hdevice with rfl | ⟨ks, rfl, hmatch, -, hlook⟩
      · exact hinv.killed
      · exact fun _ => ⟨⟨ks.appId, ks.buildHash⟩, hmatch, by rw [hlook]; rfl⟩
  by_cases hsame : (if f.conditional then w.etag else "") ≠ "" ∧
      (if f.conditional then w.etag else "") = resp.etag
  · rw [hswitch, if_pos hsame] at hdeliver
    cases hdeliver
    refine ⟨?_, .inl rfl⟩
    have hcond : w.etag = resp.etag ∧ w.etag ≠ "" := by
      cases hc : f.conditional <;> simp [hc] at hsame
      exact ⟨hsame.2, hsame.1⟩
    rcases hinv.etag with hempty | ⟨policy', ks, hkilled, hetag'⟩
    · exact absurd hempty hcond.2
    · rw [hkilled]
      apply any_disables_eq
      refine Config.command_eq_of_etagOf
        (Config.colon_notMem_policyHash S.env.parse S.env.sha256 policy')
        (Config.colon_notMem_policyHash S.env.parse S.env.sha256 policy) ?_
      rw [← hetag', ← hetag]
      exact hcond.1
  · rw [hswitch, if_neg hsame] at hdeliver
    cases heff : resolveEffective (latestOf w.issued) S.scope with
    | none =>
      rw [heff] at hdeliver
      cases hdeliver
      exact ⟨hinv.killed_of_none heff, .inl rfl⟩
    | some ks =>
      rw [heff] at hdeliver
      obtain ⟨rfl, hrest⟩ := hinv.deliver_effective heff hdeliver
      exact ⟨rfl, .inr ⟨ks, rfl, hrest⟩⟩

/-- **Delivery is exact**: in a run in which no switch is issued for a scope that is confused with one
of the device, and no version overflows, the flag is right after each fetch. -/
theorem fetches_exact (S : Setup) {es : List (Event World Action)} {w : World}
    (hrun : Run S.step .init es w) (hsafe : ∀ e ∈ es, S.Safe e.before e.action) :
    ∀ e ∈ es, e.action.isFetch = true → S.Exact e.after := by
  have hkeeps : ∀ {w : World} {a : Action} {w' : World}, Inv S w → S.Safe w a →
      S.step w a = some w' → Inv S w' := by
    intro w a w' hinv hsafe hstep
    cases a with
    | issue input now => exact hinv.issue hsafe hstep
    | fetch f => exact (hinv.fetch hstep).1
  intro e he hfetch
  obtain ⟨hinv, hstep⟩ := hrun.keeps_before hkeeps (inv_init S) hsafe e he
  cases haction : e.action with
  | issue input now =>
    rw [haction] at hfetch
    cases hfetch
  | fetch f =>
    rw [haction] at hstep
    exact (hinv.fetch hstep).2

/-! ## Runs -/

def sampleSetup (buildHash : String) (decode : Bytes → Except String SignedKillSwitch) : Setup where
  env :=
    { parse := fun _ => none
      sha256 := fun _ => List.replicate 32 0
      marshal := fun _ => .ok []
      sign := fun _ _ => List.replicate 64 0
      seconds := fun ns => ns / 1000000000 }
  flags := ⟨∅, (∅ : GoMap String Bool).insert flagKillSwitch true⟩
  sk := ⟨"k", "t", "ed25519", List.replicate 32 0, List.replicate 64 0, true, 0⟩
  verify := fun _ _ _ => true
  decode := decode
  publicKey := List.replicate 32 0
  tenantID := "t"
  appID := "a"
  buildHash := buildHash
  flag := by decide +kernel
  verifies := fun _ => rfl

def sampleRegistry : Registry.MemStore where
  apps := (∅ : GoMap String Registry.App).insert "a" ⟨"a", "t", "com.example"⟩
  policies := (∅ : GoMap String Wire.Policy).insert "p"
    { id := "p"
      tenantId := "t"
      appId := "a"
      name := "default"
      version := 1
      enforcementMode := .block
      rules := "[]"
      riskThresholds := "\x7b\x7d"
      modulesEnabled := []
      isActive := true
      createdAt := 0
      updatedAt := 0 }
  signing := ∅
  sessions := ∅

def sampleFetch (conditional : Bool) (payload : Bytes) : Fetch where
  registry := sampleRegistry
  canary := none
  ttl := Config.defaultTtl
  fresh := ⟨([], []), "config-key", 0⟩
  principal := some ⟨"t", "device"⟩
  instanceID := "i"
  conditional := conditional
  payload := payload

def sampleSwitch (appID buildHash : String) (command : KillSwitchCommand) (version : Int64) :
    SignedKillSwitch where
  tenantId := "t"
  appId := appID
  buildHash := buildHash
  command := command
  version := version
  issuedAt := 0
  reason := ""
  signature := List.replicate 64 0
  keyId := "k"

def sampleIssue (appID buildHash : String) (command : KillSwitchCommand) : Action :=
  .issue ⟨"t", appID, buildHash, command, ""⟩ 0

def plainSetup : Setup := sampleSetup "b" fun bytes =>
  if bytes = [0] then .ok (sampleSwitch "a" "b" .disable 1)
  else if bytes = [1] then .ok (sampleSwitch "a" "b" .enable 2)
  else .error "unexpected end of input"

def plainActions : List Action :=
  [sampleIssue "a" "b" .disable, .fetch (sampleFetch false [0]), .fetch (sampleFetch true []),
    sampleIssue "a" "b" .enable, .fetch (sampleFetch true [1])]

def versionFits (w : World) : Action → Bool
  | .issue input _ =>
    (w.store.killSw.lookup (scopeKey input.tenantID input.appID input.buildHash)).all fun prev =>
      prev.version ≠ Int64.maxValue
  | .fetch _ => true

theorem plain_fetches_exact :
    ∃ es w, Run plainSetup.step .init es w ∧ es.map Event.action = plainActions ∧
      ∀ e ∈ es, e.action.isFetch = true → plainSetup.Exact e.after := by
  obtain ⟨w, hexec⟩ : ∃ w, exec plainSetup.step versionFits .init plainActions = some w :=
    isSome_iff_exists.mp (by decide +kernel)
  obtain ⟨es, hrun, hfits, hactions⟩ := run_of_exec _ _ _ _ hexec
  have hclash := (noClash_iff plainSetup).mpr ⟨by simp [NulFree, plainSetup, sampleSetup],
    by simp [NulFree, plainSetup, sampleSetup]⟩
  refine ⟨es, w, hrun, hactions, fetches_exact plainSetup hrun ?_⟩
  intro e he
  have hfit := hfits e he
  cases haction : e.action with
  | fetch f => trivial
  | issue input now =>
    rw [haction] at hfit
    refine ⟨hclash _ _, ?_⟩
    intro prev hprev
    rw [versionFits] at hfit
    rw [hprev] at hfit
    exact of_decide_eq_true hfit

def nulSetup : Setup := sampleSetup "x\x00y" fun bytes =>
  if bytes = [0] then .ok (sampleSwitch "a" "x\x00y" .disable 1) else .error "unexpected end of input"

def nulActions : List Action :=
  [sampleIssue "a" "x\x00y" .disable, .fetch (sampleFetch false [0]),
    sampleIssue "a" "x\x00y" .enable, sampleIssue "a\x00x" "y" .enable,
    .fetch (sampleFetch true [])]

/-- **A device stays killed** although its own scope is enabled and no switch in the store is meant
for it. -/
theorem clash_keeps_killed :
    ∃ es w, Run nulSetup.step .init es w ∧ es.map Event.action = nulActions ∧
      w.device.killed = true ∧
      (resolveEffective (latestOf w.issued) nulSetup.scope).map SignedKillSwitch.command =
        some .enable ∧
      (w.store.killSw.pairs.map fun e => (e.2.appId, e.2.buildHash)) = [("a\x00x", "y")] :=
  exists_run (by decide +kernel)

end Kseal.Contract.Delivery
