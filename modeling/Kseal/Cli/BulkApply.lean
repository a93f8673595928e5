import Kseal.Cli.PackStore
import Kseal.Server.ActivePolicy

/-!
# Applying a pack twice (`internal/cli/policy_pack.go`)

A tenant is skipped if its active policy does not differ from the pack (`second_apply_skips`). A
bulk apply that does not activate creates a policy each time.
-/

namespace Kseal.Cli

open Infra Wire Registry Risk

structure PolicyPack.NoAliases (p : PolicyPack) : Prop where
  levels : ∀ key ∈ p.riskThresholds.keys, ∀ key' ∈ p.riskThresholds.keys,
    levelByName key = levelByName key' → key = key'
  bits : ∀ key ∈ p.signalWeights.keys, ∀ key' ∈ p.signalWeights.keys,
    bitIndex key = bitIndex key' → key = key'

structure PolicyPack.Unambiguous (p : PolicyPack) : Prop where
  levels : GoMap.Unambiguous (fun key => some (canonLevel key)) p.riskThresholds
  bits : GoMap.Unambiguous bitIndex p.signalWeights

theorem levelByName_eq_of_canonLevel {key key' : String} (hkey : key ∈ validLevelNames)
    (hkey' : key' ∈ validLevelNames) (h : canonLevel key = canonLevel key') :
    levelByName key = levelByName key' := by
  have hall : ∀ key ∈ validLevelNames, ∀ key' ∈ validLevelNames,
      canonLevel key = canonLevel key' → levelByName key = levelByName key' := by decide +kernel
  exact hall key hkey key' hkey' h

theorem PolicyPack.NoAliases.unambiguous {p : PolicyPack} (h : p.NoAliases) (hp : p.Valid) :
    p.Unambiguous := by
  constructor
  · refine GoMap.unambiguous_of_injective fun key key' lvl hkey hkey' hread hread' => ?_
    have hvalid : ∀ key ∈ p.riskThresholds, key ∈ validLevelNames := by
      intro key hkey
      obtain ⟨v, hv⟩ := Option.isSome_iff_exists.mp (AList.lookup_isSome.mpr hkey)
      exact hp.levels key v hv
    exact h.levels key (AList.mem_keys.mp hkey) key' (AList.mem_keys.mp hkey')
      (levelByName_eq_of_canonLevel (hvalid key hkey) (hvalid key' hkey')
        (Option.some.inj (hread.trans hread'.symm)))
  · exact GoMap.unambiguous_of_injective fun key key' i hkey hkey' hread hread' =>
      h.bits key (AList.mem_keys.mp hkey) key' (AList.mem_keys.mp hkey') (hread.trans hread'.symm)

/-! ## The shape of the stored policy -/

section stored

variable {p : PolicyPack} {q : Policy}

theorem shape_eq_ok {mode : EnforcementMode}
    (hmode : parseEnforcementMode p.enforcementMode = some mode) (quote : String → String) :
    p.shape quote = .ok ⟨mode, canonThresholds p.riskThresholds, p.signalWeights.rekey bitIndex,
      p.modulesEnabled⟩ := by
  unfold PolicyPack.shape
  rw [hmode]

/-- **The policy that is stored for a pack has the shape of the pack.** -/
theorem sameShape_stored (h : Stored p q) (hp : p.Unambiguous) (quote : String → String) :
    ∃ current candidate, shapeFromPolicy parseJson (some q) = .ok current ∧
      p.shape quote = .ok candidate ∧ SameShape current candidate := by
  refine ⟨_, _, h.shape, shape_eq_ok h.mode quote, ⟨rfl, ?_, ?_, fun _ => Iff.rfl⟩⟩
  · exact fun lvl _ => GoMap.lookup_rekey_ext hp.levels (lookup_resorted _) lvl
  · exact GoMap.lookup_rekey_ext hp.bits (lookup_weightsRead p)

theorem packDiff_stored (h : Stored p q) (hp : p.Unambiguous) {m : MemStore} {tenant appID : String}
    (hactive : m.getActivePolicy tenant appID = .ok q) (quote : String → String) :
    ∃ d, packDiff parseJson quote m tenant appID p = .ok d ∧ d.changes = [] := by
  obtain ⟨current, candidate, hcurrent, hcandidate, hsame⟩ := sameShape_stored h hp quote
  refine ⟨_, ?_, (diffPolicy_eq_nil_iff p.id current candidate).mpr hsame⟩
  unfold packDiff
  rw [hactive]
  dsimp only
  rw [hcurrent, hcandidate]
  rfl

end stored

/-! ## Bulk apply -/

variable {flags : BulkFlags} {m₁ : MemStore}

section apply

variable {parse : String → Option Json} {quote : String → String} {m : MemStore}
  {tenant appID : String} {pack : PolicyPack}

theorem bulkApplyOne_unchanged {d : PackDiff}
    (hd : packDiff parse quote m tenant appID pack = .ok d) (hnil : d.changes = [])
    (hforce : flags.force = false) (name id : String) (now : Int64) :
    bulkApplyOne parse quote m tenant appID name pack flags id now =
      (⟨tenant, .unchanged, 0, "", ""⟩, m) := by
  unfold bulkApplyOne
  rw [hd]
  dsimp only
  rw [hforce, PackDiff.hasChanges, hnil]
  rfl

theorem bulkApplyOne_cases {name : String} {id : String} {now : Int64} {r : BulkResult}
    (h : bulkApplyOne parse quote m tenant appID name pack flags id now = (r, m₁)) :
    (r.status = .unchanged →
      ∃ d, packDiff parse quote m tenant appID pack = .ok d ∧ d.changes = [] ∧ m₁ = m) ∧
    (r.status = .activated →
      ∃ req p m' p', pack.createRequest parse quote tenant name appID = .ok req ∧
        m.createPolicy req id now = .ok (p, m') ∧
        m'.activatePolicy tenant p.id now = .ok (p', m₁)) := by
  have hr := congrArg Prod.fst h
  have hm := congrArg Prod.snd h
  dsimp only at hr hm
  rw [← hr, ← hm]
  unfold bulkApplyOne
  cases hd : packDiff parse quote m tenant appID pack with
  | error e => simp
  | ok d =>
    dsimp only
    split
    · next hskip =>
      rw [Bool.and_eq_true, PackDiff.hasChanges] at hskip
      simpa using hskip.2
    · split
      · simp
      · cases hreq : pack.createRequest parse quote tenant name appID with
        | error e => simp
        | ok req =>
          dsimp only
          cases hcreate : m.createPolicy req id now with
          | error e => simp
          | ok r =>
            dsimp only
            split
            · cases hact : r.2.activatePolicy tenant r.1.id now with
              | error e => simp
              | ok r' =>
                exact ⟨fun h => BulkStatus.noConfusion h,
                  fun _ => ⟨req, _, _, r'.1, rfl, hcreate, hact⟩⟩
            · simp

theorem packDiff_congr {m' : MemStore}
    (h : m'.getActivePolicy tenant appID = m.getActivePolicy tenant appID)
    (parse : String → Option Json) (quote : String → String) (pack : PolicyPack) :
    packDiff parse quote m' tenant appID pack = packDiff parse quote m tenant appID pack := by
  unfold packDiff
  rw [h]

end apply

section twice

variable {quote : String → String} {pack : PolicyPack} {rs : List PolicyRequest} {m : MemStore}
  {tenant name appID id : String} {now : Int64}

theorem getActivePolicy_created {req : CreatePolicyInput} {p p' : Policy} {m₂ : MemStore}
    (hcreate : m.createPolicy req id now = .ok (p, m₁))
    (hact : m₁.activatePolicy tenant p.id now = .ok (p', m₂)) (happ : p.appId = appID) :
    m₂.getActivePolicy tenant appID = .ok { p with isActive := true, updatedAt := now } := by
  have hlook : m₁.policies.lookup p.id = some p := by
    obtain ⟨-, ⟨⟩⟩ := guard_ok hcreate
    exact AList.lookup_insert _
  obtain ⟨target, htarget, htenant, rfl⟩ := activatePolicy_eq_ok hact
  rw [hlook] at htarget
  cases htarget
  rw [getActivePolicy_eq_ok_iff, MemStore.active, activeAt_activated hlook,
    if_pos ⟨htenant, happ⟩, Option.some_or]

theorem packDiff_after (hp : pack.Valid) (hu : pack.Unambiguous) (hm : Reached rs m)
    (hfresh : m.policies.lookup id = none) {first : BulkResult}
    (hfirst : bulkApplyOne parseJson quote m tenant appID name pack flags id now = (first, m₁))
    (hstatus : first.status = .activated ∨ first.status = .unchanged) :
    (∃ rs', Reached rs' m₁) ∧
      ∃ d, packDiff parseJson quote m₁ tenant appID pack = .ok d ∧ d.changes = [] := by
  obtain ⟨hunchanged, hactivated⟩ := bulkApplyOne_cases hfirst
  rcases hstatus with hstatus | hstatus
  · obtain ⟨req, q, m', p', hreq, hcreate, hact⟩ := hactivated hstatus
    obtain ⟨hstored, happ⟩ := hp.stored hreq hcreate
    constructor
    · have hreached := (hm.create req id now hfresh).activate tenant q.id now
      rw [MemStore.handle, MemStore.handle, hcreate, hact] at hreached
      exact ⟨_, hreached⟩
    · -- Being active does not show in the shape.
      have hstored' : Stored pack { q with isActive := true, updatedAt := now } :=
        ⟨hstored.mode, hstored.rules, hstored.riskThresholds, hstored.modulesEnabled⟩
      exact packDiff_stored hstored' hu (getActivePolicy_created hcreate hact happ) quote
  · obtain ⟨d, hd, hnil, rfl⟩ := hunchanged hstatus
    exact ⟨⟨rs, hm⟩, d, hd, hnil⟩

/-- **The policy stored for a pack does not differ from it, and a second bulk apply skips the tenant**
if the first one activated the policy or skipped as well. -/
theorem second_apply_skips (hvalid : pack.validate quote = []) (hdistinct : pack.NoAliases)
    (hm : Reached rs m) (htenant : tenant ≠ "") (hname : name ≠ "") (appID : String)
    (hfresh : m.policies.lookup id = none) (now : Int64) :
    (∃ req q m' current candidate,
      pack.createRequest parseJson quote tenant name appID = .ok req ∧
      m.createPolicy req id now = .ok (q, m') ∧
      shapeFromPolicy parseJson (some q) = .ok current ∧ pack.shape quote = .ok candidate ∧
      (diffPolicy pack.id current candidate).changes = []) ∧
    ∀ flags first m₁,
      bulkApplyOne parseJson quote m tenant appID name pack flags id now = (first, m₁) →
      first.status = .activated ∨ first.status = .unchanged →
      ∀ m₂, m₁.Reordered m₂ → ∀ flags' : BulkFlags, flags'.force = false → ∀ name' id' now',
        bulkApplyOne parseJson quote m₂ tenant appID name' pack flags' id' now' =
          (⟨tenant, .unchanged, 0, "", ""⟩, m₂) := by
  have hp := validate_eq_nil_iff.mp hvalid
  have hu := hdistinct.unambiguous hp
  constructor
  · obtain ⟨mode, hmode⟩ := hp.mode
    obtain ⟨q, m', hcreate, hstored, -⟩ := createPolicy_stored hmode htenant hname appID m id now
    obtain ⟨current, candidate, hcurrent, hcandidate, hsame⟩ := sameShape_stored hstored hu quote
    exact ⟨_, q, m', current, candidate, hp.createRequest hname hmode quote tenant appID, hcreate,
      hcurrent, hcandidate, (diffPolicy_eq_nil_iff pack.id current candidate).mpr hsame⟩
  · intro flags first m₁ hfirst hstatus m₂ horder flags' hforce name' id' now'
    obtain ⟨⟨rs', hreached⟩, d, hd, hnil⟩ :=
      packDiff_after hp hu hm hfresh hfirst hstatus
    have hsame := packDiff_congr (hreached.getActivePolicy_reordered horder tenant appID) parseJson
      quote pack
    exact bulkApplyOne_unchanged (hsame.trans hd) hnil hforce name' id' now'

end twice

def blockPack : PolicyPack where
  id := "bank"
  name := "Bank"
  enforcementMode := "block"
  modulesEnabled := ["root"]
  riskThresholds := AList.singleton "HIGH_RISK" 60
  signalWeights := AList.singleton "5" 40

theorem blockPack_noAliases : blockPack.NoAliases := ⟨by decide +kernel, by decide +kernel⟩

def noStore : MemStore := ⟨∅, ∅, ∅, ∅⟩

def firstApply (activate : Bool) : BulkResult × MemStore :=
  bulkApplyOne parseJson id noStore "t" "" "pack-bank" blockPack ⟨activate, false, false⟩ "p1" 100

def secondApply (activate : Bool) : BulkResult × MemStore :=
  bulkApplyOne parseJson id (firstApply activate).2 "t" "" "pack-bank" blockPack
    ⟨activate, false, false⟩ "p2" 200

theorem second_apply_skips_activated : (firstApply true).1.status = .activated ∧
    secondApply true = (⟨"t", .unchanged, 0, "", ""⟩, (firstApply true).2) := by
  have hstatus : (firstApply true).1.status = .activated := by decide +kernel
  have hvalid : blockPack.validate id = [] := by decide +kernel
  have hnew : noStore.policies.lookup "p1" = none := rfl
  have hall := (second_apply_skips hvalid blockPack_noAliases (Reached.start rfl)
    (show "t" ≠ "" by decide) (show "pack-bank" ≠ "" by decide) "" hnew 100).2
  have hsecond := hall ⟨true, false, false⟩ (firstApply true).1 (firstApply true).2 rfl
    (.inl hstatus) (firstApply true).2 ⟨_, .refl _, rfl⟩ ⟨true, false, false⟩ rfl
  exact ⟨hstatus, hsecond "pack-bank" "p2" 200⟩

theorem second_apply_repeats : blockPack.validate id = [] ∧ blockPack.NoAliases ∧
    (firstApply false).1.status = .applied ∧ (secondApply false).1.status = .applied ∧
    (secondApply false).2.policies.keys = ["p2", "p1"] :=
  ⟨by decide +kernel, blockPack_noAliases, by decide +kernel, by decide +kernel, by decide +kernel⟩

end Kseal.Cli
