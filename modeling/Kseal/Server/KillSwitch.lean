import Kseal.Infra.Framing
import Kseal.Server.Compliance

/-!
# Issuing and resolving kill switches (`control-plane/compliance/killswitch.go`, `mem.go`)

* `resolveEffective_unique` — the switch in effect does not depend on the order of the list, as long
  as a scope has one switch
-/

namespace Kseal.Compliance

open Infra Wire List

/-! ## Issuing -/

def killSwitchDomain : Bytes := ascii "kseal/v1/kill-switch"

def killSwitchPreimage (ks : SignedKillSwitch) : Bytes :=
  lp killSwitchDomain ++ lp (utf8 ks.tenantId) ++ lp (utf8 ks.appId) ++ lp (utf8 ks.buildHash) ++
    i64Be ks.command.toInt32.toInt64 ++ i64Be ks.version ++ i64Be ks.issuedAt ++ lp (utf8 ks.reason)

def signKillSwitch (sign : Bytes → Bytes → Bytes) (priv : Bytes) (ks : SignedKillSwitch) :
    SignedKillSwitch :=
  { ks with signature := sign priv (killSwitchPreimage ks) }

structure KillSwitchInput where
  tenantID : String
  appID : String
  buildHash : String
  command : KillSwitchCommand
  reason : String

def nextKillVersion (prev : Option SignedKillSwitch) : Int64 :=
  match prev with
  | some prev => prev.version + 1
  | none => 1

def MemStore.issueKillSwitch (sign : Bytes → Bytes → Bytes) (s : MemStore) (sk : Registry.SigningKey)
    (input : KillSwitchInput) (now : Int64) : Except StoreError (SignedKillSwitch × MemStore) :=
  if input.tenantID = "" then .error (.invalidInput "tenant_id required")
  else if input.command = .unspecified then .error (.invalidInput "command required")
  else
    let key := scopeKey input.tenantID input.appID input.buildHash
    let ks := signKillSwitch sign sk.privateKey
      { tenantId := input.tenantID
        appId := input.appID
        buildHash := input.buildHash
        command := input.command
        version := nextKillVersion (s.killSw.lookup key)
        issuedAt := now
        reason := input.reason
        signature := []
        keyId := sk.id }
    .ok (ks, { s with killSw := s.killSw.insert key ks })

structure Genuine (sign : Bytes → Bytes → Bytes) (sk : Registry.SigningKey) (tenantID : String)
    (ks : SignedKillSwitch) : Prop where
  tenant : ks.tenantId = tenantID
  signature : ks.signature = sign sk.privateKey (killSwitchPreimage ks)

/-- **A request stores a signed switch under the key of its scope.** -/
theorem issueKillSwitch_eq_ok {sign : Bytes → Bytes → Bytes} {s s' : MemStore}
    {sk : Registry.SigningKey} {input : KillSwitchInput} {now : Int64} {ks : SignedKillSwitch}
    (h : s.issueKillSwitch sign sk input now = .ok (ks, s')) :
    s' = { s with killSw := s.killSw.insert (scopeKey ks.tenantId ks.appId ks.buildHash) ks } ∧
      Genuine sign sk input.tenantID ks ∧ ks.appId = input.appID ∧ ks.buildHash = input.buildHash ∧
      ks.version =
        nextKillVersion (s.killSw.lookup (scopeKey ks.tenantId ks.appId ks.buildHash)) := by
  obtain ⟨-, h⟩ := guard_ok h
  obtain ⟨-, ⟨⟩⟩ := guard_ok h
  exact ⟨rfl, ⟨rfl, rfl⟩, rfl, rfl, rfl⟩

theorem toList_scopeKey (tenantID appID buildHash : String) :
    (scopeKey tenantID appID buildHash).toList =
      tenantID.toList ++ '\x00' :: (appID.toList ++ '\x00' :: buildHash.toList) := by
  simp [scopeKey]

theorem le_nextKillVersion {prev : SignedKillSwitch} (h : prev.version ≠ Int64.maxValue) :
    prev.version ≤ nextKillVersion (some prev) := by
  show prev.version ≤ prev.version + 1
  have hne : prev.version.toInt ≠ Int64.maxValue.toInt := fun heq => h (Int64.toInt_inj.mp heq)
  have hmax : Int64.maxValue.toInt = 2 ^ 63 - 1 := by decide
  have hone : (1 : Int64).toInt = 1 := by decide
  have hlt := Int64.toInt_lt prev.version
  have hle := Int64.le_toInt prev.version
  rw [Int64.le_iff_toInt_le, Int64.toInt_add, Int.bmod_eq_of_le] <;> omega

theorem mem_listKillSwitches {s : MemStore} {tenantID : String} {switches : List SignedKillSwitch}
    {ks : SignedKillSwitch} (h : s.listKillSwitches tenantID = .ok switches) :
    ks ∈ switches ↔ ks.tenantId = tenantID ∧ ∃ key, s.killSw.lookup key = some ks := by
  obtain ⟨-, ⟨⟩⟩ := guard_ok h
  simp [GoMap.mem_pairs, and_comm]

/-! ## The switch in effect -/

structure IsEffective (switches : List SignedKillSwitch) (q : KillSwitchScope)
    (ks : SignedKillSwitch) : Prop where
  mem : ks ∈ switches
  matches_ : KillSwitchScope.matches ⟨ks.appId, ks.buildHash⟩ q = true
  most : ∀ ks' ∈ switches, KillSwitchScope.matches ⟨ks'.appId, ks'.buildHash⟩ q = true →
    KillSwitchScope.specificity ⟨ks'.appId, ks'.buildHash⟩ ≤
      KillSwitchScope.specificity ⟨ks.appId, ks.buildHash⟩

def Chosen (q : KillSwitchScope) (switches : List SignedKillSwitch) :
    Option SignedKillSwitch → Prop
  | none => ∀ ks ∈ switches, KillSwitchScope.matches ⟨ks.appId, ks.buildHash⟩ q = false
  | some ks => IsEffective switches q ks

def rankOf : Option SignedKillSwitch → Int
  | none => -1
  | some ks => KillSwitchScope.specificity ⟨ks.appId, ks.buildHash⟩

theorem specificity_nonneg (s : KillSwitchScope) : 0 ≤ s.specificity := by
  unfold KillSwitchScope.specificity
  split <;> split <;> omega

section chosen

variable {q : KillSwitchScope} {seen : List SignedKillSwitch} {best : Option SignedKillSwitch}
  {ks : SignedKillSwitch}

theorem Chosen.skip (h : Chosen q seen best)
    (hks : KillSwitchScope.matches ⟨ks.appId, ks.buildHash⟩ q = false) :
    Chosen q (seen ++ [ks]) best := by
  cases best with
  | none =>
    intro ks' hks'
    rcases mem_append.mp hks' with hks' | hks'
    · exact h ks' hks'
    · rw [mem_singleton.mp hks']
      exact hks
  | some b =>
    refine ⟨mem_append_left _ h.mem, h.matches_, ?_⟩
    intro ks' hks' hmatch
    rcases mem_append.mp hks' with hks' | hks'
    · exact h.most ks' hks' hmatch
    · rw [mem_singleton.mp hks', hks] at hmatch
      cases hmatch

theorem Chosen.keep (h : Chosen q seen best)
    (hrank : KillSwitchScope.specificity ⟨ks.appId, ks.buildHash⟩ ≤ rankOf best) :
    Chosen q (seen ++ [ks]) best := by
  cases best with
  | none =>
    have hnonneg := specificity_nonneg ⟨ks.appId, ks.buildHash⟩
    have hneg : KillSwitchScope.specificity ⟨ks.appId, ks.buildHash⟩ ≤ -1 := hrank
    omega
  | some b =>
    refine ⟨mem_append_left _ h.mem, h.matches_, ?_⟩
    intro ks' hks' hmatch
    rcases mem_append.mp hks' with hks' | hks'
    · exact h.most ks' hks' hmatch
    · rw [mem_singleton.mp hks']
      exact hrank

theorem Chosen.take (h : Chosen q seen best)
    (hks : KillSwitchScope.matches ⟨ks.appId, ks.buildHash⟩ q = true)
    (hrank : rankOf best < KillSwitchScope.specificity ⟨ks.appId, ks.buildHash⟩) :
    Chosen q (seen ++ [ks]) (some ks) := by
  refine ⟨mem_append_right _ mem_cons_self, hks, ?_⟩
  intro ks' hks' hmatch
  rcases mem_append.mp hks' with hks' | hks'
  · cases best with
    | none =>
      rw [h ks' hks'] at hmatch
      cases hmatch
    | some b => exact Int.le_of_lt (Int.lt_of_le_of_lt (h.most ks' hks' hmatch) hrank)
  · obtain rfl := mem_singleton.mp hks'
    exact Int.le_refl _

theorem chosen_effectiveLoop (rest : List SignedKillSwitch) (h : Chosen q seen best) :
    Chosen q (seen ++ rest) (effectiveLoop q best (rankOf best) rest) := by
  induction rest generalizing seen best with
  | nil => simpa [effectiveLoop] using h
  | cons ks rest ih =>
    have happend : seen ++ ks :: rest = seen ++ [ks] ++ rest := by simp
    rw [effectiveLoop, happend]
    cases hks : KillSwitchScope.matches ⟨ks.appId, ks.buildHash⟩ q with
    | false => exact ih (h.skip hks)
    | true =>
      rw [Bool.not_true, if_neg Bool.false_ne_true]
      split
      · next hrank => exact ih (h.take hks hrank)
      · next hrank => exact ih (h.keep (Int.not_lt.mp hrank))

theorem chosen_resolveEffective (q : KillSwitchScope) (switches : List SignedKillSwitch) :
    Chosen q switches (resolveEffective switches q) := by
  have hnil : Chosen q [] none := by
    intro ks hks
    cases hks
  exact chosen_effectiveLoop switches hnil

end chosen

theorem matches_iff {s q : KillSwitchScope} :
    s.matches q = true ↔ (s.appID = "" ∨ s.appID = q.appID) ∧
      (s.buildHash = "" ∨ s.buildHash = q.buildHash) := by
  unfold KillSwitchScope.matches
  split
  · next happ => simp [happ.1, happ.2]
  · next happ =>
    split
    · next hbuild => simp [hbuild.1, hbuild.2]
    · next hbuild =>
      refine iff_of_true rfl ⟨?_, ?_⟩
      · tauto
      · tauto

theorem scope_eq_of_specificity {s s' q : KillSwitchScope} (hs : s.matches q = true)
    (hs' : s'.matches q = true) (h : s.specificity = s'.specificity) :
    s.appID = s'.appID ∧ s.buildHash = s'.buildHash := by
  obtain ⟨happ, hbuild⟩ := matches_iff.mp hs
  obtain ⟨happ', hbuild'⟩ := matches_iff.mp hs'
  have hempty : (s.appID = "" ↔ s'.appID = "") ∧ (s.buildHash = "" ↔ s'.buildHash = "") := by
    unfold KillSwitchScope.specificity at h
    by_cases h1 : s.appID = "" <;> by_cases h2 : s'.appID = "" <;>
      by_cases h3 : s.buildHash = "" <;> by_cases h4 : s'.buildHash = "" <;>
        simp [h1, h2, h3, h4] at h ⊢
  constructor
  · by_cases hnil : s.appID = ""
    · rw [hnil, hempty.1.mp hnil]
    · rw [happ.resolve_left hnil, happ'.resolve_left fun hnil' => hnil (hempty.1.mpr hnil')]
  · by_cases hnil : s.buildHash = ""
    · rw [hnil, hempty.2.mp hnil]
    · rw [hbuild.resolve_left hnil, hbuild'.resolve_left fun hnil' => hnil (hempty.2.mpr hnil')]

/-- **The switch in effect does not depend on the order of the list.** -/
theorem resolveEffective_unique {q : KillSwitchScope} {switches switches' : List SignedKillSwitch}
    (hmem : ∀ ks : SignedKillSwitch, KillSwitchScope.matches ⟨ks.appId, ks.buildHash⟩ q = true →
      (ks ∈ switches ↔ ks ∈ switches'))
    (hone : ∀ ks ∈ switches, ∀ ks' ∈ switches,
      ks.appId = ks'.appId → ks.buildHash = ks'.buildHash → ks = ks') :
    resolveEffective switches q = resolveEffective switches' q := by
  have h := chosen_resolveEffective q switches
  have h' := chosen_resolveEffective q switches'
  cases hks : resolveEffective switches q with
  | none =>
    rw [hks] at h
    cases hks' : resolveEffective switches' q with
    | none => rfl
    | some ks' =>
      rw [hks'] at h'
      have hmatch := h'.matches_
      rw [h ks' ((hmem ks' hmatch).mpr h'.mem)] at hmatch
      cases hmatch
  | some ks =>
    rw [hks] at h
    have hmatch := h.matches_
    have hmem' := (hmem ks hmatch).mp h.mem
    cases hks' : resolveEffective switches' q with
    | none =>
      rw [hks'] at h'
      rw [h' ks hmem'] at hmatch
      cases hmatch
    | some ks' =>
      rw [hks'] at h'
      have hmatch' := h'.matches_
      have hmem'' := (hmem ks' hmatch').mpr h'.mem
      obtain ⟨happ, hbuild⟩ := scope_eq_of_specificity hmatch hmatch'
        (Int.le_antisymm (h'.most ks hmem' hmatch) (h.most ks' hmem'' hmatch'))
      rw [hone ks h.mem ks' hmem'' happ hbuild]

end Kseal.Compliance
