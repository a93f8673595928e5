import Kseal.Wire.Messages

/-!
# The registry (`control-plane/registry/mem.go`)

The store of apps, policies, signing keys and trust sessions. Ids and the time, which the code
draws from outside, are arguments.

* `activeAt_activated` — which policy is active after an activation
-/

namespace Kseal.Registry

open Infra Wire List GoMap

inductive StoreError where
  | notFound
  | invalidInput (reason : String)
  | replay
deriving Repr, DecidableEq

def StoreError.message : StoreError → String
  | .notFound => "registry: not found"
  | .invalidInput reason => "registry: invalid input: " ++ reason
  | .replay => "registry: sequence replay"

structure App where
  id : String
  tenantId : String
  packageId : String

structure SigningKey where
  id : String
  tenantId : String
  algorithm : String
  publicKey : Bytes
  privateKey : Bytes
  isActive : Bool
  createdAt : Int64

inductive SessionStatus where
  | active
  | revoked
  | failed
deriving Repr, DecidableEq

structure TrustSession where
  tokenID : String
  tenantID : String
  appID : String
  buildHash : String
  instanceID : String
  policyHash : String
  riskLevel : TrustLevel
  capabilityScope : List String
  sessionSecret : Bytes
  lastSequence : Int64
  status : SessionStatus
  issuedAt : Int64
  expiresAt : Int64

structure MemStore where
  apps : GoMap String App
  policies : GoMap String Policy
  signing : GoMap String SigningKey
  sessions : GoMap String TrustSession

def MemStore.getApp (m : MemStore) (tenantID id : String) : Except StoreError App :=
  match m.apps.lookup id with
  | some a => if a.tenantId ≠ tenantID then .error .notFound else .ok a
  | none => .error .notFound

/-! ## Policies -/

def modeString : EnforcementMode → String
  | .unspecified => "ENFORCEMENT_MODE_UNSPECIFIED"
  | .observe => "ENFORCEMENT_MODE_OBSERVE"
  | .stepUp => "ENFORCEMENT_MODE_STEP_UP"
  | .block => "ENFORCEMENT_MODE_BLOCK"
  | .unrecognized n => toString n.toInt

theorem nul_notMem_modeString (mode : EnforcementMode) : '\x00' ∉ (modeString mode).toList := by
  cases mode with
  | unrecognized n => exact notMem_repr (by decide) (by decide) _
  | _ => decide

theorem modeString_injective {mode mode' : EnforcementMode} (h : modeString mode = modeString mode') :
    mode = mode' := by
  -- The names have an `E`, numbers do not.
  have hnumber : ∀ n : Int32, 'E' ∉ (modeString (.unrecognized n)).toList :=
    fun n => notMem_repr (by decide) (by decide) _
  cases mode with
  | unrecognized n =>
    have hmem := hnumber n
    rw [h] at hmem
    cases mode' with
    | unrecognized n' => rw [Int32.toInt_inj.mp (repr_injective h)]
    | _ => exact absurd (by decide) hmem
  | _ =>
    cases mode' with
    | unrecognized n' =>
      have hmem := hnumber n'
      rw [← h] at hmem
      exact absurd (by decide) hmem
    | _ => first | rfl | exact absurd h (by decide)

def hashPolicy (sha256 : Bytes → Bytes) (appID : String) (mode : EnforcementMode)
    (rules thresholds : String) (modules : List String) : String :=
  let mods := modules.mergeSort fun a b => decide (a ≤ b)
  hexEncode (sha256 (utf8 appID ++ [0] ++ utf8 (modeString mode) ++ [0] ++ utf8 rules ++ [0] ++
    utf8 thresholds ++ [0] ++ utf8 (",".intercalate mods)))

structure CreatePolicyInput where
  tenantID : String
  appID : String
  name : String
  enforcementMode : EnforcementMode
  rules : String
  riskThresholds : String
  modulesEnabled : List String

def defaultJSON (s dflt : String) : String := if s.toList.all isSpace then dflt else s

def nextVersion (policies : GoMap String Policy) (tenantID appID : String) : Int32 :=
  policies.pairs.foldl (fun version e =>
    if e.2.tenantId = tenantID ∧ e.2.appId = appID ∧ e.2.version ≥ version then e.2.version + 1
    else version) 1

def MemStore.createPolicy (m : MemStore) (input : CreatePolicyInput) (id : String) (now : Int64) :
    Except StoreError (Policy × MemStore) :=
  if input.tenantID = "" ∨ input.name = "" then
    .error (.invalidInput "tenant_id and name required")
  else
    let p : Policy :=
      { id := id
        tenantId := input.tenantID
        appId := input.appID
        name := input.name
        version := nextVersion m.policies input.tenantID input.appID
        enforcementMode := input.enforcementMode
        rules := defaultJSON input.rules "[]"
        riskThresholds := defaultJSON input.riskThresholds "\x7b\x7d"
        modulesEnabled := input.modulesEnabled
        isActive := false
        createdAt := now
        updatedAt := now }
    .ok (p, { m with policies := m.policies.insert id p })

def activeLoop (tenantID appID : String) :
    Option Policy → Option Policy → List (String × Policy) → Option Policy × Option Policy
  | appScoped, tenantWide, [] => (appScoped, tenantWide)
  | appScoped, tenantWide, (_, p) :: rest =>
    if p.tenantId ≠ tenantID ∨ p.isActive = false then
      activeLoop tenantID appID appScoped tenantWide rest
    else if p.appId = appID then activeLoop tenantID appID (some p) tenantWide rest
    else if p.appId = "" then activeLoop tenantID appID appScoped (some p) rest
    else activeLoop tenantID appID appScoped tenantWide rest

def MemStore.getActivePolicy (m : MemStore) (tenantID appID : String) : Except StoreError Policy :=
  match activeLoop tenantID appID none none m.policies.pairs with
  | (some appScoped, _) => .ok appScoped
  | (none, some tenantWide) => .ok tenantWide
  | (none, none) => .error .notFound

def MemStore.getPolicy (m : MemStore) (tenantID id : String) : Except StoreError Policy :=
  match m.policies.lookup id with
  | some p => if p.tenantId ≠ tenantID then .error .notFound else .ok p
  | none => .error .notFound

def MemStore.activatePolicy (m : MemStore) (tenantID id : String) (now : Int64) :
    Except StoreError (Policy × MemStore) :=
  match m.policies.lookup id with
  | some target =>
    if target.tenantId ≠ tenantID then .error .notFound
    else
      let cleared := m.policies.mapValues fun _ p =>
        if p.tenantId = tenantID ∧ p.appId = target.appId ∧ p.isActive = true then
          { p with isActive := false, updatedAt := now }
        else p
      let target := { target with isActive := true, updatedAt := now }
      .ok (target, { m with policies := cleared.mapValues fun key p => if key = id then target else p })
  | none => .error .notFound

/-! ### Which policy is active -/

def activeAt (tenantID appID : String) (p : Policy) : Bool :=
  decide (p.tenantId = tenantID ∧ p.isActive = true ∧ p.appId = appID)

def tenantWide (tenantID appID : String) (p : Policy) : Bool :=
  activeAt tenantID "" p && decide (appID ≠ "")

theorem activeLoop_eq (tenantID appID : String) (x y : Option Policy)
    (es : List (String × Policy)) :
    activeLoop tenantID appID x y es =
      ((lastOf (activeAt tenantID appID) es).or x, (lastOf (tenantWide tenantID appID) es).or y) := by
  induction es generalizing x y with
  | nil => rfl
  | cons e es ih =>
    obtain ⟨key, p⟩ := e
    rw [activeLoop, lastOf_cons, lastOf_cons]
    by_cases hskip : p.tenantId ≠ tenantID ∨ p.isActive = false
    · have hout : ∀ a, activeAt tenantID a p = false := by
        intro a
        refine decide_eq_false ?_
        rintro ⟨ht, ha, -⟩
        exact hskip.elim (fun hne => hne ht) (fun hf => by rw [ha] at hf; cases hf)
      rw [if_pos hskip, ih]
      simp [tenantWide, hout]
    · rw [if_neg hskip]
      rw [not_or, not_not] at hskip
      have hat : ∀ a, activeAt tenantID a p = decide (p.appId = a) := by
        simp [activeAt, hskip]
      by_cases happ : p.appId = appID
      · rw [ih]
        by_cases hempty : appID = "" <;> simp [tenantWide, hat, happ]
      · rw [if_neg happ]
        by_cases hempty : p.appId = ""
        · have hne : appID ≠ "" := fun h => happ (hempty.trans h.symm)
          rw [ih]
          simp [tenantWide, hat, hempty, hne]
        · rw [if_neg hempty, ih]
          simp [tenantWide, hat, happ, hempty]

def MemStore.activeAt (m : MemStore) (tenantID appID : String) : Option Policy :=
  lastOf (Registry.activeAt tenantID appID) m.policies.pairs

def MemStore.active (m : MemStore) (tenantID appID : String) : Option Policy :=
  (m.activeAt tenantID appID).or (m.activeAt tenantID "")

variable {tenantID appID : String} {p : Policy}

/-- **The policy that is found is the app's, or else the tenant's.** -/
theorem getActivePolicy_eq_ok_iff {m : MemStore} :
    m.getActivePolicy tenantID appID = .ok p ↔ m.active tenantID appID = some p := by
  unfold MemStore.getActivePolicy MemStore.active MemStore.activeAt
  rw [activeLoop_eq]
  by_cases hempty : appID = ""
  · -- The loop then never looks for a policy of the tenant.
    have hwide : lastOf (tenantWide tenantID appID) m.policies.pairs = none :=
      lastOf_eq_none fun e _ => by simp [tenantWide, hempty]
    rw [hwide, hempty]
    cases lastOf (Registry.activeAt tenantID "") m.policies.pairs with
    | some q => simp
    | none => simp
  · have hwide : tenantWide tenantID appID = Registry.activeAt tenantID "" := by
      funext q
      simp [tenantWide, hempty]
    rw [hwide]
    cases lastOf (Registry.activeAt tenantID appID) m.policies.pairs with
    | some q => simp
    | none =>
      cases lastOf (Registry.activeAt tenantID "") m.policies.pairs with
      | some q => simp
      | none => simp

theorem active_eq_none {m : MemStore} {e : StoreError}
    (h : m.getActivePolicy tenantID appID = .error e) : m.active tenantID appID = none := by
  cases hp : m.active tenantID appID with
  | none => rfl
  | some p =>
    rw [getActivePolicy_eq_ok_iff.mpr hp] at h
    cases h

theorem toOption_getActivePolicy (m : MemStore) (tenantID appID : String) :
    (m.getActivePolicy tenantID appID).toOption = m.active tenantID appID := by
  cases h : m.getActivePolicy tenantID appID with
  | ok p => exact (getActivePolicy_eq_ok_iff.mp h).symm
  | error e => exact (active_eq_none h).symm

/-! ### What the requests do -/

variable {m' : MemStore} {input : CreatePolicyInput}

theorem activeAt_createPolicy {m : MemStore} {id : String} {now : Int64}
    (h : m.createPolicy input id now = .ok (p, m')) (hfresh : m.policies.lookup id = none)
    (tenantID appID : String) :
    m'.activeAt tenantID appID = m.activeAt tenantID appID := by
  obtain ⟨-, ⟨⟩⟩ := guard_ok h
  unfold MemStore.activeAt
  rw [pairs_insert hfresh, lastOf_cons, if_neg (by simp [Registry.activeAt]),
    Option.or_none]

theorem apps_createPolicy {m : MemStore} {id : String} {now : Int64}
    (h : m.createPolicy input id now = .ok (p, m')) : m'.apps = m.apps := by
  obtain ⟨-, ⟨⟩⟩ := guard_ok h
  rfl

theorem getPolicy_createPolicy {m : MemStore} {id : String} {now : Int64}
    (h : m.createPolicy input id now = .ok (p, m')) (tenantID : String) {id' : String}
    (hne : id' ≠ id) : m'.getPolicy tenantID id' = m.getPolicy tenantID id' := by
  obtain ⟨-, ⟨⟩⟩ := guard_ok h
  unfold MemStore.getPolicy
  rw [AList.lookup_insert_ne hne]

def activated (target : Policy) (id : String) (now : Int64) (key : String) (p : Policy) : Policy :=
  if key = id then { target with isActive := true, updatedAt := now }
  else if p.tenantId = target.tenantId ∧ p.appId = target.appId ∧ p.isActive = true then
    { p with isActive := false, updatedAt := now }
  else p

def MemStore.withActive (m : MemStore) (target : Policy) (id : String) (now : Int64) : MemStore :=
  { m with policies := m.policies.mapValues (activated target id now) }

theorem activatePolicy_eq_ok {m : MemStore} {id : String} {now : Int64}
    (h : m.activatePolicy tenantID id now = .ok (p, m')) :
    ∃ target, m.policies.lookup id = some target ∧ target.tenantId = tenantID ∧
      m' = m.withActive target id now := by
  unfold MemStore.activatePolicy at h
  split at h
  · next target hlook =>
    obtain ⟨ht, h⟩ := guard_ok h
    rw [not_not] at ht
    cases h
    refine ⟨target, hlook, ht, ?_⟩
    rw [mapValues_mapValues]
    congr 2
    unfold activated
    rw [ht]
  · cases h

section activated

variable {m : MemStore} {target : Policy} {id : String} {now : Int64}

theorem activated_eq (hlook : m.policies.lookup id = some target) {key : String}
    (hp : m.policies.lookup key = some p) :
    ∃ isActive updatedAt,
      activated target id now key p = { p with isActive := isActive, updatedAt := updatedAt } := by
  unfold activated
  split
  · next hkey =>
    rw [hkey, hlook] at hp
    cases hp
    exact ⟨_, _, rfl⟩
  · split
    · exact ⟨_, _, rfl⟩
    · exact ⟨p.isActive, p.updatedAt, rfl⟩

theorem getPolicy_activated {β : Type} (hlook : m.policies.lookup id = some target)
    {f : Policy → β}
    (hf : ∀ p isActive updatedAt, f { p with isActive := isActive, updatedAt := updatedAt } = f p)
    (tenantID key : String) :
    ((m.withActive target id now).getPolicy tenantID key).toOption.map f =
      (m.getPolicy tenantID key).toOption.map f := by
  unfold MemStore.getPolicy MemStore.withActive
  rw [lookup_mapValues]
  cases hp : m.policies.lookup key with
  | none => rfl
  | some p =>
    obtain ⟨isActive, updatedAt, heq⟩ := activated_eq hlook hp
    rw [Option.map_some, heq]
    dsimp only
    split
    · rfl
    · exact congrArg some (hf p isActive updatedAt)

/-- **In its own scope the target is the active policy, in the others nothing changes.** -/
theorem activeAt_activated (hlook : m.policies.lookup id = some target) (tenantID appID : String) :
    (m.withActive target id now).activeAt tenantID appID =
      if target.tenantId = tenantID ∧ target.appId = appID then
        some { target with isActive := true, updatedAt := now }
      else m.activeAt tenantID appID := by
  unfold MemStore.activeAt MemStore.withActive
  rw [pairs_mapValues]
  by_cases hscope : target.tenantId = tenantID ∧ target.appId = appID
  · rw [if_pos hscope]
    obtain ⟨ht, ha⟩ := hscope
    refine lastOf_eq_some ?_ ?_
    · refine ⟨_, mem_map_of_mem (mem_pairs.mpr hlook), ?_⟩
      simp [activated, Registry.activeAt, ht, ha]
    · rintro e he hactive
      obtain ⟨⟨key, p⟩, -, rfl⟩ := mem_map.mp he
      dsimp only at hactive ⊢
      unfold activated at hactive ⊢
      split
      · rfl
      · next hkey =>
        -- Any other active policy of the scope was cleared.
        rw [if_neg hkey] at hactive
        split at hactive
        · simp [Registry.activeAt] at hactive
        · next hout =>
          obtain ⟨hpt, hpa, hpapp⟩ := of_decide_eq_true hactive
          exact absurd ⟨hpt.trans ht.symm, hpapp.trans ha.symm, hpa⟩ hout
  · rw [if_neg hscope]
    have hkeep : ∀ e ∈ m.policies.pairs,
        Registry.activeAt tenantID appID (activated target id now e.1 e.2) =
          Registry.activeAt tenantID appID e.2 ∧
        (Registry.activeAt tenantID appID e.2 = true → activated target id now e.1 e.2 = e.2) := by
      rintro ⟨key, p⟩ he
      have hp : m.policies.lookup key = some p := mem_pairs.mp he
      have hscope' : p.tenantId = target.tenantId → p.appId = target.appId →
          ¬ (p.tenantId = tenantID ∧ p.appId = appID) := by
        rintro ht ha ⟨ht', ha'⟩
        exact hscope ⟨ht.symm.trans ht', ha.symm.trans ha'⟩
      dsimp only
      unfold activated
      split
      · next hkey =>
        rw [hkey, hlook] at hp
        cases hp
        have := hscope' rfl rfl
        grind [Registry.activeAt]
      · split
        · next hclear =>
          have := hscope' hclear.1 hclear.2.1
          grind [Registry.activeAt]
        · exact ⟨rfl, fun _ => rfl⟩
    exact lastOf_map (fun e he => (hkeep e he).1) (fun e he => (hkeep e he).2)

end activated

def MemStore.Keyed (m : MemStore) : Prop :=
  ∀ key p, m.policies.lookup key = some p → p.id = key

/-! ## Signing keys -/

def MemStore.createSigningKey (m : MemStore) (tenantID : String) (pair : Bytes × Bytes)
    (id : String) (now : Int64) : Except StoreError (SigningKey × MemStore) :=
  if tenantID = "" then .error (.invalidInput "tenant_id required")
  else
    let cleared := m.signing.mapValues fun _ k =>
      if k.tenantId = tenantID then { k with isActive := false } else k
    let sk : SigningKey :=
      { id := id
        tenantId := tenantID
        algorithm := "ed25519"
        publicKey := pair.1
        privateKey := pair.2
        isActive := true
        createdAt := now }
    .ok (sk, { m with signing := cleared.insert id sk })

def MemStore.getActiveSigningKey (m : MemStore) (tenantID : String) : Except StoreError SigningKey :=
  match m.signing.pairs.find? fun e => e.2.tenantId = tenantID ∧ e.2.isActive = true with
  | some e => .ok e.2
  | none => .error .notFound

def MemStore.signingKey (m : MemStore) (tenantID : String) (pair : Bytes × Bytes) (id : String)
    (now : Int64) : Except StoreError (SigningKey × MemStore) :=
  match m.getActiveSigningKey tenantID with
  | .error .notFound => m.createSigningKey tenantID pair id now
  | .error e => .error e
  | .ok sk => .ok (sk, m)

theorem signingKey_eq_ok (h : tenantID ≠ "") (m : MemStore) (pair : Bytes × Bytes) (id : String)
    (now : Int64) :
    ∃ sk signing, m.signingKey tenantID pair id now = .ok (sk, { m with signing := signing }) := by
  unfold MemStore.signingKey
  cases hactive : m.getActiveSigningKey tenantID with
  | ok sk => exact ⟨sk, m.signing, rfl⟩
  | error e =>
    have he : e = .notFound := by
      unfold MemStore.getActiveSigningKey at hactive
      split at hactive
      · cases hactive
      · exact (Except.error.inj hactive).symm
    subst he
    unfold MemStore.createSigningKey
    rw [if_neg h]
    exact ⟨_, _, rfl⟩

theorem getActiveSigningKey_of_signingKey {m : MemStore} {id : String} {pair : Bytes × Bytes}
    {now : Int64} {sk : SigningKey} (h : m.signingKey tenantID pair id now = .ok (sk, m')) :
    m'.getActiveSigningKey tenantID = .ok sk := by
  unfold MemStore.signingKey at h
  cases hactive : m.getActiveSigningKey tenantID with
  | ok k =>
    rw [hactive] at h
    cases h
    exact hactive
  | error e =>
    rw [hactive] at h
    cases e with
    | invalidInput | replay => cases h
    | notFound =>
      dsimp only at h
      obtain ⟨-, h⟩ := guard_ok h
      -- The new key is the first entry.
      cases h
      unfold MemStore.getActiveSigningKey pairs
      rw [AList.entries_insert, map_cons, find?_cons_of_pos (by simp)]

/-! ## Trust sessions -/

def MemStore.createTrustSession (m : MemStore) (sess : TrustSession) : Except StoreError MemStore :=
  if sess.tenantID = "" ∨ sess.tokenID = "" then
    .error (.invalidInput "tenant_id and token_id required")
  else
    .ok { m with sessions := m.sessions.insert sess.tokenID { sess with status := .active } }

def MemStore.getTrustSession (m : MemStore) (tenantID tokenID : String) :
    Except StoreError TrustSession :=
  match m.sessions.lookup tokenID with
  | some s => if s.tenantID ≠ tenantID then .error .notFound else .ok s
  | none => .error .notFound

def MemStore.consumeSequence (m : MemStore) (tenantID tokenID : String) (seq : Int64) :
    Except StoreError MemStore :=
  match m.sessions.lookup tokenID with
  | none => .error .notFound
  | some s =>
    if s.tenantID ≠ tenantID ∨ s.status ≠ .active then .error .notFound
    else if seq ≤ s.lastSequence then .error .replay
    else .ok { m with sessions := m.sessions.insert tokenID { s with lastSequence := seq } }

def MemStore.revokeTrustSession (m : MemStore) (tenantID tokenID : String) :
    Except StoreError MemStore :=
  match m.sessions.lookup tokenID with
  | none => .error .notFound
  | some s =>
    if s.tenantID ≠ tenantID then .error .notFound
    else .ok { m with sessions := m.sessions.insert tokenID { s with status := .revoked } }

def MemStore.recordFailedAttestation (m : MemStore) (sess : TrustSession) (tokenID : String) :
    Except StoreError MemStore :=
  if sess.tenantID = "" then .error (.invalidInput "tenant_id required")
  else
    let id := if sess.tokenID = "" then tokenID else sess.tokenID
    .ok { m with
      sessions := m.sessions.insert id
        { sess with tokenID := id, capabilityScope := [], sessionSecret := [], status := .failed } }

variable {tokenID : String}

theorem consumeSequence_eq_ok {m : MemStore} {seq : Int64}
    (h : m.consumeSequence tenantID tokenID seq = .ok m') :
    ∃ sess, m.sessions.lookup tokenID = some sess ∧ sess.tenantID = tenantID ∧
      sess.status = .active ∧ sess.lastSequence < seq ∧
      m' = { m with sessions := m.sessions.insert tokenID { sess with lastSequence := seq } } := by
  unfold MemStore.consumeSequence at h
  split at h
  · cases h
  · next sess hlook =>
    obtain ⟨hok, h⟩ := guard_ok h
    rw [not_or, not_not, not_not] at hok
    obtain ⟨hseq, ⟨⟩⟩ := guard_ok h
    exact ⟨sess, hlook, hok.1, hok.2, Int64.not_le.mp hseq, rfl⟩

theorem revokeTrustSession_eq_ok {m m' : MemStore} {tenantID tokenID : String}
    (h : m.revokeTrustSession tenantID tokenID = .ok m') :
    ∃ sess, m.sessions.lookup tokenID = some sess ∧
      m' = { m with sessions := m.sessions.insert tokenID { sess with status := .revoked } } := by
  unfold MemStore.revokeTrustSession at h
  split at h
  · cases h
  · next sess hlook =>
    obtain ⟨-, ⟨⟩⟩ := guard_ok h
    exact ⟨sess, hlook, rfl⟩

theorem getTrustSession_of_create {m : MemStore} {sess : TrustSession}
    (h : m.createTrustSession sess = .ok m') :
    m'.getTrustSession sess.tenantID sess.tokenID = .ok { sess with status := .active } := by
  obtain ⟨-, ⟨⟩⟩ := guard_ok h
  unfold MemStore.getTrustSession
  rw [AList.lookup_insert]
  exact if_neg (fun hne => hne rfl)

end Kseal.Registry
