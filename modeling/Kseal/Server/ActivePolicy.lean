import Kseal.Server.Registry
import Mathlib.Algebra.Group.Int.Defs

/-!
# Versions and activity of policies (`control-plane/registry/mem.go`)

Versions and active policies are found by going through one map of all policies, in an order that Go
leaves open (`policies_iff_few`).
-/

namespace Kseal.Registry

open Infra Wire List Option GoMap

/-! ## Sequences of calls -/

inductive PolicyRequest where
  | create (input : CreatePolicyInput) (id : String) (now : Int64)
  | activate (tenantID id : String) (now : Int64)

def MemStore.handle (m : MemStore) : PolicyRequest → MemStore
  | .create input id now =>
    match m.createPolicy input id now with
    | .ok (_, m') => m'
    | .error _ => m
  | .activate tenantID id now =>
    match m.activatePolicy tenantID id now with
    | .ok (_, m') => m'
    | .error _ => m

def MemStore.Reordered (m m' : MemStore) : Prop :=
  ∃ policies : GoMap String Policy, policies.entries.Perm m.policies.entries ∧
    m' = { m with policies := policies }

inductive Reached : List PolicyRequest → MemStore → Prop where
  | start {m : MemStore} (hempty : m.policies = ∅) : Reached [] m
  | reorder {rs : List PolicyRequest} {m m' : MemStore} (h : Reached rs m)
      (horder : m.Reordered m') : Reached rs m'
  | create {rs : List PolicyRequest} {m : MemStore} (h : Reached rs m) (input : CreatePolicyInput)
      (id : String) (now : Int64) (hfresh : m.policies.lookup id = none) :
      Reached (rs ++ [.create input id now]) (m.handle (.create input id now))
  | activate {rs : List PolicyRequest} {m : MemStore} (h : Reached rs m) (tenantID id : String)
      (now : Int64) : Reached (rs ++ [.activate tenantID id now]) (m.handle (.activate tenantID id now))

def createdBy (tenantID appID : String) : PolicyRequest → Option String
  | .create input id _ =>
    if input.tenantID = tenantID ∧ input.appID = appID ∧ tenantID ≠ "" ∧ input.name ≠ "" then some id
    else none
  | .activate .. => none

def created (tenantID appID : String) (rs : List PolicyRequest) : List String :=
  rs.filterMap (createdBy tenantID appID)

/-! ## The next version -/

def InScope (tenantID appID : String) (p : Policy) : Prop := p.tenantId = tenantID ∧ p.appId = appID

theorem toInt_versionLoop (tenantID appID : String) {n : Int} (hn : n + 1 < 2 ^ 31)
    (es : List (String × Policy)) (version : Int32) (hversion : version.toInt ≤ n + 1)
    (hes : ∀ e ∈ es, InScope tenantID appID e.2 → e.2.version.toInt ≤ n) :
    let v := es.foldl (fun version e =>
      if e.2.tenantId = tenantID ∧ e.2.appId = appID ∧ e.2.version ≥ version then e.2.version + 1
      else version) version
    version.toInt ≤ v.toInt ∧ v.toInt ≤ n + 1 ∧
      ∀ e ∈ es, InScope tenantID appID e.2 → e.2.version.toInt < v.toInt := by
  induction es generalizing version with
  | nil => exact ⟨Int.le_refl _, hversion, by simp⟩
  | cons e es ih =>
    have hrest : ∀ e ∈ es, InScope tenantID appID e.2 → e.2.version.toInt ≤ n :=
      fun e he => hes e (mem_cons_of_mem _ he)
    rw [foldl_cons]
    by_cases hge : e.2.tenantId = tenantID ∧ e.2.appId = appID ∧ e.2.version ≥ version
    · have hle := hes e mem_cons_self ⟨hge.1, hge.2.1⟩
      have hadd : (e.2.version + 1).toInt = e.2.version.toInt + 1 := by
        have hlow := e.2.version.le_toInt
        rw [Int32.toInt_add]
        exact Int.bmod_eq_of_le (by show -2147483648 ≤ _ + 1; omega)
          (by show _ + 1 < 2147483648; omega)
      have hver : version.toInt ≤ e.2.version.toInt := Int32.le_iff_toInt_le.mp hge.2.2
      rw [if_pos hge]
      obtain ⟨hlow, hhigh, hall⟩ := ih (e.2.version + 1) (by omega) hrest
      refine ⟨by omega, hhigh, forall_mem_cons.mpr ⟨fun _ => by omega, hall⟩⟩
    · rw [if_neg hge]
      obtain ⟨hlow, hhigh, hall⟩ := ih version hversion hrest
      refine ⟨hlow, hhigh, forall_mem_cons.mpr ⟨fun hscope => ?_, hall⟩⟩
      have hlt : ¬ version.toInt ≤ e.2.version.toInt := fun h =>
        hge ⟨hscope.1, hscope.2, Int32.le_iff_toInt_le.mpr h⟩
      omega

variable {policies : GoMap String Policy} {tenantID appID : String}

theorem toInt_nextVersion {policies : GoMap String Policy} {tenantID appID : String} {n : Nat}
    (hn : n + 1 < 2 ^ 31)
    (hle : ∀ key p, policies.lookup key = some p → InScope tenantID appID p → p.version.toInt ≤ n)
    (hmax : 0 < n → ∃ key p, policies.lookup key = some p ∧ InScope tenantID appID p ∧
      p.version.toInt = n) :
    (nextVersion policies tenantID appID).toInt = n + 1 := by
  have hone : (1 : Int32).toInt = 1 := rfl
  have hfits : (n : Int) + 1 < 2 ^ 31 := by omega
  obtain ⟨hlow, hhigh, hall⟩ := toInt_versionLoop tenantID appID hfits policies.pairs 1 (by omega)
    fun e he hscope => hle e.1 e.2 (mem_pairs.mp he) hscope
  unfold nextVersion
  rcases Nat.eq_zero_or_pos n with hzero | hpos
  · omega
  · obtain ⟨key, p, hlook, hscope, hversion⟩ := hmax hpos
    have hlt := hall (key, p) (mem_pairs.mpr hlook) hscope
    dsimp only at hlt
    omega

/-! ## What one request does -/

def AtMostOneActive (policies : GoMap String Policy) : Prop :=
  ∀ key key' p p', policies.lookup key = some p → policies.lookup key' = some p' →
    p.isActive = true → p'.isActive = true → InScope p.tenantId p.appId p' → key = key'

theorem policies_reordered {m m' : MemStore} (h : m.Reordered m') (key : String) :
    m'.policies.lookup key = m.policies.lookup key := by
  obtain ⟨policies, hperm, rfl⟩ := h
  exact AList.perm_lookup hperm

theorem handle_create (m : MemStore) (input : CreatePolicyInput) (id : String) (now : Int64) :
    (input.tenantID = "" ∨ input.name = "") ∧ m.handle (.create input id now) = m ∨
      ¬ (input.tenantID = "" ∨ input.name = "") ∧
        ∃ p, InScope input.tenantID input.appID p ∧ p.isActive = false ∧
          p.version = nextVersion m.policies input.tenantID input.appID ∧
          m.handle (.create input id now) = { m with policies := m.policies.insert id p } := by
  by_cases hbad : input.tenantID = "" ∨ input.name = ""
  · have h : m.createPolicy input id now = .error _ := if_pos hbad
    exact .inl ⟨hbad, by rw [MemStore.handle, h]⟩
  · have h : m.createPolicy input id now = .ok _ := if_neg hbad
    exact .inr ⟨hbad, _, ⟨rfl, rfl⟩, rfl, rfl, by rw [MemStore.handle, h]⟩

theorem handle_activate (m : MemStore) (tenantID id : String) (now : Int64) :
    m.handle (.activate tenantID id now) = m ∨
      ∃ target, m.policies.lookup id = some target ∧ target.tenantId = tenantID ∧
        m.handle (.activate tenantID id now) = m.withActive target id now := by
  cases h : m.activatePolicy tenantID id now with
  | error e => exact .inl (by rw [MemStore.handle, h])
  | ok r =>
    obtain ⟨target, hlook, ht, heq⟩ := activatePolicy_eq_ok h
    exact .inr ⟨target, hlook, ht, by rw [MemStore.handle, h]; exact heq⟩

variable {id key : String} {now : Int64}

theorem lookup_withActive {m : MemStore} {target : Policy} {p' : Policy}
    (h : (m.withActive target id now).policies.lookup key = some p') :
    ∃ p, m.policies.lookup key = some p ∧ p' = activated target id now key p := by
  unfold MemStore.withActive at h
  rw [lookup_mapValues] at h
  obtain ⟨p, hp, rfl⟩ := map_eq_some_iff.mp h
  exact ⟨p, hp, rfl⟩

variable {p : Policy}

theorem activated_isActive {target : Policy} (h : (activated target id now key p).isActive = true) :
    (key = id ∧ activated target id now key p = { target with isActive := true, updatedAt := now }) ∨
      (key ≠ id ∧ activated target id now key p = p ∧ p.isActive = true ∧
        ¬ InScope target.tenantId target.appId p) := by
  unfold activated at h ⊢
  by_cases hkey : key = id
  · rw [if_pos hkey]
    exact .inl ⟨hkey, rfl⟩
  · rw [if_neg hkey] at h ⊢
    by_cases hclear : p.tenantId = target.tenantId ∧ p.appId = target.appId ∧ p.isActive = true
    · rw [if_pos hclear] at h
      cases h
    · rw [if_neg hclear] at h ⊢
      exact .inr ⟨hkey, rfl, h, fun hscope => hclear ⟨hscope.1, hscope.2, h⟩⟩

theorem AtMostOneActive.withActive {m : MemStore} (hone : AtMostOneActive m.policies)
    (target : Policy) (id : String) (now : Int64) :
    AtMostOneActive (m.withActive target id now).policies := by
  intro key key' p p' hp hp' hact hact' hscope
  obtain ⟨q, hq, rfl⟩ := lookup_withActive hp
  obtain ⟨q', hq', rfl⟩ := lookup_withActive hp'
  rcases activated_isActive hact with ⟨hkey, heq⟩ | ⟨-, heq, hold, hout⟩
  · rcases activated_isActive hact' with ⟨hkey', -⟩ | ⟨-, heq', -, hout'⟩
    · rw [hkey, hkey']
    · -- Another active policy in the target's scope was cleared.
      rw [heq, heq'] at hscope
      exact absurd hscope hout'
  · rcases activated_isActive hact' with ⟨-, heq'⟩ | ⟨-, heq', hold', -⟩
    · rw [heq, heq'] at hscope
      exact absurd ⟨hscope.1.symm, hscope.2.symm⟩ hout
    · rw [heq, heq'] at hscope
      exact hone key key' q q' hq hq' hold hold' hscope

theorem AtMostOneActive.insert (hone : AtMostOneActive policies) (id : String)
    (hp : p.isActive = false) :
    AtMostOneActive (policies.insert id p) := by
  -- The new policy is not active, so both active ones were there before.
  have hold : ∀ key q, (policies.insert id p).lookup key = some q → q.isActive = true →
      policies.lookup key = some q := by
    intro key q hlook hact
    rw [lookup_insert_eq] at hlook
    split at hlook
    · cases hlook
      rw [hp] at hact
      cases hact
    · exact hlook
  intro key key' q q' hq hq' hact hact' hscope
  exact hone key key' q q' (hold key q hq hact) (hold key' q' hq' hact') hact hact' hscope

/-! ## The active policy -/

def IsActiveIn (m : MemStore) (tenantID appID : String) (p : Policy) : Prop :=
  ∃ key, m.policies.lookup key = some p ∧ p.isActive = true ∧ InScope tenantID appID p

theorem activeAt_eq_some_iff {m : MemStore} (hone : AtMostOneActive m.policies) :
    m.activeAt tenantID appID = some p ↔ IsActiveIn m tenantID appID p := by
  have hact : ∀ q, Registry.activeAt tenantID appID q = true ↔
      q.isActive = true ∧ InScope tenantID appID q := by
    intro q
    unfold Registry.activeAt InScope
    rw [decide_eq_true_iff]
    constructor
    · exact fun ⟨ht, ha, hs⟩ => ⟨ha, ht, hs⟩
    · exact fun ⟨ha, ht, hs⟩ => ⟨ht, ha, hs⟩
  constructor
  · intro h
    obtain ⟨⟨key, hmem⟩, hp⟩ := mem_of_lastOf h
    exact ⟨key, mem_pairs.mp hmem, (hact p).mp hp⟩
  · rintro ⟨key, hlook, hp⟩
    refine lastOf_eq_some ⟨(key, p), mem_pairs.mpr hlook, (hact p).mpr hp⟩ ?_
    rintro ⟨key', q⟩ hmem hq
    have hlook' := mem_pairs.mp hmem
    obtain ⟨haq, htq, hsq⟩ := (hact q).mp hq
    have hkey := hone key key' p q hlook hlook' hp.1 haq
      ⟨htq.trans hp.2.1.symm, hsq.trans hp.2.2.symm⟩
    exact value_unique hlook' hlook hkey.symm

/-- **The policy that is found is the active one of the scope, or else of the tenant.** -/
theorem getActivePolicy_iff {m : MemStore} (hone : AtMostOneActive m.policies) :
    m.getActivePolicy tenantID appID = .ok p ↔ IsActiveIn m tenantID appID p ∨
      (∀ q, ¬ IsActiveIn m tenantID appID q) ∧ IsActiveIn m tenantID "" p := by
  rw [getActivePolicy_eq_ok_iff, MemStore.active, or_eq_some_iff,
    eq_none_iff_forall_ne_some]
  simp only [ne_eq, activeAt_eq_some_iff hone]

/-! ## What every sequence of calls keeps -/

variable {input : CreatePolicyInput}

theorem createdBy_create (hok : ¬ (input.tenantID = "" ∨ input.name = "")) :
    createdBy tenantID appID (.create input id now) =
      if input.tenantID = tenantID ∧ input.appID = appID then some id else none := by
  rw [not_or] at hok
  rw [createdBy]
  by_cases h : input.tenantID = tenantID ∧ input.appID = appID
  · rw [if_pos h, if_pos ⟨h.1, h.2, h.1 ▸ hok.1, hok.2⟩]
  · rw [if_neg h, if_neg fun h' => h ⟨h'.1, h'.2.1⟩]

theorem createdBy_refused (hbad : input.tenantID = "" ∨ input.name = "") :
    createdBy tenantID appID (.create input id now) = none := by
  refine if_neg ?_
  rintro ⟨ht, -, hne, hname⟩
  exact hbad.elim (fun h => hne (ht ▸ h)) hname

theorem created_append (tenantID appID : String) (rs : List PolicyRequest) (r : PolicyRequest) :
    created tenantID appID (rs ++ [r]) =
      created tenantID appID rs ++ (createdBy tenantID appID r).toList := by
  unfold created
  cases h : createdBy tenantID appID r with
  | none => simp [h]
  | some id => simp [h]

theorem created_create (hok : ¬ (input.tenantID = "" ∨ input.name = "")) (tenantID appID : String)
    (rs : List PolicyRequest) (id : String) (now : Int64) :
    created tenantID appID (rs ++ [.create input id now]) = created tenantID appID rs ++
      (if input.tenantID = tenantID ∧ input.appID = appID then some id else none).toList := by
  rw [created_append, createdBy_create hok]

structure PolicyInv (rs : List PolicyRequest) (policies : GoMap String Policy) : Prop where
  one : AtMostOneActive policies
  mem : ∀ tenantID appID id, id ∈ created tenantID appID rs ↔
    ∃ p, policies.lookup id = some p ∧ InScope tenantID appID p
  version : ∀ tenantID appID, (created tenantID appID rs).length < 2 ^ 31 →
    ∀ (i : Nat) id p, (created tenantID appID rs)[i]? = some id → policies.lookup id = some p →
      p.version.toInt = i + 1

section keep

variable {rs : List PolicyRequest} {m : MemStore}

theorem PolicyInv.empty : PolicyInv [] ∅ where
  one := nofun
  mem := fun _ _ id => by simp [created]
  version := fun _ _ _ i id p h => by simp [created] at h

theorem PolicyInv.congr {policies' : GoMap String Policy} (h : PolicyInv rs policies)
    (hlook : ∀ key, policies'.lookup key = policies.lookup key) : PolicyInv rs policies' where
  one := fun key key' p p' hp hp' => h.one key key' p p' (hlook key ▸ hp) (hlook key' ▸ hp')
  mem := fun tenantID appID id => by rw [h.mem, hlook]
  version := fun tenantID appID hfew i id p hid hp =>
    h.version tenantID appID hfew i id p hid (hlook id ▸ hp)

theorem PolicyInv.append {r : PolicyRequest} (h : PolicyInv rs m.policies)
    (hr : ∀ tenantID appID, createdBy tenantID appID r = none) : PolicyInv (rs ++ [r]) m.policies := by
  have hcreated : ∀ tenantID appID,
      created tenantID appID (rs ++ [r]) = created tenantID appID rs := by
    intro tenantID appID
    rw [created_append, hr, toList_none, append_nil]
  exact ⟨h.one, fun t a id => by rw [hcreated, h.mem],
    fun t a => by rw [hcreated]; exact h.version t a⟩

theorem PolicyInv.nextVersion (h : PolicyInv rs m.policies)
    (hfew : (created tenantID appID rs).length + 1 < 2 ^ 31) :
    (Registry.nextVersion m.policies tenantID appID).toInt =
      (created tenantID appID rs).length + 1 := by
  refine toInt_nextVersion hfew ?_ ?_
  · intro key p hlook hscope
    obtain ⟨i, hi⟩ := mem_iff_getElem?.mp ((h.mem tenantID appID key).mpr ⟨p, hlook, hscope⟩)
    obtain ⟨hlt, -⟩ := List.getElem?_eq_some_iff.mp hi
    rw [h.version tenantID appID (by omega) i key p hi hlook]
    omega
  · intro hpos
    have hlt : (created tenantID appID rs).length - 1 < (created tenantID appID rs).length := by omega
    have hlast := getElem?_eq_getElem hlt
    obtain ⟨p, hlook, hscope⟩ := (h.mem tenantID appID _).mp (mem_of_getElem? hlast)
    refine ⟨_, p, hlook, hscope, ?_⟩
    rw [h.version tenantID appID (by omega) _ _ p hlast hlook]
    omega

theorem PolicyInv.ne_of_fresh (h : PolicyInv rs m.policies) (hfresh : m.policies.lookup id = none)
    (hmem : key ∈ created tenantID appID rs) : key ≠ id := by
  rintro rfl
  obtain ⟨q, hq, -⟩ := (h.mem tenantID appID key).mp hmem
  rw [hfresh] at hq
  cases hq

theorem PolicyInv.create (h : PolicyInv rs m.policies) (hfresh : m.policies.lookup id = none) :
    PolicyInv (rs ++ [.create input id now]) (m.handle (.create input id now)).policies := by
  rcases handle_create m input id now with ⟨hbad, heq⟩ | ⟨hok, p, hscope, hinactive, hversion, heq⟩
  · rw [heq]
    exact h.append fun _ _ => createdBy_refused hbad
  · rw [heq]
    have hlook : ∀ key, (m.policies.insert id p).lookup key =
        if key = id then some p else m.policies.lookup key := fun key =>
      lookup_insert_eq m.policies id key p
    refine ⟨h.one.insert id hinactive, ?_, ?_⟩
    · intro tenantID appID key
      rw [created_create hok, mem_append, hlook]
      by_cases hkey : key = id
      · subst hkey
        have hnot : key ∉ created tenantID appID rs := fun hmem => h.ne_of_fresh hfresh hmem rfl
        simp only [hnot, if_true, Option.some.injEq, exists_eq_left']
        unfold InScope at hscope ⊢
        rw [hscope.1, hscope.2]
        split
        · next hs => simp [hs]
        · next hs => simp [hs]
      · rw [if_neg hkey, ← h.mem]
        refine or_iff_left ?_
        split
        · simpa using hkey
        · simp
    · intro tenantID appID hfew i key q hi hq
      rw [created_create hok] at hfew hi
      rw [length_append] at hfew
      by_cases hlt : i < (created tenantID appID rs).length
      · rw [getElem?_append_left hlt] at hi
        rw [hlook, if_neg (h.ne_of_fresh hfresh (mem_of_getElem? hi))] at hq
        exact h.version tenantID appID (by omega) i key q hi hq
      · -- The last of the list is the new one.
        rw [getElem?_append_right (by omega)] at hi
        split at hi
        · next hs =>
          rw [if_pos hs] at hfew
          obtain ⟨hi₀, rfl⟩ : i - (created tenantID appID rs).length = 0 ∧ id = key := by
            simpa [getElem?_singleton] using hi
          rw [hlook, if_pos rfl, Option.some.injEq] at hq
          subst hq
          rw [hversion, hs.1, hs.2, h.nextVersion (by simpa using hfew)]
          omega
        · simp at hi

theorem PolicyInv.activate (h : PolicyInv rs m.policies) (tenantID id : String) (now : Int64) :
    PolicyInv (rs ++ [.activate tenantID id now])
      (m.handle (.activate tenantID id now)).policies := by
  refine PolicyInv.append (m := m.handle (.activate tenantID id now)) ?_ fun _ _ => rfl
  rcases handle_activate m tenantID id now with heq | ⟨target, htarget, -, heq⟩
  · rw [heq]
    exact h
  · rw [heq]
    have hlook : ∀ key, (m.withActive target id now).policies.lookup key =
        (m.policies.lookup key).map (activated target id now key) := fun key =>
      lookup_mapValues _ m.policies key
    -- Scopes and versions stay as they were.
    have hsame : ∀ key p, m.policies.lookup key = some p →
        (activated target id now key p).tenantId = p.tenantId ∧
          (activated target id now key p).appId = p.appId ∧
          (activated target id now key p).version = p.version := by
      intro key p hp
      obtain ⟨isActive, updatedAt, heq⟩ : ∃ isActive updatedAt, activated target id now key p =
          { p with isActive := isActive, updatedAt := updatedAt } := activated_eq htarget hp
      rw [heq]
      exact ⟨rfl, rfl, rfl⟩
    refine ⟨h.one.withActive target id now, ?_, ?_⟩
    · intro t a key
      rw [h.mem, hlook]
      constructor
      · rintro ⟨p, hp, hs⟩
        obtain ⟨ht, ha, -⟩ := hsame key p hp
        exact ⟨_, by rw [hp, map_some], ht.trans hs.1, ha.trans hs.2⟩
      · rintro ⟨q, hq, hs⟩
        obtain ⟨p, hp, rfl⟩ := map_eq_some_iff.mp hq
        obtain ⟨ht, ha, -⟩ := hsame key p hp
        exact ⟨p, hp, ht.symm.trans hs.1, ha.symm.trans hs.2⟩
    · intro t a hfew i key q hi hq
      rw [hlook] at hq
      obtain ⟨p, hp, rfl⟩ := map_eq_some_iff.mp hq
      rw [(hsame key p hp).2.2]
      exact h.version t a hfew i key p hi hp

end keep

/-- **The invariant holds after every sequence of calls.** -/
theorem Reached.inv {rs : List PolicyRequest} {m : MemStore} (h : Reached rs m) :
    PolicyInv rs m.policies := by
  induction h with
  | start hempty => rw [hempty]; exact .empty
  | reorder _ horder ih => exact ih.congr (policies_reordered horder)
  | create _ input id now hfresh ih => exact ih.create hfresh
  | activate _ tenantID id now ih => exact ih.activate tenantID id now

/-! ## What holds of the policies -/

def Numbered (rs : List PolicyRequest) (m : MemStore) : Prop :=
  ∀ tenantID appID, (created tenantID appID rs).map (fun id =>
      (m.policies.lookup id).map fun p => p.version.toInt) =
    (List.range (created tenantID appID rs).length).map fun i : Nat => some ((i : Int) + 1)

def ActivatesInScope (m : MemStore) : Prop :=
  ∀ tenantID id now p m', m.activatePolicy tenantID id now = .ok (p, m') →
    p.tenantId = tenantID ∧ ∀ key q, m.policies.lookup key = some q →
      ¬ InScope tenantID p.appId q → m'.policies.lookup key = some q

def FindsActive (m : MemStore) : Prop :=
  ∀ m', m.Reordered m' → ∀ tenantID appID p, m'.getActivePolicy tenantID appID = .ok p ↔
    IsActiveIn m tenantID appID p ∨
      (∀ q, ¬ IsActiveIn m tenantID appID q) ∧ IsActiveIn m tenantID "" p

structure PoliciesOk (rs : List PolicyRequest) (m : MemStore) : Prop where
  one : AtMostOneActive m.policies
  known : ∀ key p, m.policies.lookup key = some p → key ∈ created p.tenantId p.appId rs
  numbered : Numbered rs m
  inScope : ActivatesInScope m
  finds : FindsActive m

theorem activatesInScope (m : MemStore) : ActivatesInScope m := by
  intro tenantID id now p m' h
  obtain ⟨target, htarget, ht, rfl⟩ := activatePolicy_eq_ok h
  have hp : p = { target with isActive := true, updatedAt := now } := by
    unfold MemStore.activatePolicy at h
    rw [htarget] at h
    dsimp only at h
    rw [if_neg (not_not.mpr ht)] at h
    exact (congrArg Prod.fst (Except.ok.inj h)).symm
  subst hp
  refine ⟨ht, fun key q hq hout => ?_⟩
  have hkey : key ≠ id := by
    rintro rfl
    rw [htarget] at hq
    cases hq
    exact hout ⟨ht, rfl⟩
  rw [MemStore.withActive, lookup_mapValues, hq, map_some, activated, if_neg hkey,
    if_neg fun hclear => hout ⟨hclear.1.trans ht, hclear.2.1⟩]

theorem PolicyInv.findsActive {rs : List PolicyRequest} {m : MemStore}
    (h : PolicyInv rs m.policies) : FindsActive m := by
  intro m' horder tenantID appID p
  have hlook := policies_reordered horder
  have hactive : ∀ a q, IsActiveIn m' tenantID a q ↔ IsActiveIn m tenantID a q := by
    intro a q
    unfold IsActiveIn
    simp only [hlook]
  rw [getActivePolicy_iff (h.congr hlook).one]
  simp only [hactive]

theorem getActivePolicy_error {m : MemStore} {e : StoreError}
    (h : m.getActivePolicy tenantID appID = .error e) : e = .notFound := by
  unfold MemStore.getActivePolicy at h
  split at h
  · cases h
  · cases h
  · cases h
    rfl

theorem Reached.getActivePolicy_reordered {rs : List PolicyRequest} {m m' : MemStore}
    (h : Reached rs m) (horder : m.Reordered m') (tenantID appID : String) :
    m'.getActivePolicy tenantID appID = m.getActivePolicy tenantID appID := by
  have hfinds := h.inv.findsActive
  have hsame : ∀ p, m'.getActivePolicy tenantID appID = .ok p ↔
      m.getActivePolicy tenantID appID = .ok p := fun p =>
    (hfinds m' horder tenantID appID p).trans
      (hfinds m ⟨m.policies, .refl _, rfl⟩ tenantID appID p).symm
  cases hafter : m'.getActivePolicy tenantID appID with
  | ok p => exact ((hsame p).mp hafter).symm
  | error e =>
    cases hbefore : m.getActivePolicy tenantID appID with
    | ok p =>
      rw [(hsame p).mpr hbefore] at hafter
      cases hafter
    | error e' => rw [getActivePolicy_error hafter, getActivePolicy_error hbefore]

theorem PolicyInv.numbered {rs : List PolicyRequest} {m : MemStore} (h : PolicyInv rs m.policies)
    (hfew : ∀ tenantID appID, (created tenantID appID rs).length < 2 ^ 31) : Numbered rs m := by
  intro tenantID appID
  refine ext_getElem? fun i => ?_
  rw [getElem?_map, getElem?_map]
  by_cases hi : i < (created tenantID appID rs).length
  · have hget := getElem?_eq_getElem hi
    obtain ⟨p, hp, -⟩ := (h.mem tenantID appID _).mp (mem_of_getElem? hget)
    rw [hget, getElem?_range hi, map_some, map_some, hp, map_some,
      h.version tenantID appID (hfew tenantID appID) i _ p hget hp]
  · rw [getElem?_eq_none (by omega), getElem?_eq_none (by rw [length_range]; omega)]
    rfl

theorem Numbered.few {rs : List PolicyRequest} {m : MemStore} (h : Numbered rs m)
    (tenantID appID : String) : (created tenantID appID rs).length < 2 ^ 31 := by
  rcases Nat.eq_zero_or_pos (created tenantID appID rs).length with hzero | hpos
  · omega
  · have hlast := congrArg (·[(created tenantID appID rs).length - 1]?) (h tenantID appID)
    rw [getElem?_map, getElem?_map, getElem?_range (by omega),
      getElem?_eq_getElem (by omega), map_some, map_some,
      Option.some.injEq] at hlast
    obtain ⟨p, -, hp⟩ := map_eq_some_iff.mp hlast
    have hlt := p.version.toInt_lt
    omega

/-- **The policies are as promised exactly as long as no scope has 2³¹ of them.** -/
theorem policies_iff_few {rs : List PolicyRequest} {m : MemStore} (h : Reached rs m) :
    PoliciesOk rs m ↔ ∀ tenantID appID, (created tenantID appID rs).length < 2 ^ 31 := by
  constructor
  · exact fun hok => hok.numbered.few
  · intro hfew
    have hinv := h.inv
    refine ⟨hinv.one, ?_, hinv.numbered hfew, activatesInScope m, hinv.findsActive⟩
    intro key p hp
    exact (hinv.mem _ _ key).mpr ⟨p, hp, rfl, rfl⟩

def creation (i : Nat) : PolicyRequest := .create ⟨"t", "", "p", .observe, "", "", []⟩ i.repr 0

def secondActivated : List PolicyRequest := [creation 0, creation 1, .activate "t" "1" 0]

theorem policies_iff_few_secondActivated :
    ∃ m, Reached secondActivated m ∧ PoliciesOk secondActivated m := by
  have h₀ : Reached [] ⟨∅, ∅, ∅, ∅⟩ := .start rfl
  have h₁ := h₀.create ⟨"t", "", "p", .observe, "", "", []⟩ "0" 0 rfl
  have h₂ := h₁.create ⟨"t", "", "p", .observe, "", "", []⟩ "1" 0 (by decide +kernel)
  have h₃ := h₂.activate "t" "1" 0
  refine ⟨_, h₃, (policies_iff_few h₃).mpr fun tenantID appID => ?_⟩
  exact Nat.lt_of_le_of_lt (length_filterMap_le _ _) (by decide)

def creations (n : Nat) : List PolicyRequest := (List.range n).map creation

theorem length_created_creations (n : Nat) : (created "t" "" (creations n)).length = n := by
  have hsome : ∀ i ∈ List.range n, (createdBy "t" "" ∘ creation) i = some i.repr := fun _ _ => rfl
  unfold created creations
  rw [filterMap_map, filterMap_congr hsome, filterMap_eq_map', length_map,
    length_range]

theorem reached_creations (n : Nat) :
    ∃ m, Reached (creations n) m ∧ ∀ i, n ≤ i → m.policies.lookup i.repr = none := by
  induction n with
  | zero => exact ⟨⟨∅, ∅, ∅, ∅⟩, .start rfl, fun _ _ => rfl⟩
  | succ n ih =>
    obtain ⟨m, hreached, hfresh⟩ := ih
    have hnext := hreached.create ⟨"t", "", "p", .observe, "", "", []⟩ n.repr 0
      (hfresh n (Nat.le_refl n))
    have hlist : creations (n + 1) = creations n ++ [creation n] := by
      unfold creations
      rw [range_succ, map_append, map_singleton]
    refine ⟨_, hlist ▸ hnext, fun i hi => ?_⟩
    rcases handle_create m ⟨"t", "", "p", .observe, "", "", []⟩ n.repr 0 with
      ⟨-, heq⟩ | ⟨-, p, -, -, -, heq⟩
    · rw [heq]
      exact hfresh i (by omega)
    · have hne : i.repr ≠ n.repr := fun h => absurd (natRepr_injective h) (by omega)
      rw [heq]
      rw [AList.lookup_insert_ne hne]
      exact hfresh i (by omega)

theorem not_policiesOk_of_many {n : Nat} (hn : 2 ^ 31 ≤ n) :
    ∃ m, Reached (creations n) m ∧ ¬ PoliciesOk (creations n) m := by
  obtain ⟨m, hreached, -⟩ := reached_creations n
  refine ⟨m, hreached, fun hok => ?_⟩
  have hfew := hok.numbered.few "t" ""
  rw [length_created_creations] at hfew
  omega

theorem version_overflow :
    ∃ m, Reached (creations (2 ^ 31)) m ∧ ¬ PoliciesOk (creations (2 ^ 31)) m :=
  not_policiesOk_of_many (Nat.le_refl _)

end Kseal.Registry
