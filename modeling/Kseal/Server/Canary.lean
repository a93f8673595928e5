import Kseal.Server.Compliance

/-!
# Cohorts of a rollout (`data-plane/canary`)

The snapshot of the active rollouts that the request paths consult, and the choice of the
instances that are served the candidate.

* `lookup_replace_listActiveCanaries` — the snapshot has the rollouts of the store that are active
-/

namespace Kseal.Canary

open Infra Wire Compliance List

structure Active where
  candidatePolicyID : String
  stablePolicyID : String
  percent : UInt32
deriving DecidableEq

abbrev Registry := GoMap String Active

def regKey (tenantID appID : String) : String := tenantID ++ "\x00" ++ appID

def replace (canaries : List CanaryStatus) : Registry :=
  canaries.foldl (fun next cs =>
    if cs.state ≠ .active then next
    else
      next.insert (regKey cs.tenantId cs.appId)
        ⟨cs.candidatePolicyId, cs.stablePolicyId, cs.percent⟩) ∅

def bucket (sha256 : Bytes → Bytes) (tenantID appID instanceID : String) : UInt32 :=
  let sum := sha256 (utf8 tenantID ++ [0] ++ utf8 appID ++ [0] ++ utf8 instanceID)
  UInt32.ofNat (ofBe (sum.take 8) % 100)

def inCanary (sha256 : Bytes → Bytes) (tenantID appID instanceID : String) (percent : UInt32) :
    Bool :=
  if percent = 0 ∨ instanceID = "" then false
  else if percent ≥ 100 then true
  else bucket sha256 tenantID appID instanceID < percent

def cohort (sha256 : Bytes → Bytes) (r : Registry) (tenantID appID instanceID : String) :
    String × Bool :=
  match r.lookup (regKey tenantID appID) with
  | none => ("", false)
  | some a =>
    if inCanary sha256 tenantID appID instanceID a.percent then (a.candidatePolicyID, true)
    else (a.stablePolicyID, false)

/-! ## The snapshot -/

def Active.of (cs : CanaryStatus) : Active := ⟨cs.candidatePolicyId, cs.stablePolicyId, cs.percent⟩

theorem lookup_replace (canaries : List CanaryStatus) (key : String) :
    (replace canaries).lookup key =
      (canaries.reverse.find? fun cs =>
        cs.state = .active ∧ regKey cs.tenantId cs.appId = key).map Active.of := by
  unfold replace
  induction canaries using List.reverseRecOn with
  | nil => rfl
  | append_singleton canaries cs ih =>
    rw [foldl_append, reverse_append, reverse_singleton, singleton_append,
      find?_cons, foldl_cons, foldl_nil]
    by_cases hactive : cs.state = .active
    · rw [if_neg (not_not.mpr hactive)]
      by_cases hkey : regKey cs.tenantId cs.appId = key
      · rw [decide_eq_true ⟨hactive, hkey⟩, hkey, AList.lookup_insert]
        rfl
      · rw [decide_eq_false fun h => hkey h.2, AList.lookup_insert_ne (Ne.symm hkey), ih]
    · rw [if_pos hactive, decide_eq_false fun h => hactive h.1, ih]

theorem scopeKey_eq_iff {tenantID appID tenantID' appID' : String} :
    scopeKey tenantID appID "" = scopeKey tenantID' appID' "" ↔
      regKey tenantID appID = regKey tenantID' appID' := by
  unfold scopeKey regKey
  rw [String.append_left_inj, String.append_left_inj]

/-- **After a refresh an active rollout is in the snapshot, and no other.** -/
theorem lookup_replace_listActiveCanaries {s : MemStore} (hkeyed : s.Keyed)
    (tenantID appID : String) :
    (replace s.listActiveCanaries).lookup (regKey tenantID appID) =
      ((s.canaries.lookup (scopeKey tenantID appID "")).filter fun cs => cs.state = .active).map
        Active.of := by
  rw [lookup_replace]
  congr 1
  have hfound : ∀ cs ∈ s.listActiveCanaries.reverse,
      regKey cs.tenantId cs.appId = regKey tenantID appID →
        s.canaries.lookup (scopeKey tenantID appID "") = some cs := by
    intro cs hmem hkey
    rw [← scopeKey_eq_iff.mpr hkey]
    exact ((mem_listActiveCanaries_iff hkeyed).mp (mem_reverse.mp hmem)).1
  cases hfind : s.listActiveCanaries.reverse.find? fun cs =>
      cs.state = .active ∧ regKey cs.tenantId cs.appId = regKey tenantID appID with
  | some cs =>
    have hcs : cs.state = .active ∧ regKey cs.tenantId cs.appId = regKey tenantID appID := by
      have hcs := find?_some hfind
      exact of_decide_eq_true hcs
    rw [hfound cs (mem_of_find?_eq_some hfind) hcs.2]
    exact (if_pos (decide_eq_true hcs.1)).symm
  | none =>
    symm
    rw [Option.filter_eq_none_iff]
    intro cs hlook hactive
    have hscope := hkeyed _ _ hlook
    have hkey := scopeKey_eq_iff.mp hscope.symm
    rw [hscope] at hlook
    have hmem : cs ∈ s.listActiveCanaries.reverse :=
      mem_reverse.mpr ((mem_listActiveCanaries_iff hkeyed).mpr
        ⟨hlook, of_decide_eq_true hactive⟩)
    exact find?_eq_none.mp hfind cs hmem (decide_eq_true ⟨of_decide_eq_true hactive, hkey⟩)

end Kseal.Canary
