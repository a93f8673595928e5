import Mathlib.Data.List.DropRight
import Kseal.Device.Policy

/-!
# The risk engine of the device (`risk_engine.rs`, `policy.rs`)

The engine keeps the last observations, each cut down to the enabled modules, and reports an anomaly
when a signal appears that none of them has (`anomaly_window`).
-/

namespace Kseal.Infra.GoMap

variable {κ α : Type} [DecidableEq κ] [DecidableEq α]

def same (m m' : GoMap κ α) : Bool :=
  (m.pairs.all fun e => m'.lookup e.1 = some e.2) && (m'.pairs.all fun e => m.lookup e.1 = some e.2)

end Kseal.Infra.GoMap

namespace Kseal.Device

open Infra Wire List

/-! ## Evaluation -/

deriving instance DecidableEq for PolicyRule

inductive Confidence where
  | low
  | medium
  | high
deriving Repr, DecidableEq

def confidence (bits : RiskBitset) : Confidence :=
  match (Infra.bits bits).card with
  | 0 => .high
  | 1 => .low
  | 2 => .medium
  | _ => .high

def getMode : EnforcementMode → EnforcementMode
  | .unrecognized _ => .unspecified
  | other => other

structure PolicyDecision where
  mode : EnforcementMode
  matchedRuleId : Option String
  score : UInt32
deriving DecidableEq

def Policy.evaluate (p : Policy) (bits : RiskBitset) : PolicyDecision :=
  let filtered := p.filterSignals bits
  let totalScore := weightedScore filtered p.config.signalWeights
  let fires (rule : PolicyRule) : Bool :=
    let masked := filtered &&& rule.riskMask
    masked ≠ 0 && weightedScore masked p.config.signalWeights ≥ rule.minScore
  match p.config.rules.find? fires with
  | some rule => ⟨getMode rule.action, some rule.id, totalScore⟩
  | none => ⟨p.defaultMode, none, totalScore⟩

/-! ## The engine -/

structure FusedRisk where
  score : UInt32
  level : TrustLevel
  confidence : Confidence
  localResponse : EnforcementMode
  anomaly : Bool
deriving DecidableEq

structure RiskEngine where
  policy : Policy
  history : List RiskBitset
  window : Nat

def sameConfig (a b : PolicyConfig) : Bool :=
  a.rules = b.rules && a.riskThresholds.same b.riskThresholds && a.defaultMode = b.defaultMode &&
    a.modulesEnabled = b.modulesEnabled && a.signalWeights.same b.signalWeights &&
    a.policyHash = b.policyHash && a.reattestIntervalSecs = b.reattestIntervalSecs

def capLocal : EnforcementMode → EnforcementMode
  | .block => .stepUp
  | .unspecified => .observe
  | other => other

def trim (window : Nat) : List RiskBitset → List RiskBitset
  | [] => []
  | b :: bs => if (b :: bs).length > window then trim window bs else b :: bs

namespace RiskEngine

def new (policy : Policy) (window : Nat) : RiskEngine := ⟨policy, [], max window 1⟩

def setPolicy (e : RiskEngine) (policy : Policy) : RiskEngine :=
  { e with
    history := if sameConfig e.policy.config policy.config then e.history else []
    policy := policy }

def windowUnion (e : RiskEngine) : RiskBitset := e.history.foldl (· ||| ·) 0

def record (e : RiskEngine) (bits : RiskBitset) : RiskEngine :=
  { e with history := trim e.window (e.history ++ [bits]) }

def fuse (e : RiskEngine) (signals : RiskBitset) : FusedRisk × RiskEngine :=
  let filtered := e.policy.filterSignals signals
  let emerged := filtered &&& ~~~e.windowUnion
  let score := weightedScore filtered e.policy.config.signalWeights
  ({ score := score
     level := e.policy.trustLevelForScore score
     confidence := confidence filtered
     localResponse := capLocal (e.policy.evaluate filtered).mode
     anomaly := filtered ≠ 0 && emerged ≠ 0 },
    e.record filtered)

end RiskEngine

inductive EngineCall where
  | setPolicy (policy : Policy)
  | fuse (signals : RiskBitset)

def RiskEngine.call (e : RiskEngine) : EngineCall → RiskEngine
  | .setPolicy policy => e.setPolicy policy
  | .fuse signals => (e.fuse signals).2

def RiskEngine.run (e : RiskEngine) (calls : List EngineCall) : RiskEngine :=
  calls.foldl RiskEngine.call e

/-! ## What was observed -/

def policyAfter : Policy → List EngineCall → Policy
  | p, [] => p
  | _, .setPolicy q :: calls => policyAfter q calls
  | p, .fuse _ :: calls => policyAfter p calls

def observations : Policy → List EngineCall → List RiskBitset
  | _, [] => []
  | _, .setPolicy q :: calls => observations q calls
  | p, .fuse signals :: calls => p.filterSignals signals :: observations p calls

def Unchanged : Policy → List EngineCall → Prop
  | _, [] => True
  | p, .setPolicy q :: calls => sameConfig p.config q.config = true ∧ Unchanged q calls
  | p, .fuse _ :: calls => Unchanged p calls

structure SinceChange (p : Policy) (before since : List EngineCall) : Prop where
  change : before = [] ∨ ∃ calls q, before = calls ++ [.setPolicy q] ∧
    sameConfig (policyAfter p calls).config q.config = false
  unchanged : Unchanged (policyAfter p before) since

section calls

variable {p : Policy} {calls calls' : List EngineCall}

theorem policyAfter_append (p : Policy) (calls calls' : List EngineCall) :
    policyAfter p (calls ++ calls') = policyAfter (policyAfter p calls) calls' := by
  induction calls generalizing p with
  | nil => rfl
  | cons c calls ih => cases c <;> exact ih _

theorem unchanged_append :
    Unchanged p (calls ++ calls') ↔ Unchanged p calls ∧ Unchanged (policyAfter p calls) calls' := by
  induction calls generalizing p with
  | nil => simp [Unchanged, policyAfter]
  | cons c calls ih =>
    cases c with
    | setPolicy q => simp [Unchanged, policyAfter, ih, and_assoc]
    | fuse signals => simp [Unchanged, policyAfter, ih]

theorem exists_sinceChange (p : Policy) (calls : List EngineCall) :
    ∃ before since, calls = before ++ since ∧ SinceChange p before since := by
  induction calls using reverseRecOn with
  | nil => exact ⟨[], [], rfl, .inl rfl, trivial⟩
  | append_singleton calls c ih =>
    obtain ⟨before, since, rfl, hchange, hunchanged⟩ := ih
    have hlonger : Unchanged (policyAfter p (before ++ since)) [c] →
        SinceChange p before (since ++ [c]) := fun h =>
      ⟨hchange, unchanged_append.mpr ⟨hunchanged, by rwa [← policyAfter_append]⟩⟩
    cases c with
    | fuse signals => exact ⟨before, since ++ [.fuse signals], by simp, hlonger trivial⟩
    | setPolicy q =>
      cases hsame : sameConfig (policyAfter p (before ++ since)).config q.config with
      | true => exact ⟨before, since ++ [.setPolicy q], by simp, hlonger ⟨hsame, trivial⟩⟩
      | false =>
        exact ⟨before ++ since ++ [.setPolicy q], [], by simp,
          .inr ⟨before ++ since, q, rfl, hsame⟩, trivial⟩

end calls

/-! ## The window -/

theorem trim_eq_rtake (window : Nat) (h : List RiskBitset) : trim window h = h.rtake window := by
  induction h with
  | nil => simp [trim]
  | cons b bs ih =>
    rw [trim, rtake_eq_reverse_take_reverse]
    split
    · next hlong =>
      rw [ih, rtake_eq_reverse_take_reverse, reverse_cons,
        take_append_of_le_length (by simpa using Nat.lt_succ_iff.mp hlong)]
    · next hshort =>
      rw [take_of_length_le (by simpa using hshort), reverse_reverse]

theorem rtake_rtake_concat (n : Nat) (l : List RiskBitset) (b : RiskBitset) :
    (l.rtake n ++ [b]).rtake n = (l ++ [b]).rtake n := by
  cases n with
  | zero => simp
  | succ n =>
    rw [rtake_concat_succ, rtake_concat_succ, rtake_eq_reverse_take_reverse,
      rtake_eq_reverse_take_reverse, rtake_eq_reverse_take_reverse, reverse_reverse,
      take_take, Nat.min_eq_left (Nat.le_succ n)]

theorem mem_windowUnion (h : List RiskBitset) (i : Fin 64) :
    i ∈ bits (h.foldl (· ||| ·) 0) ↔ ∃ b ∈ h, i ∈ bits b := by
  induction h using reverseRecOn with
  | nil => simp
  | append_singleton h b ih =>
    rw [foldl_append, foldl_cons, foldl_nil, bits_or, Finset.mem_union, ih]
    simp

namespace RiskEngine

variable {e : RiskEngine} {p : Policy} {calls : List EngineCall}

theorem run_append (e : RiskEngine) (calls calls' : List EngineCall) :
    e.run (calls ++ calls') = (e.run calls).run calls' :=
  foldl_append

theorem run_policy (e : RiskEngine) (calls : List EngineCall) :
    (e.run calls).policy = policyAfter e.policy calls := by
  induction calls generalizing e with
  | nil => rfl
  | cons c calls ih => cases c <;> exact ih _

theorem run_window (e : RiskEngine) (calls : List EngineCall) :
    (e.run calls).window = e.window := by
  induction calls generalizing e with
  | nil => rfl
  | cons c calls ih => cases c <;> exact ih _

theorem call_fuse_history (e : RiskEngine) (signals : RiskBitset) :
    (e.call (.fuse signals)).history =
      (e.history ++ [e.policy.filterSignals signals]).rtake e.window :=
  trim_eq_rtake _ _

theorem length_call_le (hwindow : e.history.length ≤ e.window) (c : EngineCall) :
    (e.call c).history.length ≤ (e.call c).window := by
  cases c with
  | setPolicy q =>
    show (if _ then e.history else []).length ≤ e.window
    split
    · exact hwindow
    · exact Nat.zero_le _
  | fuse signals =>
    rw [call_fuse_history, rtake_eq_reverse_take_reverse, length_reverse,
      length_take]
    exact Nat.min_le_left _ _

theorem length_run_le (hwindow : e.history.length ≤ e.window) (calls : List EngineCall) :
    (e.run calls).history.length ≤ e.window := by
  induction calls generalizing e with
  | nil => exact hwindow
  | cons c calls ih =>
    have hstep := ih (length_call_le hwindow c)
    cases c <;> exact hstep

/-- **Without a change, the history is the end of what was observed.** -/
theorem run_history : ∀ (e : RiskEngine) (obs : List RiskBitset) (calls : List EngineCall),
    e.history = obs.rtake e.window → Unchanged e.policy calls →
    (e.run calls).history = (obs ++ observations e.policy calls).rtake e.window
  | e, obs, [], hhistory, _ => by simpa [run, observations] using hhistory
  | e, obs, .setPolicy q :: calls, hhistory, h => by
    have hkept : (e.call (.setPolicy q)).history = obs.rtake e.window := by
      rw [← hhistory]
      exact if_pos h.1
    exact run_history (e.call (.setPolicy q)) obs calls hkept h.2
  | e, obs, .fuse signals :: calls, hhistory, h => by
    have hadded : (e.call (.fuse signals)).history =
        (obs ++ [e.policy.filterSignals signals]).rtake e.window := by
      rw [call_fuse_history, hhistory, rtake_rtake_concat]
    have hrun := run_history (e.call (.fuse signals)) _ calls hadded h
    rw [append_assoc] at hrun
    exact hrun

theorem history_of_sinceChange {window : Nat} {before since : List EngineCall}
    (h : SinceChange p before since) :
    ((new p window).run (before ++ since)).history =
      (observations (policyAfter p before) since).rtake (max window 1) := by
  have hempty : ((new p window).run before).history = [] := by
    rcases h.change with rfl | ⟨calls, q, rfl, hchange⟩
    · rfl
    · -- The call that changes the configuration clears the window.
      have hpolicy : ((new p window).run calls).policy = policyAfter p calls :=
        run_policy (new p window) calls
      rw [run_append]
      show (if sameConfig _ _ then _ else _) = _
      rw [hpolicy, hchange]
      rfl
  have hwindow : ((new p window).run before).window = max window 1 := run_window _ _
  have hpolicy : ((new p window).run before).policy = policyAfter p before := run_policy _ _
  have hrun := run_history ((new p window).run before) [] since
    (by rw [hempty, rtake_nil]) (by rw [hpolicy]; exact h.unchanged)
  rw [run_append, hrun, hwindow, hpolicy, nil_append]

theorem fuse_anomaly_iff (e : RiskEngine) (signals : RiskBitset) :
    (e.fuse signals).1.anomaly = true ↔
      ∃ i ∈ bits (e.policy.filterSignals signals), ∀ b ∈ e.history, i ∉ bits b := by
  have hmem : ∀ w : UInt64, w ≠ 0 ↔ ∃ i, i ∈ bits w := by
    intro w
    rw [Ne, ← bits_eq_empty, ← Ne, ← Finset.nonempty_iff_ne_empty]
    rfl
  show (decide (_ ≠ _) && decide (_ ≠ _)) = true ↔ _
  rw [Bool.and_eq_true, decide_eq_true_eq, decide_eq_true_eq, hmem, hmem]
  simp only [bits_and_not, Finset.mem_sdiff, windowUnion, mem_windowUnion, not_exists, not_and]
  exact ⟨fun h => h.2, fun ⟨i, hi, hnew⟩ => ⟨⟨i, hi⟩, i, hi, hnew⟩⟩

theorem fuse_localResponse (e : RiskEngine) (signals : RiskBitset) :
    (e.fuse signals).1.localResponse = .observe ∨ (e.fuse signals).1.localResponse = .stepUp := by
  have hcap : ∀ mode : EnforcementMode, (∀ n, mode ≠ .unrecognized n) →
      capLocal mode = .observe ∨ capLocal mode = .stepUp := by
    intro mode hmode
    cases mode with
    | unrecognized n => exact absurd rfl (hmode n)
    | _ => simp [capLocal]
  refine hcap _ ?_
  rw [Policy.evaluate]
  split
  · next rule _ => cases rule.action <;> simp [getMode]
  · next _ =>
    unfold Policy.defaultMode
    cases e.policy.config.defaultMode <;> simp [knownMode]

end RiskEngine

/--
**An anomaly is reported exactly if a signal is in none of the last observations since the policy
was last changed; the history is no longer than the window, and the response never blocks.**
-/
theorem anomaly_window (p : Policy) (window : Nat) (calls : List EngineCall)
    (signals : RiskBitset) :
    let e := (RiskEngine.new p window).run calls
    (∃ before since, calls = before ++ since ∧ SinceChange p before since) ∧
    (∀ before since, calls = before ++ since → SinceChange p before since →
      ((e.fuse signals).1.anomaly = true ↔
        ∃ i ∈ bits (e.policy.filterSignals signals),
          ∀ o ∈ (observations (policyAfter p before) since).rtake (max window 1), i ∉ bits o)) ∧
    e.history.length ≤ max window 1 ∧
    (e.fuse signals).1.localResponse ≠ .block ∧
      (e.fuse signals).1.localResponse ≠ .unspecified := by
  intro e
  refine ⟨exists_sinceChange p calls, ?_, ?_, ?_⟩
  · rintro before since rfl hsince
    rw [RiskEngine.fuse_anomaly_iff, RiskEngine.history_of_sinceChange hsince]
  · exact RiskEngine.length_run_le (e := RiskEngine.new p window) (Nat.zero_le _) calls
  · rcases RiskEngine.fuse_localResponse e signals with h | h
    · rw [h]
      simp
    · rw [h]
      simp

end Kseal.Device
