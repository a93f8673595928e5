import Kseal.Infra.Run
import Kseal.Server.CanaryStore

/-!
# The auto-rollback controller (`data-plane/canary/controller.go`)

A sweep lists the rollouts, reads the health of each candidate and withdraws; requests that start,
promote or withdraw rollouts may run between any two of these steps (`withdrawn_iff`).
-/

namespace Kseal.Canary

open Infra Wire Compliance List

/-! ## Sweeps -/

inductive Sweep where
  | reading (rest : List CanaryStatus)
  | breached (cs : CanaryStatus) (rate : Float) (samples : Int64) (rest : List CanaryStatus)

def Sweep.listed : Sweep → List CanaryStatus
  | .reading rest => rest
  | .breached cs _ _ rest => cs :: rest

inductive Change where
  | set (candidatePolicyID : String)
  | promote
  | rollback
deriving DecidableEq

structure System (S : CanaryStore) where
  store : S.Store
  sweep : Sweep
  since : List (S.Scope × Change)

inductive Action where
  /-- `ListActiveCanaries`, by the controller. -/
  | list
  /-- `CanaryHealth` of the next rollout of the list, and what it answers. -/
  | health (rate : Float) (samples : Int64)
  /-- `RollbackCanary`, by the controller. -/
  | withdraw (now : Int64)
  | set (input : CanaryInput) (now : Int64)
  | promote (tenantID appID : String) (now : Int64)
  | rollback (tenantID appID reason : String) (obs : CanaryObservation) (now : Int64)

structure Config where
  minSamples : Int64
  reason : Float → Float → Int64 → String

def Config.Breached (c : Config) (cs : CanaryStatus) (rate : Float) (samples : Int64) : Prop :=
  ¬ (samples < c.minSamples ∨ rate ≤ cs.rollbackThreshold)

section step

variable (S : CanaryStore) (c : Config)

def System.apply (s : System S) (tenantID appID : String) (change : Change)
    (answer : Except StoreError (CanaryStatus × S.Store)) : System S :=
  match answer with
  | .error _ => s
  | .ok (_, store) => { s with store := store, since := (S.scope tenantID appID, change) :: s.since }

def step (s : System S) : Action → Option (System S)
  | .list =>
    match s.sweep with
    | .reading [] => some { s with sweep := .reading (S.listActive s.store), since := [] }
    | _ => none
  | .health rate samples =>
    match s.sweep with
    | .reading (cs :: rest) =>
      if samples < c.minSamples ∨ rate ≤ cs.rollbackThreshold then
        some { s with sweep := .reading rest }
      else some { s with sweep := .breached cs rate samples rest }
    | _ => none
  | .withdraw now =>
    match s.sweep with
    | .breached cs rate samples rest =>
      some (System.apply S { s with sweep := .reading rest } cs.tenantId cs.appId .rollback
        (S.rollback s.store cs.tenantId cs.appId (c.reason rate cs.rollbackThreshold samples)
          ⟨rate, samples⟩ now))
    | _ => none
  | .set input now =>
    some (s.apply S input.tenantID input.appID (.set input.candidatePolicyID)
      (S.set s.store input now))
  | .promote tenantID appID now =>
    some (s.apply S tenantID appID .promote (S.promote s.store tenantID appID now))
  | .rollback tenantID appID reason obs now =>
    some (s.apply S tenantID appID .rollback (S.rollback s.store tenantID appID reason obs now))

end step

/-! ## What the store holds of the rollouts that were listed -/

variable {S : CanaryStore} {c : Config}

def newest (k : S.Scope) (since : List (S.Scope × Change)) : Option Change :=
  (since.find? fun e => e.1 = k).map Prod.snd

theorem newest_cons (k k₀ : S.Scope) (change : Change) (since : List (S.Scope × Change)) :
    newest k ((k₀, change) :: since) = if k = k₀ then some change else newest k since := by
  unfold newest
  rw [find?_cons]
  by_cases hk : k = k₀
  · rw [decide_eq_true hk.symm, if_pos hk]
    rfl
  · rw [decide_eq_false (Ne.symm hk), if_neg hk]

def Reflects (listed old : CanaryStatus) : Option Change → Prop
  | none => old.state = .active ∧ old.candidatePolicyId = listed.candidatePolicyId
  | some (.set candidate) => old.state = .active ∧ old.candidatePolicyId = candidate
  | some .promote => old.state = .promoted
  | some .rollback => old.state = .rolledBack

structure Inv (c : Config) (s : System S) : Prop where
  valid : S.Valid s.store
  above : ∀ {cs rate samples rest}, s.sweep = .breached cs rate samples rest →
    c.Breached cs rate samples
  kept : ∀ cs ∈ s.sweep.listed, ∃ old, S.rollout s.store (S.scope cs.tenantId cs.appId) = some old ∧
    Reflects cs old (newest (S.scope cs.tenantId cs.appId) s.since)

theorem Inv.apply {s : System S} (h : Inv c s) {tenantID appID : String} {change : Change}
    {answer : Except StoreError (CanaryStatus × S.Store)}
    (hput : ∀ new store, answer = .ok (new, store) →
      S.Valid store ∧ (∀ listed, Reflects listed new (some change)) ∧
        ∀ k, S.rollout store k =
          if k = S.scope tenantID appID then some new else S.rollout s.store k) :
    Inv c (s.apply S tenantID appID change answer) := by
  cases answer with
  | error e => exact h
  | ok r =>
    obtain ⟨new, store⟩ := r
    obtain ⟨hvalid, hnew, hroll⟩ := hput new store rfl
    refine ⟨hvalid, h.above, fun cs hcs => ?_⟩
    obtain ⟨old, hold, hreflects⟩ := h.kept cs hcs
    show ∃ old, S.rollout store _ = some old ∧ Reflects cs old (newest _ (_ :: s.since))
    rw [hroll, newest_cons]
    by_cases hk : S.scope cs.tenantId cs.appId = S.scope tenantID appID
    · rw [if_pos hk, if_pos hk]
      exact ⟨new, rfl, hnew cs⟩
    · rw [if_neg hk, if_neg hk]
      exact ⟨old, hold, hreflects⟩

theorem Inv.reading {s : System S} (h : Inv c s) {rest : List CanaryStatus}
    (hsub : ∀ cs ∈ rest, cs ∈ s.sweep.listed) : Inv c { s with sweep := .reading rest } :=
  ⟨h.valid, by rintro _ _ _ _ ⟨⟩, fun cs hcs => h.kept cs (hsub cs hcs)⟩

theorem Inv.step {s s' : System S} {a : Action} (h : Inv c s) (hstep : step S c s a = some s') :
    Inv c s' := by
  revert hstep
  fun_cases Canary.step S c s a <;> rintro ⟨⟩
  case case1 =>
    refine ⟨h.valid, by rintro _ _ _ _ ⟨⟩, fun cs hcs => ?_⟩
    obtain ⟨hroll, hactive⟩ := S.listActive_spec h.valid hcs
    exact ⟨cs, hroll, hactive, rfl⟩
  case case3 hsweep _ =>
    exact h.reading fun cs' hcs' => by rw [hsweep]; exact mem_cons_of_mem _ hcs'
  case case4 hsweep habove =>
    refine ⟨h.valid, ?_, fun cs' hcs' => h.kept cs' (by rw [hsweep]; exact hcs')⟩
    rintro _ _ _ _ ⟨⟩
    exact habove
  case case6 rest hsweep =>
    have hrest : Inv c { s with sweep := .reading rest } :=
      h.reading fun cs' hcs' => by rw [hsweep]; exact mem_cons_of_mem _ hcs'
    refine hrest.apply fun new store hok => ?_
    obtain ⟨hvalid, hstate, hroll⟩ := S.rollback_spec h.valid hok
    exact ⟨hvalid, fun _ => hstate, hroll⟩
  case case8 =>
    refine h.apply fun new store hok => ?_
    obtain ⟨hvalid, hstate, hcandidate, hroll⟩ := S.set_spec h.valid hok
    exact ⟨hvalid, fun _ => ⟨hstate, hcandidate⟩, hroll⟩
  case case9 =>
    refine h.apply fun new store hok => ?_
    obtain ⟨hvalid, hstate, hroll⟩ := S.promote_spec h.valid hok
    exact ⟨hvalid, fun _ => hstate, hroll⟩
  case case10 =>
    refine h.apply fun new store hok => ?_
    obtain ⟨hvalid, hstate, hroll⟩ := S.rollback_spec h.valid hok
    exact ⟨hvalid, fun _ => hstate, hroll⟩

/-! ## What the controller withdraws -/

/--
In the event `e` the controller, which had listed the rollout `cs` and read its health, changes the
state of the rollout `old` to `ROLLED_BACK`.
-/
structure Withdraws (e : Event (System S) Action) (cs : CanaryStatus) (rate : Float)
    (samples : Int64) (old : CanaryStatus) : Prop where
  action : ∃ now, e.action = .withdraw now
  listed : ∃ rest, e.before.sweep = .breached cs rate samples rest
  found : S.rollout e.before.store (S.scope cs.tenantId cs.appId) = some old
  before : old.state ≠ .rolledBack
  after : ∃ new, S.rollout e.after.store (S.scope cs.tenantId cs.appId) = some new ∧
    new.state = .rolledBack

theorem Reflects.iff {cs old : CanaryStatus} {change : Option Change} (h : Reflects cs old change)
    (hne : old.state ≠ .rolledBack) :
    old.state = .active ∧ old.candidatePolicyId = cs.candidatePolicyId ↔
      change = none ∨ change = some (.set cs.candidatePolicyId) := by
  cases change with
  | none => exact iff_of_true h (.inl rfl)
  | some change =>
    cases change with
    | set candidate =>
      obtain ⟨hactive, hcandidate⟩ := h
      rw [and_iff_right hactive, hcandidate]
      simp
    | promote =>
      replace h : old.state = .promoted := h
      simp [h]
    | rollback => exact absurd h hne

/--
**When auto-rollback withdraws the rollout that breached.**

In any interleaving, a rollout that the controller withdraws is active, with the candidate whose
health was found above the threshold, exactly if no store operation changed its scope since the
sweep listed it, or the newest one was a `SetCanary` of that same candidate.
-/
theorem withdrawn_iff (S : CanaryStore) (c : Config) {s t : System S}
    {es : List (Event (System S) Action)} (hvalid : S.Valid s.store) (hidle : s.sweep = .reading [])
    (hrun : Run (step S c) s es t) :
    ∀ e ∈ es, ∀ cs rate samples old, Withdraws e cs rate samples old →
      ((old.state = .active ∧ old.candidatePolicyId = cs.candidatePolicyId ∧
          c.Breached cs rate samples) ↔
        newest (S.scope cs.tenantId cs.appId) e.before.since = none ∨
          newest (S.scope cs.tenantId cs.appId) e.before.since =
            some (.set cs.candidatePolicyId)) := by
  have hinit : Inv c s := by
    refine ⟨hvalid, ?_, ?_⟩
    · intro cs rate samples rest hsweep
      rw [hidle] at hsweep
      cases hsweep
    · intro cs hcs
      rw [hidle] at hcs
      cases hcs
  intro e he cs rate samples old hw
  obtain ⟨hinv, -⟩ := hrun.keeps_before (C := fun _ _ => True) (fun h _ hs => h.step hs) hinit
    (fun _ _ => trivial) e he
  obtain ⟨rest, hsweep⟩ := hw.listed
  obtain ⟨old', hold, hreflects⟩ := hinv.kept cs (by rw [hsweep]; exact mem_cons_self)
  obtain rfl : old = old' := Option.some.inj (hw.found.symm.trans hold)
  rw [and_iff_left (hinv.above hsweep)]
  exact hreflects.iff hw.before

/-! ## A rollout that is replaced, or promoted, during the sweep -/

theorem exists_withdraws {input : CanaryInput} {st₀ st₁ st₂ st₃ : S.Store}
    {cs old new : CanaryStatus} {since since' : List (S.Scope × Change)} (a : Action) (now : Int64)
    (hset : S.set st₀ input 1 = .ok (cs, st₁)) (hlist : S.listActive st₁ = [cs])
    (habove : c.Breached cs 1 20)
    (ha : step S c ⟨st₁, .breached cs 1 20 [], []⟩ a = some ⟨st₂, .breached cs 1 20 [], since⟩)
    (hwithdraw : step S c ⟨st₂, .breached cs 1 20 [], since⟩ (.withdraw now) =
      some ⟨st₃, .reading [], since'⟩)
    (hold : S.rollout st₂ (S.scope cs.tenantId cs.appId) = some old) (hne : old.state ≠ .rolledBack)
    (hnew : S.rollout st₃ (S.scope cs.tenantId cs.appId) = some new)
    (hback : new.state = .rolledBack) :
    ∃ es t, Run (step S c) ⟨st₀, .reading [], []⟩ es t ∧
      ∃ e ∈ es, Withdraws e cs 1 20 old ∧ e.before.since = since := by
  have h₁ : step S c ⟨st₀, .reading [], []⟩ (.set input 1) = some ⟨st₁, .reading [],
      [(S.scope input.tenantID input.appID, .set input.candidatePolicyID)]⟩ := by
    simp only [step, System.apply, hset]
  have h₂ : step S c ⟨st₁, .reading [],
      [(S.scope input.tenantID input.appID, .set input.candidatePolicyID)]⟩ .list =
      some ⟨st₁, .reading [cs], []⟩ := by
    simp only [step, hlist]
  have h₃ : step S c ⟨st₁, .reading [cs], []⟩ (.health 1 20) =
      some ⟨st₁, .breached cs 1 20 [], []⟩ := if_neg habove
  refine ⟨_, _, .cons h₁ (.cons h₂ (.cons h₃ (.cons ha (.cons hwithdraw (.nil _))))),
    ⟨⟨st₂, .breached cs 1 20 [], since⟩, .withdraw now, ⟨st₃, .reading [], since'⟩⟩, ?_,
    ⟨⟨now, rfl⟩, ⟨[], rfl⟩, hold, hne, new, hnew, hback⟩, rfl⟩
  simp

namespace ControllerSample

def config : Config := ⟨20, fun _ _ _ => ""⟩

def input (candidate : String) : CanaryInput := ⟨"t", "a", candidate, "s", 50, 0⟩

def rollout (candidate : String) (now : Int64) : CanaryStatus where
  tenantId := "t"
  appId := "a"
  candidatePolicyId := candidate
  stablePolicyId := "s"
  percent := 50
  state := .active
  blockRate := 0
  sampleCount := 0
  rollbackThreshold := if (0 : Float) ≤ 0 then defaultRollbackThreshold else 0
  lastEvent := "rollout set to 50%"
  updatedAt := now

def promoted (cs : CanaryStatus) : CanaryStatus :=
  { cs with
    state := .promoted
    percent := 100
    stablePolicyId := cs.candidatePolicyId
    lastEvent := "promoted to stable"
    updatedAt := 2 }

def mem (cs : CanaryStatus) : MemStore := ⟨∅, AList.singleton (scopeKey "t" "a" "") cs⟩

def pg (cs : CanaryStatus) : PostgresStore := ⟨AList.singleton ("t", "a") cs⟩

theorem breached : config.Breached (rollout "c1" 1) 1 20 := by
  unfold Config.Breached
  decide +kernel

end ControllerSample

open ControllerSample in
theorem judged_withdrawn :
    ∃ es t, Run (step memCanaries config) ⟨⟨∅, ∅⟩, .reading [], []⟩ es t ∧
      ∃ e ∈ es, Withdraws e (rollout "c1" 1) 1 20 (rollout "c1" 2) ∧
        (rollout "c1" 2).candidatePolicyId = (rollout "c1" 1).candidatePolicyId ∧
        config.Breached (rollout "c1" 1) 1 20 := by
  have hmem : memCanaries.set ⟨∅, ∅⟩ (input "c1") 1 =
      .ok (rollout "c1" 1, mem (rollout "c1" 1)) := rfl
  obtain ⟨es, t, hrun, e, he, hevent, hsince⟩ :=
    exists_withdraws (.set (input "c1") 2) 3 hmem rfl breached rfl rfl rfl (by decide) rfl rfl
  have hvalid : memCanaries.Valid ⟨∅, ∅⟩ := by
    intro key cs hlook
    cases hlook
  have hjudged := (withdrawn_iff memCanaries config hvalid rfl hrun e he _ _ _ _ hevent).mpr
    (.inr (by rw [hsince]; rfl))
  exact ⟨es, t, hrun, e, he, hevent, hjudged.2⟩

open ControllerSample in
/--
**A rollout that the controller did not judge is withdrawn**: in both stores one that replaced the
rollout with another candidate, and one that was promoted.
-/
theorem unjudged_withdrawn :
    (∃ es t, Run (step memCanaries config) ⟨⟨∅, ∅⟩, .reading [], []⟩ es t ∧
      ∃ e ∈ es, Withdraws e (rollout "c1" 1) 1 20 (rollout "c2" 2)) ∧
    (∃ es t, Run (step memCanaries config) ⟨⟨∅, ∅⟩, .reading [], []⟩ es t ∧
      ∃ e ∈ es, Withdraws e (rollout "c1" 1) 1 20 (promoted (rollout "c1" 1))) ∧
    (∃ es t, Run (step pgCanaries config) ⟨⟨∅⟩, .reading [], []⟩ es t ∧
      ∃ e ∈ es, Withdraws e (rollout "c1" 1) 1 20 (rollout "c2" 2)) := by
  have hmem : memCanaries.set ⟨∅, ∅⟩ (input "c1") 1 =
      .ok (rollout "c1" 1, mem (rollout "c1" 1)) := rfl
  have hpg : pgCanaries.set ⟨∅⟩ (input "c1") 1 = .ok (rollout "c1" 1, pg (rollout "c1" 1)) := rfl
  refine ⟨?_, ?_, ?_⟩
  · obtain ⟨es, t, hrun, e, he, hevent, -⟩ :=
      exists_withdraws (.set (input "c2") 2) 3 hmem rfl breached rfl rfl rfl (by decide) rfl rfl
    exact ⟨es, t, hrun, e, he, hevent⟩
  · obtain ⟨es, t, hrun, e, he, hevent, -⟩ :=
      exists_withdraws (.promote "t" "a" 2) 3 hmem rfl breached rfl rfl rfl (by decide) rfl rfl
    exact ⟨es, t, hrun, e, he, hevent⟩
  · obtain ⟨es, t, hrun, e, he, hevent, -⟩ :=
      exists_withdraws (.set (input "c2") 2) 3 hpg rfl breached rfl rfl rfl (by decide) rfl rfl
    exact ⟨es, t, hrun, e, he, hevent⟩

end Kseal.Canary
