import Kseal.Server.Fleet

/-!
# The table of cohorts (`data-plane/fleet/engine.go`)

A run of the engine is a list of calls. `Observe` and `ObserveAndAssessNow` use their cohort;
`Assess` uses it if it is in the table, and does not make it.

* `cohort_table_bounded` — the table after any calls, and what one more call forgets
-/

namespace Kseal.Fleet

open Infra List

variable {cfg : Settings}

/-! ## Runs -/

inductive Call where
  | observe (k : ScopeKey) (bits : UInt64) (t : Int)
  | observeAndAssessNow (k : ScopeKey) (bits : UInt64) (now : Int)
  | assess (k : ScopeKey) (now : Int)

def Call.key : Call → ScopeKey
  | .observe k _ _ | .observeAndAssessNow k _ _ | .assess k _ => k

def Call.observation : Call → Option (Int × UInt64)
  | .observe _ bits t => some (t, bits)
  | .observeAndAssessNow _ bits now => some (now, bits)
  | .assess .. => none

def Engine.step (e : Engine cfg) : Call → Engine cfg
  | .observe k bits t => e.observe k bits t
  | .observeAndAssessNow k bits now => (e.observeAndAssessNow k bits now).1
  | .assess k now => (e.assess k now).1

def run (cfg : Settings) (calls : List Call) : Engine cfg :=
  calls.foldl Engine.step (Engine.new cfg)

def Engine.home (e : Engine cfg) (k : ScopeKey) : Shard cfg := e.shards (shardFor k)

def Engine.isUse (e : Engine cfg) (c : Call) : Bool :=
  c.observation.isSome || ((e.home c.key).byKey.lookup c.key).isSome

def uses (cfg : Settings) (calls : List Call) : List ScopeKey :=
  (calls.foldl (fun (s : Engine cfg × List ScopeKey) c =>
    (s.1.step c, if s.1.isUse c then c.key :: s.2 else s.2)) (Engine.new cfg, [])).2

def Engine.size (e : Engine cfg) : Nat := ∑ i, (e.shards i).order.length

theorem run_append (calls : List Call) (c : Call) :
    run cfg (calls ++ [c]) = (run cfg calls).step c := by
  unfold run
  rw [foldl_append, foldl_cons, foldl_nil]

theorem uses_append (calls : List Call) (c : Call) :
    uses cfg (calls ++ [c]) =
      if (run cfg calls).isUse c then c.key :: uses cfg calls else uses cfg calls := by
  have hfst : ∀ (calls : List Call) (s : Engine cfg × List ScopeKey),
      (calls.foldl (fun (s : Engine cfg × List ScopeKey) c =>
        (s.1.step c, if s.1.isUse c then c.key :: s.2 else s.2)) s).1 =
        calls.foldl Engine.step s.1 := by
    intro calls
    induction calls with
    | nil => exact fun _ => rfl
    | cons c calls ih => exact fun s => ih _
  unfold uses
  rw [foldl_append, foldl_cons, hfst]
  rfl

/-! ## One call -/

def shardStep (sh : Shard cfg) (c : Call) : Shard cfg :=
  match c.observation with
  | some (t, bits) =>
    (getOrCreateLocked sh c.key).1.modify (getOrCreateLocked sh c.key).2
      fun sc => sc.observeLocked (cfg.epoch t) bits
  | none =>
    match sh.byKey.lookup c.key with
    | none => sh
    | some id => sh.touch id

theorem step_eq_setShard (e : Engine cfg) (c : Call) :
    e.step c = e.setShard (shardFor c.key) (shardStep (e.home c.key) c) := by
  cases c with
  | observe k bits t => rfl
  | observeAndAssessNow k bits now => rfl
  | assess k now =>
    show (e.assess k now).1 = e.setShard (shardFor k) (shardStep (e.home k) (.assess k now))
    unfold Engine.assess shardStep
    simp only [Call.observation, Call.key, Engine.home]
    cases (e.shards (shardFor k)).byKey.lookup k with
    | none =>
      unfold Engine.setShard
      rw [Function.update_eq_self]
    | some id => rfl

theorem shards_step (e : Engine cfg) (c : Call) (i : Fin shardCount) :
    (e.step c).shards i = if i = shardFor c.key then shardStep (e.shards i) c else e.shards i := by
  rw [step_eq_setShard]
  refine (Function.update_apply ..).trans ?_
  unfold Engine.home
  split
  · next hi => rw [hi]
  · rfl

theorem maxScopesPerShard_pos (cfg : Settings) : 0 < cfg.maxScopesPerShard := by
  rw [Settings.maxScopesPerShard]
  split <;> omega

section shardStep

variable {sh : Shard cfg}

theorem ok_shardStep (h : sh.Ok) (c : Call) : (shardStep sh c).Ok := by
  unfold shardStep getOrCreateLocked
  split
  · exact (h.getOrCreate ..).modify ..
  · split
    · exact h
    · exact h.touch _

theorem keys_shardStep (h : sh.Ok) (hlen : sh.order.length ≤ cfg.maxScopesPerShard) (c : Call) :
    (shardStep sh c).keys =
      if c.observation.isSome || (sh.byKey.lookup c.key).isSome then
        use cfg.maxScopesPerShard c.key sh.keys
      else sh.keys := by
  have hget := h.keys_getOrCreate hlen c.key Scope.new
  unfold shardStep getOrCreateLocked
  cases hobs : c.observation with
  | some o => exact (Lru.keys_modify ..).trans hget
  | none =>
    cases hlook : sh.byKey.lookup c.key with
    | none => rfl
    | some id =>
      -- Moving to the front is what getting or creating a known key does.
      rw [Lru.getOrCreate_of_some hlook] at hget
      exact hget

end shardStep

/-! ## All calls -/

def usesOf (i : Fin shardCount) (h : List ScopeKey) : List ScopeKey :=
  h.filter fun k => shardFor k = i

structure Inv (e : Engine cfg) (h : List ScopeKey) : Prop where
  ok : ∀ i, (e.shards i).Ok
  order : ∀ i, (e.shards i).keys = (recent (usesOf i h)).take cfg.maxScopesPerShard

section inv

variable {e : Engine cfg} {h : List ScopeKey}

theorem Inv.length_le (H : Inv e h) (i : Fin shardCount) :
    (e.shards i).order.length ≤ cfg.maxScopesPerShard := by
  rw [← (H.ok i).length_keys, H.order i, length_take]
  exact Nat.min_le_left ..

theorem Inv.shardFor_eq (H : Inv e h) {i : Fin shardCount} {k : ScopeKey}
    (hk : k ∈ (e.shards i).keys) : shardFor k = i := by
  rw [H.order i] at hk
  have hmem := mem_recent.mp (mem_of_mem_take hk)
  unfold usesOf at hmem
  rw [mem_filter, decide_eq_true_iff] at hmem
  exact hmem.2

theorem Inv.pairwise (H : Inv e h) (i : Fin shardCount) :
    (e.shards i).keys.Pairwise fun a b => (usesOf i h).idxOf a < (usesOf i h).idxOf b := by
  rw [H.order i]
  exact (pairwise_recent _).sublist (take_sublist ..)

theorem Inv.size_le (H : Inv e h) : e.size ≤ max cfg.maxScopes shardCount := by
  have hsum : e.size ≤ shardCount * cfg.maxScopesPerShard := by
    calc ∑ i, (e.shards i).order.length
        ≤ ∑ _i : Fin shardCount, cfg.maxScopesPerShard := Finset.sum_le_sum fun i _ => H.length_le i
      _ = shardCount * cfg.maxScopesPerShard := by simp
  refine hsum.trans ?_
  rw [Settings.maxScopesPerShard]
  split
  · exact (Nat.mul_one _).le.trans (le_max_right ..)
  · exact (Nat.mul_div_le ..).trans (le_max_left ..)

theorem Inv.new : Inv (Engine.new cfg) [] := by
  refine ⟨fun _ => Lru.Ok.empty, fun i => ?_⟩
  show ([] : List ScopeKey) = List.take cfg.maxScopesPerShard []
  rw [take_nil]

theorem Inv.keys_step (H : Inv e h) (c : Call) (i : Fin shardCount) :
    ((e.step c).shards i).keys =
      if i = shardFor c.key ∧ e.isUse c then use cfg.maxScopesPerShard c.key (e.shards i).keys
      else (e.shards i).keys := by
  rw [shards_step]
  by_cases hi : i = shardFor c.key
  · rw [if_pos hi, keys_shardStep (H.ok i) (H.length_le i)]
    subst hi
    simp only [true_and]
    rfl
  · rw [if_neg hi, if_neg fun hboth => hi hboth.1]

theorem Inv.step (H : Inv e h) (c : Call) :
    Inv (e.step c) (if e.isUse c then c.key :: h else h) := by
  refine ⟨fun i => ?_, fun i => ?_⟩
  · rw [shards_step]
    split
    · exact ok_shardStep (H.ok i) c
    · exact H.ok i
  · rw [H.keys_step c i]
    by_cases huse : e.isUse c = true
    · rw [if_pos huse]
      by_cases hi : i = shardFor c.key
      · rw [if_pos ⟨hi, huse⟩, H.order i, use_recent (maxScopesPerShard_pos cfg), usesOf, usesOf,
          filter_cons_of_pos (by simpa using hi.symm)]
      · rw [if_neg fun hboth => hi hboth.1, H.order i, usesOf, usesOf,
          filter_cons_of_neg (by simpa using Ne.symm hi)]
    · rw [if_neg huse, if_neg fun hboth => huse hboth.2]
      exact H.order i

/-- **The table after any calls.** -/
theorem Inv.run (calls : List Call) : Inv (run cfg calls) (uses cfg calls) := by
  induction calls using List.reverseRecOn with
  | nil => exact Inv.new
  | append_singleton calls c ih =>
    rw [run_append, uses_append]
    exact ih.step c

theorem Inv.evicted (H : Inv e h) (c : Call) {i : Fin shardCount} {a : ScopeKey}
    (ha : a ∈ (e.shards i).keys) (hgone : a ∉ ((e.step c).shards i).keys) :
    a ≠ c.key ∧ c.key ∉ (e.shards i).keys ∧ c.key ∈ ((e.step c).shards i).keys ∧
      (e.shards i).keys.length = cfg.maxScopesPerShard ∧ (e.shards i).keys.getLast? = some a := by
  rw [H.keys_step c i] at hgone ⊢
  split at hgone
  · next huse =>
    rw [if_pos huse]
    have hlen := H.length_le i
    rw [← (H.ok i).length_keys] at hlen
    obtain ⟨hne, hnew, hfull, hlast⟩ :=
      eq_getLast_of_evicted (maxScopesPerShard_pos cfg) hlen ha hgone
    exact ⟨hne, hnew, mem_of_mem_head? (head?_use (maxScopesPerShard_pos cfg)), hfull, hlast⟩
  · exact absurd ha hgone

end inv

/-- What one more call forgets: only the cohort of the shard that was used longest ago, to make room
for the one that is used now. -/
structure Evicts (e e' : Engine cfg) (c : Call) (i : Fin shardCount) (a : ScopeKey) : Prop where
  other : a ≠ c.key
  made : c.key ∉ (e.shards i).keys
  kept : c.key ∈ (e'.shards i).keys
  full : (e.shards i).keys.length = cfg.maxScopesPerShard
  oldest : (e.shards i).keys.getLast? = some a

/--
**The table of cohorts after any calls.**

In every shard the map and the list hold the same cohorts, once each and under their own keys, which
hash to the shard; the list is ordered by the last use, and is not longer than the cap. No more than
`max(MaxScopes, 256)` cohorts are there in all. A call that forgets a cohort forgets the one of the
list that was used longest ago, and not its own.
-/
theorem cohort_table_bounded (cfg : Settings) (calls : List Call) :
    (∀ i, ((run cfg calls).shards i).Ok ∧
      ((run cfg calls).shards i).keys.Nodup ∧
      (∀ k ∈ ((run cfg calls).shards i).keys, shardFor k = i) ∧
      ((run cfg calls).shards i).keys =
        (recent (usesOf i (uses cfg calls))).take cfg.maxScopesPerShard ∧
      ((run cfg calls).shards i).keys.Pairwise (fun a b =>
        (usesOf i (uses cfg calls)).idxOf a < (usesOf i (uses cfg calls)).idxOf b) ∧
      ((run cfg calls).shards i).order.length ≤ cfg.maxScopesPerShard) ∧
    (run cfg calls).size ≤ max cfg.maxScopes 256 ∧
    ∀ c i a, a ∈ ((run cfg calls).shards i).keys →
      a ∉ ((run cfg (calls ++ [c])).shards i).keys →
        Evicts (run cfg calls) (run cfg (calls ++ [c])) c i a := by
  have H : Inv (run cfg calls) (uses cfg calls) := Inv.run calls
  refine ⟨fun i => ⟨H.ok i, (H.ok i).nodup_keys, fun k hk => H.shardFor_eq hk, H.order i,
    H.pairwise i, H.length_le i⟩, H.size_le, fun c i a ha hgone => ?_⟩
  rw [run_append] at hgone ⊢
  obtain ⟨hother, hmade, hkept, hfull, holdest⟩ := H.evicted c ha hgone
  exact ⟨hother, hmade, hkept, hfull, holdest⟩

/-! ## One cohort among the others -/

def Engine.scope (e : Engine cfg) (k : ScopeKey) : Option (Scope cfg) := (e.home k).find k

section scope

variable {e : Engine cfg} {h : List ScopeKey} {k : ScopeKey} {c : Call}

theorem home_step_of_ne (hne : shardFor c.key ≠ shardFor k) : (e.step c).home k = e.home k := by
  unfold Engine.home
  rw [shards_step, if_neg (Ne.symm hne)]

theorem home_step_of_eq (heq : shardFor c.key = shardFor k) :
    (e.step c).home k = shardStep (e.home k) c := by
  unfold Engine.home
  rw [shards_step, if_pos heq.symm]

theorem Inv.scope_observe (H : Inv e h) {t : Int} {bits : UInt64}
    (hobs : c.observation = some (t, bits)) :
    (e.step c).scope c.key =
      some (((e.scope c.key).getD Scope.new).observeLocked (cfg.epoch t) bits) := by
  unfold Engine.scope
  rw [home_step_of_eq rfl]
  unfold shardStep
  rw [hobs]
  obtain ⟨hlook, hcell⟩ :=
    (H.ok (shardFor c.key)).getOrCreate_self (maxScopesPerShard_pos cfg) c.key Scope.new
  exact Lru.find_modify_self hlook hcell _

theorem scope_assess (hobs : c.observation = none) (k : ScopeKey) :
    (e.step c).scope k = e.scope k := by
  unfold Engine.scope
  by_cases heq : shardFor c.key = shardFor k
  · rw [home_step_of_eq heq]
    unfold shardStep
    rw [hobs]
    dsimp only
    split
    · rfl
    · rfl
  · rw [home_step_of_ne heq]

theorem Inv.scope_step_of_ne (H : Inv e h) (hne : k ≠ c.key)
    (hkept : (e.step c).scope k ≠ none) : (e.step c).scope k = e.scope k := by
  cases hobs : c.observation with
  | none => exact scope_assess hobs k
  | some o =>
    obtain ⟨t, bits⟩ := o
    unfold Engine.scope at hkept ⊢
    by_cases heq : shardFor c.key = shardFor k
    · have hok := H.ok (shardFor k)
      rw [home_step_of_eq heq] at hkept ⊢
      unfold shardStep at hkept ⊢
      rw [hobs] at hkept ⊢
      have hget := hok.getOrCreate cfg.maxScopesPerShard c.key Scope.new
      have hself := (hok.getOrCreate_self (maxScopesPerShard_pos cfg) c.key Scope.new).1
      have hmodify := hget.find_modify_of_ne hne hself fun sc => sc.observeLocked (cfg.epoch t) bits
      have hfind := hok.find_getOrCreate_of_ne cfg.maxScopesPerShard hne Scope.new
      refine hmodify.trans (hfind.trans (if_pos ?_))
      by_contra hgone
      exact hkept (hmodify.trans (hfind.trans (if_neg hgone)))
    · rw [home_step_of_ne heq]

end scope

end Kseal.Fleet
