import Kseal.Server.FleetTable

/-!
# What the fleet windows count (`data-plane/fleet/engine.go`)

The observations of a cohort come with epochs, which may be late by less than the number of buckets
(`fleet_windows_exact`).
-/

namespace Kseal.Fleet

open Infra List Option

variable {cfg : Settings}

/-! ## Buckets -/

def bucketCell (cfg : Settings) : Cell (Bucket cfg) UInt64 where
  epoch := Bucket.epoch
  fresh e := ⟨e, 0, fun _ => 0⟩
  add := Bucket.add
  epoch_fresh _ := rfl
  epoch_add _ _ := rfl

def Scope.folded (sc : Scope cfg) (ep : Int) : Option (Bucket cfg) :=
  let b := sc.ring (ringSlot cfg.buckets ep)
  if b.epoch ≠ ep ∧ b.epoch ≠ 0 ∧ b.total > 0 then some b else none

theorem ring_observeLocked (sc : Scope cfg) (ep : Int) (bits : UInt64) :
    (sc.observeLocked ep bits).ring = (bucketCell cfg).place sc.ring ep bits := by
  unfold Scope.observeLocked Cell.place
  by_cases hep : (sc.ring (ringSlot cfg.buckets ep)).epoch = ep
  · rw [if_neg (not_not.mpr hep), Cell.live_of_eq hep]
    rfl
  · rw [if_pos hep, Cell.live_of_ne hep]
    split
    · rfl
    · rfl

theorem baselines_observeLocked (sc : Scope cfg) (ep : Int) (bits : UInt64) :
    ((sc.observeLocked ep bits).baseline, (sc.observeLocked ep bits).volBaseline) =
      match sc.folded ep with
      | some b => ((sc.foldBaseline b).baseline, (sc.foldBaseline b).volBaseline)
      | none => (sc.baseline, sc.volBaseline) := by
  unfold Scope.observeLocked Scope.folded
  by_cases hep : (sc.ring (ringSlot cfg.buckets ep)).epoch = ep
  · simp [hep]
  · by_cases hfold : (sc.ring (ringSlot cfg.buckets ep)).epoch ≠ 0 ∧
      (sc.ring (ringSlot cfg.buckets ep)).total > 0
    · simp [hep, hfold]
    · simp [hep, hfold]

/-! ## The sums of a window -/

section sums

variable {sc : Scope cfg} {h : List (Int × UInt64)} {ep : Int}

def observedIn (cfg : Settings) (ep : Int) (h : List (Int × UInt64)) : Nat :=
  (itemsIn cfg.buckets ep h).length

def signalsIn (cfg : Settings) (ep : Int) (h : List (Int × UInt64))
    (i : Fin cfg.signals.length) : Nat :=
  (itemsIn cfg.buckets ep h).countP (meets cfg i)

theorem total_add (b : Bucket cfg) (bits : UInt64) : (b.add bits).total = b.total + 1 := rfl

theorem counts_add (b : Bucket cfg) (bits : UInt64) (i : Fin cfg.signals.length) :
    (b.add bits).counts i = b.counts i + if meets cfg i bits = true then 1 else 0 := by
  unfold Bucket.add meets
  simp only [decide_eq_true_iff]
  split
  · rfl
  · rfl

def WindowSums.add (sums : WindowSums cfg) (b : Bucket cfg) : WindowSums cfg :=
  ⟨sums.total + b.total, fun j => sums.counts j + b.counts j⟩

theorem total_windowSums (hholds : (bucketCell cfg).Holds sc.ring h) (hep : ∀ x ∈ h, x.1 ≤ ep) :
    (sc.windowSums ep).total = observedIn cfg ep h := by
  have hloop := Cell.foldl_window (C := bucketCell cfg) (f := Bucket.total)
    (g := WindowSums.total) sc.ring ep WindowSums.add (fun _ _ => rfl) ⟨0, fun _ => 0⟩
  refine hloop.trans ((Nat.zero_add _).trans ?_)
  rw [hholds.sum_window (g := fun _ => 1) (fun _ => rfl) total_add hep, observedIn]
  simp

theorem counts_windowSums (hholds : (bucketCell cfg).Holds sc.ring h) (hep : ∀ x ∈ h, x.1 ≤ ep)
    (i : Fin cfg.signals.length) : (sc.windowSums ep).counts i = signalsIn cfg ep h i := by
  have hloop := Cell.foldl_window (C := bucketCell cfg) (f := fun b => b.counts i)
    (g := fun sums : WindowSums cfg => sums.counts i) sc.ring ep WindowSums.add (fun _ _ => rfl)
    ⟨0, fun _ => 0⟩
  refine hloop.trans ((Nat.zero_add _).trans ?_)
  rw [signalsIn, ← sum_ite_eq_countP]
  exact hholds.sum_window (f := fun b => b.counts i) (fun _ => rfl)
    (fun b bits => counts_add b bits i) hep

end sums

/-! ## The observations of one cohort -/

theorem itemsAt_ne_nil {h : List (Int × UInt64)} {x : Int × UInt64} {e : Int} (hx : x ∈ h)
    (hxe : x.1 = e) : itemsAt h e ≠ [] := by
  unfold itemsAt
  rw [ne_eq, map_eq_nil_iff, filter_eq_nil_iff]
  intro hnone
  exact hnone x hx (by simpa using hxe)

theorem total_fill (e : Int) (xs : List UInt64) : ((bucketCell cfg).fill e xs).total = xs.length := by
  rw [Cell.measure_fill (f := Bucket.total) (g := fun _ => 1) (fun _ => rfl) total_add]
  simp

theorem counts_fill (e : Int) (xs : List UInt64) (i : Fin cfg.signals.length) :
    ((bucketCell cfg).fill e xs).counts i = xs.countP (meets cfg i) := by
  rw [← sum_ite_eq_countP]
  exact Cell.measure_fill (C := bucketCell cfg) (f := fun b => b.counts i) (fun _ => rfl)
    (fun b bits => counts_add b bits i) e xs

/-- The observations come in time: each epoch is positive, and above the largest one before it minus
the number of buckets. -/
def InTime (cfg : Settings) (h : List (Int × UInt64)) : Prop :=
  ∀ before x, before ++ [x] <+: h → Cell.Timely cfg.buckets before x.1

theorem InTime.initial {h h' : List (Int × UInt64)} (ht : InTime cfg h') (hpre : h <+: h') :
    InTime cfg h :=
  fun before x hbefore => ht before x (hbefore.trans hpre)

/-- A cohort after observations, and the buckets it has folded into its baselines, each with the
epoch of the observation that recycled it. -/
def observeAll (cfg : Settings) (h : List (Int × UInt64)) : Scope cfg × List (Bucket cfg × Int) :=
  h.foldl (fun s x => (s.1.observeLocked x.1 x.2, s.2 ++ ((s.1.folded x.1).map (·, x.1)).toList))
    (Scope.new, [])

theorem observeAll_append (h : List (Int × UInt64)) (x : Int × UInt64) :
    observeAll cfg (h ++ [x]) =
      ((observeAll cfg h).1.observeLocked x.1 x.2,
        (observeAll cfg h).2 ++ (((observeAll cfg h).1.folded x.1).map (·, x.1)).toList) := by
  unfold observeAll
  rw [foldl_append, foldl_cons, foldl_nil]

def foldAll (cfg : Settings) (bs : List (Bucket cfg)) : Scope cfg :=
  bs.foldl Scope.foldBaseline Scope.new

/-- The cohort's ring and baselines after observations `h`, of which the buckets in `log` were
folded. -/
structure Tracks (sc : Scope cfg) (h : List (Int × UInt64)) (log : List (Bucket cfg × Int)) :
    Prop where
  holds : (bucketCell cfg).Holds sc.ring h
  retired : (bucketCell cfg).Retired sc.ring h log
  baseline : sc.baseline = (foldAll cfg (log.map Prod.fst)).baseline
  volBaseline : sc.volBaseline = (foldAll cfg (log.map Prod.fst)).volBaseline

section tracks

variable {sc : Scope cfg} {h : List (Int × UInt64)} {log : List (Bucket cfg × Int)} {ep : Int}

theorem folded_eq_retire (hholds : (bucketCell cfg).Holds sc.ring h) :
    sc.folded ep = (bucketCell cfg).retire sc.ring ep := by
  have htotal : (sc.ring (ringSlot cfg.buckets ep)).epoch ≠ 0 →
      0 < (sc.ring (ringSlot cfg.buckets ep)).total := by
    intro h0
    obtain ⟨x, hx, hxe⟩ := (hholds.seen (ringSlot cfg.buckets ep)).resolve_left h0
    rw [hholds.content (ringSlot cfg.buckets ep), total_fill, length_pos_iff]
    exact itemsAt_ne_nil hx hxe
  refine if_congr ?_ rfl rfl
  constructor
  · exact fun hfold => ⟨hfold.1, hfold.2.1⟩
  · exact fun hfold => ⟨hfold.1, hfold.2, htotal hfold.2⟩

theorem foldBaseline_congr {sc sc' : Scope cfg} (hb : sc.baseline = sc'.baseline)
    (hv : sc.volBaseline = sc'.volBaseline) (b : Bucket cfg) :
    (sc.foldBaseline b).baseline = (sc'.foldBaseline b).baseline ∧
      (sc.foldBaseline b).volBaseline = (sc'.foldBaseline b).volBaseline := by
  unfold Scope.foldBaseline
  rw [hb, hv]
  exact ⟨rfl, rfl⟩

/-- **One observation more.** -/
theorem Tracks.observe (T : Tracks sc h log) {x : Int × UInt64}
    (ht : Cell.Timely cfg.buckets h x.1) :
    Tracks (sc.observeLocked x.1 x.2) (h ++ [x])
      (log ++ ((sc.folded x.1).map (·, x.1)).toList) := by
  have hbase := baselines_observeLocked sc x.1 x.2
  have hring := ring_observeLocked sc x.1 x.2
  cases hfold : sc.folded x.1 with
  | none =>
    rw [hfold, Prod.mk.injEq] at hbase
    rw [map_none, toList_none, append_nil]
    refine ⟨hring ▸ T.holds.place ht x.2, hring ▸ T.retired.place ht x.2, ?_, ?_⟩
    · rw [hbase.1, T.baseline]
    · rw [hbase.2, T.volBaseline]
  | some b =>
    rw [hfold, Prod.mk.injEq] at hbase
    rw [folded_eq_retire T.holds] at hfold
    have hcongr := foldBaseline_congr T.baseline T.volBaseline b
    refine ⟨hring ▸ T.holds.place ht x.2, hring ▸ T.retired.push T.holds ht x.2 hfold, ?_, ?_⟩
    · rw [hbase.1, hcongr.1, map_append, foldAll, foldAll, foldl_append]
      rfl
    · rw [hbase.2, hcongr.2, map_append, foldAll, foldAll, foldl_append]
      rfl

/-- **All observations.** -/
theorem tracks_observeAll (h : List (Int × UInt64)) (ht : InTime cfg h) :
    Tracks (observeAll cfg h).1 h (observeAll cfg h).2 := by
  induction h using List.reverseRecOn with
  | nil => exact ⟨Cell.Holds.empty, Cell.Retired.empty, rfl, rfl⟩
  | append_singleton h x ih =>
    rw [observeAll_append]
    exact (ih (ht.initial (prefix_append ..))).observe (ht h x prefix_rfl)

end tracks

/-! ## A cohort that is never evicted -/

def observationFor (cfg : Settings) (k : ScopeKey) (c : Call) : Option (Int × UInt64) :=
  if c.key = k then c.observation.map fun o => (cfg.epoch o.1, o.2) else none

def observations (cfg : Settings) (k : ScopeKey) (calls : List Call) : List (Int × UInt64) :=
  calls.filterMap (observationFor cfg k)

def NeverEvicted (cfg : Settings) (k : ScopeKey) (calls : List Call) : Prop :=
  ∀ before, before <+: calls → observations cfg k before ≠ [] → (run cfg before).scope k ≠ none

theorem observations_append (k : ScopeKey) (calls : List Call) (c : Call) :
    observations cfg k (calls ++ [c]) =
      observations cfg k calls ++ (observationFor cfg k c).toList := by
  unfold observations
  cases hc : observationFor cfg k c <;> simp [hc]

/-- **The cohort has counted all its observations**, whatever else was called. -/
theorem scope_run {k : ScopeKey} {calls : List Call} (hkeep : NeverEvicted cfg k calls) :
    (run cfg calls).scope k =
      if observations cfg k calls = [] then none
      else some (observeAll cfg (observations cfg k calls)).1 := by
  induction calls using List.reverseRecOn with
  | nil => rfl
  | append_singleton calls c ih =>
    have hih := ih fun before hbefore => hkeep before (hbefore.trans (prefix_append ..))
    have H : Inv (run cfg calls) (uses cfg calls) := Inv.run calls
    have hafter := hkeep (calls ++ [c]) prefix_rfl
    rw [run_append] at hafter ⊢
    rw [observations_append] at hafter ⊢
    cases hobs : observationFor cfg k c with
    | some x =>
      obtain ⟨hk, hsome⟩ := ite_none_right_eq_some.mp hobs
      obtain ⟨o, ho, rfl⟩ := map_eq_some_iff.mp hsome
      have hbefore : ((run cfg calls).scope k).getD Scope.new =
          (observeAll cfg (observations cfg k calls)).1 := by
        rw [hih]
        by_cases hnil : observations cfg k calls = []
        · rw [hnil]
          rfl
        · rw [if_neg hnil]
          rfl
      have hstep := H.scope_observe ho
      rw [hk, hbefore] at hstep
      rw [hstep, toList_some, if_neg (append_ne_nil_of_right_ne_nil _ (by simp)),
        observeAll_append]
    | none =>
      rw [hobs, toList_none, append_nil] at hafter
      rw [toList_none, append_nil, ← hih]
      by_cases hk : c.key = k
      · have hnone : c.observation = none := by
          unfold observationFor at hobs
          rwa [if_pos hk, map_eq_none_iff] at hobs
        exact scope_assess hnone k
      · by_cases hgone : ((run cfg calls).step c).scope k = none
        · by_cases hnil : observations cfg k calls = []
          · rw [hgone, hih, if_pos hnil]
          · exact absurd hgone (hafter hnil)
        · exact H.scope_step_of_ne (Ne.symm hk) hgone

theorem neverEvicted_of_forall {k : ScopeKey} {calls : List Call} (hk : ∀ c ∈ calls, c.key = k) :
    NeverEvicted cfg k calls := by
  intro before hbefore hne
  have hk' : ∀ c ∈ before, c.key = k := fun c hc => hk c (hbefore.subset hc)
  clear hbefore
  induction before using List.reverseRecOn with
  | nil => exact absurd rfl hne
  | append_singleton before c ih =>
    have hc := hk' c (by simp)
    have H : Inv (run cfg before) (uses cfg before) := Inv.run before
    rw [run_append]
    cases hobs : c.observation with
    | some o =>
      have hstep := H.scope_observe hobs
      rw [hc] at hstep
      rw [hstep]
      exact some_ne_none _
    | none =>
      rw [scope_assess hobs]
      refine ih ?_ fun c hc => hk' c (mem_append_left _ hc)
      rwa [observations_append, observationFor, if_pos hc, hobs, map_none,
        toList_none, append_nil] at hne

/-! ## Assessments -/

def assessed (sc : Option (Scope cfg)) (ep : Int) : Assessment :=
  match sc with
  | some sc => sc.assessLocked ep
  | none => .zero

theorem assessElement_eq (sh : Shard cfg) {k : ScopeKey} {id : Nat}
    (hid : sh.byKey.lookup k = some id) (ep : Int) :
    assessElement sh id ep = assessed (sh.find k) ep := by
  rw [Lru.find_of_lookup hid]
  unfold assessElement
  cases sh.cells[id]? <;> rfl

theorem assess_eq (e : Engine cfg) (k : ScopeKey) (now : Int) :
    (e.assess k now).2 = assessed (e.scope k) (cfg.epoch now) := by
  rw [Engine.assess, Engine.scope, Engine.home]
  split
  · next hlook =>
    rw [Lru.find_eq_none_of_lookup hlook]
    rfl
  · next id hlook => exact assessElement_eq ((e.shards (shardFor k)).touch id) hlook _

section exact

variable {k : ScopeKey} {calls : List Call}

theorem windowSums_run (hkeep : NeverEvicted cfg k calls)
    (htime : InTime cfg (observations cfg k calls)) {ep : Int}
    (hep : ∀ x ∈ observations cfg k calls, x.1 ≤ ep) :
    (assessed ((run cfg calls).scope k) ep).observed =
      observedIn cfg ep (observations cfg k calls) ∧
    ∀ sc, (run cfg calls).scope k = some sc →
      (sc.windowSums ep).total = observedIn cfg ep (observations cfg k calls) ∧
      ∀ i, (sc.windowSums ep).counts i = signalsIn cfg ep (observations cfg k calls) i := by
  have T := tracks_observeAll (observations cfg k calls) htime
  rw [scope_run hkeep]
  by_cases hnil : observations cfg k calls = []
  · rw [hnil]
    exact ⟨rfl, fun sc hsc => by cases hsc⟩
  · rw [if_neg hnil]
    refine ⟨total_windowSums T.holds hep, fun sc hsc => ?_⟩
    cases hsc
    exact ⟨total_windowSums T.holds hep, counts_windowSums T.holds hep⟩

/-- The buckets that were folded into the baselines of a cohort: each with the epoch that recycled
it. -/
structure FoldedOnce (cfg : Settings) (h : List (Int × UInt64)) (log : List (Bucket cfg × Int)) :
    Prop where
  once : (log.map fun b => b.1.epoch).Nodup
  later : ∀ b ∈ log, b.1.epoch + cfg.buckets ≤ b.2 ∧ ∃ x ∈ h, x.1 = b.2
  nonempty : ∀ b ∈ log, 0 < b.1.total
  complete : ∀ b ∈ log, b.1.total = (itemsAt h b.1.epoch).length ∧
    ∀ i, b.1.counts i = (itemsAt h b.1.epoch).countP (meets cfg i)

theorem foldedOnce_observeAll {h : List (Int × UInt64)} (ht : InTime cfg h) :
    FoldedOnce cfg h (observeAll cfg h).2 := by
  have T := tracks_observeAll h ht
  have hcomplete : ∀ b ∈ (observeAll cfg h).2, b.1.total = (itemsAt h b.1.epoch).length ∧
      ∀ i, b.1.counts i = (itemsAt h b.1.epoch).countP (meets cfg i) := by
    intro b hb
    have hcontent : b.1 = (bucketCell cfg).fill b.1.epoch (itemsAt h b.1.epoch) :=
      T.retired.content b hb
    constructor
    · conv_lhs => rw [hcontent, total_fill]
    · intro i
      conv_lhs => rw [hcontent, counts_fill]
  refine ⟨T.retired.once, fun b hb => ⟨T.retired.later b hb, T.retired.started b hb⟩,
    fun b hb => ?_, hcomplete⟩
  obtain ⟨x, hx, hxe⟩ := T.retired.seen b hb
  rw [(hcomplete b hb).1, length_pos_iff]
  exact itemsAt_ne_nil hx hxe

end exact

/--
**Fleet windows count exactly.**

For a cohort that is never evicted and whose observations come in time: an assessment at an epoch
not below theirs counts the observations of the window, and for every signal those that have one of
its bits. The baselines are what the folded buckets make of them; no epoch is folded twice, each with
all its observations, and only when a bucket starts that is `Buckets` or more epochs later.
-/
theorem fleet_windows_exact (cfg : Settings) (k : ScopeKey) (calls : List Call)
    (hkeep : NeverEvicted cfg k calls) (htime : InTime cfg (observations cfg k calls)) :
    (∀ now, (∀ x ∈ observations cfg k calls, x.1 ≤ cfg.epoch now) →
      ((run cfg calls).assess k now).2.observed =
        observedIn cfg (cfg.epoch now) (observations cfg k calls) ∧
      ∀ sc, (run cfg calls).scope k = some sc → ∀ i,
        (sc.windowSums (cfg.epoch now)).counts i =
          signalsIn cfg (cfg.epoch now) (observations cfg k calls) i) ∧
    (∀ sc, (run cfg calls).scope k = some sc →
      sc.baseline = (foldAll cfg ((observeAll cfg (observations cfg k calls)).2.map
        Prod.fst)).baseline ∧
      sc.volBaseline = (foldAll cfg ((observeAll cfg (observations cfg k calls)).2.map
        Prod.fst)).volBaseline) ∧
    FoldedOnce cfg (observations cfg k calls) (observeAll cfg (observations cfg k calls)).2 := by
  have T := tracks_observeAll (observations cfg k calls) htime
  refine ⟨fun now hnow => ?_, fun sc hsc => ?_, foldedOnce_observeAll htime⟩
  · obtain ⟨hobserved, hcounts⟩ := windowSums_run hkeep htime hnow
    rw [assess_eq]
    exact ⟨hobserved, fun sc hsc => (hcounts sc hsc).2⟩
  · rw [scope_run hkeep] at hsc
    split at hsc
    · cases hsc
    · cases hsc
      exact ⟨T.baseline, T.volBaseline⟩

def lateArrival : List Call :=
  [.observe ⟨[116], [97], [98], []⟩ 1 3000000000000, .observe ⟨[116], [97], [98], []⟩ 4 2800000000000]

theorem fleet_windows_exact_lateArrival :
    observations (new defaultConfig) ⟨[116], [97], [98], []⟩ lateArrival = [(100, 1), (93, 4)] ∧
      ((run (new defaultConfig) lateArrival).assess ⟨[116], [97], [98], []⟩
        3000000000000).2.observed = 2 := by
  have hobs : observations (new defaultConfig) ⟨[116], [97], [98], []⟩ lateArrival =
      [(100, 1), (93, 4)] := by decide +kernel
  have htime : InTime (new defaultConfig)
      (observations (new defaultConfig) ⟨[116], [97], [98], []⟩ lateArrival) := by
    rw [hobs]
    rintro before x ⟨after, hafter⟩
    rcases before with _ | ⟨y, _ | ⟨z, rest⟩⟩ <;> simp at hafter
    · obtain ⟨rfl, -⟩ := hafter
      exact ⟨by decide, by simp⟩
    · obtain ⟨rfl, rfl, -⟩ := hafter
      exact ⟨by decide, by decide +kernel⟩
  have hexact := (fleet_windows_exact (new defaultConfig) ⟨[116], [97], [98], []⟩ lateArrival
    (neverEvicted_of_forall (by simp [lateArrival, Call.key])) htime).1 3000000000000
    (by rw [hobs]; decide +kernel)
  decide +kernel

end Kseal.Fleet
