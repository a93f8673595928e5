import Mathlib.Algebra.Group.Int.Defs
import Mathlib.Data.List.Basic
import Kseal.Ingest.EventCodec

/-!
# Retention of raw events (`ingest/retention.go`, `ingest/writer.go`)

The days of a window are a Go `int` that nothing bounds, and the cutoff is computed in 64 bits
(`purgeOnce_exact_iff`).
-/

namespace Kseal.Ingest

open Infra List

/-! ## Contexts -/

/--
A context, by what its checks will answer: `none` is never cancelled, and `some n` is seen
cancelled by every check but the first `n`.
-/
abbrev Ctx := Option Nat

def Ctx.err : Ctx → Bool × Ctx
  | none => (false, none)
  | some 0 => (true, some 0)
  | some (n + 1) => (false, some n)

/-! ## The store -/

def tenantIDs (events : List StoredEvent) : List Bytes :=
  events.foldl (fun out e => if e.tenantID ∈ out then out else out ++ [e.tenantID]) []

structure Scan where
  kept : List StoredEvent
  purged : Nat
deriving DecidableEq

def expired (tenantID : Bytes) (cutoffBucket : Int64) (e : StoredEvent) : Bool :=
  e.tenantID = tenantID && e.timeBucket < cutoffBucket

def scanEvents (tenantID : Bytes) (cutoffBucket : Int64) :
    Nat → List StoredEvent → Ctx → Scan → Scan × Ctx × Bool
  | _, [], ctx, s => (s, ctx, false)
  | i, e :: es, ctx, s =>
    let check := if i &&& 1023 = 0 then ctx.err else (false, ctx)
    if check.1 then (s, check.2, true)
    else if expired tenantID cutoffBucket e then
      scanEvents tenantID cutoffBucket (i + 1) es check.2 { s with purged := s.purged + 1 }
    else scanEvents tenantID cutoffBucket (i + 1) es check.2 { s with kept := s.kept ++ [e] }

structure Purge where
  events : List StoredEvent
  ctx : Ctx
  purged : Nat
  failed : Bool
deriving DecidableEq

def purgeRawEventsOlderThan (events : List StoredEvent) (ctx : Ctx) (tenantID : Bytes)
    (cutoffBucket : Int64) : Purge :=
  match scanEvents tenantID cutoffBucket 0 events ctx ⟨[], 0⟩ with
  -- Cancellation skips the assignment to `s.events`.
  | (s, ctx, true) => ⟨events, ctx, s.purged, true⟩
  | (s, ctx, false) => ⟨s.kept, ctx, s.purged, false⟩

/-! ## The purger -/

def secondsPerDay : Int64 := 24 * 60 * 60

structure Purger (ε : Type) where
  resolver : Bytes → Except ε (Option Int64)
  defaultDays : Int64

def Purger.retentionDaysFor {ε : Type} (p : Purger ε) (tenantID : Bytes) : Except ε Int64 :=
  match p.resolver tenantID with
  | .error err => .error err
  | .ok (some days) => .ok days
  | .ok none => .ok p.defaultDays

inductive PurgeError (ε : Type) where
  /-- With the text "retention for tenant %s: %w". -/
  | retention (tenantID : Bytes) (err : ε)
  /-- With the text "purge tenant %s: %w", of the error of the context. -/
  | purge (tenantID : Bytes)
  /-- The error of the context. -/
  | canceled
deriving DecidableEq

structure Pass (ε : Type) where
  events : List StoredEvent
  ctx : Ctx
  tenantsScanned : Nat
  eventsPurged : Nat
  errs : List (PurgeError ε)
deriving DecidableEq

def cutoff (now days : Int64) : Int64 := now - days * secondsPerDay

section purger

variable {ε : Type} (p : Purger ε) (now : Int64)

def purgeTenant (s : Pass ε) (tenantID : Bytes) : Pass ε :=
  match p.retentionDaysFor tenantID with
  | .error err => { s with errs := s.errs ++ [.retention tenantID err] }
  | .ok days =>
    if days ≤ 0 then s
    else
      let r := purgeRawEventsOlderThan s.events s.ctx tenantID (cutoff now days)
      if r.failed then
        { s with events := r.events, ctx := r.ctx, errs := s.errs ++ [.purge tenantID] }
      else
        { s with events := r.events, ctx := r.ctx, eventsPurged := s.eventsPurged + r.purged }

def purgeLoop : List Bytes → Pass ε → Pass ε
  | [], s => s
  | tenantID :: tenants, s =>
    if s.ctx.err.1 then { s with ctx := s.ctx.err.2, errs := s.errs ++ [.canceled] }
    else purgeLoop tenants (purgeTenant p now { s with ctx := s.ctx.err.2 } tenantID)

def purgeOnce (events : List StoredEvent) (ctx : Ctx) : Pass ε :=
  let tenants := tenantIDs events
  purgeLoop p now tenants ⟨events, ctx, tenants.length, 0, []⟩

end purger

/-! ## A call of the store -/

theorem nodup_tenantIDs (events : List StoredEvent) : (tenantIDs events).Nodup := by
  have hloop : ∀ (es : List StoredEvent) (out : List Bytes), out.Nodup →
      (es.foldl (fun out e => if e.tenantID ∈ out then out else out ++ [e.tenantID])
        out).Nodup := by
    intro es
    induction es with
    | nil => exact fun out h => h
    | cons e es ih =>
      intro out h
      rw [foldl_cons]
      split
      · exact ih out h
      · next hnew => exact ih _ (nodup_append.mpr ⟨h, by simp, by simp; grind⟩)
  exact hloop events [] nodup_nil

theorem scanEvents_complete (tenantID : Bytes) (cutoffBucket : Int64) (es : List StoredEvent) :
    ∀ (i : Nat) (ctx : Ctx) (s : Scan),
      (scanEvents tenantID cutoffBucket i es ctx s).2.2 = false →
      (scanEvents tenantID cutoffBucket i es ctx s).1 =
        ⟨s.kept ++ es.filter (! expired tenantID cutoffBucket ·),
          s.purged + es.countP (expired tenantID cutoffBucket)⟩ := by
  induction es with
  | nil => intro i ctx s _; simp [scanEvents]
  | cons e es ih =>
    intro i ctx s h
    simp only [scanEvents] at h ⊢
    generalize (if i &&& 1023 = 0 then ctx.err else (false, ctx)) = check at h ⊢
    by_cases hstop : check.1 = true
    · rw [if_pos hstop] at h
      cases h
    · rw [if_neg hstop] at h ⊢
      by_cases hexp : expired tenantID cutoffBucket e = true
      · rw [if_pos hexp] at h ⊢
        rw [ih _ _ _ h]
        simp [hexp, Nat.add_assoc, Nat.add_comm]
      · rw [if_neg hexp] at h ⊢
        rw [ih _ _ _ h]
        simp [hexp]

/-- **A call that fails leaves the store as it was; one that succeeds drops what has expired.** -/
theorem purgeRawEventsOlderThan_spec (events : List StoredEvent) (ctx : Ctx) (tenantID : Bytes)
    (cutoffBucket : Int64) :
    let r := purgeRawEventsOlderThan events ctx tenantID cutoffBucket
    (r.failed = true ∧ r.events = events) ∨
    (r.failed = false ∧ r.events = events.filter (! expired tenantID cutoffBucket ·) ∧
      r.purged = events.countP (expired tenantID cutoffBucket)) := by
  have hdone := scanEvents_complete tenantID cutoffBucket events 0 ctx ⟨[], 0⟩
  unfold purgeRawEventsOlderThan
  rcases hscan : scanEvents tenantID cutoffBucket 0 events ctx ⟨[], 0⟩ with ⟨s, ctx', stop⟩
  rw [hscan] at hdone
  cases stop with
  | true => exact .inl ⟨rfl, rfl⟩
  | false =>
    have hs : s = _ := hdone rfl
    subst hs
    exact .inr ⟨rfl, by simp, by simp⟩

/-! ## A pass -/

def ofTenant (tenantID : Bytes) (events : List StoredEvent) : List StoredEvent :=
  events.filter (·.tenantID = tenantID)

section outcome

variable {ε : Type} {p : Purger ε} {now : Int64} {tenantID : Bytes} {tenants : List Bytes}
  {s t u : Pass ε}

def BeforeCutoff (p : Purger ε) (now : Int64) (e : StoredEvent) : Prop :=
  ∃ days, p.retentionDaysFor e.tenantID = .ok days ∧ 0 < days ∧ e.timeBucket < cutoff now days

structure Outcome (p : Purger ε) (now : Int64) (tenants : List Bytes) (s t : Pass ε) : Prop where
  dropped : ∃ drop : StoredEvent → Bool, t.events = s.events.filter (! drop ·) ∧
    ∀ e, drop e = true → e.tenantID ∈ tenants ∧ BeforeCutoff p now e
  counted : t.eventsPurged + t.events.length = s.eventsPurged + s.events.length
  /-- The tenant of a new error is one of `tenants`. -/
  errs : ∀ tenantID, .purge tenantID ∈ t.errs → .purge tenantID ∈ s.errs ∨ tenantID ∈ tenants

theorem Outcome.same (hevents : t.events = s.events) (hcount : t.eventsPurged = s.eventsPurged)
    (herrs : ∀ tenantID, .purge tenantID ∈ t.errs → .purge tenantID ∈ s.errs ∨ tenantID ∈ tenants) :
    Outcome p now tenants s t :=
  ⟨⟨fun _ => false, by rw [hevents]; exact (filter_true _).symm, by simp⟩,
    by rw [hevents, hcount], herrs⟩

theorem Outcome.trans (h : Outcome p now [tenantID] s t) (h' : Outcome p now tenants t u) :
    Outcome p now (tenantID :: tenants) s u := by
  obtain ⟨drop, hevents, hdrop⟩ := h.dropped
  obtain ⟨drop', hevents', hdrop'⟩ := h'.dropped
  refine ⟨⟨fun e => drop' e || drop e, ?_, ?_⟩, h'.counted.trans h.counted, ?_⟩
  · rw [hevents', hevents]
    simp
  · intro e he
    rcases Bool.or_eq_true_iff.mp he with he | he
    · exact ⟨mem_cons_of_mem _ (hdrop' e he).1, (hdrop' e he).2⟩
    · exact ⟨mem_cons.mpr (.inl (mem_singleton.mp (hdrop e he).1)), (hdrop e he).2⟩
  · intro x hx
    rcases h'.errs x hx with hx | hx
    · exact (h.errs x hx).imp_right fun hx => mem_cons.mpr (.inl (mem_singleton.mp hx))
    · exact .inr (mem_cons_of_mem _ hx)

theorem purgeTenant_outcome (p : Purger ε) (now : Int64) (s : Pass ε) (tenantID : Bytes) :
    Outcome p now [tenantID] s (purgeTenant p now s tenantID) := by
  unfold purgeTenant
  split
  · exact .same rfl rfl (by simp +contextual)
  · next days hdays =>
    split
    · exact .same rfl rfl (by simp +contextual)
    · next hpos =>
      rcases purgeRawEventsOlderThan_spec s.events s.ctx tenantID (cutoff now days) with
        ⟨hfailed, hevents⟩ | ⟨hfailed, hevents, hpurged⟩
      · simp only [hfailed]
        exact .same hevents rfl (by simp)
      · simp only [hfailed, Bool.false_eq_true, if_false]
        refine ⟨⟨expired tenantID (cutoff now days), hevents, ?_⟩, ?_, by simp +contextual⟩
        · intro e he
          simp only [expired, Bool.and_eq_true, decide_eq_true_eq] at he
          exact ⟨by simp [he.1], days, by rw [he.1]; exact hdays, Int64.not_le.mp hpos, he.2⟩
        · have hsplit := length_eq_length_filter_add (l := s.events)
            (expired tenantID (cutoff now days))
          simp only [hevents, hpurged, countP_eq_length_filter]
          omega

/-- **A pass deletes events of tenants with a window, before their cutoff, and counts them.** -/
theorem purgeLoop_outcome (p : Purger ε) (now : Int64) : ∀ (tenants : List Bytes) (s : Pass ε),
    Outcome p now tenants s (purgeLoop p now tenants s)
  | [], s => .same rfl rfl fun _ h => .inl h
  | tenantID :: tenants, s => by
    unfold purgeLoop
    split
    · exact .same rfl rfl (by simp +contextual)
    · have hstep := purgeTenant_outcome p now { s with ctx := s.ctx.err.2 } tenantID
      exact .trans ⟨hstep.dropped, hstep.counted, hstep.errs⟩ (purgeLoop_outcome p now tenants _)

theorem Outcome.ofTenant_eq (h : Outcome p now tenants s t)
    (hkept : ∀ e, e.tenantID = tenantID → ¬ (tenantID ∈ tenants ∧ BeforeCutoff p now e)) :
    ofTenant tenantID t.events = ofTenant tenantID s.events := by
  obtain ⟨drop, hevents, hdrop⟩ := h.dropped
  unfold ofTenant
  rw [hevents, filter_filter]
  refine filter_congr fun e _ => ?_
  by_cases htenant : e.tenantID = tenantID
  · have : drop e = false := by
      rw [Bool.eq_false_iff]
      intro he
      exact hkept e htenant (htenant ▸ hdrop e he)
    simp [this]
  · simp [htenant]

theorem purgeTenant_failed (h : .purge tenantID ∈ (purgeTenant p now s tenantID).errs)
    (hnew : .purge tenantID ∉ s.errs) : (purgeTenant p now s tenantID).events = s.events := by
  unfold purgeTenant at h ⊢
  split
  · rfl
  · next days hdays =>
    split
    · rfl
    · next hpos =>
      simp only [hdays, hpos] at h
      rcases purgeRawEventsOlderThan_spec s.events s.ctx tenantID (cutoff now days) with
        ⟨hfailed, hevents⟩ | ⟨hfailed, -, -⟩
      · simp only [hfailed]
        exact hevents
      · simp only [hfailed] at h
        exact absurd h hnew

theorem purgeLoop_failed : ∀ (tenants : List Bytes) (s : Pass ε), tenants.Nodup →
    .purge tenantID ∉ s.errs → .purge tenantID ∈ (purgeLoop p now tenants s).errs →
    ofTenant tenantID (purgeLoop p now tenants s).events = ofTenant tenantID s.events
  | [], s, _, _, _ => rfl
  | x :: tenants, s, hnodup, hnew, h => by
    obtain ⟨hx, hnodup⟩ := nodup_cons.mp hnodup
    unfold purgeLoop at h ⊢
    split
    · rfl
    · next hgo =>
      rw [if_neg hgo] at h
      generalize hs' : ({ s with ctx := s.ctx.err.2 } : Pass ε) = s' at h ⊢
      have hevents : s'.events = s.events := by rw [← hs']
      have hnew' : .purge tenantID ∉ s'.errs := by rw [← hs']; exact hnew
      have hstep := purgeTenant_outcome p now s' x
      have hrest := purgeLoop_outcome p now tenants (purgeTenant p now s' x)
      by_cases hfailed : .purge tenantID ∈ (purgeTenant p now s' x).errs
      · -- The purge of `x` failed, and `x` does not come again.
        obtain rfl : tenantID = x := by
          rcases hstep.errs _ hfailed with hold | hx
          · exact absurd hold hnew'
          · exact mem_singleton.mp hx
        rw [hrest.ofTenant_eq fun _ _ hmem => hx hmem.1, purgeTenant_failed hfailed hnew', hevents]
      · -- It is the purge of a later tenant that fails.
        have hne : tenantID ≠ x := by
          rintro rfl
          rcases hrest.errs _ h with hold | hmem
          · exact hfailed hold
          · exact hx hmem
        rw [purgeLoop_failed tenants _ hnodup hfailed h,
          hstep.ofTenant_eq fun _ _ hmem => hne (mem_singleton.mp hmem.1), hevents]

end outcome

/-! ## Days that fit -/

def DaysFit (now days : Int64) : Prop :=
  -2 ^ 63 ≤ now.toInt - 86400 * days.toInt ∨
    (2 : Int) ^ 64 ∣ now.toInt - 86400 * days.toInt + 2 ^ 63

instance (now days : Int64) : Decidable (DaysFit now days) :=
  inferInstanceAs (Decidable (_ ∨ _))

theorem toInt_cutoff (now days : Int64) :
    (cutoff now days).toInt = (now.toInt - 86400 * days.toInt).bmod (2 ^ 64) := by
  have hday : secondsPerDay.toInt = 86400 := by decide
  rw [cutoff, Int64.toInt_sub, Int64.toInt_mul, hday, Int.sub_bmod_bmod, Int.mul_comm]

/-- **The cutoff deletes no bucket that the exact one would keep exactly if the days fit.** -/
theorem days_fit_iff {now days : Int64} :
    (∀ bucket : Int64, bucket < cutoff now days → bucket.toInt < now.toInt - 86400 * days.toInt) ↔
      DaysFit now days := by
  have hcut := toInt_cutoff now days
  rw [Int.bmod_def] at hcut
  have hmin : Int64.minValue.toInt = -2 ^ 63 := by decide
  simp only [Int64.lt_iff_toInt_lt]
  unfold DaysFit
  constructor
  · intro h
    -- The least bucket is the one to be deleted too early.
    have hleast := h Int64.minValue
    omega
  · rintro hfit bucket hlt
    have hbucket := bucket.le_toInt
    omega

/-! ## Never early -/

structure Exact {ε : Type} (p : Purger ε) (now : Int64) (events : List StoredEvent) (t : Pass ε) :
    Prop where
  removed : ∀ e ∈ events, e ∉ t.events → ∃ days, p.retentionDaysFor e.tenantID = .ok days ∧
    0 < days.toInt ∧ e.timeBucket.toInt < now.toInt - 86400 * days.toInt
  indefinite : ∀ tenantID days, p.retentionDaysFor tenantID = .ok days → days.toInt ≤ 0 →
    ofTenant tenantID t.events = ofTenant tenantID events
  unresolved : ∀ tenantID err, p.retentionDaysFor tenantID = .error err →
    ofTenant tenantID t.events = ofTenant tenantID events
  cutShort : ∀ tenantID, .purge tenantID ∈ t.errs →
    ofTenant tenantID t.events = ofTenant tenantID events

theorem int64_pos_iff (x : Int64) : 0 < x ↔ 0 < x.toInt := by
  rw [Int64.lt_iff_toInt_lt]
  rfl

theorem purgeOnce_exact_of_fit {ε : Type} {p : Purger ε} {now : Int64}
    (hfit : ∀ tenantID days, p.retentionDaysFor tenantID = .ok days → 0 < days → DaysFit now days)
    (events : List StoredEvent) (ctx : Ctx) : Exact p now events (purgeOnce p now events ctx) := by
  have hrun := purgeLoop_outcome p now (tenantIDs events)
    ⟨events, ctx, (tenantIDs events).length, 0, []⟩
  refine ⟨?_, ?_, ?_, ?_⟩
  · intro e he hgone
    obtain ⟨drop, hevents, hdrop⟩ := hrun.dropped
    have hdropped : drop e = true := by
      by_contra hkept
      have hmem : e ∈ (purgeOnce p now events ctx).events := by
        rw [purgeOnce, hevents]
        exact mem_filter.mpr ⟨he, by simpa using hkept⟩
      exact hgone hmem
    obtain ⟨days, hdays, hpos, hbucket⟩ := (hdrop e hdropped).2
    exact ⟨days, hdays, (int64_pos_iff days).mp hpos,
      days_fit_iff.mpr (hfit _ days hdays hpos) _ hbucket⟩
  · intro tenantID days hdays hle
    refine hrun.ofTenant_eq ?_
    rintro e rfl ⟨-, days', hdays', hpos, -⟩
    obtain rfl : days = days' := Except.ok.inj (hdays.symm.trans hdays')
    have := (int64_pos_iff days).mp hpos
    omega
  · intro tenantID err herr
    refine hrun.ofTenant_eq ?_
    rintro e rfl ⟨-, days, hdays, -⟩
    rw [herr] at hdays
    cases hdays
  · intro tenantID hmem
    exact purgeLoop_failed _ _ (nodup_tenantIDs events) (by simp) hmem

def eventAt (tenantID : Bytes) (timeBucket : Int64) : StoredEvent :=
  ⟨[], tenantID, [], 0, 0, 0, 0, 0, [], [], [], timeBucket, [], 0, 0⟩

theorem purgeOnce_single {ε : Type} {p : Purger ε} {now days bucket : Int64} {tenantID : Bytes}
    (hdays : p.retentionDaysFor tenantID = .ok days) (hpos : 0 < days)
    (hbucket : bucket < cutoff now days) :
    (purgeOnce p now [eventAt tenantID bucket] none).events = [] := by
  have hnot : ¬ days ≤ 0 := Int64.not_le.mpr hpos
  simp [purgeOnce, tenantIDs, purgeLoop, Ctx.err, purgeTenant, hdays, hnot,
    purgeRawEventsOlderThan, scanEvents, expired, eventAt, hbucket]

/--
**A purger never deletes early, whatever the store and the context are, exactly if the days of
every window fit.**
-/
theorem purgeOnce_exact_iff {ε : Type} (p : Purger ε) (now : Int64) :
    (∀ events ctx, Exact p now events (purgeOnce p now events ctx)) ↔
      ∀ tenantID days, p.retentionDaysFor tenantID = .ok days → 0 < days → DaysFit now days := by
  constructor
  · intro h tenantID days hdays hpos
    rw [← days_fit_iff]
    intro bucket hbucket
    have hgone := purgeOnce_single hdays hpos hbucket
    obtain ⟨days', hdays', -, hlt⟩ :=
      (h [eventAt tenantID bucket] none).removed (eventAt tenantID bucket) (by simp)
        (by simp [hgone])
    obtain rfl : days = days' := Except.ok.inj (hdays.symm.trans hdays')
    exact hlt
  · exact purgeOnce_exact_of_fit

def longRetention : Purger Unit := ⟨fun _ => .ok (some 4611686018427387904), 30⟩

theorem recent_event_deleted :
    (purgeOnce longRetention 1700000000 [eventAt [116] 1699999999] none).events = [] ∧
      ¬ Exact longRetention 1700000000 [eventAt [116] 1699999999]
        (purgeOnce longRetention 1700000000 [eventAt [116] 1699999999] none) := by
  have hdays : longRetention.retentionDaysFor [116] = .ok 4611686018427387904 := rfl
  have hgone : (purgeOnce longRetention 1700000000 [eventAt [116] 1699999999] none).events = [] :=
    purgeOnce_single hdays (by decide) (by decide +kernel)
  refine ⟨hgone, fun h => ?_⟩
  obtain ⟨days, hdays', -, hlt⟩ := h.removed (eventAt [116] 1699999999) (by simp) (by simp [hgone])
  obtain rfl : 4611686018427387904 = days := Except.ok.inj hdays'
  exact absurd hlt (by decide +kernel)

end Kseal.Ingest
