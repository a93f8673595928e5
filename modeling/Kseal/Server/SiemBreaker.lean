import Mathlib.Data.List.Basic
import Mathlib.Data.List.Infix
import Mathlib.Algebra.Order.Group.Int

/-!
# The circuit breaker of a connector (`data-plane/siem/exporter.go`)

The breaker is asked before a batch; its attempts then follow each other without asking again. A run
is a sequence of batches with the clock and the responses in them, and its log tells what happened
when. A pipe that is reaped takes its breakers with it (`open_sends_nothing_iff`).
-/

namespace Kseal.Siem

open List

/-! ## Breakers -/

structure Breaker where
  failures : Int
  openUntil : Int
deriving DecidableEq

def newBreaker : Breaker := ⟨0, 0⟩

def Breaker.allow (b : Breaker) (now : Int) : Bool := b.openUntil < now

def Breaker.recordSuccess (_ : Breaker) : Breaker := ⟨0, 0⟩

def Breaker.recordFailure (b : Breaker) (now trip reset : Int) : Breaker :=
  let failures := b.failures + 1
  if failures ≥ trip then ⟨0, now + reset⟩ else { b with failures := failures }

/-! ## Deliveries -/

structure DeliveryConfig where
  maxAttempts : Int
  breakerTrip : Int
  breakerReset : Int
deriving DecidableEq

def DeliveryConfig.withDefaults (c : DeliveryConfig) : DeliveryConfig where
  maxAttempts := if c.maxAttempts ≤ 0 then 5 else c.maxAttempts
  breakerTrip := if c.breakerTrip ≤ 0 then 5 else c.breakerTrip
  breakerReset := if c.breakerReset ≤ 0 then 30 * 10 ^ 9 else c.breakerReset

inductive DeliveryResult where
  | success
  | retryable
  | permanent
deriving Repr, DecidableEq

def classify : Option Int → DeliveryResult
  | none => .retryable
  | some status =>
    if 200 ≤ status ∧ status < 300 then .success
    else if status = 408 ∨ status = 429 then .retryable
    else if 500 ≤ status then .retryable
    else .permanent

structure Attempt where
  start : Int
  status : Option Int
  recorded : Int
  slept : Bool

/--
A batch as far as its delivery goes: if it can be rendered and compressed, when the breaker is
asked, and what the attempts will be like, by their number.
-/
structure Batch where
  rendered : Bool
  now : Int
  compressed : Bool
  attempts : Nat → Attempt

inductive Entry where
  | asked (now : Int)
  | sent (start : Int)
  | succeeded (now : Int)
  | failed (now : Int)
deriving DecidableEq

def Entry.time : Entry → Int
  | .asked t | .sent t | .succeeded t | .failed t => t

def Entry.isResult : Entry → Bool
  | .succeeded _ | .failed _ => true
  | .asked _ | .sent _ => false

section deliveries

variable (cfg : DeliveryConfig)

def sendLoop (b : Batch) : (left attempt : Nat) → Breaker → Breaker × List Entry
  | 0, _, br => (br, [])
  | left + 1, attempt, br =>
    let a := b.attempts attempt
    let failed := br.recordFailure a.recorded cfg.breakerTrip cfg.breakerReset
    match classify a.status with
    | .success => (br.recordSuccess, [.sent a.start, .succeeded a.recorded])
    | .permanent => (failed, [.sent a.start, .failed a.recorded])
    | .retryable =>
      -- `attempt == MaxAttempts`
      if left = 0 then (failed, [.sent a.start, .failed a.recorded])
      else if a.slept then
        let r := sendLoop b left (attempt + 1) failed
        (r.1, .sent a.start :: .failed a.recorded :: r.2)
      else (failed, [.sent a.start, .failed a.recorded])

def deliverToConnector (br : Breaker) (b : Batch) : Breaker × List Entry :=
  if ¬ b.rendered then (br, [])
  else if ¬ br.allow b.now then (br, [.asked b.now])
  else if ¬ b.compressed then (br, [.asked b.now])
  else
    let r := sendLoop cfg b cfg.maxAttempts.toNat 1 br
    (r.1, .asked b.now :: r.2)

inductive Delivery where
  | batch (b : Batch)
  | reaped

def deliver (s : Breaker × List Entry) : Delivery → Breaker × List Entry
  | .batch b =>
    let r := deliverToConnector cfg s.1 b
    (r.1, s.2 ++ r.2)
  | .reaped => (newBreaker, s.2)

def deliverAll (ds : List Delivery) : Breaker × List Entry :=
  ds.foldl (deliver cfg) (newBreaker, [])

end deliveries

/-! ## An open breaker -/

def ClockOrdered (log : List Entry) : Prop := (log.map Entry.time).Pairwise (· ≤ ·)

def TrippedAt (trip : Int) (log : List Entry) (t : Int) : Prop :=
  ∃ times : List Int, times.length = trip.toNat ∧ times.getLast? = some t ∧
    times.map Entry.failed <:+ log.filter Entry.isResult

def OpenSendsNothing (cfg : DeliveryConfig) (log : List Entry) : Prop :=
  ∀ before t, TrippedAt cfg.breakerTrip before t → ∀ between start rest,
    log = before ++ between ++ .sent start :: rest → t + cfg.breakerReset ≤ start

/-! ## One failure and one attempt -/

theorem mem_of_trippedAt {trip t : Int} {log : List Entry} (h : TrippedAt trip log t) :
    .failed t ∈ log := by
  obtain ⟨times, -, hlast, hsuffix⟩ := h
  have hmem : Entry.failed t ∈ times.map Entry.failed :=
    mem_map_of_mem (mem_of_getLast? hlast)
  exact mem_of_mem_filter (hsuffix.mem hmem)

def Waits (reset : Int) (x y : Entry) : Prop :=
  ∀ t start, x = .failed t → y = .sent start → t + reset ≤ start

structure Quiet (reset : Int) (s : Breaker × List Entry) : Prop where
  count : 0 ≤ s.1.failures
  guarded : ∀ t, .failed t ∈ s.2 → t + reset ≤ s.1.openUntil ∨ ∃ x ∈ s.2, t + reset ≤ x.time
  waits : s.2.Pairwise (Waits reset)

section single

variable {cfg : DeliveryConfig} {br : Breaker} {b : Batch} {log : List Entry}

inductive SingleOutcome (cfg : DeliveryConfig) (br : Breaker) (b : Batch) :
    Breaker × List Entry → Prop where
  | skipped : SingleOutcome cfg br b (br, [])
  | refused : SingleOutcome cfg br b (br, [.asked b.now])
  | succeeded (start now : Int) (hopen : br.openUntil < b.now) :
    SingleOutcome cfg br b (newBreaker, [.asked b.now, .sent start, .succeeded now])
  | failed (start now : Int) (hopen : br.openUntil < b.now) :
    SingleOutcome cfg br b
      (⟨0, now + cfg.breakerReset⟩, [.asked b.now, .sent start, .failed now])

theorem deliverToConnector_single (htrip : cfg.breakerTrip = 1) (hmax : cfg.maxAttempts = 1)
    (hcount : 0 ≤ br.failures) : SingleOutcome cfg br b (deliverToConnector cfg br b) := by
  have hfail : ∀ now, br.recordFailure now cfg.breakerTrip cfg.breakerReset =
      ⟨0, now + cfg.breakerReset⟩ := by
    intro now
    exact if_pos (by omega)
  unfold deliverToConnector
  split
  · exact .skipped
  · split
    · exact .refused
    · next hallow =>
      have hopen : br.openUntil < b.now := by simpa [Breaker.allow] using hallow
      split
      · exact .refused
      · simp only [hmax, Int.toNat_one, sendLoop, hfail]
        cases classify (b.attempts 1).status with
        | success => exact .succeeded _ _ hopen
        | permanent => exact .failed _ _ hopen
        | retryable => exact .failed _ _ hopen

variable {reset start now : Int} {x : Entry}

theorem Quiet.le_start (h : Quiet reset (br, log)) (hopen : br.openUntil < now)
    (hclock : ClockOrdered (log ++ [.asked now, .sent start, x])) :
    ∀ t, .failed t ∈ log → t + reset ≤ start := by
  intro t ht
  simp only [ClockOrdered, map_append, map_cons, pairwise_append,
    pairwise_cons, mem_cons, mem_map] at hclock
  obtain ⟨-, ⟨hnow, -⟩, hearlier⟩ := hclock
  have hstart : now ≤ start := hnow start (.inl rfl)
  rcases h.guarded t ht with hle | ⟨y, hy, hle⟩
  · simp only at hle
    omega
  · exact hle.trans (hearlier y.time ⟨y, hy, rfl⟩ start (.inr (.inl rfl)))

theorem Quiet.attempted {br' : Breaker} (h : Quiet reset (br, log)) (hopen : br.openUntil < now)
    (hclock : ClockOrdered (log ++ [.asked now, .sent start, x])) (hx : x.isResult = true)
    (hcount : 0 ≤ br'.failures) (hguard : ∀ t, x = .failed t → t + reset ≤ br'.openUntil) :
    Quiet reset (br', log ++ [.asked now, .sent start, x]) := by
  have hstart := h.le_start hopen hclock
  refine ⟨hcount, ?_, ?_⟩
  · intro t ht
    simp only [mem_append, mem_cons, not_mem_nil, or_false, reduceCtorEq,
      false_or] at ht
    rcases ht with ht | rfl
    · exact .inr ⟨.sent start, by simp, hstart t ht⟩
    · exact .inl (hguard t rfl)
  · rw [pairwise_append]
    refine ⟨h.waits, ?_, ?_⟩
    · cases x with
      | asked _ => cases hx
      | sent _ => cases hx
      | succeeded _ | failed _ => simp [Waits]
    · rintro y hy z hz t start' rfl rfl
      simp only [mem_cons, not_mem_nil, or_false, reduceCtorEq, false_or] at hz
      rcases hz with hz | rfl
      · cases hz
        exact hstart t hy
      · cases hx

variable {s : Breaker × List Entry}

theorem Quiet.deliver (htrip : cfg.breakerTrip = 1) (hmax : cfg.maxAttempts = 1)
    (h : Quiet cfg.breakerReset s) (hclock : ClockOrdered (Siem.deliver cfg s (.batch b)).2) :
    Quiet cfg.breakerReset (Siem.deliver cfg s (.batch b)) := by
  obtain ⟨br, log⟩ := s
  have hout : SingleOutcome cfg br b _ := deliverToConnector_single htrip hmax h.count
  simp only [Siem.deliver] at hclock ⊢
  generalize deliverToConnector cfg br b = r at hout hclock ⊢
  cases hout with
  | skipped => simpa using h
  | refused =>
    refine ⟨h.count, ?_, ?_⟩
    · intro t ht
      rw [mem_append] at ht
      rcases ht with ht | ht
      · exact (h.guarded t ht).imp_right fun ⟨x, hx, hle⟩ => ⟨x, mem_append_left _ hx, hle⟩
      · simp at ht
    · rw [pairwise_append]
      exact ⟨h.waits, by simp, by simp [Waits]⟩
  | succeeded start now hopen => exact h.attempted hopen hclock rfl (Int.le_refl 0) (by simp)
  | failed start now hopen =>
    refine h.attempted hopen hclock rfl (Int.le_refl 0) ?_
    rintro t ⟨⟩
    exact Int.le_refl _

/-- **With one failure to trip and one attempt for a batch, no attempt starts too early.** -/
theorem quiet_of_single (htrip : cfg.breakerTrip = 1) (hmax : cfg.maxAttempts = 1)
    (ds : List Delivery) (hkept : .reaped ∉ ds) (hclock : ClockOrdered (deliverAll cfg ds).2) :
    Quiet cfg.breakerReset (deliverAll cfg ds) := by
  induction ds using List.reverseRecOn with
  | nil => exact ⟨Int.le_refl 0, by simp [deliverAll], by simp [deliverAll]⟩
  | append_singleton ds d ih =>
    rw [deliverAll, foldl_append, foldl_cons, foldl_nil] at hclock ⊢
    simp only [mem_append, mem_singleton, not_or] at hkept
    cases d with
    | reaped => exact absurd rfl hkept.2
    | batch b =>
      have hbefore : ClockOrdered (deliverAll cfg ds).2 := by
        simp only [deliver, ClockOrdered, map_append, pairwise_append] at hclock
        exact hclock.1
      exact (ih hkept.1 hbefore).deliver htrip hmax hclock

theorem Quiet.openSendsNothing (h : Quiet cfg.breakerReset s) :
    OpenSendsNothing cfg s.2 := by
  intro before t htripped between start rest hlog
  have hwaits := h.waits
  rw [hlog, append_assoc, pairwise_append] at hwaits
  exact hwaits.2.2 (.failed t) (mem_of_trippedAt htripped) (.sent start) (by simp) t start rfl rfl

end single

/-! ## Other settings -/

def permanentBatch (now : Int) : Batch := ⟨true, now, true, fun _ => ⟨now, some 400, now, true⟩⟩

def retriedBatch (now : Int) : Batch :=
  ⟨true, now, true, fun n => ⟨now, if n = 1 then none else some 200, now, true⟩⟩

def permanentLog (now : Int) : List Entry := [.asked now, .sent now, .failed now]

section settings

variable {cfg : DeliveryConfig}

theorem deliver_permanent (br : Breaker) (log : List Entry) (now : Int)
    (hmax : 1 ≤ cfg.maxAttempts) (hallow : br.openUntil < now) :
    deliver cfg (br, log) (.batch (permanentBatch now)) =
      (br.recordFailure now cfg.breakerTrip cfg.breakerReset, log ++ permanentLog now) := by
  obtain ⟨n, hn⟩ : ∃ n, cfg.maxAttempts.toNat = n + 1 := ⟨cfg.maxAttempts.toNat - 1, by omega⟩
  have hclass : classify (some 400) = .permanent := by decide
  simp [deliver, deliverToConnector, permanentBatch, Breaker.allow, hallow, hn, sendLoop, hclass,
    permanentLog]

def burstLog (n : Nat) : List Entry := (List.replicate n (permanentLog 1)).flatten

theorem burstLog_succ (n : Nat) : burstLog (n + 1) = burstLog n ++ permanentLog 1 := by
  simp [burstLog, replicate_succ']

theorem results_burstLog (n : Nat) :
    (burstLog n).filter Entry.isResult = List.replicate n (.failed 1) := by
  induction n with
  | zero => rfl
  | succ n ih =>
    rw [burstLog_succ, filter_append, ih, replicate_succ']
    rfl

theorem times_burstLog (n : Nat) : (burstLog n).map Entry.time = List.replicate (3 * n) 1 := by
  induction n with
  | zero => rfl
  | succ n ih =>
    rw [burstLog_succ, map_append, ih, Nat.mul_succ, replicate_add]
    rfl

theorem deliverAll_burst (hmax : 1 ≤ cfg.maxAttempts) :
    ∀ n : Nat, n < cfg.breakerTrip →
      deliverAll cfg (List.replicate n (.batch (permanentBatch 1))) = (⟨n, 0⟩, burstLog n)
  | 0, _ => rfl
  | n + 1, hn => by
    have ih := deliverAll_burst hmax n (by omega)
    rw [deliverAll] at ih ⊢
    rw [replicate_succ', foldl_append, ih, foldl_cons,
      deliver_permanent _ _ _ hmax Int.zero_lt_one, burstLog_succ, Breaker.recordFailure]
    simp only [ge_iff_le]
    rw [if_neg (by omega)]
    rfl

def afterReset (cfg : DeliveryConfig) : List Delivery :=
  List.replicate cfg.breakerTrip.toNat (.batch (permanentBatch 1)) ++
    [.batch (permanentBatch (2 + cfg.breakerReset)), .batch (permanentBatch (2 + cfg.breakerReset))]

theorem deliverAll_afterReset (hmax : 1 ≤ cfg.maxAttempts) (htrip : 2 ≤ cfg.breakerTrip) :
    (deliverAll cfg (afterReset cfg)).2 = burstLog cfg.breakerTrip.toNat ++
      permanentLog (2 + cfg.breakerReset) ++ permanentLog (2 + cfg.breakerReset) := by
  obtain ⟨n, hn⟩ : ∃ n, cfg.breakerTrip.toNat = n + 1 := ⟨cfg.breakerTrip.toNat - 1, by omega⟩
  have hburst := deliverAll_burst hmax n (by omega)
  have htripped : (⟨n, 0⟩ : Breaker).recordFailure 1 cfg.breakerTrip cfg.breakerReset =
      ⟨0, 1 + cfg.breakerReset⟩ := if_pos (by show (n : Int) + 1 ≥ _; omega)
  have hcounted : (⟨0, 1 + cfg.breakerReset⟩ : Breaker).recordFailure (2 + cfg.breakerReset)
      cfg.breakerTrip cfg.breakerReset = ⟨1, 1 + cfg.breakerReset⟩ :=
    if_neg (by show ¬ (0 : Int) + 1 ≥ _; omega)
  have hfull := deliver_permanent ⟨n, 0⟩ (burstLog n) 1 hmax Int.zero_lt_one
  rw [htripped, ← burstLog_succ] at hfull
  have hfirst := deliver_permanent ⟨0, 1 + cfg.breakerReset⟩ (burstLog (n + 1))
    (2 + cfg.breakerReset) hmax (by simp)
  rw [hcounted] at hfirst
  rw [deliverAll] at hburst ⊢
  rw [afterReset, hn, replicate_succ', append_assoc, foldl_append, hburst]
  simp only [singleton_append, foldl_cons, foldl_nil]
  rw [hfull, hfirst, deliver_permanent _ _ _ hmax (by simp)]

theorem not_openSendsNothing_afterReset (hmax : 1 ≤ cfg.maxAttempts) (htrip : 2 ≤ cfg.breakerTrip)
    (hreset : 0 < cfg.breakerReset) :
    ClockOrdered (deliverAll cfg (afterReset cfg)).2 ∧
      ¬ OpenSendsNothing cfg (deliverAll cfg (afterReset cfg)).2 := by
  rw [deliverAll_afterReset hmax htrip]
  obtain ⟨n, hn⟩ : ∃ n, cfg.breakerTrip.toNat = n + 1 := ⟨cfg.breakerTrip.toNat - 1, by omega⟩
  constructor
  · rw [ClockOrdered, append_assoc, map_append, times_burstLog]
    refine pairwise_append.mpr ⟨by simp, by simp [permanentLog, Entry.time], ?_⟩
    intro x hx y hy
    obtain rfl := eq_of_mem_replicate hx
    have hlater : y = 2 + cfg.breakerReset := by simpa [permanentLog, Entry.time] using hy
    omega
  · intro h
    have htripped : TrippedAt cfg.breakerTrip
        (burstLog cfg.breakerTrip.toNat ++ permanentLog (2 + cfg.breakerReset))
        (2 + cfg.breakerReset) := by
      refine ⟨List.replicate n 1 ++ [2 + cfg.breakerReset], by simp [hn], by simp, ?_⟩
      rw [filter_append, results_burstLog, hn, map_append,
        map_replicate]
      exact ⟨[.failed 1], rfl⟩
    have := h _ _ htripped [.asked (2 + cfg.breakerReset)] (2 + cfg.breakerReset)
      [.failed (2 + cfg.breakerReset)] (by simp [permanentLog])
    omega

theorem not_openSendsNothing_retried (hmax : 2 ≤ cfg.maxAttempts) (htrip : cfg.breakerTrip = 1)
    (hreset : 0 < cfg.breakerReset) :
    ClockOrdered (deliverAll cfg [.batch (retriedBatch 1)]).2 ∧
      ¬ OpenSendsNothing cfg (deliverAll cfg [.batch (retriedBatch 1)]).2 := by
  obtain ⟨n, hn⟩ : ∃ n, cfg.maxAttempts.toNat = n + 2 := ⟨cfg.maxAttempts.toNat - 2, by omega⟩
  have hlog : (deliverAll cfg [.batch (retriedBatch 1)]).2 =
      [.asked 1, .sent 1, .failed 1, .sent 1, .succeeded 1] := by
    simp [deliverAll, deliver, deliverToConnector, retriedBatch, newBreaker, Breaker.allow, hn,
      sendLoop, classify]
  rw [hlog]
  constructor
  · simp [ClockOrdered, Entry.time]
  · intro h
    have htripped : TrippedAt cfg.breakerTrip [.asked 1, .sent 1, .failed 1] 1 := by
      rw [htrip]
      exact ⟨[1], rfl, rfl, suffix_rfl⟩
    have := h _ _ htripped [] 1 [.succeeded 1] rfl
    omega

end settings

theorem withDefaults_pos (c : DeliveryConfig) :
    1 ≤ c.withDefaults.maxAttempts ∧ 1 ≤ c.withDefaults.breakerTrip ∧
      0 < c.withDefaults.breakerReset := by
  unfold DeliveryConfig.withDefaults
  refine ⟨?_, ?_, ?_⟩
  · simp only
    split <;> omega
  · simp only
    split <;> omega
  · simp only
    split
    · decide
    · omega

theorem withDefaults_eq_one (c : DeliveryConfig) :
    (c.withDefaults.breakerTrip = 1 ↔ c.breakerTrip = 1) ∧
      (c.withDefaults.maxAttempts = 1 ↔ c.maxAttempts = 1) := by
  unfold DeliveryConfig.withDefaults
  constructor
  · simp only
    split <;> omega
  · simp only
    split <;> omega

/--
**A breaker that is open sends nothing, in every run of a pipe, exactly if one failure trips it and
a batch has one attempt.**
-/
theorem open_sends_nothing_iff (c : DeliveryConfig) :
    (∀ ds, .reaped ∉ ds → ClockOrdered (deliverAll c.withDefaults ds).2 →
      OpenSendsNothing c.withDefaults (deliverAll c.withDefaults ds).2) ↔
    c.breakerTrip = 1 ∧ c.maxAttempts = 1 := by
  obtain ⟨hmax, htrip, hreset⟩ := withDefaults_pos c
  obtain ⟨htripOne, hmaxOne⟩ := withDefaults_eq_one c
  rw [← htripOne, ← hmaxOne]
  constructor
  · intro h
    have htripLe : ¬ 2 ≤ c.withDefaults.breakerTrip := by
      intro htwo
      obtain ⟨hclock, hnot⟩ := not_openSendsNothing_afterReset hmax htwo hreset
      exact hnot (h _ (by simp [afterReset]) hclock)
    have hmaxLe : ¬ 2 ≤ c.withDefaults.maxAttempts := by
      intro htwo
      obtain ⟨hclock, hnot⟩ := not_openSendsNothing_retried htwo (by omega) hreset
      exact hnot (h _ (by simp) hclock)
    omega
  · rintro ⟨hone, hsingle⟩ ds hkept hclock
    exact (quiet_of_single hone hsingle ds hkept hclock).openSendsNothing

def failingBatch (now : Int) : Batch := ⟨true, now, true, fun _ => ⟨now, none, now, true⟩⟩

/--
With the default settings, five failures in a row and a sixth attempt at once: the fifth failure is
the fourth of a batch, which goes on.
-/
theorem sixth_attempt_sent :
    ClockOrdered (deliverAll (DeliveryConfig.withDefaults ⟨0, 0, 0⟩)
        [.batch (permanentBatch 1), .batch (failingBatch 1)]).2 ∧
      ¬ OpenSendsNothing (DeliveryConfig.withDefaults ⟨0, 0, 0⟩)
        (deliverAll (DeliveryConfig.withDefaults ⟨0, 0, 0⟩)
          [.batch (permanentBatch 1), .batch (failingBatch 1)]).2 := by
  have hlog : (deliverAll (DeliveryConfig.withDefaults ⟨0, 0, 0⟩)
      [.batch (permanentBatch 1), .batch (failingBatch 1)]).2 =
      [.asked 1, .sent 1, .failed 1, .asked 1, .sent 1, .failed 1, .sent 1, .failed 1, .sent 1,
        .failed 1, .sent 1, .failed 1] ++ [] ++ .sent 1 :: [.failed 1] := by decide
  rw [hlog]
  constructor
  · simp [ClockOrdered, Entry.time]
  · intro h
    have htripped := h _ 1 ⟨[1, 1, 1, 1, 1], rfl, rfl, ⟨[], by decide⟩⟩ [] 1 [.failed 1] rfl
    exact absurd htripped (by decide)

end Kseal.Siem
