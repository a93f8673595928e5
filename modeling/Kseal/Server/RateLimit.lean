import Kseal.Infra.Ascent
import Mathlib.Algebra.Order.Archimedean.Basic
import Mathlib.Algebra.Order.Field.Rat
import Mathlib.Data.Rat.Lemmas
import Mathlib.Tactic.Linarith
import Mathlib.Tactic.Ring

/-!
# The rate limiter (`shared/middleware/ratelimit.go`)

Each replica passes its own clock to the script, which credits the time since the last call and
remembers the new reading, also if it is older (`admission_bounded_iff`). Numbers are rationals;
keys do not expire and calls do not fail.
-/

namespace Kseal.RateLimit

open Infra List

structure RedisRateLimiter where
  rate : ℚ
  capacity : ℕ

structure Bucket where
  tokens : ℚ
  last : ℚ

def tokenBucketScript (rate capacity now cost : ℚ) (keys : Option Bucket) : Bool × Bucket :=
  let b := keys.getD ⟨capacity, now⟩
  let delta := max 0 (now - b.last)
  let refilled := min capacity (b.tokens + delta * rate)
  if refilled ≥ cost then (true, ⟨refilled - cost, now⟩) else (false, ⟨refilled, now⟩)

structure Call where
  now : ℚ
  cost : ℕ

def allowN (l : RedisRateLimiter) (keys : Option Bucket) (c : Call) : Bool × Bucket :=
  tokenBucketScript l.rate l.capacity c.now c.cost keys

def granted (l : RedisRateLimiter) : Option Bucket → List Call → ℚ
  | _, [] => 0
  | keys, c :: cs =>
    (if (allowN l keys c).1 then (c.cost : ℚ) else 0) + granted l (some (allowN l keys c).2) cs

/-! ## What can be granted -/

def refilled (l : RedisRateLimiter) (b : Bucket) (now : ℚ) : ℚ :=
  min l.capacity (b.tokens + max 0 (now - b.last) * l.rate)

variable {l : RedisRateLimiter} {b : Bucket}

theorem allowN_of_le {c : Call} (h : (c.cost : ℚ) ≤ refilled l b c.now) :
    allowN l (some b) c = (true, ⟨refilled l b c.now - c.cost, c.now⟩) :=
  if_pos h

theorem allowN_of_lt {c : Call} (h : refilled l b c.now < c.cost) :
    allowN l (some b) c = (false, ⟨refilled l b c.now, c.now⟩) :=
  if_neg (not_le.mpr h)

theorem granted_none (l : RedisRateLimiter) (c : Call) (cs : List Call) :
    granted l none (c :: cs) = granted l (some ⟨l.capacity, c.now⟩) (c :: cs) := rfl

theorem cost_add_tokens (l : RedisRateLimiter) (b : Bucket) (c : Call) :
    (if (allowN l (some b) c).1 then (c.cost : ℚ) else 0) + (allowN l (some b) c).2.tokens =
      refilled l b c.now := by
  rcases le_or_gt (c.cost : ℚ) (refilled l b c.now) with h | h
  · rw [allowN_of_le h]
    simp
  · rw [allowN_of_lt h]
    simp

theorem tokens_nonneg (hrate : 0 < l.rate) (hb : 0 ≤ b.tokens) (c : Call) :
    0 ≤ (allowN l (some b) c).2.tokens := by
  rcases le_or_gt (c.cost : ℚ) (refilled l b c.now) with h | h
  · rw [allowN_of_le h]
    exact sub_nonneg.mpr h
  · rw [allowN_of_lt h]
    have hdelta : 0 ≤ max 0 (c.now - b.last) * l.rate := mul_nonneg (le_max_left _ _) hrate.le
    exact le_min (Nat.cast_nonneg _) (add_nonneg hb hdelta)

theorem last_allowN (l : RedisRateLimiter) (b : Bucket) (c : Call) :
    (allowN l (some b) c).2.last = c.now := by
  rcases le_or_gt (c.cost : ℚ) (refilled l b c.now) with h | h
  · rw [allowN_of_le h]
  · rw [allowN_of_lt h]

/-- **What is granted comes from the bucket, or from a step forward of the clock.** -/
theorem granted_le (hrate : 0 < l.rate) (cs : List Call) (hb : 0 ≤ b.tokens) :
    granted l (some b) cs ≤ b.tokens + l.rate * ascent b.last (cs.map Call.now) := by
  induction cs generalizing b with
  | nil => simpa [granted, ascent] using hb
  | cons c cs ih =>
    have hrest := ih (tokens_nonneg hrate hb c)
    rw [last_allowN] at hrest
    have hpaid := cost_add_tokens l b c
    have hcredit : refilled l b c.now ≤ b.tokens + max 0 (c.now - b.last) * l.rate :=
      min_le_right _ _
    rw [granted, map_cons, ascent]
    linarith

theorem granted_none_le (hrate : 0 < l.rate) (c : Call) (cs : List Call) :
    granted l none (c :: cs) ≤ l.capacity + l.rate * ascent c.now (cs.map Call.now) := by
  rw [granted_none]
  have h := granted_le hrate (c :: cs) (b := ⟨l.capacity, c.now⟩) (Nat.cast_nonneg _)
  simpa [ascent] using h

/-! ## Calls that are granted all of it -/

theorem exists_rate (ts : List ℚ) : ∃ n : ℕ, 0 < n ∧ ∀ t ∈ ts, ∃ z : ℤ, (n : ℚ) * t = z := by
  induction ts with
  | nil => exact ⟨1, Nat.one_pos, by simp⟩
  | cons t ts ih =>
    obtain ⟨n, hn, hall⟩ := ih
    refine ⟨n * t.den, Nat.mul_pos hn t.pos, ?_⟩
    intro u hu
    rcases mem_cons.mp hu with rfl | hu
    · refine ⟨n * u.num, ?_⟩
      push_cast
      rw [mul_assoc, Rat.den_mul_eq_num]
    · obtain ⟨z, hz⟩ := hall u hu
      refine ⟨t.den * z, ?_⟩
      push_cast
      rw [← hz]
      ring

structure Whole (l : RedisRateLimiter) (ts : List ℚ) : Prop where
  int : ∀ t ∈ ts, ∃ z : ℤ, l.rate * t = z
  fits : ∀ t ∈ ts, ∀ u ∈ ts, l.rate * (t - u) ≤ l.capacity

variable {ts : List ℚ}

theorem Whole.tail {t : ℚ} (h : Whole l (t :: ts)) :
    Whole l ts :=
  ⟨fun u hu => h.int u (mem_cons_of_mem _ hu),
    fun u hu v hv => h.fits u (mem_cons_of_mem _ hu) v (mem_cons_of_mem _ hv)⟩

theorem Whole.refilled_eq (hrate : 0 < l.rate) {last t : ℚ} (h : Whole l (last :: t :: ts)) :
    ∃ n : ℕ, refilled l ⟨0, last⟩ t = n ∧ (n : ℚ) = l.rate * max 0 (t - last) := by
  have hlast : last ∈ last :: t :: ts := mem_cons_self
  have ht : t ∈ last :: t :: ts := mem_cons_of_mem _ mem_cons_self
  obtain ⟨z, hz⟩ := h.int t ht
  obtain ⟨z', hz'⟩ := h.int last hlast
  have hstep : l.rate * max 0 (t - last) = ((max 0 (z - z') : ℤ) : ℚ) := by
    rw [mul_max_of_nonneg _ _ hrate.le, mul_zero, mul_sub, hz, hz']
    push_cast
    rfl
  have hnonneg : 0 ≤ max 0 (z - z') := le_max_left _ _
  have hfits : l.rate * max 0 (t - last) ≤ l.capacity := by
    rw [mul_max_of_nonneg _ _ hrate.le, mul_zero]
    exact max_le (Nat.cast_nonneg _) (h.fits t ht last hlast)
  refine ⟨(max 0 (z - z')).toNat, ?_, ?_⟩
  · rw [refilled, zero_add, mul_comm, min_eq_right hfits, hstep]
    exact_mod_cast (Int.toNat_of_nonneg hnonneg).symm
  · rw [hstep]
    exact_mod_cast Int.toNat_of_nonneg hnonneg

theorem exists_calls_of_empty (hrate : 0 < l.rate) {last : ℚ} (h : Whole l (last :: ts)) :
    ∃ cs : List Call, cs.map Call.now = ts ∧ (∀ c ∈ cs, 0 < c.cost) ∧
      granted l (some ⟨0, last⟩) cs = l.rate * ascent last ts := by
  induction ts generalizing last with
  | nil => exact ⟨[], rfl, by simp, by simp [granted, ascent]⟩
  | cons t ts ih =>
    obtain ⟨cs, hnow, hpos, hsum⟩ := ih h.tail
    obtain ⟨n, hn, hstep⟩ := h.refilled_eq hrate
    -- A call has a positive cost: without a step forward it is refused.
    rcases Nat.eq_zero_or_pos n with rfl | hpositive
    · refine ⟨⟨t, 1⟩ :: cs, by rw [map_cons, hnow], by simpa using hpos, ?_⟩
      have hlt : refilled l ⟨0, last⟩ t < ((1 : ℕ) : ℚ) := by
        rw [hn]
        norm_num
      rw [granted, allowN_of_lt (c := ⟨t, 1⟩) hlt, hn, Nat.cast_zero, hsum, ascent, mul_add,
        ← hstep]
      simp
    · refine ⟨⟨t, n⟩ :: cs, by rw [map_cons, hnow], ?_, ?_⟩
      · intro c hc
        rcases mem_cons.mp hc with rfl | hc
        · exact hpositive
        · exact hpos c hc
      · rw [granted, allowN_of_le (c := ⟨t, n⟩) hn.ge, hn, sub_self, hsum, ascent, mul_add, ← hstep]
        simp

/-- **Some limiter grants its capacity and all steps forward.** -/
theorem exists_calls (t : ℚ) (ts : List ℚ) :
    ∃ (l : RedisRateLimiter) (cs : List Call), 0 < l.rate ∧ 0 < l.capacity ∧
      cs.map Call.now = t :: ts ∧ (∀ c ∈ cs, 0 < c.cost) ∧
      granted l none cs = l.capacity + l.rate * ascent t ts := by
  obtain ⟨n, hn, hint⟩ := exists_rate (t :: ts)
  have hrate : (0 : ℚ) < n := by exact_mod_cast hn
  obtain ⟨cap, hcap⟩ := exists_nat_gt ((n : ℚ) * spread t ts)
  have hwhole : Whole ⟨n, cap + 1⟩ (t :: ts) := by
    refine ⟨hint, ?_⟩
    intro u hu v hv
    have hspread := mul_le_mul_of_nonneg_left (sub_le_spread hu hv) hrate.le
    push_cast
    linarith
  obtain ⟨cs, hnow, hpos, hsum⟩ := exists_calls_of_empty hrate hwhole
  have hfull : ((cap + 1 : ℕ) : ℚ) = refilled ⟨n, cap + 1⟩ ⟨((cap + 1 : ℕ) : ℚ), t⟩ t := by
    simp [refilled]
  refine ⟨⟨n, cap + 1⟩, ⟨t, cap + 1⟩ :: cs, hrate, Nat.succ_pos _, by rw [map_cons, hnow],
    by simpa using hpos, ?_⟩
  rw [granted_none, granted, allowN_of_le (c := ⟨t, cap + 1⟩) hfull.le, ← hfull, sub_self, hsum]
  simp

/-! ## The bound of the claim -/

def Bounded (l : RedisRateLimiter) (cs : List Call) : Prop :=
  ∀ c rest, cs = c :: rest →
    granted l none cs ≤ l.capacity + l.rate * spread c.now (rest.map Call.now)

/--
**Which readings keep admission bounded.** Whatever the limiter and the costs are, the bound holds
if and only if the steps forward do not add up to more than the time between the extreme readings.
-/
theorem admission_bounded_iff (t : ℚ) (ts : List ℚ) :
    (∀ (l : RedisRateLimiter) (cs : List Call), 0 < l.rate → 0 < l.capacity →
        cs.map Call.now = t :: ts → (∀ c ∈ cs, 0 < c.cost) → Bounded l cs) ↔
      ascent t ts ≤ spread t ts := by
  constructor
  · intro hall
    obtain ⟨l, cs, hrate, hcap, hnow, hpos, hsum⟩ := exists_calls t ts
    cases cs with
    | nil => cases hnow
    | cons c rest =>
      obtain ⟨rfl, rfl⟩ := List.cons.inj hnow
      have hbound := hall l _ hrate hcap rfl hpos c rest rfl
      exact le_of_mul_le_mul_left (by linarith) hrate
  · rintro hascent l cs hrate - hnow - c rest rfl
    obtain ⟨rfl, rfl⟩ := List.cons.inj hnow
    have hgranted := granted_none_le hrate c rest
    have hcredit := mul_le_mul_of_nonneg_left hascent hrate.le
    linarith

theorem clock_back_and_forth :
    ¬ Bounded ⟨1, 1⟩ [⟨1, 1⟩, ⟨0, 1⟩, ⟨1, 1⟩, ⟨0, 1⟩, ⟨1, 1⟩] := by
  intro h
  have hle := h _ _ rfl
  revert hle
  decide +kernel

end Kseal.RateLimit
