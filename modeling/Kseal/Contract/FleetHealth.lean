import Mathlib.Algebra.Order.Floor.Ring
import Mathlib.Data.Rat.Floor
import Kseal.Server.SessionStats

/-!
# The health of a tenant in the partner console (`partner-console/src/lib/rollup.ts`)

The risk rates are shares of all sessions, the failure rate of the tokens alone, so a failure can
raise the score (`health_direction_iff`). Numbers are exact, and a score is rounded half up.
-/

namespace Kseal.Contract

open Infra Registry List

/-! ## The console -/

inductive LoadStatus where
  | ok
  | incomplete
  | error
deriving Repr, DecidableEq

inductive HealthBand where
  | healthy
  | watch
  | atRisk
  | unknown
deriving Repr, DecidableEq

def toNum (v : Option ℚ) : ℚ :=
  match v with
  | none => 0
  | some n => if n < 0 then 0 else n

def safeRate (numerator denominator : ℚ) : ℚ :=
  if denominator ≤ 0 then 0
  else
    let r := numerator / denominator
    if r < 0 then 0 else if r > 1 then 1 else r

def roundHalfUp (x : ℚ) : Int := ⌊x + 1 / 2⌋

def tenantHealthScore (status : LoadStatus) (highRiskRate attestationFailureRate mediumRiskRate : ℚ)
    (hasData : Bool) : Int × HealthBand :=
  if status = .error ∨ ¬ hasData then (0, .unknown)
  else
    let penalty := 6 / 10 * highRiskRate + 3 / 10 * attestationFailureRate + 1 / 10 * mediumRiskRate
    let score := roundHalfUp (max 0 (min 1 (1 - penalty)) * 100)
    (score, if score ≥ 80 then .healthy else if score ≥ 50 then .watch else .atRisk)

structure TrustSessionData where
  totalSessions : ℚ
  tokensIssued : ℚ
  attestationsFailed : ℚ
  sessionsByTrustLevel : GoMap String ℚ

def trustData (resp : GetTrustSessionStatsResponse) : TrustSessionData where
  totalSessions := toNum (some resp.totalSessions)
  tokensIssued := toNum (some resp.tokensIssued)
  attestationsFailed := toNum (some resp.attestationsFailed)
  sessionsByTrustLevel :=
    resp.sessionsByTrustLevel.mapValues fun _ (n : Nat) => toNum (some (n : ℚ))

def sumTrustLevel (byLevel : GoMap String ℚ) (key : String) : ℚ := toNum (byLevel.lookup key)

def tenantHealthFromSnapshot (status : LoadStatus) (trust : Option TrustSessionData) :
    Int × HealthBand :=
  let sessions := toNum (trust.map (·.totalSessions))
  let tokens := toNum (trust.map (·.tokensIssued))
  let failed := toNum (trust.map (·.attestationsFailed))
  let byLevel := (trust.map (·.sessionsByTrustLevel)).getD ∅
  let highRisk := sumTrustLevel byLevel "HIGH_RISK" + sumTrustLevel byLevel "CRITICAL"
  let mediumRisk := sumTrustLevel byLevel "MEDIUM_RISK"
  tenantHealthScore status (safeRate highRisk sessions) (safeRate failed tokens)
    (safeRate mediumRisk sessions) (sessions > 0 ∨ tokens > 0)

def tenantHealth (overviewLoaded : Bool) (rows : GoMap String SessionRow) (tenantID : String) :
    Int × HealthBand :=
  tenantHealthFromSnapshot (if overviewLoaded then .ok else .incomplete)
    (some (trustData (trustSessionStatsResponse rows tenantID 0 0)))

/-! ## The score in counts -/

structure SessionCounts where
  issued : Nat
  failed : Nat
  high : Nat
  medium : Nat
  risky_le : high + medium ≤ issued

namespace SessionCounts

def exactScore (c : SessionCounts) : ℚ :=
  100 - 10 * (6 * c.high + c.medium) / (c.issued + c.failed) -
    30 * min 1 ((c.failed : ℚ) / c.issued)

def health (c : SessionCounts) : Int × HealthBand :=
  if c.issued + c.failed = 0 then (0, .unknown)
  else
    let score := roundHalfUp c.exactScore
    (score, if score ≥ 80 then .healthy else if score ≥ 50 then .watch else .atRisk)

def oneMoreFailed (c : SessionCounts) : SessionCounts := { c with failed := c.failed + 1 }

end SessionCounts

theorem toNum_natCast (n : Nat) : toNum (some (n : ℚ)) = n :=
  if_neg (not_lt.mpr (Nat.cast_nonneg n))

theorem safeRate_part {n m : Nat} (h : n ≤ m) : safeRate n m = (n : ℚ) / m := by
  unfold safeRate
  rcases Nat.eq_zero_or_pos m with rfl | hm
  · simp
  · have hm' : (0 : ℚ) < m := Nat.cast_pos.mpr hm
    have hle : (n : ℚ) / m ≤ 1 := by
      rw [div_le_one hm']
      exact_mod_cast h
    rw [if_neg (not_le.mpr hm'), if_neg (not_lt.mpr (by positivity)), if_neg (not_lt.mpr hle)]

theorem safeRate_min (n m : Nat) : safeRate n m = min 1 ((n : ℚ) / m) := by
  unfold safeRate
  rcases Nat.eq_zero_or_pos m with rfl | hm
  · simp
  · have hm' : (0 : ℚ) < m := Nat.cast_pos.mpr hm
    have hnonneg : (0 : ℚ) ≤ n / m := by positivity
    rw [if_neg (not_le.mpr hm'), if_neg (not_lt.mpr hnonneg)]
    split
    · next h => exact (min_eq_left h.le).symm
    · next h => exact (min_eq_right (not_lt.mp h)).symm

theorem risky_le_issued (tenantID : String) (fromSec toSec : Int64) (rs : List SessionRow) :
    countOf tenantID fromSec toSec (SessionRow.isIssued 4) rs +
        countOf tenantID fromSec toSec (SessionRow.isIssued 5) rs +
      countOf tenantID fromSec toSec (SessionRow.isIssued 3) rs ≤
    countOf tenantID fromSec toSec (! ·.isFailed) rs := by
  induction rs using List.reverseRecOn with
  | nil => simp [countOf]
  | append_singleton rs s ih =>
    simp only [countOf_snoc]
    by_cases hs : (counted tenantID fromSec toSec s && ! s.isFailed) = true
    · simp only [hs, if_true]
      simp only [Bool.and_eq_true] at hs
      have hlevels : (if s.riskLevel = 4 then 1 else 0) + (if s.riskLevel = 5 then 1 else 0) +
          (if s.riskLevel = 3 then 1 else 0) ≤ 1 := by
        split_ifs <;> simp_all
      simp only [hs.1, SessionRow.isIssued, hs.2, Bool.true_and, decide_eq_true_eq]
      omega
    · have hnot : ∀ lvl, (counted tenantID fromSec toSec s && s.isIssued lvl) = false := by
        intro lvl
        rw [Bool.eq_false_iff]
        intro h
        simp only [SessionRow.isIssued, Bool.and_eq_true] at h
        exact hs (by simp [h.1, h.2.1])
      simp only [hnot, hs]
      simpa using ih

def sessionCounts (rows : GoMap String SessionRow) (tenantID : String) : SessionCounts where
  issued := countOf tenantID 0 0 (! ·.isFailed) (rows.pairs.map Prod.snd)
  failed := countOf tenantID 0 0 SessionRow.isFailed (rows.pairs.map Prod.snd)
  high := countOf tenantID 0 0 (SessionRow.isIssued 4) (rows.pairs.map Prod.snd) +
    countOf tenantID 0 0 (SessionRow.isIssued 5) (rows.pairs.map Prod.snd)
  medium := countOf tenantID 0 0 (SessionRow.isIssued 3) (rows.pairs.map Prod.snd)
  risky_le := risky_le_issued tenantID 0 0 _

theorem penalty_exact (c : SessionCounts) :
    max 0 (min 1 (1 - (6 / 10 * ((c.high : ℚ) / (c.issued + c.failed)) +
      3 / 10 * min 1 ((c.failed : ℚ) / c.issued) +
      1 / 10 * ((c.medium : ℚ) / (c.issued + c.failed))))) * 100 = c.exactScore := by
  have hrisky : (c.high : ℚ) / (c.issued + c.failed) + c.medium / (c.issued + c.failed) ≤ 1 := by
    rw [← add_div]
    refine div_le_one_of_le₀ ?_ (by positivity)
    exact_mod_cast c.risky_le.trans (Nat.le_add_right _ _)
  have hhigh : (0 : ℚ) ≤ c.high / (c.issued + c.failed) := by positivity
  have hmedium : (0 : ℚ) ≤ c.medium / (c.issued + c.failed) := by positivity
  have hrate : (0 : ℚ) ≤ min 1 ((c.failed : ℚ) / c.issued) := by positivity
  have hrate' : min 1 ((c.failed : ℚ) / c.issued) ≤ 1 := min_le_left _ _
  rw [min_eq_right (by linarith), max_eq_right (by linarith), SessionCounts.exactScore]
  ring

structure TrustSessionData.Has (d : TrustSessionData) (c : SessionCounts) : Prop where
  sessions : d.totalSessions = ((c.issued + c.failed : Nat) : ℚ)
  tokens : d.tokensIssued = c.issued
  failed : d.attestationsFailed = c.failed
  high : sumTrustLevel d.sessionsByTrustLevel "HIGH_RISK" +
    sumTrustLevel d.sessionsByTrustLevel "CRITICAL" = c.high
  medium : sumTrustLevel d.sessionsByTrustLevel "MEDIUM_RISK" = c.medium

variable {c : SessionCounts}

theorem tenantHealthFromSnapshot_eq {status : LoadStatus} (hstatus : status ≠ .error)
    {d : TrustSessionData} (h : d.Has c) :
    tenantHealthFromSnapshot status (some d) = c.health := by
  have hhigh : c.high ≤ c.issued + c.failed :=
    (Nat.le_add_right _ _).trans (c.risky_le.trans (Nat.le_add_right _ _))
  have hmedium : c.medium ≤ c.issued + c.failed :=
    (Nat.le_add_left _ _).trans (c.risky_le.trans (Nat.le_add_right _ _))
  have hdata : (((c.issued + c.failed : Nat) : ℚ) > 0 ∨ (c.issued : ℚ) > 0) ↔
      ¬ c.issued + c.failed = 0 := by
    simp only [Nat.cast_pos]
    omega
  have hscore := penalty_exact c
  rw [← Nat.cast_add] at hscore
  unfold tenantHealthFromSnapshot tenantHealthScore SessionCounts.health
  simp only [Option.map_some, Option.getD_some, h.sessions, h.tokens, h.failed, h.high, h.medium,
    toNum_natCast, safeRate_part hhigh, safeRate_part hmedium, safeRate_min c.failed, hstatus,
    hdata, false_or, decide_eq_true_eq, not_not, hscore]

theorem sumTrustLevel_eq {lvl : Int32} (hlvl : lvl = 3 ∨ lvl = 4 ∨ lvl = 5)
    (rows : GoMap String SessionRow) (tenantID : String) :
    sumTrustLevel (trustData (trustSessionStatsResponse rows tenantID 0 0)).sessionsByTrustLevel
        (trustLevelName lvl) =
      countOf tenantID 0 0 (SessionRow.isIssued lvl) (rows.pairs.map Prod.snd) := by
  rw [← (getTrustSessionStats_counts tenantID 0 0 rows).level lvl]
  unfold sumTrustLevel trustData trustSessionStatsResponse
  rw [GoMap.lookup_mapValues, lookup_byLevel hlvl]
  show toNum (((getTrustSessionStats rows tenantID 0 0).byRiskLevel.lookup lvl).map _) = _
  cases (getTrustSessionStats rows tenantID 0 0).byRiskLevel.lookup lvl with
  | none => rfl
  | some n => simp [toNum_natCast]

theorem trustData_has (rows : GoMap String SessionRow) (tenantID : String) :
    (trustData (trustSessionStatsResponse rows tenantID 0 0)).Has
      (sessionCounts rows tenantID) := by
  obtain ⟨htokens, hfailed, htotal, -⟩ := getTrustSessionStats_counts tenantID 0 0 rows
  rw [htokens, hfailed] at htotal
  refine ⟨?_, ?_, ?_, ?_, ?_⟩
  · exact (toNum_natCast _).trans (congrArg Nat.cast htotal)
  · exact (toNum_natCast _).trans (congrArg Nat.cast htokens)
  · exact (toNum_natCast _).trans (congrArg Nat.cast hfailed)
  · rw [sessionCounts, Nat.cast_add, ← sumTrustLevel_eq (.inr (.inl rfl)),
      ← sumTrustLevel_eq (.inr (.inr rfl))]
    rfl
  · exact sumTrustLevel_eq (.inl rfl) rows tenantID

/-- **The score depends on the counts alone.** -/
theorem tenantHealth_eq (overviewLoaded : Bool) (rows : GoMap String SessionRow)
    (tenantID : String) :
    tenantHealth overviewLoaded rows tenantID = (sessionCounts rows tenantID).health := by
  refine tenantHealthFromSnapshot_eq ?_ (trustData_has rows tenantID)
  cases overviewLoaded <;> simp

/-! ## One more failure -/

theorem roundHalfUp_le_iff (x y : ℚ) :
    roundHalfUp y ≤ roundHalfUp x ↔ ∀ k : Int, ¬ (x < k + 1 / 2 ∧ k + 1 / 2 ≤ y) := by
  unfold roundHalfUp
  constructor
  · rintro hle k ⟨hx, hy⟩
    have hbelow : ⌊x + 1 / 2⌋ < k + 1 := by
      rw [Int.floor_lt]
      push_cast
      linarith
    have habove : k + 1 ≤ ⌊y + 1 / 2⌋ := by
      rw [Int.le_floor]
      push_cast
      linarith
    omega
  · intro h
    by_contra hlt
    rw [not_le] at hlt
    refine h (⌊y + 1 / 2⌋ - 1) ⟨?_, ?_⟩
    · have := Int.floor_lt.mp hlt
      push_cast
      linarith
    · have := Int.floor_le (y + 1 / 2)
      push_cast
      linarith

variable {rows : GoMap String SessionRow}

theorem sessionCounts_recorded {rows' : GoMap String SessionRow} {id : String} {sess : SessionRow}
    (hnew : id ∉ rows) (h : recordFailedRow rows id sess = .ok rows') :
    sessionCounts rows' sess.tenantID = (sessionCounts rows sess.tenantID).oneMoreFailed := by
  obtain ⟨-, ⟨⟩⟩ := guard_ok h
  have hpairs := GoMap.pairs_insert (v := { sess with status := .failed })
    (AList.lookup_eq_none.mpr hnew)
  simp [sessionCounts, SessionCounts.oneMoreFailed, hpairs, countOf, counted,
    SessionRow.isFailed, SessionRow.isIssued]

def FailureNeverRaises (rows : GoMap String SessionRow) (tenantID : String) : Prop :=
  ∀ (loaded loaded' : Bool) (id : String) (sess : SessionRow) (rows' : GoMap String SessionRow),
    sess.tenantID = tenantID → id ∉ rows → recordFailedRow rows id sess = .ok rows' →
    (tenantHealth loaded' rows' tenantID).1 ≤ (tenantHealth loaded rows tenantID).1

def AllFailedNotHealthy (rows : GoMap String SessionRow) (tenantID : String) : Prop :=
  (∀ id s, rows.lookup id = some s → s.tenantID = tenantID → s.status = .failed) →
    ∀ loaded, (tenantHealth loaded rows tenantID).2 ≠ .healthy

variable {tenantID : String}

theorem failureNeverRaises_iff (htenant : tenantID ≠ "") :
    FailureNeverRaises rows tenantID ↔
      (sessionCounts rows tenantID).oneMoreFailed.health.1 ≤
        (sessionCounts rows tenantID).health.1 := by
  constructor
  · intro h
    obtain ⟨id, hid⟩ := Infinite.exists_notMem_finset rows.keys.toFinset
    have hnew : id ∉ rows := fun hmem => hid (mem_toFinset.mpr hmem)
    have hrecord : recordFailedRow rows id ⟨tenantID, 0, .failed, 0⟩ =
        .ok (rows.insert id ⟨tenantID, 0, .failed, 0⟩) := if_neg htenant
    have hle := h true true id ⟨tenantID, 0, .failed, 0⟩ _ rfl hnew hrecord
    rwa [tenantHealth_eq, tenantHealth_eq, sessionCounts_recorded hnew hrecord] at hle
  · rintro hle loaded loaded' id sess rows' rfl hnew hrecord
    rwa [tenantHealth_eq, tenantHealth_eq, sessionCounts_recorded hnew hrecord]

theorem issued_eq_zero_iff :
    (sessionCounts rows tenantID).issued = 0 ↔
      ∀ id s, rows.lookup id = some s → s.tenantID = tenantID → s.status = .failed := by
  simp only [sessionCounts, countOf, countP_eq_zero, mem_map, Prod.exists,
    exists_eq_right, GoMap.mem_pairs, forall_exists_index, counted, SessionRow.isFailed]
  constructor
  · intro h id s hlook hs
    simpa [hs] using h s id hlook
  · intro h s id hlook
    simpa using h id s hlook

theorem health_of_no_tokens (h : c.issued = 0) (hfailed : 0 < c.failed) :
    c.health = (100, .healthy) := by
  have hrisky := c.risky_le
  have hhigh : c.high = 0 := by omega
  have hmedium : c.medium = 0 := by omega
  have hexact : c.exactScore = 100 := by
    simp [SessionCounts.exactScore, h, hhigh, hmedium]
  have hround : roundHalfUp 100 = 100 := by decide +kernel
  unfold SessionCounts.health
  rw [if_neg (by omega), hexact, hround]
  rfl

/--
**One more failure does not raise the score of a tenant, and it is not healthy with failures only,
exactly if it has a token and no half lies between the exact score and the one after the failure.**
-/
theorem health_direction_iff (rows : GoMap String SessionRow) {tenantID : String}
    (htenant : tenantID ≠ "") :
    (FailureNeverRaises rows tenantID ∧ AllFailedNotHealthy rows tenantID) ↔
      0 < (sessionCounts rows tenantID).issued ∧
        ∀ k : Int, ¬ ((sessionCounts rows tenantID).exactScore < k + 1 / 2 ∧
          k + 1 / 2 ≤ (sessionCounts rows tenantID).oneMoreFailed.exactScore) := by
  rw [failureNeverRaises_iff htenant, AllFailedNotHealthy, ← issued_eq_zero_iff]
  simp only [tenantHealth_eq]
  generalize sessionCounts rows tenantID = c
  rw [← roundHalfUp_le_iff]
  rcases Nat.eq_zero_or_pos c.issued with hzero | hpos
  · -- There is nothing but failures: the next one makes the score 100, or it is already.
    have hnext : c.oneMoreFailed.health = (100, .healthy) :=
      health_of_no_tokens hzero (Nat.succ_pos _)
    constructor
    · rintro ⟨hle, hband⟩
      rcases Nat.eq_zero_or_pos c.failed with hnone | hsome
      · have hnow : c.health = (0, .unknown) := if_pos (by omega)
        rw [hnext, hnow] at hle
        exact absurd hle (by decide)
      · exact absurd (congrArg Prod.snd (health_of_no_tokens hzero hsome)) (hband hzero true)
    · omega
  · have hnow : c.health.1 = roundHalfUp c.exactScore := by
      rw [SessionCounts.health, if_neg (by omega)]
    have hnext : c.oneMoreFailed.health.1 = roundHalfUp c.oneMoreFailed.exactScore := by
      rw [SessionCounts.health, if_neg (by show ¬ c.issued + (c.failed + 1) = 0; omega)]
    rw [hnow]
    constructor
    · rintro ⟨hle, -⟩
      exact ⟨hpos, hle⟩
    · rintro ⟨-, hle⟩
      exact ⟨hle, fun hzero => by omega⟩

def trustedRows : GoMap String SessionRow :=
  (∅ : GoMap String SessionRow).insert "s" ⟨"t", 1, .active, 0⟩

theorem health_direction_trusted :
    FailureNeverRaises trustedRows "t" ∧ AllFailedNotHealthy trustedRows "t" := by
  have hnow : (sessionCounts trustedRows "t").exactScore = 100 := by decide +kernel
  have hnext : (sessionCounts trustedRows "t").oneMoreFailed.exactScore = 70 := by decide +kernel
  refine (health_direction_iff trustedRows (by decide)).mpr ⟨by decide, ?_⟩
  rintro k ⟨hlt, hle⟩
  linarith

def failedRows : GoMap String SessionRow :=
  (∅ : GoMap String SessionRow).insert "a" ⟨"t", 0, .failed, 0⟩

def riskyRows : GoMap String SessionRow :=
  ((∅ : GoMap String SessionRow).insert "s" ⟨"t", 4, .active, 0⟩).insert "a" ⟨"t", 0, .failed, 0⟩

theorem failures_look_healthy :
    ¬ AllFailedNotHealthy failedRows "t" ∧ ¬ FailureNeverRaises riskyRows "t" := by
  have hfailed : tenantHealth true failedRows "t" = (100, .healthy) := by decide +kernel
  have hrisky : tenantHealth true riskyRows "t" = (40, .atRisk) := by decide +kernel
  have hnext : tenantHealth true (riskyRows.insert "b" ⟨"t", 0, .failed, 0⟩) "t" =
      (50, .watch) := by
    decide +kernel
  constructor
  · intro h
    refine h (issued_eq_zero_iff.mp (by decide +kernel)) true ?_
    rw [hfailed]
  · intro h
    have hle := h true true "b" ⟨"t", 0, .failed, 0⟩ _ rfl (by decide) rfl
    rw [hrisky] at hle
    exact absurd (hnext ▸ hle) (by decide)

end Kseal.Contract
