import Kseal.Ingest.QueryService
import Kseal.Server.Registry

/-!
# Statistics of trust sessions (`registry/mem.go`, `data-plane/query/service.go`)

Failed attestations are sessions too: they are in the total, and in no bucket by level. The level is
any 32-bit number.
-/

namespace Kseal.Registry

open Infra Wire List

structure SessionRow where
  tenantID : String
  riskLevel : Int32
  status : SessionStatus
  issuedAt : Int64
deriving DecidableEq

def TrustSession.row (s : TrustSession) : SessionRow :=
  ⟨s.tenantID, Int32.ofNat s.riskLevel.toNat, s.status, s.issuedAt⟩

def MemStore.rows (m : MemStore) : GoMap String SessionRow :=
  m.sessions.mapValues fun _ => TrustSession.row

def recordFailedRow (rows : GoMap String SessionRow) (id : String) (sess : SessionRow) :
    Except StoreError (GoMap String SessionRow) :=
  if sess.tenantID = "" then .error (.invalidInput "tenant_id required")
  else .ok (rows.insert id { sess with status := .failed })

/-- **A failed attestation is one more row of the store.** -/
theorem rows_recordFailedAttestation (m : MemStore) (sess : TrustSession) (tokenID : String) :
    (m.recordFailedAttestation sess tokenID).map MemStore.rows =
      recordFailedRow m.rows (if sess.tokenID = "" then tokenID else sess.tokenID) sess.row := by
  unfold MemStore.recordFailedAttestation recordFailedRow
  show _ = if sess.tenantID = "" then _ else _
  split
  · rfl
  · exact congrArg Except.ok (GoMap.mapValues_insert TrustSession.row m.sessions _ _)

/-! ## Counting -/

structure TrustSessionStats where
  totalSessions : Nat
  tokensIssued : Nat
  attestationsFailed : Nat
  byRiskLevel : GoMap Int32 Nat

def countSession (tenantID : String) (fromSec toSec : Int64) (stats : TrustSessionStats)
    (s : SessionRow) : TrustSessionStats :=
  if s.tenantID ≠ tenantID then stats
  else if fromSec ≠ 0 ∧ s.issuedAt < fromSec then stats
  else if toSec ≠ 0 ∧ s.issuedAt > toSec then stats
  else
    let stats := { stats with totalSessions := stats.totalSessions + 1 }
    if s.status = .failed then { stats with attestationsFailed := stats.attestationsFailed + 1 }
    else
      { stats with
        tokensIssued := stats.tokensIssued + 1
        byRiskLevel := stats.byRiskLevel.incr s.riskLevel }

def getTrustSessionStats (rows : GoMap String SessionRow) (tenantID : String)
    (fromSec toSec : Int64) : TrustSessionStats :=
  (rows.pairs.map Prod.snd).foldl (countSession tenantID fromSec toSec) ⟨0, 0, 0, ∅⟩

def counted (tenantID : String) (fromSec toSec : Int64) (s : SessionRow) : Bool :=
  s.tenantID = tenantID ∧ ¬ (fromSec ≠ 0 ∧ s.issuedAt < fromSec) ∧
    ¬ (toSec ≠ 0 ∧ s.issuedAt > toSec)

section counts

variable {tenantID : String} {fromSec toSec : Int64}

theorem countSession_of_counted {s : SessionRow} (h : counted tenantID fromSec toSec s = true)
    (stats : TrustSessionStats) :
    countSession tenantID fromSec toSec stats s =
      if s.status = .failed then
        { stats with totalSessions := stats.totalSessions + 1
                     attestationsFailed := stats.attestationsFailed + 1 }
      else
        { stats with totalSessions := stats.totalSessions + 1
                     tokensIssued := stats.tokensIssued + 1
                     byRiskLevel := stats.byRiskLevel.incr s.riskLevel } := by
  simp only [counted, decide_eq_true_eq] at h
  obtain ⟨htenant, hfrom, hto⟩ := h
  unfold countSession
  rw [if_neg (not_not_intro htenant), if_neg hfrom, if_neg hto]

theorem countSession_of_not_counted {s : SessionRow}
    (h : ¬ counted tenantID fromSec toSec s = true) (stats : TrustSessionStats) :
    countSession tenantID fromSec toSec stats s = stats := by
  simp only [counted, decide_eq_true_eq] at h
  unfold countSession
  split
  · rfl
  · next htenant =>
    split
    · rfl
    · next hfrom =>
      split
      · rfl
      · next hto => exact absurd ⟨not_not.mp htenant, hfrom, hto⟩ h

def countOf (tenantID : String) (fromSec toSec : Int64) (p : SessionRow → Bool)
    (rs : List SessionRow) : Nat :=
  rs.countP fun s => counted tenantID fromSec toSec s && p s

def SessionRow.isFailed (s : SessionRow) : Bool := s.status = .failed

def SessionRow.isIssued (lvl : Int32) (s : SessionRow) : Bool := ! s.isFailed && s.riskLevel = lvl

theorem countOf_snoc (p : SessionRow → Bool) (rs : List SessionRow) (s : SessionRow) :
    countOf tenantID fromSec toSec p (rs ++ [s]) = countOf tenantID fromSec toSec p rs +
      if counted tenantID fromSec toSec s && p s then 1 else 0 := by
  rw [countOf, countP_append, countP_singleton]
  rfl

theorem lookup_incr (m : GoMap Int32 Nat) (k k' : Int32) :
    ((m.incr k).lookup k').getD 0 = (m.lookup k').getD 0 + if k = k' then 1 else 0 := by
  rw [GoMap.incr]
  by_cases hk : k' = k
  · subst hk
    simp
  · simp [hk, Ne.symm hk]

structure Counts (tenantID : String) (fromSec toSec : Int64) (rs : List SessionRow)
    (stats : TrustSessionStats) : Prop where
  tokens : stats.tokensIssued = countOf tenantID fromSec toSec (! ·.isFailed) rs
  failed : stats.attestationsFailed = countOf tenantID fromSec toSec SessionRow.isFailed rs
  total : stats.totalSessions = stats.tokensIssued + stats.attestationsFailed
  level : ∀ lvl, (stats.byRiskLevel.lookup lvl).getD 0 =
    countOf tenantID fromSec toSec (SessionRow.isIssued lvl) rs

theorem Counts.snoc {rs : List SessionRow} {stats : TrustSessionStats}
    (h : Counts tenantID fromSec toSec rs stats) (s : SessionRow) :
    Counts tenantID fromSec toSec (rs ++ [s]) (countSession tenantID fromSec toSec stats s) := by
  obtain ⟨htokens, hfailed, htotal, hlevel⟩ := h
  by_cases hs : counted tenantID fromSec toSec s = true
  · rw [countSession_of_counted hs]
    by_cases hstatus : s.status = .failed
    · rw [if_pos hstatus]
      refine ⟨?_, ?_, by simp only [htotal]; omega, fun lvl => ?_⟩
      · simp [countOf_snoc, htokens, SessionRow.isFailed, hstatus]
      · simp [countOf_snoc, hfailed, hs, SessionRow.isFailed, hstatus]
      · simp [countOf_snoc, hlevel, SessionRow.isIssued, SessionRow.isFailed, hstatus]
    · rw [if_neg hstatus]
      refine ⟨?_, ?_, by simp only [htotal]; omega, fun lvl => ?_⟩
      · simp [countOf_snoc, htokens, hs, SessionRow.isFailed, hstatus]
      · simp [countOf_snoc, hfailed, SessionRow.isFailed, hstatus]
      · simp [countOf_snoc, hlevel, lookup_incr, hs, SessionRow.isIssued, SessionRow.isFailed,
          hstatus]
  · rw [countSession_of_not_counted hs]
    exact ⟨by simp [countOf_snoc, htokens, hs], by simp [countOf_snoc, hfailed, hs], htotal,
      fun lvl => by simp [countOf_snoc, hlevel, hs]⟩

/-- **What `GetTrustSessionStats` returns are the counts of the tenant's sessions.** -/
theorem getTrustSessionStats_counts (tenantID : String) (fromSec toSec : Int64)
    (rows : GoMap String SessionRow) :
    Counts tenantID fromSec toSec (rows.pairs.map Prod.snd)
      (getTrustSessionStats rows tenantID fromSec toSec) := by
  unfold getTrustSessionStats
  induction rows.pairs.map Prod.snd using List.reverseRecOn with
  | nil => exact ⟨rfl, rfl, rfl, fun _ => rfl⟩
  | append_singleton rs s ih =>
    rw [foldl_append, foldl_cons]
    exact ih.snoc s

end counts

/-! ## The service -/

def trustLevelName (lvl : Int32) : String :=
  if lvl = 0 then "UNSPECIFIED"
  else if lvl = 1 then "TRUSTED"
  else if lvl = 2 then "LOW_RISK"
  else if lvl = 3 then "MEDIUM_RISK"
  else if lvl = 4 then "HIGH_RISK"
  else if lvl = 5 then "CRITICAL"
  else lvl.toInt.repr

structure GetTrustSessionStatsResponse where
  totalSessions : Nat
  tokensIssued : Nat
  attestationsFailed : Nat
  sessionsByTrustLevel : GoMap String Nat

def trustSessionStatsResponse (rows : GoMap String SessionRow) (tenantID : String)
    (startTime endTime : Int64) : GetTrustSessionStatsResponse :=
  let stats := getTrustSessionStats rows tenantID (Ingest.millisToSec startTime)
    (Ingest.millisToSec endTime)
  { totalSessions := stats.totalSessions
    tokensIssued := stats.tokensIssued
    attestationsFailed := stats.attestationsFailed
    sessionsByTrustLevel := stats.byRiskLevel.rekey fun lvl => some (trustLevelName lvl) }

theorem trustLevelName_eq {lvl : Int32} {name : String} {c : Char} (hc : c ∈ name.toList)
    (hdigit : c.isDigit = false) (hminus : c ≠ '-') (h : trustLevelName lvl = name) :
    lvl = 0 ∧ name = "UNSPECIFIED" ∨ lvl = 1 ∧ name = "TRUSTED" ∨ lvl = 2 ∧ name = "LOW_RISK" ∨
      lvl = 3 ∧ name = "MEDIUM_RISK" ∨ lvl = 4 ∧ name = "HIGH_RISK" ∨
      lvl = 5 ∧ name = "CRITICAL" := by
  unfold trustLevelName at h
  split_ifs at h with h₀ h₁ h₂ h₃ h₄ h₅
  · exact .inl ⟨h₀, h.symm⟩
  · exact .inr (.inl ⟨h₁, h.symm⟩)
  · exact .inr (.inr (.inl ⟨h₂, h.symm⟩))
  · exact .inr (.inr (.inr (.inl ⟨h₃, h.symm⟩)))
  · exact .inr (.inr (.inr (.inr (.inl ⟨h₄, h.symm⟩))))
  · exact .inr (.inr (.inr (.inr (.inr ⟨h₅, h.symm⟩))))
  · rw [← h] at hc
    exact absurd hc (notMem_repr hdigit hminus _)

/-- **The name of a level has its count.** -/
theorem lookup_byLevel {lvl : Int32} (hlvl : lvl = 3 ∨ lvl = 4 ∨ lvl = 5)
    (byRiskLevel : GoMap Int32 Nat) :
    (byRiskLevel.rekey fun lvl => some (trustLevelName lvl)).lookup (trustLevelName lvl) =
      byRiskLevel.lookup lvl := by
  refine GoMap.lookup_rekey_of_unique (fun lvl' => ?_) byRiskLevel
  rw [Option.some.injEq]
  constructor
  · intro h
    have hcases := trustLevelName_eq (c := 'I') (by rcases hlvl with rfl | rfl | rfl <;> decide)
      (by decide) (by decide) h
    rcases hlvl with rfl | rfl | rfl
    · simpa [trustLevelName] using hcases
    · simpa [trustLevelName] using hcases
    · simpa [trustLevelName] using hcases
  · rintro rfl
    rfl

end Kseal.Registry
