import Kseal.Cli.PolicySpec

/-!
# Simulation reports

The simulator counts pairs of decisions, the command line tool the same pairs by name; a report is a
fact about the list of pairs (`simulation_consistent`).
-/

namespace Kseal.Contract

open Infra Wire Risk Ingest Simulator List

def normalizedBits (events : List StoredEvent) : List UInt64 :=
  events.map fun e => normalizeStored e.riskBits e.riskBitsLayout

def decisions (bitsets : List UInt64) (current candidate : PolicySpec) :
    List (Decision × Decision) :=
  bitsets.map fun bits => (Simulator.decide bits current, Simulator.decide bits candidate)

theorem simulate_eq {ε : Type} {query : Query → Except ε (List StoredEvent)} {tenantID appID : Bytes}
    {fromTime toTime : Int64} {events : List StoredEvent}
    (hquery : query ⟨tenantID, appID, [], [], [], fromTime, toTime⟩ = .ok events)
    (current candidate : PolicySpec) :
    Simulator.simulate query tenantID appID fromTime toTime current candidate =
      .ok (.of id (decisions (normalizedBits events) current candidate)) := by
  unfold Simulator.simulate DiffReport.of decisions normalizedBits
  rw [hquery, foldl_map, foldl_map]
  rfl

theorem cliSimulate_eq (bitsets : List UInt64) (current candidate : PolicySpec) :
    Cli.simulate bitsets current candidate =
      .of Cli.decisionName (decisions bitsets current candidate) := by
  unfold Cli.simulate DiffReport.of decisions
  rw [foldl_map]
  rfl

theorem count_decisionName (ds : List Decision) (d : Decision) :
    (ds.map Cli.decisionName).count (Cli.decisionName d) = ds.count d :=
  count_map_of_injective ds _ Cli.decisionName_injective d

theorem lookup_tally_decisionName (ds : List Decision) (d : Decision) :
    (GoMap.tally (ds.map Cli.decisionName)).lookup (Cli.decisionName d) =
      (GoMap.tally ds).lookup d := by
  rw [GoMap.lookup_tally, GoMap.lookup_tally, count_decisionName]

theorem newlyAllowed_of_stricter {current candidate : PolicySpec} (h : Stricter current candidate)
    (bitsets : List UInt64) :
    (decisions bitsets current candidate).countP (fun d => d.2 ≠ .deny ∧ d.1 = .deny) = 0 := by
  rw [countP_eq_zero]
  intro d hd
  obtain ⟨bits, -, rfl⟩ := mem_map.mp hd
  intro hallowed
  obtain ⟨hne, hdeny⟩ := of_decide_eq_true hallowed
  exact hne (h.deny hdeny)

structure Consistent (report : DiffReport Decision) : Prop where
  current : report.currentCounts.total = report.total
  candidate : report.candidateCounts.total = report.total
  balance : (((report.candidateCounts.lookup .deny).getD 0 : Nat) : Int) -
      ((report.currentCounts.lookup .deny).getD 0 : Nat) =
    (report.newlyBlocked : Int) - report.newlyAllowed

structure SameNumbers (server : DiffReport Decision) (cli : DiffReport String) : Prop where
  total : cli.total = server.total
  changed : cli.changed = server.changed
  newlyBlocked : cli.newlyBlocked = server.newlyBlocked
  newlyAllowed : cli.newlyAllowed = server.newlyAllowed
  current : ∀ d, cli.currentCounts.lookup (Cli.decisionName d) = server.currentCounts.lookup d
  candidate : ∀ d, cli.candidateCounts.lookup (Cli.decisionName d) = server.candidateCounts.lookup d

theorem consistent_of (ds : List (Decision × Decision)) : Consistent (.of id ds) := by
  rw [DiffReport.of_eq]
  refine ⟨?_, ?_, ?_⟩
  · rw [GoMap.total_tally, length_map]
  · rw [GoMap.total_tally, length_map]
  · have hcount : ∀ f : Decision × Decision → Decision,
        (ds.map fun d => id (f d)).count .deny = ds.countP fun d => f d = .deny := by
      intro f
      rw [List.count, countP_map]
      exact countP_congr fun d _ => by simp
    have hbalance := deny_balance ds
    simp only [GoMap.count_tally, hcount]
    omega

theorem sameNumbers_of (ds : List (Decision × Decision)) :
    SameNumbers (.of id ds) (.of Cli.decisionName ds) := by
  rw [DiffReport.of_eq, DiffReport.of_eq]
  refine ⟨rfl, rfl, rfl, rfl, ?_, ?_⟩
  · intro d
    have h := lookup_tally_decisionName (ds.map Prod.fst) d
    rw [map_map] at h
    exact h
  · intro d
    have h := lookup_tally_decisionName (ds.map Prod.snd) d
    rw [map_map] at h
    exact h

/-- **Reports are consistent, strictness allows nothing new, and the tool reports the same.** -/
theorem simulation_consistent {ε : Type} {query : Query → Except ε (List StoredEvent)}
    {tenantID appID : Bytes} {fromTime toTime : Int64} {events : List StoredEvent}
    (hquery : query ⟨tenantID, appID, [], [], [], fromTime, toTime⟩ = .ok events)
    (current candidate : PolicySpec) :
    ∃ report, Simulator.simulate query tenantID appID fromTime toTime current candidate = .ok report ∧
      Consistent report ∧ (Stricter current candidate → report.newlyAllowed = 0) ∧
      SameNumbers report (Cli.simulate (normalizedBits events) current candidate) := by
  refine ⟨_, simulate_eq hquery current candidate, consistent_of _, ?_, ?_⟩
  · intro hstrict
    rw [DiffReport.of_eq]
    exact newlyAllowed_of_stricter hstrict _
  · rw [cliSimulate_eq]
    exact sameNumbers_of _

def rootedStore : Query → Except Unit (List StoredEvent) :=
  fun _ => .ok [⟨[1], [2], [3], 1, 4, 0x21, 2, 3, [], [], [], 100, [], 1, 100⟩]

def stepUpSpec : PolicySpec := ⟨none, none, .stepUp⟩

def blockSpec : PolicySpec := ⟨none, some (AList.singleton 0 60), .block⟩

theorem simulation_consistent_rooted :
    Stricter stepUpSpec blockSpec ∧
    ∃ report, Simulator.simulate rootedStore [2] [3] 0 0 stepUpSpec blockSpec = .ok report ∧
      report.newlyAllowed = 0 := by
  have hstrict : Stricter stepUpSpec blockSpec :=
    ⟨by decide +kernel, .refl none, .inr (.inr ⟨rfl, rfl⟩)⟩
  have hquery : ∃ events, rootedStore ⟨[2], [3], [], [], [], 0, 0⟩ = .ok events := ⟨_, rfl⟩
  obtain ⟨events, hquery⟩ := hquery
  obtain ⟨report, hreport, -, hallowed, -⟩ := simulation_consistent hquery stepUpSpec blockSpec
  exact ⟨hstrict, report, hreport, hallowed hstrict⟩

end Kseal.Contract
