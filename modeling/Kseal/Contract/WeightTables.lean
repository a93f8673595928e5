import Kseal.Cli.PolicySpec
import Kseal.Infra.JsonText
import Kseal.Server.Etag

/-!
# Three readers of one rules document

The config service reads a key of the weights with `fmt.Sscanf`, the trust service and the command
line tool take whole numerals, and the tool refuses a document with an error (`one_table_iff`).
-/

namespace Kseal.Contract

open Infra Wire GoMap Trust Config

def weightsObject (parse : String → Option Json) (rules : String) : GoMap String UInt32 :=
  (unmarshal parse (decodeStruct setWrapper) rules none).value.getD ∅

def DistinctNumbers (m : GoMap String UInt32) : Prop :=
  ∀ key key' i, key ∈ m → key' ∈ m → parseIndex key = some i → parseIndex key' = some i → key = key'

def OneTable (env : Env) (p : Policy) : Prop :=
  ∃ weights thresholds,
    (Cli.PolicyFile.ofPolicy p).scoringTables env.parse = .ok (weights, thresholds) ∧
    ∀ pc, Assembles env p pc → ∀ i : UInt32, i ≤ 63 →
      pc.signalWeights.lookup i = (parseWeights env.parse (some p)).bind (·.lookup i) ∧
        (parseWeights env.parse (some p)).bind (·.lookup i) = weights.lookup i

structure ReadAlike (parse : String → Option Json) (p : Policy) : Prop where
  document : (unmarshal parse (decodeStruct Cli.setPolicyDoc) p.rules .zero).ok = true
  thresholds : Cli.ThresholdsReadable parse p.riskThresholds
  keys : ∀ key v i, (weightsObject parse p.rules).lookup key = some v → scanIndex key = some i →
    i ≤ 63 → ∃ key', (weightsObject parse p.rules).lookup key' = some v ∧ parseIndex key' = some i

variable {env : Env} {p : Policy} {members : List (String × Json)}

theorem DistinctNumbers.unambiguous {m : GoMap String UInt32} (h : DistinctNumbers m) :
    Unambiguous parseIndex m :=
  unambiguous_of_injective h

theorem weightsOf_eq (hne : p.rules ≠ "") :
    weightsOf env p = weightsObject env.parse p.rules := by
  unfold weightsOf weightsObject
  rw [signalWeights_parsePolicyDoc hne]

theorem parseWeights_lookup (hne : p.rules ≠ "")
    (hok : (unmarshal env.parse (decodeStruct setWrapper) p.rules none).ok = true)
    (i : UInt32) :
    (parseWeights env.parse (some p)).bind (·.lookup i) =
      ((weightsObject env.parse p.rules).rekey parseIndex).lookup i := by
  simp only [parseWeights, weightsObject]
  rw [if_neg hne, hok]
  cases (unmarshal env.parse (decodeStruct setWrapper) p.rules none).value with
  | none => rfl
  | some m => rfl

theorem rekey_bitIndex_lookup (m : GoMap String UInt32) {i : UInt32} (hi : i ≤ 63) :
    (m.rekey Cli.bitIndex).lookup i = (m.rekey parseIndex).lookup i := by
  refine lookup_rekey_congr (fun key => ?_) m
  rw [Cli.bitIndex_eq_some_iff]
  exact and_iff_left hi

theorem scoringTables_obj_iff (hne : p.rules ≠ "") (hparse : env.parse p.rules = some (.obj members))
    {weights : GoMap UInt32 UInt32} {thresholds : Option (GoMap String UInt32)} :
    (Cli.PolicyFile.ofPolicy p).scoringTables env.parse = .ok (weights, thresholds) ↔
      (unmarshal env.parse (decodeStruct Cli.setPolicyDoc) p.rules .zero).ok = true ∧
      (Cli.PolicyFile.ofPolicy p).thresholds env.parse = .ok thresholds ∧
      weights = (weightsObject env.parse p.rules).rekey Cli.bitIndex := by
  have hdoc := Cli.parsePolicyDoc_obj hne hparse
  have hweights := (Cli.decodeStruct_setPolicyDoc (.obj members)).1
  rw [Cli.scoringTables_eq_ok_iff]
  show (∃ doc, Cli.parsePolicyDoc env.parse p.rules = .ok doc ∧ _) ↔ _
  unfold weightsObject unmarshal
  rw [hdoc, hparse]
  rw [← hweights]
  cases (decodeStruct Cli.setPolicyDoc (.obj members) .zero).ok with
  | true => simp
  | false => simp

/-- **The three tables are the same exactly if the keys are numerals and nothing is malformed.** -/
theorem one_table_iff (hne : p.rules ≠ "") (hparse : env.parse p.rules = some (.obj members))
    (hdistinct : DistinctNumbers (weightsObject env.parse p.rules)) :
    OneTable env p ↔ ReadAlike env.parse p := by
  have htrust : (unmarshal env.parse (decodeStruct Cli.setPolicyDoc) p.rules .zero).ok = true →
      (unmarshal env.parse (decodeStruct setWrapper) p.rules none).ok = true := by
    unfold unmarshal
    rw [hparse]
    exact (Cli.decodeStruct_setPolicyDoc (.obj members)).2
  constructor
  · rintro ⟨weights, thresholds, htables, hagree⟩
    obtain ⟨hok, hth, -⟩ := (scoringTables_obj_iff hne hparse).mp htables
    refine ⟨hok, (Cli.thresholds_isOk_iff _).mp ⟨thresholds, hth⟩, fun key v i hlook hread hi => ?_⟩
    -- The key may be the last one that the config service reads.
    obtain ⟨order, hperm, hlast⟩ := exists_order hlook hread
    rw [← weightsOf_eq hne] at hperm
    have hsame := (hagree _ ⟨order, hperm, rfl⟩ i hi).1
    rw [parseWeights_lookup hne (htrust hok)] at hsame
    have hsome := hsame.symm.trans hlast
    rw [lookup_rekey] at hsome
    exact exists_of_lastRead hsome
  · rintro ⟨hok, hth, hkeys⟩
    obtain ⟨thresholds, hth⟩ := (Cli.thresholds_isOk_iff (Cli.PolicyFile.ofPolicy p)).mpr hth
    refine ⟨_, thresholds, (scoringTables_obj_iff hne hparse).mpr ⟨hok, hth, rfl⟩, ?_⟩
    rintro pc ⟨order, hperm, rfl⟩ i hi
    rw [weightsOf_eq hne] at hperm
    rw [parseWeights_lookup hne (htrust hok), rekey_bitIndex_lookup _ hi]
    refine ⟨?_, rfl⟩
    have hlookup : ∀ key, order.lookup key = (weightsObject env.parse p.rules).lookup key :=
      fun key => AList.perm_lookup hperm
    cases hscan : (order.rekey scanIndex).lookup i with
    | some v =>
      rw [lookup_rekey] at hscan
      obtain ⟨key, hlook, hread⟩ := exists_of_lastRead hscan
      obtain ⟨key', hlook', hread'⟩ := hkeys key v i ((hlookup key).symm.trans hlook) hread hi
      exact (lookup_rekey_of_unambiguous hdistinct.unambiguous hlook' hread').symm
    | none =>
      -- A numeral would have been read by both.
      cases hparse : ((weightsObject env.parse p.rules).rekey parseIndex).lookup i with
      | none => rfl
      | some v =>
        rw [lookup_rekey] at hparse hscan
        obtain ⟨key, hlook, hread⟩ := exists_of_lastRead hparse
        have hsome := lastRead_isSome ((hlookup key).trans hlook)
          (scanIndex_of_parseIndex hread)
        rw [hscan] at hsome
        cases hsome

def oneWeight (key : String) : Json := .obj [("signal_weights", .obj [(key, .num (100 : Nat).repr)])]

def oneWeightPolicy (key : String) : Policy where
  id := "p"
  tenantId := "t"
  appId := ""
  name := "n"
  version := 1
  enforcementMode := .block
  rules := String.ofList (oneWeight key).render
  riskThresholds := ""
  modulesEnabled := []
  isActive := true
  createdAt := 0
  updatedAt := 0

def jsonEnv : Env where
  parse := parseJson
  sha256 := fun _ => []
  marshal := fun _ => .ok []
  sign := fun _ _ => []
  seconds := id

theorem parseJson_oneWeight (key : String) :
    parseJson (oneWeightPolicy key).rules = some (oneWeight key) := by
  refine parseJson_render ?_
  simp only [oneWeight, Json.Fits, FitMembers, and_true]
  exact ⟨9999, rfl, 9998, rfl, 100, rfl⟩

theorem distinctNumbers_oneWeight {key : String}
    (h : (weightsObject parseJson (oneWeightPolicy key).rules).keys = [key]) :
    DistinctNumbers (weightsObject parseJson (oneWeightPolicy key).rules) := by
  intro key₁ key₂ _ h₁ h₂ _ _
  rw [AList.mem_keys, h, List.mem_singleton] at h₁ h₂
  rw [h₁, h₂]

theorem one_table_iff_plainKey : OneTable jsonEnv (oneWeightPolicy "5") := by
  have hkeys : (weightsObject parseJson (oneWeightPolicy "5").rules).keys = ["5"] := by
    decide +kernel
  refine (one_table_iff (by decide +kernel) (parseJson_oneWeight "5")
    (distinctNumbers_oneWeight hkeys)).mpr ⟨by decide +kernel, .inl rfl, ?_⟩
  intro key v i hlook hread _
  have hmem : key ∈ weightsObject jsonEnv.parse (oneWeightPolicy "5").rules :=
    mem_of_lookup hlook
  have hkey : key ∈ (weightsObject parseJson (oneWeightPolicy "5").rules).keys :=
    AList.mem_keys.mp hmem
  rw [hkeys, List.mem_singleton] at hkey
  subst hkey
  exact ⟨"5", hlook, by rw [← hread]; decide +kernel⟩

theorem spaced_key_differs :
    parseJson (oneWeightPolicy " 5").rules = some (oneWeight " 5") ∧
      DistinctNumbers (weightsObject parseJson (oneWeightPolicy " 5").rules) ∧
      ¬ OneTable jsonEnv (oneWeightPolicy " 5") := by
  refine ⟨parseJson_oneWeight " 5", distinctNumbers_oneWeight (by decide +kernel), ?_⟩
  rintro ⟨weights, thresholds, -, hagree⟩
  have hsame := (hagree _ (assembles_buildPolicyConfig _ _) 5 (by decide)).1
  exact absurd hsame (by decide +kernel)

end Kseal.Contract
