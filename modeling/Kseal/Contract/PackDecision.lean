import Kseal.Cli.BulkApply
import Kseal.Contract.WeightTables

/-!
# When a tenant is skipped

A shape normalizes the names of thresholds, while the trust service ignores names it does not know.
So a policy can have the shape of a pack and decide otherwise (`skips_equivalent_iff`).
-/

namespace Kseal.Contract

open Infra Wire Risk Cli Registry List GoMap Trust

def decisionUnder (p : Policy) (bits : UInt64) : Decision :=
  let score := score bits (parseWeights parseJson (some p))
  let level := level score (parseThresholds parseJson (some p))
  decision level p.enforcementMode

def storedThresholds (p : Policy) : GoMap String UInt32 :=
  (parseThresholds parseJson (some p)).getD ∅

def ShapeOf (p : Policy) (s : PolicyShape) : Prop :=
  ∃ weights thresholds : GoMap String UInt32,
    weights.entries.Perm (weightsObject parseJson p.rules).entries ∧
    thresholds.entries.Perm (storedThresholds p).entries ∧
    s = ⟨p.enforcementMode, canonThresholds thresholds, weights.rekey bitIndex, p.modulesEnabled⟩

/-- A pack that does not differ from the policy would create one under which every bitset gets the
same decision. -/
def SkipsEquivalent (quote : String → String) (p : Policy) : Prop :=
  ∀ current, ShapeOf p current → ∀ (pack : PolicyPack) candidate, pack.validate quote = [] →
    pack.Unambiguous → pack.shape quote = .ok candidate →
    (diffPolicy pack.id current candidate).changes = [] →
    ∀ tenant name appID req m id now q m',
      pack.createRequest parseJson quote tenant name appID = .ok req →
      MemStore.createPolicy m req id now = .ok (q, m') →
      ∀ bits, decisionUnder p bits = decisionUnder q bits

/-! ## The thresholds a shape stands for -/

def levelThresholds (thresholds : GoMap String UInt32) : List (UInt32 × TrustLevel) :=
  diffLevels.filterMap fun lvl => (thresholds.lookup lvl).map fun min => (min, levelByName lvl)

def shapeThresholds (thresholds : GoMap String UInt32) : List (UInt32 × TrustLevel) :=
  let named := levelThresholds thresholds
  if named.length > 0 then named else defaultThresholds

def ReachesIn (ts : List (UInt32 × TrustLevel)) (n : Nat) (score : UInt32) : Prop :=
  ∃ t ∈ ts, n ≤ t.2.toNat ∧ t.1 ≤ score

variable {key : String}

theorem canonLevel_mem_diffLevels (h : key ∈ validLevelNames) :
    canonLevel key ∈ diffLevels ∧ levelByName (canonLevel key) = levelByName key := by
  have hall : ∀ key ∈ validLevelNames,
      canonLevel key ∈ diffLevels ∧ levelByName (canonLevel key) = levelByName key := by
    decide +kernel
  exact hall key h

section thresholds

variable {thresholds canon : GoMap String UInt32}
  (hnames : ∀ key v, thresholds.lookup key = some v → key ∈ validLevelNames)
  (hone : Unambiguous (fun key => some (canonLevel key)) thresholds)
  (hcanon : ∀ lvl ∈ diffLevels, canon.lookup lvl = (canonThresholds thresholds).lookup lvl)

include hnames hone hcanon

theorem mem_levelThresholds (t : UInt32 × TrustLevel) :
    t ∈ levelThresholds canon ↔ t ∈ thresholds.pairs.map fun e => (e.2, levelByName e.1) := by
  unfold levelThresholds
  rw [mem_filterMap, mem_map]
  constructor
  · rintro ⟨lvl, hlvl, ht⟩
    obtain ⟨v, hv, rfl⟩ := Option.map_eq_some_iff.mp ht
    rw [hcanon lvl hlvl, canonThresholds, lookup_rekey] at hv
    obtain ⟨key, hlook, hread⟩ := exists_of_lastRead hv
    have hname : canonLevel key = lvl := Option.some.inj hread
    subst hname
    refine ⟨(key, v), mem_pairs.mpr hlook, ?_⟩
    rw [(canonLevel_mem_diffLevels (hnames key v hlook)).2]
  · rintro ⟨⟨key, v⟩, he, rfl⟩
    have hlook := mem_pairs.mp he
    obtain ⟨hlvl, hsame⟩ := canonLevel_mem_diffLevels (hnames key v hlook)
    refine ⟨canonLevel key, hlvl, ?_⟩
    rw [hcanon _ hlvl, canonThresholds, lookup_rekey_of_unambiguous hone hlook rfl,
      Option.map_some, hsame]

/-- **Under plain names the service compares with exactly the thresholds the shape has.** -/
theorem mem_thresholdList_iff (t : UInt32 × TrustLevel) :
    t ∈ thresholdList (some thresholds) ↔ t ∈ shapeThresholds canon := by
  have hmem := mem_levelThresholds hnames hone hcanon
  unfold thresholdList shapeThresholds
  rw [Option.map_some, Option.getD_some]
  by_cases hpos : thresholds.pairs.length > 0
  · obtain ⟨e, he⟩ := exists_mem_of_length_pos hpos
    have hnamed := (hmem _).mpr (mem_map_of_mem he)
    rw [if_pos hpos, if_pos (length_pos_of_mem hnamed), hmem]
  · have hnil : thresholds.pairs = [] := length_eq_zero_iff.mp (by omega)
    have hnone : levelThresholds canon = [] := by
      refine eq_nil_iff_forall_not_mem.mpr fun t ht => ?_
      rw [hmem, hnil] at ht
      cases ht
    rw [if_neg hpos, hnone, if_neg (by simp)]

theorem reachesIn_thresholdList_iff (n : Nat) (score : UInt32) :
    ReachesIn (thresholdList (some thresholds)) n score ↔
      ReachesIn (shapeThresholds canon) n score := by
  unfold ReachesIn
  simp only [mem_thresholdList_iff hnames hone hcanon]

end thresholds

/-! ## What the tool and the service read -/

section read

variable {p : Policy}

theorem parseJson_empty : parseJson "" = none :=
  Option.isNone_iff_eq_none.mp (by decide +kernel)

theorem weights_of_parsePolicyDoc {doc : Cli.PolicyDoc}
    (h : Cli.parsePolicyDoc parseJson p.rules = .ok doc) :
    doc.signalWeights.getD ∅ = weightsObject parseJson p.rules ∧
      ∀ i, (parseWeights parseJson (some p)).bind (·.lookup i) =
        ((weightsObject parseJson p.rules).rekey parseIndex).lookup i := by
  by_cases hne : p.rules = ""
  · rw [Cli.parsePolicyDoc, if_pos hne] at h
    cases h
    rw [parseWeights, weightsObject, unmarshal]
    rw [hne, parseJson_empty]
    exact ⟨rfl, fun _ => rfl⟩
  · rw [Cli.parsePolicyDoc, if_neg hne] at h
    cases hj : parseJson p.rules with
    | none =>
      unfold unmarshal at h
      rw [hj] at h
      cases h
    | some j =>
      obtain ⟨hvalue, hok⟩ := Cli.decodeStruct_setPolicyDoc j
      have hwrapper : unmarshal parseJson (decodeStruct setWrapper) p.rules none =
          decodeStruct setWrapper j none := by rw [unmarshal, hj]
      rw [unmarshal, unmarshal, hj] at h
      dsimp only at h
      split at h
      · next hdoc =>
        cases h
        refine ⟨by rw [weightsObject, hwrapper, hvalue], ?_⟩
        exact @parseWeights_lookup jsonEnv p hne (hwrapper ▸ hok hdoc)
      · next hdoc =>
        split at h
        · next harr =>
          -- An array of rules has no weights, and the service cannot decode it.
          rw [parseWeights, weightsObject]
          rw [if_neg hne, hwrapper]
          cases j with
          | arr items =>
            cases h
            exact ⟨rfl, fun _ => rfl⟩
          | null => exact absurd rfl hdoc
          | bool | num | str | obj => cases harr
        · cases h

theorem specFromPolicy_eq_ok {spec : Simulator.PolicySpec}
    (h : specFromPolicy parseJson (some p) = .ok spec) :
    ∃ doc th, Cli.parsePolicyDoc parseJson p.rules = .ok doc ∧
      (PolicyFile.ofPolicy p).thresholds parseJson = .ok th ∧
      spec = ⟨th, some ((doc.signalWeights.getD ∅).rekey bitIndex), p.enforcementMode⟩ := by
  rw [specFromPolicy] at h
  cases htables : (PolicyFile.ofPolicy p).scoringTables parseJson with
  | error e =>
    rw [htables] at h
    cases h
  | ok tables =>
    rw [htables] at h
    cases h
    obtain ⟨doc, hdoc, hth, hweights⟩ := scoringTables_eq_ok_iff.mp htables
    exact ⟨doc, tables.2, hdoc, hth, by rw [hweights]⟩

end read

/-! ## Decisions under policies of one shape -/

theorem thresholdList_getD (th : Option (GoMap String UInt32)) :
    thresholdList th = thresholdList (some (th.getD ∅)) := by
  cases th with
  | none => rfl
  | some m => rfl

theorem decisionUnder_eq_iff {p q : Policy} {bits : UInt64}
    (hmode : p.enforcementMode = q.enforcementMode) (hobs : p.enforcementMode ≠ .observe)
    (hscore : score bits (parseWeights parseJson (some p)) =
      score bits (parseWeights parseJson (some q))) :
    decisionUnder p bits = decisionUnder q bits ↔
      ∀ n ∈ [3, denyFrom p.enforcementMode],
        (ReachesIn (thresholdList (some (storedThresholds p))) n
            (score bits (parseWeights parseJson (some p))) ↔
          ReachesIn (thresholdList (some (storedThresholds q))) n
            (score bits (parseWeights parseJson (some p)))) := by
  have hdeny := one_lt_denyFrom p.enforcementMode
  unfold decisionUnder storedThresholds
  rw [← hmode, ← hscore, decision_eq_iff hobs, le_level_iff_thresholdList _ _ (by decide),
    le_level_iff_thresholdList _ _ (by decide), le_level_iff_thresholdList _ _ hdeny,
    le_level_iff_thresholdList _ _ hdeny, forall_mem_cons, forall_mem_singleton,
    ← thresholdList_getD, ← thresholdList_getD]
  rfl

variable {i : UInt32}

section skipped

variable {p q : Policy} {spec : Simulator.PolicySpec} {quote : String → String} {pack : PolicyPack}
  {current candidate : PolicyShape}

theorem ShapeOf.mode (h : ShapeOf p current) : current.mode = p.enforcementMode := by
  obtain ⟨_, _, -, -, rfl⟩ := h
  rfl

theorem parseWeights_lookup_shape (hspec : specFromPolicy parseJson (some p) = .ok spec)
    (hweights : Unambiguous bitIndex (weightsObject parseJson p.rules))
    (hshape : ShapeOf p current) (hi : i ≤ 63) :
    (parseWeights parseJson (some p)).bind (·.lookup i) = current.weights.lookup i := by
  obtain ⟨weights, thresholds, hperm, -, rfl⟩ := hshape
  obtain ⟨doc, th, hdoc, -, -⟩ := specFromPolicy_eq_ok hspec
  rw [(weights_of_parsePolicyDoc hdoc).2, ← rekey_bitIndex_lookup _ hi]
  exact (lookup_rekey_perm hweights hperm i).symm

theorem parseWeights_lookup_stored (h : Stored pack q) (hpack : pack.Unambiguous) (hi : i ≤ 63) :
    (parseWeights parseJson (some q)).bind (·.lookup i) =
      (pack.signalWeights.rekey bitIndex).lookup i := by
  have hread : (parseWeights parseJson (some q)).bind (·.lookup i) =
      ((pack.weightsRead.getD ∅).rekey parseIndex).lookup i := by
    rw [h.parseWeights]
    cases pack.weightsRead with
    | none => rfl
    | some m => rfl
  rw [hread, ← rekey_bitIndex_lookup _ hi]
  exact lookup_rekey_ext hpack.bits (lookup_weightsRead pack) i

/-- **Under a pack of the same shape, the boundaries are those of the shape.** -/
theorem decisionUnder_stored_iff (hspec : specFromPolicy parseJson (some p) = .ok spec)
    (hweights : Unambiguous bitIndex (weightsObject parseJson p.rules))
    (hshape : ShapeOf p current) (hvalid : pack.Valid) (hpack : pack.Unambiguous)
    (hcandidate : pack.shape quote = .ok candidate) (hsame : SameShape current candidate)
    (hstored : Stored pack q) (hobs : p.enforcementMode ≠ .observe) (bits : UInt64) :
    decisionUnder p bits = decisionUnder q bits ↔
      ∀ n ∈ [3, denyFrom p.enforcementMode],
        (ReachesIn (thresholdList (some (storedThresholds p))) n
            (score bits (parseWeights parseJson (some p))) ↔
          ReachesIn (shapeThresholds current.thresholds) n
            (score bits (parseWeights parseJson (some p)))) := by
  rw [shape_eq_ok hstored.mode] at hcandidate
  cases hcandidate
  have hmode : p.enforcementMode = q.enforcementMode := hshape.mode.symm.trans hsame.mode
  have hscore := score_congr (fun i hi => (parseWeights_lookup_shape hspec hweights hshape hi).trans
    ((hsame.weights i).trans (parseWeights_lookup_stored hstored hpack hi).symm)) bits
  have hstoredTh : storedThresholds q = resorted pack.riskThresholds := by
    rw [storedThresholds, hstored.parseThresholds, Option.getD_some]
  have hreach := fun n => reachesIn_thresholdList_iff
    (fun key v h => hvalid.levels key v ((lookup_resorted _ key).symm.trans h))
    (hpack.levels.congr (lookup_resorted _))
    (fun lvl hlvl => (hsame.thresholds lvl hlvl).trans
      (lookup_rekey_ext hpack.levels (lookup_resorted _) lvl).symm) n
    (score bits (parseWeights parseJson (some p)))
  rw [decisionUnder_eq_iff hmode hobs hscore, hstoredTh]
  simp only [hreach]

end skipped

/-! ## A pack for every shape -/

def packFor (s : PolicyShape) : PolicyPack where
  id := "pack"
  name := "pack"
  enforcementMode := enforcementModeName s.mode
  modulesEnabled := s.modules
  riskThresholds := writeAll ∅ (diffLevels.filterMap fun lvl =>
    (s.thresholds.lookup lvl).map fun min => (lvl, min))
  signalWeights := writeAll ∅ (s.weights.pairs.map fun e => (e.1.toNat.repr, e.2))

variable {mode : EnforcementMode}

section packFor

variable {s : PolicyShape}

theorem repr_injective {j : UInt32} (h : i.toNat.repr = j.toNat.repr) : i = j := by
  have hread := parseIndex_repr i
  rw [h, parseIndex_repr] at hread
  exact (Option.some.inj hread).symm

variable {v : UInt32}

theorem lookup_packFor_thresholds :
    (packFor s).riskThresholds.lookup key = some v ↔
      key ∈ diffLevels ∧ s.thresholds.lookup key = some v := by
  have hmem : ∀ e : String × UInt32, e ∈ diffLevels.filterMap (fun lvl =>
      (s.thresholds.lookup lvl).map fun min => (lvl, min)) ↔
        e.1 ∈ diffLevels ∧ s.thresholds.lookup e.1 = some e.2 := by
    rintro ⟨key, v⟩
    rw [mem_filterMap]
    constructor
    · rintro ⟨lvl, hlvl, he⟩
      obtain ⟨min, hmin, heq⟩ := Option.map_eq_some_iff.mp he
      cases heq
      exact ⟨hlvl, hmin⟩
    · rintro ⟨hlvl, hlook⟩
      exact ⟨key, hlvl, by rw [hlook, Option.map_some]⟩
  unfold packFor
  rw [lookup_writeAll_empty, hmem]
  exact fun e he e' he' => value_unique ((hmem e).mp he).2 ((hmem e').mp he').2

theorem lookup_packFor_weights :
    (packFor s).signalWeights.lookup key = some v ↔
      ∃ i, s.weights.lookup i = some v ∧ i.toNat.repr = key := by
  unfold packFor
  rw [lookup_writeAll_empty]
  · rw [mem_map]
    constructor
    · rintro ⟨⟨i, w⟩, he, heq⟩
      cases heq
      exact ⟨i, mem_pairs.mp he, rfl⟩
    · rintro ⟨i, hlook, rfl⟩
      exact ⟨(i, v), mem_pairs.mpr hlook, rfl⟩
  · intro e he e' he' hkey
    obtain ⟨⟨i, w⟩, hi, rfl⟩ := mem_map.mp he
    obtain ⟨⟨j, w'⟩, hj, rfl⟩ := mem_map.mp he'
    exact value_unique (mem_pairs.mp hi) (mem_pairs.mp hj) (repr_injective hkey)

theorem diffLevels_canonical {lvl : String} (h : lvl ∈ diffLevels) :
    canonLevel lvl = lvl ∧ lvl ∈ validLevelNames := by
  have hall : ∀ lvl ∈ diffLevels, canonLevel lvl = lvl ∧ lvl ∈ validLevelNames := by
    decide +kernel
  exact hall lvl h

variable (hbits : ∀ i v, s.weights.lookup i = some v → i ≤ 63)

include hbits

theorem bitIndex_packFor (h : (packFor s).signalWeights.lookup key = some v) :
    ∃ i, bitIndex key = some i ∧ s.weights.lookup i = some v ∧ i.toNat.repr = key := by
  obtain ⟨i, hlook, rfl⟩ := lookup_packFor_weights.mp h
  exact ⟨i, bitIndex_eq_some_iff.mpr ⟨parseIndex_repr i, hbits i v hlook⟩, hlook, rfl⟩

theorem valid_packFor (hmode : parseEnforcementMode (enforcementModeName s.mode) = some mode) :
    (packFor s).Valid where
  id := by simp [packFor]
  name := by simp [packFor]
  mode := ⟨mode, hmode⟩
  levels key v h := (diffLevels_canonical (lookup_packFor_thresholds.mp h).1).2
  bits key v h := by
    obtain ⟨i, hi, -⟩ := bitIndex_packFor hbits h
    exact ⟨i, hi⟩

theorem unambiguous_packFor : (packFor s).Unambiguous := by
  constructor
  · rintro ⟨key, v⟩ he ⟨key', v'⟩ he' _ hread
    obtain ⟨hkey, hlook⟩ := lookup_packFor_thresholds.mp (mem_pairs.mp he)
    obtain ⟨hkey', hlook'⟩ := lookup_packFor_thresholds.mp (mem_pairs.mp he')
    have hsame : canonLevel key = canonLevel key' := Option.some.inj hread
    rw [(diffLevels_canonical hkey).1, (diffLevels_canonical hkey').1] at hsame
    exact value_unique hlook hlook' hsame
  · rintro ⟨key, v⟩ he ⟨key', v'⟩ he' _ hread
    obtain ⟨i, hi, hlook, -⟩ := bitIndex_packFor hbits (mem_pairs.mp he)
    obtain ⟨j, hj, hlook', -⟩ := bitIndex_packFor hbits (mem_pairs.mp he')
    have hij : some i = some j := hi.symm.trans (hread.trans hj)
    exact value_unique hlook hlook' (Option.some.inj hij)

theorem sameShape_packFor :
    SameShape s ⟨s.mode, canonThresholds (packFor s).riskThresholds,
      (packFor s).signalWeights.rekey bitIndex, (packFor s).modulesEnabled⟩ := by
  have hpack := unambiguous_packFor hbits
  refine ⟨rfl, fun lvl hlvl => ?_, fun i => ?_, fun _ => Iff.rfl⟩
  · refine Option.ext fun v => ?_
    show _ ↔ (GoMap.rekey _ _).lookup lvl = some v
    rw [lookup_rekey_eq_some_iff hpack.levels]
    constructor
    · intro h
      exact ⟨lvl, lookup_packFor_thresholds.mpr ⟨hlvl, h⟩, by rw [(diffLevels_canonical hlvl).1]⟩
    · rintro ⟨key, hlook, hread⟩
      obtain ⟨hkey, h⟩ := lookup_packFor_thresholds.mp hlook
      rw [(diffLevels_canonical hkey).1] at hread
      cases hread
      exact h
  · refine Option.ext fun v => ?_
    rw [lookup_rekey_eq_some_iff hpack.bits]
    constructor
    · intro h
      exact ⟨i.toNat.repr, lookup_packFor_weights.mpr ⟨i, h, rfl⟩,
        bitIndex_eq_some_iff.mpr ⟨parseIndex_repr i, hbits i v h⟩⟩
    · rintro ⟨key, hlook, hread⟩
      obtain ⟨j, hj, h, -⟩ := bitIndex_packFor hbits hlook
      rw [hj] at hread
      cases hread
      exact h

end packFor

theorem ne_observe_of_enforced (h : mode = .stepUp ∨ mode = .block) :
    mode ≠ .observe := by
  rcases h with rfl | rfl <;> decide

theorem parseEnforcementMode_name (h : mode = .stepUp ∨ mode = .block) :
    parseEnforcementMode (enforcementModeName mode) = some mode := by
  rcases h with rfl | rfl <;> decide

/-- **Every shape that enforces something is that of a pack which can be applied.** -/
theorem exists_pack {s : PolicyShape} (hmode : s.mode = .stepUp ∨ s.mode = .block)
    (hbits : ∀ i v, s.weights.lookup i = some v → i ≤ 63) (quote : String → String) :
    ∃ pack candidate req q m', pack.Valid ∧ pack.Unambiguous ∧ pack.shape quote = .ok candidate ∧
      SameShape s candidate ∧ pack.createRequest parseJson quote "t" "n" "" = .ok req ∧
      noStore.createPolicy req "p" 0 = .ok (q, m') ∧ Stored pack q := by
  have hparse : parseEnforcementMode (packFor s).enforcementMode = some s.mode :=
    parseEnforcementMode_name hmode
  have hvalid := valid_packFor hbits hparse
  have hname : "n" ≠ "" := by decide
  obtain ⟨q, m', hcreate, hstored, -⟩ :=
    createPolicy_stored hparse (show "t" ≠ "" by decide) hname "" noStore "p" 0
  exact ⟨packFor s, _, _, q, m', hvalid, unambiguous_packFor hbits, shape_eq_ok hparse quote,
    sameShape_packFor hbits, hvalid.createRequest hname hparse quote "t" "", hcreate, hstored⟩

/-! ## Skipped tenants -/

/-- In every order of iteration, each score the weights can give reaches a boundary under the names
the service knows exactly if it does so under the normalized names. -/
def NamesAgree (p : Policy) : Prop :=
  ∀ order : GoMap String UInt32, order.entries.Perm (storedThresholds p).entries →
    ∀ bits, ∀ n ∈ [3, denyFrom p.enforcementMode],
      (ReachesIn (thresholdList (some (storedThresholds p))) n
          (score bits (parseWeights parseJson (some p))) ↔
        ReachesIn (shapeThresholds (canonThresholds order)) n
          (score bits (parseWeights parseJson (some p))))

theorem namesAgree_of_plain {p : Policy}
    (hnames : ∀ key v, (storedThresholds p).lookup key = some v → key ∈ validLevelNames)
    (hone : Unambiguous (fun key => some (canonLevel key)) (storedThresholds p)) :
    NamesAgree p := by
  intro order hperm bits n _
  exact reachesIn_thresholdList_iff hnames hone
    (fun lvl _ => lookup_rekey_perm hone hperm lvl) n _

theorem parseEnforcementMode_cases {text : String} (h : parseEnforcementMode text = some mode) :
    mode = .observe ∨ mode = .stepUp ∨ mode = .block := by
  unfold parseEnforcementMode at h
  split at h
  · cases h
    exact .inl rfl
  · split at h
    · cases h
      exact .inr (.inl rfl)
    · obtain ⟨-, ⟨⟩⟩ := guard_some h
      exact .inr (.inr rfl)

/-- **Every tenant that is skipped is decided as under the pack exactly if the policy enforces
nothing or its thresholds mean the same under the normalized names.** -/
theorem skips_equivalent_iff {p : Policy} {spec : Simulator.PolicySpec}
    (hspec : specFromPolicy parseJson (some p) = .ok spec)
    (hweights : Unambiguous bitIndex (weightsObject parseJson p.rules))
    (quote : String → String) :
    SkipsEquivalent quote p ↔
      (p.enforcementMode = .stepUp ∨ p.enforcementMode = .block → NamesAgree p) := by
  constructor
  · intro h hmode order hperm bits
    -- A pack with the shape of the policy in this order would skip its tenant.
    obtain ⟨s, hs⟩ : ∃ s : PolicyShape, s = ⟨p.enforcementMode, canonThresholds order,
      (weightsObject parseJson p.rules).rekey bitIndex, p.modulesEnabled⟩ := ⟨_, rfl⟩
    have hshape : ShapeOf p s := ⟨_, order, .refl _, hperm, hs⟩
    have hbits : ∀ i v, s.weights.lookup i = some v → i ≤ 63 := by
      intro i v hlook
      rw [hs, lookup_rekey] at hlook
      obtain ⟨key, -, hread⟩ := exists_of_lastRead hlook
      exact (bitIndex_eq_some_iff.mp hread).2
    obtain ⟨pack, candidate, req, q, m', hvalid, hpack, hcandidate, hsame, hreq, hcreate, hstored⟩ :=
      exists_pack (hshape.mode.symm ▸ hmode) hbits quote
    have heq := h s hshape pack candidate (validate_eq_nil_iff.mpr hvalid) hpack hcandidate
      ((diffPolicy_eq_nil_iff _ _ _).mpr hsame) "t" "n" "" req noStore "p" 0 q m' hreq hcreate bits
    have hiff := (decisionUnder_stored_iff hspec hweights hshape hvalid hpack hcandidate hsame
      hstored (ne_observe_of_enforced hmode) bits).mp heq
    rwa [hs] at hiff
  · intro h current hshape pack candidate hvalid hpack hcandidate hdiff tenant name appID req m id now
      q m' hreq hcreate bits
    have hvalid := validate_eq_nil_iff.mp hvalid
    obtain ⟨hstored, -⟩ := hvalid.stored hreq hcreate
    have hsame := (diffPolicy_eq_nil_iff _ _ _).mp hdiff
    have hmode : p.enforcementMode = q.enforcementMode := by
      rw [shape_eq_ok hstored.mode] at hcandidate
      cases hcandidate
      exact hshape.mode.symm.trans hsame.mode
    rcases parseEnforcementMode_cases hstored.mode with hobs | henforced
    · simp only [decisionUnder, hmode, hobs, decision, if_true]
    · rw [← hmode] at henforced
      rw [decisionUnder_stored_iff hspec hweights hshape hvalid hpack hcandidate hsame hstored
        (ne_observe_of_enforced henforced)]
      obtain ⟨_, order, -, hperm, rfl⟩ := hshape
      exact h henforced order hperm bits

def namedPolicy (level : String) : Policy where
  id := "p1"
  tenantId := "t"
  appId := ""
  name := "n"
  version := 1
  enforcementMode := .block
  rules := "[]"
  riskThresholds := String.ofList (Json.obj [(level, .num (60 : Nat).repr)]).render
  modulesEnabled := ["root"]
  isActive := true
  createdAt := 0
  updatedAt := 0

theorem skips_equivalent_iff_highRisk : SkipsEquivalent id (namedPolicy "HIGH_RISK") := by
  have hspec : ∃ spec, specFromPolicy parseJson (some (namedPolicy "HIGH_RISK")) = .ok spec := by
    have hok : (specFromPolicy parseJson (some (namedPolicy "HIGH_RISK"))).isOk = true := by
      decide +kernel
    cases h : specFromPolicy parseJson (some (namedPolicy "HIGH_RISK")) with
    | ok spec => exact ⟨spec, rfl⟩
    | error e => rw [h] at hok; cases hok
  obtain ⟨spec, hspec⟩ := hspec
  have hnames : ∀ e ∈ (storedThresholds (namedPolicy "HIGH_RISK")).pairs, e.1 ∈ validLevelNames := by
    decide +kernel
  refine (skips_equivalent_iff hspec (by decide +kernel) id).mpr fun _ => ?_
  exact namesAgree_of_plain (fun key v h => hnames (key, v) (mem_pairs.mpr h))
    (by decide +kernel)

def highRiskPack : PolicyPack := { blockPack with signalWeights := ∅ }

def highRiskPolicy : Option Policy :=
  (highRiskPack.createRequest parseJson id "t" "n" "").toOption.bind fun req =>
    (noStore.createPolicy req "p2" 0).toOption.map Prod.fst

/-- The service does not know the name `high_risk`: root and a failed attestation are allowed under
the stored policy, and denied under the pack for which its tenant is skipped. -/
theorem lowercase_level_skipped :
    highRiskPack.validate id = [] ∧ highRiskPack.Unambiguous ∧
    (bulkApplyOne parseJson id
        { noStore with policies := AList.singleton "p1" (namedPolicy "high_risk") } "t" "" "n"
        highRiskPack ⟨false, false, false⟩ "p2" 0).1 = ⟨"t", .unchanged, 0, "", ""⟩ ∧
    decisionUnder (namedPolicy "high_risk") 0x21 = .allow ∧
    highRiskPolicy.map (decisionUnder · 0x21) = some .deny :=
  ⟨by decide +kernel, ⟨by decide +kernel, by decide +kernel⟩, by decide +kernel, by decide +kernel,
    by decide +kernel⟩

end Kseal.Contract
