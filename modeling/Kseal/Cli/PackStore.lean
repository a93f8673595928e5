import Kseal.Cli.Packs

/-!
# The policy that is stored for a pack

Applying a pack renders its tables as JSON, the server fills in what is missing, and both the tool
and the services read the texts back.

* `Stored.shape`, `Stored.parseWeights`, `Stored.parseThresholds` — what is read from it
-/

namespace Kseal.Cli

open Infra Wire Registry List GoMap

/-! ## Maps of numbers -/

theorem sortedPairs_perm (m : GoMap String UInt32) : (sortedPairs m).Perm m.pairs :=
  mergeSort_perm _ _

def resorted (m : GoMap String UInt32) : GoMap String UInt32 := writeAll ∅ (sortedPairs m)

@[simp] theorem lookup_resorted (m : GoMap String UInt32) (key : String) :
    (resorted m).lookup key = m.lookup key :=
  lookup_writeAll_perm (sortedPairs_perm m) key

theorem decodeUint32_repr (v old : UInt32) : decodeUint32 (.num v.toNat.repr) old = ⟨v, true⟩ := by
  unfold decodeUint32 decodeUint
  simp only [parseUint_repr v.toNat_lt, UInt32.ofNat_toNat]

theorem decodeMembers_numbers (es : List (String × UInt32)) (m : GoMap String UInt32) :
    decodeMembers (setEntry decodeUint32 0) (es.map fun e => (e.1, .num e.2.toNat.repr)) ⟨m, true⟩ =
      ⟨m.writeAll es, true⟩ := by
  induction es generalizing m with
  | nil => rfl
  | cons e es ih =>
    rw [map_cons, decodeMembers]
    simp only [setEntry, decodeUint32_repr]
    exact ih _

/-- **A map of numbers is read back from its JSON.** -/
theorem decodeWeights_numbersJson (old : Option (GoMap String UInt32)) (hold : old.getD ∅ = ∅)
    (m : GoMap String UInt32) : decodeWeights (numbersJson m) old = ⟨some (resorted m), true⟩ := by
  unfold decodeWeights numbersJson decodeMap
  simp only [hold, decodeMembers_numbers]
  rfl

theorem fitMembers_numbers (depth : Nat) (es : List (String × UInt32)) :
    FitMembers depth (es.map fun e => (e.1, Json.num e.2.toNat.repr)) := by
  induction es with
  | nil =>
    trivial
  | cons e es ih =>
    exact ⟨⟨_, rfl⟩, ih⟩

theorem fits_numbersJson (depth : Nat) (m : GoMap String UInt32) :
    (numbersJson m).Fits (depth + 1) := by
  exact ⟨depth, rfl, fitMembers_numbers depth _⟩

theorem parseJson_numbersJson (m : GoMap String UInt32) :
    parseJson (marshal (numbersJson m)) = some (numbersJson m) :=
  parseJson_render (fits_numbersJson 9999 m)

theorem parseJson_rulesJson (p : PolicyPack) :
    parseJson (marshal p.rulesJson) = some p.rulesJson := by
  refine parseJson_render ?_
  refine ⟨9999, rfl, ?_⟩
  split
  · exact ⟨fits_numbersJson 9998 _, trivial⟩
  · trivial

/-! ## Objects are no empty texts -/

theorem toList_marshal_obj (ms : List (String × Json)) :
    ∃ cs, (marshal (.obj ms)).toList = '\x7b' :: cs := by
  unfold marshal
  rw [String.toList_ofList]
  cases ms with
  | nil => exact ⟨_, by rw [Json.render]⟩
  | cons m ms => exact ⟨_, by rw [Json.render]⟩

theorem marshal_obj_ne_empty (ms : List (String × Json)) : marshal (.obj ms) ≠ "" := by
  obtain ⟨cs, hcs⟩ := toList_marshal_obj ms
  intro h
  rw [h] at hcs
  cases hcs

theorem marshal_rulesJson_ne (p : PolicyPack) : marshal p.rulesJson ≠ "" := marshal_obj_ne_empty _

theorem marshal_numbersJson_ne (m : GoMap String UInt32) : marshal (numbersJson m) ≠ "" :=
  marshal_obj_ne_empty _

theorem defaultJSON_marshal_obj (ms : List (String × Json)) (dflt : String) :
    defaultJSON (marshal (.obj ms)) dflt = marshal (.obj ms) := by
  obtain ⟨cs, hcs⟩ := toList_marshal_obj ms
  refine if_neg ?_
  rw [hcs]
  simp [isSpace]

/-! ## Valid packs -/

structure PolicyPack.Valid (p : PolicyPack) : Prop where
  id : p.id ≠ ""
  name : p.name ≠ ""
  mode : ∃ mode, parseEnforcementMode p.enforcementMode = some mode
  levels : ∀ key v, p.riskThresholds.lookup key = some v → key ∈ validLevelNames
  bits : ∀ key v, p.signalWeights.lookup key = some v → ∃ i, bitIndex key = some i

variable {quote : String → String} {m : GoMap String UInt32}

theorem levelProblems_eq_nil_iff :
    levelProblems quote m = [] ↔ ∀ key v, m.lookup key = some v → key ∈ validLevelNames := by
  unfold levelProblems
  rw [filterMap_eq_nil_iff]
  constructor
  · intro h key v hlook
    have hnone := h (key, v) (mem_pairs.mpr hlook)
    by_contra hout
    rw [if_neg hout] at hnone
    cases hnone
  · rintro h ⟨key, v⟩ he
    exact if_pos (h key v (mem_pairs.mp he))

theorem weightProblems_eq_nil_iff :
    weightProblems quote m = [] ↔ ∀ key v, m.lookup key = some v → ∃ i, bitIndex key = some i := by
  unfold weightProblems
  rw [filterMap_eq_nil_iff]
  constructor
  · intro h key v hlook
    have hnone := h (key, v) (mem_pairs.mpr hlook)
    refine Option.ne_none_iff_exists'.mp fun hout => ?_
    rw [if_pos hout] at hnone
    cases hnone
  · rintro h ⟨key, v⟩ he
    obtain ⟨i, hi⟩ := h key v (mem_pairs.mp he)
    rw [hi]
    simp

theorem ite_singleton_eq_nil {P : Prop} [Decidable P] {s : String} :
    (if P then [s] else []) = [] ↔ ¬ P := by
  split
  · next h => simp [h]
  · next h => simp [h]

theorem validate_eq_nil_iff {p : PolicyPack} :
    p.validate quote = [] ↔ p.Valid := by
  unfold PolicyPack.validate
  rw [append_eq_nil_iff, append_eq_nil_iff, append_eq_nil_iff,
    append_eq_nil_iff,
    ite_singleton_eq_nil, ite_singleton_eq_nil, ite_singleton_eq_nil, levelProblems_eq_nil_iff,
    weightProblems_eq_nil_iff]
  constructor
  · rintro ⟨⟨⟨⟨hid, hname⟩, hmode⟩, hlevels⟩, hbits⟩
    exact ⟨hid, hname, Option.ne_none_iff_exists'.mp hmode, hlevels, hbits⟩
  · rintro ⟨hid, hname, hmode, hlevels, hbits⟩
    exact ⟨⟨⟨⟨hid, hname⟩, Option.ne_none_iff_exists'.mpr hmode⟩, hlevels⟩, hbits⟩

/-! ## Reading the texts back -/

section texts

variable (p : PolicyPack)

def PolicyPack.weightsRead : Option (GoMap String UInt32) :=
  if p.signalWeights.pairs.length > 0 then some (resorted p.signalWeights) else none

theorem lookup_of_no_pairs (h : ¬ m.pairs.length > 0) (key : String) :
    m.lookup key = none := by
  cases hlook : m.lookup key with
  | none => rfl
  | some v => exact absurd (length_pos_of_mem (mem_pairs.mpr hlook)) h

theorem lookup_weightsRead (key : String) :
    (p.weightsRead.getD ∅).lookup key = p.signalWeights.lookup key := by
  unfold PolicyPack.weightsRead
  split
  · exact lookup_resorted _ key
  · next h => rw [lookup_of_no_pairs h]; rfl

theorem decodeStruct_wrapper : decodeStruct Trust.setWrapper p.rulesJson none =
    ⟨p.weightsRead, true⟩ := by
  unfold PolicyPack.rulesJson PolicyPack.weightsRead
  split
  · have hfield : matchesField "signal_weights" "signal_weights" = true := by decide
    simp only [decodeStruct, decodeMembers, Trust.setWrapper, hfield, if_true,
      decodeWeights_numbersJson none rfl, Bool.and_self]
  · rfl

theorem decodeStruct_policyDoc : decodeStruct setPolicyDoc p.rulesJson .zero =
    ⟨⟨none, p.weightsRead⟩, true⟩ := by
  unfold PolicyPack.rulesJson PolicyPack.weightsRead
  split
  · have hfield : matchesField "signal_weights" "signal_weights" = true := by decide
    simp only [decodeStruct, decodeMembers, setPolicyDoc, PolicyDoc.zero, hfield, if_true,
      decodeWeights_numbersJson none rfl, Bool.and_self]
  · rfl

theorem parsePolicyDoc_rulesJson :
    parsePolicyDoc parseJson (marshal p.rulesJson) = .ok ⟨none, p.weightsRead⟩ := by
  refine (parsePolicyDoc_obj (marshal_rulesJson_ne p) (parseJson_rulesJson p)).trans ?_
  show (if (decodeStruct setPolicyDoc p.rulesJson .zero).ok then
    Except.ok (decodeStruct setPolicyDoc p.rulesJson .zero).value else _) = _
  rw [decodeStruct_policyDoc]
  rfl

theorem unmarshal_numbersJson (old : Option (GoMap String UInt32)) (hold : old.getD ∅ = ∅)
    (m : GoMap String UInt32) :
    unmarshal parseJson decodeWeights (marshal (numbersJson m)) old = ⟨some (resorted m), true⟩ := by
  unfold unmarshal
  rw [parseJson_numbersJson]
  exact decodeWeights_numbersJson old hold m

theorem thresholds_numbersJson {pf : PolicyFile} (h : pf.riskThresholds = marshal (numbersJson m)) :
    pf.thresholds parseJson = .ok (some (resorted m)) := by
  unfold PolicyFile.thresholds
  rw [h, if_neg (marshal_numbersJson_ne m)]
  rw [unmarshal_numbersJson _ rfl]
  rfl

theorem thresholds_toPolicyFile (name appID : String) :
    ∃ th, (p.toPolicyFile name appID).thresholds parseJson = .ok th ∧
      ∀ key, (th.getD ∅).lookup key = p.riskThresholds.lookup key := by
  by_cases hpos : p.riskThresholds.pairs.length > 0
  · exact ⟨_, thresholds_numbersJson (if_pos hpos), lookup_resorted _⟩
  · have hempty : (p.toPolicyFile name appID).riskThresholds = "" := if_neg hpos
    exact ⟨some ∅, if_pos hempty, fun key => by rw [lookup_of_no_pairs hpos]; rfl⟩

end texts

/-! ## The request -/

def PolicyPack.request (p : PolicyPack) (mode : EnforcementMode) (tenant name appID : String) :
    CreatePolicyInput where
  tenantID := tenant
  appID := appID
  name := name
  enforcementMode := mode
  rules := marshal p.rulesJson
  riskThresholds :=
    if p.riskThresholds.pairs.length > 0 then marshal (numbersJson p.riskThresholds) else ""
  modulesEnabled := p.modulesEnabled

variable {name : String}

theorem PolicyPack.Valid.validate_toPolicyFile {p : PolicyPack} (hp : p.Valid) (hname : name ≠ "")
    (appID : String) (quote : String → String) :
    (p.toPolicyFile name appID).validate parseJson quote = [] := by
  obtain ⟨th, hth, hlook⟩ := thresholds_toPolicyFile p name appID
  obtain ⟨mode, hmode⟩ := hp.mode
  have hdoc : parsePolicyDoc parseJson (p.toPolicyFile name appID).rules =
      .ok ⟨none, p.weightsRead⟩ := parsePolicyDoc_rulesJson p
  have hnone : parseEnforcementMode (p.toPolicyFile name appID).enforcementMode ≠ none :=
    Option.ne_none_iff_exists'.mpr ⟨mode, hmode⟩
  have hlevels : levelProblems quote (th.getD ∅) = [] :=
    levelProblems_eq_nil_iff.mpr fun key v h => hp.levels key v (hlook key ▸ h)
  have hbits : weightProblems quote (p.weightsRead.getD ∅) = [] :=
    weightProblems_eq_nil_iff.mpr fun key v h => hp.bits key v (lookup_weightsRead p key ▸ h)
  unfold PolicyFile.validate
  rw [if_neg (show (p.toPolicyFile name appID).name ≠ "" from hname), if_neg hnone, hdoc, hth]
  dsimp only
  rw [hlevels, hbits]
  rfl

variable {mode : EnforcementMode}

/-- **A valid pack can be applied under every name.** -/
theorem PolicyPack.Valid.createRequest {p : PolicyPack} (hp : p.Valid) (hname : name ≠ "")
    (hmode : parseEnforcementMode p.enforcementMode = some mode) (quote : String → String)
    (tenant appID : String) :
    p.createRequest parseJson quote tenant name appID = .ok (p.request mode tenant name appID) := by
  rw [PolicyPack.createRequest]
  rw [hp.validate_toPolicyFile hname]
  rw [show parseEnforcementMode (p.toPolicyFile name appID).enforcementMode = some mode from hmode]
  rfl

/-! ## The stored policy -/

structure Stored (p : PolicyPack) (q : Policy) : Prop where
  mode : parseEnforcementMode p.enforcementMode = some q.enforcementMode
  rules : q.rules = marshal p.rulesJson
  riskThresholds : q.riskThresholds = marshal (numbersJson p.riskThresholds)
  modulesEnabled : q.modulesEnabled = p.modulesEnabled

theorem defaultJSON_thresholds (m : GoMap String UInt32) :
    defaultJSON (if m.pairs.length > 0 then marshal (numbersJson m) else "") "\x7b\x7d" =
      marshal (numbersJson m) := by
  by_cases hpos : m.pairs.length > 0
  · rw [if_pos hpos]
    exact defaultJSON_marshal_obj _ _
  · have hnil : m.pairs = [] := length_eq_zero_iff.mp (by omega)
    have hsorted : sortedPairs m = [] := by
      have hperm := sortedPairs_perm m
      rw [hnil] at hperm
      exact hperm.eq_nil
    rw [if_neg hpos, numbersJson, hsorted, marshal, map_nil]
    rfl

variable {tenant : String}

theorem createPolicy_stored {p : PolicyPack}
    (hmode : parseEnforcementMode p.enforcementMode = some mode) (htenant : tenant ≠ "")
    (hname : name ≠ "") (appID : String) (m : MemStore) (id : String) (now : Int64) :
    ∃ q m', m.createPolicy (p.request mode tenant name appID) id now = .ok (q, m') ∧ Stored p q ∧
      q.id = id ∧ q.tenantId = tenant ∧ q.appId = appID ∧
      m' = { m with policies := m.policies.insert id q } := by
  have hok : ¬ ((p.request mode tenant name appID).tenantID = "" ∨
      (p.request mode tenant name appID).name = "") := not_or.mpr ⟨htenant, hname⟩
  refine ⟨_, _, if_neg hok, ⟨hmode, ?_, ?_, rfl⟩, rfl, rfl, rfl, rfl⟩
  · exact defaultJSON_marshal_obj _ _
  · exact defaultJSON_thresholds _

variable {appID : String} {req : CreatePolicyInput}

theorem createRequest_scope {p : PolicyPack}
    (h : p.createRequest parseJson quote tenant name appID = .ok req) :
    req.tenantID = tenant ∧ req.name = name := by
  obtain ⟨-, ⟨⟩⟩ := guard_ok h
  exact ⟨rfl, rfl⟩

theorem PolicyPack.Valid.stored {p : PolicyPack} (hp : p.Valid) {id : String} {m m' : MemStore}
    {now : Int64} {q : Policy} (hreq : p.createRequest parseJson quote tenant name appID = .ok req)
    (hcreate : m.createPolicy req id now = .ok (q, m')) : Stored p q ∧ q.appId = appID := by
  obtain ⟨rfl, rfl⟩ := createRequest_scope hreq
  have hscope : ¬ (req.tenantID = "" ∨ req.name = "") := by
    intro hbad
    rw [MemStore.createPolicy, if_pos hbad] at hcreate
    cases hcreate
  obtain ⟨htenant, hname⟩ := not_or.mp hscope
  obtain ⟨mode, hmode⟩ := hp.mode
  have hreq' := hp.createRequest hname hmode quote req.tenantID appID
  rw [hreq', Except.ok.injEq] at hreq
  obtain ⟨q', m'', hcreate', hstored, -, -, happ, -⟩ :=
    createPolicy_stored hmode htenant hname appID m id now
  rw [hreq, hcreate] at hcreate'
  cases hcreate'
  exact ⟨hstored, happ⟩

section stored

variable {p : PolicyPack} {q : Policy} (h : Stored p q)

include h

theorem Stored.specFromPolicy : specFromPolicy parseJson (some q) =
    .ok ⟨some (resorted p.riskThresholds), some ((p.weightsRead.getD ∅).rekey bitIndex),
      q.enforcementMode⟩ := by
  have htables : (PolicyFile.ofPolicy q).scoringTables parseJson =
      .ok ((p.weightsRead.getD ∅).rekey bitIndex, some (resorted p.riskThresholds)) := by
    refine scoringTables_eq_ok_iff.mpr ⟨⟨none, p.weightsRead⟩, ?_, ?_, rfl⟩
    · show parsePolicyDoc parseJson q.rules = _
      rw [h.rules]
      exact parsePolicyDoc_rulesJson p
    · exact thresholds_numbersJson h.riskThresholds
  rw [Cli.specFromPolicy, htables]
  rfl

theorem Stored.shape : shapeFromPolicy parseJson (some q) =
    .ok ⟨q.enforcementMode, canonThresholds (resorted p.riskThresholds),
      (p.weightsRead.getD ∅).rekey bitIndex, p.modulesEnabled⟩ := by
  rw [shapeFromPolicy, h.specFromPolicy, ← h.modulesEnabled]
  rfl

theorem Stored.parseWeights : Trust.parseWeights parseJson (some q) =
    p.weightsRead.map fun m => m.rekey parseIndex := by
  rw [Trust.parseWeights]
  have hread : unmarshal parseJson (decodeStruct Trust.setWrapper) (marshal p.rulesJson) none =
      ⟨p.weightsRead, true⟩ := by
    unfold unmarshal
    rw [parseJson_rulesJson]
    exact decodeStruct_wrapper p
  rw [h.rules, if_neg (marshal_rulesJson_ne p), hread]
  rfl

theorem Stored.parseThresholds : Trust.parseThresholds parseJson (some q) =
    some (resorted p.riskThresholds) := by
  rw [Trust.parseThresholds]
  rw [h.riskThresholds, if_neg (marshal_numbersJson_ne _), unmarshal_numbersJson _ rfl]
  rfl

end stored

end Kseal.Cli
