import Kseal.Vm.LowerEncode

/-!
# Routines that ship virtualized (`vmspike/production.rs`, `vmspike/strength.rs`)

Routines exist as native code, and as an expression that is compiled, encoded under the seed of the
build and decoded again. Where the code would panic, the result is `none` (`virtual_eq_native`).
-/

namespace Kseal.Vm

open Infra

/-! ## The production path -/

inductive Candidate where
  | proofSigningAssembly
  | killSwitchVerifyGlue
  | attestationTokenAssembly
deriving Repr, DecidableEq

inductive RejectedTarget where
  | hotPath
  | goldenVectorCrypto
  | wholeProgram
  | unknown
deriving Repr, DecidableEq

inductive SelectionError where
  | rejected (target : RejectedTarget)
  | lower (e : LowerError)
deriving Repr, DecidableEq

def proofSigningAssemblyNative (method pathHash bodyHash nonceHi : UInt64) : UInt64 :=
  let acc := rotateLeft method 7 ^^^ pathHash
  let acc := acc + 0xD6E8FEB86659FD93
  let acc := acc ^^^ rotateRight bodyHash 11
  let acc := acc * 0x9E3779B185EBCA87
  acc ^^^ rotateLeft nonceHi 23

def proofSigningAssemblyExpr : Expr :=
  let acc := .xor (.rotl (.input 0) 7) (.input 1)
  let acc := .add acc (.const 0xD6E8FEB86659FD93)
  let acc := .xor acc (.rotr (.input 2) 11)
  let acc := .mul acc (.const 0x9E3779B185EBCA87)
  .xor acc (.rotl (.input 3) 23)

def killSwitchVerifyGlueNative (scopeHash command version : UInt64) : UInt64 :=
  let acc := scopeHash ^^^ command * 0xA24BAED4963EE407
  let acc := rotateLeft acc 17
  let acc := acc + (version ^^^ 0x94D049BB133111EB)
  acc ^^^ acc >>> 31

def killSwitchVerifyGlueExpr : Expr :=
  let cmd := .mul (.input 1) (.const 0xA24BAED4963EE407)
  let acc := .xor (.input 0) cmd
  let acc := .rotl acc 17
  let ver := .xor (.input 2) (.const 0x94D049BB133111EB)
  let acc := .add acc ver
  .xor acc (.shr acc 31)

def attestationTokenAssemblyNative (nonceLo claimsHash buildHashLo : UInt64) : UInt64 :=
  let acc := nonceLo + rotateLeft claimsHash 29
  let acc := acc ^^^ rotateRight buildHashLo 19
  let acc := acc * 0xC2B2AE3D27D4EB4F
  acc ^^^ acc >>> 33

def attestationTokenAssemblyExpr : Expr :=
  let acc := .add (.input 0) (.rotl (.input 1) 29)
  let acc := .xor acc (.rotr (.input 2) 19)
  let acc := .mul acc (.const 0xC2B2AE3D27D4EB4F)
  .xor acc (.shr acc 33)

namespace Candidate

def routine : Candidate → String
  | proofSigningAssembly => "proof_signing_assembly"
  | killSwitchVerifyGlue => "kill_switch_verify_glue"
  | attestationTokenAssembly => "attestation_token_assembly"

def inputs : Candidate → UInt8
  | proofSigningAssembly => 4
  | killSwitchVerifyGlue | attestationTokenAssembly => 3

def expr : Candidate → Expr
  | proofSigningAssembly => proofSigningAssemblyExpr
  | killSwitchVerifyGlue => killSwitchVerifyGlueExpr
  | attestationTokenAssembly => attestationTokenAssemblyExpr

def native (candidate : Candidate) (words : List UInt64) : UInt64 :=
  let word (i : Nat) := words[i]?.getD 0
  match candidate with
  | proofSigningAssembly => proofSigningAssemblyNative (word 0) (word 1) (word 2) (word 3)
  | killSwitchVerifyGlue => killSwitchVerifyGlueNative (word 0) (word 1) (word 2)
  | attestationTokenAssembly => attestationTokenAssemblyNative (word 0) (word 1) (word 2)

end Candidate

def lowerCandidate (candidate : Candidate) : Except SelectionError LoweredProgram :=
  (lower candidate.routine candidate.inputs candidate.expr).mapError .lower

def roundtrip (sha256 : Bytes → Block32) (program : Program) (seed : BuildSeed) : Option Program := do
  let bytes ← encodeWithSeed sha256 program seed
  (decodeWithSeed sha256 bytes seed).toOption

structure VirtualCandidate where
  candidate : Candidate
  program : Program

def VirtualCandidate.build (sha256 : Bytes → Block32) (candidate : Candidate) (seed : BuildSeed) :
    Option (Except SelectionError VirtualCandidate) :=
  match lowerCandidate candidate with
  | .error e => some (.error e)
  | .ok lowered =>
    (roundtrip sha256 lowered.program seed).map fun program => .ok ⟨candidate, program⟩

def VirtualCandidate.run (v : VirtualCandidate) (words : List UInt64) :
    Option (Except VmError UInt64) :=
  -- `debug_assert_eq!`
  if words.length = v.candidate.inputs.toNat then some (runIr v.program words) else none

/-! ## The cohort routine -/

def demoCohortInputs : UInt8 := 3

def demoCohortNative (deviceHi deviceLo salt : UInt64) : UInt64 :=
  let acc := deviceHi ^^^ 0x9E3779B97F4A7C15
  let acc := acc * 0xFF51AFD7ED558CCD
  let acc := acc ^^^ acc >>> 33
  let acc := acc + deviceLo
  let acc := rotateLeft acc 27
  let acc := acc ^^^ salt
  let acc := acc * 0xC4CEB9FE1A85EC53
  acc ^^^ acc >>> 29

def demoCohortExpr : Expr :=
  let acc := .xor (.input 0) (.const 0x9E3779B97F4A7C15)
  let acc := .mul acc (.const 0xFF51AFD7ED558CCD)
  let acc := .xor acc (.shr acc 33)
  let acc := .add acc (.input 1)
  let acc := .rotl acc 27
  let acc := .xor acc (.input 2)
  let acc := .mul acc (.const 0xC4CEB9FE1A85EC53)
  .xor acc (.shr acc 29)

inductive ObfuscationStrength where
  | off
  | low
  | medium
  | high
deriving Repr, DecidableEq

def ObfuscationStrength.virtualizes (strength : ObfuscationStrength) : Bool := strength = .high

structure VirtualCohort where
  program : Program

def VirtualCohort.build (sha256 : Bytes → Block32) (seed : BuildSeed) : Option VirtualCohort := do
  let lowered ← (lower "demo_cohort" demoCohortInputs demoCohortExpr).toOption
  let program ← roundtrip sha256 lowered.program seed
  return ⟨program⟩

def VirtualCohort.run (v : VirtualCohort) (deviceHi deviceLo salt : UInt64) : Option UInt64 :=
  (runIr v.program [deviceHi, deviceLo, salt]).toOption

def cohortBucket (sha256 : Bytes → Block32) (strength : ObfuscationStrength) (seed : BuildSeed)
    (deviceHi deviceLo salt : UInt64) : Option UInt64 :=
  if strength.virtualizes then do
    let v ← VirtualCohort.build sha256 seed
    v.run deviceHi deviceLo salt
  else some (demoCohortNative deviceHi deviceLo salt)

/-! ## The two forms -/

/-- **The expression of a routine means what its native code computes.** -/
theorem eval_expr (candidate : Candidate) (words : List UInt64) :
    eval words candidate.expr = candidate.native words := by
  cases candidate with
  | proofSigningAssembly => rfl
  | killSwitchVerifyGlue => rfl
  | attestationTokenAssembly => rfl

theorem lower_expr (candidate : Candidate) :
    ∃ lp, lower candidate.routine candidate.inputs candidate.expr = .ok lp := by
  cases candidate with
  | proofSigningAssembly => exact ⟨_, rfl⟩
  | killSwitchVerifyGlue => exact ⟨_, rfl⟩
  | attestationTokenAssembly => exact ⟨_, rfl⟩

theorem size_expr (candidate : Candidate) : candidate.expr.size ≤ 65534 := by
  cases candidate <;> decide

/-! ## Builds with and without virtualization -/

variable {e : Expr} {function : String} {numInputs : UInt8} {lp : LoweredProgram}

theorem roundtrip_lowered (sha256 : Bytes → Block32) (seed : BuildSeed)
    (h : lower function numInputs e = .ok lp) (hsize : e.size ≤ 65534) :
    roundtrip sha256 lp.program seed = some lp.program := by
  obtain ⟨b, hencode, hdecode⟩ := decode_lowered sha256 seed h hsize
  show (encodeWithSeed sha256 lp.program seed).bind _ = _
  rw [hencode, Option.bind_some, hdecode]
  rfl

theorem build_run (sha256 : Bytes → Block32) (seed : BuildSeed) (candidate : Candidate)
    {words : List UInt64} (hwords : words.length = candidate.inputs.toNat) :
    ∃ v, VirtualCandidate.build sha256 candidate seed = some (.ok v) ∧
      v.run words = some (.ok (candidate.native words)) := by
  obtain ⟨lp, hlp⟩ := lower_expr candidate
  have hsize := size_expr candidate
  refine ⟨⟨candidate, lp.program⟩, ?_, ?_⟩
  · simp only [VirtualCandidate.build, lowerCandidate, hlp, Except.mapError,
      roundtrip_lowered sha256 seed hlp hsize, Option.map_some]
  · have hrun : runIr lp.program words = .ok (eval words candidate.expr) :=
      run_lowered (by omega) (Nat.le_of_eq hwords.symm) hlp
    rw [VirtualCandidate.run, if_pos hwords, hrun, eval_expr]

theorem cohort_build_run (sha256 : Bytes → Block32) (seed : BuildSeed)
    (deviceHi deviceLo salt : UInt64) :
    ∃ v, VirtualCohort.build sha256 seed = some v ∧
      v.run deviceHi deviceLo salt = some (demoCohortNative deviceHi deviceLo salt) := by
  obtain ⟨lp, hlp⟩ : ∃ lp, lower "demo_cohort" demoCohortInputs demoCohortExpr = .ok lp := ⟨_, rfl⟩
  have hsize : demoCohortExpr.size ≤ 65534 := by decide
  refine ⟨⟨lp.program⟩, ?_, ?_⟩
  · rw [VirtualCohort.build, hlp]
    show (roundtrip sha256 lp.program seed).bind _ = _
    rw [roundtrip_lowered sha256 seed hlp hsize]
    rfl
  · have hwords : demoCohortInputs.toNat ≤ [deviceHi, deviceLo, salt].length := Nat.le_refl 3
    have hrun : runIr lp.program [deviceHi, deviceLo, salt] =
        .ok (eval [deviceHi, deviceLo, salt] demoCohortExpr) :=
      run_lowered (by omega) hwords hlp
    rw [VirtualCohort.run, hrun]
    rfl

/--
**A build with virtualization computes what one without it does.** Under every seed each routine is
built, and on words of the number it declares it returns the value of its native code; the bucket of
a device depends neither on the strength nor on the seed.
-/
theorem virtual_eq_native (sha256 : Bytes → Block32) (seed : BuildSeed) :
    (∀ (candidate : Candidate) (words : List UInt64), words.length = candidate.inputs.toNat →
      ∃ v, VirtualCandidate.build sha256 candidate seed = some (.ok v) ∧
        v.run words = some (.ok (candidate.native words))) ∧
    (∀ deviceHi deviceLo salt, ∃ v, VirtualCohort.build sha256 seed = some v ∧
      v.run deviceHi deviceLo salt = some (demoCohortNative deviceHi deviceLo salt)) ∧
    ∀ strength deviceHi deviceLo salt, cohortBucket sha256 strength seed deviceHi deviceLo salt =
      some (demoCohortNative deviceHi deviceLo salt) := by
  refine ⟨fun candidate words hwords => build_run sha256 seed candidate hwords,
    cohort_build_run sha256 seed, fun strength deviceHi deviceLo salt => ?_⟩
  obtain ⟨v, hbuild, hrun⟩ := cohort_build_run sha256 seed deviceHi deviceLo salt
  unfold cohortBucket
  split
  · rw [hbuild]
    exact hrun
  · rfl

theorem virtual_eq_native_sample :
    ∃ v, VirtualCandidate.build (fun _ => zeroBlock) .killSwitchVerifyGlue ⟨zeroBlock⟩ =
        some (.ok v) ∧
      v.run [1, 2, 3] = some (.ok (Candidate.killSwitchVerifyGlue.native [1, 2, 3])) :=
  (virtual_eq_native (fun _ => zeroBlock) ⟨zeroBlock⟩).1 .killSwitchVerifyGlue [1, 2, 3] rfl

/-! ## The cost of a build with virtualization -/

/--
**What a shipped program costs.** Decoded again under any seed, the program of an expression runs to
its value with more fuel than the expression has operations, and with no more than that it runs out.
-/
theorem shipped_cost (sha256 : Bytes → Block32) (seed : BuildSeed) {words : List UInt64}
    (h : lower function numInputs e = .ok lp) (hsize : e.size ≤ 65534)
    (hwords : numInputs.toNat ≤ words.length) (fuel : UInt64) :
    ∃ p, roundtrip sha256 lp.program seed = some p ∧
      (e.size < fuel.toNat → runIrWithFuel p words fuel = .ok (eval words e)) ∧
      (fuel.toNat ≤ e.size →
        ∃ frame, runIrWithFuel p words fuel = .error ⟨frame, .outOfFuel⟩) := by
  refine ⟨_, roundtrip_lowered sha256 seed h hsize,
    runIrWithFuel_lowered (by omega) hwords h, fun hfuel => ?_⟩
  obtain ⟨s', hrun, -⟩ := lowered_steps (by omega) hwords h
  exact runLoop_outOfFuel hrun hfuel

theorem shipped_cost_sample :
    ∃ lp p, lower "sample" 2 sampleExpr = .ok lp ∧
      roundtrip (fun _ => zeroBlock) lp.program ⟨zeroBlock⟩ = some p ∧
      ∃ frame, runIrWithFuel p [2, 1] 3 = .error ⟨frame, .outOfFuel⟩ := by
  obtain ⟨p, hp, -, hcost⟩ := @shipped_cost sampleExpr "sample" 2 _ (fun _ => zeroBlock) ⟨zeroBlock⟩
    [2, 1] rfl (by decide) (by decide) 3
  exact ⟨_, p, rfl, hp, hcost (by decide)⟩

end Kseal.Vm
