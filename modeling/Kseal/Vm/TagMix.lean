import Kseal.Vm.EncodeRoundtrip

/-!
# The hand-lowered mixer

`native_tag_mix` and the program it is translated to by hand. A pass through the loop of the program
does what one turn of the native loop does (`tag_mix_virtualized`).
-/

namespace Kseal.Vm

open Infra List

def regAcc : UInt8 := 0
def regTmp : UInt8 := 2

def mixOffset : UInt64 := 0xcbf29ce484222325
def mixPrime : UInt64 := 0x100000001b3
def mixPrime2 : UInt64 := 0x9e3779b97f4a7c15

/-! ## The native routine -/

def mixByte (domain acc : UInt64) (b : UInt8) : UInt64 :=
  let acc := acc ^^^ b.toUInt64
  let acc := acc * mixPrime
  let acc := acc ^^^ acc >>> 29
  let acc := acc + domain
  rotateLeft acc 17

def nativeTagMix (input : Bytes) (domain : UInt64) : UInt64 :=
  let acc := input.foldl (mixByte domain) (mixOffset ^^^ domain)
  let acc := acc ^^^ acc >>> 32
  acc * mixPrime2

/-! ## The lowering -/

namespace Builder

def internConst (b : Builder) (c : UInt64) : Option (UInt8 × Builder) := b.internConstChecked c

def patchJmpIfEnd (b : Builder) (pc target : UInt16) : Builder :=
  match b.instrs[pc.toNat]? with
  | some (.jmpIfEnd _) => { b with instrs := b.instrs.set pc.toNat (.jmpIfEnd target) }
  | _ => b

end Builder

def lowerTagMix : Option LoweredProgram := do
  let b := Builder.new "native_tag_mix" []
  let (kOffset, b) ← b.internConst mixOffset
  let (kPrime, b) ← b.internConst mixPrime
  let (kPrime2, b) ← b.internConst mixPrime2
  let (_, b) := b.emit (.loadConst regAcc kOffset) "acc = MIX_OFFSET" 309
  let (_, b) := b.emit (.xor regAcc regDomain) "acc ^= domain" 317
  let loopTop := b.here
  let (jmpEnd, b) := b.emit (.jmpIfEnd 0) "while i < input.len()" 324
  let (_, b) := b.emit (.loadByte regTmp) "tmp = input[i]; i += 1" 329
  let (_, b) := b.emit (.xor regAcc regTmp) "acc ^= input[i]" 337
  let (_, b) := b.emit (.mulConst regAcc kPrime) "acc = acc.wrapping_mul(MIX_PRIME)" 345
  let (_, b) := b.emit (.xorShr regAcc 29) "acc ^= acc >> 29" 353
  let (_, b) := b.emit (.add regAcc regDomain) "acc = acc.wrapping_add(domain)" 361
  let (_, b) := b.emit (.rotl regAcc 17) "acc = acc.rotate_left(17)" 369
  let (_, b) := b.emit (.jmp loopTop) "continue loop" 374
  let loopEnd := b.here
  let (_, b) := b.emit (.xorShr regAcc 32) "acc ^= acc >> 32" 384
  let (_, b) := b.emit (.mulConst regAcc kPrime2) "acc = acc.wrapping_mul(MIX_PRIME2)" 392
  let (_, b) := b.emit (.ret regAcc) "return acc" 394
  let b := b.patchJmpIfEnd jmpEnd loopEnd
  return b.finish

def tagMixProgram : Program where
  instrs :=
    [.loadConst 0 0, .xor 0 1,
      .jmpIfEnd 10, .loadByte 2, .xor 0 2, .mulConst 0 1, .xorShr 0 29, .add 0 1, .rotl 0 17,
      .jmp 2,
      .xorShr 0 32, .mulConst 0 2, .ret 0]
  consts := [mixOffset, mixPrime, mixPrime2]

theorem lowerTagMix_eq : lowerTagMix.map LoweredProgram.program = some tagMixProgram := rfl

theorem tagMixProgram_wellFormed : tagMixProgram.WellFormed := by
  refine ⟨?_, by decide, by decide⟩
  simp [Instr.WellFormed, tagMixProgram, numRegs]

/-! ## The blocks -/

@[simp] theorem reg_initState_domain (domain : UInt64) : (initState domain).reg 1 = domain := by
  simp [VmState.reg, initState, regDomain]

@[simp] theorem reg_domain_write_acc (s : VmState) (v : UInt64) :
    (s.write 0 v).reg 1 = s.reg 1 := VmState.reg_write_ne (by decide) (by decide) (by decide)

@[simp] theorem reg_domain_write_tmp (s : VmState) (v : UInt64) :
    (s.write 2 v).reg 1 = s.reg 1 := VmState.reg_write_ne (by decide) (by decide) (by decide)

@[simp] theorem reg_acc_write_tmp (s : VmState) (v : UInt64) :
    (s.write 2 v).reg 0 = s.reg 0 := VmState.reg_write_ne (by decide) (by decide) (by decide)

@[simp] theorem reg_with_pc (s : VmState) (cursor : Nat) (pc : UInt32) (r : UInt8) :
    VmState.reg ⟨s.regs, cursor, pc⟩ r = s.reg r := rfl

section blocks

variable {input : Bytes} {domain : UInt64}

structure AtTop (domain : UInt64) (i : Nat) (acc : UInt64) (s : VmState) : Prop where
  pc : s.pc = 2
  cursor : s.cursor = i
  acc : s.reg 0 = acc
  domain : s.reg 1 = domain

theorem runs_entry (input : Bytes) (domain : UInt64) :
    ∃ s, stepN tagMixProgram input [] 2 (initState domain) = some s ∧
      AtTop domain 0 (mixOffset ^^^ domain) s := by
  refine ⟨_, rfl, rfl, rfl, ?_, ?_⟩
  · simp
  · simp

variable {acc : UInt64} {b : UInt8} {s : VmState}

theorem runs_load {i : Nat} (hs : AtTop domain i acc s) (hb : input[i]? = some b) :
    ∃ s', stepN tagMixProgram input [] 2 s = some s' ∧ s'.pc = 4 ∧ s'.cursor = i + 1 ∧
      s'.reg 0 = acc ∧ s'.reg 1 = domain ∧ s'.reg 2 = b.toUInt64 := by
  obtain ⟨regs, cursor, pc⟩ := s
  obtain ⟨rfl, rfl, hacc, hdomain⟩ := hs
  have hlt : ¬ cursor ≥ input.length := Nat.not_le.mpr (List.getElem?_eq_some_iff.mp hb).1
  have htest : step tagMixProgram input [] ⟨regs, cursor, 2⟩ = .next ⟨regs, cursor, 3⟩ :=
    if_neg hlt
  have hload : step tagMixProgram input [] ⟨regs, cursor, 3⟩ =
      .next { VmState.write ⟨regs, cursor, 3⟩ 2 b.toUInt64 with cursor := cursor + 1 } := by
    rw [step_of_getElem (i := .loadByte 2) rfl, exec, hb]
  refine ⟨_, stepN_add (stepN_one htest) (stepN_one hload), rfl, rfl, ?_, ?_, ?_⟩
  · exact (reg_acc_write_tmp ⟨regs, cursor, 3⟩ b.toUInt64).trans hacc
  · exact (reg_domain_write_tmp ⟨regs, cursor, 3⟩ b.toUInt64).trans hdomain
  · exact VmState.reg_write_same ⟨regs, cursor, 3⟩ 2 b.toUInt64

theorem runs_mix (input : Bytes) (hpc : s.pc = 4) (hb : s.reg 2 = b.toUInt64) :
    ∃ s', stepN tagMixProgram input [] 6 s = some s' ∧
      AtTop (s.reg 1) s.cursor (mixByte (s.reg 1) (s.reg 0) b) s' := by
  obtain ⟨regs, cursor, pc⟩ := s
  obtain rfl : pc = 4 := hpc
  have hshift : UInt64.ofNat (shiftAmount 29) = 29 := by decide
  have hrotl : shiftAmount 17 = 17 := by decide
  refine ⟨_, rfl, rfl, rfl, ?_, ?_⟩
  · simp [mixByte, hb, hshift, hrotl]
  · simp

theorem runs_body {i : Nat} (hs : AtTop domain i acc s) (hb : input[i]? = some b) :
    ∃ s', stepN tagMixProgram input [] 8 s = some s' ∧
      AtTop domain (i + 1) (mixByte domain acc b) s' := by
  obtain ⟨t, hload, hpc, hcursor, hacc, hdomain, htmp⟩ := runs_load hs hb
  obtain ⟨s', hmix, hs'⟩ := runs_mix input hpc htmp
  rw [hcursor, hacc, hdomain] at hs'
  exact ⟨s', stepN_add hload hmix, hs'⟩

/-- **The loop folds the bytes that are left.** -/
theorem runs_loop {acc : UInt64} {s : VmState} (rest : Bytes) (i : Nat)
    (hrest : input.drop i = rest) (hs : AtTop domain i acc s) :
    ∃ s', stepN tagMixProgram input [] (8 * rest.length) s = some s' ∧
      AtTop domain (i + rest.length) (rest.foldl (mixByte domain) acc) s' := by
  induction rest generalizing i acc s with
  | nil => exact ⟨s, rfl, hs⟩
  | cons b rest ih =>
    have hb : input[i]? = some b := by
      rw [← head?_drop, hrest, head?_cons]
    have hdrop : input.drop (i + 1) = rest := by
      rw [← tail_drop, hrest, tail_cons]
    obtain ⟨t, hbody, ht⟩ := runs_body hs hb
    obtain ⟨s', hloop, hs'⟩ := ih (i + 1) hdrop ht
    refine ⟨s', ?_, ?_⟩
    · rw [length_cons, Nat.mul_succ, Nat.add_comm]
      exact stepN_add hbody hloop
    · exact (show i + 1 + rest.length = i + (rest.length + 1) by omega) ▸ hs'

theorem runLoop_exit (hs : AtTop domain input.length acc s) (fuel : Nat) :
    runLoop tagMixProgram input [] (4 + fuel) s = .ok ((acc ^^^ acc >>> 32) * mixPrime2) := by
  obtain ⟨regs, cursor, pc⟩ := s
  obtain ⟨rfl, hcursor, hacc, -⟩ := hs
  have hacc' : VmState.reg ⟨regs, cursor, 10⟩ 0 = acc := hacc
  have htest : step tagMixProgram input [] ⟨regs, cursor, 2⟩ = .next ⟨regs, cursor, 10⟩ :=
    if_pos (Nat.le_of_eq hcursor.symm)
  have hshift : UInt64.ofNat (shiftAmount 32) = 32 := by decide
  have hexit := stepN_add (n := 2) (stepN_one htest) rfl
  rw [show 4 + fuel = 1 + 2 + (fuel + 1) by omega, runLoop_stepN _ hexit, runLoop]
  rw [step_of_getElem (i := .ret 0) rfl]
  simp [exec, hshift, hacc']

end blocks

theorem run_tagMixProgram {input : Bytes} (domain : UInt64) (hlen : input.length < 2 ^ 57) :
    run tagMixProgram input domain = .ok (nativeTagMix input domain) := by
  obtain ⟨s, hentry, hs⟩ := runs_entry input domain
  obtain ⟨s', hloop, hs'⟩ := runs_loop input 0 drop_zero hs
  rw [Nat.zero_add] at hs'
  rw [run, runWithFuel, runCore, toNat_defaultFuel hlen]
  rw [show 4096 + input.length * 64
    = 2 + 8 * input.length + (4 + (4090 + 56 * input.length)) by omega]
  rw [runLoop_stepN _ (stepN_add hentry hloop), runLoop_exit hs']
  rfl

/-! ## The encoded program -/

def DecodeError.debug : DecodeError → String
  | .tooShort => "TooShort"
  | .badMagic => "BadMagic"
  | .badVersion => "BadVersion"
  | .badOpcode => "BadOpcode"
  | .badRegister => "BadRegister"
  | .badConstIndex => "BadConstIndex"
  | .badJumpTarget => "BadJumpTarget"
  | .badChecksum => "BadChecksum"

def VmFault.debug : VmFault → String
  | .pcOutOfRange => "PcOutOfRange"
  | .badConstIndex => "BadConstIndex"
  | .inputExhausted => "InputExhausted"
  | .badInputSlot => "BadInputSlot"
  | .outOfFuel => "OutOfFuel"

def VmError.debug (e : VmError) : String :=
  "VmError \x7b frame: VmFrame \x7b pc: " ++ toString e.frame.pc.toNat ++ " \x7d, fault: " ++
    e.fault.debug ++ " \x7d"

def runVirtualized (sha256 : Bytes → Block32) (seed : BuildSeed) (input : Bytes)
    (domain : UInt64) : Option (Except String UInt64) := do
  let lowered ← lowerTagMix
  let bytes ← encodeWithSeed sha256 lowered.program seed
  return do
    let program ← (decodeWithSeed sha256 bytes seed).mapError ("decode: " ++ ·.debug)
    (run program input domain).mapError ("run: " ++ ·.debug)

/-- **Under every seed the virtualized mixer returns what the native one does.** -/
theorem tag_mix_virtualized (sha256 : Bytes → Block32) (seed : BuildSeed) {input : Bytes}
    (domain : UInt64) (hlen : input.length < 2 ^ 57) :
    runVirtualized sha256 seed input domain = some (.ok (nativeTagMix input domain)) := by
  obtain ⟨lowered, hlower, hprogram⟩ := Option.map_eq_some_iff.mp lowerTagMix_eq
  obtain ⟨bytes, hencode, hdecode⟩ :=
    decode_encode (BuildKey.derive sha256 seed) tagMixProgram_wellFormed
  have hrun := run_tagMixProgram domain hlen
  simp [runVirtualized, hlower, hprogram, encodeWithSeed, decodeWithSeed, hencode, hdecode,
    Except.mapError, bind, Except.bind, hrun]

theorem tag_mix_virtualized_sample :
    [107, 115, 101].length < 2 ^ 57 ∧
    runVirtualized (fun _ => zeroBlock) ⟨zeroBlock⟩ [107, 115, 101] 7 =
      some (.ok (nativeTagMix [107, 115, 101] 7)) :=
  ⟨by decide, tag_mix_virtualized (fun _ => zeroBlock) ⟨zeroBlock⟩ 7 (by decide)⟩

end Kseal.Vm
