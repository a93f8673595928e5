import Kseal.Infra.Perm
import Kseal.Infra.Reader
import Kseal.Vm.Isa

/-!
# The per-build byte encoding (`vmspike/encode.rs`)

A seed gives a permutation of the opcodes, one of the registers and a keystream. SHA-256 is the
parameter `sha256`. The tables of a `BuildKey` carry the proof that they are inverse to each other.
-/

namespace Kseal.Vm

open Infra

/-! ## Primitives -/

abbrev Block32 := Vector UInt8 32

structure BuildSeed where
  bytes : Block32

def splitmix64 (z : UInt64) : UInt64 :=
  let z := z + 0x9E3779B97F4A7C15
  let z := (z ^^^ (z >>> 30)) * 0xBF58476D1CE4E5B9
  let z := (z ^^^ (z >>> 27)) * 0x94D049BB133111EB
  z ^^^ (z >>> 31)

def keystreamByte (key : UInt64) (i : Nat) : UInt8 :=
  (splitmix64 (key ^^^ UInt64.ofNat i * 0x9E3779B97F4A7C15) >>> 24).toUInt8

def applyKeystream (key : UInt64) (raw : Bytes) : Bytes :=
  raw.mapIdx fun i b => b ^^^ keystreamByte key i

def permutationLoop : Nat → UInt64 → List UInt8 → List UInt8
  | 0, _, out => out
  | 1, _, out => out
  | i + 2, state, out =>
    let state := splitmix64 state
    let j := (state % (UInt64.ofNat (i + 1) + 1)).toNat
    permutationLoop (i + 1) state (swap out (i + 1) j)

def permutation (seedWord : UInt64) (n : Nat) : List UInt8 :=
  permutationLoop n (seedWord ^^^ 0x5DEECE66D5B63C9D) (identityTable n)

def fnv1a64 (bytes : Bytes) : UInt64 :=
  bytes.foldl (fun h b => (h ^^^ b.toUInt64) * 0x00000100000001b3) 0xcbf29ce484222325

def subkey (sha256 : Bytes → Block32) (seed : BuildSeed) (label : Bytes) : UInt64 :=
  UInt64.ofNat (ofBe ((sha256 (label ++ seed.bytes.toList)).toList.take 8))

theorem permutationLoop_perm (i : Nat) (state : UInt64) (out : List UInt8) :
    (permutationLoop i state out).Perm out := by
  fun_induction permutationLoop i state out with
  | case1 | case2 => exact List.Perm.refl _
  | case3 state out i state' j ih => exact ih.trans (swap_perm _ _ _)

/-- **The shuffle is a permutation for every seed.** -/
theorem permutation_perm (seedWord : UInt64) (n : Nat) :
    (permutation seedWord n).Perm (identityTable n) := permutationLoop_perm _ _ _

theorem applyKeystream_applyKeystream (key : UInt64) (raw : Bytes) :
    applyKeystream key (applyKeystream key raw) = raw := by
  unfold applyKeystream
  rw [List.mapIdx_mapIdx]
  refine List.ext_getElem (by simp) fun i h h' => ?_
  rw [List.getElem_mapIdx, Function.comp_apply, UInt8.xor_assoc, UInt8.xor_self, UInt8.xor_zero]

/-! ## Keys -/

structure BuildKey where
  opcodePerm : List UInt8
  opcodeInv : List UInt8
  regPerm : List UInt8
  regInv : List UInt8
  streamKey : UInt64
  opcode_inverse : Inverse numOps opcodePerm opcodeInv
  reg_inverse : Inverse numRegs regPerm regInv

def BuildKey.derive (sha256 : Bytes → Block32) (seed : BuildSeed) : BuildKey :=
  let opcodePerm := permutation (subkey sha256 seed (ascii "kseal/vmspike/opcode-perm")) numOps
  let regPerm := permutation (subkey sha256 seed (ascii "kseal/vmspike/reg-perm")) numRegs
  { opcodePerm := opcodePerm
    opcodeInv := invert numOps opcodePerm
    regPerm := regPerm
    regInv := invert numRegs regPerm
    streamKey := subkey sha256 seed (ascii "kseal/vmspike/stream-key")
    opcode_inverse := inverse_invert (by decide) (permutation_perm _ _)
    reg_inverse := inverse_invert (by decide) (permutation_perm _ _) }

/-! ## Encoding -/

def magic : Bytes := ascii "KVMS"
def version : UInt8 := 1

/--
The operand bytes of an instruction.

Nothing stands for the index panic at a register that the table does not have.
-/
def encodeOperands (key : BuildKey) : Instr → Option Bytes
  | .loadConst dst k | .mulConst dst k => do return [← key.regPerm[dst.toNat]?, k]
  | .loadInput dst slot => do return [← key.regPerm[dst.toNat]?, slot]
  | .xor dst src | .add dst src | .sub dst src | .mul dst src | .and dst src | .or dst src => do
    return [← key.regPerm[dst.toNat]?, ← key.regPerm[src.toNat]?]
  | .xorShr dst shift | .rotl dst shift | .shl dst shift | .shr dst shift | .rotr dst shift => do
    return [← key.regPerm[dst.toNat]?, shift]
  | .jmpIfEnd target | .jmp target => some (u16Be target)
  | .loadByte dst | .ret dst => do return [← key.regPerm[dst.toNat]?]

def encodeInstr (key : BuildKey) (instr : Instr) : Option Bytes := do
  let opcode ← key.opcodePerm[instr.tag.toNat]?
  let operands ← encodeOperands key instr
  return [opcode] ++ operands

def encodeInstrs (key : BuildKey) : List Instr → Option Bytes
  | [] => some []
  | instr :: instrs => do
    let first ← encodeInstr key instr
    let rest ← encodeInstrs key instrs
    return first ++ rest

def encodeConsts (consts : List UInt64) : Bytes := consts.flatMap u64Be

def encode (program : Program) (key : BuildKey) : Option Bytes := do
  let code ← encodeInstrs key program.instrs
  let raw := magic ++ ([version] ++ ([UInt8.ofNat program.consts.length] ++
    (encodeConsts program.consts ++ (u16Be (UInt16.ofNat program.instrs.length) ++ code))))
  return applyKeystream key.streamKey (raw ++ u64Be (fnv1a64 raw))

/-! ## Decoding -/

inductive DecodeError where
  | tooShort
  | badMagic
  | badVersion
  | badOpcode
  | badRegister
  | badConstIndex
  | badJumpTarget
  | badChecksum
deriving Repr, DecidableEq

abbrev Decoder (α : Type) := Reader DecodeError α

def decodeReg (key : BuildKey) : Decoder UInt8 := do
  let wire ← Reader.u8 .tooShort
  match key.regInv[wire.toNat]? with
  | none => throw .badRegister
  | some r => return r

/-! The operand shapes of `decode_instr`. -/

def decodeRegConst (key : BuildKey) (nConsts : Nat) (mk : UInt8 → UInt8 → Instr) :
    Decoder Instr := do
  let dst ← decodeReg key
  let k ← Reader.u8 .tooShort
  Reader.require (k.toNat < nConsts) .badConstIndex
  return mk dst k

def decodeRegReg (key : BuildKey) (mk : UInt8 → UInt8 → Instr) : Decoder Instr := do
  let dst ← decodeReg key
  let src ← decodeReg key
  return mk dst src

def decodeRegByte (key : BuildKey) (mk : UInt8 → UInt8 → Instr) : Decoder Instr := do
  let dst ← decodeReg key
  let b ← Reader.u8 .tooShort
  return mk dst b

def decodeTarget (nInstrs : Nat) (mk : UInt16 → Instr) : Decoder Instr := do
  let target ← Reader.u16 .tooShort
  Reader.require (target.toNat < nInstrs) .badJumpTarget
  return mk target

def decodeOneReg (key : BuildKey) (mk : UInt8 → Instr) : Decoder Instr := do
  let r ← decodeReg key
  return mk r

def decodeInstr (tag : UInt8) (key : BuildKey) (nConsts nInstrs : Nat) : Decoder Instr :=
  match tag.toNat with
  | 0 => decodeRegConst key nConsts .loadConst
  | 1 => decodeRegReg key .xor
  | 2 => decodeRegReg key .add
  | 3 => decodeRegConst key nConsts .mulConst
  | 4 => decodeRegByte key .xorShr
  | 5 => decodeRegByte key .rotl
  | 6 => decodeTarget nInstrs .jmpIfEnd
  | 7 => decodeOneReg key .loadByte
  | 8 => decodeTarget nInstrs .jmp
  | 9 => decodeOneReg key .ret
  | 10 => decodeRegReg key .sub
  | 11 => decodeRegReg key .mul
  | 12 => decodeRegReg key .and
  | 13 => decodeRegReg key .or
  | 14 => decodeRegByte key .shl
  | 15 => decodeRegByte key .shr
  | 16 => decodeRegByte key .rotr
  | 17 => decodeRegByte key .loadInput
  | _ => throw .badOpcode

def decodeNext (key : BuildKey) (nConsts nInstrs : Nat) : Decoder Instr := do
  let wire ← Reader.u8 .tooShort
  match key.opcodeInv[wire.toNat]? with
  | none => throw .badOpcode
  | some tag => decodeInstr tag key nConsts nInstrs

def decodeBody (key : BuildKey) : Decoder Program := do
  let m ← Reader.take .tooShort 4
  Reader.require (m = magic) .badMagic
  let v ← Reader.u8 .tooShort
  Reader.require (v = version) .badVersion
  let nConsts ← Reader.u8 .tooShort
  let consts ← Reader.many (Reader.u64 .tooShort) nConsts.toNat
  let nInstrs ← Reader.u16 .tooShort
  let instrs ← Reader.many (decodeNext key nConsts.toNat nInstrs.toNat) nInstrs.toNat
  return { instrs := instrs, consts := consts }

def decode (bytes : Bytes) (key : BuildKey) : Except DecodeError Program :=
  let raw := applyKeystream key.streamKey bytes
  if raw.length < 8 then .error .tooShort
  else
    let split := raw.length - 8
    if fnv1a64 (raw.take split) ≠ UInt64.ofNat (ofBe (raw.drop split)) then .error .badChecksum
    else Prod.fst <$> decodeBody key (raw.take split)

def encodeWithSeed (sha256 : Bytes → Block32) (program : Program) (seed : BuildSeed) :
    Option Bytes :=
  encode program (BuildKey.derive sha256 seed)

def decodeWithSeed (sha256 : Bytes → Block32) (bytes : Bytes) (seed : BuildSeed) :
    Except DecodeError Program :=
  decode bytes (BuildKey.derive sha256 seed)

end Kseal.Vm
