import Kseal.Infra.Bytes

/-!
# The virtual instruction set (`vmspike/isa.rs`)

Sixteen 64-bit registers, a read-only byte cursor, a bank of input words and a constant pool. `here`
of the `Builder` narrows the number of instructions to `u16`; the pool is capped at 255 entries.
-/

namespace Kseal.Vm

open Infra List

def numRegs : Nat := 16

def numOps : Nat := 18

def regDomain : UInt8 := 1

inductive Instr where
  | loadConst (dst k : UInt8)
  | xor (dst src : UInt8)
  | add (dst src : UInt8)
  | mulConst (dst k : UInt8)
  | xorShr (dst shift : UInt8)
  | rotl (dst shift : UInt8)
  | jmpIfEnd (target : UInt16)
  | loadByte (dst : UInt8)
  | jmp (target : UInt16)
  | ret (src : UInt8)
  | sub (dst src : UInt8)
  | mul (dst src : UInt8)
  | and (dst src : UInt8)
  | or (dst src : UInt8)
  | shl (dst shift : UInt8)
  | shr (dst shift : UInt8)
  | rotr (dst shift : UInt8)
  | loadInput (dst slot : UInt8)
deriving Repr, DecidableEq

def Instr.tag : Instr → UInt8
  | .loadConst .. => 0
  | .xor .. => 1
  | .add .. => 2
  | .mulConst .. => 3
  | .xorShr .. => 4
  | .rotl .. => 5
  | .jmpIfEnd .. => 6
  | .loadByte .. => 7
  | .jmp .. => 8
  | .ret .. => 9
  | .sub .. => 10
  | .mul .. => 11
  | .and .. => 12
  | .or .. => 13
  | .shl .. => 14
  | .shr .. => 15
  | .rotr .. => 16
  | .loadInput .. => 17

theorem Instr.tag_lt (i : Instr) : i.tag.toNat < numOps := by
  cases i <;> simp [Instr.tag, numOps]

structure Program where
  instrs : List Instr
  consts : List UInt64
deriving Repr, DecidableEq

structure SourceSite where
  function : String
  step : String
  sourceLine : UInt32
deriving Repr, DecidableEq

structure LoweredProgram where
  program : Program
  retrace : List (UInt32 × SourceSite)
deriving Repr, DecidableEq

/-! ## Builder -/

structure Builder where
  instrs : List Instr
  consts : List UInt64
  retrace : List (UInt32 × SourceSite)
  function : String
deriving Repr, DecidableEq

namespace Builder

def new (function : String) (consts : List UInt64) : Builder :=
  { instrs := [], consts := consts, retrace := [], function := function }

def here (b : Builder) : UInt16 := UInt16.ofNat b.instrs.length

/--
Interns `c` and returns its index, or nothing if a new constant would be the 256th.

A constant that is already in the pool is found again, also when the pool is full.
-/
def internConstChecked (b : Builder) (c : UInt64) : Option (UInt8 × Builder) :=
  match b.consts.findIdx? (· == c) with
  | some i => some (UInt8.ofNat i, b)
  | none =>
    if b.consts.length ≥ 255 then none
    else some (UInt8.ofNat b.consts.length, { b with consts := b.consts ++ [c] })

def emit (b : Builder) (instr : Instr) (step : String) (sourceLine : UInt32) :
    UInt16 × Builder :=
  (b.here, { b with
    instrs := b.instrs ++ [instr]
    retrace := b.retrace ++
      [(b.here.toUInt32, { function := b.function, step := step, sourceLine := sourceLine })] })

def finish (b : Builder) : LoweredProgram :=
  { program := { instrs := b.instrs, consts := b.consts }, retrace := b.retrace }

@[simp] theorem emit_instrs (b : Builder) (i : Instr) (s : String) (l : UInt32) :
    (b.emit i s l).2.instrs = b.instrs ++ [i] := rfl

@[simp] theorem emit_consts (b : Builder) (i : Instr) (s : String) (l : UInt32) :
    (b.emit i s l).2.consts = b.consts := rfl

/--
**What interning does.** The pool only grows at its end, the index found holds `c`, and
the pool keeps within 255 entries; no instruction is emitted.
-/
theorem internConstChecked_spec {b b' : Builder} {c : UInt64} {k : UInt8}
    (hb : b.consts.length ≤ 255) (h : b.internConstChecked c = some (k, b')) :
    b'.instrs = b.instrs ∧ (∃ extra, b'.consts = b.consts ++ extra) ∧
      b'.consts[k.toNat]? = some c ∧ b'.consts.length ≤ 255 := by
  unfold internConstChecked at h
  split at h
  · next i hi =>
    simp only [Option.some.injEq, Prod.mk.injEq] at h
    obtain ⟨hk, rfl⟩ := h
    obtain ⟨hlt, hc, -⟩ := findIdx?_eq_some_iff_getElem.mp hi
    have hki : k.toNat = i := by rw [← hk, UInt8.toNat_ofNat', Nat.mod_eq_of_lt (by omega)]
    refine ⟨rfl, ⟨[], by simp⟩, ?_, hb⟩
    rw [hki, getElem?_eq_getElem hlt, beq_iff_eq.mp hc]
  · split at h
    · simp at h
    · next hlt =>
      simp only [Option.some.injEq, Prod.mk.injEq] at h
      obtain ⟨hk, rfl⟩ := h
      have hki : k.toNat = b.consts.length := by
        rw [← hk, UInt8.toNat_ofNat', Nat.mod_eq_of_lt (by omega)]
      refine ⟨rfl, ⟨[c], rfl⟩, ?_, ?_⟩
      · rw [hki]; simp
      · simp only [length_append, length_singleton]; omega

end Builder

end Kseal.Vm
