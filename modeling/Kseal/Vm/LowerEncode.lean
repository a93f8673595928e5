import Kseal.Vm.EncodeRoundtrip
import Kseal.Vm.LowerCorrect

/-!
# Compiled programs in the bytecode format

`lower` never looks at the number of instructions, which `encode` narrows to `u16`, so a program
survives exactly when its expression has at most 65534 nodes (`lower_survives_iff`).
-/

namespace Kseal.Vm

open Infra

variable {e a c : Expr}

/-! ## The operands the generator emits -/

variable {i : Instr} {n : Nat}

theorem Instr.WellFormed.mono {n' m : Nat} (hn : n ≤ n') (h : i.WellFormed n m) :
    i.WellFormed n' m := by
  cases i with
  | loadConst dst k | mulConst dst k => exact ⟨h.1, Nat.lt_of_lt_of_le h.2 hn⟩
  | _ => exact h

def Builder.InRange (b : Builder) : Prop :=
  ∀ i ∈ b.instrs, ∀ nInstrs, i.WellFormed b.consts.length nInstrs

theorem Builder.InRange.emit {b : Builder} {s : String} {l : UInt32} (hb : b.InRange)
    (hi : ∀ nInstrs, i.WellFormed b.consts.length nInstrs) :
    (b.emit i s l).2.InRange := by
  intro j hj
  rw [Builder.emit_instrs, List.mem_append, List.mem_singleton] at hj
  rcases hj with hj | rfl
  · exact hb j hj
  · exact hi

variable {dst : UInt8}

theorem wellFormed_unaryInstr (e : Expr) (hd : dst.toNat < 16) (n m : Nat) :
    (unaryInstr e dst).WellFormed n m := by
  cases e <;> exact hd

theorem wellFormed_binaryInstr (e : Expr) {src : UInt8} (hd : dst.toNat < 16) (hs : src.toNat < 16)
    (n m : Nat) : (binaryInstr e dst src).WellFormed n m := by
  cases e <;> first | exact ⟨hd, hs⟩ | exact hd

/-- **`gen` keeps every operand in range**, if the registers from `dst` up are enough. -/
theorem gen_inRange {b' : Builder} {id id' : UInt32} (h : Generates b e dst id b' id')
    (hpool : b.consts.length ≤ 255) (hneed : dst.toNat + registerNeed e ≤ 16) (hb : b.InRange) :
    b'.InRange := by
  induction h with
  | @const b b₁ v k dst id hk =>
    obtain ⟨hx, hget⟩ := intern_extends hpool hk
    obtain ⟨hklt, -⟩ := List.getElem?_eq_some_iff.mp hget
    have hinstrs : b₁.instrs = b.instrs := (hx.instrs.eq_of_length hx.length.symm).symm
    have hb₁ : b₁.InRange := by
      intro i hi n
      rw [hinstrs] at hi
      exact (hb i hi n).mono hx.consts.length_le
    simp only [registerNeed] at hneed
    exact hb₁.emit fun n => ⟨show dst.toNat < 16 by omega, hklt⟩
  | @input b slot dst id =>
    simp only [registerNeed] at hneed
    exact hb.emit fun n => show dst.toNat < 16 by omega
  | @unary b b₁ e a dst id id₁ hu _ ih =>
    rw [registerNeed_unary hu] at hneed
    have hpos := registerNeed_pos a
    exact (ih hpool hneed hb).emit fun n => wellFormed_unaryInstr e (by omega) _ n
  | @binary b b₁ b₂ e x y dst id id₁ id₂ hops h₁ _ ihx ihy =>
    have hneeds := hops.need_eq
    have hpos := registerNeed_pos y
    have hdst : (dst + 1).toNat = dst.toNat + 1 := toNat_reg_succ (by omega)
    have hb₁ := ihx hpool (by omega) hb
    have hb₂ := ihy (gen_extends h₁ hpool).pool (by omega) hb₁
    exact hb₂.emit fun n => wellFormed_binaryInstr e (by omega) (by omega) _ n

variable {function : String} {numInputs : UInt8} {lp : LoweredProgram}

theorem lower_instrs_wellFormed (h : lower function numInputs e = .ok lp) :
    lp.program.consts.length ≤ 255 ∧
      ∀ i ∈ lp.program.instrs, ∀ nInstrs, i.WellFormed lp.program.consts.length nInstrs := by
  obtain ⟨hneed, -, b, id, hg, rfl⟩ := lower_ok h
  have hnew : (Builder.new function []).InRange := fun i hi => by simp [Builder.new] at hi
  have hb := gen_inRange hg (Nat.zero_le _) (by simpa using hneed) hnew
  refine ⟨(gen_extends hg (Nat.zero_le _)).pool, ?_⟩
  exact Builder.InRange.emit (s := "ir:return") (l := id) hb
    fun n => show (0 : UInt8).toNat < 16 by decide

theorem decode_lowered (sha256 : Bytes → Block32) (seed : BuildSeed)
    (h : lower function numInputs e = .ok lp) (hsize : e.size ≤ 65534) :
    ∃ b, encodeWithSeed sha256 lp.program seed = some b ∧
      decodeWithSeed sha256 b seed = .ok lp.program := by
  have hlen := lower_length h
  obtain ⟨hpool, hinstrs⟩ := lower_instrs_wellFormed h
  exact decode_encode _ ⟨fun i hi => hinstrs i hi _, hpool, by omega⟩

/--
**Which compiled programs survive the per-build encoding**: those of expressions with at most
65534 nodes, one instruction being the final return.
-/
theorem lower_survives_iff (sha256 : Bytes → Block32) (seed : BuildSeed) {function : String}
    {numInputs : UInt8} {lp : LoweredProgram} (h : lower function numInputs e = .ok lp) :
    (∃ b, encodeWithSeed sha256 lp.program seed = some b ∧
      decodeWithSeed sha256 b seed = .ok lp.program) ↔ e.size ≤ 65534 := by
  have hlen := lower_length h
  constructor
  · rintro ⟨b, -, hb⟩
    have := (wellFormed_of_decode hb).instrs_le
    omega
  · exact decode_lowered sha256 seed h

theorem lower_survives_iff_sample :
    ∃ lp, lower "sample" 2 sampleExpr = .ok lp ∧
      ∃ b, encodeWithSeed (fun _ => zeroBlock) lp.program ⟨zeroBlock⟩ = some b ∧
        decodeWithSeed (fun _ => zeroBlock) b ⟨zeroBlock⟩ = .ok lp.program :=
  ⟨_, rfl, (@lower_survives_iff sampleExpr (fun _ => zeroBlock) ⟨zeroBlock⟩ "sample" 2 _ rfl).mpr
    (by decide)⟩

/-! ## A compiled program that does not survive -/

def fullTree : Nat → Expr
  | 0 => .input 0
  | n + 1 => .add (fullTree n) (fullTree n)

theorem size_fullTree (n : Nat) : (fullTree n).size + 1 = 2 ^ (n + 1) := by
  induction n with
  | zero => rfl
  | succ n ih => rw [fullTree, Expr.size]; omega

theorem registerNeed_fullTree (n : Nat) : registerNeed (fullTree n) = n + 1 := by
  induction n with
  | zero => rfl
  | succ n ih => simp [fullTree, registerNeed, ih]

theorem maxInputSlot_fullTree (n : Nat) : maxInputSlot (fullTree n) = some 0 := by
  induction n with
  | zero => rfl
  | succ n ih => rw [fullTree, maxInputSlot, ih]; rfl

theorem gen_fullTree (n : Nat) (b : Builder) (dst : UInt8) (id : UInt32) :
    ∃ r, gen b (fullTree n) dst id = .ok r ∧ r.2.1.consts = b.consts := by
  induction n generalizing b dst id with
  | zero => exact ⟨_, rfl, rfl⟩
  | succ n ih =>
    obtain ⟨r, hr, hc⟩ := ih b dst (id + 1)
    obtain ⟨r', hr', hc'⟩ := ih r.2.1 (dst + 1) r.2.2
    have hops : Operands (fullTree (n + 1)) (fullTree n) (fullTree n) := ⟨_, _, rfl, by simp⟩
    rw [hops.gen_eq]
    simp only [hr, hr', ok_bind]
    exact ⟨_, rfl, by rw [Builder.emit_consts, hc', hc]⟩

theorem lower_fullTree (hn : n < 16) :
    ∃ lp, lower "full" 1 (fullTree n) = .ok lp ∧ lp.program.consts = [] := by
  obtain ⟨r, hr, hc⟩ := gen_fullTree n (Builder.new "full" []) 0 0
  rw [lower, registerNeed_fullTree, maxInputSlot_fullTree]
  simp only [numRegs, show ¬16 < n + 1 by omega, lower.emitAll, hr]
  exact ⟨_, rfl, hc⟩

/--
The tree of depth 15 is accepted by the compiler; it has 65536 instructions, a count that is
written as zero, and what is read back is the empty program.
-/
theorem lower_fullTree_lost :
    ∃ lp b, lower "full" 1 (fullTree 15) = .ok lp ∧ lp.program.instrs.length = 65536 ∧
      encodeWithSeed (fun _ => zeroBlock) lp.program ⟨zeroBlock⟩ = some b ∧
      decodeWithSeed (fun _ => zeroBlock) b ⟨zeroBlock⟩ = .ok { instrs := [], consts := [] } := by
  obtain ⟨lp, hlp, hconsts⟩ := lower_fullTree (n := 15) (by decide)
  have hlen : lp.program.instrs.length = 65536 := by
    have hpow : 2 ^ (15 + 1) = 65536 := by decide
    rw [lower_length hlp, size_fullTree, hpow]
  obtain ⟨hpool, hinstrs⟩ := lower_instrs_wellFormed hlp
  obtain ⟨b, hb, hd⟩ := decode_encode_take (BuildKey.derive (fun _ => zeroBlock) ⟨zeroBlock⟩)
    hpool fun i hi => hinstrs i hi _
  refine ⟨lp, b, hlp, hlen, hb, ?_⟩
  rw [decodeWithSeed, hd, hlen, hconsts]
  rfl

end Kseal.Vm
