import Kseal.Vm.LowerCorrect

/-!
# The registers that generated code names (`vmspike/ir.rs`)

`registerNeed` is exact: a call of `gen` at `dst` names the registers from `dst` on, as many as the
tree needs and no others (`gen_registers`).
-/

namespace Kseal.Vm

open Infra List

/-- The registers an instruction reads or writes. -/
def Instr.registers : Instr → List UInt8
  | .loadConst dst _ | .mulConst dst _ | .xorShr dst _ | .rotl dst _ | .loadByte dst | .ret dst
  | .shl dst _ | .shr dst _ | .rotr dst _ | .loadInput dst _ => [dst]
  | .xor dst src | .add dst src | .sub dst src | .mul dst src | .and dst src | .or dst src =>
    [dst, src]
  | .jmpIfEnd _ | .jmp _ => []

def Names (code : List Instr) (reg : UInt8) : Prop := ∃ i ∈ code, reg ∈ i.registers

variable {e : Expr} {code code' : List Instr} {reg dst : UInt8}

theorem names_append : Names (code ++ code') reg ↔ Names code reg ∨ Names code' reg := by
  simp only [Names, mem_append, or_and_right, exists_or]

theorem names_singleton {i : Instr} : Names [i] reg ↔ reg ∈ i.registers := by
  simp [Names]

theorem registers_unaryInstr (e : Expr) : (unaryInstr e dst).registers = [dst] := by
  cases e <;> rfl

theorem registers_binaryInstr (h : (binaryChildren e).isSome) (src : UInt8) :
    (binaryInstr e dst src).registers = [dst, src] := by
  cases e <;> first | rfl | cases h

/-- The registers from `dst` on, `need` of them; the next one after 255 is 0. -/
def FromOn (dst : UInt8) (need : Nat) (reg : UInt8) : Prop :=
  ∃ k < need, reg = dst + UInt8.ofNat k

theorem fromOn_one : FromOn dst 1 reg ↔ reg = dst := by
  simp [FromOn]

/-- The intervals of the two operands, and the two registers of the operator, make up one. -/
theorem fromOn_max {n m : Nat} (hn : 1 ≤ n) (hm : 1 ≤ m) :
    (FromOn dst n reg ∨ FromOn (dst + 1) m reg) ∨ reg ∈ [dst, dst + 1] ↔
      FromOn dst (max n (m + 1)) reg := by
  have hshift : ∀ k, dst + 1 + UInt8.ofNat k = dst + UInt8.ofNat (k + 1) := by
    intro k
    rw [UInt8.add_assoc, Nat.add_comm k, UInt8.ofNat_add]
    rfl
  constructor
  · rintro ((⟨k, hk, rfl⟩ | ⟨k, hk, rfl⟩) | hreg)
    · exact ⟨k, by omega, rfl⟩
    · exact ⟨k + 1, by omega, hshift k⟩
    · rcases mem_cons.mp hreg with rfl | hreg
      · exact ⟨0, by omega, by simp⟩
      · exact ⟨1, by omega, mem_singleton.mp hreg⟩
  · rintro ⟨k, hk, rfl⟩
    cases k with
    | zero => exact .inl (.inl ⟨0, hn, rfl⟩)
    | succ k =>
      by_cases hkm : k < m
      · exact .inl (.inr ⟨k, hkm, (hshift k).symm⟩)
      · exact .inl (.inl ⟨k + 1, by omega, rfl⟩)

theorem gen_names {e : Expr} {b b' : Builder} {dst : UInt8} {id id' : UInt32}
    (h : Generates b e dst id b' id') :
    ∃ code, b'.instrs = b.instrs ++ code ∧
      ∀ reg, Names code reg ↔ FromOn dst (registerNeed e) reg := by
  induction h with
  | @const b b₁ v k dst id hk =>
    refine ⟨[.loadConst dst k], by simp [(intern_same hk).1], fun reg => ?_⟩
    simp [names_singleton, Instr.registers, registerNeed, fromOn_one]
  | input =>
    exact ⟨_, rfl, fun reg => by simp [names_singleton, Instr.registers, registerNeed, fromOn_one]⟩
  | @unary b b₁ e a dst id id₁ hu _ ih =>
    obtain ⟨code, hcode, hnames⟩ := ih
    refine ⟨code ++ [unaryInstr e dst], by simp [hcode], fun reg => ?_⟩
    rw [names_append, names_singleton, registers_unaryInstr, hnames, registerNeed_unary hu,
      mem_singleton, ← fromOn_one]
    have hpos := registerNeed_pos a
    refine or_iff_left_of_imp ?_
    rintro ⟨k, hk, rfl⟩
    exact ⟨k, by omega, rfl⟩
  | @binary b b₁ b₂ e x y dst id id₁ id₂ hops _ _ ihx ihy =>
    obtain ⟨code, hcode, hnames⟩ := ihx
    obtain ⟨code', hcode', hnames'⟩ := ihy
    refine ⟨code ++ code' ++ [binaryInstr e dst (dst + 1)], by simp [hcode, hcode'], fun reg => ?_⟩
    rw [names_append, names_append, names_singleton, registers_binaryInstr hops.isSome, hnames,
      hnames', hops.need_eq, fromOn_max (registerNeed_pos x) (registerNeed_pos y)]

/-- Without a wrap the registers from `dst` on are an interval. -/
theorem fromOn_iff {need : Nat} (h : dst.toNat + need ≤ 256) :
    FromOn dst need reg ↔ dst.toNat ≤ reg.toNat ∧ reg.toNat < dst.toNat + need := by
  constructor
  · rintro ⟨k, hk, rfl⟩
    rw [UInt8.toNat_add, UInt8.toNat_ofNat']
    omega
  · rintro ⟨hle, hlt⟩
    refine ⟨reg.toNat - dst.toNat, by omega, UInt8.toNat_inj.mp ?_⟩
    rw [UInt8.toNat_add, UInt8.toNat_ofNat']
    omega

/--
**The register demand is exact.** The code that a call of `gen` emits names the registers
`dst .. dst + registerNeed e - 1` and no others; so the code generated at register 0 stays inside
the register bank if and only if the need is at most `numRegs`.
-/
theorem gen_registers (e : Expr) {b b' : Builder} {dst r : UInt8} {id id' : UInt32}
    (h : gen b e dst id = .ok (r, b', id')) :
    ∃ code, b'.instrs = b.instrs ++ code ∧
      (dst.toNat + registerNeed e ≤ 256 → ∀ reg, Names code reg ↔
        dst.toNat ≤ reg.toNat ∧ reg.toNat < dst.toNat + registerNeed e) ∧
      (dst = 0 → ((∀ reg, Names code reg → reg.toNat < numRegs) ↔ registerNeed e ≤ numRegs)) := by
  obtain ⟨code, hcode, hnames⟩ := gen_names (generates_of_gen e h).2
  refine ⟨code, hcode, fun hfit reg => (hnames reg).trans (fromOn_iff hfit), ?_⟩
  rintro rfl
  constructor
  · intro hbank
    by_contra hneed
    -- the first register outside of the bank is one of those named
    have hout := hbank (UInt8.ofNat numRegs) ((hnames _).mpr ⟨numRegs, by omega, by simp⟩)
    exact absurd hout (by decide)
  · intro hneed reg hreg
    have := ((fromOn_iff (by simp [numRegs] at hneed ⊢; omega)).mp ((hnames reg).mp hreg)).2
    simp at this
    omega

theorem gen_registers_input :
    ∃ b' code, gen (.new "f" []) (.input 3) 7 0 = .ok (7, b', 1) ∧ b'.instrs = code ∧
      ∀ reg, Names code reg ↔ 7 ≤ reg.toNat ∧ reg.toNat < 8 := by
  have h : gen (.new "f" []) (.input 3) 7 0 = .ok (7, _, 1) := rfl
  obtain ⟨code, hcode, hnames, -⟩ := gen_registers _ h
  exact ⟨_, code, h, hcode, hnames (by decide)⟩

end Kseal.Vm
