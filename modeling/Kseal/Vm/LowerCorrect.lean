import Kseal.Infra.Result
import Kseal.Vm.Ir

/-!
# The compiler is correct

The invariant is about one call of `gen` at register `dst` (`gen_correct`): its code leaves the
value in `dst` and every register below alone. A binary node keeps its first operand in `dst` while
the second one is computed at `dst + 1`.
-/

namespace Kseal.Vm

open Infra List

variable {p : Program} {input : Bytes} {words : List UInt64} {e a x y : Expr}

/-! ## What `gen` adds to the builder -/

structure Extends (b b' : Builder) (n : Nat) : Prop where
  instrs : b.instrs <+: b'.instrs
  length : b'.instrs.length = b.instrs.length + n
  consts : b.consts <+: b'.consts
  pool : b'.consts.length ≤ 255

variable {b : Builder} {n : Nat}

theorem Extends.trans {b' b'' : Builder} {m : Nat} (h : Extends b b' m) (h' : Extends b' b'' n) :
    Extends b b'' (m + n) where
  instrs := h.instrs.trans h'.instrs
  length := by rw [h'.length, h.length, Nat.add_assoc]
  consts := h.consts.trans h'.consts
  pool := h'.pool

theorem Extends.emit (h : b.consts.length ≤ 255) (i : Instr) (s : String) (l : UInt32) :
    Extends b (b.emit i s l).2 1 where
  instrs := by simp
  length := by simp
  consts := by simp
  pool := by simpa using h

theorem intern_extends {b' : Builder} {v : UInt64} {k : UInt8} (hb : b.consts.length ≤ 255)
    (h : intern b v = .ok (k, b')) : Extends b b' 0 ∧ b'.consts[k.toNat]? = some v := by
  unfold intern at h
  split at h
  · next r hr =>
    cases Except.ok.inj h
    obtain ⟨hi, ⟨extra, hc⟩, hk, hlen⟩ := Builder.internConstChecked_spec hb hr
    exact ⟨⟨hi ▸ prefix_refl _, by rw [hi]; rfl, ⟨extra, hc.symm⟩, hlen⟩, hk⟩
  · simp at h

/-- A call of `gen` that succeeds: the builder and the next id after it. -/
inductive Generates : Builder → Expr → UInt8 → UInt32 → Builder → UInt32 → Prop where
  | const {b b₁ : Builder} {v : UInt64} {k dst : UInt8} {id : UInt32}
      (hk : intern b v = .ok (k, b₁)) : Generates b (.const v) dst id
        (b₁.emit (.loadConst dst k) (stepLabel (.const v)) id).2 (id + 1)
  | input {b : Builder} {slot dst : UInt8} {id : UInt32} : Generates b (.input slot) dst id
      (b.emit (.loadInput dst slot) (stepLabel (.input slot)) id).2 (id + 1)
  | unary {b b₁ : Builder} {e a : Expr} {dst : UInt8} {id id₁ : UInt32}
      (hu : unaryChild e = some a) (h : Generates b a dst (id + 1) b₁ id₁) :
      Generates b e dst id (b₁.emit (unaryInstr e dst) (stepLabel e) id).2 id₁
  | binary {b b₁ b₂ : Builder} {e x y : Expr} {dst : UInt8} {id id₁ id₂ : UInt32}
      (hops : Operands e x y) (hx : Generates b x dst (id + 1) b₁ id₁)
      (hy : Generates b₁ y (dst + 1) id₁ b₂ id₂) :
      Generates b e dst id (b₂.emit (binaryInstr e dst (dst + 1)) (stepLabel e) id).2 id₂

variable {b' : Builder} {dst : UInt8} {id id' : UInt32}

theorem generates_of_gen (e : Expr) : ∀ {b b' : Builder} {dst r : UInt8} {id id' : UInt32},
    gen b e dst id = .ok (r, b', id') → r = dst ∧ Generates b e dst id b' id' := by
  induction e using Expr.shapeInduction with
  | hconst v =>
    intro b b' dst r id id' h
    obtain ⟨⟨k, b₁⟩, hk, h⟩ := bind_eq_ok h
    cases Except.ok.inj h
    exact ⟨rfl, .const hk⟩
  | hinput slot =>
    intro b b' dst r id id' h
    cases Except.ok.inj h
    exact ⟨rfl, .input⟩
  | hunary e a hu ih =>
    intro b b' dst r id id' h
    rw [gen_unary hu] at h
    obtain ⟨⟨r₁, b₁, id₁⟩, h₁, h⟩ := bind_eq_ok h
    cases Except.ok.inj h
    exact ⟨rfl, .unary hu (ih h₁).2⟩
  | hbinary e x y hops ihx ihy =>
    intro b b' dst r id id' h
    rw [hops.gen_eq] at h
    obtain ⟨⟨r₁, b₁, id₁⟩, h₁, h⟩ := bind_eq_ok h
    obtain ⟨⟨r₂, b₂, id₂⟩, h₂, h⟩ := bind_eq_ok h
    cases Except.ok.inj h
    exact ⟨rfl, .binary hops (ihx h₁).2 (ihy h₂).2⟩

/-- **`gen` emits one instruction for each node.** -/
theorem gen_extends (h : Generates b e dst id b' id') (hb : b.consts.length ≤ 255) :
    Extends b b' e.size := by
  induction h with
  | const hk =>
    have h₁ := (intern_extends hb hk).1
    exact h₁.trans (Extends.emit h₁.pool _ _ _)
  | input => exact Extends.emit hb _ _ _
  | unary hu _ ih =>
    rw [size_unary hu]
    exact (ih hb).trans (Extends.emit (ih hb).pool _ _ _)
  | binary hops _ _ ihx ihy =>
    have hx := ihx hb
    have hy := ihy hx.pool
    rw [hops.size_eq]
    exact (hx.trans hy).trans (Extends.emit hy.pool _ _ _)

/-! ## Input slots -/

def SlotsBelow (n : Nat) (e : Expr) : Prop := ∀ slot, maxInputSlot e = some slot → slot.toNat < n

theorem SlotsBelow.unary (hu : unaryChild e = some a) (h : SlotsBelow n e) :
    SlotsBelow n a := by
  have he : maxInputSlot e = maxInputSlot a := by
    cases e <;> simp_all [unaryChild, maxInputSlot]
  intro slot hs
  exact h slot (by rw [he]; exact hs)

theorem le_max_toNat (x y : UInt8) : x.toNat ≤ (max x y).toNat ∧ y.toNat ≤ (max x y).toNat := by
  by_cases h : x ≤ y
  · rw [show max x y = y from if_pos h]
    exact ⟨UInt8.le_iff_toNat_le.mp h, Nat.le_refl _⟩
  · rw [show max x y = x from if_neg h]
    rw [UInt8.le_iff_toNat_le] at h
    exact ⟨Nat.le_refl _, by omega⟩

theorem SlotsBelow.binary (hops : Operands e x y) (h : SlotsBelow n e) :
    SlotsBelow n x ∧ SlotsBelow n y := by
  obtain ⟨a, c, hbin, horder⟩ := hops
  have he : maxInputSlot e = largerSlot (maxInputSlot a) (maxInputSlot c) := by
    cases e <;> cases hbin <;> rfl
  have hboth : SlotsBelow n a ∧ SlotsBelow n c := by
    unfold SlotsBelow at h ⊢
    rw [he] at h
    cases ha : maxInputSlot a with
    | none =>
      cases hc : maxInputSlot c with
      | none => exact ⟨by simp, by simp⟩
      | some y => exact ⟨by simp, by simpa [ha, hc, largerSlot] using h⟩
    | some x =>
      cases hc : maxInputSlot c with
      | none => exact ⟨by simpa [ha, hc, largerSlot] using h, by simp⟩
      | some y =>
        have hm : (max x y).toNat < n := h _ (by simp [ha, hc, largerSlot])
        have := le_max_toNat x y
        exact ⟨by simp; omega, by simp; omega⟩
  split at horder <;> cases horder
  · exact hboth.symm
  · exact hboth

/-! ## Running the emitted code -/

theorem exec_unaryInstr (hu : unaryChild e = some a) (s : VmState) (dst : UInt8) :
    exec p input words s (unaryInstr e dst) = .next (s.write dst (unaryOp e (s.reg dst))) := by
  cases e <;> simp only [unaryChild, reduceCtorEq] at hu <;> rfl

theorem exec_binaryInstr (hb : (binaryChildren e).isSome) (s : VmState) (dst src : UInt8) :
    exec p input words s (binaryInstr e dst src)
      = .next (s.write dst (binaryOp e (s.reg dst) (s.reg src))) := by
  cases e <;> first | rfl | cases hb

theorem getElem?_of_emit {i : Instr} {s : String} {l : UInt32}
    (hp : (b.emit i s l).2.instrs <+: p.instrs) : p.instrs[b.instrs.length]? = some i := by
  obtain ⟨post, hpost⟩ := hp
  rw [← hpost]
  simp

theorem toNat_pc_succ {pc : UInt32} (h : pc.toNat + 1 < 2 ^ 32) :
    (pc + 1).toNat = pc.toNat + 1 := by
  exact Nat.mod_eq_of_lt h

theorem toNat_reg_succ (h : dst.toNat < 16) : (dst + 1).toNat = dst.toNat + 1 := by
  exact Nat.mod_eq_of_lt (by simp; omega)

/--
The result of running the code for an expression at register `dst`: its value is in `dst`,
the registers below `dst` are those of `s`, and the pc is at the end of the code.
-/
structure Computed (p : Program) (words : List UInt64) (s s' : VmState) (dst : UInt8)
    (v : UInt64) (n pc : Nat) : Prop where
  run : stepN p [] words n s = some s'
  pc : s'.pc.toNat = pc
  value : s'.reg dst = v
  frame : ∀ r : UInt8, r.toNat < dst.toNat → s'.reg r = s.reg r

theorem Computed.write {s s' : VmState} {i : Instr} {st : String} {l : UInt32} {v w : UInt64}
    (h : Computed p words s s' dst v n b.instrs.length) (hd : dst.toNat < 16)
    (hp : (b.emit i st l).2.instrs <+: p.instrs) (hlen : b.instrs.length + 1 < 2 ^ 32)
    (hi : exec p [] words s' i = .next (s'.write dst w)) :
    Computed p words s (s'.write dst w) dst w (n + 1) (b.instrs.length + 1) where
  run := by
    refine stepN_add h.run (stepN_one ?_)
    rw [step_of_getElem (by rw [h.pc]; exact getElem?_of_emit hp)]
    exact hi
  pc := by
    rw [VmState.write_pc, toNat_pc_succ (by rw [h.pc]; exact hlen), h.pc]
  value := VmState.reg_write_same _ _ _
  frame := by
    intro r hr
    have hne : r ≠ dst := by intro he; rw [he] at hr; omega
    rw [VmState.reg_write_ne hd (by omega) hne]
    exact h.frame r hr

theorem Computed.start {s : VmState} {k : Nat} (hpc : s.pc.toNat = k) :
    Computed p words s s dst (s.reg dst) 0 k :=
  ⟨rfl, hpc, rfl, fun _ _ => rfl⟩

/--
**The invariant of the code generator.**

The induction is over the expression. At a binary node the second operand runs with
`dst + 1` as its register, so `dst` counts among the registers it leaves alone.
-/
theorem gen_correct (h : Generates b e dst id b' id') {s : VmState} (hb : b.consts.length ≤ 255)
    (hreg : dst.toNat + registerNeed e ≤ 16) (hs : SlotsBelow words.length e)
    (hp : b'.instrs <+: p.instrs) (hc : b'.consts <+: p.consts) (hlen : b'.instrs.length < 2 ^ 32)
    (hpc : s.pc.toNat = b.instrs.length) :
    ∃ s', Computed p words s s' dst (eval words e) e.size b'.instrs.length := by
  induction h generalizing s with
  | @const b b₁ v k dst id hk =>
    obtain ⟨hx, hkv⟩ := intern_extends hb hk
    have hpool : p.consts[k.toNat]? = some v := by
      obtain ⟨post, hpost⟩ := hc
      rw [← hpost]
      obtain ⟨hklt, -⟩ := List.getElem?_eq_some_iff.mp hkv
      rw [Builder.emit_consts, getElem?_append_left hklt]
      exact hkv
    have hpc₁ : s.pc.toNat = b₁.instrs.length := by rw [hpc, hx.length, Nat.add_zero]
    simp only [Builder.emit_instrs, length_append] at hlen ⊢
    refine ⟨_, (Computed.start hpc₁).write ?_ hp hlen (by simp only [exec, hpool, eval])⟩
    simp only [registerNeed] at hreg; omega
  | @input b slot dst id =>
    have hlt : slot.toNat < words.length := hs slot rfl
    simp only [Builder.emit_instrs, length_append] at hlen ⊢
    refine ⟨_, (Computed.start hpc).write ?_ hp hlen ?_⟩
    · simp only [registerNeed] at hreg; omega
    · simp [exec, eval, getElem?_eq_getElem hlt]
  | @unary b b₁ e a dst id id₁ hu _ ih =>
    rw [registerNeed_unary hu] at hreg
    have hneed := registerNeed_pos a
    have hpre : b₁.instrs <+: p.instrs := (prefix_append _ _).trans hp
    simp only [Builder.emit_instrs, length_append] at hlen ⊢
    obtain ⟨s₁, hs₁⟩ := ih hb hreg (hs.unary hu) hpre hc (by omega) hpc
    rw [eval_unary hu, size_unary hu, ← hs₁.value]
    exact ⟨_, hs₁.write (by omega) hp hlen (exec_unaryInstr hu s₁ dst)⟩
  | @binary b b₁ b₂ e x y dst id id₁ id₂ hops h₁ h₂ ihx ihy =>
    obtain ⟨hsx, hsy⟩ := hs.binary hops
    have hneed := hops.need_eq
    have hd : dst.toNat < 16 := by have := registerNeed_pos e; omega
    have hd₁ : (dst + 1).toNat = dst.toNat + 1 := toNat_reg_succ hd
    have hpre₂ : b₂.instrs <+: p.instrs := (List.prefix_append _ _).trans hp
    simp only [Builder.emit_instrs, List.length_append] at hlen ⊢
    have hx₁ := gen_extends h₁ hb
    have hx₂ := gen_extends h₂ hx₁.pool
    obtain ⟨s₁, hs₁⟩ := ihx hb (by omega) hsx (hx₂.instrs.trans hpre₂)
      (hx₂.consts.trans hc) (by have := hx₂.length; omega) hpc
    obtain ⟨s₂, hs₂⟩ := ihy hx₁.pool (by omega) hsy hpre₂ hc (by omega) hs₁.pc
    have hdst : s₂.reg dst = eval words x := by rw [hs₂.frame dst (by omega), hs₁.value]
    have hboth : Computed p words s s₂ dst (eval words x) (x.size + y.size) b₂.instrs.length :=
      { run := stepN_add hs₁.run hs₂.run
        pc := hs₂.pc
        value := hdst
        frame := fun r hr => by rw [hs₂.frame r (by omega), hs₁.frame r hr] }
    have hval : eval words e = binaryOp e (s₂.reg dst) (s₂.reg (dst + 1)) := by
      rw [hops.eval_eq, hdst, hs₂.value]
    rw [hops.size_eq, hval]
    exact ⟨_, hboth.write hd hp hlen (exec_binaryInstr hops.isSome s₂ dst (dst + 1))⟩

/-! ## Whole programs -/

variable {function : String} {numInputs : UInt8} {lp : LoweredProgram}

theorem lower_ok (h : lower function numInputs e = .ok lp) :
    registerNeed e ≤ 16 ∧ SlotsBelow numInputs.toNat e ∧
      ∃ b id, Generates (Builder.new function []) e 0 0 b id ∧
        lp = (b.emit (.ret 0) "ir:return" id).2.finish := by
  unfold lower at h
  simp only [] at h
  have hgen : lower.emitAll function e = .ok lp →
      ∃ b id, Generates (Builder.new function []) e 0 0 b id ∧
        lp = (b.emit (.ret 0) "ir:return" id).2.finish := by
    intro hg
    obtain ⟨⟨r, b, id⟩, hr, hg⟩ := bind_eq_ok hg
    obtain ⟨rfl, hgen⟩ := generates_of_gen e hr
    exact ⟨b, id, hgen, (Except.ok.inj hg).symm⟩
  split at h
  · simp at h
  · next hneed =>
    refine ⟨Nat.le_of_not_lt hneed, ?_⟩
    split at h
    · next slot hslot =>
      split at h
      · simp at h
      · next hlt =>
        refine ⟨?_, hgen h⟩
        intro slot' hs'
        rw [hslot] at hs'
        cases hs'
        exact UInt8.lt_iff_toNat_lt.mp (UInt8.not_le.mp hlt)
    · next hslot => exact ⟨fun slot' hs' => by rw [hslot] at hs'; simp at hs', hgen h⟩

theorem lower_length (h : lower function numInputs e = .ok lp) :
    lp.program.instrs.length = e.size + 1 := by
  obtain ⟨-, -, b, id, hg, rfl⟩ := lower_ok h
  have hlen := (gen_extends hg (Nat.zero_le _)).length
  simp only [Builder.new] at hlen
  simp [Builder.finish, hlen]

theorem length_lt_fuel (h : n ≤ 2 ^ 32) :
    n < (fuelBase + saturatingMul (UInt64.ofNat n) fuelPerByte).toNat := by
  rw [toNat_defaultFuel (by omega)]
  omega

/-- A lowered program takes one step for each operation of its expression, and returns with the
next. -/
theorem lowered_steps (hsize : e.size < 2 ^ 32) (hwords : numInputs.toNat ≤ words.length)
    (h : lower function numInputs e = .ok lp) :
    ∃ s', stepN lp.program [] words e.size (initState 0) = some s' ∧
      step lp.program [] words s' = .ret (eval words e) := by
  obtain ⟨hneed, hslots, b, id, hg, rfl⟩ := lower_ok h
  have hx := gen_extends hg (Nat.zero_le _)
  have hblen : b.instrs.length = e.size := by simpa [Builder.new] using hx.length
  obtain ⟨s', hs'⟩ : ∃ s', Computed (b.emit (.ret 0) "ir:return" id).2.finish.program words
      (initState 0) s' 0 (eval words e) e.size b.instrs.length :=
    gen_correct hg (Nat.zero_le _) (by simpa using hneed)
      (fun slot hs => Nat.lt_of_lt_of_le (hslots slot hs) hwords)
      (prefix_append _ _) (prefix_refl _) (by omega) rfl
  have hat : (b.emit (.ret 0) "ir:return" id).2.finish.program.instrs[s'.pc.toNat]?
      = some (.ret 0) := by
    rw [hs'.pc]; simp [Builder.finish]
  refine ⟨s', hs'.run, ?_⟩
  rw [step_of_getElem hat]
  simp only [exec, hs'.value]

theorem runIrWithFuel_lowered (hsize : e.size < 2 ^ 32) (hwords : numInputs.toNat ≤ words.length)
    (h : lower function numInputs e = .ok lp) {fuel : UInt64} (hfuel : e.size < fuel.toNat) :
    runIrWithFuel lp.program words fuel = .ok (eval words e) := by
  obtain ⟨s', hrun, hret⟩ := lowered_steps hsize hwords h
  obtain ⟨k, hk⟩ := Nat.exists_eq_add_of_lt hfuel
  rw [runIrWithFuel, runCore, hk, Nat.add_assoc, runLoop_stepN _ hrun, runLoop, hret]

theorem run_lowered (hsize : e.size < 2 ^ 32) (hwords : numInputs.toNat ≤ words.length)
    (h : lower function numInputs e = .ok lp) :
    runIr lp.program words = .ok (eval words e) := by
  refine runIrWithFuel_lowered hsize hwords h ?_
  rw [lower_length h]
  exact Nat.lt_of_succ_lt (length_lt_fuel (by omega))

/--
**Compiler correctness.** The interpreter runs a lowered program to the value of its
expression: it neither faults nor runs out of its default fuel.
-/
theorem runIr_lower {function : String} {numInputs : UInt8} {lp : LoweredProgram}
    (hsize : e.size < 2 ^ 32) (hwords : numInputs.toNat ≤ words.length)
    (h : lower function numInputs e = .ok lp) :
    runIr lp.program words = .ok (eval words e) :=
  run_lowered hsize hwords h

def sampleExpr : Expr := .sub (.rotl (.mul (.const 3) (.input 0)) 5) (.input 1)

theorem runIr_lower_sample :
    ∃ lp, lower "sample" 2 sampleExpr = .ok lp ∧ runIr lp.program [2, 1] = .ok 191 :=
  ⟨_, rfl, @runIr_lower [2, 1] sampleExpr "sample" 2 _ (by decide) (by decide) rfl⟩

end Kseal.Vm
