import Kseal.Vm.Interp

/-!
# The expression compiler (`vmspike/ir.rs`)

`eval` is the meaning of an `Expr` and `lower` the code generator. `registerNeed` is a Sethi–Ullman
labelling. `Expr.shapeInduction` is induction over leaves, unary and binary nodes, so a proof about
the twelve constructors has four cases.
-/

namespace Kseal.Vm

open Infra

inductive Expr where
  | const (c : UInt64)
  | input (slot : UInt8)
  | add (a b : Expr)
  | sub (a b : Expr)
  | mul (a b : Expr)
  | xor (a b : Expr)
  | and (a b : Expr)
  | or (a b : Expr)
  | shl (a : Expr) (n : UInt8)
  | shr (a : Expr) (n : UInt8)
  | rotl (a : Expr) (n : UInt8)
  | rotr (a : Expr) (n : UInt8)
deriving Repr, DecidableEq

inductive LowerError where
  | tooManyRegisters (need have_ : Nat)
  | inputSlotOutOfRange (slot numInputs : UInt8)
  | constPoolOverflow
deriving Repr, DecidableEq

def eval (words : List UInt64) : Expr → UInt64
  | .const c => c
  | .input slot => words[slot.toNat]?.getD 0
  | .add a b => eval words a + eval words b
  | .sub a b => eval words a - eval words b
  | .mul a b => eval words a * eval words b
  | .xor a b => eval words a ^^^ eval words b
  | .and a b => eval words a &&& eval words b
  | .or a b => eval words a ||| eval words b
  | .shl a n => eval words a <<< UInt64.ofNat (shiftAmount n)
  | .shr a n => eval words a >>> UInt64.ofNat (shiftAmount n)
  | .rotl a n => rotateLeft (eval words a) (shiftAmount n)
  | .rotr a n => rotateRight (eval words a) (shiftAmount n)

def isCommutative : Expr → Bool
  | .add .. | .mul .. | .xor .. | .and .. | .or .. => true
  | _ => false

def binaryChildren : Expr → Option (Expr × Expr)
  | .add a b | .sub a b | .mul a b | .xor a b | .and a b | .or a b => some (a, b)
  | _ => none

def unaryChild : Expr → Option Expr
  | .shl a _ | .shr a _ | .rotl a _ | .rotr a _ => some a
  | _ => none

def registerNeed : Expr → Nat
  | .shl a _ | .shr a _ | .rotl a _ | .rotr a _ => registerNeed a
  | .add a b | .mul a b | .xor a b | .and a b | .or a b =>
    let (hi, lo) := if registerNeed a ≥ registerNeed b then (registerNeed a, registerNeed b)
      else (registerNeed b, registerNeed a)
    max hi (lo + 1)
  | .sub a b => max (registerNeed a) (registerNeed b + 1)
  | .const _ | .input _ => 1

def largerSlot : Option UInt8 → Option UInt8 → Option UInt8
  | x, none => x
  | none, y => y
  | some x, some y => some (max x y)

def maxInputSlot : Expr → Option UInt8
  | .const _ => none
  | .input slot => some slot
  | .shl a _ | .shr a _ | .rotl a _ | .rotr a _ => maxInputSlot a
  | .add a b | .sub a b | .mul a b | .xor a b | .and a b | .or a b =>
    largerSlot (maxInputSlot a) (maxInputSlot b)

def stepLabel : Expr → String
  | .const _ => "ir:const"
  | .input _ => "ir:input"
  | .add .. => "ir:add"
  | .sub .. => "ir:sub"
  | .mul .. => "ir:mul"
  | .xor .. => "ir:xor"
  | .and .. => "ir:and"
  | .or .. => "ir:or"
  | .shl .. => "ir:shl"
  | .shr .. => "ir:shr"
  | .rotl .. => "ir:rotl"
  | .rotr .. => "ir:rotr"

def binaryInstr (expr : Expr) (dst src : UInt8) : Instr :=
  match expr with
  | .add .. => .add dst src
  | .sub .. => .sub dst src
  | .mul .. => .mul dst src
  | .xor .. => .xor dst src
  | .and .. => .and dst src
  | .or .. => .or dst src
  | _ => .ret dst

def intern (b : Builder) (c : UInt64) : Except LowerError (UInt8 × Builder) :=
  match b.internConstChecked c with
  | some r => .ok r
  | none => .error .constPoolOverflow

/--
Emits code that leaves the value of `expr` in register `dst`, and returns that register,
the builder and the next node id.

The heavier operand of a commutative node is evaluated first, into `dst`; the other one
goes into `dst + 1`. `Sub` never swaps.
-/
def gen (b : Builder) (expr : Expr) (dst : UInt8) (nextId : UInt32) :
    Except LowerError (UInt8 × Builder × UInt32) :=
  match expr with
  | .const c => do
    let (k, b) ← intern b c
    return (dst, (b.emit (.loadConst dst k) (stepLabel expr) nextId).2, nextId + 1)
  | .input slot =>
    return (dst, (b.emit (.loadInput dst slot) (stepLabel expr) nextId).2, nextId + 1)
  | .shl a n => do
    let (_, b, id) ← gen b a dst (nextId + 1)
    return (dst, (b.emit (.shl dst n) (stepLabel expr) nextId).2, id)
  | .shr a n => do
    let (_, b, id) ← gen b a dst (nextId + 1)
    return (dst, (b.emit (.shr dst n) (stepLabel expr) nextId).2, id)
  | .rotl a n => do
    let (_, b, id) ← gen b a dst (nextId + 1)
    return (dst, (b.emit (.rotl dst n) (stepLabel expr) nextId).2, id)
  | .rotr a n => do
    let (_, b, id) ← gen b a dst (nextId + 1)
    return (dst, (b.emit (.rotr dst n) (stepLabel expr) nextId).2, id)
  | .add a c | .sub a c | .mul a c | .xor a c | .and a c | .or a c => do
    let swap := isCommutative expr && decide (registerNeed c > registerNeed a)
    if swap then
      let (_, b, id) ← gen b c dst (nextId + 1)
      let (_, b, id) ← gen b a (dst + 1) id
      return (dst, (b.emit (binaryInstr expr dst (dst + 1)) (stepLabel expr) nextId).2, id)
    else
      let (_, b, id) ← gen b a dst (nextId + 1)
      let (_, b, id) ← gen b c (dst + 1) id
      return (dst, (b.emit (binaryInstr expr dst (dst + 1)) (stepLabel expr) nextId).2, id)

def lower (function : String) (numInputs : UInt8) (expr : Expr) :
    Except LowerError LoweredProgram :=
  let need := registerNeed expr
  if need > numRegs then .error (.tooManyRegisters need numRegs)
  else
    match maxInputSlot expr with
    | some slot =>
      if slot ≥ numInputs then .error (.inputSlotOutOfRange slot numInputs) else emitAll
    | none => emitAll
where
  /-- The part of `lower` after its checks. -/
  emitAll : Except LowerError LoweredProgram := do
    let (resultReg, b, nextId) ← gen (Builder.new function []) expr 0 0
    return (b.emit (.ret resultReg) "ir:return" nextId).2.finish

/-! ## Leaves, unary and binary nodes -/

def Expr.size : Expr → Nat
  | .const _ | .input _ => 1
  | .shl a _ | .shr a _ | .rotl a _ | .rotr a _ => a.size + 1
  | .add a b | .sub a b | .mul a b | .xor a b | .and a b | .or a b => a.size + b.size + 1

/-- The operands of a binary node, in the order in which `gen` takes them. -/
def Operands (e first second : Expr) : Prop :=
  ∃ a c, binaryChildren e = some (a, c) ∧ (first, second) =
    if isCommutative e && decide (registerNeed c > registerNeed a) then (c, a) else (a, c)

theorem Expr.shapeInduction {P : Expr → Prop} (hconst : ∀ c, P (.const c))
    (hinput : ∀ slot, P (.input slot))
    (hunary : ∀ e a, unaryChild e = some a → P a → P e)
    (hbinary : ∀ e x y, Operands e x y → P x → P y → P e) (e : Expr) : P e := by
  have hchildren : ∀ e a c, binaryChildren e = some (a, c) → P a → P c → P e := by
    intro e a c hbin ha hc
    cases hswap : isCommutative e && decide (registerNeed c > registerNeed a)
    · exact hbinary e a c ⟨a, c, hbin, by simp [hswap]⟩ ha hc
    · exact hbinary e c a ⟨a, c, hbin, by simp [hswap]⟩ hc ha
  induction e with
  | const c => exact hconst c
  | input slot => exact hinput slot
  | shl a n ih | shr a n ih | rotl a n ih | rotr a n ih => exact hunary _ a rfl ih
  | add a b iha ihb | sub a b iha ihb | mul a b iha ihb | xor a b iha ihb | and a b iha ihb
  | or a b iha ihb => exact hchildren _ a b rfl iha ihb

def unaryInstr (expr : Expr) (dst : UInt8) : Instr :=
  match expr with
  | .shl _ n => .shl dst n
  | .shr _ n => .shr dst n
  | .rotl _ n => .rotl dst n
  | .rotr _ n => .rotr dst n
  | _ => .ret dst

def unaryOp : Expr → UInt64 → UInt64
  | .shl _ n, x => x <<< UInt64.ofNat (shiftAmount n)
  | .shr _ n, x => x >>> UInt64.ofNat (shiftAmount n)
  | .rotl _ n, x => rotateLeft x (shiftAmount n)
  | .rotr _ n, x => rotateRight x (shiftAmount n)
  | _, x => x

def binaryOp : Expr → UInt64 → UInt64 → UInt64
  | .add .., x, y => x + y
  | .sub .., x, y => x - y
  | .mul .., x, y => x * y
  | .xor .., x, y => x ^^^ y
  | .and .., x, y => x &&& y
  | .or .., x, y => x ||| y
  | _, x, _ => x

variable {e a x y : Expr} {words : List UInt64}

theorem eval_unary (h : unaryChild e = some a) :
    eval words e = unaryOp e (eval words a) := by
  cases e <;> simp_all [unaryChild, unaryOp, eval]

theorem size_unary (h : unaryChild e = some a) : e.size = a.size + 1 := by
  cases e <;> simp_all [unaryChild, Expr.size]

theorem registerNeed_unary (h : unaryChild e = some a) : registerNeed e = registerNeed a := by
  cases e <;> simp_all [unaryChild, registerNeed]

theorem gen_unary (h : unaryChild e = some a) (b : Builder) (dst : UInt8) (id : UInt32) :
    gen b e dst id = (do
      let r ← gen b a dst (id + 1)
      return (dst, (r.2.1.emit (unaryInstr e dst) (stepLabel e) id).2, r.2.2)) := by
  cases e <;> simp only [unaryChild, Option.some.injEq, reduceCtorEq] at h <;> subst h <;> rfl

namespace Operands

theorem isSome (h : Operands e x y) : (binaryChildren e).isSome := by
  obtain ⟨a, c, hbin, -⟩ := h
  rw [hbin]
  rfl

theorem eval_eq (h : Operands e x y) : eval words e = binaryOp e (eval words x) (eval words y) := by
  obtain ⟨a, c, hbin, horder⟩ := h
  have heval : eval words e = binaryOp e (eval words a) (eval words c) := by
    cases e <;> simp_all [binaryChildren, binaryOp, eval]
  split at horder <;> cases horder
  · next hswap =>
    rw [heval]
    cases e <;> simp_all [isCommutative, binaryOp, UInt64.add_comm, UInt64.mul_comm,
      UInt64.xor_comm, UInt64.and_comm, UInt64.or_comm]
  · exact heval

theorem size_eq (h : Operands e x y) : e.size = x.size + y.size + 1 := by
  obtain ⟨a, c, hbin, horder⟩ := h
  have hsize : e.size = a.size + c.size + 1 := by
    cases e <;> simp_all [binaryChildren, Expr.size]
  split at horder <;> cases horder <;> omega

/-- The operand that goes first needs its own registers, the other one a register more. -/
theorem need_eq (h : Operands e x y) : registerNeed e = max (registerNeed x) (registerNeed y + 1) := by
  obtain ⟨a, c, hbin, horder⟩ := h
  cases e <;> cases hbin
  case sub =>
    cases horder
    rfl
  all_goals
    simp only [isCommutative, Bool.true_and, decide_eq_true_eq] at horder
    simp only [registerNeed]
    split at horder <;> cases horder <;> split <;> simp only [] <;> omega

theorem gen_eq (h : Operands e x y) (b : Builder) (dst : UInt8) (id : UInt32) :
    gen b e dst id = (do
      let r ← gen b x dst (id + 1)
      let r' ← gen r.2.1 y (dst + 1) r.2.2
      return (dst, (r'.2.1.emit (binaryInstr e dst (dst + 1)) (stepLabel e) id).2, r'.2.2)) := by
  obtain ⟨a, c, hbin, horder⟩ := h
  split at horder <;> cases horder
  · next hswap => cases e <;> cases hbin <;> rw [gen] <;> dsimp only <;> rw [if_pos hswap]
  · next hswap => cases e <;> cases hbin <;> rw [gen] <;> dsimp only <;> rw [if_neg hswap]

end Operands

theorem registerNeed_pos (e : Expr) : 1 ≤ registerNeed e := by
  induction e using Expr.shapeInduction with
  | hconst c => exact Nat.le_refl 1
  | hinput slot => exact Nat.le_refl 1
  | hunary e a h ih => rw [registerNeed_unary h]; exact ih
  | hbinary e x y h ihx ihy => rw [h.need_eq]; omega

theorem intern_same {b b' : Builder} {v : UInt64} {k : UInt8} (h : intern b v = .ok (k, b')) :
    b'.instrs = b.instrs ∧ b'.retrace = b.retrace ∧ b'.function = b.function := by
  unfold intern Builder.internConstChecked at h
  split at h
  · next r hr =>
    cases Except.ok.inj h
    split at hr
    · cases hr
      exact ⟨rfl, rfl, rfl⟩
    · split at hr <;> cases hr
      exact ⟨rfl, rfl, rfl⟩
  · cases h

end Kseal.Vm
