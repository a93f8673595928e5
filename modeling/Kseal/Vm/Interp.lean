import Mathlib.Logic.Function.Basic
import Kseal.Vm.Isa

/-!
# The dispatch loop (`vmspike/interp.rs`)

`step` is one turn of the loop in `run_core`, `runLoop` the loop itself with its step
budget. A fault carries the pc at which it happened.

* `exec_next_pc` — an instruction that goes on moves the pc by one or to its own target
-/

namespace Kseal.Vm

open Infra

structure VmFrame where
  pc : UInt32
deriving Repr, DecidableEq

inductive VmFault where
  | pcOutOfRange
  | badConstIndex
  | inputExhausted
  | badInputSlot
  | outOfFuel
deriving Repr, DecidableEq

structure VmError where
  frame : VmFrame
  fault : VmFault
deriving Repr, DecidableEq

abbrev Regs := Fin numRegs → UInt64

structure VmState where
  regs : Regs
  cursor : Nat
  pc : UInt32

def regIndex (r : UInt8) : Fin numRegs :=
  ⟨r.toNat &&& (numRegs - 1), Nat.lt_of_le_of_lt Nat.and_le_right (by decide)⟩

def rotateLeft (x : UInt64) (n : Nat) : UInt64 := ⟨x.toBitVec.rotateLeft n⟩
def rotateRight (x : UInt64) (n : Nat) : UInt64 := ⟨x.toBitVec.rotateRight n⟩

def shiftAmount (shift : UInt8) : Nat := shift.toNat &&& 63

def VmState.reg (s : VmState) (r : UInt8) : UInt64 := s.regs (regIndex r)

def VmState.write (s : VmState) (dst : UInt8) (v : UInt64) : VmState :=
  { s with regs := Function.update s.regs (regIndex dst) v, pc := s.pc + 1 }

inductive Outcome where
  | next (s : VmState)
  | ret (v : UInt64)
  | fault (f : VmFault)

def exec (p : Program) (input : Bytes) (words : List UInt64) (s : VmState) : Instr → Outcome
  | .loadConst dst k =>
    match p.consts[k.toNat]? with
    | none => .fault .badConstIndex
    | some c => .next (s.write dst c)
  | .xor dst src => .next (s.write dst (s.reg dst ^^^ s.reg src))
  | .add dst src => .next (s.write dst (s.reg dst + s.reg src))
  | .mulConst dst k =>
    match p.consts[k.toNat]? with
    | none => .fault .badConstIndex
    | some c => .next (s.write dst (s.reg dst * c))
  | .xorShr dst shift =>
    .next (s.write dst (s.reg dst ^^^ s.reg dst >>> UInt64.ofNat (shiftAmount shift)))
  | .rotl dst shift => .next (s.write dst (rotateLeft (s.reg dst) (shiftAmount shift)))
  | .jmpIfEnd target =>
    if s.cursor ≥ input.length then .next { s with pc := target.toUInt32 }
    else .next { s with pc := s.pc + 1 }
  | .loadByte dst =>
    match input[s.cursor]? with
    | none => .fault .inputExhausted
    | some b => .next { s.write dst b.toUInt64 with cursor := s.cursor + 1 }
  | .jmp target => .next { s with pc := target.toUInt32 }
  | .ret src => .ret (s.reg src)
  | .sub dst src => .next (s.write dst (s.reg dst - s.reg src))
  | .mul dst src => .next (s.write dst (s.reg dst * s.reg src))
  | .and dst src => .next (s.write dst (s.reg dst &&& s.reg src))
  | .or dst src => .next (s.write dst (s.reg dst ||| s.reg src))
  | .shl dst shift => .next (s.write dst (s.reg dst <<< UInt64.ofNat (shiftAmount shift)))
  | .shr dst shift => .next (s.write dst (s.reg dst >>> UInt64.ofNat (shiftAmount shift)))
  | .rotr dst shift => .next (s.write dst (rotateRight (s.reg dst) (shiftAmount shift)))
  | .loadInput dst slot =>
    match words[slot.toNat]? with
    | none => .fault .badInputSlot
    | some w => .next (s.write dst w)

def step (p : Program) (input : Bytes) (words : List UInt64) (s : VmState) : Outcome :=
  match p.instrs[s.pc.toNat]? with
  | none => .fault .pcOutOfRange
  | some instr => exec p input words s instr

def runLoop (p : Program) (input : Bytes) (words : List UInt64) :
    Nat → VmState → Except VmError UInt64
  | 0, s => .error { frame := { pc := s.pc }, fault := .outOfFuel }
  | fuel + 1, s =>
    match step p input words s with
    | .next s' => runLoop p input words fuel s'
    | .ret v => .ok v
    | .fault f => .error { frame := { pc := s.pc }, fault := f }

def initState (domain : UInt64) : VmState :=
  { regs := Function.update (fun _ => 0) (regIndex regDomain) domain, cursor := 0, pc := 0 }

def runCore (p : Program) (input : Bytes) (domain : UInt64) (words : List UInt64)
    (fuel : UInt64) : Except VmError UInt64 :=
  runLoop p input words fuel.toNat (initState domain)

def fuelPerByte : UInt64 := 64
def fuelBase : UInt64 := 4096

def saturatingMul (a b : UInt64) : UInt64 := UInt64.ofNat (min (a.toNat * b.toNat) (2 ^ 64 - 1))

def runWithFuel (p : Program) (input : Bytes) (domain fuel : UInt64) : Except VmError UInt64 :=
  runCore p input domain [] fuel

def run (p : Program) (input : Bytes) (domain : UInt64) : Except VmError UInt64 :=
  runWithFuel p input domain (fuelBase + saturatingMul (UInt64.ofNat input.length) fuelPerByte)

def runIrWithFuel (p : Program) (words : List UInt64) (fuel : UInt64) : Except VmError UInt64 :=
  runCore p [] 0 words fuel

def runIr (p : Program) (words : List UInt64) : Except VmError UInt64 :=
  runIrWithFuel p words
    (fuelBase + saturatingMul (UInt64.ofNat p.instrs.length) fuelPerByte)

variable {n : Nat}

theorem toNat_defaultFuel (h : n < 2 ^ 57) :
    (fuelBase + saturatingMul (UInt64.ofNat n) fuelPerByte).toNat = 4096 + n * 64 := by
  have hn : (UInt64.ofNat n).toNat = n := by
    rw [UInt64.toNat_ofNat']; exact Nat.mod_eq_of_lt (by omega)
  have hsat : (saturatingMul (UInt64.ofNat n) fuelPerByte).toNat = n * 64 := by
    unfold saturatingMul
    rw [hn, show fuelPerByte.toNat = 64 from rfl, Nat.min_eq_left (by omega)]
    exact Nat.mod_eq_of_lt (by omega)
  rw [UInt64.toNat_add, hsat, show fuelBase.toNat = 4096 from rfl, Nat.mod_eq_of_lt (by omega)]

/-! ## Registers -/

variable {r : UInt8}

theorem regIndex_val (h : r.toNat < 16) : (regIndex r).val = r.toNat := by
  show r.toNat &&& 15 = r.toNat
  rw [Nat.and_two_pow_sub_one_eq_mod _ 4]
  exact Nat.mod_eq_of_lt h

theorem regIndex_inj {r' : UInt8} (h : r.toNat < 16) (h' : r'.toNat < 16)
    (he : regIndex r = regIndex r') : r = r' := by
  apply UInt8.toNat_inj.mp
  rw [← regIndex_val h, ← regIndex_val h', he]

@[simp] theorem VmState.write_pc (s : VmState) (dst : UInt8) (v : UInt64) :
    (s.write dst v).pc = s.pc + 1 := rfl

@[simp] theorem VmState.write_cursor (s : VmState) (dst : UInt8) (v : UInt64) :
    (s.write dst v).cursor = s.cursor := rfl

@[simp] theorem VmState.reg_write_same (s : VmState) (dst : UInt8) (v : UInt64) :
    (s.write dst v).reg dst = v := by
  simp [VmState.reg, VmState.write]

variable {s : VmState}

theorem VmState.reg_write_ne {dst : UInt8} {v : UInt64} (hd : dst.toNat < 16) (hr : r.toNat < 16)
    (hne : r ≠ dst) :
    (s.write dst v).reg r = s.reg r := by
  have hi : regIndex r ≠ regIndex dst := fun he => hne (regIndex_inj hr hd he)
  simp [VmState.reg, VmState.write, hi]

/-! ## Runs -/

def stepN (p : Program) (input : Bytes) (words : List UInt64) : Nat → VmState → Option VmState
  | 0, s => some s
  | n + 1, s =>
    match step p input words s with
    | .next s' => stepN p input words n s'
    | _ => none

variable {p : Program} {input : Bytes} {words : List UInt64}

variable {s' : VmState}

theorem stepN_add {m : Nat} {s'' : VmState} (h : stepN p input words m s = some s')
    (h' : stepN p input words n s' = some s'') : stepN p input words (m + n) s = some s'' := by
  induction m generalizing s with
  | zero =>
    simp only [stepN, Option.some.injEq] at h
    rw [h, Nat.zero_add]; exact h'
  | succ m ih =>
    rw [Nat.succ_add]
    rw [stepN] at h ⊢
    split at h
    · next t ht => exact ih h
    · simp at h

theorem stepN_one (h : step p input words s = .next s') :
    stepN p input words 1 s = some s' := by
  simp [stepN, h]

theorem runLoop_stepN (fuel : Nat) (h : stepN p input words n s = some s') :
    runLoop p input words (n + fuel) s = runLoop p input words fuel s' := by
  induction n generalizing s with
  | zero =>
    simp only [stepN, Option.some.injEq] at h
    rw [h, Nat.zero_add]
  | succ n ih =>
    rw [Nat.succ_add, runLoop]
    rw [stepN] at h
    split at h
    · next t ht => rw [ht]; exact ih h
    · simp at h

theorem runLoop_outOfFuel {fuel : Nat} (h : stepN p input words n s = some s') (hfuel : fuel ≤ n) :
    ∃ frame, runLoop p input words fuel s = .error ⟨frame, .outOfFuel⟩ := by
  induction fuel generalizing n s with
  | zero => exact ⟨_, rfl⟩
  | succ fuel ih =>
    obtain ⟨m, rfl⟩ := Nat.exists_eq_add_of_le' (Nat.lt_of_lt_of_le (Nat.succ_pos fuel) hfuel)
    rw [stepN] at h
    rw [runLoop]
    split at h
    · next hstep =>
      rw [hstep]
      exact ih h (Nat.le_of_succ_le_succ hfuel)
    · cases h

/--
**A run stops within its budget.**

After at most `fuel` instructions the loop is at a state where the budget is used up, or
where the next turn returns or faults; that state's pc is the one reported.
-/
theorem runLoop_cases (p : Program) (input : Bytes) (words : List UInt64) (fuel : Nat)
    (s : VmState) :
    ∃ n s', n ≤ fuel ∧ stepN p input words n s = some s' ∧
      ((n = fuel ∧ runLoop p input words fuel s
          = .error { frame := { pc := s'.pc }, fault := .outOfFuel }) ∨
        (∃ v, step p input words s' = .ret v ∧ runLoop p input words fuel s = .ok v) ∨
        (∃ f, step p input words s' = .fault f ∧ runLoop p input words fuel s
          = .error { frame := { pc := s'.pc }, fault := f })) := by
  induction fuel generalizing s with
  | zero => exact ⟨0, s, Nat.le_refl 0, rfl, .inl ⟨rfl, rfl⟩⟩
  | succ fuel ih =>
    cases hs : step p input words s with
    | next t =>
      obtain ⟨n, s', hn, hrun, hend⟩ := ih t
      have hloop : runLoop p input words (fuel + 1) s = runLoop p input words fuel t := by
        rw [runLoop, hs]
      refine ⟨n + 1, s', by omega, by rw [stepN, hs]; exact hrun, ?_⟩
      rw [hloop]
      rcases hend with ⟨he, hr⟩ | hr | hr
      · exact .inl ⟨by omega, hr⟩
      · exact .inr (.inl hr)
      · exact .inr (.inr hr)
    | ret v =>
      exact ⟨0, s, Nat.zero_le _, rfl, .inr (.inl ⟨v, hs, by rw [runLoop, hs]⟩)⟩
    | fault f =>
      exact ⟨0, s, Nat.zero_le _, rfl, .inr (.inr ⟨f, hs, by rw [runLoop, hs]⟩)⟩

/--
**What the fuel decides.** On an input a program runs out of every fuel, or it has a cost: it runs
out of any fuel up to it, and with any more ends in one and the same way.
-/
theorem fuel_decides (p : Program) (input : Bytes) (words : List UInt64) (domain : UInt64) :
    (∀ fuel, ∃ frame, runCore p input domain words fuel = .error ⟨frame, .outOfFuel⟩) ∨
    ∃ cost r, (∀ frame, r ≠ .error ⟨frame, .outOfFuel⟩) ∧
      ∀ fuel : UInt64,
        (fuel.toNat ≤ cost →
          ∃ frame, runCore p input domain words fuel = .error ⟨frame, .outOfFuel⟩) ∧
        (cost < fuel.toNat → runCore p input domain words fuel = r) := by
  by_cases hall : ∀ fuel, ∃ frame, runCore p input domain words fuel = .error ⟨frame, .outOfFuel⟩
  · exact .inl hall
  obtain ⟨fuel, hfuel⟩ := not_forall.mp hall
  obtain ⟨n, s', -, hrun, hend⟩ := runLoop_cases p input words fuel.toNat (initState domain)
  -- the cost is the number of turns before the one that returns or faults
  rcases hend with ⟨-, hout⟩ | ⟨v, hv, -⟩ | ⟨f, hf, hr⟩
  · exact absurd ⟨_, hout⟩ hfuel
  · refine .inr ⟨n, .ok v, nofun, fun fuel => ⟨runLoop_outOfFuel hrun, fun hlt => ?_⟩⟩
    obtain ⟨k, hk⟩ := Nat.exists_eq_add_of_lt hlt
    rw [runCore, hk, Nat.add_assoc, runLoop_stepN _ hrun, runLoop, hv]
  · refine .inr ⟨n, .error ⟨⟨s'.pc⟩, f⟩, fun frame heq => hfuel ⟨frame, hr.trans heq⟩,
      fun fuel => ⟨runLoop_outOfFuel hrun, fun hlt => ?_⟩⟩
    obtain ⟨k, hk⟩ := Nat.exists_eq_add_of_lt hlt
    rw [runCore, hk, Nat.add_assoc, runLoop_stepN _ hrun, runLoop, hf]

variable {i : Instr}

theorem step_of_getElem (h : p.instrs[s.pc.toNat]? = some i) :
    step p input words s = exec p input words s i := by
  rw [step, h]

theorem exec_next_pc (h : exec p input words s i = .next s') :
    s'.pc = s.pc + 1 ∨
      ∃ t : UInt16, (i = .jmp t ∨ i = .jmpIfEnd t) ∧ s'.pc = t.toUInt32 := by
  cases i with
  | loadConst | mulConst | loadInput | loadByte =>
    simp only [exec] at h
    split at h
    · simp at h
    · rw [← Outcome.next.inj h]; exact .inl rfl
  | jmpIfEnd t =>
    simp only [exec] at h
    split at h
    · rw [← Outcome.next.inj h]; exact .inr ⟨t, .inr rfl, rfl⟩
    · rw [← Outcome.next.inj h]; exact .inl rfl
  | jmp t => rw [← Outcome.next.inj h]; exact .inr ⟨t, .inl rfl, rfl⟩
  | ret src => simp [exec] at h
  | xor | add | xorShr | rotl | sub | mul | and | or | shl | shr | rotr =>
    rw [← Outcome.next.inj h]; exact .inl rfl

end Kseal.Vm
