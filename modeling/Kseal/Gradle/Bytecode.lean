import Mathlib.Logic.Function.Basic
import Kseal.Infra.Machine

/-!
# Method bodies and their meaning

A node of the original body is a label, a jump, an instruction that leaves the method, or an
arbitrary transformer (`Op`) of the operand stack, the locals below `max_locals` and the world; it
declares the locals it reads. A rewritten body (`Insn`) adds what the flattener inserts. A local
that has not been written is `none`. Observed are the instructions that are neither jumps nor
inserted.
-/

namespace Kseal.Gradle

open Infra

inductive Value (A : Type) where
  | int (n : Int)
  | other (a : A)
deriving DecidableEq

inductive OpResult (A Ω : Type) (maxLocals : Nat) where
  | next (stack : List (Value A)) (writes : Fin maxLocals → Option (Value A)) (world : Ω)
  | throw (exception : Value A) (world : Ω)

structure Op (A Ω : Type) (maxLocals : Nat) where
  reads : Fin maxLocals → Bool
  eff : List (Value A) → (Fin maxLocals → Option (Value A)) → Ω → OpResult A Ω maxLocals
  eff_congr : ∀ stack world l l', (∀ i, reads i = true → l i = l' i) →
    eff stack l world = eff stack l' world

structure Cond (A : Type) where
  test : List (Value A) → Bool
  pop : List (Value A) → List (Value A)

inductive ExitOp where
  | ireturn
  | lreturn
  | freturn
  | dreturn
  | areturn
  | voidReturn
  | athrow
deriving Repr, DecidableEq

inductive Item where
  | top
  | integer
  | float
  | long
  | double
  | null
  | ref (name : String)
  | unsupported
deriving Repr, DecidableEq

structure FrameNode where
  isNew : Bool
  locals : List Item
  stack : List Item
deriving Repr, DecidableEq

/--
A node of the original body, with labels `L`.

`unsupported` stands for `JSR`, `RET`, the switches and the monitor instructions.
-/
inductive Node (A Ω : Type) (maxLocals : Nat) (L : Type) where
  | label (l : L)
  | line
  | frame (f : FrameNode)
  | op (o : Op A Ω maxLocals)
  | goto (l : L)
  | cond (c : Cond A) (l : L)
  | exit (x : ExitOp)
  | unsupported

inductive Kind where
  | int
  | float
  | long
  | double
  | ref
deriving Repr, DecidableEq

def Kind.size : Kind → Nat
  | .long | .double => 2
  | .int | .float | .ref => 1

inductive Insn (A Ω : Type) (maxLocals : Nat) (L : Type) where
  | node (n : Node A Ω maxLocals L)
  | iconst (opcode : Int)
  | bipush (value : Int)
  | sipush (value : Int)
  | ldc (value : Int)
  | const0 (kind : Kind)
  | store (kind : Kind) (slot : Nat)
  | iload (slot : Nat)
  | lookupSwitch (dflt : L) (cases : List (Int × L))

def iconst0 : Int := 3

/-! ## The machine -/

section machine

variable {A Ω L : Type} {k : Nat}

structure Data (A Ω : Type) where
  stack : List (Value A)
  locals : Nat → Option (Value A)
  world : Ω

inductive Obs (A Ω : Type) (k : Nat) where
  | op (o : Op A Ω k) (d : Data A Ω)
  | exit (x : ExitOp) (d : Data A Ω)

inductive Leave (A Ω : Type) where
  | exit (x : ExitOp) (stack : List (Value A)) (world : Ω)
  | thrown (exception : Value A) (world : Ω)

structure State (A Ω : Type) (k : Nat) (L : Type) where
  rest : List (Insn A Ω k L)
  data : Data A Ω

def findLabel [DecidableEq L] (l : L) : List (Insn A Ω k L) → Option (List (Insn A Ω k L))
  | [] => none
  | .node (.label l') :: rest => if l' = l then some (.node (.label l') :: rest) else findLabel l rest
  | _ :: rest => findLabel l rest

def applyWrites (locals : Nat → Option (Value A)) (writes : Fin k → Option (Value A)) :
    Nat → Option (Value A) := fun i =>
  if h : i < k then (writes ⟨i, h⟩).or (locals i) else locals i

def zeroCell (zero : Kind → A) : Kind → Value A
  | .int => .int 0
  | kind => .other (zero kind)

def writeCells (locals : Nat → Option (Value A)) : Nat → List (Value A) → Nat → Option (Value A)
  | _, [] => locals
  | slot, v :: vs => writeCells (Function.update locals slot (some v)) (slot + 1) vs

def step [DecidableEq L] (zero : Kind → A) (code : List (Insn A Ω k L)) (s : State A Ω k L) :
    Move (State A Ω k L) (Obs A Ω k) (Leave A Ω) :=
  let jump (l : L) (d : Data A Ω) : Move (State A Ω k L) (Obs A Ω k) (Leave A Ω) :=
    match findLabel l code with
    | some rest => .go none ⟨rest, d⟩
    | none => .stuck
  let push (rest : List (Insn A Ω k L)) (vs : List (Value A)) :
      Move (State A Ω k L) (Obs A Ω k) (Leave A Ω) :=
    .go none ⟨rest, { s.data with stack := vs ++ s.data.stack }⟩
  match s.rest with
  | [] => .stuck
  | .node (.label _) :: rest | .node .line :: rest | .node (.frame _) :: rest =>
    .go none ⟨rest, s.data⟩
  | .node (.op o) :: rest =>
    match o.eff s.data.stack (fun i => s.data.locals i) s.data.world with
    | .next stack writes world =>
      .go (some (.op o s.data)) ⟨rest, ⟨stack, applyWrites s.data.locals writes, world⟩⟩
    | .throw e world => .done (some (.op o s.data)) (.thrown e world)
  | .node (.goto l) :: _ => jump l s.data
  | .node (.cond c l) :: rest =>
    let d := { s.data with stack := c.pop s.data.stack }
    if c.test s.data.stack then jump l d else .go none ⟨rest, d⟩
  | .node (.exit x) :: _ =>
    .done (some (.exit x s.data)) (.exit x s.data.stack s.data.world)
  | .node .unsupported :: _ => .stuck
  | .iconst opcode :: rest => push rest [.int (opcode - iconst0)]
  | .bipush v :: rest | .sipush v :: rest | .ldc v :: rest => push rest [.int v]
  | .const0 kind :: rest => push rest (List.replicate kind.size (zeroCell zero kind))
  | .store kind slot :: rest =>
    if s.data.stack.length < kind.size then .stuck
    else
      .go none ⟨rest, { s.data with
        stack := s.data.stack.drop kind.size
        locals := writeCells s.data.locals slot (s.data.stack.take kind.size) }⟩
  | .iload slot :: rest =>
    match s.data.locals slot with
    | some v => push rest [v]
    | none => .stuck
  | .lookupSwitch dflt cases :: _ =>
    match s.data.stack with
    | .int n :: stack =>
      let target := ((cases.find? fun c => c.1 == n).map Prod.snd).getD dflt
      jump target { s.data with stack := stack }
    | _ => .stuck

end machine

end Kseal.Gradle
