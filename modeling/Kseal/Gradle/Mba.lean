import Mathlib.Logic.Function.Basic
import Kseal.Infra.Machine
import Kseal.Infra.MixedArith

/-!
# Mixed boolean-arithmetic substitution

The pass puts a few instructions in the place of each integer operator; two locals above those of
the method hold the operands. Any other instruction is an arbitrary transformer (`Other`) of the
stack, the locals and the world, with a bound of the locals it uses (`mba_preserves_meaning`).
-/

namespace Kseal.Mba

open Infra List

/-! ## Method bodies -/

inductive Cell (A : Type) where
  | int (n : Int32)
  | other (a : A)
deriving DecidableEq

structure Data (A Ω : Type) where
  stack : List (Cell A)
  locals : Nat → Option (Cell A)
  world : Ω

structure Data.Agree {A Ω : Type} (k : Nat) (d d' : Data A Ω) : Prop where
  stack : d.stack = d'.stack
  locals : ∀ i < k, d.locals i = d'.locals i
  world : d.world = d'.world

inductive Effect (A Ω L : Type) where
  | next (stack : List (Cell A)) (writes : Nat → Option (Cell A)) (world : Ω)
  | jump (target : L) (stack : List (Cell A)) (writes : Nat → Option (Cell A)) (world : Ω)
  | throw (exception : Cell A) (world : Ω)
  | leave (value : List (Cell A)) (world : Ω)

def Effect.writes {A Ω L : Type} : Effect A Ω L → Nat → Option (Cell A)
  | .next _ writes _ | .jump _ _ writes _ => writes
  | .throw .. | .leave .. => fun _ => none

structure Other (A Ω L : Type) where
  eff : Data A Ω → Effect A Ω L
  bound : Nat
  reads_below : ∀ {d d' : Data A Ω}, d.Agree bound d' → eff d = eff d'
  writes_below : ∀ (d : Data A Ω) {i : Nat}, bound ≤ i → (eff d).writes i = none

inductive Opcode where
  | iconstM1
  | iconst1
  | iadd
  | isub
  | ineg
  | ishl
  | iand
  | ior
  | ixor
deriving Repr, DecidableEq

inductive Insn (A Ω L : Type) where
  | label (l : L)
  | marker
  | insn (opcode : Opcode)
  | iload (slot : Nat)
  | istore (slot : Nat)
  | other (o : Other A Ω L)

structure TryCatchBlock (A Ω L : Type) where
  start : L
  stop : L
  handler : L
  catches : Cell A → Ω → Bool

structure MethodNode (A Ω L : Type) where
  access : UInt32
  maxLocals : Nat
  instructions : List (Insn A Ω L)
  tryCatchBlocks : List (TryCatchBlock A Ω L)

variable {A Ω L : Type}

def Insn.UsesBelow (k : Nat) : Insn A Ω L → Prop
  | .iload slot | .istore slot => slot < k
  | .other o => o.bound ≤ k
  | .label _ | .marker | .insn _ => True

/-! ## The pass -/

def accNative : UInt32 := 0x0100
def accAbstract : UInt32 := 0x0400

def negate : List (Insn A Ω L) :=
  [.insn .iconstM1, .insn .ixor, .insn .iconst1, .insn .iadd]

def binary (scratchBase : Nat) (body : Nat → Nat → List (Insn A Ω L)) : List (Insn A Ω L) :=
  let t0 := scratchBase
  let t1 := scratchBase + 1
  [.istore t1, .istore t0] ++ body t0 t1

def add (t0 t1 : Nat) : List (Insn A Ω L) :=
  [.iload t0, .iload t1, .insn .ixor, .iload t0, .iload t1, .insn .iand, .insn .iconst1,
    .insn .ishl, .insn .iadd]

def subtract (t0 t1 : Nat) : List (Insn A Ω L) :=
  [.iload t0, .iload t1, .insn .iconstM1, .insn .ixor, .insn .iconst1, .insn .iadd, .insn .iadd]

def xor (t0 t1 : Nat) : List (Insn A Ω L) :=
  [.iload t0, .iload t1, .insn .ior, .iload t0, .iload t1, .insn .iand, .insn .isub]

def or (t0 t1 : Nat) : List (Insn A Ω L) :=
  [.iload t0, .iload t1, .insn .iand, .iload t0, .iload t1, .insn .ixor, .insn .iadd]

def and (t0 t1 : Nat) : List (Insn A Ω L) :=
  [.iload t0, .insn .iconstM1, .insn .ixor, .iload t1, .insn .iconstM1, .insn .ixor, .insn .ior,
    .insn .iconstM1, .insn .ixor]

def replacement (scratchBase : Nat) : Opcode → Option (List (Insn A Ω L))
  | .ineg => some negate
  | .iadd => some (binary scratchBase add)
  | .isub => some (binary scratchBase subtract)
  | .ixor => some (binary scratchBase xor)
  | .ior => some (binary scratchBase or)
  | .iand => some (binary scratchBase and)
  | .iconstM1 | .iconst1 | .ishl => none

def Insn.isTarget : Insn A Ω L → Bool
  | .insn opcode => opcode ∈ [.iadd, .isub, .ixor, .ior, .iand] || opcode == .ineg
  | _ => false

def substitute (scratchBase : Nat) : Insn A Ω L → List (Insn A Ω L)
  | .insn opcode => (replacement scratchBase opcode).getD [.insn opcode]
  | node => [node]

def MethodNode.skipped (m : MethodNode A Ω L) : Bool :=
  m.access &&& (accAbstract ||| accNative) != 0 || m.instructions.isEmpty

def apply (m : MethodNode A Ω L) : MethodNode A Ω L × Nat :=
  if m.skipped then (m, 0)
  else
    let scratchBase := m.maxLocals
    let targets := m.instructions.filter Insn.isTarget
    let substitutions := targets.length
    let instructions := m.instructions.flatMap (substitute scratchBase)
    if substitutions > 0 then
      ({ m with instructions := instructions, maxLocals := max m.maxLocals (scratchBase + 2) },
        substitutions)
    else ({ m with instructions := instructions }, substitutions)

/-! ## The machine -/

def unaryOp (f : Int32 → Int32) : List (Cell A) → Option (List (Cell A))
  | .int a :: stack => some (.int (f a) :: stack)
  | _ => none

def binaryOp (f : Int32 → Int32 → Int32) : List (Cell A) → Option (List (Cell A))
  | .int b :: .int a :: stack => some (.int (f a b) :: stack)
  | _ => none

def Opcode.exec : Opcode → List (Cell A) → Option (List (Cell A))
  | .iconstM1 => fun stack => some (.int (-1) :: stack)
  | .iconst1 => fun stack => some (.int 1 :: stack)
  | .ineg => unaryOp fun a => -a
  | .iadd => binaryOp fun a b => a + b
  | .isub => binaryOp fun a b => a - b
  | .ishl => binaryOp fun a b => a <<< b
  | .iand => binaryOp fun a b => a &&& b
  | .ior => binaryOp fun a b => a ||| b
  | .ixor => binaryOp fun a b => a ^^^ b

def Insn.exec : Insn A Ω L → Data A Ω → Option (Data A Ω)
  | .label _, d | .marker, d => some d
  | .insn opcode, d => (opcode.exec d.stack).map fun stack => { d with stack := stack }
  | .iload slot, d =>
    match d.locals slot with
    | some (.int n) => some { d with stack := .int n :: d.stack }
    | _ => none
  | .istore slot, d =>
    match d.stack with
    | .int n :: stack =>
      some { d with stack := stack, locals := Function.update d.locals slot (some (.int n)) }
    | _ => none
  | .other _, _ => none

structure State (A Ω L : Type) where
  rest : List (Insn A Ω L)
  data : Data A Ω

inductive Leave (A Ω : Type) where
  | value (cells : List (Cell A)) (world : Ω)
  | exception (e : Cell A) (world : Ω)

def applyWrites (locals writes : Nat → Option (Cell A)) : Nat → Option (Cell A) :=
  fun i => (writes i).or (locals i)

section machine

variable [DecidableEq L]

def labels : List (Insn A Ω L) → List L
  | [] => []
  | .label l :: rest => l :: labels rest
  | _ :: rest => labels rest

def findLabel (l : L) : List (Insn A Ω L) → Option (List (Insn A Ω L))
  | [] => none
  | .label l' :: rest => if l' = l then some (.label l' :: rest) else findLabel l rest
  | _ :: rest => findLabel l rest

def findHandler (blocks : List (TryCatchBlock A Ω L)) (rest : List (Insn A Ω L)) (e : Cell A)
    (world : Ω) : Option (TryCatchBlock A Ω L) :=
  blocks.find? fun b => b.start ∉ labels rest && b.stop ∈ labels rest && b.catches e world

def jumpTo (m : MethodNode A Ω L) (l : L) (d : Data A Ω) : Move (State A Ω L) Empty (Leave A Ω) :=
  match findLabel l m.instructions with
  | some rest => .go none ⟨rest, d⟩
  | none => .stuck

def step (m : MethodNode A Ω L) (s : State A Ω L) : Move (State A Ω L) Empty (Leave A Ω) :=
  match s.rest with
  | [] => .stuck
  | .other o :: rest =>
    match o.eff s.data with
    | .next stack writes world => .go none ⟨rest, stack, applyWrites s.data.locals writes, world⟩
    | .jump l stack writes world => jumpTo m l ⟨stack, applyWrites s.data.locals writes, world⟩
    | .throw e world =>
      match findHandler m.tryCatchBlocks s.rest e world with
      | some b => jumpTo m b.handler ⟨[e], s.data.locals, world⟩
      | none => .done none (.exception e world)
    | .leave cells world => .done none (.value cells world)
  | node :: rest =>
    match node.exec s.data with
    | some d => .go none ⟨rest, d⟩
    | none => .stuck

end machine

/-! ## The operators -/

section identities

variable (a b : Int32)

theorem add_identity : (a ^^^ b) + (a &&& b) <<< (1 : Int32) = a + b := by
  apply Int32.toBitVec_inj.mp
  simpa using xor_add_and_shiftLeft a.toBitVec b.toBitVec

theorem neg_identity : ~~~a + 1 = -a := by
  apply Int32.toBitVec_inj.mp
  simpa using (BitVec.neg_eq_not_add a.toBitVec).symm

theorem sub_identity : a + (~~~b + 1) = a - b := by
  rw [neg_identity, Int32.sub_eq_add_neg]

theorem xor_identity : (a ||| b) - (a &&& b) = a ^^^ b := by
  apply Int32.toBitVec_inj.mp
  simpa using or_sub_and a.toBitVec b.toBitVec

theorem or_identity : (a &&& b) + (a ^^^ b) = a ||| b := by
  apply Int32.toBitVec_inj.mp
  simpa using and_add_xor a.toBitVec b.toBitVec

theorem and_identity : ~~~(~~~a ||| ~~~b) = a &&& b := by
  apply Int32.toBitVec_inj.mp
  simpa using not_or_not a.toBitVec b.toBitVec

end identities

/-! ## Replacements -/

def execAll (nodes : List (Insn A Ω L)) (d : Data A Ω) : Option (Data A Ω) :=
  nodes.foldlM (fun d node => node.exec d) d

@[simp] theorem execAll_nil (d : Data A Ω) : execAll ([] : List (Insn A Ω L)) d = some d := rfl

@[simp] theorem execAll_cons (node : Insn A Ω L) (nodes : List (Insn A Ω L)) (d : Data A Ω) :
    execAll (node :: nodes) d = (node.exec d).bind (execAll nodes) := rfl

def Computes (k : Nat) (nodes : List (Insn A Ω L)) (d : Data A Ω) :
    Option (List (Cell A)) → Prop
  | some stack => ∃ locals, execAll nodes d = some ⟨stack, locals, d.world⟩ ∧
      ∀ i < k, locals i = d.locals i
  | none => execAll nodes d = none

theorem computes_negate (k : Nat) (d : Data A Ω) :
    Computes k (negate : List (Insn A Ω L)) d (Opcode.ineg.exec d.stack) := by
  obtain ⟨stack, locals, world⟩ := d
  rcases stack with _ | ⟨_ | _, stack⟩
  · rfl
  · next a =>
    refine ⟨locals, ?_, fun _ _ => rfl⟩
    simp [negate, Insn.exec, Opcode.exec, binaryOp, neg_identity]
  · rfl

theorem computes_binary {k : Nat} {body : Nat → Nat → List (Insn A Ω L)}
    {f : Int32 → Int32 → Int32}
    (hbody : ∀ (d : Data A Ω) (a b : Int32), d.locals k = some (.int a) →
      d.locals (k + 1) = some (.int b) →
      execAll (body k (k + 1)) d = some { d with stack := .int (f a b) :: d.stack })
    (d : Data A Ω) : Computes k (binary k body) d (binaryOp f d.stack) := by
  obtain ⟨stack, locals, world⟩ := d
  rcases stack with _ | ⟨b | _, _ | ⟨a | _, stack⟩⟩
  · rfl
  · rfl
  · -- Both operands are in the scratch locals when the body starts.
    let stored := Function.update (Function.update locals (k + 1) (some (Cell.int b))) k
      (some (Cell.int a))
    refine ⟨stored, ?_, ?_⟩
    · show execAll (body k (k + 1)) ⟨stack, stored, world⟩ = _
      rw [hbody ⟨stack, stored, world⟩ a b (by simp [stored]) (by simp [stored])]
    · intro i hi
      have h₀ : i ≠ k := by omega
      have h₁ : i ≠ k + 1 := by omega
      simp [stored, h₀, h₁]
  · rfl
  · rfl
  · rfl
  · rfl

variable {nodes : List (Insn A Ω L)}

/-- **A replacement computes what its operator does.** -/
theorem replacement_correct {k : Nat} {opcode : Opcode} (h : replacement k opcode = some nodes)
    (d : Data A Ω) :
    Computes k nodes d (opcode.exec d.stack) := by
  cases opcode <;> cases h
  case ineg => exact computes_negate k d
  case iadd =>
    refine computes_binary (fun d a b ha hb => ?_) d
    simp [add, Insn.exec, Opcode.exec, binaryOp, ha, hb, add_identity]
  case isub =>
    refine computes_binary (fun d a b ha hb => ?_) d
    simp [subtract, Insn.exec, Opcode.exec, binaryOp, ha, hb, sub_identity]
  case ixor =>
    refine computes_binary (fun d a b ha hb => ?_) d
    simp [xor, Insn.exec, Opcode.exec, binaryOp, ha, hb, xor_identity]
  case ior =>
    refine computes_binary (fun d a b ha hb => ?_) d
    simp [or, Insn.exec, Opcode.exec, binaryOp, ha, hb, or_identity]
  case iand =>
    refine computes_binary (fun d a b ha hb => ?_) d
    simp [and, Insn.exec, Opcode.exec, binaryOp, ha, hb, and_identity]

/-! ## Positions -/

def MethodNode.place (m : MethodNode A Ω L) (node : Insn A Ω L) : List (Insn A Ω L) :=
  if m.skipped then [node] else substitute m.maxLocals node

def MethodNode.relocate (m : MethodNode A Ω L) (rest : List (Insn A Ω L)) : List (Insn A Ω L) :=
  rest.flatMap m.place

@[simp] theorem relocate_nil (m : MethodNode A Ω L) : m.relocate [] = [] := rfl

@[simp] theorem relocate_cons (m : MethodNode A Ω L) (node : Insn A Ω L)
    (rest : List (Insn A Ω L)) : m.relocate (node :: rest) = m.place node ++ m.relocate rest := rfl

theorem instructions_apply (m : MethodNode A Ω L) :
    (apply m).1.instructions = m.relocate m.instructions := by
  unfold apply MethodNode.relocate MethodNode.place
  split
  · simp
  · dsimp only
    split <;> rfl

theorem tryCatchBlocks_apply (m : MethodNode A Ω L) :
    (apply m).1.tryCatchBlocks = m.tryCatchBlocks := by
  unfold apply
  split
  · rfl
  · dsimp only
    split <;> rfl

theorem place_cases (m : MethodNode A Ω L) (node : Insn A Ω L) :
    m.place node = [node] ∨ ∃ opcode nodes, node = .insn opcode ∧ m.skipped = false ∧
      replacement m.maxLocals opcode = some nodes ∧ m.place node = nodes := by
  unfold MethodNode.place
  split
  · exact .inl rfl
  · next hskip =>
    cases node with
    | insn opcode =>
      cases h : replacement m.maxLocals opcode (A := A) (Ω := Ω) (L := L) with
      | none => exact .inl (by simp [substitute, h])
      | some nodes =>
        have hplace : substitute m.maxLocals (.insn opcode) = nodes := by simp [substitute, h]
        exact .inr ⟨opcode, nodes, rfl, by simpa using hskip, h, hplace⟩
    | label | marker | iload | istore | other => exact .inl rfl

@[simp] theorem place_label (m : MethodNode A Ω L) (l : L) : m.place (.label l) = [.label l] := by
  simp [MethodNode.place, substitute]

@[simp] theorem place_other (m : MethodNode A Ω L) (o : Other A Ω L) :
    m.place (.other o) = [.other o] := by
  simp [MethodNode.place, substitute]

def Insn.Computing : Insn A Ω L → Prop
  | .label _ | .other _ => False
  | .marker | .insn _ | .iload _ | .istore _ => True

theorem computing_replacement {k : Nat} {opcode : Opcode} (h : replacement k opcode = some nodes) :
    nodes ≠ [] ∧ ∀ node ∈ nodes, node.Computing := by
  cases opcode <;> cases h <;>
    simp [negate, binary, add, subtract, xor, or, and, Insn.Computing]

theorem forall_mem_place (m : MethodNode A Ω L) {P : Insn A Ω L → Prop}
    (hcomputing : ∀ node, node.Computing → P node) {node : Insn A Ω L} (hnode : P node) :
    m.place node ≠ [] ∧ ∀ node' ∈ m.place node, P node' := by
  rcases place_cases m node with heq | ⟨opcode, nodes, -, -, hnodes, heq⟩
  · rw [heq]
    simpa using hnode
  · rw [heq]
    obtain ⟨hne, hall⟩ := computing_replacement hnodes
    exact ⟨hne, fun node' hnode' => hcomputing node' (hall node' hnode')⟩

theorem ne_other_of_computing (node : Insn A Ω L) (h : node.Computing) (o : Other A Ω L) :
    node ≠ .other o := by
  rintro rfl
  exact h

/-! ### Labels -/

section labels

variable [DecidableEq L]

theorem append_of_computing (rest : List (Insn A Ω L)) (h : ∀ node ∈ nodes, node.Computing) :
    labels (nodes ++ rest) = labels rest ∧ ∀ l, findLabel l (nodes ++ rest) = findLabel l rest := by
  induction nodes with
  | nil => exact ⟨rfl, fun _ => rfl⟩
  | cons node nodes ih =>
    have hnode := h node mem_cons_self
    have hrest := ih fun n hn => h n (mem_cons_of_mem _ hn)
    cases node with
    | label | other => exact hnode.elim
    | marker | insn | iload | istore => exact hrest

/-- **The labels are where they were.** -/
theorem labels_relocate (m : MethodNode A Ω L) (rest : List (Insn A Ω L)) :
    labels (m.relocate rest) = labels rest ∧
      ∀ l, findLabel l (m.relocate rest) = (findLabel l rest).map m.relocate := by
  induction rest with
  | nil => exact ⟨rfl, fun _ => rfl⟩
  | cons node rest ih =>
    by_cases hnode : node.Computing
    · have hplace := append_of_computing (m.relocate rest)
        (forall_mem_place m (fun _ => id) hnode).2
      have hself := append_of_computing rest (forall_mem_singleton.mpr hnode)
      exact ⟨(hplace.1.trans ih.1).trans hself.1.symm, fun l => ((hplace.2 l).trans (ih.2 l)).trans
        (congrArg _ (hself.2 l).symm)⟩
    · cases node with
      | label l' =>
        refine ⟨by simp [labels, ih.1], fun l => ?_⟩
        by_cases h : l' = l
        · simp [findLabel, h]
        · simp [findLabel, h, ih.2]
      | other => simp [labels, findLabel, ih.1, ih.2]
      | marker | insn | iload | istore => exact absurd trivial hnode

theorem findHandler_relocate (m : MethodNode A Ω L) (rest : List (Insn A Ω L)) (e : Cell A)
    (world : Ω) : findHandler m.tryCatchBlocks (m.relocate rest) e world =
      findHandler m.tryCatchBlocks rest e world := by
  rw [findHandler, findHandler, (labels_relocate m rest).1]

end labels

/-! ## Agreeing data -/

section agree

variable {k : Nat} {d d' : Data A Ω}

theorem Data.Agree.refl (k : Nat) (d : Data A Ω) : d.Agree k d := ⟨rfl, fun _ _ => rfl, rfl⟩

theorem Data.Agree.mono {j : Nat} (h : d.Agree k d') (hj : j ≤ k) : d.Agree j d' :=
  ⟨h.stack, fun i hi => h.locals i (by omega), h.world⟩

theorem Data.Agree.applyWrites (h : d.Agree k d') (stack : List (Cell A))
    (writes : Nat → Option (Cell A)) (world : Ω) :
    Data.Agree k ⟨stack, applyWrites d.locals writes, world⟩
      ⟨stack, applyWrites d'.locals writes, world⟩ := by
  refine ⟨rfl, fun i hi => ?_, rfl⟩
  simp only [Mba.applyWrites]
  rw [h.locals i hi]

theorem exec_agree {node : Insn A Ω L} (hnode : node.UsesBelow k) (h : d.Agree k d') :
    (∀ e, node.exec d = some e → ∃ e', node.exec d' = some e' ∧ e.Agree k e') ∧
      (node.exec d = none → node.exec d' = none) := by
  obtain ⟨stack, locals, world⟩ := d
  obtain ⟨stack', locals', world'⟩ := d'
  obtain ⟨rfl, hlocals, rfl⟩ := h
  cases node with
  | label | marker =>
    refine ⟨?_, nofun⟩
    rintro e ⟨⟩
    exact ⟨_, rfl, rfl, hlocals, rfl⟩
  | insn opcode =>
    simp only [Insn.exec]
    cases opcode.exec stack with
    | none => simp
    | some result =>
      refine ⟨?_, nofun⟩
      rintro e ⟨⟩
      exact ⟨_, rfl, rfl, hlocals, rfl⟩
  | iload slot =>
    have hslot : locals slot = locals' slot := hlocals slot hnode
    simp only [Insn.exec, hslot]
    split
    · refine ⟨?_, nofun⟩
      rintro e ⟨⟩
      exact ⟨_, rfl, rfl, hlocals, rfl⟩
    · simp
  | istore slot =>
    simp only [Insn.exec]
    split
    · next n rest =>
      refine ⟨?_, nofun⟩
      rintro e ⟨⟩
      refine ⟨_, rfl, rfl, fun i hi => ?_, rfl⟩
      by_cases his : i = slot
      · simp [his]
      · simpa [his] using hlocals i hi
    · simp
  | other o => exact ⟨nofun, fun _ => rfl⟩

theorem execAll_place {m : MethodNode A Ω L} {node : Insn A Ω L}
    (hnode : node.UsesBelow m.maxLocals) (h : d.Agree m.maxLocals d') :
    (∀ e, node.exec d = some e →
      ∃ e', execAll (m.place node) d' = some e' ∧ e.Agree m.maxLocals e') ∧
    (node.exec d = none → execAll (m.place node) d' = none) := by
  rcases place_cases m node with heq | ⟨opcode, nodes, rfl, -, hnodes, heq⟩
  · rw [heq]
    obtain ⟨hsome, hnone⟩ := exec_agree hnode h
    constructor
    · intro e he
      obtain ⟨e', he', hagree⟩ := hsome e he
      exact ⟨e', by simp [he'], hagree⟩
    · intro he
      simp [hnone he]
  · rw [heq]
    have hcomp := replacement_correct hnodes d'
    rw [← h.stack] at hcomp
    simp only [Insn.exec]
    cases hop : opcode.exec d.stack with
    | none =>
      rw [hop] at hcomp
      exact ⟨nofun, fun _ => hcomp⟩
    | some stack =>
      rw [hop] at hcomp
      obtain ⟨locals, hexec, hlocals⟩ := hcomp
      refine ⟨?_, nofun⟩
      rintro e ⟨⟩
      exact ⟨_, hexec, rfl, fun i hi => (h.locals i hi).trans (hlocals i hi).symm, h.world⟩

end agree

/-! ## Steps -/

section steps

variable [DecidableEq L] {m : MethodNode A Ω L} {node : Insn A Ω L} {rest : List (Insn A Ω L)}
  {d : Data A Ω}

theorem step_exec (m : MethodNode A Ω L) (rest : List (Insn A Ω L)) (d : Data A Ω)
    (hnode : ∀ o, node ≠ .other o) : step m ⟨node :: rest, d⟩ =
    match node.exec d with
    | some d' => .go none ⟨rest, d'⟩
    | none => .stuck := by
  cases node with
  | other o => exact absurd rfl (hnode o)
  | label | marker | insn | iload | istore => rfl

theorem steps_execAll (m : MethodNode A Ω L) (rest : List (Insn A Ω L)) {d' : Data A Ω}
    (hnodes : ∀ node ∈ nodes, ∀ o, node ≠ .other o) (h : execAll nodes d = some d') :
    Steps (step m) nodes.length ⟨nodes ++ rest, d⟩ [] ⟨rest, d'⟩ := by
  induction nodes generalizing d with
  | nil =>
    cases h
    exact .zero _
  | cons node nodes ih =>
    rw [execAll_cons] at h
    obtain ⟨d₁, hd₁, hrest⟩ := Option.bind_eq_some_iff.mp h
    have hmove : step m ⟨node :: (nodes ++ rest), d⟩ = .go none ⟨nodes ++ rest, d₁⟩ := by
      rw [step_exec _ _ _ (hnodes node mem_cons_self), hd₁]
    exact .silent hmove (ih (fun n hn => hnodes n (mem_cons_of_mem _ hn)) hrest)

theorem halts_execAll (hnodes : ∀ node ∈ nodes, ∀ o, node ≠ .other o) (h : execAll nodes d = none) :
    Halts (step m) ⟨nodes ++ rest, d⟩ .stuck := by
  induction nodes generalizing d with
  | nil => cases h
  | cons node nodes ih =>
    rw [execAll_cons] at h
    have hmove := step_exec m (nodes ++ rest) d (hnodes node mem_cons_self)
    cases hd₁ : node.exec d with
    | none =>
      rw [hd₁] at hmove
      exact ⟨nofun, 0, [], _, .zero _, hmove⟩
    | some d₁ =>
      rw [hd₁] at hmove h
      have htail := ih (fun n hn => hnodes n (mem_cons_of_mem _ hn)) h
      exact htail.of_steps (Steps.one_silent hmove)

/-! ### The simulation -/

structure Corresponds (m : MethodNode A Ω L) (s t : State A Ω L) : Prop where
  rest : t.rest = m.relocate s.rest
  data : s.data.Agree m.maxLocals t.data
  usesBelow : ∀ node ∈ s.rest, node.UsesBelow m.maxLocals

theorem findLabel_suffix {l : L} {code rest : List (Insn A Ω L)}
    (h : findLabel l code = some rest) : rest <:+ code := by
  induction code with
  | nil => cases h
  | cons node code ih =>
    cases node with
    | label l' =>
      rw [findLabel] at h
      split at h
      · cases h
        exact suffix_refl _
      · exact (ih h).trans (suffix_cons _ _)
    | marker | insn | iload | istore | other => exact (ih h).trans (suffix_cons _ _)

theorem jumpTo_corresponds (hm : ∀ node ∈ m.instructions, node.UsesBelow m.maxLocals) (l : L)
    {e e' : Data A Ω} (he : e.Agree m.maxLocals e') :
    (∃ s' t', jumpTo m l e = .go none s' ∧ jumpTo (apply m).1 l e' = .go none t' ∧
      Corresponds m s' t') ∨
    (jumpTo m l e = .stuck ∧ jumpTo (apply m).1 l e' = .stuck) := by
  unfold jumpTo
  rw [instructions_apply, (labels_relocate m _).2]
  cases h : findLabel l m.instructions with
  | none => exact .inr ⟨rfl, rfl⟩
  | some rest =>
    refine .inl ⟨_, _, rfl, rfl, rfl, he, fun node hnode => ?_⟩
    exact hm node ((findLabel_suffix h).subset hnode)

theorem followsMove_jumpTo (hm : ∀ node ∈ m.instructions, node.UsesBelow m.maxLocals) (l : L)
    {e e' : Data A Ω} (he : e.Agree m.maxLocals e') {t : State A Ω L}
    (ht : step (apply m).1 t = jumpTo (apply m).1 l e') :
    FollowsMove (step (apply m).1) (Corresponds m) t (jumpTo m l e) := by
  rcases jumpTo_corresponds hm l he with ⟨s', t', hs, hgo, hcorr⟩ | ⟨hs, hstuck⟩
  · rw [hs]
    exact ⟨0, [], t', Steps.one_silent (ht.trans hgo), hcorr⟩
  · rw [hs]
    exact ⟨nofun, 0, [], t, .zero t, ht.trans hstuck⟩

theorem followsMove_exec {d' : Data A Ω} (hnode : ∀ o, node ≠ .other o)
    (hbelow : ∀ n ∈ node :: rest, n.UsesBelow m.maxLocals) (h : d.Agree m.maxLocals d') :
    FollowsMove (step (apply m).1) (Corresponds m) ⟨m.place node ++ m.relocate rest, d'⟩
      (step m ⟨node :: rest, d⟩) := by
  obtain ⟨hsome, hnone⟩ := execAll_place (hbelow node mem_cons_self) h
  obtain ⟨hne, hothers⟩ := forall_mem_place m ne_other_of_computing hnode
  rw [step_exec _ _ _ hnode]
  cases hexec : node.exec d with
  | none => exact halts_execAll hothers (hnone hexec)
  | some e =>
    obtain ⟨e', he', hagree⟩ := hsome e hexec
    obtain ⟨n, hn⟩ : ∃ n, (m.place node).length = n + 1 :=
      Nat.exists_eq_add_one.mpr (length_pos_iff.mpr hne)
    have hsteps := steps_execAll (apply m).1 (m.relocate rest) hothers he'
    rw [hn] at hsteps
    exact ⟨n, [], _, hsteps, rfl, hagree, fun n hn => hbelow n (mem_cons_of_mem _ hn)⟩

theorem followsMove_other {o : Other A Ω L} {d' : Data A Ω}
    (hm : ∀ n ∈ m.instructions, n.UsesBelow m.maxLocals)
    (hbelow : ∀ n ∈ Insn.other o :: rest, n.UsesBelow m.maxLocals)
    (h : d.Agree m.maxLocals d') :
    FollowsMove (step (apply m).1) (Corresponds m) ⟨.other o :: m.relocate rest, d'⟩
      (step m ⟨.other o :: rest, d⟩) := by
  have heff : o.eff d' = o.eff d := (o.reads_below (h.mono (hbelow _ mem_cons_self))).symm
  have hrest : ∀ n ∈ rest, n.UsesBelow m.maxLocals := fun n hn =>
    hbelow n (mem_cons_of_mem _ hn)
  -- The exception table is searched with the same labels ahead.
  have hhandler : ∀ e world, findHandler m.tryCatchBlocks (.other o :: m.relocate rest) e world =
      findHandler m.tryCatchBlocks (.other o :: rest) e world := by
    simpa using findHandler_relocate m (.other o :: rest)
  cases hcase : o.eff d with
  | next stack writes world =>
    have hs : step m ⟨.other o :: rest, d⟩ =
        .go none ⟨rest, stack, applyWrites d.locals writes, world⟩ := by simp [step, hcase]
    have ht : step (apply m).1 ⟨.other o :: m.relocate rest, d'⟩ =
        .go none ⟨m.relocate rest, stack, applyWrites d'.locals writes, world⟩ := by
      simp [step, heff, hcase]
    rw [hs]
    exact ⟨0, [], _, Steps.one_silent ht, rfl, h.applyWrites stack writes world, hrest⟩
  | jump l stack writes world =>
    have hs : step m ⟨.other o :: rest, d⟩ =
        jumpTo m l ⟨stack, applyWrites d.locals writes, world⟩ := by simp [step, hcase]
    rw [hs]
    exact followsMove_jumpTo hm l (h.applyWrites stack writes world) (by simp [step, heff, hcase])
  | throw e world =>
    cases hfind : findHandler m.tryCatchBlocks (.other o :: rest) e world with
    | none =>
      have hs : step m ⟨.other o :: rest, d⟩ = .done none (.exception e world) := by
        simp [step, hcase, hfind]
      rw [hs]
      refine ⟨none, nofun, 0, [], _, .zero _, ?_⟩
      simp [step, heff, hcase, tryCatchBlocks_apply, hhandler, hfind]
    | some b =>
      have hs : step m ⟨.other o :: rest, d⟩ = jumpTo m b.handler ⟨[e], d.locals, world⟩ := by
        simp [step, hcase, hfind]
      rw [hs]
      have hagree : Data.Agree m.maxLocals ⟨[e], d.locals, world⟩ ⟨[e], d'.locals, world⟩ :=
        ⟨rfl, h.locals, rfl⟩
      refine followsMove_jumpTo hm b.handler hagree ?_
      simp [step, heff, hcase, tryCatchBlocks_apply, hhandler, hfind]
  | leave cells world =>
    have hs : step m ⟨.other o :: rest, d⟩ = .done none (.value cells world) := by
      simp [step, hcase]
    rw [hs]
    refine ⟨none, nofun, 0, [], _, .zero _, ?_⟩
    simp [step, heff, hcase]

/-- **The new body follows every step of the old one.** -/
theorem mirrors_apply (hm : ∀ n ∈ m.instructions, n.UsesBelow m.maxLocals) :
    Mirrors (step m) (step (apply m).1) (Corresponds m) := by
  rintro ⟨rest, d⟩ ⟨rest', d'⟩ ⟨hrest, hdata, hbelow⟩
  cases hrest
  cases rest with
  | nil => exact ⟨nofun, 0, [], _, .zero _, rfl⟩
  | cons node rest =>
    cases node with
    | other o =>
      show FollowsMove _ _ (State.mk (m.relocate (.other o :: rest)) d') _
      rw [relocate_cons, place_other]
      exact followsMove_other hm hbelow hdata
    | label | marker | insn | iload | istore => exact followsMove_exec nofun hbelow hdata

end steps

/--
**The pass keeps the meaning of a method.**

From data that agree on the locals of the method, the new body comes to every instruction of the
old one that the old one comes to, with the same stack and world and the same values in those
locals; and it stops with the same result, gets stuck or runs forever just when the old one does.
-/
theorem mba_preserves_meaning [DecidableEq L] {m : MethodNode A Ω L}
    (hm : ∀ n ∈ m.instructions, n.UsesBelow m.maxLocals) {d d' : Data A Ω}
    (hd : d.Agree m.maxLocals d') :
    (∀ n tr rest e, Steps (step m) n ⟨m.instructions, d⟩ tr ⟨rest, e⟩ →
      ∃ n' tr' e', n ≤ n' ∧ e.Agree m.maxLocals e' ∧
        Steps (step (apply m).1) n' ⟨(apply m).1.instructions, d'⟩ tr' ⟨m.relocate rest, e'⟩) ∧
    SameOutcome (step m) (step (apply m).1) ⟨m.instructions, d⟩
      ⟨(apply m).1.instructions, d'⟩ := by
  have hstart : Corresponds m ⟨m.instructions, d⟩ ⟨(apply m).1.instructions, d'⟩ :=
    ⟨instructions_apply m, hd, hm⟩
  refine ⟨?_, (mirrors_apply hm).sameOutcome hstart⟩
  intro n tr rest e hsteps
  obtain ⟨n', tr', ⟨rest', e'⟩, hle, ht, hcorr⟩ := (mirrors_apply hm).steps hstart hsteps
  obtain ⟨hrest, hagree, -⟩ := hcorr
  cases hrest
  exact ⟨n', tr', e', hle, hagree, ht⟩

def ireturn : Other Unit Unit Nat where
  eff d :=
    match d.stack with
    | .int n :: _ => .leave [.int n] d.world
    | _ => .throw (.other ()) d.world
  bound := 0
  reads_below h := by rw [h.stack, h.world]
  writes_below d i _ := by split <;> rfl

def sampleMethod : MethodNode Unit Unit Nat where
  access := 0
  maxLocals := 2
  instructions := [.label 0, .iload 0, .iload 1, .insn .iadd, .insn .ineg, .other ireturn]
  tryCatchBlocks := []

def sampleData : Data Unit Unit where
  stack := []
  locals i := if i = 0 then some (.int 5) else if i = 1 then some (.int 7) else none
  world := ()

theorem mba_preserves_meaning_sample :
    (apply sampleMethod).2 = 2 ∧
    (∀ n ∈ sampleMethod.instructions, n.UsesBelow sampleMethod.maxLocals) ∧
    SameOutcome (step sampleMethod) (step (apply sampleMethod).1)
      ⟨sampleMethod.instructions, sampleData⟩
      ⟨(apply sampleMethod).1.instructions, sampleData⟩ := by
  have hm : ∀ n ∈ sampleMethod.instructions, n.UsesBelow sampleMethod.maxLocals := by
    simp [sampleMethod, Insn.UsesBelow, ireturn]
  exact ⟨rfl, hm, (mba_preserves_meaning hm (Data.Agree.refl 2 sampleData)).2⟩

end Kseal.Mba
