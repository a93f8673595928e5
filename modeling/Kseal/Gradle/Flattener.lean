import Mathlib.Data.List.Sort
import Kseal.Gradle.Bytecode
import Kseal.Infra.Perm

/-!
# The control-flow flattener (`ControlFlowFlattener.kt`)

`flatten` goes through the checks of `Worker.run` in order. Parameters are `execute`
(`Frame.execute` of the bytecode library; nothing stands for an exception), `verifies`, its analysis
of the rewritten body, and the stream `nextInt`; `fuel` bounds the draws for one state id.
-/

namespace Kseal.Gradle

open Infra

/-! ## Methods -/

inductive ArgType where
  | int
  | float
  | long
  | double
  | ref (name : String)
deriving Repr, DecidableEq

def ArgType.size : ArgType → Nat
  | .long | .double => 2
  | .int | .float | .ref _ => 1

def Node.label? {A Ω L : Type} {k : Nat} : Node A Ω k L → Option L
  | .label l => some l
  | _ => none

structure Method (A Ω : Type) (maxLocals : Nat) (L : Type) where
  owner : String
  name : String
  isStatic : Bool
  isAbstract : Bool
  isNative : Bool
  hasTryCatch : Bool
  args : List ArgType
  maxStack : Nat
  nodes : List (Node A Ω maxLocals L)
  labels_nodup : (nodes.filterMap Node.label?).Nodup

variable {A Ω L G : Type} {k : Nat}

namespace Node

def isReal : Node A Ω k L → Bool
  | .label _ | .line | .frame _ => false
  | .op _ | .goto _ | .cond _ _ | .exit _ | .unsupported => true

def isJump : Node A Ω k L → Bool
  | .goto _ | .cond _ _ => true
  | _ => false

def isExit : Node A Ω k L → Bool
  | .exit _ => true
  | _ => false

def isFrame : Node A Ω k L → Bool
  | .frame _ => true
  | _ => false

def isUnsupported : Node A Ω k L → Bool
  | .unsupported => true
  | _ => false

def fallsThrough : Node A Ω k L → Bool
  | .goto _ | .exit _ => false
  | _ => true

def target? : Node A Ω k L → Option L
  | .goto l | .cond _ l => some l
  | _ => none

def endsBlock (n : Node A Ω k L) : Bool := n.isJump || n.isExit

end Node

def minBlocks : Nat := 3
def minRealInsns : Nat := 8

def preCheck (m : Method A Ω k L) : Bool :=
  !m.isAbstract && !m.isNative && m.name != "<init>" && m.name != "<clinit>" &&
    !m.hasTryCatch && !m.nodes.any Node.isUnsupported &&
    decide ((m.nodes.filter Node.isReal).length ≥ minRealInsns)

/-! ## Basic blocks -/

abbrev Block (A Ω : Type) (k : Nat) (L : Type) := List (Node A Ω k L)

def splitLoop [DecidableEq L] (targets : List L) :
    Bool → Block A Ω k L → List (Node A Ω k L) → List (Block A Ω k L)
  | _, current, [] => if current.isEmpty then [] else [current]
  | leader, current, n :: rest =>
    if (leader || decide (∃ l ∈ n.label?, l ∈ targets)) && !current.isEmpty then
      current :: splitLoop targets n.endsBlock [n] rest
    else splitLoop targets n.endsBlock (current ++ [n]) rest

def splitBlocks [DecidableEq L] (m : Method A Ω k L) : Option (List (Block A Ω k L)) :=
  let blocks := splitLoop (m.nodes.filterMap Node.target?) true [] m.nodes
  if m.nodes.isEmpty then none
  else if blocks.any fun b => !b.any Node.isReal then none
  else some blocks

def splitTerminator : Block A Ω k L → Option (Block A Ω k L × Node A Ω k L × Block A Ω k L)
  | [] => none
  | n :: rest =>
    match splitTerminator rest with
    | some (before, t, after) => some (n :: before, t, after)
    | none => if n.isReal then some ([], n, rest) else none

def terminator (b : Block A Ω k L) : Option (Node A Ω k L) :=
  (splitTerminator b).map fun p => p.2.1

/-! ## Frames -/

inductive BasicValue where
  | uninitialized
  | int
  | float
  | long
  | double
  | ref (name : String)
  | returnAddress
deriving Repr, DecidableEq

def BasicValue.size : BasicValue → Nat
  | .long | .double => 2
  | _ => 1

def nullValue : BasicValue := .ref "null"

structure Frame where
  locals : List BasicValue
  stack : List BasicValue
deriving Repr, DecidableEq

def Frame.setLocal (f : Frame) (slot : Nat) (v : BasicValue) : Option Frame :=
  if slot < f.locals.length then some { f with locals := f.locals.set slot v } else none

def blankFrame (maxLocals : Nat) : Frame :=
  { locals := List.replicate maxLocals .uninitialized, stack := [] }

def newValue : ArgType → BasicValue
  | .int => .int
  | .float => .float
  | .long => .long
  | .double => .double
  | .ref name => .ref name

def entryArgs : Nat → List ArgType → Frame → Option Frame
  | _, [], f => some f
  | slot, arg :: args, f => do
    let f ← f.setLocal slot (newValue arg)
    if arg.size = 2 then
      let f ← f.setLocal (slot + 1) .uninitialized
      entryArgs (slot + 2) args f
    else entryArgs (slot + 1) args f

def entryFrame (m : Method A Ω k L) : Option Frame :=
  if m.isStatic then entryArgs 0 m.args (blankFrame k)
  else do
    let f ← (blankFrame k).setLocal 0 (.ref m.owner)
    entryArgs 1 m.args f

def frameItemToValue : Item → Option BasicValue
  | .top => some .uninitialized
  | .integer => some .int
  | .float => some .float
  | .long => some .long
  | .double => some .double
  | .null => some nullValue
  | .ref name => some (.ref name)
  | .unsupported => none

def frameItems : Nat → List Item → Frame → Option Frame
  | _, [], f => some f
  | slot, item :: items, f => do
    let v ← frameItemToValue item
    let f ← f.setLocal slot v
    if v.size = 2 ∧ slot + 1 < f.locals.length then
      let f ← f.setLocal (slot + 1) .uninitialized
      frameItems (slot + 2) items f
    else frameItems (slot + 1) items f

def fromFrameNode (maxLocals : Nat) (node : FrameNode) : Option Frame :=
  if !node.isNew || !node.stack.isEmpty then none
  else frameItems 0 node.locals (blankFrame maxLocals)

def frameNodeOf : Block A Ω k L → Option FrameNode
  | [] => none
  | .frame f :: _ => some f
  | n :: rest => if n.isReal then none else frameNodeOf rest

def executeBlock (execute : Node A Ω k L → Frame → Option Frame) :
    Block A Ω k L → Frame → Option Frame
  | [], f => some f
  | n :: rest, f =>
    if n.isReal then (execute n f).bind (executeBlock execute rest) else executeBlock execute rest f

def leaderFrame (m : Method A Ω k L) (first : Bool) (prev : Option Frame) (b : Block A Ω k L) :
    Option Frame :=
  if first then entryFrame m
  else
    match frameNodeOf b with
    | some node => fromFrameNode k node
    | none => prev

def leaderFrames (execute : Node A Ω k L → Frame → Option Frame) (m : Method A Ω k L) :
    Bool → Option Frame → List (Block A Ω k L) → Option (List Frame)
  | _, _, [] => some []
  | first, prev, b :: rest => do
    let entry ← leaderFrame m first prev b
    if !entry.stack.isEmpty then none
    else
      let exit ← executeBlock execute b entry
      let falls := ((terminator b).map Node.fallsThrough).getD true
      let frames ← leaderFrames execute m false (if falls then some exit else none) rest
      return entry :: frames

def computeLeaderFrames (execute : Node A Ω k L → Frame → Option Frame) (m : Method A Ω k L)
    (blocks : List (Block A Ω k L)) : Option (List Frame) :=
  leaderFrames execute m true none blocks

/-! ## The uniform frame -/

def unify (a b : BasicValue) : Option BasicValue :=
  let isRef : BasicValue → Bool
    | .ref _ => true
    | _ => false
  if a = b then some a
  else if a = nullValue ∧ isRef b then some b
  else if b = nullValue ∧ isRef a then some a
  else none

def valueToFrameItem : BasicValue → Option Item
  | .int => some .integer
  | .float => some .float
  | .long => some .long
  | .double => some .double
  | .ref name => if name = "null" then some .null else some (.ref name)
  | .uninitialized | .returnAddress => none

def mergeSlot (slot : Nat) : Option BasicValue → List Frame → Option (Option BasicValue)
  | merged, [] => some merged
  | merged, f :: rest =>
    match f.locals[slot]? with
    | none | some .uninitialized => mergeSlot slot merged rest
    | some v =>
      match merged with
      | none => mergeSlot slot (some v) rest
      | some e => (unify e v).bind fun u => mergeSlot slot (some u) rest

def uniformItem (frames : List Frame) (slot : Nat) : Option (Option Item) :=
  match mergeSlot slot none frames with
  | none => none
  | some none => some none
  | some (some v) => (valueToFrameItem v).map some

def uniformItems (frames : List Frame) : Nat → Nat → Option (List (Option Item))
  | _, 0 => some []
  | slot, n + 1 => do
    let item ← uniformItem frames slot
    let items ← uniformItems frames (slot + 1) n
    return item :: items

def buildUniformLocals (maxLocals : Nat) (frames : List Frame) : Option (List (Option Item)) :=
  uniformItems frames 0 maxLocals

def seedFrame (items : List (Option Item)) : Frame :=
  { locals := items.map fun item => (item.bind frameItemToValue).getD .uninitialized, stack := [] }

def exitConforms (value : BasicValue) : Option Item → Bool
  | none => true
  | some expected =>
    if value = .uninitialized then false
    else
      match value == nullValue, expected with
      | true, .ref _ => true
      | _, _ => valueToFrameItem value == some expected

def isInductive (execute : Node A Ω k L → Frame → Option Frame) (blocks : List (Block A Ω k L))
    (items : List (Option Item)) : Bool :=
  blocks.all fun b =>
    match executeBlock execute b (seedFrame items) with
    | none => false
    | some f =>
      if ((terminator b).map Node.isExit).getD false then true
      else
        f.stack.isEmpty &&
          (items.zipIdx.all fun p => exitConforms (f.locals[p.2]?.getD .uninitialized) p.1)

/-! ## State ids and block order -/

def drawId (nextInt : G → Nat → Nat × G) (used : List Nat) : Nat → G → Option (Nat × G)
  | 0, _ => none
  | fuel + 1, g =>
    let (id, g) := nextInt g 0x40000000
    if id ∈ used then drawId nextInt used fuel g else some (id, g)

def assignStateIds (nextInt : G → Nat → Nat × G) (fuel : Nat) :
    Nat → List Nat → G → Option (List Nat × G)
  | 0, _, g => some ([], g)
  | n + 1, used, g => do
    let (id, g) ← drawId nextInt used fuel g
    let (ids, g) ← assignStateIds nextInt fuel n (id :: used) g
    return (id :: ids, g)

def shuffleLoop (nextInt : G → Nat → Nat × G) : Nat → G → List Nat → List Nat
  | 0, _, l => l
  | i + 1, g, l =>
    let (j, g) := nextInt g (i + 2)
    shuffleLoop nextInt i g (swap l (i + 1) j)

def shuffle (nextInt : G → Nat → Nat × G) (g : G) (l : List Nat) : List Nat :=
  shuffleLoop nextInt (l.length - 1) g l

/-! ## Rebuilding -/

inductive NewLabel (L : Type) where
  | dispatch
  | block (i : Nat)
  | taken (i : Nat)
  | copied (l : L)
deriving DecidableEq

def parameterSlotsFrom : Nat → List ArgType → List Nat
  | _, [] => []
  | slot, arg :: args => slot :: parameterSlotsFrom (slot + arg.size) args

def parameterSlots (m : Method A Ω k L) : List Nat :=
  if m.isStatic then parameterSlotsFrom 0 m.args else 0 :: parameterSlotsFrom 1 m.args

def pushInt {M : Type} (value : Int) : Insn A Ω k M :=
  if -1 ≤ value ∧ value ≤ 5 then .iconst (iconst0 + value)
  else if -128 ≤ value ∧ value ≤ 127 then .bipush value
  else if -32768 ≤ value ∧ value ≤ 32767 then .sipush value
  else .ldc value

def Item.kind : Item → Kind
  | .integer => .int
  | .float => .float
  | .long => .long
  | .double => .double
  | _ => .ref

def defaultStore {M : Type} (slot : Nat) (item : Item) : List (Insn A Ω k M) :=
  [.const0 item.kind, .store item.kind slot]

def defaultStores {M : Type} (params : List Nat) : Nat → List (Option Item) → List (Insn A Ω k M)
  | _, [] => []
  | slot, none :: items => defaultStores params (slot + 1) items
  | slot, some item :: items =>
    (if slot ∈ params then [] else defaultStore slot item) ++ defaultStores params (slot + 1) items

def uniformLocalsArray : List (Option Item) → List Item
  | [] => []
  | [item] => [item.getD .top]
  | item :: next :: rest =>
    if item = some .long ∨ item = some .double then item.getD .top :: uniformLocalsArray rest
    else item.getD .top :: uniformLocalsArray (next :: rest)

def uniformFrame (items : List (Option Item)) : FrameNode :=
  { isNew := true, locals := uniformLocalsArray (items ++ [some .integer]), stack := [] }

def gotoState (id : Nat) : List (Insn A Ω k (NewLabel L)) :=
  [pushInt id, .store .int k, .node (.goto .dispatch)]

def Node.clone : Node A Ω k L → Node A Ω k (NewLabel L)
  | .label l => .label (.copied l)
  | .line => .line
  | .frame f => .frame f
  | .op o => .op o
  | .goto l => .goto (.copied l)
  | .cond c l => .cond c (.copied l)
  | .exit x => .exit x
  | .unsupported => .unsupported

def bodyNodes (b : Block A Ω k L) : Block A Ω k L :=
  match splitTerminator b with
  | some (before, t, after) => if t.endsBlock then before ++ after else b
  | none => b

def blockBody (b : Block A Ω k L) : List (Insn A Ω k (NewLabel L)) :=
  ((bodyNodes b).filter fun n => !n.isFrame).map fun n => .node n.clone

def byLeaderLabel [DecidableEq L] (blocks : List (Block A Ω k L)) (l : L) : Option Nat :=
  blocks.findIdx? fun b => decide (b.head?.bind Node.label? = some l)

def blockEnd [DecidableEq L] (blocks : List (Block A Ω k L)) (ids : List Nat) (frame : FrameNode)
    (i : Nat) (b : Block A Ω k L) : Option (List (Insn A Ω k (NewLabel L))) :=
  match terminator b with
  | some (.goto l) => do
    let target ← byLeaderLabel blocks l
    return gotoState (← ids[target]?)
  | some (.cond c l) => do
    let target ← byLeaderLabel blocks l
    let fall ← ids[i + 1]?
    return [.node (.cond c (.taken i))] ++ gotoState fall ++
      [.node (.label (.taken i)), .node (.frame frame)] ++ gotoState (← ids[target]?)
  | some (.exit x) => some [.node (.exit x)]
  | _ => do
    let fall ← ids[i + 1]?
    return gotoState fall

def emitBlock [DecidableEq L] (blocks : List (Block A Ω k L)) (ids : List Nat) (frame : FrameNode)
    (i : Nat) : Option (List (Insn A Ω k (NewLabel L))) := do
  let b ← blocks[i]?
  let ending ← blockEnd blocks ids frame i b
  return [.node (.label (.block i)), .node (.frame frame)] ++ blockBody b ++ ending

def emitBlocks [DecidableEq L] (blocks : List (Block A Ω k L)) (ids : List Nat)
    (frame : FrameNode) : List Nat → Option (List (Insn A Ω k (NewLabel L)))
  | [] => some []
  | i :: order => do
    let first ← emitBlock blocks ids frame i
    let rest ← emitBlocks blocks ids frame order
    return first ++ rest

def switchCases (ids : List Nat) : List (Int × NewLabel L) :=
  ((ids.zipIdx).insertionSort fun x y => x.1 ≤ y.1).map fun p => ((p.1 : Int), .block p.2)

def prologue (m : Method A Ω k L) (items : List (Option Item)) (first : Nat) :
    List (Insn A Ω k (NewLabel L)) :=
  defaultStores (parameterSlots m) 0 items ++ gotoState first

def dispatcher (items : List (Option Item)) (ids : List Nat) : List (Insn A Ω k (NewLabel L)) :=
  [.node (.label .dispatch), .node (.frame (uniformFrame items)), .iload k,
    .lookupSwitch (.block 0) (switchCases ids)]

def rebuild [DecidableEq L] (nextInt : G → Nat → Nat × G) (fuel : Nat) (g : G)
    (m : Method A Ω k L) (blocks : List (Block A Ω k L)) (items : List (Option Item)) :
    Option (List (Insn A Ω k (NewLabel L))) := do
  let (ids, g) ← assignStateIds nextInt fuel blocks.length [] g
  let first ← ids[0]?
  let emitted ← emitBlocks blocks ids (uniformFrame items)
    (shuffle nextInt g (List.range blocks.length))
  return prologue m items first ++ dispatcher items ids ++ emitted

def flatten [DecidableEq L] (execute : Node A Ω k L → Frame → Option Frame)
    (verifies : List (Insn A Ω k (NewLabel L)) → Bool) (nextInt : G → Nat → Nat × G) (fuel : Nat)
    (g : G) (m : Method A Ω k L) : Option (List (Insn A Ω k (NewLabel L))) := do
  if !preCheck m then none
  let blocks ← splitBlocks m
  if blocks.length < minBlocks then none
  let frames ← computeLeaderFrames execute m blocks
  let items ← buildUniformLocals k frames
  if !isInductive execute blocks items then none
  let code ← rebuild nextInt fuel g m blocks items
  if !verifies code then none
  return code

end Kseal.Gradle
