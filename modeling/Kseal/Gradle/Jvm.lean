import Kseal.Infra.Machine
import Kseal.Infra.Utf16

/-!
# A fragment of the JVM

The instructions of the decoder class, on a heap of byte arrays, arrays of them and strings. Where
the JVM would throw or reject the class, the machine is stuck. `decodeUtf8` is `new String(bytes,
UTF_8)`.
-/

namespace Kseal.Jvm

open Infra

inductive Field where
  | C
  | K
deriving DecidableEq

inductive Charset where
  | iso88591
  | utf8
deriving DecidableEq

inductive Value where
  | int (n : Int32)
  /-- A reference to an array or a string, or `null`. -/
  | ref (address : Option Nat)
  | charset (c : Charset)
deriving DecidableEq

inductive Obj where
  /-- `byte[]` -/
  | bytes (bs : Bytes)
  /-- `byte[][]` -/
  | refs (rs : List (Option Nat))
  /-- A `String`, without content before its constructor has run. -/
  | string (s : Option Utf16)
deriving DecidableEq

structure World where
  heap : List Obj
  c : Option Nat
  k : Option Nat

def World.static (w : World) : Field → Option Nat
  | .C => w.c
  | .K => w.k

def World.setStatic (w : World) (a : Option Nat) : Field → World
  | .C => { w with c := a }
  | .K => { w with k := a }

def World.withHeap (w : World) (heap : List Obj) : World := { w with heap := heap }

@[simp] theorem World.heap_withHeap (w : World) (heap : List Obj) : (w.withHeap heap).heap = heap := rfl

@[simp] theorem World.static_withHeap (w : World) (heap : List Obj) (f : Field) :
    (w.withHeap heap).static f = w.static f := by
  cases f <;> rfl

@[simp] theorem World.withHeap_withHeap (w : World) (heap heap' : List Obj) :
    (w.withHeap heap).withHeap heap' = w.withHeap heap' := rfl

@[simp] theorem World.static_setStatic (w : World) (a : Option Nat) (f : Field) :
    (w.setStatic a f).static f = a := by
  cases f <;> rfl

@[simp] theorem World.setStatic_withHeap (w : World) (a : Option Nat) (f : Field) (heap : List Obj) :
    (w.withHeap heap).setStatic a f = (w.setStatic a f).withHeap heap := by
  cases f <;> rfl

@[simp] theorem World.withHeap_self (w : World) : w.withHeap w.heap = w := rfl

structure Frame where
  world : World
  /-- The operand stack, its top first. -/
  stack : List Value
  locals : List (Option Value)

inductive Op where
  | iconst (n : Int32)
  | bipush (n : Int8)
  | sipush (n : Int16)
  | ldcInt (n : Int32)
  | ldcString (s : Utf16)
  | getstatic (f : Field)
  | putstatic (f : Field)
  | getstaticCharset (c : Charset)
  | iload (n : Nat)
  | istore (n : Nat)
  | aload (n : Nat)
  | astore (n : Nat)
  | iinc (n : Nat) (delta : Int32)
  | aaload
  | aastore
  | baload
  | bastore
  | arraylength
  | newarrayByte
  | anewarray
  | ixor
  | i2b
  | dup
  | newString
  /-- `String.getBytes(Charset)` -/
  | invokeGetBytes
  /-- `new String(byte[], Charset)` -/
  | invokeStringInit
deriving DecidableEq

def index (i : Int32) : Option Nat := if i.toInt < 0 then none else some i.toInt.toNat

theorem toInt_ofNat {n : Nat} (h : n < 2 ^ 31) : (Int32.ofNat n).toInt = n :=
  Int32.toInt_ofNat_of_lt h

theorem index_ofNat {n : Nat} (h : n < 2 ^ 31) : index (Int32.ofNat n) = some n := by
  unfold index
  rw [toInt_ofNat h, if_neg (by omega), Int.toNat_natCast]

def ofByte (b : UInt8) : Int32 := b.toInt8.toInt32

def toByte (n : Int32) : UInt8 := n.toInt8.toUInt8

def latin1Bytes (s : Utf16) : Bytes :=
  (scan s).map fun c => if (c.getD '?').toNat < 256 then UInt8.ofNat (c.getD '?').toNat else 63

def Charset.encode : Charset → Utf16 → Bytes
  | .iso88591, s => latin1Bytes s
  | .utf8, s => Infra.utf8 (text s)

section
variable (decodeUtf8 : Bytes → Utf16)

def Charset.decode : Charset → Bytes → Utf16
  | .iso88591, bs => bs.map UInt8.toUInt16
  | .utf8, bs => decodeUtf8 bs

def Frame.push (f : Frame) (v : Value) : Frame := { f with stack := v :: f.stack }

def Frame.alloc (f : Frame) (o : Obj) : Frame :=
  { f with world := f.world.withHeap (f.world.heap ++ [o])
           stack := .ref (some f.world.heap.length) :: f.stack }

def Frame.setObj (f : Frame) (a : Nat) (o : Obj) : Frame :=
  { f with world := f.world.withHeap (f.world.heap.set a o) }

def Op.exec : Op → Frame → Option Frame
  | .iconst n, f => some (f.push (.int n))
  | .bipush n, f => some (f.push (.int n.toInt32))
  | .sipush n, f => some (f.push (.int n.toInt32))
  | .ldcInt n, f => some (f.push (.int n))
  | .ldcString s, f => some (f.alloc (.string (some s)))
  | .getstatic fld, f => some (f.push (.ref (f.world.static fld)))
  | .putstatic fld, ⟨w, .ref a :: stack, locals⟩ => some ⟨w.setStatic a fld, stack, locals⟩
  | .getstaticCharset c, f => some (f.push (.charset c))
  | .iload n, f =>
    match f.locals[n]? with
    | some (some (.int v)) => some (f.push (.int v))
    | _ => none
  | .istore n, ⟨w, .int v :: stack, locals⟩ => some ⟨w, stack, locals.set n (some (.int v))⟩
  | .aload n, f =>
    match f.locals[n]? with
    | some (some (.ref a)) => some (f.push (.ref a))
    | _ => none
  | .astore n, ⟨w, .ref a :: stack, locals⟩ => some ⟨w, stack, locals.set n (some (.ref a))⟩
  | .iinc n d, f =>
    match f.locals[n]? with
    | some (some (.int v)) => some { f with locals := f.locals.set n (some (.int (v + d))) }
    | _ => none
  | .aaload, ⟨w, .int i :: .ref (some a) :: stack, locals⟩ =>
    match w.heap[a]?, index i with
    | some (.refs rs), some i => rs[i]?.map fun r => ⟨w, .ref r :: stack, locals⟩
    | _, _ => none
  | .aastore, ⟨w, .ref b :: .int i :: .ref (some a) :: stack, locals⟩ =>
    match w.heap[a]?, index i with
    | some (.refs rs), some i =>
      if i < rs.length then some (Frame.setObj ⟨w, stack, locals⟩ a (.refs (rs.set i b)))
      else none
    | _, _ => none
  | .baload, ⟨w, .int i :: .ref (some a) :: stack, locals⟩ =>
    match w.heap[a]?, index i with
    | some (.bytes bs), some i => bs[i]?.map fun b => ⟨w, .int (ofByte b) :: stack, locals⟩
    | _, _ => none
  | .bastore, ⟨w, .int v :: .int i :: .ref (some a) :: stack, locals⟩ =>
    match w.heap[a]?, index i with
    | some (.bytes bs), some i =>
      if i < bs.length then some (Frame.setObj ⟨w, stack, locals⟩ a (.bytes (bs.set i (toByte v))))
      else none
    | _, _ => none
  | .arraylength, ⟨w, .ref (some a) :: stack, locals⟩ =>
    match w.heap[a]? with
    | some (.bytes bs) => some ⟨w, .int (.ofNat bs.length) :: stack, locals⟩
    | some (.refs rs) => some ⟨w, .int (.ofNat rs.length) :: stack, locals⟩
    | _ => none
  | .newarrayByte, ⟨w, .int n :: stack, locals⟩ =>
    (index n).map fun n => Frame.alloc ⟨w, stack, locals⟩ (.bytes (List.replicate n 0))
  | .anewarray, ⟨w, .int n :: stack, locals⟩ =>
    (index n).map fun n => Frame.alloc ⟨w, stack, locals⟩ (.refs (List.replicate n none))
  | .ixor, ⟨w, .int b :: .int a :: stack, locals⟩ => some ⟨w, .int (a ^^^ b) :: stack, locals⟩
  | .i2b, ⟨w, .int a :: stack, locals⟩ => some ⟨w, .int (ofByte (toByte a)) :: stack, locals⟩
  | .dup, ⟨w, v :: stack, locals⟩ => some ⟨w, v :: v :: stack, locals⟩
  | .newString, f => some (f.alloc (.string none))
  | .invokeGetBytes, ⟨w, .charset c :: .ref (some a) :: stack, locals⟩ =>
    match w.heap[a]? with
    | some (.string (some s)) => some (Frame.alloc ⟨w, stack, locals⟩ (.bytes (c.encode s)))
    | _ => none
  | .invokeStringInit, ⟨w, .charset c :: .ref (some b) :: .ref (some a) :: stack, locals⟩ =>
    match w.heap[b]?, w.heap[a]? with
    | some (.bytes bs), some (.string none) =>
      some (Frame.setObj ⟨w, stack, locals⟩ a (.string (some (c.decode decodeUtf8 bs))))
    | _, _ => none
  | _, _ => none

end

/-! ## Methods -/

inductive Insn where
  | op (o : Op)
  | label (l : Nat)
  | goto (l : Nat)
  | ifIcmpge (l : Nat)
  | areturn
  | voidReturn
deriving DecidableEq

def seek (l : Nat) : List Insn → Option (List Insn)
  | [] => none
  | .label l' :: rest => if l' = l then some rest else seek l rest
  | _ :: rest => seek l rest

structure State where
  rest : List Insn
  frame : Frame

section
variable (decodeUtf8 : Bytes → Utf16) (code : List Insn)

def step (s : State) : Move State Empty (World × Option Value) :=
  match s.rest with
  | [] => .stuck
  | .op o :: rest =>
    match o.exec decodeUtf8 s.frame with
    | some f => .go none ⟨rest, f⟩
    | none => .stuck
  | .label _ :: rest => .go none ⟨rest, s.frame⟩
  | .goto l :: _ =>
    match seek l code with
    | some rest => .go none ⟨rest, s.frame⟩
    | none => .stuck
  | .ifIcmpge l :: rest =>
    match s.frame with
    | ⟨w, .int b :: .int a :: stack, locals⟩ =>
      if b ≤ a then
        match seek l code with
        | some rest => .go none ⟨rest, w, stack, locals⟩
        | none => .stuck
      else .go none ⟨rest, w, stack, locals⟩
    | _ => .stuck
  | .areturn :: _ =>
    match s.frame.stack with
    | .ref a :: _ => .done none (s.frame.world, some (.ref a))
    | _ => .stuck
  | .voidReturn :: _ => .done none (s.frame.world, none)

def enter (w : World) (args : List Value) (others : Nat) : State :=
  ⟨code, w, [], args.map some ++ List.replicate others none⟩

end

/-! ## Running -/

variable {decodeUtf8 : Bytes → Utf16} {code : List Insn}

/-! ### One rule for each instruction -/

section exec

variable {w : World} {stack : List Value} {locals : List (Option Value)} {a b i n : Nat} {v : Int32}

theorem exec_iconst : (Op.iconst v).exec decodeUtf8 ⟨w, stack, locals⟩ =
    some ⟨w, .int v :: stack, locals⟩ := rfl

theorem exec_bipush (x : Int8) : (Op.bipush x).exec decodeUtf8 ⟨w, stack, locals⟩ =
    some ⟨w, .int x.toInt32 :: stack, locals⟩ := rfl

theorem exec_sipush (x : Int16) : (Op.sipush x).exec decodeUtf8 ⟨w, stack, locals⟩ =
    some ⟨w, .int x.toInt32 :: stack, locals⟩ := rfl

theorem exec_ldcString (s : Utf16) : (Op.ldcString s).exec decodeUtf8 ⟨w, stack, locals⟩ =
    some ⟨w.withHeap (w.heap ++ [.string (some s)]), .ref (some w.heap.length) :: stack, locals⟩ := rfl

theorem exec_newString : Op.newString.exec decodeUtf8 ⟨w, stack, locals⟩ =
    some ⟨w.withHeap (w.heap ++ [.string none]), .ref (some w.heap.length) :: stack, locals⟩ := rfl

theorem exec_getstatic (f : Field) : (Op.getstatic f).exec decodeUtf8 ⟨w, stack, locals⟩ =
    some ⟨w, .ref (w.static f) :: stack, locals⟩ := rfl

theorem exec_putstatic (f : Field) (r : Option Nat) :
    (Op.putstatic f).exec decodeUtf8 ⟨w, .ref r :: stack, locals⟩ =
      some ⟨w.setStatic r f, stack, locals⟩ := rfl

theorem exec_getstaticCharset (c : Charset) :
    (Op.getstaticCharset c).exec decodeUtf8 ⟨w, stack, locals⟩ =
      some ⟨w, .charset c :: stack, locals⟩ := rfl

theorem exec_istore : (Op.istore n).exec decodeUtf8 ⟨w, .int v :: stack, locals⟩ =
    some ⟨w, stack, locals.set n (some (.int v))⟩ := rfl

theorem exec_astore (r : Option Nat) : (Op.astore n).exec decodeUtf8 ⟨w, .ref r :: stack, locals⟩ =
    some ⟨w, stack, locals.set n (some (.ref r))⟩ := rfl

theorem exec_dup (x : Value) : Op.dup.exec decodeUtf8 ⟨w, x :: stack, locals⟩ =
    some ⟨w, x :: x :: stack, locals⟩ := rfl

theorem exec_ixor (u v : Int32) : Op.ixor.exec decodeUtf8 ⟨w, .int v :: .int u :: stack, locals⟩ =
    some ⟨w, .int (u ^^^ v) :: stack, locals⟩ := rfl

theorem exec_i2b : Op.i2b.exec decodeUtf8 ⟨w, .int v :: stack, locals⟩ =
    some ⟨w, .int (ofByte (toByte v)) :: stack, locals⟩ := rfl

theorem exec_iload (h : locals[n]? = some (some (.int v))) :
    (Op.iload n).exec decodeUtf8 ⟨w, stack, locals⟩ = some ⟨w, .int v :: stack, locals⟩ := by
  unfold Op.exec
  simp [Frame.push, h]

theorem exec_aload (h : locals[n]? = some (some (.ref (some a)))) :
    (Op.aload n).exec decodeUtf8 ⟨w, stack, locals⟩ = some ⟨w, .ref (some a) :: stack, locals⟩ := by
  unfold Op.exec
  simp [Frame.push, h]

theorem exec_iinc (d : Int32) (h : locals[n]? = some (some (.int v))) :
    (Op.iinc n d).exec decodeUtf8 ⟨w, stack, locals⟩ =
      some ⟨w, stack, locals.set n (some (.int (v + d)))⟩ := by
  unfold Op.exec
  simp [h]

theorem exec_newarrayByte (hn : n < 2 ^ 31) :
    Op.newarrayByte.exec decodeUtf8 ⟨w, .int (.ofNat n) :: stack, locals⟩ =
      some ⟨w.withHeap (w.heap ++ [.bytes (List.replicate n 0)]),
        .ref (some w.heap.length) :: stack, locals⟩ := by
  unfold Op.exec
  simp [Frame.alloc, index_ofNat hn]

theorem exec_anewarray (hn : n < 2 ^ 31) :
    Op.anewarray.exec decodeUtf8 ⟨w, .int (.ofNat n) :: stack, locals⟩ =
      some ⟨w.withHeap (w.heap ++ [.refs (List.replicate n none)]),
        .ref (some w.heap.length) :: stack, locals⟩ := by
  unfold Op.exec
  simp [Frame.alloc, index_ofNat hn]

variable {bs : Bytes}

theorem exec_arraylength (ha : w.heap[a]? = some (.bytes bs)) :
    Op.arraylength.exec decodeUtf8 ⟨w, .ref (some a) :: stack, locals⟩ =
      some ⟨w, .int (.ofNat bs.length) :: stack, locals⟩ := by
  unfold Op.exec
  simp [ha]

variable {rs : List (Option Nat)}

theorem exec_aaload {r : Option Nat} (ha : w.heap[a]? = some (.refs rs)) (hi : i < 2 ^ 31)
    (hr : rs[i]? = some r) :
    Op.aaload.exec decodeUtf8 ⟨w, .int (.ofNat i) :: .ref (some a) :: stack, locals⟩ =
      some ⟨w, .ref r :: stack, locals⟩ := by
  unfold Op.exec
  simp [ha, index_ofNat hi, hr]

theorem exec_aastore (r : Option Nat) (ha : w.heap[a]? = some (.refs rs)) (hi : i < 2 ^ 31)
    (hlt : i < rs.length) :
    Op.aastore.exec decodeUtf8 ⟨w, .ref r :: .int (.ofNat i) :: .ref (some a) :: stack, locals⟩ =
      some ⟨w.withHeap (w.heap.set a (.refs (rs.set i r))), stack, locals⟩ := by
  unfold Op.exec
  simp [Frame.setObj, ha, index_ofNat hi, hlt]

theorem exec_baload {x : UInt8} (ha : w.heap[a]? = some (.bytes bs)) (hi : i < 2 ^ 31)
    (hx : bs[i]? = some x) :
    Op.baload.exec decodeUtf8 ⟨w, .int (.ofNat i) :: .ref (some a) :: stack, locals⟩ =
      some ⟨w, .int (ofByte x) :: stack, locals⟩ := by
  unfold Op.exec
  simp [ha, index_ofNat hi, hx]

theorem exec_bastore (ha : w.heap[a]? = some (.bytes bs)) (hi : i < 2 ^ 31) (hlt : i < bs.length) :
    Op.bastore.exec decodeUtf8 ⟨w, .int v :: .int (.ofNat i) :: .ref (some a) :: stack, locals⟩ =
      some ⟨w.withHeap (w.heap.set a (.bytes (bs.set i (toByte v)))), stack, locals⟩ := by
  unfold Op.exec
  simp [Frame.setObj, ha, index_ofNat hi, hlt]

theorem exec_invokeGetBytes {s : Utf16} (c : Charset) (ha : w.heap[a]? = some (.string (some s))) :
    Op.invokeGetBytes.exec decodeUtf8 ⟨w, .charset c :: .ref (some a) :: stack, locals⟩ =
      some ⟨w.withHeap (w.heap ++ [.bytes (c.encode s)]), .ref (some w.heap.length) :: stack,
        locals⟩ := by
  unfold Op.exec
  simp [Frame.alloc, ha]

theorem exec_invokeStringInit (c : Charset) (hb : w.heap[b]? = some (.bytes bs))
    (ha : w.heap[a]? = some (.string none)) :
    Op.invokeStringInit.exec decodeUtf8
        ⟨w, .charset c :: .ref (some b) :: .ref (some a) :: stack, locals⟩ =
      some ⟨w.withHeap (w.heap.set a (.string (some (c.decode decodeUtf8 bs)))), stack, locals⟩ := by
  unfold Op.exec
  simp [Frame.setObj, ha, hb]

end exec

/-! ### Blocks -/

def execAll (decodeUtf8 : Bytes → Utf16) (ops : List Op) (f : Frame) : Option Frame :=
  ops.foldlM (fun f o => o.exec decodeUtf8 f) f

theorem execAll_nil (f : Frame) : execAll decodeUtf8 [] f = some f := rfl

variable {f f' : Frame}

theorem execAll_cons {o : Op} (h : o.exec decodeUtf8 f = some f') (ops : List Op) :
    execAll decodeUtf8 (o :: ops) f = execAll decodeUtf8 ops f' := by
  rw [execAll, List.foldlM_cons, h]
  rfl

variable {ops : List Op}

theorem execAll_append (h : execAll decodeUtf8 ops f = some f') (ops' : List Op) :
    execAll decodeUtf8 (ops ++ ops') f = execAll decodeUtf8 ops' f' := by
  rw [execAll, List.foldlM_append, ← execAll, h]
  rfl

/-- **Instructions without jumps run as one.** -/
theorem reaches_block (h : execAll decodeUtf8 ops f = some f') (rest : List Insn) :
    Reaches (step decodeUtf8 code) ⟨ops.map .op ++ rest, f⟩ ⟨rest, f'⟩ := by
  induction ops generalizing f with
  | nil =>
    cases h
    exact .refl _
  | cons o ops ih =>
    obtain ⟨f₁, hf₁, hf'⟩ := Option.bind_eq_some_iff.mp h
    refine .head ?_ (ih hf')
    simp [step, hf₁]

end Kseal.Jvm
