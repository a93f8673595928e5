import Kseal.Vm.LowerCorrect
import Kseal.Vm.Retrace

/-!
# Symbolication of crashes

The pc of a fault is turned into the node that the instruction came from. The pc of an entry is the
number of instructions before it, cut to 16 bits (`symbolication_exact_iff`).
-/

namespace Kseal.Vm

open Infra List

/-! ## Where an instruction came from -/

inductive Emitter where
  | node (e : Expr) (id : UInt32)
  | ret (id : UInt32)

variable {em : Emitter} {i : Instr} {a : Expr}

namespace Emitter

def step : Emitter → String
  | node e _ => stepLabel e
  | ret _ => "ir:return"

def id : Emitter → UInt32
  | node _ id => id
  | ret id => id

def site (function : String) (em : Emitter) : SourceSite := ⟨function, em.step, em.id⟩

def Emits (consts : List UInt64) : Emitter → Instr → Prop
  | node e _, i =>
    match e with
    | .const c => ∃ dst k, i = .loadConst dst k ∧ consts[k.toNat]? = some c
    | .input slot => ∃ dst, i = .loadInput dst slot
    | .shl .. | .shr .. | .rotl .. | .rotr .. => ∃ dst, i = unaryInstr e dst
    | .add .. | .sub .. | .mul .. | .xor .. | .and .. | .or .. =>
      ∃ dst src, i = binaryInstr e dst src
  | ret _, i => ∃ src, i = .ret src

theorem Emits.mono {consts consts' : List UInt64} (h : em.Emits consts i)
    (hpre : consts <+: consts') : em.Emits consts' i := by
  cases em with
  | ret id => exact h
  | node e id =>
    cases e with
    | const c =>
      obtain ⟨dst, k, rfl, hk⟩ := h
      obtain ⟨post, rfl⟩ := hpre
      obtain ⟨hlt, -⟩ := List.getElem?_eq_some_iff.mp hk
      exact ⟨dst, k, rfl, by rw [getElem?_append_left hlt]; exact hk⟩
    | _ => exact h

theorem emits_unary {e : Expr} (hu : unaryChild e = some a) (consts : List UInt64) (id : UInt32)
    (dst : UInt8) : (node e id).Emits consts (unaryInstr e dst) := by
  cases e <;> cases hu <;> exact ⟨dst, rfl⟩

theorem emits_binary {e : Expr} (hb : (binaryChildren e).isSome) (consts : List UInt64)
    (id : UInt32) (dst src : UInt8) : (node e id).Emits consts (binaryInstr e dst src) := by
  cases e <;> first | exact ⟨dst, src, rfl⟩ | cases hb

end Emitter

/-- The nodes of an expression in the order of their instructions; ids are given out from the root. -/
def emitters (expr : Expr) (id : UInt32) : List Emitter :=
  match expr with
  | .const _ | .input _ => [.node expr id]
  | .shl a _ | .shr a _ | .rotl a _ | .rotr a _ => emitters a (id + 1) ++ [.node expr id]
  | .add a c | .sub a c | .mul a c | .xor a c | .and a c | .or a c =>
    if isCommutative expr && decide (registerNeed c > registerNeed a) then
      emitters c (id + 1) ++ emitters a (id + 1 + UInt32.ofNat c.size) ++ [.node expr id]
    else emitters a (id + 1) ++ emitters c (id + 1 + UInt32.ofNat a.size) ++ [.node expr id]

def programEmitters (e : Expr) : List Emitter := emitters e 0 ++ [.ret (UInt32.ofNat e.size)]

theorem emitters_unary {e : Expr} (hu : unaryChild e = some a) (id : UInt32) :
    emitters e id = emitters a (id + 1) ++ [.node e id] := by
  cases e <;> cases hu <;> rfl

theorem emitters_binary {e x y : Expr} (hops : Operands e x y) (id : UInt32) :
    emitters e id =
      emitters x (id + 1) ++ emitters y (id + 1 + UInt32.ofNat x.size) ++ [.node e id] := by
  obtain ⟨a, c, hbin, horder⟩ := hops
  split at horder <;> cases horder
  · next hswap => cases e <;> cases hbin <;> exact if_pos hswap
  · next hswap => cases e <;> cases hbin <;> exact if_neg hswap

/-! ## What `gen` records -/

def pcOf (n : Nat) : UInt32 := (UInt16.ofNat n).toUInt32

structure Recorded (b b' : Builder) (ems : List Emitter) : Prop where
  consts : b.consts <+: b'.consts
  pool : b'.consts.length ≤ 255
  function : b'.function = b.function
  instrs : ∃ is, b'.instrs = b.instrs ++ is ∧ List.Forall₂ (fun em i => em.Emits b'.consts i) ems is
  retrace : b'.retrace = b.retrace ++
    ems.mapIdx fun i em => (pcOf (b.instrs.length + i), em.site b.function)

variable {b b' : Builder}

theorem Recorded.length {ems : List Emitter} (h : Recorded b b' ems) :
    b'.instrs.length = b.instrs.length + ems.length := by
  obtain ⟨is, his, hems⟩ := h.instrs
  rw [his, length_append, hems.length_eq]

theorem Recorded.trans {b'' : Builder} {ems ems' : List Emitter} (h : Recorded b b' ems)
    (h' : Recorded b' b'' ems') : Recorded b b'' (ems ++ ems') where
  consts := h.consts.trans h'.consts
  pool := h'.pool
  function := by rw [h'.function, h.function]
  instrs := by
    obtain ⟨is, his, hems⟩ := h.instrs
    obtain ⟨is', his', hems'⟩ := h'.instrs
    refine ⟨is ++ is', by rw [his', his, append_assoc], ?_⟩
    exact rel_append (hems.imp fun _ _ he => he.mono h'.consts) hems'
  retrace := by
    rw [h'.retrace, h.retrace, mapIdx_append, append_assoc, h.length, h.function]
    congr 3
    funext i em
    rw [Nat.add_assoc, Nat.add_comm ems.length]

theorem Recorded.emit (hb : b.consts.length ≤ 255) (h : em.Emits b.consts i) :
    Recorded b (b.emit i em.step em.id).2 [em] where
  consts := prefix_refl _
  pool := hb
  function := rfl
  instrs := ⟨[i], rfl, .cons h .nil⟩
  retrace := rfl

theorem intern_recorded {v : UInt64} {k : UInt8} (hb : b.consts.length ≤ 255)
    (h : intern b v = .ok (k, b')) : Recorded b b' [] ∧ b'.consts[k.toNat]? = some v := by
  obtain ⟨hx, hk⟩ := intern_extends hb h
  have hsame := intern_same h
  refine ⟨⟨hx.consts, hx.pool, hsame.2.2, ⟨[], by simp [hsame.1], .nil⟩, ?_⟩, hk⟩
  simp [hsame.2.1]

theorem nextId_eq (id : UInt32) (m n : Nat) :
    id + 1 + UInt32.ofNat m + UInt32.ofNat n = id + UInt32.ofNat (m + n + 1) := by
  have hone : (1 : UInt32) = UInt32.ofNat 1 := rfl
  rw [UInt32.ofNat_add, UInt32.ofNat_add]
  ac_rfl

/-- **`gen` records the nodes in the order of their instructions.** -/
theorem gen_records {e : Expr} {b b' : Builder} {dst : UInt8} {id id' : UInt32}
    (h : Generates b e dst id b' id') (hb : b.consts.length ≤ 255) :
    Recorded b b' (emitters e id) ∧ id' = id + UInt32.ofNat e.size := by
  induction h with
  | @const b b₁ v k dst id hk =>
    obtain ⟨hrec, hval⟩ := intern_recorded hb hk
    have hemits : (Emitter.node (.const v) id).Emits b₁.consts (.loadConst dst k) :=
      ⟨dst, k, rfl, hval⟩
    exact ⟨hrec.trans (.emit hrec.pool hemits), rfl⟩
  | @input b slot dst id =>
    have hemits : (Emitter.node (.input slot) id).Emits b.consts (.loadInput dst slot) := ⟨dst, rfl⟩
    exact ⟨.emit hb hemits, rfl⟩
  | @unary b b₁ e a dst id id₁ hu _ ih =>
    obtain ⟨hrec, hid⟩ := ih hb
    rw [emitters_unary hu, size_unary hu]
    refine ⟨hrec.trans (.emit hrec.pool (Emitter.emits_unary hu _ id dst)), ?_⟩
    rw [hid, UInt32.ofNat_add, UInt32.add_assoc, UInt32.add_comm 1]
    rfl
  | @binary b b₁ b₂ e x y dst id id₁ id₂ hops _ _ ihx ihy =>
    rw [emitters_binary hops, hops.size_eq]
    obtain ⟨hrec, hid⟩ := ihx hb
    obtain ⟨hrec', hid'⟩ := ihy hrec.pool
    -- the ids go on from the operand that was generated first
    rw [hid] at hrec' hid'
    refine ⟨(hrec.trans hrec').trans (.emit hrec'.pool (Emitter.emits_binary hops.isSome _ id _ _)),
      ?_⟩
    rw [hid', nextId_eq]

theorem length_emitters (e : Expr) (id : UInt32) : (emitters e id).length = e.size := by
  induction e using Expr.shapeInduction generalizing id with
  | hconst c => rfl
  | hinput slot => rfl
  | hunary e a hu ih => rw [emitters_unary hu, size_unary hu, length_append, ih]; rfl
  | hbinary e x y hops ihx ihy =>
    rw [emitters_binary hops, hops.size_eq]
    simp only [length_append, ihx, ihy, length_singleton]

theorem length_programEmitters (e : Expr) : (programEmitters e).length = e.size + 1 := by
  rw [programEmitters, length_append, length_emitters]
  rfl

structure Traced (function : String) (e : Expr) (lp : LoweredProgram) : Prop where
  instrs : List.Forall₂ (fun em i => em.Emits lp.program.consts i) (programEmitters e)
    lp.program.instrs
  retrace : lp.retrace = (programEmitters e).mapIdx fun i em => (pcOf i, em.site function)

/-- **What `lower` records.** -/
theorem lower_traced {function : String} {numInputs : UInt8} {e : Expr} {lp : LoweredProgram}
    (h : lower function numInputs e = .ok lp) : Traced function e lp := by
  obtain ⟨-, -, b, id, hgen, rfl⟩ := lower_ok h
  obtain ⟨hrec, hid⟩ := gen_records hgen (Nat.zero_le _)
  have hemits : (Emitter.ret id).Emits b.consts (.ret 0) := ⟨0, rfl⟩
  have hall := hrec.trans (.emit hrec.pool hemits)
  rw [UInt32.zero_add] at hid
  subst hid
  obtain ⟨is, his, hems⟩ := hall.instrs
  have htable := hall.retrace
  simp only [Builder.new, nil_append, length_nil, Nat.zero_add] at his htable
  refine ⟨?_, htable⟩
  rw [← his] at hems
  exact hems

/-! ## Where a run is -/

variable (words : List UInt64)

theorem exec_node {p : Program} {e : Expr} {id : UInt32} (h : (Emitter.node e id).Emits p.consts i)
    (s : VmState) :
    (∃ s', exec p [] words s i = .next s' ∧ s'.pc = s.pc + 1) ∨
      ∃ slot : UInt8, words[slot.toNat]? = none ∧ exec p [] words s i = .fault .badInputSlot := by
  cases e with
  | const c =>
    obtain ⟨dst, k, rfl, hk⟩ := h
    exact .inl ⟨s.write dst c, by simp only [exec, hk], rfl⟩
  | input slot =>
    obtain ⟨dst, rfl⟩ := h
    cases hslot : words[slot.toNat]? with
    | none => exact .inr ⟨slot, hslot, by simp only [exec, hslot]⟩
    | some w => exact .inl ⟨s.write dst w, by simp only [exec, hslot], rfl⟩
  | shl | shr | rotl | rotr =>
    obtain ⟨dst, rfl⟩ := h
    exact .inl ⟨_, exec_unaryInstr rfl s dst, rfl⟩
  | add | sub | mul | xor | and | or =>
    obtain ⟨dst, src, rfl⟩ := h
    exact .inl ⟨_, exec_binaryInstr rfl s dst src, rfl⟩

theorem exists_of_forall₂ {α β : Type} {R : α → β → Prop} {as : List α} {bs : List β}
    (h : List.Forall₂ R as bs) {k : Nat} {a : α} (ha : as[k]? = some a) :
    ∃ b, bs[k]? = some b ∧ R a b := by
  induction h generalizing k with
  | nil => cases ha
  | cons hab _ ih =>
    cases k with
    | zero =>
      cases ha
      exact ⟨_, rfl, hab⟩
    | succ k => exact ih ha

theorem mem_emitters {e : Expr} {id : UInt32} (h : em ∈ emitters e id) :
    ∃ e' id', em = .node e' id' := by
  induction e using Expr.shapeInduction generalizing id with
  | hconst c => exact ⟨_, _, mem_singleton.mp h⟩
  | hinput slot => exact ⟨_, _, mem_singleton.mp h⟩
  | hunary e a hu ih =>
    rw [emitters_unary hu, mem_append] at h
    rcases h with h | h
    · exact ih h
    · exact ⟨_, _, mem_singleton.mp h⟩
  | hbinary e x y hops ihx ihy =>
    rw [emitters_binary hops, mem_append, mem_append] at h
    rcases h with (h | h) | h
    · exact ihx h
    · exact ihy h
    · exact ⟨_, _, mem_singleton.mp h⟩

theorem programEmitters_lt {e : Expr} {k : Nat} (hk : k < e.size) :
    ∃ e' id, (programEmitters e)[k]? = some (.node e' id) := by
  have hlt : k < (emitters e 0).length := by rw [length_emitters]; exact hk
  obtain ⟨e', id, he⟩ := mem_emitters (getElem_mem hlt)
  refine ⟨e', id, ?_⟩
  rw [programEmitters, getElem?_append_left hlt, getElem?_eq_getElem hlt, he]

theorem programEmitters_size (e : Expr) :
    (programEmitters e)[e.size]? = some (.ret (UInt32.ofNat e.size)) := by
  rw [programEmitters, getElem?_append_right (by rw [length_emitters]), length_emitters,
    Nat.sub_self]
  rfl

variable {words} {function : String} {e : Expr} {lp : LoweredProgram}

variable {s : VmState}

theorem Traced.step_lt (h : Traced function e lp) (words : List UInt64) {s : VmState}
    (hpc : s.pc.toNat < e.size) :
    (∃ s', step lp.program [] words s = .next s' ∧ s'.pc = s.pc + 1) ∨
      ∃ slot : UInt8, words[slot.toNat]? = none ∧
        step lp.program [] words s = .fault .badInputSlot := by
  obtain ⟨e', id, hem⟩ := programEmitters_lt hpc
  obtain ⟨i, hi, hemits⟩ := exists_of_forall₂ h.instrs hem
  rw [step_of_getElem hi]
  exact exec_node words hemits s

theorem Traced.step_ret (h : Traced function e lp) (words : List UInt64) {s : VmState}
    (hpc : s.pc.toNat = e.size) :
    ∃ v, step lp.program [] words s = .ret v := by
  obtain ⟨i, hi, src, rfl⟩ := exists_of_forall₂ h.instrs (programEmitters_size e)
  rw [← hpc] at hi
  rw [step_of_getElem hi]
  exact ⟨_, rfl⟩

variable {n : Nat}

/-- **A run is at the instruction of its own number.** -/
theorem Traced.stepN_pc (h : Traced function e lp) (hsize : e.size < 2 ^ 32) {s' : VmState}
    (hpc : s.pc.toNat ≤ e.size) (hrun : stepN lp.program [] words n s = some s') :
    s'.pc.toNat = s.pc.toNat + n ∧ s'.pc.toNat ≤ e.size := by
  induction n generalizing s with
  | zero =>
    cases hrun
    exact ⟨rfl, hpc⟩
  | succ n ih =>
    rw [stepN] at hrun
    rcases Nat.lt_or_eq_of_le hpc with hlt | heq
    · rcases h.step_lt words hlt with ⟨t, ht, hnext⟩ | ⟨-, -, hfault⟩
      · have hsucc : t.pc.toNat = s.pc.toNat + 1 := by
          rw [hnext]
          exact toNat_pc_succ (by omega)
        rw [ht] at hrun
        obtain ⟨hend, hle⟩ := ih (by omega) hrun
        exact ⟨by omega, hle⟩
      · rw [hfault] at hrun
        cases hrun
    · obtain ⟨v, hv⟩ := h.step_ret words heq
      rw [hv] at hrun
      cases hrun

theorem Traced.exists_stepN (h : Traced function e lp) (words : List UInt64)
    (hwords : 256 ≤ words.length) (hn : s.pc.toNat + n ≤ e.size) (hlt : s.pc.toNat + n < 2 ^ 32) :
    ∃ s', stepN lp.program [] words n s = some s' ∧ s'.pc.toNat = s.pc.toNat + n := by
  induction n generalizing s with
  | zero => exact ⟨s, rfl, rfl⟩
  | succ n ih =>
    rcases h.step_lt words (s := s) (by omega) with ⟨t, ht, hnext⟩ | ⟨slot, hslot, -⟩
    · have hsucc : t.pc.toNat = s.pc.toNat + 1 := by
        rw [hnext]
        exact toNat_pc_succ (by omega)
      obtain ⟨s', hs', hpc⟩ := ih (s := t) (by omega) (by omega)
      exact ⟨s', by rw [stepN, ht]; exact hs', by omega⟩
    · have hbyte : slot.toNat < 256 := slot.toNat_lt
      rw [List.getElem?_eq_none_iff] at hslot
      omega

theorem Traced.runIrWithFuel_eq (h : Traced function e lp) (hn : n ≤ e.size) (hlt : n < 2 ^ 32) :
    runIrWithFuel lp.program (List.replicate 256 0) (UInt64.ofNat n) =
      .error ⟨⟨UInt32.ofNat n⟩, .outOfFuel⟩ := by
  have hzero : (initState 0).pc.toNat = 0 := rfl
  obtain ⟨s', hrun, hpc⟩ := h.exists_stepN (List.replicate 256 0)
    (by rw [length_replicate]) (n := n) (s := initState 0) (by omega) (by omega)
  have hfuel : (UInt64.ofNat n).toNat = n + 0 := by
    exact Nat.mod_eq_of_lt (by omega)
  have hframe : s'.pc = UInt32.ofNat n := by
    apply UInt32.toNat_inj.mp
    rw [hpc, hzero, Nat.zero_add, UInt32.toNat_ofNat', Nat.mod_eq_of_lt hlt]
  rw [runIrWithFuel, runCore, hfuel, runLoop_stepN 0 hrun, ← hframe]
  rfl

/-! ## What the map says -/

theorem toNat_pcOf (n : Nat) : (pcOf n).toNat = n % 2 ^ 16 := by
  rw [pcOf, UInt16.toNat_toUInt32, UInt16.toNat_ofNat']

def resolvedEntries (lp : LoweredProgram) : List (UInt32 × ResolvedSite) :=
  lp.retrace.map fun entry => (entry.1, entry.2.resolved)

theorem Traced.resolvedEntries_eq (h : Traced function e lp) :
    resolvedEntries lp =
      (programEmitters e).mapIdx fun i em => (pcOf i, (em.site function).resolved) := by
  rw [resolvedEntries, h.retrace]
  apply ext_getElem
  · simp
  · simp

theorem Traced.resolve_eq (h : Traced function e lp) (hsize : e.size < 2 ^ 16)
    (hem : (programEmitters e)[n]? = some em) :
    Symbolicator.resolve ⟨resolvedEntries lp⟩ ⟨pcOf n⟩ = some (em.site function).resolved := by
  obtain ⟨hlt, rfl⟩ := List.getElem?_eq_some_iff.mp hem
  have hlen := length_programEmitters e
  have hfind : (resolvedEntries lp).find? (fun entry => entry.1 == pcOf n) =
      some (pcOf n, ((programEmitters e)[n].site function).resolved) := by
    rw [find?_eq_some_iff_getElem, h.resolvedEntries_eq]
    refine ⟨by simp, n, by simpa using hlt, by simp, ?_⟩
    intro j hj
    have hne : pcOf j ≠ pcOf n := by
      intro heq
      have hnat := congrArg UInt32.toNat heq
      rw [toNat_pcOf, toNat_pcOf] at hnat
      omega
    simpa using hne
  rw [Symbolicator.resolve, hfind]
  rfl

theorem Traced.resolve_none (h : Traced function e lp) {pc : UInt32} (hpc : 2 ^ 16 ≤ pc.toNat)
    (k : Nat) : Symbolicator.resolve ⟨(resolvedEntries lp).take k⟩ ⟨pc⟩ = none := by
  have hfind : ((resolvedEntries lp).take k).find? (fun entry => entry.1 == pc) = none := by
    rw [find?_eq_none, h.resolvedEntries_eq]
    intro entry hentry
    obtain ⟨i, hi, rfl⟩ := mem_mapIdx.mp (mem_of_mem_take hentry)
    intro heq
    have hnat := congrArg UInt32.toNat (beq_iff_eq.mp heq)
    rw [toNat_pcOf] at hnat
    omega
  rw [Symbolicator.resolve, hfind]
  rfl

theorem Emitter.length_step_lt (em : Emitter) : (utf8 em.step).length < 2 ^ 16 := by
  cases em with
  | ret => simp only [step]; decide +kernel
  | node e => cases e <;> simp only [step, stepLabel] <;> decide +kernel

theorem Traced.short (h : Traced function e lp) (hname : (utf8 function).length < 2 ^ 16) :
    ∀ entry ∈ lp.retrace, entry.2.Short := by
  intro entry hentry
  rw [h.retrace] at hentry
  obtain ⟨i, hi, rfl⟩ := mem_mapIdx.mp hentry
  exact ⟨hname, Emitter.length_step_lt _⟩

/-! ## Faults -/

/--
A frame is symbolicated: opening the sealed map and resolving the frame gives the label and the id
of what emitted the instruction at its pc.
-/
def Symbolicated (lib : RetraceLib) (e : Expr) (lp : LoweredProgram) (seed : BuildSeed)
    (buildHash : Block32) (routine : String) (frame : VmFrame) : Prop :=
  ∃ em i sym site, (programEmitters e)[frame.pc.toNat]? = some em ∧
    lp.program.instrs[frame.pc.toNat]? = some i ∧ em.Emits lp.program.consts i ∧
    Symbolicator.open lib (encryptMap lib lp.retrace seed buildHash routine) seed buildHash routine =
      .ok sym ∧
    sym.resolve frame = some site ∧ site.step = em.step ∧ site.sourceLine = em.id

theorem Traced.not_symbolicated (h : Traced function e lp) {lib : RetraceLib} (hlib : lib.Lawful)
    (hname : (utf8 function).length < 2 ^ 16) {frame : VmFrame} (hpc : 2 ^ 16 ≤ frame.pc.toNat)
    (seed : BuildSeed) (buildHash : Block32) (routine : String) :
    ¬ Symbolicated lib e lp seed buildHash routine frame := by
  rintro ⟨em, i, sym, site, -, -, -, hsym, hsite, -, -⟩
  rw [open_encryptMap hlib (h.short hname) seed buildHash routine] at hsym
  cases hsym
  rw [map_take, ← resolvedEntries, h.resolve_none hpc] at hsite
  cases hsite

/-- **A frame within a program whose pcs fit is.** -/
theorem Traced.symbolicated (h : Traced function e lp) {lib : RetraceLib} (hlib : lib.Lawful)
    (hname : (utf8 function).length < 2 ^ 16) (hsize : e.size < 2 ^ 16) {frame : VmFrame}
    (hpc : frame.pc.toNat ≤ e.size) (seed : BuildSeed) (buildHash : Block32) (routine : String) :
    Symbolicated lib e lp seed buildHash routine frame := by
  have hlt : frame.pc.toNat < (programEmitters e).length := by
    rw [length_programEmitters]
    omega
  obtain ⟨i, hi, hemits⟩ := exists_of_forall₂ h.instrs (getElem?_eq_getElem hlt)
  have hpcOf : pcOf frame.pc.toNat = frame.pc := by
    apply UInt32.toNat_inj.mp
    exact Nat.mod_eq_of_lt (by omega)
  have hresolve := h.resolve_eq hsize (getElem?_eq_getElem hlt)
  rw [hpcOf] at hresolve
  have hopen := open_encryptMap hlib (h.short hname) seed buildHash routine
  have hlen : lp.retrace.length % 2 ^ 32 = lp.retrace.length := by
    rw [h.retrace, length_mapIdx, length_programEmitters]
    exact Nat.mod_eq_of_lt (by omega)
  rw [hlen, take_length] at hopen
  exact ⟨_, i, _, _, getElem?_eq_getElem hlt, hi, hemits, hopen, hresolve, rfl, rfl⟩

theorem Traced.frame_le (h : Traced function e lp) (hsize : e.size < 2 ^ 32) {fuel : UInt64}
    {err : VmError} (herr : runIrWithFuel lp.program words fuel = .error err) :
    err.frame.pc.toNat ≤ e.size := by
  obtain ⟨n, s', -, hrun, hend⟩ := runLoop_cases lp.program [] words fuel.toNat (initState 0)
  obtain ⟨-, hle⟩ := h.stepN_pc hsize (Nat.zero_le _) hrun
  have hframe : err.frame.pc = s'.pc := by
    rcases hend with ⟨-, hloop⟩ | ⟨v, -, hloop⟩ | ⟨f, -, hloop⟩ <;>
      cases hloop.symm.trans herr <;> rfl
  rw [hframe]
  exact hle

/-- **Which programs have all their faults resolved**, if the name of the routine fits its field. -/
theorem symbolication_exact_iff {lib : RetraceLib} (hlib : lib.Lawful) {function : String}
    (hname : (utf8 function).length < 2 ^ 16) {numInputs : UInt8} {e : Expr} {lp : LoweredProgram}
    (h : lower function numInputs e = .ok lp) (seed : BuildSeed) (buildHash : Block32)
    (routine : String) :
    (∀ words fuel err, runIrWithFuel lp.program words fuel = .error err →
        Symbolicated lib e lp seed buildHash routine err.frame) ↔ e.size < 2 ^ 16 := by
  have htraced := lower_traced h
  constructor
  · intro hall
    by_contra hsize
    -- The run that stops right after the first 65536 instructions has no entry.
    have hrun := htraced.runIrWithFuel_eq (Nat.le_of_not_lt hsize) (by omega)
    refine htraced.not_symbolicated hlib hname ?_ seed buildHash routine (hall _ _ _ hrun)
    decide
  · intro hsize words fuel err herr
    exact htraced.symbolicated hlib hname hsize (htraced.frame_le (by omega) herr) seed buildHash
      routine

/-! ## A routine that faults, and one that is too long -/

namespace Sample

def seed : BuildSeed := ⟨Vector.replicate 32 7⟩

def buildHash : Block32 := Vector.replicate 32 9

def entries : List (UInt32 × SourceSite) := [(0, ⟨"f", "ir:input", 0⟩), (1, ⟨"f", "ir:return", 1⟩)]

def keyInput : Bytes :=
  ascii "kseal/vmspike/retrace-aead-key" ++ List.replicate 32 7 ++ List.replicate 32 9 ++
    [0, 0, 0, 0, 0, 0, 0, 1] ++ ascii "r"

def nonceInput : Bytes :=
  ascii "kseal/vmspike/retrace-aead-nonce" ++ List.replicate 32 7 ++ List.replicate 32 9 ++
    [0, 0, 0, 0, 0, 0, 0, 1] ++ ascii "r" ++ entryTable entries

def keyDigest : Block32 :=
  #v[140, 159, 70, 143, 196, 112, 122, 43, 93, 176, 254, 185, 69, 203, 104, 244, 148, 249, 68, 94,
    10, 247, 163, 220, 148, 252, 140, 92, 49, 162, 48, 220]

def nonceDigest : Block32 :=
  #v[147, 95, 131, 156, 37, 219, 235, 93, 182, 3, 91, 200, 95, 204, 237, 128, 42, 10, 153, 18, 62,
    196, 134, 147, 247, 217, 202, 40, 152, 210, 177, 87]

def ciphertext : Bytes :=
  [166, 233, 88, 118, 65, 180, 10, 53, 243, 206, 145, 133, 27, 59, 79, 164, 214, 64, 112, 104, 16,
    254, 50, 111, 233, 92, 196, 30, 225, 121, 142, 25, 39, 17, 153, 252, 162, 123, 228, 246, 59,
    241, 34, 151, 23, 104, 210, 231, 36, 33, 227, 186, 202, 251, 217, 186, 240, 45, 158, 125, 123,
    245, 8]

def sealed (key nonce aad : Bytes) : Prop :=
  key = keyDigest.toList ∧ nonce = nonceDigest.toList.take 12 ∧
    aad = retraceHeader buildHash (nonceDigest.toList.take 12)

instance (key nonce aad : Bytes) : Decidable (sealed key nonce aad) :=
  inferInstanceAs (Decidable (_ ∧ _ ∧ _))

def lib : RetraceLib where
  sha256 input :=
    if input = keyInput then keyDigest else if input = nonceInput then nonceDigest
    else Vector.replicate 32 0
  encrypt key nonce aad msg :=
    if sealed key nonce aad ∧ msg = entryTable entries then ciphertext
    else msg ++ List.replicate 16 0
  decrypt key nonce aad ct :=
    if sealed key nonce aad ∧ ct = ciphertext then some (entryTable entries)
    else some (ct.take (ct.length - 16))
  fromUtf8Lossy bs := (String.fromUTF8? ⟨bs.toArray⟩).getD ""

theorem lawful_lib : lib.Lawful where
  decrypts key nonce aad msg := by
    by_cases hreal : sealed key nonce aad ∧ msg = entryTable entries
    · simp only [lib]
      rw [if_pos hreal, if_pos ⟨hreal.1, rfl⟩, hreal.2]
    · have hne : msg ++ List.replicate 16 0 ≠ ciphertext := by
        intro heq
        have hlast := congrArg List.getLast? heq
        rw [getLast?_append] at hlast
        exact absurd (show (some 0 : Option UInt8) = some 8 from hlast) (by decide)
      simp only [lib]
      rw [if_neg hreal, if_neg (fun h => hne h.2)]
      simp
  length key nonce aad msg := by
    simp only [lib]
    split
    · next hreal =>
      rw [hreal.2]
      decide +kernel
    · simp
  text s := by
    have hbytes : (⟨(utf8 s).toArray⟩ : ByteArray) = s.toByteArray := rfl
    simp only [lib]
    rw [hbytes, String.fromUTF8?, dif_pos s.isValidUTF8]
    rfl

def chain : Nat → Expr
  | 0 => .const 1
  | n + 1 => .shl (chain n) 1

theorem size_chain (n : Nat) : (chain n).size = n + 1 := by
  induction n with
  | zero => rfl
  | succ n ih => rw [chain, Expr.size, ih]

theorem gen_chain (n : Nat) (id : UInt32) :
    ∃ r, gen (Builder.new "f" []) (chain n) 0 id = .ok r := by
  induction n generalizing id with
  | zero => exact ⟨_, rfl⟩
  | succ n ih =>
    obtain ⟨r, hr⟩ := ih (id + 1)
    rw [gen_unary rfl, hr]
    exact ⟨_, rfl⟩

theorem lower_chain (n : Nat) : ∃ lp, lower "f" 0 (chain n) = .ok lp := by
  have hneed : registerNeed (chain n) = 1 ∧ maxInputSlot (chain n) = none := by
    induction n with
    | zero => exact ⟨rfl, rfl⟩
    | succ n ih => exact ih
  obtain ⟨r, hr⟩ := gen_chain n 0
  unfold lower
  rw [if_neg (by rw [hneed.1]; decide), hneed.2]
  simp only [lower.emitAll, hr]
  exact ⟨_, rfl⟩

end Sample

theorem symbolication_exact_iff_sample :
    ∃ lp, lower "f" 1 (.input 0) = .ok lp ∧
      runIrWithFuel lp.program [] 10 = .error ⟨⟨0⟩, .badInputSlot⟩ ∧
      Symbolicated Sample.lib (.input 0) lp Sample.seed Sample.buildHash "r" ⟨0⟩ := by
  refine ⟨_, rfl, rfl, ?_⟩
  exact (@symbolication_exact_iff _ Sample.lawful_lib "f" (by decide +kernel) 1 (.input 0) _ rfl _ _
    _).mpr (by decide) [] 10 ⟨⟨0⟩, .badInputSlot⟩ rfl

theorem long_routine_not_symbolicated :
    ∃ lp, lower "f" 0 (Sample.chain 65536) = .ok lp ∧
      runIrWithFuel lp.program (List.replicate 256 0) 65536 = .error ⟨⟨65536⟩, .outOfFuel⟩ ∧
      ∀ lib : RetraceLib, lib.Lawful → ∀ seed buildHash routine,
        ¬ Symbolicated lib (Sample.chain 65536) lp seed buildHash routine ⟨65536⟩ := by
  obtain ⟨lp, hlp⟩ := Sample.lower_chain 65536
  have htraced := lower_traced hlp
  refine ⟨lp, hlp, ?_, ?_⟩
  · exact htraced.runIrWithFuel_eq (n := 65536) (by rw [Sample.size_chain]; omega) (by omega)
  · intro lib hlib seed buildHash routine
    exact htraced.not_symbolicated hlib (by decide +kernel) (by decide) seed buildHash routine

end Kseal.Vm
