import Kseal.Vm.Encode
import Kseal.Vm.Interp

/-!
# What the bytecode format guarantees

`Program.WellFormed` is the class of programs the format can carry, and whatever `decode` accepts is
one of them. `reads_decodeNext` and `yields_decodeNext` are the steps; the loop follows by the rules
for `Reader.many`.
-/

namespace Kseal.Vm

open Infra Infra.Reader List

def Instr.WellFormed (nConsts nInstrs : Nat) : Instr → Prop
  | .loadConst dst k | .mulConst dst k => dst.toNat < numRegs ∧ k.toNat < nConsts
  | .xor dst src | .add dst src | .sub dst src | .mul dst src | .and dst src | .or dst src =>
    dst.toNat < numRegs ∧ src.toNat < numRegs
  | .xorShr dst _ | .rotl dst _ | .shl dst _ | .shr dst _ | .rotr dst _ | .loadInput dst _ =>
    dst.toNat < numRegs
  | .jmpIfEnd target | .jmp target => target.toNat < nInstrs
  | .loadByte dst | .ret dst => dst.toNat < numRegs

structure Program.WellFormed (p : Program) : Prop where
  instrs : ∀ i ∈ p.instrs, i.WellFormed p.consts.length p.instrs.length
  consts_le : p.consts.length ≤ 255
  instrs_le : p.instrs.length ≤ 65535

/-! ## Operands -/

section operands

variable {key : BuildKey} {nConsts nInstrs : Nat}

variable {r : UInt8}

theorem reads_decodeReg (hr : r.toNat < numRegs) :
    ∃ w, key.regPerm[r.toNat]? = some w ∧ Reads (decodeReg key) [w] r := by
  obtain ⟨w, hw, hinv⟩ := key.reg_inverse.forward r hr
  refine ⟨w, hw, (reads_u8 _ w).bind_nil ?_⟩
  rw [hinv]
  exact Reads.pure r

theorem yields_decodeReg : Yields (decodeReg key) fun r => r.toNat < numRegs := by
  refine (yields_true _).bind fun wire _ => ?_
  cases h : key.regInv[wire.toNat]? with
  | none => exact nofun
  | some r =>
    obtain ⟨hlt, -⟩ := List.getElem?_eq_some_iff.mp h
    rw [key.reg_inverse.length_inv] at hlt
    obtain ⟨t, ht, hinv, -⟩ := key.reg_inverse.backward wire hlt
    rw [h, Option.some.injEq] at hinv
    exact Yields.pure (hinv ▸ ht)

variable {mk : UInt8 → UInt8 → Instr} {dst w : UInt8}

theorem reads_decodeRegConst {k : UInt8} (hr : Reads (decodeReg key) [w] dst)
    (hk : k.toNat < nConsts) :
    Reads (decodeRegConst key nConsts mk) [w, k] (mk dst k) :=
  hr.bind ((reads_u8 _ k).bind_nil (Reads.require_bind hk (Reads.pure _)))

theorem reads_decodeRegReg {src v : UInt8} (hd : Reads (decodeReg key) [w] dst)
    (hs : Reads (decodeReg key) [v] src) :
    Reads (decodeRegReg key mk) [w, v] (mk dst src) :=
  hd.bind (hs.bind_nil (Reads.pure _))

theorem reads_decodeRegByte {b : UInt8} (hr : Reads (decodeReg key) [w] dst) :
    Reads (decodeRegByte key mk) [w, b] (mk dst b) :=
  hr.bind ((reads_u8 _ b).bind_nil (Reads.pure _))

theorem reads_decodeTarget {mk : UInt16 → Instr} {target : UInt16}
    (ht : target.toNat < nInstrs) :
    Reads (decodeTarget nInstrs mk) (u16Be target) (mk target) :=
  (reads_u16 _ target).bind_nil (Reads.require_bind ht (Reads.pure _))

theorem reads_decodeOneReg {mk : UInt8 → Instr} (hr : Reads (decodeReg key) [w] r) :
    Reads (decodeOneReg key mk) [w] (mk r) :=
  hr.bind_nil (Reads.pure _)

variable {i : Instr}

theorem reads_decodeInstr (key : BuildKey) (h : i.WellFormed nConsts nInstrs) :
    ∃ bs, encodeOperands key i = some bs ∧
      Reads (decodeInstr i.tag key nConsts nInstrs) bs i := by
  cases i with
  | loadConst dst k | mulConst dst k =>
    obtain ⟨w, hw, hr⟩ := reads_decodeReg h.1
    exact ⟨[w, k], by simp [encodeOperands, hw], reads_decodeRegConst hr h.2⟩
  | xor dst src | add dst src | sub dst src | mul dst src | and dst src | or dst src =>
    obtain ⟨w, hw, hd⟩ := reads_decodeReg h.1
    obtain ⟨v, hv, hs⟩ := reads_decodeReg h.2
    exact ⟨[w, v], by simp [encodeOperands, hw, hv], reads_decodeRegReg hd hs⟩
  | xorShr dst b | rotl dst b | shl dst b | shr dst b | rotr dst b | loadInput dst b =>
    obtain ⟨w, hw, hr⟩ := reads_decodeReg h
    exact ⟨[w, b], by simp [encodeOperands, hw], reads_decodeRegByte hr⟩
  | jmpIfEnd target | jmp target => exact ⟨u16Be target, rfl, reads_decodeTarget h⟩
  | loadByte r | ret r =>
    obtain ⟨w, hw, hr⟩ := reads_decodeReg h
    exact ⟨[w], by simp [encodeOperands, hw], reads_decodeOneReg hr⟩

theorem yields_decodeInstr (tag : UInt8) :
    Yields (decodeInstr tag key nConsts nInstrs) fun i => i.WellFormed nConsts nInstrs := by
  have regConst : ∀ mk : UInt8 → UInt8 → Instr, (∀ dst k, dst.toNat < numRegs →
      k.toNat < nConsts → (mk dst k).WellFormed nConsts nInstrs) →
      Yields (decodeRegConst key nConsts mk) fun i => i.WellFormed nConsts nInstrs :=
    fun mk hmk => yields_decodeReg.bind fun dst hd => (yields_true _).bind fun k _ =>
      yields_require.bind fun _ hk => Yields.pure (hmk dst k hd hk)
  have regReg : ∀ mk : UInt8 → UInt8 → Instr, (∀ dst src, dst.toNat < numRegs →
      src.toNat < numRegs → (mk dst src).WellFormed nConsts nInstrs) →
      Yields (decodeRegReg key mk) fun i => i.WellFormed nConsts nInstrs :=
    fun mk hmk => yields_decodeReg.bind fun dst hd => yields_decodeReg.bind fun src hs =>
      Yields.pure (hmk dst src hd hs)
  have regByte : ∀ mk : UInt8 → UInt8 → Instr, (∀ dst b, dst.toNat < numRegs →
      (mk dst b).WellFormed nConsts nInstrs) →
      Yields (decodeRegByte key mk) fun i => i.WellFormed nConsts nInstrs :=
    fun mk hmk => yields_decodeReg.bind fun dst hd => (yields_true _).bind fun b _ =>
      Yields.pure (hmk dst b hd)
  have target : ∀ mk : UInt16 → Instr, (∀ t, t.toNat < nInstrs →
      (mk t).WellFormed nConsts nInstrs) →
      Yields (decodeTarget nInstrs mk) fun i => i.WellFormed nConsts nInstrs :=
    fun mk hmk => (yields_true _).bind fun t _ => yields_require.bind fun _ ht =>
      Yields.pure (hmk t ht)
  have oneReg : ∀ mk : UInt8 → Instr, (∀ r, r.toNat < numRegs →
      (mk r).WellFormed nConsts nInstrs) →
      Yields (decodeOneReg key mk) fun i => i.WellFormed nConsts nInstrs :=
    fun mk hmk => yields_decodeReg.bind fun r hr => Yields.pure (hmk r hr)
  unfold decodeInstr
  split
  case h_1 | h_4 => exact regConst _ fun _ _ hd hk => ⟨hd, hk⟩
  case h_2 | h_3 | h_11 | h_12 | h_13 | h_14 => exact regReg _ fun _ _ hd hs => ⟨hd, hs⟩
  case h_5 | h_6 | h_15 | h_16 | h_17 | h_18 => exact regByte _ fun _ _ hd => hd
  case h_7 | h_9 => exact target _ fun _ ht => ht
  case h_8 | h_10 => exact oneReg _ fun _ hr => hr
  case h_19 => exact nofun

/-- **Step of the encoder and the decoder.** One instruction, its opcode byte included. -/
theorem reads_decodeNext (key : BuildKey) (h : i.WellFormed nConsts nInstrs) :
    ∃ bs, encodeInstr key i = some bs ∧ Reads (decodeNext key nConsts nInstrs) bs i := by
  obtain ⟨op, hop, hinv⟩ := key.opcode_inverse.forward i.tag i.tag_lt
  obtain ⟨bs, hbs, hreads⟩ := reads_decodeInstr key h
  refine ⟨[op] ++ bs, by simp [encodeInstr, hop, hbs], (reads_u8 _ op).bind ?_⟩
  rw [hinv]
  exact hreads

theorem yields_decodeNext :
    Yields (decodeNext key nConsts nInstrs) fun i => i.WellFormed nConsts nInstrs := by
  refine (yields_true _).bind fun wire _ => ?_
  cases key.opcodeInv[wire.toNat]? with
  | none => exact nofun
  | some tag => exact yields_decodeInstr tag

end operands

/-! ## Whole programs -/

variable {is : List Instr}

theorem reads_encodeInstrs (key : BuildKey) {nConsts nInstrs : Nat}
    (h : ∀ i ∈ is, i.WellFormed nConsts nInstrs) :
    ∃ bs, encodeInstrs key is = some bs ∧
      Reads (many (decodeNext key nConsts nInstrs) is.length) bs is := by
  induction is with
  | nil => exact ⟨[], rfl, Reads.many_nil _⟩
  | cons i is ih =>
    obtain ⟨first, hfirst, hr⟩ := reads_decodeNext key (h i mem_cons_self)
    obtain ⟨rest, hrest, hrs⟩ := ih fun j hj => h j (mem_cons_of_mem _ hj)
    exact ⟨first ++ rest, by simp [encodeInstrs, hfirst, hrest], hr.many_cons hrs⟩

theorem reads_encodeConsts (cs : List UInt64) :
    Reads (many (u64 DecodeError.tooShort) cs.length) (encodeConsts cs) cs := by
  induction cs with
  | nil => exact Reads.many_nil _
  | cons c cs ih =>
    exact (reads_u64 _ c).many_cons ih

theorem decode_masked (key : BuildKey) (raw : Bytes) :
    decode (applyKeystream key.streamKey (raw ++ u64Be (fnv1a64 raw))) key
      = Prod.fst <$> decodeBody key raw := by
  have hlen : (u64Be (fnv1a64 raw)).length = 8 := length_beBytes 8 _
  have hsplit : (raw ++ u64Be (fnv1a64 raw)).length - 8 = raw.length := by
    rw [length_append]; omega
  have hsum : UInt64.ofNat (ofBe (u64Be (fnv1a64 raw))) = fnv1a64 raw := by
    rw [u64Be, ofBe_beBytes_of_lt (fnv1a64 raw).toNat_lt, UInt64.ofNat_toNat]
  simp only [decode, applyKeystream_applyKeystream, hsplit, take_left, drop_left, hsum]
  rw [if_neg (by rw [length_append]; omega), if_neg (by simp)]

theorem encodeInstrs_append (key : BuildKey) {js : List Instr} {bs bs' : Bytes}
    (h : encodeInstrs key is = some bs) (h' : encodeInstrs key js = some bs') :
    encodeInstrs key (is ++ js) = some (bs ++ bs') := by
  induction is generalizing bs with
  | nil => cases h; exact h'
  | cons i is ih =>
    simp only [encodeInstrs, Option.bind_eq_bind, Option.bind_eq_some_iff,
      Option.pure_def, Option.some.injEq] at h
    obtain ⟨first, hfirst, rest, hrest, rfl⟩ := h
    simp [encodeInstrs, hfirst, ih hrest]

/--
What is read back of a program whose operands are in range: as many instructions as its
narrowed count says, the others being taken for trailing bytes.
-/
theorem decode_encode_take {p : Program} (key : BuildKey) (hc : p.consts.length ≤ 255)
    (hp : ∀ i ∈ p.instrs, i.WellFormed p.consts.length (p.instrs.length % 65536)) :
    ∃ b, encode p key = some b ∧
      decode b key = .ok { p with instrs := p.instrs.take (p.instrs.length % 65536) } := by
  obtain ⟨read, hread, hinstrs⟩ := reads_encodeInstrs key
    (fun i hi => hp i (mem_of_mem_take (i := p.instrs.length % 65536) hi))
  obtain ⟨unread, hunread, -⟩ := reads_encodeInstrs key
    (fun i hi => hp i (mem_of_mem_drop (i := p.instrs.length % 65536) hi))
  have hcode : encodeInstrs key p.instrs = some (read ++ unread) := by
    have := encodeInstrs_append key hread hunread
    rwa [take_append_drop] at this
  have hnc : (UInt8.ofNat p.consts.length).toNat = p.consts.length := by
    rw [UInt8.toNat_ofNat', Nat.mod_eq_of_lt (by omega)]
  have hni : (UInt16.ofNat p.instrs.length).toNat = p.instrs.length % 65536 := by
    rw [UInt16.toNat_ofNat']
  have hlen : (p.instrs.take (p.instrs.length % 65536)).length = p.instrs.length % 65536 := by
    rw [length_take, Nat.min_eq_left (Nat.mod_le _ _)]
  rw [hlen] at hinstrs
  refine ⟨_, by rw [encode, hcode]; rfl, ?_⟩
  rw [decode_masked]
  have hbody : Reads (decodeBody key) (magic ++ ([version] ++
      ([UInt8.ofNat p.consts.length] ++ (encodeConsts p.consts ++
        (u16Be (UInt16.ofNat p.instrs.length) ++ read)))))
      { p with instrs := p.instrs.take (p.instrs.length % 65536) } := by
    have hmagic : Reads (take DecodeError.tooShort 4) magic magic := reads_take rfl
    refine hmagic.bind ?_
    refine Reads.require_bind rfl ((reads_u8 _ version).bind ?_)
    refine Reads.require_bind rfl ((reads_u8 _ _).bind ?_)
    rw [hnc]
    refine (reads_encodeConsts _).bind ((reads_u16 _ _).bind ?_)
    exact hinstrs.bind_nil (Reads.pure _)
  have hraw := hbody unread
  simp only [append_assoc] at hraw
  rw [hraw]
  rfl

/-- **A well-formed program is read back unchanged.** -/
theorem decode_encode {p : Program} (key : BuildKey) (hp : p.WellFormed) :
    ∃ b, encode p key = some b ∧ decode b key = .ok p := by
  have hmod : p.instrs.length % 65536 = p.instrs.length :=
    Nat.mod_eq_of_lt (Nat.lt_succ_of_le hp.instrs_le)
  have h := decode_encode_take key hp.consts_le (by rw [hmod]; exact hp.instrs)
  rwa [hmod, take_length] at h

theorem yields_decodeBody (key : BuildKey) : Yields (decodeBody key) Program.WellFormed := by
  refine (yields_true _).bind fun m _ => (yields_true _).bind fun _ _ => ?_
  refine (yields_true _).bind fun v _ => (yields_true _).bind fun _ _ => ?_
  refine (yields_true _).bind fun nConsts _ => ?_
  refine ((yields_true _).many nConsts.toNat).bind fun consts hconsts => ?_
  refine (yields_true _).bind fun nInstrs _ => ?_
  refine (yields_decodeNext.many nInstrs.toNat).bind fun instrs hinstrs => Yields.pure ?_
  refine ⟨?_, ?_, ?_⟩
  · rw [hconsts.1, hinstrs.1]
    exact hinstrs.2
  · have := nConsts.toNat_lt
    show consts.length ≤ 255
    omega
  · have := nInstrs.toNat_lt
    show instrs.length ≤ 65535
    omega

/-- **What `decode` accepts is well formed**, whatever the bytes are. -/
theorem wellFormed_of_decode {p : Program} {b : Bytes} {key : BuildKey}
    (h : decode b key = .ok p) : p.WellFormed := by
  simp only [decode] at h
  split at h
  · simp at h
  · split at h
    · simp at h
    · cases hb : decodeBody key
          ((applyKeystream key.streamKey b).take ((applyKeystream key.streamKey b).length - 8)) with
      | error e => rw [hb] at h; cases h
      | ok r =>
        rw [hb] at h
        cases h
        exact yields_decodeBody key _ r.2 r.1 hb

/-! ## Runs of well-formed programs -/

section runs

variable {p : Program} {input : Bytes} {words : List UInt64}

variable {s s' : VmState}

theorem step_pc_le (hp : p.WellFormed) (h : step p input words s = .next s') :
    s'.pc.toNat ≤ p.instrs.length := by
  unfold step at h
  split at h
  · cases h
  · next i hi =>
    obtain ⟨hlt, -⟩ := List.getElem?_eq_some_iff.mp hi
    rcases exec_next_pc h with hpc | ⟨t, ht, hpc⟩
    · rw [hpc, UInt32.toNat_add, UInt32.toNat_one]
      omega
    · have hwf := hp.instrs i (mem_of_getElem? hi)
      rw [hpc]
      rcases ht with rfl | rfl <;> exact Nat.le_of_lt hwf

theorem stepN_pc_le (hp : p.WellFormed) {n : Nat} (hs : s.pc.toNat ≤ p.instrs.length)
    (h : stepN p input words n s = some s') :
    s'.pc.toNat ≤ p.instrs.length := by
  induction n generalizing s with
  | zero => cases h; exact hs
  | succ n ih =>
    rw [stepN] at h
    split at h
    · next t ht => exact ih (step_pc_le hp ht) h
    · cases h

theorem step_fault_ne (hp : p.WellFormed) {f : VmFault} (h : step p input words s = .fault f) :
    f ≠ .badConstIndex := by
  rintro rfl
  unfold step at h
  split at h
  · cases h
  · next i hi =>
    have hwf := hp.instrs i (mem_of_getElem? hi)
    cases i with
    | loadConst dst k | mulConst dst k =>
      simp only [exec, getElem?_eq_getElem hwf.2] at h
      cases h
    | loadByte | loadInput | jmpIfEnd =>
      simp only [exec] at h
      split at h <;> cases h
    | xor | add | xorShr | rotl | jmp | ret | sub | mul | and | or | shl | shr | rotr => cases h

/-- **A run of a well-formed program stops within its budget and faults only inside it.** -/
theorem runCore_of_wellFormed (hp : p.WellFormed) (domain fuel : UInt64) :
    (∃ n s', n ≤ fuel.toNat ∧ stepN p input words n (initState domain) = some s' ∧
      (n = fuel.toNat ∨ ∀ s'', step p input words s' ≠ .next s'')) ∧
    ∀ e, runCore p input domain words fuel = .error e →
      e.fault ≠ .badConstIndex ∧ e.frame.pc.toNat ≤ p.instrs.length := by
  obtain ⟨n, s', hn, hrun, hend⟩ := runLoop_cases p input words fuel.toNat (initState domain)
  have hpc : s'.pc.toNat ≤ p.instrs.length := stepN_pc_le hp (Nat.zero_le _) hrun
  refine ⟨⟨n, s', hn, hrun, ?_⟩, ?_⟩
  · rcases hend with ⟨he, -⟩ | ⟨v, hs, -⟩ | ⟨f, hs, -⟩
    · exact .inl he
    · exact .inr fun s'' h => by rw [hs] at h; cases h
    · exact .inr fun s'' h => by rw [hs] at h; cases h
  · intro e he
    unfold runCore at he
    rcases hend with ⟨-, hr⟩ | ⟨v, -, hr⟩ | ⟨f, hs, hr⟩
    · rw [hr] at he; cases he
      exact ⟨by simp, hpc⟩
    · rw [hr] at he; cases he
    · rw [hr] at he; cases he
      exact ⟨step_fault_ne hp hs, hpc⟩

end runs

/--
**The bytecode format, for every seed.**

Every well-formed program survives encoding; and whatever `decode` accepts is well formed,
survives being encoded again, and runs without leaving its constant pool or its code.
-/
theorem bytecode_format (sha256 : Bytes → Block32) (seed : BuildSeed) :
    (∀ p : Program, p.WellFormed → ∃ b, encodeWithSeed sha256 p seed = some b ∧
      decodeWithSeed sha256 b seed = .ok p) ∧
    (∀ (b : Bytes) (p : Program), decodeWithSeed sha256 b seed = .ok p →
      p.WellFormed ∧
      (∃ b', encodeWithSeed sha256 p seed = some b' ∧
        decodeWithSeed sha256 b' seed = .ok p) ∧
      ∀ (input : Bytes) (words : List UInt64) (domain fuel : UInt64),
        (∃ n s', n ≤ fuel.toNat ∧ stepN p input words n (initState domain) = some s' ∧
          (n = fuel.toNat ∨ ∀ s'', step p input words s' ≠ .next s'')) ∧
        ∀ e, runCore p input domain words fuel = .error e →
          e.fault ≠ .badConstIndex ∧ e.frame.pc.toNat ≤ p.instrs.length) := by
  refine ⟨fun p hp => decode_encode _ hp, fun b p h => ?_⟩
  have hp : p.WellFormed := wellFormed_of_decode h
  exact ⟨hp, decode_encode _ hp, fun _ _ domain fuel => runCore_of_wellFormed hp domain fuel⟩

def zeroBlock : Block32 := Vector.replicate 32 0
def sampleProgram : Program := { instrs := [.loadConst 3 0, .ret 3], consts := [7] }

theorem bytecode_format_sample :
    ∃ b, decodeWithSeed (fun _ => zeroBlock) b ⟨zeroBlock⟩ = .ok sampleProgram ∧
      sampleProgram.WellFormed ∧
      ∀ e, runCore sampleProgram [] 0 [] 1 = .error e → e.frame.pc.toNat ≤ 2 := by
  have hwf : sampleProgram.WellFormed :=
    ⟨by simp [sampleProgram, Instr.WellFormed, numRegs], by decide, by decide⟩
  obtain ⟨b, -, hb⟩ := (bytecode_format (fun _ => zeroBlock) ⟨zeroBlock⟩).1 sampleProgram hwf
  obtain ⟨hp, -, hrun⟩ := (bytecode_format (fun _ => zeroBlock) ⟨zeroBlock⟩).2 b _ hb
  exact ⟨b, hb, hp, fun e he => ((hrun [] [] 0 1).2 e he).2⟩

end Kseal.Vm
