import Kseal.Gradle.Flattener

/-!
# The layout of a flattened body

What the simulation needs to know of a rewritten body, in one structure (`Flattened`), and where
the labels lead: `findLabel_source`, `findLabel_block`.
-/

namespace Kseal.Gradle

open Infra List

variable {A Ω L G : Type} {k : Nat}

/-! ## Labels -/

def Insn.label? {M : Type} : Insn A Ω k M → Option M
  | .node n => n.label?
  | _ => none

section labelOf

variable {M : Type}

@[simp] theorem label?_label (l : M) :
    (Insn.node (.label l) : Insn A Ω k M).label? = some l := rfl

@[simp] theorem label?_frame (f : FrameNode) :
    (Insn.node (.frame f) : Insn A Ω k M).label? = none := rfl

@[simp] theorem label?_goto (l : M) : (Insn.node (.goto l) : Insn A Ω k M).label? = none := rfl

@[simp] theorem label?_cond (c : Cond A) (l : M) :
    (Insn.node (.cond c l) : Insn A Ω k M).label? = none := rfl

@[simp] theorem label?_exit (x : ExitOp) :
    (Insn.node (.exit x) : Insn A Ω k M).label? = none := rfl

@[simp] theorem label?_store (kind : Kind) (slot : Nat) :
    (Insn.store kind slot : Insn A Ω k M).label? = none := rfl

@[simp] theorem label?_const0 (kind : Kind) :
    (Insn.const0 kind : Insn A Ω k M).label? = none := rfl

@[simp] theorem label?_iload (slot : Nat) : (Insn.iload slot : Insn A Ω k M).label? = none := rfl

@[simp] theorem label?_lookupSwitch (dflt : M) (cases : List (Int × M)) :
    (Insn.lookupSwitch dflt cases : Insn A Ω k M).label? = none := rfl

@[simp] theorem label?_pushInt (v : Int) : (pushInt v : Insn A Ω k M).label? = none := by
  unfold pushInt
  split
  · rfl
  · split
    · rfl
    · split <;> rfl

end labelOf

section findLabel

variable {M : Type} [DecidableEq M] {l : M}

theorem findLabel_cons_ne {i : Insn A Ω k M} {rest : List (Insn A Ω k M)}
    (h : i.label? ≠ some l) : findLabel l (i :: rest) = findLabel l rest := by
  cases i with
  | node n =>
    cases n with
    | label l' => exact if_neg fun he => h (congrArg some he)
    | _ => rfl
  | _ => rfl

theorem findLabel_cons_self (rest : List (Insn A Ω k M)) :
    findLabel l (.node (.label l) :: rest) = some (.node (.label l) :: rest) := if_pos rfl

theorem findLabel_append {pre post : List (Insn A Ω k M)} (h : l ∉ pre.filterMap Insn.label?) :
    findLabel l (pre ++ post) = findLabel l post := by
  induction pre with
  | nil => rfl
  | cons i pre ih =>
    rw [filterMap_cons] at h
    rw [cons_append]
    split at h
    · next hi =>
      rw [findLabel_cons_ne (by rw [hi]; simp)]
      exact ih h
    · next l' hi =>
      rw [mem_cons, not_or] at h
      rw [findLabel_cons_ne (by rw [hi]; exact fun he => h.1 (Option.some.inj he).symm)]
      exact ih h.2

end findLabel

/-! ## Blocks -/

section blocks

variable [DecidableEq L]

theorem flatten_splitLoop (targets : List L) (leader : Bool) (current : Block A Ω k L)
    (ns : List (Node A Ω k L)) :
    (splitLoop targets leader current ns).flatten = current ++ ns := by
  induction ns generalizing leader current with
  | nil =>
    unfold splitLoop
    split
    · next h => rw [List.isEmpty_iff.mp h]; rfl
    · simp
  | cons n rest ih =>
    unfold splitLoop
    split
    · rw [flatten_cons, ih]; rfl
    · rw [ih, append_assoc]; rfl

theorem dropLast_splitLoop (targets : List L) : ∀ (ns : List (Node A Ω k L)) (leader : Bool)
    (current : Block A Ω k L), (∀ n ∈ current.dropLast, n.endsBlock = false) →
      (leader = (current.getLast?.map Node.endsBlock).getD true) →
      ∀ b ∈ splitLoop targets leader current ns, ∀ n ∈ b.dropLast, n.endsBlock = false
  | [], leader, current, hc, _ => by
    intro b hb
    unfold splitLoop at hb
    split at hb
    · cases hb
    · rw [mem_singleton.mp hb]; exact hc
  | n :: rest, leader, current, hc, hl => by
    intro b hb
    unfold splitLoop at hb
    split at hb
    · rcases mem_cons.mp hb with rfl | hb
      · exact hc
      · exact dropLast_splitLoop targets rest _ _ (by simp) (by simp) b hb
    · next hcond =>
      refine dropLast_splitLoop targets rest _ _ ?_ (by simp) b hb
      rw [dropLast_concat]
      intro x hx
      -- The block goes on, so its last node so far is neither a jump nor an exit.
      cases hlast : current.getLast? with
      | none => rw [getLast?_eq_none_iff.mp hlast] at hx; cases hx
      | some y =>
        obtain ⟨ys, hys⟩ := getLast?_eq_some_iff.mp hlast
        rw [hlast] at hl
        subst hys
        rw [dropLast_concat] at hc
        rcases mem_append.mp hx with hx | hx
        · exact hc x hx
        · rw [mem_singleton.mp hx]
          simp only [Option.map_some] at hl
          cases hy : y.endsBlock with
          | false => rfl
          | true =>
            rw [hy] at hl
            simp [hl] at hcond

end blocks

variable {b : Block A Ω k L}

theorem splitTerminator_eq {before after : Block A Ω k L} {t : Node A Ω k L}
    (h : splitTerminator b = some (before, t, after)) :
    b = before ++ t :: after ∧ ∀ n ∈ after, n.isReal = false := by
  induction b generalizing before with
  | nil => cases h
  | cons n rest ih =>
    unfold splitTerminator at h
    split at h
    · next before' t' after' hr =>
      cases h
      obtain ⟨hrest, hafter⟩ := ih hr
      exact ⟨by rw [hrest]; rfl, hafter⟩
    · next hr =>
      split at h
      · cases h
        refine ⟨rfl, fun x hx => ?_⟩
        exact not_real_of_none hr x hx
      · cases h
where
  /-- A block without an instruction has no terminator. -/
  not_real_of_none : ∀ {b : Block A Ω k L}, splitTerminator b = none →
      ∀ n ∈ b, n.isReal = false
    | [], _, _, hn => by cases hn
    | x :: rest, h, n, hn => by
      unfold splitTerminator at h
      split at h
      · cases h
      · next hr =>
        split at h
        · cases h
        · next hx =>
          rcases mem_cons.mp hn with rfl | hn
          · exact Bool.eq_false_iff.mpr hx
          · exact not_real_of_none hr n hn

theorem isReal_of_endsBlock {n : Node A Ω k L} (h : n.endsBlock = true) : n.isReal = true := by
  cases n <;> first | rfl | cases h

theorem block_cases (hends : ∀ n ∈ b.dropLast, n.endsBlock = false)
    (hreal : b.any Node.isReal = true) :
    (∃ t, terminator b = some t ∧ t.endsBlock = true ∧ b = bodyNodes b ++ [t] ∧
      ∀ n ∈ bodyNodes b, n.endsBlock = false) ∨
    (∃ t, terminator b = some t ∧ t.endsBlock = false ∧ bodyNodes b = b ∧
      ∀ n ∈ b, n.endsBlock = false) := by
  cases hs : splitTerminator b with
  | none =>
    obtain ⟨n, hn, hr⟩ := any_eq_true.mp hreal
    rw [splitTerminator_eq.not_real_of_none hs n hn] at hr
    cases hr
  | some p =>
    obtain ⟨before, t, after⟩ := p
    obtain ⟨hb, hafter⟩ := splitTerminator_eq hs
    have hterm : terminator b = some t := by rw [terminator, hs]; rfl
    have hbody : bodyNodes b = if t.endsBlock then before ++ after else b := by
      rw [bodyNodes, hs]
    cases ht : t.endsBlock with
    | true =>
      -- What follows a jump is in the next block.
      have hnil : after = [] := by
        rcases eq_nil_or_concat after with hnil | ⟨xs, x, hx⟩
        · exact hnil
        · have hmem : t ∈ b.dropLast := by
            rw [hb, hx, concat_eq_append, ← cons_append, ← append_assoc,
              dropLast_concat]
            simp
          rw [hends t hmem] at ht
          cases ht
      subst hnil
      rw [ht, if_pos rfl, append_nil] at hbody
      refine .inl ⟨t, hterm, ht, by rw [hbody]; exact hb, ?_⟩
      intro n hn
      refine hends n ?_
      rw [hb, dropLast_concat, ← hbody]
      exact hn
    | false =>
      rw [ht] at hbody
      refine .inr ⟨t, hterm, ht, hbody, ?_⟩
      intro n hn
      rw [hb] at hn
      rcases mem_append.mp hn with hn | hn
      · refine hends n ?_
        rw [hb, dropLast_append_of_ne_nil (by simp)]
        exact mem_append_left _ hn
      · rcases mem_cons.mp hn with rfl | hn
        · exact ht
        · cases he : n.endsBlock with
          | false => rfl
          | true =>
            have hr := hafter n hn
            rw [isReal_of_endsBlock he] at hr
            cases hr

/-! ## State ids and block order -/

variable {g : G} {i : Nat}

section ids

variable {nextInt : G → Nat → Nat × G} {fuel : Nat}

variable {used : List Nat} {g' : G} {id : Nat}

theorem drawId_fresh (h : drawId nextInt used fuel g = some (id, g')) : id ∉ used := by
  induction fuel generalizing g with
  | zero => cases h
  | succ fuel ih =>
    unfold drawId at h
    simp only [] at h
    split at h
    · exact ih h
    · next hid => cases h; exact hid

/-- **The state ids are distinct**, one for each block. -/
theorem assignStateIds_nodup {n : Nat} {ids : List Nat}
    (h : assignStateIds nextInt fuel n used g = some (ids, g')) :
    ids.length = n ∧ ids.Nodup ∧ ∀ id ∈ ids, id ∉ used := by
  induction n generalizing used g ids with
  | zero => cases h; exact ⟨rfl, nodup_nil, by simp⟩
  | succ n ih =>
    simp only [assignStateIds, Option.bind_eq_bind, Option.bind_eq_some_iff, Prod.exists] at h
    obtain ⟨id, g₁, hid, ids', g₂, hids, rfl, rfl⟩ := h
    obtain ⟨hlen, hnd, hfresh⟩ := ih hids
    refine ⟨by rw [length_cons, hlen], ?_, ?_⟩
    · rw [nodup_cons]
      exact ⟨fun hmem => hfresh id hmem mem_cons_self, hnd⟩
    · intro x hx
      rcases mem_cons.mp hx with rfl | hx
      · exact drawId_fresh hid
      · exact fun hu => hfresh x hx (mem_cons_of_mem _ hu)

theorem shuffleLoop_perm (i : Nat) (g : G) (l : List Nat) :
    (shuffleLoop nextInt i g l).Perm l := by
  induction i generalizing g l with
  | zero => exact List.Perm.refl l
  | succ i ih => exact (ih _ _).trans (swap_perm _ _ _)

theorem shuffle_perm (g : G) (l : List Nat) : (shuffle nextInt g l).Perm l :=
  shuffleLoop_perm _ _ _

theorem find_switchCases {ids : List Nat} (hnd : ids.Nodup) (hi : ids[i]? = some id) :
    ((switchCases ids : List (Int × NewLabel L)).find? fun c => c.1 == (id : Int)).map Prod.snd
      = some (.block i) := by
  have hmem : ((id : Int), NewLabel.block i) ∈ (switchCases ids : List (Int × NewLabel L)) := by
    unfold switchCases
    rw [mem_map]
    refine ⟨(id, i), ?_, rfl⟩
    rw [(perm_insertionSort _ _).mem_iff, mem_zipIdx_iff_getElem?]
    exact hi
  cases hf : (switchCases ids : List (Int × NewLabel L)).find? fun c => c.1 == (id : Int) with
  | none =>
    have := find?_eq_none.mp hf _ hmem
    simp at this
  | some c =>
    -- Another case with this id would be the same id at another index.
    have hc := find?_some hf
    have hcm := mem_of_find?_eq_some hf
    unfold switchCases at hcm
    rw [mem_map] at hcm
    obtain ⟨⟨id', j⟩, hj, rfl⟩ := hcm
    rw [(perm_insertionSort _ _).mem_iff, mem_zipIdx_iff_getElem?] at hj
    have hcast : (id' : Int) = id := beq_iff_eq.mp hc
    obtain rfl : id' = id := by omega
    have hij : j = i := by
      obtain ⟨hjlt, hjget⟩ := List.getElem?_eq_some_iff.mp hj
      obtain ⟨hilt, higet⟩ := List.getElem?_eq_some_iff.mp hi
      exact (List.Nodup.getElem_inj_iff hnd).mp (hjget.trans higet.symm)
    rw [hij]
    rfl

end ids

/-! ## Where the labels are -/

section emission

variable [DecidableEq L] {blocks : List (Block A Ω k L)} {ids : List Nat} {frame : FrameNode}

omit [DecidableEq L] in
@[simp] theorem labels_gotoState (id : Nat) :
    (gotoState id : List (Insn A Ω k (NewLabel L))).filterMap Insn.label? = [] := by
  simp [gotoState]

omit [DecidableEq L] in
theorem labels_blockBody {l : NewLabel L} (h : l ∈ (blockBody b).filterMap Insn.label?) :
    ∃ x, l = .copied x := by
  obtain ⟨i, hi, hl⟩ := mem_filterMap.mp h
  obtain ⟨n, -, rfl⟩ := mem_map.mp hi
  cases n with
  | label x => exact ⟨x, (Option.some.inj hl).symm⟩
  | line | frame | op | goto | cond | exit | unsupported => cases hl

variable {c : List (Insn A Ω k (NewLabel L))}

theorem labels_blockEnd (h : blockEnd blocks ids frame i b = some c) {l : NewLabel L}
    (hl : l ∈ c.filterMap Insn.label?) : l = .taken i := by
  unfold blockEnd at h
  split at h
  · simp only [Option.bind_eq_bind, Option.bind_eq_some_iff, Option.pure_def,
      Option.some.injEq] at h
    obtain ⟨_, -, id, -, rfl⟩ := h
    simp at hl
  · simp only [Option.bind_eq_bind, Option.bind_eq_some_iff, Option.pure_def,
      Option.some.injEq] at h
    obtain ⟨_, -, fall, -, id, -, rfl⟩ := h
    simp only [filterMap_append, filterMap_cons, label?_cond, label?_label, label?_frame,
      filterMap_nil, labels_gotoState, append_nil, nil_append,
      mem_singleton] at hl
    exact hl
  · cases h
    simp at hl
  · simp only [Option.bind_eq_bind, Option.bind_eq_some_iff, Option.pure_def,
      Option.some.injEq] at h
    obtain ⟨id, -, rfl⟩ := h
    simp at hl

theorem emitBlock_eq (h : emitBlock blocks ids frame i = some c) :
    ∃ b ending, blocks[i]? = some b ∧ blockEnd blocks ids frame i b = some ending ∧
      c = .node (.label (.block i)) :: .node (.frame frame) :: (blockBody b ++ ending) := by
  simp only [emitBlock, Option.bind_eq_bind, Option.bind_eq_some_iff, Option.pure_def,
    Option.some.injEq] at h
  obtain ⟨b, hb, ending, he, rfl⟩ := h
  exact ⟨b, ending, hb, he, by simp⟩

theorem labels_emitBlock (h : emitBlock blocks ids frame i = some c) {l : NewLabel L}
    (hl : l ∈ c.filterMap Insn.label?) : l = .block i ∨ l = .taken i ∨ ∃ x, l = .copied x := by
  obtain ⟨b, ending, -, he, rfl⟩ := emitBlock_eq h
  simp only [filterMap_cons, label?_label, label?_frame, filterMap_append,
    mem_cons, mem_append] at hl
  rcases hl with hl | hl | hl
  · exact .inl hl
  · exact .inr (.inr (labels_blockBody hl))
  · exact .inr (.inl (labels_blockEnd he hl))

theorem findLabel_emitBlocks : ∀ {order : List Nat}
    {emitted : List (Insn A Ω k (NewLabel L))},
    emitBlocks blocks ids frame order = some emitted → i ∈ order →
      ∃ c post, emitBlock blocks ids frame i = some c ∧
        findLabel (.block i) emitted = some (c ++ post) ∧
        findLabel (.taken i) emitted = findLabel (.taken i) (c ++ post)
  | [], _, _, hi => by cases hi
  | j :: order, emitted, h, hi => by
    simp only [emitBlocks, Option.bind_eq_bind, Option.bind_eq_some_iff, Option.pure_def,
      Option.some.injEq] at h
    obtain ⟨c, hc, rest, hrest, rfl⟩ := h
    by_cases hij : i = j
    · subst hij
      obtain ⟨b, ending, -, -, rfl⟩ := emitBlock_eq hc
      exact ⟨_, rest, hc, findLabel_cons_self _, rfl⟩
    · obtain ⟨c', post, hc', hblock, htaken⟩ :=
        findLabel_emitBlocks hrest (mem_of_ne_of_mem hij hi)
      refine ⟨c', post, hc', ?_, ?_⟩
      · rw [findLabel_append, hblock]
        intro hl
        rcases labels_emitBlock hc hl with he | he | ⟨x, he⟩ <;> simp [hij] at he
      · rw [findLabel_append, htaken]
        intro hl
        rcases labels_emitBlock hc hl with he | he | ⟨x, he⟩ <;> simp [hij] at he

omit [DecidableEq L] in
theorem labels_defaultStores (params : List Nat) (slot : Nat) (items : List (Option Item)) :
    (defaultStores params slot items : List (Insn A Ω k (NewLabel L))).filterMap Insn.label?
      = [] := by
  induction items generalizing slot with
  | nil => rfl
  | cons item items ih =>
    cases item with
    | none => exact ih (slot + 1)
    | some item =>
      rw [defaultStores, filterMap_append, ih]
      split
      · rfl
      · simp [defaultStore]

omit [DecidableEq L] in
theorem labels_prologue (m : Method A Ω k L) (items : List (Option Item)) (first : Nat) :
    (prologue m items first).filterMap Insn.label? = [] := by
  rw [prologue, filterMap_append, labels_defaultStores, labels_gotoState]
  rfl

omit [DecidableEq L] in
theorem labels_dispatcher (items : List (Option Item)) (ids : List Nat) :
    (dispatcher items ids : List (Insn A Ω k (NewLabel L))).filterMap Insn.label?
      = [.dispatch] := rfl

end emission

/-! ## Flattened methods -/

def Method.source (m : Method A Ω k L) : List (Insn A Ω k L) := m.nodes.map .node

def sourceFrom (blocks : List (Block A Ω k L)) (i : Nat) : List (Insn A Ω k L) :=
  (blocks.drop i).flatten.map .node

structure Flattened [DecidableEq L] (m : Method A Ω k L) (blocks : List (Block A Ω k L))
    (items : List (Option Item)) (ids : List Nat) (code : List (Insn A Ω k (NewLabel L))) :
    Prop where
  supported : ∀ n ∈ m.nodes, n.isUnsupported = false
  cut : blocks.flatten = m.nodes
  ends : ∀ b ∈ blocks, ∀ n ∈ b.dropLast, n.endsBlock = false
  real : ∀ b ∈ blocks, b.any Node.isReal = true
  pos : 0 < blocks.length
  ids_length : ids.length = blocks.length
  ids_nodup : ids.Nodup
  code : ∃ first order emitted, ids[0]? = some first ∧ order.Perm (List.range blocks.length) ∧
    emitBlocks blocks ids (uniformFrame items) order = some emitted ∧
    code = prologue m items first ++ dispatcher items ids ++ emitted

variable [DecidableEq L] {m : Method A Ω k L} {blocks : List (Block A Ω k L)}
  {items : List (Option Item)} {ids : List Nat} {code : List (Insn A Ω k (NewLabel L))}

/-- **Every method that is reported as flattened has the layout.** -/
theorem flattened_of_flatten {execute : Node A Ω k L → Frame → Option Frame}
    {verifies : List (Insn A Ω k (NewLabel L)) → Bool} {nextInt : G → Nat → Nat × G} {fuel : Nat}
    (h : flatten execute verifies nextInt fuel g m = some code) :
    ∃ blocks frames items ids, splitBlocks m = some blocks ∧
      computeLeaderFrames execute m blocks = some frames ∧
      buildUniformLocals k frames = some items ∧ Flattened m blocks items ids code := by
  simp only [flatten, Option.bind_eq_bind, Option.bind_none, Option.ite_none_left_eq_some,
    Option.bind_eq_some_iff, Option.pure_def, Option.some.injEq] at h
  obtain ⟨hpre, blocks, hblocks, hmin, frames, hframes, items, hitems, -, code, hcode, -, rfl⟩ := h
  refine ⟨blocks, frames, items, ?_⟩
  have hcut : (splitLoop (m.nodes.filterMap Node.target?) true [] m.nodes) = blocks ∧
      ∀ b ∈ blocks, b.any Node.isReal = true := by
    simp only [splitBlocks, Option.ite_none_left_eq_some, Option.some.injEq] at hblocks
    obtain ⟨-, hreal, rfl⟩ := hblocks
    refine ⟨rfl, fun b hb => ?_⟩
    rw [any_eq_true] at hreal
    exact Bool.of_not_eq_false fun hf => hreal ⟨b, hb, by rw [hf]; rfl⟩
  obtain ⟨hloop, hreal⟩ := hcut
  simp only [rebuild, Option.bind_eq_bind, Option.bind_eq_some_iff, Option.pure_def,
    Option.some.injEq, Prod.exists] at hcode
  obtain ⟨ids, g', hids, first, hfirst, emitted, hemitted, rfl⟩ := hcode
  obtain ⟨hlen, hnd, -⟩ := assignStateIds_nodup hids
  refine ⟨ids, hblocks, hframes, hitems, ?_, ?_, ?_, hreal, ?_, hlen, hnd, ?_⟩
  · intro n hn
    have hany : m.nodes.any Node.isUnsupported = false := by
      simp only [preCheck, Bool.not_eq_true', Bool.not_eq_false, Bool.and_eq_true] at hpre
      exact hpre.1.2
    exact Bool.eq_false_iff.mpr (any_eq_false.mp hany n hn)
  · rw [← hloop, flatten_splitLoop]; rfl
  · rw [← hloop]
    exact dropLast_splitLoop _ _ _ _ (by simp) rfl
  · simp only [minBlocks] at hmin
    omega
  · exact ⟨first, _, emitted, hfirst, shuffle_perm _ _, hemitted, rfl⟩

section layout

variable (hf : Flattened m blocks items ids code)

include hf

theorem source_eq (i : Nat) :
    m.source = (blocks.take i).flatten.map .node ++ sourceFrom blocks i := by
  rw [Method.source, ← hf.cut, sourceFrom, ← map_append, ← flatten_append,
    take_append_drop]

theorem source_start : m.source = sourceFrom blocks 0 := by
  have := source_eq hf 0
  rwa [take_zero] at this

theorem findLabel_source {l : L} (h : byLeaderLabel blocks l = some i) :
    i < blocks.length ∧ findLabel l m.source = some (sourceFrom blocks i) := by
  obtain ⟨hi, hhead, -⟩ := findIdx?_eq_some_iff_getElem.mp h
  refine ⟨hi, ?_⟩
  obtain ⟨n, rest, hb⟩ : ∃ n rest, blocks[i] = n :: rest := by
    cases hb : blocks[i] with
    | nil => rw [hb] at hhead; simp at hhead
    | cons n rest => exact ⟨n, rest, rfl⟩
  have hn : n = .label l := by
    rw [hb] at hhead
    cases n <;> simp [Node.label?] at hhead
    rw [hhead]
  have hfrom : sourceFrom blocks i
      = .node (.label l) :: ((rest ++ (blocks.drop (i + 1)).flatten).map .node) := by
    rw [sourceFrom, drop_eq_getElem_cons hi, hb, hn]
    rfl
  -- Labels are distinct, so the first occurrence is this one.
  have hnot : l ∉ ((blocks.take i).flatten.map Insn.node : List (Insn A Ω k L)).filterMap
      Insn.label? := by
    have hnd := m.labels_nodup
    rw [← hf.cut, ← take_append_drop i blocks, flatten_append, filterMap_append,
      nodup_append] at hnd
    rw [filterMap_map]
    intro hmem
    refine hnd.2.2 l hmem l ?_ rfl
    rw [drop_eq_getElem_cons hi, hb, hn]
    simp [Node.label?]
  rw [source_eq hf i, findLabel_append hnot, hfrom, findLabel_cons_self]

theorem findLabel_block (hi : i < blocks.length) :
    ∃ b ending post, blocks[i]? = some b ∧
      blockEnd blocks ids (uniformFrame items) i b = some ending ∧
      findLabel (.block i) code = some (.node (.label (.block i)) ::
        .node (.frame (uniformFrame items)) :: (blockBody b ++ (ending ++ post))) ∧
      findLabel (.taken i) code = findLabel (.taken i) (ending ++ post) := by
  obtain ⟨first, order, emitted, -, hperm, hemitted, rfl⟩ := hf.code
  have hmem : i ∈ order := hperm.mem_iff.mpr (mem_range.mpr hi)
  obtain ⟨c, post, hc, hblock, htaken⟩ := findLabel_emitBlocks hemitted hmem
  obtain ⟨b, ending, hb, he, rfl⟩ := emitBlock_eq hc
  have hpre : ∀ l : NewLabel L, l ≠ .dispatch →
      findLabel l (prologue m items first ++ dispatcher items ids ++ emitted)
        = findLabel l emitted := by
    intro l hl
    apply findLabel_append
    rw [filterMap_append, labels_prologue, labels_dispatcher]
    simpa using hl
  refine ⟨b, ending, post, hb, he, ?_, ?_⟩
  · rw [hpre _ (by simp), hblock]
    simp
  · rw [hpre _ (by simp), htaken, cons_append, findLabel_cons_ne (by simp), cons_append,
      findLabel_cons_ne (by simp), append_assoc, findLabel_append]
    intro hl
    obtain ⟨x, hx⟩ := labels_blockBody hl
    cases hx

theorem findLabel_dispatch :
    ∃ rest, findLabel .dispatch code = some (dispatcher items ids ++ rest) := by
  obtain ⟨first, order, emitted, -, -, -, rfl⟩ := hf.code
  refine ⟨emitted, ?_⟩
  rw [append_assoc, findLabel_append (by rw [labels_prologue]; simp)]
  exact findLabel_cons_self _

end layout

end Kseal.Gradle
