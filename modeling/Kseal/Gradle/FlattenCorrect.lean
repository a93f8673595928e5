import Kseal.Gradle.FlattenSim

/-!
# When a flattened method does what the original one did

The prologue stores defaults into every slot of the uniform frame that `parameterSlots` does not
list, and it lists the first slot of a wide parameter only (`flatten_preserved_iff`).
-/

namespace Kseal.Gradle

open Infra List Function
open Option (bind_eq_bind bind_eq_some_iff)

variable {A Ω L G : Type} {k : Nat}

/-! ## Parameter slots -/

def secondSlotsFrom : Nat → List ArgType → List Nat
  | _, [] => []
  | slot, arg :: args =>
    if arg.size = 2 then (slot + 1) :: secondSlotsFrom (slot + 2) args
    else secondSlotsFrom (slot + 1) args

def Method.secondSlots (m : Method A Ω k L) : List Nat :=
  secondSlotsFrom (if m.isStatic then 0 else 1) m.args

theorem ArgType.size_cases (a : ArgType) : a.size = 1 ∨ a.size = 2 := by
  cases a <;> simp [ArgType.size]

variable {args : List ArgType}

theorem le_of_mem_parameterSlotsFrom {slot j : Nat} (h : j ∈ parameterSlotsFrom slot args) :
    slot ≤ j := by
  induction args generalizing slot with
  | nil => cases h
  | cons arg args ih =>
    rcases mem_cons.mp h with rfl | h
    · exact Nat.le_refl _
    · exact Nat.le_trans (Nat.le_add_right _ _) (ih h)

theorem mem_slots {slot j : Nat} (hle : slot ≤ j) (hlt : j < slot + argCells args) :
    j ∈ parameterSlotsFrom slot args ∨ j ∈ secondSlotsFrom slot args := by
  induction args generalizing slot with
  | nil => rw [argCells] at hlt; omega
  | cons arg args ih =>
    rw [argCells] at hlt
    unfold parameterSlotsFrom secondSlotsFrom
    by_cases hj : j = slot
    · exact .inl (by rw [hj]; exact mem_cons_self)
    · rcases arg.size_cases with h1 | h2
      · rw [h1] at hlt ⊢
        rcases ih (show slot + 1 ≤ j by omega) (by omega) with h | h
        · exact .inl (mem_cons_of_mem _ h)
        · exact .inr h
      · rw [h2] at hlt ⊢
        by_cases hj' : j = slot + 1
        · exact .inr (by rw [hj']; exact mem_cons_self)
        · rcases ih (show slot + 2 ≤ j by omega) (by omega) with h | h
          · exact .inl (mem_cons_of_mem _ h)
          · exact .inr (mem_cons_of_mem _ h)

theorem secondSlotsFrom_spec {slot j : Nat} (h : j ∈ secondSlotsFrom slot args) :
    slot < j ∧ j < slot + argCells args ∧ j ∉ parameterSlotsFrom slot args := by
  induction args generalizing slot with
  | nil => cases h
  | cons arg args ih =>
    rw [argCells]
    unfold secondSlotsFrom at h
    unfold parameterSlotsFrom
    rw [mem_cons, not_or]
    rcases arg.size_cases with h1 | h2
    · rw [h1] at h
      rw [h1]
      obtain ⟨hlt, hsum, hnot⟩ := ih h
      exact ⟨by omega, by omega, by omega, hnot⟩
    · rw [h2] at h
      rw [h2]
      rcases mem_cons.mp h with rfl | h
      · refine ⟨by omega, by omega, by omega, fun hmem => ?_⟩
        have := le_of_mem_parameterSlotsFrom hmem
        omega
      · obtain ⟨hlt, hsum, hnot⟩ := ih h
        exact ⟨by omega, by omega, by omega, hnot⟩

section slots

variable {m : Method A Ω k L} {j : Nat}

theorem mem_parameterSlots (hj : j < m.paramCells) : j ∈ parameterSlots m ∨ j ∈ m.secondSlots := by
  unfold Method.paramCells at hj
  unfold parameterSlots Method.secondSlots
  cases hstatic : m.isStatic with
  | true =>
    rw [hstatic] at hj
    exact mem_slots (Nat.zero_le j) hj
  | false =>
    rw [hstatic] at hj
    by_cases h0 : j = 0
    · exact .inl (by rw [h0]; exact mem_cons_self)
    · rcases mem_slots (show 1 ≤ j by omega) hj with h | h
      · exact .inl (mem_cons_of_mem _ h)
      · exact .inr h

theorem secondSlots_spec (h : j ∈ m.secondSlots) : j < m.paramCells ∧ j ∉ parameterSlots m := by
  obtain ⟨hlt, hsum, hnot⟩ := secondSlotsFrom_spec h
  refine ⟨hsum, ?_⟩
  unfold parameterSlots
  cases hstatic : m.isStatic with
  | true => rw [hstatic] at hnot; exact hnot
  | false =>
    rw [hstatic] at hnot hlt
    simp only [Bool.false_eq_true, if_false, mem_cons, not_or] at hnot hlt ⊢
    exact ⟨by omega, hnot⟩

end slots

variable {f : Frame}

theorem entryArgs_fit {slot : Nat} {f' : Frame} (h : entryArgs slot args f = some f')
    (hslot : slot ≤ f.locals.length) :
    slot + argCells args ≤ f.locals.length := by
  induction args generalizing slot f with
  | nil => exact hslot
  | cons arg args ih =>
    simp only [entryArgs, Frame.setLocal, bind_eq_bind, bind_eq_some_iff,
      Option.ite_none_right_eq_some, Option.some.injEq] at h
    obtain ⟨f₁, ⟨hlt, rfl⟩, h⟩ := h
    rw [argCells]
    rcases arg.size_cases with h1 | h2
    · rw [if_neg (by omega)] at h
      have := ih h (by rw [length_set]; omega)
      rw [length_set] at this
      omega
    · rw [if_pos h2] at h
      simp only [bind_eq_some_iff, Option.ite_none_right_eq_some, Option.some.injEq] at h
      obtain ⟨f₂, ⟨hlt', rfl⟩, h⟩ := h
      rw [length_set] at hlt'
      have := ih h (by rw [length_set, length_set]; omega)
      rw [length_set, length_set] at this
      omega

theorem paramCells_le {m : Method A Ω k L} (h : entryFrame m = some f) :
    m.paramCells ≤ k := by
  unfold entryFrame at h
  unfold Method.paramCells
  have hblank : (blankFrame k).locals.length = k := by simp [blankFrame]
  split at h
  · next hstatic =>
    have := entryArgs_fit h (Nat.zero_le _)
    rw [if_pos hstatic]
    omega
  · next hstatic =>
    simp only [Frame.setLocal, bind_eq_bind, bind_eq_some_iff,
      Option.ite_none_right_eq_some, Option.some.injEq] at h
    obtain ⟨f₁, ⟨hlt, rfl⟩, h⟩ := h
    have := entryArgs_fit h (by rw [length_set]; omega)
    rw [length_set] at this
    rw [if_neg hstatic]
    omega

/-! ## The uniform frame -/

def Frame.untyped (f : Frame) (slot : Nat) : Prop :=
  f.locals[slot]?.getD .uninitialized = .uninitialized

def SecondSlotsUntyped [DecidableEq L] (execute : Node A Ω k L → Frame → Option Frame)
    (m : Method A Ω k L) : Prop :=
  ∀ blocks frames, splitBlocks m = some blocks → computeLeaderFrames execute m blocks = some frames →
    ∀ f ∈ frames, ∀ slot ∈ m.secondSlots, f.untyped slot

variable {merged : Option BasicValue}

theorem mergeSlot_cons_typed {slot : Nat} {frames : List Frame} {v : BasicValue}
    (hf : f.locals[slot]? = some v) (hv : v ≠ .uninitialized) :
    mergeSlot slot merged (f :: frames)
      = (merged.elim (some v) (unify · v)).bind fun u => mergeSlot slot (some u) frames := by
  rw [mergeSlot, hf]
  cases merged <;> cases v <;> first | rfl | exact absurd rfl hv

theorem mergeSlot_eq_none {slot : Nat} {frames : List Frame} :
    mergeSlot slot merged frames = some none ↔ merged = none ∧ ∀ f ∈ frames, f.untyped slot := by
  induction frames generalizing merged with
  | nil => simp [mergeSlot]
  | cons f frames ih =>
    rw [forall_mem_cons]
    by_cases hf : f.untyped slot
    · have hskip : mergeSlot slot merged (f :: frames) = mergeSlot slot merged frames := by
        rw [mergeSlot]
        unfold Frame.untyped at hf
        cases hv : f.locals[slot]? with
        | none => rfl
        | some v =>
          rw [hv, Option.getD_some] at hf
          rw [hf]
      rw [hskip, ih]
      simp [hf]
    · obtain ⟨v, hv, hne⟩ : ∃ v, f.locals[slot]? = some v ∧ v ≠ .uninitialized := by
        unfold Frame.untyped at hf
        cases hv : f.locals[slot]? with
        | none => rw [hv] at hf; exact absurd rfl hf
        | some v => rw [hv] at hf; exact ⟨v, rfl, hf⟩
      rw [mergeSlot_cons_typed hv hne, bind_eq_some_iff]
      constructor
      · rintro ⟨u, -, hu⟩
        cases (ih.mp hu).1
      · rintro ⟨-, h, -⟩
        exact absurd h hf

theorem uniformItem_eq_none {frames : List Frame} {slot : Nat} :
    uniformItem frames slot = some none ↔ ∀ f ∈ frames, f.untyped slot := by
  have h : mergeSlot slot none frames = some none ↔ none = none ∧ ∀ f ∈ frames, f.untyped slot :=
    mergeSlot_eq_none
  simp only [true_and] at h
  rw [← h, uniformItem]
  split
  · next hm => simp [hm]
  · next hm => simp [hm]
  · next v hm => simp [hm]

variable {n : Nat}

theorem getElem?_uniformItems {frames : List Frame} {slot : Nat} {items : List (Option Item)}
    (h : uniformItems frames slot n = some items) :
    items.length = n ∧ ∀ j < n, items[j]? = uniformItem frames (slot + j) := by
  induction n generalizing slot items with
  | zero => cases h; exact ⟨rfl, fun j hj => by omega⟩
  | succ n ih =>
    simp only [uniformItems, bind_eq_bind, bind_eq_some_iff, Option.pure_def,
      Option.some.injEq] at h
    obtain ⟨item, hitem, items', hitems, rfl⟩ := h
    obtain ⟨hlen, hget⟩ := ih hitems
    refine ⟨by rw [length_cons, hlen], fun j hj => ?_⟩
    cases j with
    | zero => exact hitem.symm
    | succ j =>
      rw [getElem?_cons_succ, hget j (by omega), Nat.add_right_comm, Nat.add_assoc]

/-! ## The prologue -/

def storeDefaults (zero : Kind → A) (params : List Nat) : Nat → List (Option Item) →
    (Nat → Option (Value A)) → Nat → Option (Value A)
  | _, [], l => l
  | slot, none :: items, l => storeDefaults zero params (slot + 1) items l
  | slot, some item :: items, l =>
    storeDefaults zero params (slot + 1) items
      (if slot ∈ params then l
      else writeCells l slot (List.replicate item.kind.size (zeroCell zero item.kind)))

variable {q : Nat}

section stores

variable {zero : Kind → A} {params : List Nat} {items : List (Option Item)} {slot j : Nat}
  {l l' : Nat → Option (Value A)}

variable {vs : List (Value A)}

theorem writeCells_below (h : j < slot) : writeCells l slot vs j = l j := by
  induction vs generalizing slot l with
  | nil => rfl
  | cons v vs ih => rw [writeCells, ih (by omega), update_of_ne (by omega)]

theorem writeCells_isSome (h : (l j).isSome) :
    (writeCells l slot vs j).isSome := by
  induction vs generalizing slot l with
  | nil => exact h
  | cons v vs ih =>
    apply ih
    by_cases hj : j = slot
    · simp [hj]
    · rwa [update_of_ne hj]

theorem writeCells_agree (h : ∀ i ≠ q, l i = l' i) :
    ∀ i ≠ q, writeCells l slot vs i = writeCells l' slot vs i := by
  induction vs generalizing slot l l' with
  | nil => exact h
  | cons v vs ih =>
    apply ih
    intro i hi
    by_cases his : i = slot
    · simp [his]
    · rw [update_of_ne his, update_of_ne his, h i hi]

theorem writeCells_overwrite {v : Value A} (h : ∀ i ≠ slot, l i = l' i) :
    writeCells l slot (v :: vs) = writeCells l' slot (v :: vs) := by
  have hupdate : update l slot (some v) = update l' slot (some v) := by
    funext i
    by_cases hi : i = slot
    · simp [hi]
    · rw [update_of_ne hi, update_of_ne hi, h i hi]
  rw [writeCells, writeCells, hupdate]

theorem storeDefaults_keeps
    (h : ∀ p item, items[p]? = some (some item) → slot + p ≤ j → slot + p ∈ params) :
    storeDefaults zero params slot items l j = l j := by
  induction items generalizing slot l with
  | nil => rfl
  | cons item items ih =>
    have hrest : ∀ p item, items[p]? = some (some item) → slot + 1 + p ≤ j →
        slot + 1 + p ∈ params := by
      intro p item hp hle
      have hadd : slot + 1 + p = slot + (p + 1) := by omega
      rw [hadd]
      exact h (p + 1) item (by rwa [getElem?_cons_succ]) (by omega)
    cases item with
    | none => exact ih hrest
    | some item =>
      rw [storeDefaults, ih hrest]
      split
      · rfl
      · next hslot =>
        apply writeCells_below
        by_contra hge
        exact hslot (h 0 item rfl (by omega))

theorem storeDefaults_isSome (h : (l j).isSome) :
    (storeDefaults zero params slot items l j).isSome := by
  induction items generalizing slot l with
  | nil => exact h
  | cons item items ih =>
    cases item with
    | none => exact ih h
    | some item =>
      apply ih
      split
      · exact h
      · exact writeCells_isSome h

theorem storeDefaults_overwrite {p : Nat} {item : Item} (hp : items[p]? = some (some item))
    (hparam : slot + p ∉ params) (h : ∀ i ≠ slot + p, l i = l' i) :
    storeDefaults zero params slot items l = storeDefaults zero params slot items l' := by
  induction items generalizing slot p l l' with
  | nil => cases hp
  | cons head items ih =>
    have hcells : ∀ kind : Kind, ∃ vs : List (Value A),
        List.replicate kind.size (zeroCell zero kind) = zeroCell zero kind :: vs := by
      intro kind
      cases kind <;> exact ⟨_, rfl⟩
    cases p with
    | zero =>
      cases hp
      rw [Nat.add_zero] at hparam h
      obtain ⟨vs, hvs⟩ := hcells item.kind
      rw [storeDefaults, storeDefaults, if_neg hparam, if_neg hparam, hvs,
        writeCells_overwrite h]
    | succ p =>
      have hadd : slot + (p + 1) = slot + 1 + p := by omega
      rw [hadd] at hparam h
      cases head with
      | none => exact ih hp hparam h
      | some head =>
        apply ih hp hparam
        split
        · exact h
        · exact writeCells_agree h

end stores

section prologue

variable {M : Type} [DecidableEq M] {zero : Kind → A}

theorem steps_defaultStores (code rest : List (Insn A Ω k M)) (params : List Nat)
    (items : List (Option Item)) (slot : Nat) (d : Data A Ω) :
    ∃ n, Steps (step zero code) n ⟨defaultStores params slot items ++ rest, d⟩ []
      ⟨rest, { d with locals := storeDefaults zero params slot items d.locals }⟩ := by
  induction items generalizing slot d with
  | nil => exact ⟨0, .zero _⟩
  | cons item items ih =>
    cases item with
    | none => exact ih (slot + 1) d
    | some item =>
      rw [defaultStores, storeDefaults]
      split
      · exact ih (slot + 1) d
      · let cells := List.replicate item.kind.size (zeroCell zero item.kind)
        obtain ⟨n, hn⟩ := ih (slot + 1) { d with locals := writeCells d.locals slot cells }
        have hpush : step zero code
            ⟨.const0 item.kind :: .store item.kind slot ::
              (defaultStores params (slot + 1) items ++ rest), d⟩
            = .go none ⟨.store item.kind slot :: (defaultStores params (slot + 1) items ++ rest),
              { d with stack := cells ++ d.stack }⟩ := rfl
        refine ⟨n + 2, Steps.silent hpush (Steps.silent ?_ hn)⟩
        simp [step, cells]

end prologue

/-! ## Whole runs -/

section runs

variable [DecidableEq L] {zero : Kind → A} {m : Method A Ω k L}
  {code : List (Insn A Ω k (NewLabel L))} {blocks : List (Block A Ω k L)}
  {items : List (Option Item)} {ids : List Nat}

def Method.prepared (m : Method A Ω k L) (zero : Kind → A) (items : List (Option Item))
    (d : Data A Ω) : Data A Ω :=
  { d with locals := storeDefaults zero (parameterSlots m) 0 items d.locals }

theorem steps_prologue (zero : Kind → A) (hf : Flattened m blocks items ids code) :
    ∃ first target, findLabel (.block 0) code = some target ∧ ∀ d : Data A Ω, ∃ n,
      Steps (step zero code) n ⟨code, d⟩ [] ⟨target, { m.prepared zero items d with
        locals := update (m.prepared zero items d).locals k (some (.int first)) }⟩ := by
  obtain ⟨first, order, emitted, hfirst, -, -, hcode⟩ := hf.code
  obtain ⟨b, ending, post, -, -, hblock, -⟩ := findLabel_block hf hf.pos
  refine ⟨first, _, hblock, fun d => ?_⟩
  obtain ⟨target, -, htarget, hgoto⟩ := steps_gotoState hf zero hfirst
    (m.prepared zero items d) (dispatcher items ids ++ emitted)
  obtain rfl := Option.some.inj (hblock.symm.trans htarget)
  obtain ⟨n, hn⟩ := steps_defaultStores code (gotoState first ++ (dispatcher items ids ++ emitted))
    (parameterSlots m) items 0 d
  have hsplit : code = defaultStores (parameterSlots m) 0 items ++
      (gotoState first ++ (dispatcher items ids ++ emitted)) := by
    rw [hcode, prologue, append_assoc, append_assoc]
  refine ⟨n + 7, ?_⟩
  have hall := hn.trans hgoto
  rw [← hsplit] at hall
  exact hall

theorem sameRuns_of_matches (hf : Flattened m blocks items ids code) {d d' : Data A Ω}
    (hd : d.Matches k (m.prepared zero items d'))
    (hrw : ReadsWritten zero m.source ⟨m.source, d⟩) :
    SameRuns (step zero m.source) (step zero code) Obs.Matches ⟨m.source, d⟩ ⟨code, d'⟩ := by
  obtain ⟨first, target, htarget, hprologue⟩ := steps_prologue zero hf
  obtain ⟨n, hn⟩ := hprologue d'
  exact sameRuns_of_simulation (fun s t => advance_block hf) hn
    ⟨0, hf.pos, source_start hf, htarget, hd.setState _, hrw⟩

/-! ### Until the first instruction -/

def State.withLocals (s : State A Ω k L) (l : Nat → Option (Value A)) : State A Ω k L :=
  { s with data := { s.data with locals := l } }

omit [DecidableEq L] in
def Plain (rest : List (Insn A Ω k L)) : Prop := ∃ ns : List (Node A Ω k L), rest = ns.map .node

theorem plain_findLabel {l : L} {ns : List (Node A Ω k L)} {rest : List (Insn A Ω k L)}
    (h : findLabel l (ns.map .node) = some rest) : Plain rest := by
  induction ns with
  | nil => cases h
  | cons n ns ih =>
    rw [map_cons] at h
    cases n with
    | label l' =>
      rw [findLabel] at h
      split at h
      · cases h; exact ⟨.label l' :: ns, rfl⟩
      · exact ih h
    | line | frame | op | goto | cond | exit | unsupported => exact ih h

variable {s : State A Ω k L}

variable {s' : State A Ω k L}

theorem silent_withLocals (hplain : Plain s.rest) (h : step zero m.source s = .go none s')
    (l : Nat → Option (Value A)) :
    Plain s'.rest ∧ step zero m.source (s.withLocals l) = .go none (s'.withLocals l) := by
  obtain ⟨rest, d⟩ := s
  obtain ⟨ns, rfl⟩ : Plain rest := hplain
  have hjump : ∀ {l : L} {target : List (Insn A Ω k L)}, findLabel l m.source = some target →
      Plain target := fun h => plain_findLabel h
  cases ns with
  | nil => cases h
  | cons n ns =>
    cases n with
    | label | line | frame => cases h; exact ⟨⟨ns, rfl⟩, rfl⟩
    | op o =>
      simp only [step, map_cons] at h
      split at h <;> cases h
    | goto target =>
      simp only [step, map_cons] at h
      split at h
      · next rest hfind =>
        cases h
        exact ⟨hjump hfind, step_goto hfind⟩
      · cases h
    | cond c target =>
      by_cases hc : c.test d.stack = true
      · simp only [step, map_cons, hc, if_true] at h
        split at h
        · next rest hfind =>
          cases h
          exact ⟨hjump hfind, step_cond_taken hc hfind⟩
        · cases h
      · have hc' : c.test d.stack = false := Bool.eq_false_iff.mpr hc
        have hstep := (step_cond_not hc').symm.trans h
        cases hstep
        exact ⟨⟨ns, rfl⟩, step_cond_not hc'⟩
    | exit | unsupported => cases h

variable {tr : List (Obs A Ω k)}

theorem steps_withLocals (h : Steps (step zero m.source) n s tr s') (htr : tr = [])
    (hplain : Plain s.rest) (l : Nat → Option (Value A)) :
    Plain s'.rest ∧ Steps (step zero m.source) n (s.withLocals l) [] (s'.withLocals l) := by
  induction h with
  | zero s => exact ⟨hplain, .zero _⟩
  | @succ n s s₁ t out tr hs _ ih =>
    obtain ⟨hout, htr⟩ := append_eq_nil_iff.mp htr
    obtain rfl : out = none := Option.toList_eq_nil_iff.mp hout
    obtain ⟨hplain₁, hs'⟩ := silent_withLocals hplain hs l
    obtain ⟨hplain', hrest⟩ := ih htr hplain₁
    exact ⟨hplain', hrest.silent hs'⟩

theorem emits_withLocals (hplain : Plain s.rest) {x : Obs A Ω k}
    (h : Emits (step zero m.source) s x) (l : Nat → Option (Value A)) :
    ∃ y : Obs A Ω k, Emits (step zero m.source) (s.withLocals l) y ∧ y.data.locals = l := by
  obtain ⟨rest, d⟩ := s
  obtain ⟨ns, rfl⟩ : Plain rest := hplain
  -- Only an ordinary instruction or an exit leaves an observation.
  cases ns with
  | nil => rcases h with ⟨s', h⟩ | ⟨r, h⟩ <;> cases h
  | cons n ns =>
    cases n with
    | label | line | frame => exact absurd rfl h.not_silent
    | op o =>
      refine ⟨.op o { d with locals := l }, ?_, rfl⟩
      cases he : o.eff d.stack (fun i => l i) d.world with
      | next stack writes world => exact .inl ⟨_, step_op_next he⟩
      | throw e world => exact .inr ⟨_, step_op_throw he⟩
    | goto target =>
      rcases h with ⟨s', h⟩ | ⟨r, h⟩ <;> simp only [step, map_cons] at h <;>
        split at h <;> cases h
    | cond c target =>
      rcases h with ⟨s', h⟩ | ⟨r, h⟩ <;> simp only [step, map_cons] at h <;>
        split at h <;> first | (split at h <;> cases h) | cases h
    | exit x => exact ⟨.exit x { d with locals := l }, .inr ⟨_, rfl⟩, rfl⟩
    | unsupported => rcases h with ⟨s', h⟩ | ⟨r, h⟩ <;> cases h

theorem first_instruction {contents : Nat → Value A} {world : Ω} (htr : tr ≠ [])
    (contents' : Nat → Value A)
    (h : Observes (step zero m.source) ⟨m.source, m.entry contents world⟩ tr) :
    ∃ y : Obs A Ω k, Observes (step zero m.source) ⟨m.source, m.entry contents' world⟩ [y] ∧
      y.data.locals = (m.entry contents' world).locals := by
  obtain ⟨x, tr, rfl⟩ := exists_cons_of_ne_nil htr
  obtain ⟨n, u, hn, hx⟩ := h.first
  obtain ⟨hplain, hn'⟩ := steps_withLocals hn rfl ⟨m.nodes, rfl⟩ (m.entry contents' world).locals
  obtain ⟨y, hy, hlocals⟩ := emits_withLocals hplain hx (m.entry contents' world).locals
  exact ⟨y, hy.observes hn', hlocals⟩

end runs

/-! ## The result -/

section result

variable [DecidableEq L] {execute : Node A Ω k L → Frame → Option Frame}
  {verifies : List (Insn A Ω k (NewLabel L)) → Bool} {nextInt : G → Nat → Nat × G} {fuel : Nat}
  {g : G} {zero : Kind → A} {m : Method A Ω k L} {code : List (Insn A Ω k (NewLabel L))}
  {blocks : List (Block A Ω k L)} {frames : List Frame} {items : List (Option Item)}
  {ids : List Nat}

def Method.Idles (m : Method A Ω k L) (zero : Kind → A) : Prop :=
  ∀ contents world tr,
    Observes (step zero m.source) ⟨m.source, m.entry contents world⟩ tr → tr = []

omit [DecidableEq L] in
theorem matches_prepared (hitems : buildUniformLocals k frames = some items)
    (huntyped : ∀ f ∈ frames, ∀ slot ∈ m.secondSlots, f.untyped slot) (contents : Nat → Value A)
    (world : Ω) :
    (m.entry contents world).Matches k (m.prepared zero items (m.entry contents world)) := by
  refine ⟨rfl, rfl, fun i hi v hv => ?_⟩
  obtain ⟨-, hget⟩ := getElem?_uniformItems hitems
  have hparam : i < m.paramCells := by
    by_contra hge
    simp only [Method.entry, if_neg hge] at hv
    cases hv
  have hkeep : storeDefaults zero (parameterSlots m) 0 items (m.entry contents world).locals i
      = (m.entry contents world).locals i := by
    apply storeDefaults_keeps
    intro p item hp hle
    rw [Nat.zero_add] at hle ⊢
    rcases mem_parameterSlots (show p < m.paramCells by omega) with h | h
    · exact h
    · -- A typed second slot would have an item.
      rw [hget p (by omega), Nat.zero_add,
        uniformItem_eq_none.mpr fun f hf => huntyped f hf p h] at hp
      cases hp
  exact hkeep.trans hv

theorem paramCells_le_of_leaders (hf : Flattened m blocks items ids code)
    (hframes : computeLeaderFrames execute m blocks = some frames) : m.paramCells ≤ k := by
  obtain ⟨b, rest, rfl⟩ := exists_cons_of_ne_nil (length_pos_iff.mp hf.pos)
  simp only [computeLeaderFrames, leaderFrames, bind_eq_bind,
    bind_eq_some_iff] at hframes
  obtain ⟨f, hentry, -⟩ := hframes
  exact paramCells_le hentry

theorem not_preserved_of_typed (hf : Flattened m blocks items ids code)
    (hitems : buildUniformLocals k frames = some items) (hmem : f ∈ frames) (hq : q ∈ m.secondSlots)
    (hk : q < k) (htyped : ¬ f.untyped q) (hidle : ¬ m.Idles zero) :
    ¬ Preserved zero m code := by
  intro hpres
  obtain ⟨hparam, hnot⟩ := secondSlots_spec hq
  obtain ⟨hlen, hget⟩ := getElem?_uniformItems hitems
  obtain ⟨item, hitem⟩ : ∃ item, items[q]? = some (some item) := by
    obtain ⟨o, ho⟩ : ∃ o, items[q]? = some o := by
      rw [getElem?_eq_getElem (by omega)]; exact ⟨_, rfl⟩
    cases o with
    | some item => exact ⟨item, ho⟩
    | none =>
      rw [hget q hk, Nat.zero_add] at ho
      exact absurd (uniformItem_eq_none.mp ho f hmem) htyped
  simp only [Method.Idles, not_forall] at hidle
  obtain ⟨contents, world, tr, hobs, htr⟩ := hidle
  obtain ⟨first, target, -, hprologue⟩ := steps_prologue zero hf
  -- With `n` in the slot, the first instruction of the flattened body must see `n`.
  have hsees : ∀ n : Int, ∃ j w y,
      Steps (step zero code) j ⟨target, { m.prepared zero items
        (m.entry (update contents q (.int n)) world) with
        locals := update (m.prepared zero items
          (m.entry (update contents q (.int n)) world)).locals k
          (some (.int first)) }⟩ [] w ∧
      Emits (step zero code) w y ∧ y.data.locals q = some (.int n) := by
    intro n
    obtain ⟨y, hy, hlocals⟩ := first_instruction htr (update contents q (.int n)) hobs
    obtain ⟨tr', hM, hobs'⟩ := (hpres _ world).forward.observes [y] hy
    obtain ⟨j, hj⟩ := hprologue (m.entry (update contents q (.int n)) world)
    cases hM with
    | @cons _ y' _ _ hyy hnil =>
      obtain ⟨i, w, hw, hemit⟩ := hobs'.first_after hj
      refine ⟨i, w, y', hw, hemit, ?_⟩
      have hval : y.data.locals q = some (.int n) := by
        rw [hlocals]
        simp [Method.entry, hparam]
      cases hyy with
      | op o h => exact h.locals q hk _ hval
      | exit x h => exact h.locals q hk _ hval
  -- But it starts from the same state for every `n`.
  have hsame : m.prepared zero items (m.entry (update contents q (.int 0)) world)
      = m.prepared zero items (m.entry (update contents q (.int 1)) world) := by
    unfold Method.prepared
    congr 1
    apply storeDefaults_overwrite hitem (by rwa [Nat.zero_add])
    intro i hi
    rw [Nat.zero_add] at hi
    simp [Method.entry, update_of_ne hi]
  obtain ⟨j, w, y, hw, hy, hyq⟩ := hsees 0
  obtain ⟨j', w', y', hw', hy', hyq'⟩ := hsees 1
  rw [hsame] at hw
  obtain rfl := Emits.unique hw hy hw' hy'
  rw [hyq] at hyq'
  cases hyq'

omit [DecidableEq L] in
theorem step_done_ne_none {M : Type} [DecidableEq M] {code : List (Insn A Ω k M)}
    {s : State A Ω k M} {r : Leave A Ω} : step zero code s ≠ .done none r := by
  -- only the jumps leave a search for their label
  fun_cases step zero code s <;> intro h
  any_goals cases h
  all_goals
    dsimp +zetaDelta only at h
    split at h <;> cases h

theorem preserved_of_idles (hf : Flattened m blocks items ids code)
    (hverified : ∀ contents world, ReadsWritten zero m.source ⟨m.source, m.entry contents world⟩)
    (hidle : m.Idles zero) : Preserved zero m code := by
  intro contents world
  have hends : ∀ contents tr r,
      ¬ Ends (step zero m.source) ⟨m.source, m.entry contents world⟩ tr r := by
    rintro contents tr r ⟨n, s, tr', out, hn, hdone, rfl⟩
    have hnil := hidle contents world _ (.inr ⟨r, n, s, tr', out, hn, hdone, rfl⟩)
    obtain rfl : out = none := Option.toList_eq_nil_iff.mp (append_eq_nil_iff.mp hnil).2
    exact step_done_ne_none hdone
  -- The original run that matches starts from the parameters the prologue leaves.
  let contents' : Nat → Value A := fun i =>
    ((m.prepared zero items (m.entry contents world)).locals i).getD (.int 0)
  have hmatch : (m.entry contents' world).Matches k
      (m.prepared zero items (m.entry contents world)) := by
    refine ⟨rfl, rfl, fun i _ v hv => ?_⟩
    by_cases hi : i < m.paramCells
    · simp only [Method.entry, if_pos hi] at hv
      have hsome : ((m.prepared zero items (m.entry contents world)).locals i).isSome :=
        storeDefaults_isSome (by simp [Method.entry, hi])
      obtain ⟨w, hw⟩ := Option.isSome_iff_exists.mp hsome
      rw [← hv]
      simp [contents', hw]
    · simp only [Method.entry, if_neg hi] at hv
      cases hv
  have hsame := sameRuns_of_matches hf hmatch (hverified contents' world)
  obtain ⟨_, target, htarget, -⟩ := steps_prologue zero hf
  have hstuck : NeverStuck (step zero m.source) ⟨m.source, m.entry contents world⟩ :=
    (follows_of_simulation (fun s t => advance_block hf) (t := ⟨target, m.entry contents world⟩)
      ⟨0, hf.pos, source_start hf, htarget, ⟨rfl, rfl, fun _ _ _ h => h⟩,
        hverified contents world⟩).never_stuck
  have hdiv := diverges_of_not_ends hstuck (hends contents)
  have hdiv' := hsame.forward.diverges
    (diverges_of_not_ends hsame.forward.never_stuck (hends contents'))
  constructor
  · refine ⟨fun tr r h => absurd h (hends contents tr r), fun tr h => ?_, fun _ => hdiv', hstuck⟩
    rw [hidle contents world tr h]
    exact ⟨[], .nil, .inl ⟨0, _, .zero _⟩⟩
  · refine ⟨fun tr r h => ?_, fun tr h => ?_, fun _ => hdiv, hsame.backward.never_stuck⟩
    · obtain ⟨tr', -, h'⟩ := hsame.backward.ends tr r h
      exact absurd h' (hends contents' tr' r)
    · obtain ⟨tr', hM, h'⟩ := hsame.backward.observes tr h
      rw [hidle contents' world tr' h'] at hM
      cases hM
      exact ⟨[], .nil, .inl ⟨0, _, .zero _⟩⟩

theorem not_preserved_of_flatten (h : flatten execute verifies nextInt fuel g m = some code)
    (htyped : ¬ SecondSlotsUntyped execute m) (hidle : ¬ m.Idles zero) :
    ¬ Preserved zero m code := by
  obtain ⟨blocks, frames, items, ids, hblocks, hframes, hitems, hf⟩ := flattened_of_flatten h
  simp only [SecondSlotsUntyped, not_forall] at htyped
  obtain ⟨blocks', frames', hblocks', hframes', f, hmem, q, hq, hty⟩ := htyped
  obtain rfl : blocks = blocks' := Option.some.inj (hblocks.symm.trans hblocks')
  obtain rfl : frames = frames' := Option.some.inj (hframes.symm.trans hframes')
  have hk : q < k :=
    Nat.lt_of_lt_of_le (secondSlots_spec hq).1 (paramCells_le_of_leaders hf hframes)
  exact not_preserved_of_typed hf hitems hmem hq hk hty hidle

/--
**When flattening preserves a method.** A flattened method whose instructions read written locals
only behaves as before, for all contents of its parameters, exactly if no block is entered with
a type for the second slot of a `long` or `double` parameter, or the method never gets beyond
jumps.
-/
theorem flatten_preserved_iff (h : flatten execute verifies nextInt fuel g m = some code)
    (hverified : ∀ contents world, ReadsWritten zero m.source ⟨m.source, m.entry contents world⟩) :
    Preserved zero m code ↔ SecondSlotsUntyped execute m ∨ m.Idles zero := by
  constructor
  · intro hpres
    by_contra hn
    rw [not_or] at hn
    exact not_preserved_of_flatten h hn.1 hn.2 hpres
  · obtain ⟨blocks, frames, items, ids, hblocks, hframes, hitems, hf⟩ := flattened_of_flatten h
    rintro (huntyped | hidle)
    · intro contents world
      exact sameRuns_of_matches hf
        (matches_prepared hitems (huntyped blocks frames hblocks hframes) contents world)
        (hverified contents world)
    · exact preserved_of_idles hf hverified hidle

end result

/-! ## A method with a wide parameter -/

section sample

def load (slots : List (Fin 5)) : Op Nat Unit 5 where
  reads i := decide (i ∈ slots)
  eff stack l world := .next (slots.map (fun i => (l i).getD (.int 0)) ++ stack) (fun _ => none) world
  eff_congr := by
    intro stack world l l' h
    have hmap : slots.map (fun i => (l i).getD (.int 0)) = slots.map fun i => (l' i).getD (.int 0) :=
      map_congr_left fun i hi => by rw [h i (by simpa using hi)]
    rw [hmap]

def store (slots : List (Fin 5)) : Op Nat Unit 5 where
  reads _ := false
  eff stack _ world :=
    .next (stack.drop slots.length) (fun i => (slots.idxOf? i).bind (stack[·]?)) world
  eff_congr := fun _ _ _ _ _ => rfl

def ifeq : Cond Nat where
  test stack := stack.head? == some (.int 0)
  pop stack := stack.tail

/--
`static long m(long p)`: copies `p` and returns the copy. The code between the two, at label 1,
is dead; its frame types local `slot` as an `int`.
-/
def sampleMethod (slot : Fin 5) : Method Nat Unit 5 Nat where
  owner := "A"
  name := "m"
  isStatic := true
  isAbstract := false
  isNative := false
  hasTryCatch := false
  args := [.long]
  maxStack := 2
  nodes :=
    [.op (load [0, 1]), .op (store [2, 3]), .goto 2,
      .label 1, .frame ⟨true, List.replicate slot .top ++ [.integer], []⟩, .op (load [slot]),
      .cond ifeq 1,
      .goto 1,
      .label 2, .frame ⟨true, [.long, .long], []⟩, .op (load [2, 3]), .exit .lreturn]
  labels_nodup := show [1, 2].Nodup by decide

def sampleExecute : Node Nat Unit 5 Nat → Frame → Option Frame
  | .op o, f =>
    if o.reads 0 || o.reads 2 then some { f with stack := .long :: f.stack }
    else if o.reads 1 || o.reads 4 then some { f with stack := .int :: f.stack }
    else some ⟨(f.locals.set 2 .long).set 3 .uninitialized, f.stack.tail⟩
  | .cond _ _, f | .exit _, f => some { f with stack := f.stack.tail }
  | _, f => some f

def sampleNextInt (g bound : Nat) : Nat × Nat := (g % bound, g + 1)

def sampleFlatten (slot : Fin 5) : Option (List (Insn Nat Unit 5 (NewLabel Nat))) :=
  flatten sampleExecute (fun _ => true) sampleNextInt 4 0 (sampleMethod slot)

theorem sampleFlatten_isSome : (sampleFlatten 1).isSome ∧ (sampleFlatten 4).isSome := by
  decide

theorem ReadsWritten.of_step {M : Type} [DecidableEq M] {zero : Kind → A}
    {code : List (Insn A Ω k M)} {s : State A Ω k M}
    (hhere : ∀ o rest, s.rest = .node (.op o) :: rest →
      ∀ i : Fin k, o.reads i = true → s.data.locals i ≠ none)
    (hnext : ∀ out s', step zero code s = .go out s' → ReadsWritten zero code s') :
    ReadsWritten zero code s := by
  intro n tr s' h
  cases h with
  | zero => exact hhere
  | succ hs hrest => exact hnext _ _ hs _ _ _ hrest

theorem reads_load {slots : List (Fin 5)} {l : Nat → Option (Value Nat)}
    (h : ∀ i ∈ slots, (l i).isSome) (i : Fin 5) (hi : (load slots).reads i = true) : l i ≠ none :=
  Option.isSome_iff_ne_none.mp (h i (of_decide_eq_true hi))

theorem readsWritten_sampleMethod (slot : Fin 5) (contents : Nat → Value Nat) (world : Unit) :
    ReadsWritten (fun _ => 0) (sampleMethod slot).source
      ⟨(sampleMethod slot).source, (sampleMethod slot).entry contents world⟩ := by
  refine .of_step (fun o rest h => ?_) fun out s' h => ?_
  · cases h
    refine reads_load fun i hi => ?_
    rcases mem_pair.mp hi with rfl | rfl <;> rfl
  cases h
  refine .of_step (fun o rest h => ?_) fun out s' h => ?_
  · cases h
    intro i hi
    cases hi
  cases h
  -- `GOTO`, the label and the frame behind it.
  iterate 3
    refine .of_step (fun o rest h => by cases h) fun out s' h => ?_
    cases h
  refine .of_step (fun o rest h => ?_) fun out s' h => ?_
  · cases h
    refine reads_load fun i hi => ?_
    rcases mem_pair.mp hi with rfl | rfl <;> rfl
  cases h
  exact .of_step (fun o rest h => by cases h) fun out s' h => by cases h

def sampleFrames (slot : Nat) : List Frame :=
  let blank : List BasicValue := List.replicate 5 .uninitialized
  [⟨blank.set 0 .long, []⟩, ⟨blank.set slot .int, []⟩, ⟨blank.set slot .int, []⟩,
    ⟨(blank.set 0 .long).set 2 .long, []⟩]

theorem leaderFrames_sampleMethod :
    (splitBlocks (sampleMethod 1)).bind (computeLeaderFrames sampleExecute (sampleMethod 1))
      = some (sampleFrames 1) ∧
    (splitBlocks (sampleMethod 4)).bind (computeLeaderFrames sampleExecute (sampleMethod 4))
      = some (sampleFrames 4) := by
  decide

theorem secondSlotsUntyped_iff [DecidableEq L] {execute : Node A Ω k L → Frame → Option Frame}
    {m : Method A Ω k L} {frames : List Frame}
    (h : (splitBlocks m).bind (computeLeaderFrames execute m) = some frames) :
    SecondSlotsUntyped execute m ↔ ∀ f ∈ frames, ∀ slot ∈ m.secondSlots, f.untyped slot := by
  obtain ⟨blocks, hblocks, hframes⟩ := bind_eq_some_iff.mp h
  constructor
  · exact fun hu => hu blocks frames hblocks hframes
  · intro hu blocks' frames' hblocks' hframes'
    obtain rfl : blocks = blocks' := Option.some.inj (hblocks.symm.trans hblocks')
    obtain rfl : frames = frames' := Option.some.inj (hframes.symm.trans hframes')
    exact hu

theorem flatten_preserved_iff_sample :
    ∃ code, sampleFlatten 4 = some code ∧ Preserved (fun _ => 0) (sampleMethod 4) code := by
  obtain ⟨code, hcode⟩ := Option.isSome_iff_exists.mp sampleFlatten_isSome.2
  have huntyped : SecondSlotsUntyped sampleExecute (sampleMethod 4) := by
    rw [secondSlotsUntyped_iff leaderFrames_sampleMethod.2]
    unfold Frame.untyped
    decide
  exact ⟨code, hcode,
    (flatten_preserved_iff hcode (readsWritten_sampleMethod 4)).mpr (.inl huntyped)⟩

theorem flatten_wideParam_not_preserved :
    ∃ code, sampleFlatten 1 = some code ∧
      (∀ contents world, ReadsWritten (fun _ => 0) (sampleMethod 1).source
        ⟨(sampleMethod 1).source, (sampleMethod 1).entry contents world⟩) ∧
      ¬ Preserved (fun _ => 0) (sampleMethod 1) code := by
  obtain ⟨code, hcode⟩ := Option.isSome_iff_exists.mp sampleFlatten_isSome.1
  refine ⟨code, hcode, readsWritten_sampleMethod 1, not_preserved_of_flatten hcode ?_ ?_⟩
  · rw [secondSlotsUntyped_iff leaderFrames_sampleMethod.1]
    unfold Frame.untyped
    decide
  · -- The first instruction is `LLOAD 0`.
    intro hidle
    have hfirst : Emits (step (fun _ => 0) (sampleMethod 1).source)
        ⟨(sampleMethod 1).source, (sampleMethod 1).entry (fun _ => .int 0) ()⟩ _ :=
      .inl ⟨_, rfl⟩
    cases hidle _ _ _ (hfirst.observes (Steps.zero _))

end sample

end Kseal.Gradle
