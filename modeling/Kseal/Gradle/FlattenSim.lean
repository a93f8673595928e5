import Kseal.Gradle.FlattenLayout

/-!
# Flattening block by block

A local that the original has not written has no value to compare; in the flattened form it may hold
a default (`advance_block`).
-/

namespace Kseal.Gradle

open Infra List

variable {A Ω L G : Type} {k : Nat}

/-! ## What is compared -/

structure Data.Matches (k : Nat) (d d' : Data A Ω) : Prop where
  stack : d.stack = d'.stack
  world : d.world = d'.world
  locals : ∀ i < k, ∀ v, d.locals i = some v → d'.locals i = some v

inductive Obs.Matches : Obs A Ω k → Obs A Ω k → Prop where
  | op (o : Op A Ω k) {d d' : Data A Ω} (h : d.Matches k d') : Matches (.op o d) (.op o d')
  | exit (x : ExitOp) {d d' : Data A Ω} (h : d.Matches k d') : Matches (.exit x d) (.exit x d')

def Obs.data : Obs A Ω k → Data A Ω
  | .op _ d => d
  | .exit _ d => d

def argCells : List ArgType → Nat
  | [] => 0
  | arg :: args => arg.size + argCells args

def Method.paramCells (m : Method A Ω k L) : Nat :=
  (if m.isStatic then 0 else 1) + argCells m.args

def Method.entry (m : Method A Ω k L) (contents : Nat → Value A) (world : Ω) : Data A Ω where
  stack := []
  locals i := if i < m.paramCells then some (contents i) else none
  world := world

def ReadsWritten [DecidableEq L] (zero : Kind → A) (code : List (Insn A Ω k L))
    (s : State A Ω k L) : Prop :=
  ∀ n tr s', Steps (step zero code) n s tr s' → ∀ o rest, s'.rest = .node (.op o) :: rest →
    ∀ i : Fin k, o.reads i = true → s'.data.locals i ≠ none

def Preserved [DecidableEq L] (zero : Kind → A) (m : Method A Ω k L)
    (code : List (Insn A Ω k (NewLabel L))) : Prop :=
  ∀ contents world, SameRuns (step zero m.source) (step zero code) Obs.Matches
    ⟨m.source, m.entry contents world⟩ ⟨code, m.entry contents world⟩

variable {s : State A Ω k L}

theorem ReadsWritten.steps [DecidableEq L] {zero : Kind → A} {code : List (Insn A Ω k L)}
    {s' : State A Ω k L} {n : Nat} {tr : List (Obs A Ω k)} (h : ReadsWritten zero code s)
    (hs : Steps (step zero code) n s tr s') : ReadsWritten zero code s' :=
  fun _ _ _ hs' => h _ _ _ (hs.trans hs')

/-! ## Matching data -/

variable {d' : Data A Ω}

theorem Data.Matches.setStack {d : Data A Ω} (h : d.Matches k d') (stack : List (Value A)) :
    Data.Matches k { d with stack := stack } { d' with stack := stack } :=
  ⟨rfl, h.world, h.locals⟩

theorem Data.Matches.setState {d : Data A Ω} (h : d.Matches k d') (v : Value A) :
    d.Matches k { d' with locals := Function.update d'.locals k (some v) } := by
  refine ⟨h.stack, h.world, fun i hi w hw => ?_⟩
  have hne : i ≠ k := by omega
  simp only [Function.update_of_ne hne]
  exact h.locals i hi w hw

theorem Data.Matches.applyWrites {d : Data A Ω} (h : d.Matches k d') (stack : List (Value A))
    (writes : Fin k → Option (Value A)) (world : Ω) :
    Data.Matches k ⟨stack, applyWrites d.locals writes, world⟩
      ⟨stack, applyWrites d'.locals writes, world⟩ := by
  refine ⟨rfl, rfl, fun i hi v hv => ?_⟩
  simp only [Gradle.applyWrites, dif_pos hi] at hv ⊢
  cases hw : writes ⟨i, hi⟩ with
  | none => rw [hw] at hv; exact h.locals i hi v hv
  | some w => rw [hw] at hv; exact hv

variable {o : Op A Ω k}

theorem Data.Matches.eff_eq {d : Data A Ω} (h : d.Matches k d')
    (hr : ∀ i : Fin k, o.reads i = true → d.locals i ≠ none) :
    o.eff d'.stack (fun i => d'.locals i) d'.world
      = o.eff d.stack (fun i => d.locals i) d.world := by
  rw [← h.stack, ← h.world]
  apply o.eff_congr
  intro i hi
  obtain ⟨v, hv⟩ := Option.ne_none_iff_exists'.mp (hr i hi)
  rw [hv, h.locals i i.isLt v hv]

/-! ## Single steps -/

section steps

variable {M : Type} [DecidableEq M] {zero : Kind → A} {code rest : List (Insn A Ω k M)}
  {d : Data A Ω}

theorem steps_label (l : M) :
    Steps (step zero code) 1 ⟨.node (.label l) :: rest, d⟩ [] ⟨rest, d⟩ := Steps.one_silent rfl

theorem steps_line :
    Steps (step zero code) 1 ⟨.node .line :: rest, d⟩ [] ⟨rest, d⟩ := Steps.one_silent rfl

theorem steps_frame (f : FrameNode) :
    Steps (step zero code) 1 ⟨.node (.frame f) :: rest, d⟩ [] ⟨rest, d⟩ := Steps.one_silent rfl

variable {l : M} {target : List (Insn A Ω k M)}

theorem step_goto (h : findLabel l code = some target) :
    step zero code ⟨.node (.goto l) :: rest, d⟩ = .go none ⟨target, d⟩ := by
  simp only [step, h]

variable {c : Cond A}

theorem step_cond_taken (hc : c.test d.stack = true) (h : findLabel l code = some target) :
    step zero code ⟨.node (.cond c l) :: rest, d⟩
      = .go none ⟨target, { d with stack := c.pop d.stack }⟩ := by
  simp only [step, hc, if_true, h]

theorem step_cond_not (hc : c.test d.stack = false) :
    step zero code ⟨.node (.cond c l) :: rest, d⟩
      = .go none ⟨rest, { d with stack := c.pop d.stack }⟩ := by
  simp [step, hc]

variable {world : Ω}

theorem step_op_next {stack : List (Value A)} {writes : Fin k → Option (Value A)}
    (h : o.eff d.stack (fun i => d.locals i) d.world = .next stack writes world) :
    step zero code ⟨.node (.op o) :: rest, d⟩
      = .go (some (.op o d)) ⟨rest, ⟨stack, applyWrites d.locals writes, world⟩⟩ := by
  simp only [step, h]

theorem step_op_throw {e : Value A}
    (h : o.eff d.stack (fun i => d.locals i) d.world = .throw e world) :
    step zero code ⟨.node (.op o) :: rest, d⟩ = .done (some (.op o d)) (.thrown e world) := by
  simp only [step, h]

theorem step_pushInt (v : Int) :
    step zero code ⟨pushInt v :: rest, d⟩
      = .go none ⟨rest, { d with stack := .int v :: d.stack }⟩ := by
  unfold pushInt
  split
  · have hv : iconst0 + v - iconst0 = v := by omega
    simp [step, hv]
  · split
    · rfl
    · split <;> rfl

end steps

/-! ## One block -/

section block

variable [DecidableEq L] {zero : Kind → A} {m : Method A Ω k L}
  {code : List (Insn A Ω k (NewLabel L))} {a b : Nat}
  {R : State A Ω k L → State A Ω k (NewLabel L) → Prop}

def copyNodes (ns : List (Node A Ω k L)) : List (Insn A Ω k (NewLabel L)) :=
  (ns.filter fun n => !n.isFrame).map fun n => .node n.clone

/--
The instructions of a block before its jump: both machines run through them to matching data,
or both leave with the same exception.
-/
theorem advance_body {rest : List (Insn A Ω k L)} {rest' : List (Insn A Ω k (NewLabel L))}
    (hrest : ∀ e e', e.Matches k e' → ReadsWritten zero m.source ⟨rest, e⟩ →
      Advance (step zero m.source) (step zero code) Obs.Matches a b R ⟨rest, e⟩ ⟨rest', e'⟩) :
    ∀ (ns : List (Node A Ω k L)) (d d' : Data A Ω),
      (∀ n ∈ ns, n.endsBlock = false ∧ n.isUnsupported = false) → d.Matches k d' →
      ReadsWritten zero m.source ⟨ns.map .node ++ rest, d⟩ →
      Advance (step zero m.source) (step zero code) Obs.Matches (ns.length + a) b R
        ⟨ns.map .node ++ rest, d⟩ ⟨copyNodes ns ++ rest', d'⟩
  | [], d, d', _, hd, hrw => (hrest d d' hd hrw).weaken (by simp) (Nat.le_refl b) fun _ _ h => h
  | n :: ns, d, d', hns, hd, hrw => by
    have hns' := fun x hx => hns x (mem_cons_of_mem n hx)
    have hlen : (n :: ns).length + a = 1 + (ns.length + a) := by
      rw [length_cons]; omega
    rw [hlen]
    cases n with
    | label l =>
      have ih := advance_body hrest ns d d' hns' hd (hrw.steps (steps_label l))
      exact ((ih.right (steps_label _)).left (steps_label l)).weaken (Nat.le_refl _) (by omega)
        fun _ _ h => h
    | line =>
      have ih := advance_body hrest ns d d' hns' hd (hrw.steps steps_line)
      exact ((ih.right steps_line).left steps_line).weaken (Nat.le_refl _) (by omega)
        fun _ _ h => h
    | frame f =>
      -- The frames of the original are missing from the flattened body.
      exact (advance_body hrest ns d d' hns' hd (hrw.steps (steps_frame f))).left (steps_frame f)
    | op o =>
      have hreads : ∀ i : Fin k, o.reads i = true → d.locals i ≠ none :=
        hrw 0 [] _ (.zero _) o _ rfl
      have heff := hd.eff_eq hreads
      cases he : o.eff d.stack (fun i => d.locals i) d.world with
      | throw e world =>
        exact Advance.done (step_op_throw he) (step_op_throw (heff.trans he)) (.op o hd)
      | next stack writes world =>
        have ih := advance_body hrest ns _ _ hns' (hd.applyWrites stack writes world)
          (hrw.steps (Steps.one (step_op_next he)))
        exact (Advance.both (step_op_next he) (step_op_next (heff.trans he)) (.op o hd) ih).weaken
          (Nat.le_refl _) (by omega) fun _ _ h => h
    | goto l => cases (hns _ mem_cons_self).1
    | cond c l => cases (hns _ mem_cons_self).1
    | exit x => cases (hns _ mem_cons_self).1
    | unsupported => cases (hns _ mem_cons_self).2

variable {blocks : List (Block A Ω k L)} {items : List (Option Item)} {ids : List Nat}

variable {i : Nat}

omit [DecidableEq L] in
theorem sourceFrom_eq {b : Block A Ω k L} (h : blocks[i]? = some b) :
    sourceFrom blocks i = b.map .node ++ sourceFrom blocks (i + 1) := by
  obtain ⟨hi, rfl⟩ := List.getElem?_eq_some_iff.mp h
  rw [sourceFrom, drop_eq_getElem_cons hi, flatten_cons, map_append]
  rfl

def AtBlock (zero : Kind → A) (m : Method A Ω k L) (blocks : List (Block A Ω k L))
    (code : List (Insn A Ω k (NewLabel L))) (s : State A Ω k L) (t : State A Ω k (NewLabel L)) :
    Prop :=
  ∃ i < blocks.length, s.rest = sourceFrom blocks i ∧ findLabel (.block i) code = some t.rest ∧
    s.data.Matches k t.data ∧ ReadsWritten zero m.source s

variable (hf : Flattened m blocks items ids code)

include hf

variable {j id : Nat}

theorem steps_gotoState (zero : Kind → A) (hid : ids[j]? = some id) (d : Data A Ω)
    (rest : List (Insn A Ω k (NewLabel L))) :
    ∃ target, j < blocks.length ∧ findLabel (.block j) code = some target ∧
      Steps (step zero code) 7 ⟨gotoState id ++ rest, d⟩ []
        ⟨target, { d with locals := Function.update d.locals k (some (.int id)) }⟩ := by
  have hj : j < blocks.length := by
    obtain ⟨hj, -⟩ := List.getElem?_eq_some_iff.mp hid
    rwa [hf.ids_length] at hj
  obtain ⟨b, ending, post, -, -, hblock, -⟩ := findLabel_block hf hj
  obtain ⟨rest', hdispatch⟩ := findLabel_dispatch hf
  refine ⟨_, hj, hblock, ?_⟩
  let e : Data A Ω := { d with locals := Function.update d.locals k (some (.int id)) }
  have hstore : step zero code ⟨.store .int k :: .node (.goto .dispatch) :: rest,
      { d with stack := .int id :: d.stack }⟩ = .go none ⟨.node (.goto .dispatch) :: rest, e⟩ := rfl
  have hload : step zero code ⟨.iload k :: .lookupSwitch (.block 0) (switchCases ids) :: rest', e⟩
      = .go none ⟨.lookupSwitch (.block 0) (switchCases ids) :: rest',
        { e with stack := .int id :: e.stack }⟩ := by
    simp [step, e]
  refine Steps.silent (step_pushInt _) (Steps.silent hstore ?_)
  refine Steps.silent (step_goto hdispatch) (Steps.silent rfl (Steps.silent rfl ?_))
  refine Steps.silent hload (Steps.one_silent ?_)
  simp only [step, find_switchCases hf.ids_nodup hid, Option.getD_some, hblock]
  rfl

theorem advance_gotoState (hid : ids[j]? = some id) {d : Data A Ω} (hd : d.Matches k d')
    (hrw : ReadsWritten zero m.source ⟨sourceFrom blocks j, d⟩)
    (rest : List (Insn A Ω k (NewLabel L))) :
    Advance (step zero m.source) (step zero code) Obs.Matches 0 7 (AtBlock zero m blocks code)
      ⟨sourceFrom blocks j, d⟩ ⟨gotoState id ++ rest, d'⟩ := by
  obtain ⟨target, hj, htarget, hsteps⟩ := steps_gotoState hf zero hid d' rest
  exact (Advance.here ⟨j, hj, rfl, htarget, hd.setState _, hrw⟩).right hsteps

theorem advance_ending {b : Block A Ω k L} {t : Node A Ω k L}
    {ending post : List (Insn A Ω k (NewLabel L))} (hterm : terminator b = some t)
    (hends : t.endsBlock = true) (he : blockEnd blocks ids (uniformFrame items) i b = some ending)
    (htaken : findLabel (.taken i) code = findLabel (.taken i) (ending ++ post)) {d : Data A Ω}
    (hd : d.Matches k d')
    (hrw : ReadsWritten zero m.source ⟨.node t :: sourceFrom blocks (i + 1), d⟩) :
    Advance (step zero m.source) (step zero code) Obs.Matches 1 0 (AtBlock zero m blocks code)
      ⟨.node t :: sourceFrom blocks (i + 1), d⟩ ⟨ending ++ post, d'⟩ := by
  cases t with
  | goto l =>
    simp only [blockEnd, hterm, Option.bind_eq_bind, Option.bind_eq_some_iff, Option.pure_def,
      Option.some.injEq] at he
    obtain ⟨target, htarget, id, hid, rfl⟩ := he
    obtain ⟨-, hsource⟩ := findLabel_source hf htarget
    have hs : Steps (step zero m.source) 1 ⟨.node (.goto l) :: sourceFrom blocks (i + 1), d⟩ []
      ⟨sourceFrom blocks target, d⟩ := Steps.one_silent (step_goto hsource)
    exact ((advance_gotoState hf hid hd (hrw.steps hs) post).left hs).weaken (Nat.le_refl _)
      (Nat.zero_le _) fun _ _ h => h
  | cond c l =>
    simp only [blockEnd, hterm, Option.bind_eq_bind, Option.bind_eq_some_iff, Option.pure_def,
      Option.some.injEq] at he
    obtain ⟨target, htarget, fall, hfall, id, hid, rfl⟩ := he
    obtain ⟨-, hsource⟩ := findLabel_source hf htarget
    have hpop : Data.Matches k { d with stack := c.pop d.stack }
        { d' with stack := c.pop d'.stack } := by
      rw [← hd.stack]; exact hd.setStack _
    by_cases hc : c.test d.stack = true
    · have hc' : c.test d'.stack = true := by rw [← hd.stack]; exact hc
      have hs : Steps (step zero m.source) 1 ⟨.node (.cond c l) :: sourceFrom blocks (i + 1), d⟩ []
        ⟨sourceFrom blocks target, _⟩ := Steps.one_silent (step_cond_taken hc hsource)
      -- The inner label stands behind the jump to the block that is fallen into.
      have hlabel : findLabel (.taken i) code = some (.node (.label (.taken i)) ::
          .node (.frame (uniformFrame items)) :: (gotoState id ++ post)) := by
        rw [htaken, append_assoc, append_assoc, append_assoc,
          singleton_append, findLabel_cons_ne (by simp),
          findLabel_append (by rw [labels_gotoState]; simp)]
        exact findLabel_cons_self _
      have hadv := advance_gotoState hf hid hpop (hrw.steps hs) post
      exact ((hadv.right (Steps.silent (step_cond_taken hc' hlabel) (Steps.silent rfl
        (Steps.one_silent rfl)))).left hs).weaken (Nat.le_refl _) (Nat.zero_le _) fun _ _ h => h
    · have hc₀ : c.test d.stack = false := Bool.eq_false_iff.mpr hc
      have hc' : c.test d'.stack = false := by rw [← hd.stack]; exact hc₀
      have hs : Steps (step zero m.source) 1 ⟨.node (.cond c l) :: sourceFrom blocks (i + 1), d⟩ []
        ⟨sourceFrom blocks (i + 1), _⟩ := Steps.one_silent (step_cond_not hc₀)
      have hadv := advance_gotoState hf hfall hpop (hrw.steps hs)
        ([.node (.label (.taken i)), .node (.frame (uniformFrame items))] ++ gotoState id ++ post)
      exact ((hadv.right (Steps.one_silent (step_cond_not hc'))).left hs).weaken
        (Nat.le_refl _) (Nat.zero_le _) fun _ _ h => h
  | exit x =>
    simp only [blockEnd, hterm, Option.some.injEq] at he
    subst he
    refine Advance.done (x := .exit x d) (y := .exit x d') rfl ?_ (.exit x hd)
    show Move.done _ (Leave.exit x d'.stack d'.world) = _
    rw [hd.stack, hd.world]
  | label | line | frame | op | unsupported => cases hends

/-- **From the head of a block both machines come to the head of the same next one.** -/
theorem advance_block {t : State A Ω k (NewLabel L)} (h : AtBlock zero m blocks code s t) :
    Advance (step zero m.source) (step zero code) Obs.Matches 1 1 (AtBlock zero m blocks code)
      s t := by
  obtain ⟨i, hi, hs, ht, hd, hrw⟩ := h
  obtain ⟨b, ending, post, hb, he, hblock, htaken⟩ := findLabel_block hf hi
  obtain ⟨srest, d⟩ := s
  obtain ⟨trest, d'⟩ := t
  obtain rfl : srest = sourceFrom blocks i := hs
  obtain rfl := Option.some.inj (ht.symm.trans hblock)
  have hmem : b ∈ blocks := mem_of_getElem? hb
  have hsup : ∀ n ∈ b, n.isUnsupported = false := by
    intro n hn
    apply hf.supported
    rw [← hf.cut]
    exact mem_flatten.mpr ⟨b, hmem, hn⟩
  rw [sourceFrom_eq hb] at hrw ⊢
  -- Past its label and frame the flattened block is the copied body and the new ending.
  refine Advance.weaken (a := 1) (b := 2 + 0) (Advance.right (Steps.silent rfl (Steps.silent rfl
    (Steps.zero _))) ?_) (Nat.le_refl _) (by omega) fun _ _ h => h
  rcases block_cases (hf.ends b hmem) (hf.real b hmem) with
    ⟨t, hterm, hends, hsplit, hbody⟩ | ⟨t, hterm, hends, hbody, hall⟩
  · have hrest : b.map .node ++ sourceFrom blocks (i + 1)
        = (bodyNodes b).map .node ++ .node t :: sourceFrom blocks (i + 1) := by
      conv_lhs => rw [hsplit, map_append, append_assoc]
      rfl
    rw [hrest] at hrw ⊢
    refine (advance_body (fun e e' hd hrw => advance_ending hf hterm hends he htaken hd hrw)
      (bodyNodes b) d d' ?_ hd hrw).weaken (by omega) (Nat.le_refl _) fun _ _ h => h
    intro n hn
    refine ⟨hbody n hn, hsup n ?_⟩
    rw [hsplit]
    exact mem_append_left _ hn
  · obtain ⟨id, hid, rfl⟩ : ∃ id, ids[i + 1]? = some id ∧ gotoState id = ending := by
      cases t with
      | label | line | frame | op | unsupported =>
        simpa only [blockEnd, hterm, Option.bind_eq_bind, Option.bind_eq_some_iff, Option.pure_def,
          Option.some.injEq] using he
      | goto | cond | exit => cases hends
    have hlen : 0 < b.length := by
      apply length_pos_iff.mpr
      rintro rfl
      cases hf.real [] hmem
    have hcopy : blockBody b = copyNodes b := by rw [blockBody, hbody]; rfl
    rw [hcopy]
    exact (advance_body (fun e e' hd hrw => advance_gotoState hf hid hd hrw post) b d d'
      (fun n hn => ⟨hall n hn, hsup n hn⟩) hd hrw).weaken (by omega) (Nat.zero_le _)
      fun _ _ h => h

end block

end Kseal.Gradle
