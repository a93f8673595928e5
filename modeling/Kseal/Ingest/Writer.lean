import Kseal.Infra.Bytes
import Kseal.Infra.Run

/-!
# The batching writer (`ingest/writer.go`)

`Writer.Run` with `flushWithRetry` and `drain` as one transition system; the context, the drain
grace, the store and the broker's channel are the environment. `Ack` takes a number of events off
the front of what was handed off, so with `k` events acked the first `k` should be in the store
(`AckedPersisted`). A flush that gives up drops its batch, and the count of a later flush then acks
the dropped events, which is the only way to break it (`ackedPersisted_iff`).
-/

namespace Kseal.Ingest

open Infra List

def newWriterBatchSize (batchSize : Int) : Nat := if batchSize ≤ 0 then 256 else batchSize.toNat

inductive Phase where
  | serving
  | draining
  | closing
deriving Repr, DecidableEq

inductive WriterPc where
  | loop (phase : Phase)
  | writing (phase : Phase)
  | waiting (phase : Phase)
  | stopped
deriving Repr, DecidableEq

def WriterPc.flushing : WriterPc → Bool
  | .writing _ | .waiting _ => true
  | .loop _ | .stopped => false

/--
The state of the writer and of what it acts on.

`handed` is the sequence of events received from the channel; an entry of `batch`,
`persisted` or `abandoned` is an event with its position in that sequence. `persisted` is
what successful writes gave to the store, `acked` the sum of all `Ack` calls, `abandoned` the
batches that were given up.
-/
structure Writer (E : Type) where
  pc : WriterPc
  handed : List E
  batch : List (E × Nat)
  persisted : List (E × Nat)
  acked : Nat
  abandoned : List (E × Nat)
  ctxDone : Bool
  graceDone : Bool
  closed : Bool

inductive WriterAction (E : Type) where
  | receive (e : E)
  | tick
  | ctxDone
  | channelClosed
  | drained
  | writeOk
  | writeFail
  | giveUp
  | retry
  | cancel
  | graceExpire

namespace Writer

variable {E : Type}

def init : Writer E :=
  { pc := .loop .serving, handed := [], batch := [], persisted := [], acked := 0,
    abandoned := [], ctxDone := false, graceDone := false, closed := false }

def resume : Phase → WriterPc
  | .serving => .loop .serving
  | .draining => .loop .draining
  | .closing => .stopped

def stopDone (s : Writer E) : Phase → Bool
  | .serving => s.ctxDone
  | .draining | .closing => s.graceDone

def flush (s : Writer E) (phase : Phase) : Writer E :=
  if s.batch.isEmpty then { s with pc := resume phase } else { s with pc := .writing phase }

def written (s : Writer E) (phase : Phase) : Writer E :=
  { s with
    pc := resume phase
    batch := []
    persisted := s.persisted ++ s.batch
    acked := s.acked + s.batch.length }

def gaveUp (s : Writer E) (phase : Phase) : Writer E :=
  { s with pc := resume phase, batch := [], abandoned := s.abandoned ++ s.batch }

def add (batchSize : Nat) (s : Writer E) (phase : Phase) (e : E) : Writer E :=
  let s := { s with
    handed := s.handed ++ [e]
    batch := s.batch ++ [(e, s.handed.length)] }
  if s.batch.length ≥ batchSize then s.flush phase else { s with pc := .loop phase }

def step (batchSize : Nat) (s : Writer E) : WriterAction E → Option (Writer E)
  | .receive e =>
    match s.pc with
    | .loop phase => if s.closed then none else some (s.add batchSize phase e)
    | _ => none
  | .tick =>
    match s.pc with
    | .loop .serving => some (s.flush .serving)
    | _ => none
  | .ctxDone =>
    match s.pc with
    | .loop .serving => if s.ctxDone then some { s with pc := .loop .draining } else none
    | _ => none
  | .channelClosed =>
    match s.pc with
    | .loop .serving => some { s with pc := .loop .draining, closed := true }
    | _ => none
  | .drained =>
    match s.pc with
    | .loop .draining => some (s.flush .closing)
    | _ => none
  | .writeOk =>
    match s.pc with
    | .writing phase => some (s.written phase)
    | _ => none
  | .writeFail =>
    match s.pc with
    | .writing phase => some { s with pc := .waiting phase }
    | _ => none
  | .giveUp =>
    match s.pc with
    | .waiting phase => if s.stopDone phase then some (s.gaveUp phase) else none
    | _ => none
  | .retry =>
    match s.pc with
    | .waiting phase => some { s with pc := .writing phase }
    | _ => none
  | .cancel => some { s with ctxDone := true }
  | .graceExpire => some { s with graceDone := true }

def AckedPersisted (s : Writer E) : Prop :=
  ∀ i < s.acked, ∃ e, s.handed[i]? = some e ∧ (e, i) ∈ s.persisted

def nothingAbandonedAtWrite (s : Writer E) : WriterAction E → Bool
  | .writeOk => s.abandoned.isEmpty
  | _ => true

/-! ## What a step does to the events -/

structure SameEvents (s s' : Writer E) : Prop where
  handed : s'.handed = s.handed
  batch : s'.batch = s.batch
  persisted : s'.persisted = s.persisted
  acked : s'.acked = s.acked
  abandoned : s'.abandoned = s.abandoned

inductive Effect (s : Writer E) : WriterAction E → Writer E → Prop where
  | control {a : WriterAction E} {s' : Writer E} (ha : nothingAbandonedAtWrite s a = true)
      (hsame : SameEvents s s')
      (hpc : s'.pc.flushing = true → s.pc.flushing = true ∨ s.batch ≠ []) : Effect s a s'
  | receive {e : E} {s' : Writer E} (hhanded : s'.handed = s.handed ++ [e])
      (hbatch : s'.batch = s.batch ++ [(e, s.handed.length)])
      (hsame : s'.persisted = s.persisted ∧ s'.acked = s.acked ∧ s'.abandoned = s.abandoned) :
      Effect s (.receive e) s'
  | writeOk {phase : Phase} (hpc : s.pc = .writing phase) :
      Effect s .writeOk (s.written phase)
  | giveUp {phase : Phase} (hpc : s.pc = .waiting phase) : Effect s .giveUp (s.gaveUp phase)

@[simp] theorem flushing_resume (phase : Phase) : (resume phase).flushing = false := by
  cases phase <;> rfl

theorem sameEvents_flush (s : Writer E) (phase : Phase) : SameEvents s (s.flush phase) := by
  unfold flush
  split <;> exact ⟨rfl, rfl, rfl, rfl, rfl⟩

variable {phase : Phase}

theorem flushing_flush {s : Writer E} (h : (s.flush phase).pc.flushing = true) :
    s.batch ≠ [] := by
  unfold flush at h
  split at h
  · simp at h
  · next hb => simpa using hb

variable {batchSize : Nat} {s s' : Writer E} {a : WriterAction E}

theorem effect_of_step (h : step batchSize s a = some s') : Effect s a s' := by
  revert h
  fun_cases step batchSize s a <;> rintro ⟨⟩
  case case2 e phase _ _ =>
    unfold add
    dsimp only
    split
    · have hs := sameEvents_flush { s with
        handed := s.handed ++ [e], batch := s.batch ++ [(e, s.handed.length)] } phase
      exact .receive hs.handed hs.batch ⟨hs.persisted, hs.acked, hs.abandoned⟩
    · exact .receive rfl rfl ⟨rfl, rfl, rfl⟩
  case case4 | case11 =>
    exact .control rfl (sameEvents_flush _ _) fun hf => .inr (flushing_flush hf)
  case case6 | case9 => exact .control rfl ⟨rfl, rfl, rfl, rfl, rfl⟩ nofun
  case case13 hpc => exact .writeOk hpc
  case case15 hpc | case20 hpc =>
    exact .control rfl ⟨rfl, rfl, rfl, rfl, rfl⟩ fun _ => .inl (by rw [hpc]; rfl)
  case case17 hpc _ => exact .giveUp hpc
  case case22 | case23 => exact .control rfl ⟨rfl, rfl, rfl, rfl, rfl⟩ .inl

/-! ## The invariant -/

structure Clean (s : Writer E) : Prop where
  abandoned : s.abandoned = []
  entries : s.persisted ++ s.batch = s.handed.zipIdx
  acked : s.acked = s.persisted.length

structure Lost (s : Writer E) (x : E × Nat) : Prop where
  abandoned : x ∈ s.abandoned
  handed : s.handed[x.2]? = some x.1
  persisted : x ∉ s.persisted
  batch : x ∉ s.batch
  acked : x.2 ≤ s.acked

structure Inv (s : Writer E) : Prop where
  flushing : s.pc.flushing = true → s.batch ≠ []
  events : Clean s ∨ ∃ x, Lost s x

theorem inv_init : Inv (init : Writer E) :=
  ⟨by simp [init, WriterPc.flushing], .inl ⟨rfl, rfl, rfl⟩⟩

theorem Clean.of_same (hs : SameEvents s s') (h : Clean s) : Clean s' :=
  ⟨by rw [hs.abandoned, h.abandoned], by rw [hs.persisted, hs.batch, hs.handed, h.entries],
    by rw [hs.acked, hs.persisted, h.acked]⟩

variable {x : E × Nat}

theorem Lost.of_same (hs : SameEvents s s') (h : Lost s x) : Lost s' x :=
  ⟨by rw [hs.abandoned]; exact h.abandoned, by rw [hs.handed]; exact h.handed,
    by rw [hs.persisted]; exact h.persisted, by rw [hs.batch]; exact h.batch,
    by rw [hs.acked]; exact h.acked⟩

theorem Clean.written (h : Clean s) : Clean (s.written phase) :=
  ⟨h.abandoned, (append_nil _).trans h.entries,
    by rw [Writer.written, length_append, h.acked]⟩

theorem Lost.written (h : Lost s x) : Lost (s.written phase) x := by
  refine ⟨h.abandoned, h.handed, ?_, by simp [Writer.written], Nat.le_add_right_of_le h.acked⟩
  intro hmem
  rcases mem_append.mp hmem with hm | hm
  · exact h.persisted hm
  · exact h.batch hm

theorem Lost.lt_handed (h : Lost s x) : x.2 < s.handed.length :=
  (List.getElem?_eq_some_iff.mp h.handed).1

theorem Clean.lost_of_giveUp (h : Clean s) {xs : List (E × Nat)} (hb : s.batch = x :: xs) :
    Lost (s.gaveUp phase) x := by
  have hget : s.handed.zipIdx[s.persisted.length]? = some x := by
    rw [← h.entries, hb]; simp
  rw [getElem?_zipIdx, Option.map_eq_some_iff] at hget
  obtain ⟨e, he, hx⟩ := hget
  rw [Nat.zero_add] at hx
  subst hx
  refine ⟨by simp [gaveUp, hb], he, ?_, by simp [gaveUp], Nat.le_of_eq h.acked.symm⟩
  intro hmem
  -- Positions are distinct along `handed.zipIdx`, and `x` stands right after `persisted`.
  have hnd : (s.handed.zipIdx.map Prod.snd).Nodup := by
    rw [zipIdx_map_snd]; exact nodup_range'
  rw [← h.entries, map_append, hb] at hnd
  exact (nodup_append.mp hnd).2.2 _ (mem_map_of_mem hmem) _ (by simp) rfl

theorem inv_step (hi : Inv s) (h : step batchSize s a = some s') : Inv s' := by
  cases effect_of_step h with
  | control ha hsame hpc =>
    refine ⟨fun hf => ?_, ?_⟩
    · rw [hsame.batch]
      rcases hpc hf with hf | hb
      · exact hi.flushing hf
      · exact hb
    · rcases hi.events with hc | ⟨x, hx⟩
      · exact .inl (hc.of_same hsame)
      · exact .inr ⟨x, hx.of_same hsame⟩
  | @receive e _ hhanded hbatch hsame =>
    obtain ⟨hp, ha, hab⟩ := hsame
    refine ⟨fun _ => by simp [hbatch], ?_⟩
    rcases hi.events with hc | ⟨x, hx⟩
    · refine .inl ⟨by rw [hab, hc.abandoned], ?_, by rw [ha, hp, hc.acked]⟩
      rw [hp, hbatch, hhanded, ← append_assoc, hc.entries, zipIdx_append]
      simp
    · have hlt := hx.lt_handed
      refine .inr ⟨x, by rw [hab]; exact hx.abandoned, ?_, by rw [hp]; exact hx.persisted, ?_,
        by rw [ha]; exact hx.acked⟩
      · rw [hhanded, getElem?_append_left hlt]; exact hx.handed
      · rw [hbatch, mem_append, mem_singleton]
        rintro (hm | rfl)
        · exact hx.batch hm
        · simp at hlt
  | writeOk hpc =>
    refine ⟨by simp [Writer.written], ?_⟩
    rcases hi.events with hc | ⟨x, hx⟩
    · exact .inl hc.written
    · exact .inr ⟨x, hx.written⟩
  | giveUp hpc =>
    refine ⟨by simp [gaveUp], .inr ?_⟩
    rcases hi.events with hc | ⟨x, hx⟩
    · obtain ⟨x, xs, hb⟩ := exists_cons_of_ne_nil (hi.flushing (by rw [hpc]; rfl))
      exact ⟨x, hc.lost_of_giveUp hb⟩
    · exact ⟨x, mem_append_left _ hx.abandoned, hx.handed, hx.persisted,
        by simp [gaveUp], hx.acked⟩

/-! ## At-least-once -/

theorem ackedPersisted_of_clean (h : Clean s) : AckedPersisted s := by
  intro i hlt
  rw [h.acked] at hlt
  have hget : s.handed.zipIdx[i]? = some s.persisted[i] := by
    rw [← h.entries, getElem?_append_left hlt, getElem?_eq_getElem hlt]
  rw [getElem?_zipIdx, Option.map_eq_some_iff] at hget
  obtain ⟨e, he, hx⟩ := hget
  rw [Nat.zero_add] at hx
  exact ⟨e, he, by rw [hx]; exact getElem_mem hlt⟩

theorem not_ackedPersisted_of_lost (h : Lost s x) (hlt : x.2 < s.acked) :
    ¬AckedPersisted s := by
  intro hs
  obtain ⟨e, he, hmem⟩ := hs x.2 hlt
  rw [h.handed] at he
  cases he
  exact h.persisted hmem

/--
**One step keeps the acked events persisted exactly when it is not a successful write after
an abandoned one.**
-/
theorem ackedPersisted_step_iff (hi : Inv s) (hs : AckedPersisted s)
    (h : step batchSize s a = some s') :
    AckedPersisted s' ↔ nothingAbandonedAtWrite s a = true := by
  cases effect_of_step h with
  | control ha hsame hpc =>
    refine iff_of_true ?_ ha
    intro i hlt
    rw [hsame.handed, hsame.persisted]
    exact hs i (hsame.acked ▸ hlt)
  | receive hhanded hbatch hsame =>
    refine iff_of_true ?_ rfl
    intro i hlt
    obtain ⟨e, he, hmem⟩ := hs i (hsame.2.1 ▸ hlt)
    rw [hhanded, hsame.1, getElem?_append_left (List.getElem?_eq_some_iff.mp he).1]
    exact ⟨e, he, hmem⟩
  | giveUp hpc => exact iff_of_true hs rfl
  | writeOk hpc =>
    rcases hi.events with hc | ⟨x, hx⟩
    · exact iff_of_true (ackedPersisted_of_clean hc.written)
        (by simp [nothingAbandonedAtWrite, hc.abandoned])
    · -- The batch is not empty, so the count passes the lost event.
      have hne : s.batch ≠ [] := hi.flushing (by rw [hpc]; rfl)
      have hpos := length_pos_iff.mpr hne
      have hle := hx.acked
      refine iff_of_false (not_ackedPersisted_of_lost hx.written ?_) ?_
      · show x.2 < s.acked + s.batch.length
        omega
      · rw [nothingAbandonedAtWrite, List.isEmpty_iff]
        exact ne_nil_of_mem hx.abandoned

theorem ackedPersisted_init : AckedPersisted (init : Writer E) := by
  intro i hlt
  simp [init] at hlt

/--
**At-least-once through the writer**, for every batch size and every run.

The acked events are persisted in all states of a run exactly when no write of the run
succeeds after a flush was given up.
-/
theorem ackedPersisted_iff (batchSize : Int) {es : List (Event (Writer E) (WriterAction E))}
    {t : Writer E} (hrun : Run (step (newWriterBatchSize batchSize)) init es t) :
    (∀ e ∈ es, AckedPersisted e.after) ↔
      ∀ e ∈ es, nothingAbandonedAtWrite e.before e.action = true :=
  hrun.always_iff inv_step ackedPersisted_step_iff inv_init ackedPersisted_init

theorem ackedPersisted_iff_sample :
    ∃ es t, Run (step (newWriterBatchSize 1)) (init : Writer String) es t ∧ t.acked = 2 ∧
      ∀ e ∈ es, AckedPersisted e.after := by
  obtain ⟨es, hrun, hes, -⟩ := run_of_exec (step (newWriterBatchSize 1)) nothingAbandonedAtWrite
    init [.receive "a", .writeOk, .receive "b", .writeFail, .cancel, .retry, .writeOk] rfl
  exact ⟨es, _, hrun, rfl, (ackedPersisted_iff 1 hrun).mpr hes⟩

/--
The context is cancelled while the store is down, the first batch is given up, and the store
is back during the drain: the second event is written, and the first one is acked for it.
-/
theorem ackedPersisted_fails :
    ∃ es t, Run (step (newWriterBatchSize 1)) (init : Writer String) es t ∧
      t.acked = 1 ∧ t.persisted = [("b", 1)] ∧ ¬AckedPersisted t := by
  obtain ⟨es, hrun, -⟩ := run_of_exec (step (newWriterBatchSize 1)) (fun _ _ => true) init
    [.receive "a", .writeFail, .cancel, .giveUp, .ctxDone, .receive "b", .writeOk] rfl
  refine ⟨es, _, hrun, rfl, rfl, fun hs => ?_⟩
  obtain ⟨e, -, hmem⟩ := hs 0 (by decide)
  have hmem : (e, 0) ∈ [("b", 1)] := hmem
  simp at hmem

end Writer

end Kseal.Ingest
