import Kseal.Infra.Bytes
import Kseal.Infra.Run

/-!
# The Kafka consumer (`ingest/broker_kafka.go`)

An `Ack` is two steps, because it pops the records under the lock and marks them after releasing it.
Marking a record also commits every smaller offset of its partition; `CommitSafe` is what that
requires. The read loop marks an undecodable record at once, past the decodable ones that are still
pending, and this is the only way to break `CommitSafe` (`commitSafe_iff`).
-/

namespace Kseal.Ingest

open Infra List

structure Record where
  partition : Nat
  offset : Nat
  value : Bytes
deriving Repr, DecidableEq

def InOrder (rs : List Record) : Prop :=
  rs.Pairwise fun r r' => r.partition = r'.partition → r.offset < r'.offset

instance (rs : List Record) : Decidable (InOrder rs) :=
  inferInstanceAs (Decidable (rs.Pairwise _))

inductive ConsumePc (E : Type) where
  | polling
  | iterating (rest : List Record)
  | holding (rec : Record) (rest : List Record)
  | sending (e : E) (rest : List Record)
  | stopped (rest : List Record)

def ConsumePc.unread {E : Type} : ConsumePc E → List Record
  | .iterating rest | .holding _ rest | .sending _ rest | .stopped rest => rest
  | .polling => []

def ConsumePc.held {E : Type} : ConsumePc E → List Record
  | .holding rec _ => [rec]
  | _ => []

/--
The state of the consumer.

`fetched`, `reads`, `popped` and `out` record what has happened: the records delivered by
`PollFetches`, those taken from the iterator, those popped by `Ack`, and the events handed
off. `inFlight` holds what an `Ack` has popped and not marked yet.
-/
structure KafkaBroker (E : Type) where
  pc : ConsumePc E
  fetched : List Record
  reads : List Record
  pending : List Record
  popped : List Record
  inFlight : List (List Record)
  marked : List Record
  out : List E

inductive Action where
  | poll (batch : List Record)
  | next
  | handle
  | send
  | stop
  | ackPop (n : Int)
  | ackMark (i : Nat)

namespace KafkaBroker

variable {E : Type} (decode : Bytes → Option E)

def init : KafkaBroker E :=
  { pc := .polling, fetched := [], reads := [], pending := [], popped := [], inFlight := [],
    marked := [], out := [] }

def ackPop (s : KafkaBroker E) (n : Int) : KafkaBroker E :=
  if n ≤ 0 then s
  else
    let k := min n.toNat s.pending.length
    { s with
      pending := s.pending.drop k
      popped := s.popped ++ s.pending.take k
      inFlight := s.inFlight ++ [s.pending.take k] }

def step (s : KafkaBroker E) : Action → Option (KafkaBroker E)
  | .poll batch =>
    match s.pc with
    | .polling =>
      if InOrder (s.fetched ++ batch) then
        some { s with pc := .iterating batch, fetched := s.fetched ++ batch }
      else none
    | _ => none
  | .next =>
    match s.pc with
    | .iterating [] => some { s with pc := .polling }
    | .iterating (rec :: rest) =>
      some { s with pc := .holding rec rest, reads := s.reads ++ [rec] }
    | _ => none
  | .handle =>
    match s.pc with
    | .holding rec rest =>
      match decode rec.value with
      -- Poison record: marked at once.
      | none => some { s with pc := .iterating rest, marked := s.marked ++ [rec] }
      -- Enqueued before the hand-off, so that pending keeps the order of the channel.
      | some e => some { s with pc := .sending e rest, pending := s.pending ++ [rec] }
    | _ => none
  | .send =>
    match s.pc with
    | .sending e rest => some { s with pc := .iterating rest, out := s.out ++ [e] }
    | _ => none
  | .stop =>
    match s.pc with
    | .polling => some { s with pc := .stopped [] }
    | .sending _ rest => some { s with pc := .stopped rest }
    | _ => none
  | .ackPop n => some (s.ackPop n)
  | .ackMark i =>
    match s.inFlight[i]? with
    | some recs =>
      some { s with inFlight := s.inFlight.eraseIdx i, marked := s.marked ++ recs }
    | none => none

def decodable (r : Record) : Bool := (decode r.value).isSome

def CommitSafe (s : KafkaBroker E) : Prop :=
  ∀ r ∈ s.marked, ∀ r' ∈ s.reads, r'.partition = r.partition → r'.offset < r.offset →
    decodable decode r' = true → r' ∈ s.popped ∧ r' ∉ s.pending

def nothingPendingAtPoison (s : KafkaBroker E) : Action → Bool
  | .handle =>
    match s.pc with
    | .holding rec _ =>
      decodable decode rec || s.pending.all fun r => r.partition != rec.partition
    | _ => true
  | _ => true

/-! ## What a step does -/

inductive Effect (s : KafkaBroker E) : Action → KafkaBroker E → Prop where
  | poll {batch : List Record} (hpc : s.pc = .polling) (ho : InOrder (s.fetched ++ batch)) :
      Effect s (.poll batch)
        { s with pc := .iterating batch, fetched := s.fetched ++ batch }
  | done (hpc : s.pc = .iterating []) : Effect s .next { s with pc := .polling }
  | read {rec : Record} {rest : List Record} (hpc : s.pc = .iterating (rec :: rest)) :
      Effect s .next { s with pc := .holding rec rest, reads := s.reads ++ [rec] }
  | poison {rec : Record} {rest : List Record} (hpc : s.pc = .holding rec rest)
      (hd : decode rec.value = none) :
      Effect s .handle { s with pc := .iterating rest, marked := s.marked ++ [rec] }
  | enqueue {rec : Record} {rest : List Record} {e : E} (hpc : s.pc = .holding rec rest)
      (hd : decode rec.value = some e) :
      Effect s .handle { s with pc := .sending e rest, pending := s.pending ++ [rec] }
  | send {e : E} {rest : List Record} (hpc : s.pc = .sending e rest) :
      Effect s .send { s with pc := .iterating rest, out := s.out ++ [e] }
  | stop (hpc : s.pc.held = []) : Effect s .stop { s with pc := .stopped s.pc.unread }
  | ackNone {n : Int} : Effect s (.ackPop n) s
  | ackPop {n : Int} {k : Nat} :
      Effect s (.ackPop n)
        { s with
          pending := s.pending.drop k
          popped := s.popped ++ s.pending.take k
          inFlight := s.inFlight ++ [s.pending.take k] }
  | ackMark {i : Nat} {recs : List Record} (hi : s.inFlight[i]? = some recs) :
      Effect s (.ackMark i)
        { s with inFlight := s.inFlight.eraseIdx i, marked := s.marked ++ recs }

variable {decode} {s s' : KafkaBroker E} {a : Action}

theorem effect_of_step (h : step decode s a = some s') : Effect decode s a s' := by
  revert h
  fun_cases step decode s a <;> rintro ⟨⟩
  case case1 hpc ho => exact .poll hpc ho
  case case4 hpc => exact .done hpc
  case case5 hpc => exact .read hpc
  case case7 hpc hd => exact .poison hpc hd
  case case8 hpc _ hd => exact .enqueue hpc hd
  case case10 hpc => exact .send hpc
  case case12 hpc | case13 hpc =>
    have hs : Effect decode s .stop { s with pc := .stopped s.pc.unread } :=
      .stop (by rw [hpc]; rfl)
    rwa [hpc] at hs
  case case15 n =>
    unfold KafkaBroker.ackPop
    split
    · exact .ackNone
    · exact .ackPop
  case case16 hi => exact .ackMark hi

/-! ## The invariant -/

/--
What every step keeps: reads are in offset order, and each decodable record that was read is
popped, pending or held, in that order.
-/
structure Inv (decode : Bytes → Option E) (s : KafkaBroker E) : Prop where
  order : InOrder s.fetched
  fetched : s.fetched = s.reads ++ s.pc.unread
  queue : s.popped ++ s.pending ++ s.pc.held.filter (decodable decode)
    = s.reads.filter (decodable decode)
  last : s.pc.held <:+ s.reads
  inFlight : ∀ recs ∈ s.inFlight, ∀ r ∈ recs, r ∈ s.popped
  marked : ∀ r ∈ s.marked, r ∈ s.reads

theorem inv_init : Inv decode (init : KafkaBroker E) where
  order := List.Pairwise.nil
  fetched := rfl
  queue := rfl
  last := suffix_refl _
  inFlight := by simp [init]
  marked := by simp [init]

theorem inv_step (hi : Inv decode s) (h : step decode s a = some s') : Inv decode s' := by
  obtain ⟨order, fetched, queue, last, inFlight, marked⟩ := hi
  cases effect_of_step h with
  | poll hpc ho =>
    simp only [hpc, ConsumePc.unread] at fetched queue
    rw [append_nil] at fetched
    exact ⟨ho, by rw [fetched]; rfl, queue, nil_suffix, inFlight, marked⟩
  | done hpc =>
    simp only [hpc] at fetched queue
    exact ⟨order, fetched, queue, nil_suffix, inFlight, marked⟩
  | @read rec rest hpc =>
    simp only [hpc, ConsumePc.held, filter_nil, append_nil]
      at fetched queue
    refine ⟨order, by simpa [ConsumePc.unread] using fetched, ?_, suffix_append _ _,
      inFlight, fun r hr => mem_append_left _ (marked r hr)⟩
    rw [filter_append, ← queue]
    rfl
  | @poison rec rest hpc hd =>
    simp only [hpc] at fetched queue last
    refine ⟨order, fetched, ?_, nil_suffix, inFlight, ?_⟩
    · simpa [ConsumePc.held, decodable, hd] using queue
    · intro r hr
      rcases mem_append.mp hr with hr | hr
      · exact marked r hr
      · exact last.subset hr
  | @enqueue rec rest e hpc hd =>
    simp only [hpc] at fetched queue last
    refine ⟨order, fetched, ?_, nil_suffix, inFlight, marked⟩
    simpa [ConsumePc.held, decodable, hd] using queue
  | send hpc =>
    simp only [hpc] at fetched queue
    exact ⟨order, fetched, queue, nil_suffix, inFlight, marked⟩
  | stop hpc =>
    rw [hpc] at queue
    exact ⟨order, fetched, queue, nil_suffix, inFlight, marked⟩
  | ackNone => exact ⟨order, fetched, queue, last, inFlight, marked⟩
  | @ackPop n k =>
    refine ⟨order, fetched, ?_, last, ?_, marked⟩
    · rw [← queue]
      simp only [append_assoc, append_cancel_left_eq]
      rw [← append_assoc, take_append_drop]
    · intro recs hrecs r hr
      rcases mem_append.mp hrecs with hrecs | hrecs
      · exact mem_append_left _ (inFlight recs hrecs r hr)
      · rw [mem_singleton.mp hrecs] at hr
        exact mem_append_right _ hr
  | @ackMark i recs hm =>
    have hrecs : recs ∈ s.inFlight := mem_of_getElem? hm
    refine ⟨order, fetched, queue, last,
      fun rs hrs => inFlight rs (mem_of_mem_eraseIdx hrs), ?_⟩
    intro r hr
    rcases mem_append.mp hr with hr | hr
    · exact marked r hr
    · have hq : r ∈ s.reads.filter (decodable decode) := by
        rw [← queue]; simp [inFlight recs hrecs r hr]
      exact (mem_filter.mp hq).1

section invariantFacts

variable (hi : Inv decode s) {r r' rec : Record} {rest : List Record}

include hi

theorem order_reads : InOrder s.reads := by
  have ho := hi.order
  rw [hi.fetched] at ho
  exact (pairwise_append.mp ho).1

theorem held_last (hpc : s.pc = .holding rec rest) (hr : r ∈ s.reads)
    (hp : r.partition = rec.partition) : r = rec ∨ r.offset < rec.offset := by
  have hlast := hi.last
  rw [hpc] at hlast
  obtain ⟨pre, hpre⟩ := hlast
  have ho := order_reads hi
  rw [← hpre] at ho hr
  rcases mem_append.mp hr with hr | hr
  · exact .inr ((pairwise_append.mp ho).2.2 r hr rec (mem_singleton_self _) hp)
  · exact .inl (mem_singleton.mp hr)

theorem mem_queue (hr : r ∈ s.reads) (hd : decodable decode r = true) :
    r ∈ s.popped ∨ r ∈ s.pending ∨ r ∈ s.pc.held := by
  have hq : r ∈ s.popped ++ s.pending ++ s.pc.held.filter (decodable decode) := by
    rw [hi.queue]; exact mem_filter.mpr ⟨hr, hd⟩
  rcases mem_append.mp hq with hq | hq
  · rcases mem_append.mp hq with hq | hq
    · exact .inl hq
    · exact .inr (.inl hq)
  · exact .inr (.inr (mem_filter.mp hq).1)

theorem pending_read (hr : r ∈ s.pending) : r ∈ s.reads ∧ decodable decode r = true := by
  have hq : r ∈ s.reads.filter (decodable decode) := by
    rw [← hi.queue]; simp [hr]
  exact mem_filter.mp hq

theorem popped_before (hr : r ∈ s.popped) (hr' : r' ∈ s.pending ∨ r' ∈ s.pc.held)
    (hd : decodable decode r' = true) (hp : r.partition = r'.partition) :
    r.offset < r'.offset := by
  have ho : InOrder (s.popped ++ (s.pending ++ s.pc.held.filter (decodable decode))) := by
    rw [← append_assoc, hi.queue]
    exact (order_reads hi).sublist filter_sublist
  refine (pairwise_append.mp ho).2.2 r hr r' ?_ hp
  rcases hr' with hr' | hr'
  · exact mem_append_left _ hr'
  · exact mem_append_right _ (mem_filter.mpr ⟨hr', hd⟩)

end invariantFacts

/-! ## Commit safety -/

/--
**One step keeps commit safety exactly when it does not mark an undecodable record past a
pending one.**
-/
theorem commitSafe_step_iff (hi : Inv decode s) (hs : CommitSafe decode s)
    (h : step decode s a = some s') :
    CommitSafe decode s' ↔ nothingPendingAtPoison decode s a = true := by
  cases effect_of_step h with
  | poll | done | send | stop | ackNone => exact iff_of_true hs rfl
  | @read rec rest hpc =>
    refine iff_of_true ?_ rfl
    intro r hr r' hr' hp hlt hd
    rcases mem_append.mp hr' with hr' | hr'
    · exact hs r hr r' hr' hp hlt hd
    · -- The new record comes after every marked one, so no mark covers it.
      rw [mem_singleton.mp hr'] at hp hlt
      have hi' : Inv decode { s with pc := .holding rec rest, reads := s.reads ++ [rec] } :=
        inv_step hi h
      rcases held_last hi' rfl (mem_append_left _ (hi.marked r hr)) hp.symm with he | he
      · rw [he] at hlt; omega
      · omega
  | @poison rec rest hpc hd =>
    have hbad : decodable decode rec = false := by simp [decodable, hd]
    have hcond : nothingPendingAtPoison decode s .handle = true ↔
        ∀ r ∈ s.pending, r.partition ≠ rec.partition := by
      simp [nothingPendingAtPoison, hpc, hbad]
    rw [hcond]
    constructor
    · intro hs' r hr hp
      obtain ⟨hread, hgood⟩ := pending_read hi hr
      rcases held_last hi hpc hread hp with he | hlt
      · rw [he, hbad] at hgood; cases hgood
      · exact (hs' rec (by simp) r hread hp hlt hgood).2 hr
    · intro hc r hr r' hr' hp hlt hgood
      rcases mem_append.mp hr with hr | hr
      · exact hs r hr r' hr' hp hlt hgood
      · rw [mem_singleton.mp hr] at hp hlt
        have hne : r' ∉ s.pending := fun hm => hc r' hm hp
        refine ⟨?_, hne⟩
        rcases mem_queue hi hr' hgood with hq | hq | hq
        · exact hq
        · exact absurd hq hne
        · rw [hpc, ConsumePc.held, mem_singleton] at hq
          rw [hq] at hlt; omega
  | @enqueue rec rest e hpc hd =>
    refine iff_of_true ?_ (by simp [nothingPendingAtPoison, hpc, decodable, hd])
    intro r hr r' hr' hp hlt hgood
    obtain ⟨hpop, hpend⟩ := hs r hr r' hr' hp hlt hgood
    refine ⟨hpop, ?_⟩
    intro hmem
    rcases mem_append.mp hmem with hm | hm
    · exact hpend hm
    · rw [mem_singleton.mp hm] at hp hlt
      rcases held_last hi hpc (hi.marked r hr) hp.symm with he | he
      · rw [he] at hlt; omega
      · omega
  | @ackPop n k =>
    refine iff_of_true ?_ rfl
    intro r hr r' hr' hp hlt hd
    obtain ⟨hpop, hpend⟩ := hs r hr r' hr' hp hlt hd
    exact ⟨mem_append_left _ hpop, fun hm => hpend (mem_of_mem_drop hm)⟩
  | @ackMark i recs hm =>
    refine iff_of_true ?_ rfl
    intro r hr r' hr' hp hlt hd
    rcases mem_append.mp hr with hr | hr
    · exact hs r hr r' hr' hp hlt hd
    · -- What an `Ack` popped precedes everything that is not popped.
      have hrp : r ∈ s.popped := hi.inFlight recs (mem_of_getElem? hm) r hr
      have hne : ¬(r' ∈ s.pending ∨ r' ∈ s.pc.held) := by
        intro hx
        have := popped_before hi hrp hx hd hp.symm
        omega
      rcases mem_queue hi hr' hd with hq | hq
      · exact ⟨hq, fun hx => hne (.inl hx)⟩
      · exact absurd hq hne

theorem commitSafe_init : CommitSafe decode (init : KafkaBroker E) := by
  intro r hr
  simp [init] at hr

/--
**Commit safety of the consumer**, over every interleaving of the read loop with `Ack` calls.

It holds in all states of a run exactly when, at each step of the run that marks an
undecodable record, no record of that partition is pending.
-/
theorem commitSafe_iff (decode : Bytes → Option E) {es : List (Event (KafkaBroker E) Action)}
    {t : KafkaBroker E} (hrun : Run (step decode) init es t) :
    (∀ e ∈ es, CommitSafe decode e.after) ↔
      ∀ e ∈ es, nothingPendingAtPoison decode e.before e.action = true :=
  hrun.always_iff inv_step commitSafe_step_iff inv_init commitSafe_init

def sampleDecode (b : Bytes) : Option Bytes := if b.head? = some 2 then some b else none

def goodRecord : Record := ⟨0, 7, [2, 0, 0, 0, 0, 0, 0, 0, 0, 0, 0, 0, 0, 0, 0, 0]⟩
def poisonRecord : Record := ⟨0, 8, []⟩

theorem commitSafe_iff_sample :
    ∃ es t, Run (step sampleDecode) init es t ∧ poisonRecord ∈ t.marked ∧
      ∀ e ∈ es, CommitSafe sampleDecode e.after := by
  obtain ⟨es, hrun, hes, -⟩ := run_of_exec (step sampleDecode)
    (nothingPendingAtPoison sampleDecode) init
    [.poll [goodRecord, poisonRecord], .next, .handle, .send, .ackPop 1, .ackMark 0, .next,
      .handle] rfl
  exact ⟨es, _, hrun, by decide, (commitSafe_iff sampleDecode hrun).mpr hes⟩

theorem commitSafe_fails :
    ∃ es t, Run (step sampleDecode) init es t ∧ goodRecord ∈ t.pending ∧
      ¬CommitSafe sampleDecode t := by
  obtain ⟨es, hrun, -⟩ := run_of_exec (step sampleDecode) (fun _ _ => true) init
    [.poll [goodRecord, poisonRecord], .next, .handle, .send, .next, .handle] rfl
  refine ⟨es, _, hrun, by decide, fun hs => ?_⟩
  exact (hs poisonRecord (by decide) goodRecord (by decide) rfl (by decide) rfl).2 (by decide)

end KafkaBroker

end Kseal.Ingest
