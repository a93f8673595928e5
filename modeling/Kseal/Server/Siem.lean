import Kseal.Infra.Custody
import Kseal.Infra.GoMap
import Kseal.Infra.Run

/-!
# The SIEM exporter (`data-plane/siem/exporter.go`)

Every tenant has a pipe: a channel and a goroutine that delivers in batches. A pipe without events
is removed after a while; `Stop` signals all pipes. A step is one atomic action of one goroutine. A
pipe is known by its place in the list of all pipes that were ever made (`delivered_once_iff`).
-/

namespace Kseal.Siem

open Infra List

/-! ## The exporter -/

structure ExporterConfig where
  queueSize : Int64
  batchSize : Int64

def ExporterConfig.withDefaults (c : ExporterConfig) : ExporterConfig where
  queueSize := if c.queueSize ≤ 0 then 512 else c.queueSize
  batchSize := if c.batchSize ≤ 0 then 100 else c.batchSize

def ExporterConfig.room (c : ExporterConfig) : Nat := c.withDefaults.queueSize.toNatClampNeg

def ExporterConfig.full (c : ExporterConfig) : Nat := c.withDefaults.batchSize.toNatClampNeg

structure Event (D : Type) where
  tenantID : String
  data : D
deriving DecidableEq

structure TimedEvent (D : Type) where
  ev : Event D
  time : Int
  number : Nat
deriving DecidableEq

inductive EnqResult where
  | ok
  | full
  | closed
deriving DecidableEq

inductive Phase where
  | running
  /-- It has closed the pipe and goes on to remove it. -/
  | reaping
  /-- It was signalled and takes out what is left. -/
  | draining
  /-- It has found nothing left. -/
  | drained
  | exited
deriving DecidableEq

structure TenantPipe (D : Type) where
  tenant : String
  ch : List (TimedEvent D)
  quit : Bool
  closed : Bool
  phase : Phase
  batch : List (TimedEvent D)
deriving DecidableEq

variable {D : Type}

def newTenantPipe (tenant : String) : TenantPipe D where
  tenant := tenant
  ch := []
  quit := false
  closed := false
  phase := .running
  batch := []

inductive PipeAction where
  | tick
  | receive
  | idle
  | remove
  | quit
  | drain
  | finish
deriving DecidableEq

namespace TenantPipe

def enqueue (room : Nat) (p : TenantPipe D) (te : TimedEvent D) : EnqResult × TenantPipe D :=
  if p.closed then (.closed, p)
  else if p.ch.length < room then (.ok, { p with ch := p.ch ++ [te] })
  else (.full, p)

def flush (p : TenantPipe D) : TenantPipe D × List (TimedEvent D) :=
  ({ p with batch := [] }, p.batch)

def act (full : Nat) (p : TenantPipe D) :
    PipeAction → Option (TenantPipe D × List (TimedEvent D))
  | .tick => if p.phase = .running then some p.flush else none
  | .receive =>
    match p.phase, p.ch with
    | .running, te :: rest =>
      let p := { p with ch := rest, batch := p.batch ++ [te] }
      some (if full ≤ p.batch.length then p.flush else (p, []))
    | _, _ => none
  | .idle =>
    if p.phase = .running then
      -- `tryClose`, under the lock that `enqueue` holds.
      if p.batch = [] ∧ p.ch = [] then some ({ p with closed := true, phase := .reaping }, [])
      else some (p, [])
    else none
  | .remove => if p.phase = .reaping then some ({ p with phase := .exited }, []) else none
  | .quit =>
    if p.phase = .running ∧ p.quit = true then some ({ p with phase := .draining }, []) else none
  | .drain =>
    match p.phase, p.ch with
    | .draining, te :: rest => some ({ p with ch := rest, batch := p.batch ++ [te] }, [])
    | .draining, [] => some ({ p with phase := .drained }, [])
    | _, _ => none
  | .finish =>
    if p.phase = .drained then some ({ p.flush.1 with phase := .exited }, p.flush.2) else none

def content (p : TenantPipe D) : List (TimedEvent D) := p.batch ++ p.ch

def Finished (p : TenantPipe D) : Prop := p.phase = .drained ∨ p.phase = .exited

instance (p : TenantPipe D) : Decidable p.Finished := inferInstanceAs (Decidable (_ ∨ _))

end TenantPipe

inductive Call (D : Type) where
  | start (te : TimedEvent D)
  | missed (te : TimedEvent D)
  | found (te : TimedEvent D) (k : Nat)
  | rejected (te : TimedEvent D) (k : Nat)
deriving DecidableEq

def Call.event : Call D → TimedEvent D
  | start te | missed te | found te _ | rejected te _ => te

inductive StopPhase where
  | notCalled
  | signalling (rest : List Nat)
  | returned
deriving DecidableEq

structure State (D : Type) where
  stopped : Bool
  pipeOf : GoMap String Nat
  pipes : List (TenantPipe D)
  submits : List (Call D)
  stop : StopPhase
  -- What has happened so far.
  number : Nat
  /-- The events for which `enqueue` has returned `enqOK`. -/
  accepted : List (TimedEvent D)
  /-- Those of them that came into a pipe when its goroutine was finished. -/
  late : List (TimedEvent D)
  /-- The events that were passed to `deliver`. -/
  delivered : List (TimedEvent D)

def newExporter : State D where
  stopped := false
  pipeOf := ∅
  pipes := []
  submits := []
  stop := .notCalled
  number := 0
  accepted := []
  late := []
  delivered := []

inductive Action (D : Type) where
  | submit (ev : Event D) (time : Int)
  | lookup (i : Nat)
  | create (i : Nat)
  | enqueue (i : Nat)
  | removePipe (i : Nat)
  | pipe (k : Nat) (a : PipeAction)
  | beginStop
  | signalStop (k : Nat)
  | wait

namespace State

def removePipe (s : State D) (tenant : String) (k : Nat) : State D :=
  if s.pipeOf.lookup tenant = some k then { s with pipeOf := s.pipeOf.erase tenant } else s

def accept (s : State D) (i : Nat) (te : TimedEvent D) (k : Nat) (p p' : TenantPipe D) : State D :=
  { s with
    pipes := s.pipes.set k p'
    submits := s.submits.eraseIdx i
    accepted := s.accepted ++ [te]
    late := if p.Finished then s.late ++ [te] else s.late }

def enqueue (room : Nat) (s : State D) (i : Nat) (te : TimedEvent D) (k : Nat) (p : TenantPipe D) :
    State D :=
  match p.enqueue room te with
  | (.ok, p') => s.accept i te k p p'
  | (.full, _) => { s with submits := s.submits.eraseIdx i }
  | (.closed, _) => { s with submits := s.submits.set i (.rejected te k) }

end State

def step (cfg : ExporterConfig) (s : State D) : Action D → Option (State D)
  | .submit ev time =>
    if ev.tenantID = "" ∨ s.stopped = true then some s
    else some { s with
      submits := s.submits ++ [.start ⟨ev, time, s.number⟩], number := s.number + 1 }
  -- `getOrCreate`, under the read lock and then under the write lock.
  | .lookup i =>
    match s.submits[i]? with
    | some (.start te) =>
      match s.pipeOf.lookup te.ev.tenantID with
      | some k => some { s with submits := s.submits.set i (.found te k) }
      | none => some { s with submits := s.submits.set i (.missed te) }
    | _ => none
  | .create i =>
    match s.submits[i]? with
    | some (.missed te) =>
      match s.pipeOf.lookup te.ev.tenantID with
      | some k => some { s with submits := s.submits.set i (.found te k) }
      | none =>
        if s.stopped then some { s with submits := s.submits.eraseIdx i }
        else some { s with
          pipes := s.pipes ++ [newTenantPipe te.ev.tenantID]
          pipeOf := s.pipeOf.insert te.ev.tenantID s.pipes.length
          submits := s.submits.set i (.found te s.pipes.length) }
    | _ => none
  | .enqueue i =>
    match s.submits[i]? with
    | some (.found te k) => s.pipes[k]?.map (s.enqueue cfg.room i te k)
    | _ => none
  | .removePipe i =>
    match s.submits[i]? with
    | some (.rejected te k) =>
      some (State.removePipe { s with submits := s.submits.set i (.start te) } te.ev.tenantID k)
    | _ => none
  | .pipe k a => do
    let p ← s.pipes[k]?
    let (p', out) ← p.act cfg.full a
    let s := { s with pipes := s.pipes.set k p', delivered := s.delivered ++ out }
    return if a = .remove then s.removePipe p.tenant k else s
  | .beginStop =>
    if s.stop = .notCalled then
      some { s with stopped := true, stop := .signalling (s.pipeOf.entries.map Sigma.snd) }
    else none
  | .signalStop k =>
    match s.stop with
    | .signalling rest =>
      if k ∈ rest then
        s.pipes[k]?.map fun p =>
          { s with
            pipes := s.pipes.set k { p with quit := true }
            stop := .signalling (rest.erase k) }
      else none
    | _ => none
  | .wait =>
    if s.stop = .signalling [] ∧ ∀ p ∈ s.pipes, p.phase = .exited then
      some { s with stop := .returned }
    else none

/-! ## One pipe -/

variable {p p' : TenantPipe D} {out late : List (TimedEvent D)} {te : TimedEvent D}
  {full room : Nat}

namespace TenantPipe

structure Inv (late : List (TimedEvent D)) (p : TenantPipe D) : Prop where
  reaping : p.phase = .reaping → p.closed = true ∧ p.content = []
  finished : p.Finished → ∀ te ∈ p.ch, te ∈ late
  exited : p.phase = .exited → p.batch = []

structure Next (late : List (TimedEvent D)) (p p' : TenantPipe D) (out : List (TimedEvent D)) :
    Prop where
  content : out ++ p'.content = p.content
  inv : p'.Inv late
  finished : p.Finished → p'.Finished ∧ p'.ch = p.ch
  exited : p.phase = .exited → p'.phase = .exited

theorem not_finished {phase : Phase} (h : p.phase = phase) (hdrained : phase ≠ .drained)
    (hexited : phase ≠ .exited) : ¬ p.Finished := by
  rintro (hp | hp)
  · exact hdrained (h.symm.trans hp)
  · exact hexited (h.symm.trans hp)

theorem Inv.of_phase {phase : Phase} (h : p.phase = phase)
    (hphase : phase = .running ∨ phase = .draining) : p.Inv late := by
  have hnot : ¬ p.Finished := by
    rcases hphase with rfl | rfl <;> exact not_finished h (by decide) (by decide)
  refine ⟨fun hp => ?_, fun hp => absurd hp hnot, fun hp => absurd (.inr hp) hnot⟩
  rcases hphase with rfl | rfl
  all_goals
    rw [h] at hp
    cases hp

theorem Next.of_not_finished (hcontent : out ++ p'.content = p.content) (hinv : p'.Inv late)
    (hnot : ¬ p.Finished) : Next late p p' out :=
  ⟨hcontent, hinv, fun h => absurd h hnot, fun h => absurd (.inr h) hnot⟩

theorem flush_content (p : TenantPipe D) : p.flush.2 ++ p.flush.1.content = p.content := rfl

theorem receive_content {rest : List (TimedEvent D)} (h : p.ch = te :: rest) :
    TenantPipe.content { p with ch := rest, batch := p.batch ++ [te] } = p.content := by
  simp [content, h]

/-- **Every action of the goroutine leaves the events in the pipe or delivers them.** -/
theorem act_next {a : PipeAction} (hinv : p.Inv late) (h : p.act full a = some (p', out)) :
    Next late p p' out := by
  cases a with
  | tick =>
    obtain ⟨hphase, ⟨⟩⟩ := guard_some h
    exact .of_not_finished (flush_content p) (.of_phase hphase (.inl rfl))
      (not_finished hphase (by decide) (by decide))
  | receive =>
    simp only [act] at h
    split at h
    · next hphase hch =>
      have hnot := not_finished hphase (by decide) (by decide)
      split at h
      · cases h
        refine .of_not_finished ?_ (.of_phase hphase (.inl rfl)) hnot
        exact (flush_content _).trans (receive_content hch)
      · cases h
        exact .of_not_finished (receive_content hch) (.of_phase hphase (.inl rfl)) hnot
    · cases h
  | idle =>
    obtain ⟨hphase, h⟩ := guard_some h
    have hnot := not_finished hphase (by decide) (by decide)
    split at h
    · next hempty =>
      cases h
      refine .of_not_finished rfl ⟨fun _ => ⟨rfl, ?_⟩, ?_, nofun⟩ hnot
      · simp [content, hempty]
      · rintro (hp | hp) <;> cases hp
    · cases h
      exact .of_not_finished rfl hinv hnot
  | remove =>
    obtain ⟨hphase, ⟨⟩⟩ := guard_some h
    obtain ⟨-, hempty⟩ := hinv.reaping hphase
    obtain ⟨hbatch, hch⟩ := append_eq_nil_iff.mp hempty
    refine .of_not_finished rfl ⟨nofun, fun _ te hte => ?_, fun _ => hbatch⟩
      (not_finished hphase (by decide) (by decide))
    rw [hch] at hte
    cases hte
  | quit =>
    obtain ⟨hphase, ⟨⟩⟩ := guard_some h
    exact .of_not_finished rfl (.of_phase rfl (.inr rfl))
      (not_finished hphase.1 (by decide) (by decide))
  | drain =>
    rw [act] at h
    split at h
    · next hphase hch =>
      cases h
      exact .of_not_finished (receive_content hch) (.of_phase hphase (.inr rfl))
        (not_finished hphase (by decide) (by decide))
    · next hphase hch =>
      cases h
      refine .of_not_finished rfl ⟨nofun, fun _ te hte => ?_, nofun⟩
        (not_finished hphase (by decide) (by decide))
      rw [hch] at hte
      cases hte
    · cases h
  | finish =>
    obtain ⟨hphase, ⟨⟩⟩ := guard_some h
    exact ⟨rfl, ⟨nofun, fun _ => hinv.finished (.inl hphase), fun _ => rfl⟩,
      fun _ => ⟨.inr rfl, rfl⟩, fun _ => rfl⟩

theorem signalStop_next (hinv : p.Inv late) : Next late p { p with quit := true } [] :=
  ⟨rfl, ⟨hinv.reaping, hinv.finished, hinv.exited⟩, fun h => ⟨h, rfl⟩, id⟩

theorem enqueue_cases (room : Nat) (p : TenantPipe D) (te : TimedEvent D) :
    (p.closed = true ∧ p.enqueue room te = (.closed, p)) ∨
      (p.closed = false ∧ p.enqueue room te = (.ok, { p with ch := p.ch ++ [te] })) ∨
      p.enqueue room te = (.full, p) := by
  unfold enqueue
  by_cases hclosed : p.closed = true
  · exact .inl ⟨hclosed, if_pos hclosed⟩
  · rw [if_neg hclosed]
    by_cases hroom : p.ch.length < room
    · exact .inr (.inl ⟨by simpa using hclosed, if_pos hroom⟩)
    · exact .inr (.inr (if_neg hroom))

end TenantPipe

/-! ## All pipes -/

variable {cfg : ExporterConfig} {s s' : State D} {a : Action D} {k : Nat}

inductive Effect (cfg : ExporterConfig) (s : State D) : State D → Prop where
  | calls {submits : List (Call D)} {pipeOf : GoMap String Nat}
      (hsub : (submits.map Call.event).Sublist (s.submits.map Call.event)) :
      Effect cfg s { s with submits := submits, pipeOf := pipeOf }
  | submitted (ev : Event D) (time : Int) :
      Effect cfg s { s with
        submits := s.submits ++ [.start ⟨ev, time, s.number⟩], number := s.number + 1 }
  | created (tenant : String) {submits : List (Call D)} {pipeOf : GoMap String Nat}
      (hstopped : s.stopped = false)
      (hsub : (submits.map Call.event).Sublist (s.submits.map Call.event)) :
      Effect cfg s { s with
        pipes := s.pipes ++ [newTenantPipe tenant], submits := submits, pipeOf := pipeOf }
  | accepted {i : Nat} {te : TimedEvent D} {k : Nat} {p : TenantPipe D}
      (hi : s.submits[i]? = some (.found te k)) (hk : s.pipes[k]? = some p)
      (hopen : p.closed = false) :
      Effect cfg s (s.accept i te k p { p with ch := p.ch ++ [te] })
  | pipe {k : Nat} {p p' : TenantPipe D} {a : PipeAction} {out : List (TimedEvent D)}
      {pipeOf : GoMap String Nat} (hk : s.pipes[k]? = some p)
      (hact : p.act cfg.full a = some (p', out)) :
      Effect cfg s { s with
        pipes := s.pipes.set k p', delivered := s.delivered ++ out, pipeOf := pipeOf }
  | stopping (rest : List Nat) (hstop : s.stop = .notCalled) :
      Effect cfg s { s with stopped := true, stop := .signalling rest }
  | signalled {k : Nat} {p : TenantPipe D} {rest : List Nat} (rest' : List Nat)
      (hstop : s.stop = .signalling rest) (hk : s.pipes[k]? = some p) :
      Effect cfg s { s with
        pipes := s.pipes.set k { p with quit := true }, stop := .signalling rest' }
  | returned (hstop : s.stop = .signalling []) (hexited : ∀ p ∈ s.pipes, p.phase = .exited) :
      Effect cfg s { s with stop := .returned }

variable {submits : List (Call D)} {i : Nat}

theorem events_set {c c' : Call D} (hi : submits[i]? = some c) (hc : c'.event = c.event) :
    ((submits.set i c').map Call.event).Sublist (submits.map Call.event) := by
  obtain ⟨hlt, rfl⟩ := List.getElem?_eq_some_iff.mp hi
  rw [map_set, hc, ← map_set, set_getElem_self]

theorem events_eraseIdx (submits : List (Call D)) (i : Nat) :
    ((submits.eraseIdx i).map Call.event).Sublist (submits.map Call.event) :=
  (eraseIdx_sublist submits i).map _

theorem effect_enqueue (hi : s.submits[i]? = some (.found te k)) (hk : s.pipes[k]? = some p) :
    Effect cfg s (s.enqueue room i te k p) := by
  unfold State.enqueue
  rcases p.enqueue_cases room te with ⟨-, henq⟩ | ⟨hopen, henq⟩ | henq
  · rw [henq]
    exact .calls (events_set hi rfl)
  · rw [henq]
    exact .accepted hi hk hopen
  · rw [henq]
    exact .calls (events_eraseIdx s.submits i)

theorem effect_pipe {b : PipeAction} (h : step cfg s (.pipe k b) = some s') : Effect cfg s s' := by
  obtain ⟨p, hk, h⟩ := Option.bind_eq_some_iff.mp h
  obtain ⟨⟨p', out⟩, hact, h⟩ := Option.bind_eq_some_iff.mp h
  cases h
  unfold State.removePipe
  split
  · split
    · exact .pipe hk hact
    · exact .pipe hk hact
  · exact .pipe hk hact

/-- **What a step does to the events.** -/
theorem effect_of_step (h : step cfg s a = some s') : Effect cfg s s' := by
  revert h
  fun_cases step cfg s a <;> intro h
  any_goals cases h
  case case1 => exact .calls (List.Sublist.refl _)
  case case2 ev time _ => exact .submitted ev time
  case case3 hi _ _ | case4 hi _ | case6 hi _ _ => exact .calls (events_set hi rfl)
  case case7 i _ _ _ _ => exact .calls (events_eraseIdx s.submits i)
  case case8 hi _ hstopped => exact .created _ (by simpa using hstopped) (events_set hi rfl)
  case case10 hi =>
    obtain ⟨p, hk, rfl⟩ := Option.map_eq_some_iff.mp h
    exact effect_enqueue hi hk
  case case12 hi =>
    unfold State.removePipe
    split <;> exact .calls (events_set hi rfl)
  case case14 => exact effect_pipe h
  case case15 hstop => exact .stopping _ hstop
  case case17 hstop _ =>
    obtain ⟨p, hk, rfl⟩ := Option.map_eq_some_iff.mp h
    exact .signalled _ hstop hk
  case case20 hwait => exact .returned hwait.1 hwait.2

/-! ### Where the events are -/

def State.custody (s : State D) : Custody (TenantPipe D) (TimedEvent D) where
  waiting := s.submits.map Call.event
  accepted := s.accepted
  places := s.pipes
  delivered := s.delivered

structure Inv (s : State D) : Prop where
  custody : s.custody.Conserved TenantPipe.content
  numbers : ∀ te ∈ s.submits.map Call.event ++ s.accepted, te.number < s.number
  pipes : ∀ p ∈ s.pipes, p.Inv s.late
  late : ∀ te ∈ s.late, ∃ p ∈ s.pipes, p.Finished ∧ te ∈ p.ch
  stopped : s.stop ≠ .notCalled → s.stopped = true
  returned : s.stop = .returned → ∀ p ∈ s.pipes, p.phase = .exited

theorem inv_newExporter : Inv (newExporter : State D) where
  custody := .empty rfl rfl rfl rfl
  numbers := by simp [newExporter]
  pipes := by simp [newExporter]
  late := by simp [newExporter]
  stopped h := absurd rfl h
  returned := nofun

section inv

variable (hinv : Inv s)
include hinv

variable {pipeOf : GoMap String Nat}

theorem Inv.calls (hsub : (submits.map Call.event).Sublist (s.submits.map Call.event)) :
    Inv { s with submits := submits, pipeOf := pipeOf } :=
  { hinv with
    custody := hinv.custody.withdraw hsub
    numbers := fun te hte => hinv.numbers te ((hsub.append_right _).mem hte) }

theorem Inv.submitted (ev : Event D) (time : Int) :
    Inv { s with
      submits := s.submits ++ [.start ⟨ev, time, s.number⟩], number := s.number + 1 } := by
  have hnew : (⟨ev, time, s.number⟩ : TimedEvent D) ∉ s.submits.map Call.event ++ s.accepted :=
    fun h => Nat.lt_irrefl _ (hinv.numbers _ h)
  refine { hinv with custody := ?_, numbers := ?_ }
  · have h := hinv.custody.issue hnew
    simpa [State.custody, Call.event] using h
  · intro te hte
    rw [map_append, append_assoc, mem_append, mem_append] at hte
    rcases hte with hte | hte | hte
    · exact Nat.lt_succ_of_lt (hinv.numbers te (mem_append_left _ hte))
    · rw [mem_singleton.mp hte]
      exact Nat.lt_succ_self _
    · exact Nat.lt_succ_of_lt (hinv.numbers te (mem_append_right _ hte))

theorem Inv.created (tenant : String) (hstopped : s.stopped = false)
    (hsub : (submits.map Call.event).Sublist (s.submits.map Call.event)) :
    Inv { s with
      pipes := s.pipes ++ [newTenantPipe tenant], submits := submits, pipeOf := pipeOf } := by
  refine { hinv with
    custody := (hinv.custody.withdraw hsub).addPlace rfl
    numbers := fun te hte => hinv.numbers te ((hsub.append_right _).mem hte)
    pipes := fun p hp => ?_, late := fun te hte => ?_, returned := fun hret => ?_ }
  · rcases mem_append.mp hp with hp | hp
    · exact hinv.pipes p hp
    · rw [mem_singleton.mp hp]
      exact .of_phase rfl (.inl rfl)
  · obtain ⟨p, hp, hfin⟩ := hinv.late te hte
    exact ⟨p, mem_append_left _ hp, hfin⟩
  · -- No pipe is made after the exporter was stopped.
    have htrue := hinv.stopped (by rw [hret]; decide)
    rw [hstopped] at htrue
    cases htrue

theorem Inv.setPipe {pipeOf : GoMap String Nat} {stop : StopPhase} (hk : s.pipes[k]? = some p)
    (hnext : p.Next s.late p' out) (hstopped : stop ≠ .notCalled → s.stopped = true)
    (hret : stop = .returned → s.stop = .returned) :
    Inv { s with
      pipes := s.pipes.set k p'
      delivered := s.delivered ++ out
      pipeOf := pipeOf
      stop := stop } := by
  have hlt := (List.getElem?_eq_some_iff.mp hk).1
  refine { hinv with
    custody := hinv.custody.deliver hk (.of_eq hnext.content)
    pipes := fun q hq => ?_, late := fun te hte => ?_, stopped := hstopped
    returned := fun hr q hq => ?_ }
  · rcases mem_or_eq_of_mem_set hq with hq | rfl
    · exact hinv.pipes q hq
    · exact hnext.inv
  · obtain ⟨q, hq, hfin, hch⟩ := hinv.late te hte
    rcases Custody.mem_set_or_eq hk hq with hq | rfl
    · exact ⟨q, hq, hfin, hch⟩
    · obtain ⟨hfin', hsame⟩ := hnext.finished hfin
      exact ⟨p', mem_set hlt p', hfin', by rw [hsame]; exact hch⟩
  · have hall := hinv.returned (hret hr)
    rcases mem_or_eq_of_mem_set hq with hq | rfl
    · exact hall q hq
    · exact hnext.exited (hall p (mem_of_getElem? hk))

theorem Inv.accept (hi : s.submits[i]? = some (.found te k)) (hk : s.pipes[k]? = some p)
    (hopen : p.closed = false) :
    Inv (s.accept i te k p { p with ch := p.ch ++ [te] }) := by
  obtain ⟨hlt, hte⟩ := List.getElem?_eq_some_iff.mp hi
  have hlt' := (List.getElem?_eq_some_iff.mp hk).1
  have hwaiting : (s.submits.map Call.event).Perm
      (te :: (s.submits.eraseIdx i).map Call.event) := by
    have h := ((getElem_cons_eraseIdx_perm hlt).symm).map Call.event
    rwa [hte] at h
  have hlate : ∀ x ∈ s.late, x ∈ if p.Finished then s.late ++ [te] else s.late := by
    intro x hx
    split
    · exact mem_append_left _ hx
    · exact hx
  have hold := hinv.pipes p (mem_of_getElem? hk)
  constructor
  case custody => exact hinv.custody.accept hwaiting hk (by simp [TenantPipe.content])
  case numbers =>
    intro x hx
    have hperm : ((s.submits.eraseIdx i).map Call.event ++ (s.accepted ++ [te])).Perm
        (s.submits.map Call.event ++ s.accepted) := by
      rw [← append_assoc]
      exact (perm_append_singleton te _).trans (hwaiting.symm.append_right _)
    exact hinv.numbers x (hperm.mem_iff.mp hx)
  case pipes =>
    intro q hq
    rcases mem_or_eq_of_mem_set hq with hq | rfl
    · obtain ⟨hreaping, hfinished, hexited⟩ := hinv.pipes q hq
      exact ⟨hreaping, fun h x hx => hlate x (hfinished h x hx), hexited⟩
    · refine ⟨fun h => ?_, fun h x hx => ?_, hold.exited⟩
      · have hclosed := (hold.reaping h).1
        rw [hopen] at hclosed
        cases hclosed
      · rcases mem_append.mp hx with hx | hx
        · exact hlate x (hold.finished h x hx)
        · have hfin : p.Finished := h
          simp only [State.accept, if_pos hfin]
          exact mem_append_right _ hx
  case late =>
    intro x hx
    have hcase : x ∈ s.late ∨ (p.Finished ∧ x = te) := by
      simp only [State.accept] at hx
      split at hx
      · next hfin => exact (mem_append.mp hx).imp id fun h => ⟨hfin, mem_singleton.mp h⟩
      · exact .inl hx
    rcases hcase with hx | ⟨hfin, rfl⟩
    · obtain ⟨q, hq, hfin, hch⟩ := hinv.late x hx
      rcases Custody.mem_set_or_eq hk hq with hq | rfl
      · exact ⟨q, hq, hfin, hch⟩
      · exact ⟨_, mem_set hlt' _, hfin, mem_append_left _ hch⟩
    · exact ⟨_, mem_set hlt' _, hfin, mem_append_right _ mem_cons_self⟩
  case stopped => exact hinv.stopped
  case returned =>
    intro hret q hq
    rcases mem_or_eq_of_mem_set hq with hq | rfl
    · exact hinv.returned hret q hq
    · exact hinv.returned hret p (mem_of_getElem? hk)

/-- **What a step keeps.** -/
theorem Inv.step (h : step cfg s a = some s') : Inv s' := by
  cases effect_of_step h with
  | calls hsub => exact hinv.calls hsub
  | submitted ev time => exact hinv.submitted ev time
  | created tenant hstopped hsub => exact hinv.created tenant hstopped hsub
  | accepted hi hk hopen => exact hinv.accept hi hk hopen
  | pipe hk hact =>
    have hnext := TenantPipe.act_next (hinv.pipes _ (mem_of_getElem? hk)) hact
    exact hinv.setPipe hk hnext hinv.stopped id
  | stopping rest hstop =>
    exact { hinv with stopped := fun _ => rfl, returned := nofun }
  | @signalled k p rest rest' hstop hk =>
    have hnext := TenantPipe.signalStop_next (hinv.pipes _ (mem_of_getElem? hk))
    have hset : Inv { s with
        pipes := s.pipes.set k { p with quit := true }
        delivered := s.delivered ++ []
        stop := .signalling rest' } :=
      hinv.setPipe hk hnext (fun _ => hinv.stopped (by rw [hstop]; nofun)) nofun
    rwa [append_nil] at hset
  | returned hstop hexited =>
    exact { hinv with
      stopped := fun _ => hinv.stopped (by rw [hstop]; decide)
      returned := fun _ => hexited }

theorem Inv.late_step (h : Siem.step cfg s a = some s') (hte : te ∈ s.accepted) :
    te ∈ s'.accepted ∧ (te ∈ s'.late ↔ te ∈ s.late) := by
  cases effect_of_step h with
  | @accepted i te' k p hi hk hopen =>
    have hne : te ≠ te' := by
      rintro rfl
      exact hinv.custody.not_accepted_of_waiting
        (mem_map.mpr ⟨_, mem_of_getElem? hi, rfl⟩) hte
    refine ⟨mem_append_left _ hte, ?_⟩
    unfold State.accept
    split
    · simp [hne]
    · exact Iff.rfl
  | calls | submitted | created | pipe | stopping | signalled | returned => exact ⟨hte, Iff.rfl⟩

theorem Inv.enqueued (hi : s.submits[i]? = some (.found te k)) (hk : s.pipes[k]? = some p)
    (hok : (p.enqueue cfg.room te).1 = .ok) (h : Siem.step cfg s (.enqueue i) = some s') :
    te ∈ s'.accepted ∧ (te ∈ s'.late ↔ p.Finished) := by
  have hs' : s' = s.accept i te k p { p with ch := p.ch ++ [te] } := by
    have henq : s.enqueue cfg.room i te k p = s' := by simpa [Siem.step, hi, hk] using h
    rw [← henq, State.enqueue]
    rcases p.enqueue_cases cfg.room te with ⟨-, hcase⟩ | ⟨-, hcase⟩ | hcase
    · rw [hcase] at hok
      cases hok
    · rw [hcase]
    · rw [hcase] at hok
      cases hok
  have hnot : te ∉ s.late := by
    intro hlate
    obtain ⟨q, hq, -, hch⟩ := hinv.late te hlate
    exact hinv.custody.not_accepted_of_waiting (mem_map.mpr ⟨_, mem_of_getElem? hi, rfl⟩)
      (hinv.custody.accepted_of_mem hq (mem_append_right _ hch))
  rw [hs']
  unfold State.accept
  split
  · next hfin => simp [hfin]
  · next hfin => simp [hfin, hnot]

theorem Inv.count_delivered [DecidableEq D] (hret : s.stop = .returned) (hte : te ∈ s.accepted) :
    s.delivered.count te = 1 ↔ te ∉ s.late := by
  refine (hinv.custody.count_delivered hte).trans ⟨fun hout hlate => ?_, fun hnot p hp hin => ?_⟩
  · obtain ⟨p, hp, -, hch⟩ := hinv.late te hlate
    exact hout p hp (mem_append_right _ hch)
  · have hexited := hinv.returned hret p hp
    have hpipe := hinv.pipes p hp
    rcases mem_append.mp hin with hbatch | hch
    · rw [hpipe.exited hexited] at hbatch
      cases hbatch
    · exact hnot (hpipe.finished (.inr hexited) te hch)

end inv

theorem Inv.of_run {es : List (Infra.Event (State D) (Action D))}
    (hrun : Run (Siem.step cfg) newExporter es s) : Inv s :=
  (hrun.keeps (C := fun _ _ => True) (fun hinv _ h => hinv.step h) inv_newExporter
    fun _ _ => trivial).1

/--
**Which of the accepted events are delivered.** When `Stop` has returned, an event for which
`enqueue` has returned `enqOK` was passed to `deliver` exactly once if and only if the goroutine of
the pipe, at the moment of that call, was yet to find nothing left in the channel.
-/
theorem delivered_once_iff [DecidableEq D] {t : State D}
    {es : List (Infra.Event (State D) (Action D))} (hrun : Run (step cfg) newExporter es t)
    (hret : t.stop = .returned) {e : Infra.Event (State D) (Action D)} (he : e ∈ es) {i : Nat}
    (haction : e.action = .enqueue i) (hi : e.before.submits[i]? = some (.found te k))
    (hk : e.before.pipes[k]? = some p) (hok : (p.enqueue cfg.room te).1 = .ok) :
    t.delivered.count te = 1 ↔ ¬ p.Finished := by
  obtain ⟨es₁, es₂, hbefore, hstep, hafter⟩ := hrun.split he
  have hinv := Inv.of_run hbefore
  rw [haction] at hstep
  obtain ⟨haccepted, hlate⟩ := hinv.enqueued hi hk hok hstep
  have hkeeps : ∀ {s : State D} {a s'},
      (Inv s ∧ te ∈ s.accepted ∧ (te ∈ s.late ↔ p.Finished)) → True → step cfg s a = some s' →
        Inv s' ∧ te ∈ s'.accepted ∧ (te ∈ s'.late ↔ p.Finished) := by
    rintro s a s' ⟨hs, hacc, hl⟩ - h
    obtain ⟨hacc', hl'⟩ := hs.late_step h hacc
    exact ⟨hs.step h, hacc', hl'.trans hl⟩
  obtain ⟨hinv', hacc, hl⟩ :=
    (hafter.keeps hkeeps ⟨hinv.step hstep, haccepted, hlate⟩ fun _ _ => trivial).1
  rw [hinv'.count_delivered hret hacc, hl]

def sampleConfig : ExporterConfig := ⟨2, 2⟩

def sampleEvent : TimedEvent Nat := ⟨⟨"t", 7⟩, 0, 0⟩

theorem delivered_once_iff_sample :
    ∃ es, ∃ t : State Nat, ∃ e : Infra.Event (State Nat) (Action Nat), ∃ p,
      Run (step sampleConfig) newExporter es t ∧ t.stop = .returned ∧ e ∈ es ∧
      e.action = .enqueue 0 ∧ e.before.submits[0]? = some (.found sampleEvent 0) ∧
      e.before.pipes[0]? = some p ∧ (p.enqueue sampleConfig.room sampleEvent).1 = .ok ∧
      t.delivered.count sampleEvent = 1 := by
  obtain ⟨es, t, e, hrun, he, haction, hi, hk, hret⟩ := exists_run_at (step sampleConfig) newExporter
    [.submit ⟨"t", 7⟩ 0, .lookup 0, .create 0] (.enqueue 0)
    [.beginStop, .signalStop 0, .pipe 0 .quit, .pipe 0 .drain, .pipe 0 .drain, .pipe 0 .finish, .wait]
    (fun s t => s.submits[0]? = some (.found sampleEvent 0) ∧
      s.pipes[0]? = some (newTenantPipe "t") ∧ t.stop = .returned) (by decide +kernel)
  have hok : ((newTenantPipe "t").enqueue sampleConfig.room sampleEvent).1 = .ok := by
    decide +kernel
  exact ⟨es, t, e, _, hrun, hret, he, haction, hi, hk, hok,
    (delivered_once_iff hrun hret he haction hi hk hok).mpr (by decide)⟩

/--
An event that is never delivered: the call of `Submit` has found the pipe, `Stop` is called, and the
goroutine of the pipe finds nothing left; then `enqueue` takes the event.
-/
theorem accepted_event_lost :
    ∃ es, ∃ t : State Nat, ∃ e : Infra.Event (State Nat) (Action Nat), ∃ p,
      Run (step sampleConfig) newExporter es t ∧ t.stop = .returned ∧ e ∈ es ∧
      e.action = .enqueue 0 ∧ e.before.stop ≠ .returned ∧
      e.before.submits[0]? = some (.found sampleEvent 0) ∧ e.before.pipes[0]? = some p ∧
      (p.enqueue sampleConfig.room sampleEvent).1 = .ok ∧ t.accepted = [sampleEvent] ∧
      t.delivered = [] := by
  obtain ⟨es, t, e, hrun, he, haction, hbefore, hi, hk, hret, hfinal⟩ :=
    exists_run_at (step sampleConfig) newExporter
      [.submit ⟨"t", 7⟩ 0, .lookup 0, .create 0, .beginStop, .signalStop 0, .pipe 0 .quit,
        .pipe 0 .drain] (.enqueue 0) [.pipe 0 .finish, .wait]
      (fun s t => s.stop ≠ .returned ∧ s.submits[0]? = some (.found sampleEvent 0) ∧
        s.pipes[0]? = some ⟨"t", [], true, false, .drained, []⟩ ∧
        t.stop = .returned ∧ t.accepted = [sampleEvent] ∧ t.delivered = []) (by decide +kernel)
  exact ⟨es, t, e, _, hrun, hret, he, haction, hbefore, hi, hk, by decide +kernel, hfinal⟩

end Kseal.Siem
