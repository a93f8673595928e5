import Kseal.Infra.Run
import Mathlib.Data.List.Basic

/-!
# The webhook dispatcher (`data-plane/webhook/dispatcher.go`)

`Submit` puts events into `events`; one goroutine turns them into jobs in `queue`, which the workers
deliver; `Dispatch` and the timers of retries put jobs into `queue` as well. Everybody who sends
reads the flag of `Stop` first, and sends in a later step; a send on a closed channel stops the
process.
-/

namespace Kseal.Webhook

open Infra List Option

/-! ## The dispatcher -/

structure DispatcherConfig where
  workers : Int64
  queueSize : Int64
  maxAttempts : Int64

def DispatcherConfig.withDefaults (c : DispatcherConfig) : DispatcherConfig where
  workers := if c.workers ≤ 0 then 4 else c.workers
  queueSize := if c.queueSize ≤ 0 then 1024 else c.queueSize
  maxAttempts := if c.maxAttempts ≤ 0 then 3 else c.maxAttempts

def DispatcherConfig.attempts (c : DispatcherConfig) : Nat :=
  c.withDefaults.maxAttempts.toNatClampNeg

structure Chan (α : Type) where
  buffer : List α
  cap : Nat
  closed : Bool

inductive SendResult (α : Type) where
  | panic
  | sent (c : Chan α)
  | full

def Chan.trySend {α : Type} (c : Chan α) (x : α) : SendResult α :=
  if c.closed then .panic
  else if c.buffer.length < c.cap then .sent { c with buffer := c.buffer ++ [x] }
  else .full

structure Raised (E : Type) where
  number : Option Nat
  event : E
deriving DecidableEq

structure Job (E W : Type) where
  event : Raised E
  target : W
  attempt : Nat
deriving DecidableEq

/--
A goroutine that calls `enqueue` for one job after the other; `checked` if it has read the flag for
the first one and goes on to send it.
-/
structure Sender (E W : Type) where
  jobs : List (Job E W)
  checked : Bool

inductive Loop (E : Type) where
  | ready
  | looking (e : Raised E)
  | ended

inductive Worker (E W : Type) where
  | idle
  | busy (j : Job E W)
  | exited

inductive StopPhase where
  | notCalled
  | flagged
  | eventsClosed
  | loopEnded
  | queueClosed
  | returned
deriving DecidableEq

inductive Channel where
  | events
  | queue
deriving DecidableEq

structure State (E W : Type) where
  stopped : Bool
  events : Chan (Raised E)
  queue : Chan (Job E W)
  /-- Calls of `Submit` that have read the flag and go on to send. -/
  submits : List (Raised E)
  loop : Loop E
  /-- The calls of `enqueue` of that goroutine. -/
  fan : Sender E W
  /-- Calls of `Dispatch`, and timers. -/
  callers : List (Sender E W)
  workers : List (Worker E W)
  stop : StopPhase
  /-- The closed channel on which there was a send. -/
  panicked : Option Channel
  -- What has happened so far.
  number : Nat
  /-- The events that `Submit` has put into the channel. -/
  buffered : List (Raised E)
  looked : List (Raised E × Option (List W))
  /-- The jobs for which the flag was read before it was set. -/
  passed : List (Job E W)
  /-- The jobs for which the queue had no room. -/
  overflowed : List (Job E W)
  received : List (Job E W)

variable {E W : Type}

def newDispatcher (cfg : DispatcherConfig) : State E W where
  stopped := false
  events := ⟨[], cfg.withDefaults.queueSize.toNatClampNeg, false⟩
  queue := ⟨[], cfg.withDefaults.queueSize.toNatClampNeg, false⟩
  submits := []
  loop := .ready
  fan := ⟨[], false⟩
  callers := []
  workers := List.replicate cfg.withDefaults.workers.toNatClampNeg .idle
  stop := .notCalled
  panicked := none
  number := 0
  buffered := []
  looked := []
  passed := []
  overflowed := []
  received := []

inductive Outcome where
  | circuitOpen
  | error
  | success
  | failure
deriving DecidableEq

inductive Action (E W : Type) where
  | submit (e : E)
  | submitSend (i : Nat)
  | dispatch (e : E) (answer : Option (List W))
  | check (i : Option Nat)
  | send (i : Option Nat)
  | receiveEvent
  | lookup (answer : Option (List W))
  | endLoop
  | receiveJob (k : Nat)
  | deliver (k : Nat) (outcome : Outcome)
  | exitWorker (k : Nat)
  | setFlag
  | closeEvents
  | awaitLoop
  | closeQueue
  | awaitWorkers

namespace State

def firstJobs (e : Raised E) (targets : List W) : List (Job E W) := targets.map fun t => ⟨e, t, 1⟩

def sender? (s : State E W) : Option Nat → Option (Sender E W)
  | none => some s.fan
  | some i => s.callers[i]?

def setSender (s : State E W) (q : Sender E W) : Option Nat → State E W
  | none => { s with fan := q }
  | some i => { s with callers := s.callers.set i q }

def readFlag (s : State E W) : Sender E W → Option (State E W × Sender E W)
  | ⟨j :: jobs, false⟩ =>
    if s.stopped then some (s, ⟨jobs, false⟩)
    else some ({ s with passed := s.passed ++ [j] }, ⟨j :: jobs, true⟩)
  | _ => none

def sendJob (s : State E W) : Sender E W → Option (State E W × Sender E W)
  | ⟨j :: jobs, true⟩ =>
    match s.queue.trySend j with
    | .panic => some ({ s with panicked := some .queue }, ⟨jobs, false⟩)
    | .sent c => some ({ s with queue := c }, ⟨jobs, false⟩)
    | .full => some ({ s with overflowed := s.overflowed ++ [j] }, ⟨jobs, false⟩)
  | _ => none

def sendEvent (s : State E W) (e : Raised E) : State E W :=
  match s.events.trySend e with
  | .panic => { s with panicked := some .events }
  | .sent c => { s with events := c, buffered := s.buffered ++ [e] }
  | .full => s

def act (maxAttempts : Nat) (s : State E W) : Action E W → Option (State E W)
  | .submit e =>
    if s.stopped then some s
    else some { s with submits := s.submits ++ [⟨some s.number, e⟩], number := s.number + 1 }
  | .submitSend i =>
    s.submits[i]?.map fun e => sendEvent { s with submits := s.submits.eraseIdx i } e
  | .dispatch _ none => some s
  | .dispatch e (some targets) =>
    some { s with callers := s.callers ++ [⟨firstJobs ⟨none, e⟩ targets, false⟩] }
  | .check i => do
    let q ← s.sender? i
    let (s, q) ← s.readFlag q
    return s.setSender q i
  | .send i => do
    let q ← s.sender? i
    let (s, q) ← s.sendJob q
    return s.setSender q i
  | .receiveEvent =>
    match s.loop, s.fan.jobs, s.events.buffer with
    | .ready, [], e :: rest =>
      some { s with events := { s.events with buffer := rest }, loop := .looking e }
    | _, _, _ => none
  | .lookup answer =>
    match s.loop with
    | .looking e =>
      some { s with
        loop := .ready
        fan := ⟨firstJobs e (answer.getD []), false⟩
        looked := s.looked ++ [(e, answer)] }
    | _ => none
  | .endLoop =>
    match s.loop, s.fan.jobs, s.events with
    | .ready, [], ⟨[], _, true⟩ => some { s with loop := .ended }
    | _, _, _ => none
  | .receiveJob k =>
    match s.workers[k]?, s.queue.buffer with
    | some .idle, j :: rest =>
      some { s with
        queue := { s.queue with buffer := rest }
        workers := s.workers.set k (.busy j)
        received := s.received ++ [j] }
    | _, _ => none
  | .deliver k outcome =>
    match s.workers[k]? with
    | some (.busy j) =>
      let s := { s with workers := s.workers.set k .idle }
      if outcome = .failure ∧ j.attempt < maxAttempts then
        some { s with callers := s.callers ++ [⟨[{ j with attempt := j.attempt + 1 }], false⟩] }
      else some s
    | _ => none
  | .exitWorker k =>
    match s.workers[k]?, s.queue with
    | some .idle, ⟨[], _, true⟩ => some { s with workers := s.workers.set k .exited }
    | _, _ => none
  | .setFlag =>
    if s.stop = .notCalled then some { s with stopped := true, stop := .flagged } else none
  | .closeEvents =>
    if s.stop = .flagged then
      some { s with events := { s.events with closed := true }, stop := .eventsClosed }
    else none
  | .awaitLoop =>
    match s.stop, s.loop with
    | .eventsClosed, .ended => some { s with stop := .loopEnded }
    | _, _ => none
  | .closeQueue =>
    if s.stop = .loopEnded then
      some { s with queue := { s.queue with closed := true }, stop := .queueClosed }
    else none
  | .awaitWorkers =>
    if s.stop = .queueClosed ∧ ∀ w ∈ s.workers, w matches .exited then
      some { s with stop := .returned }
    else none

end State

def step (maxAttempts : Nat) (s : State E W) (a : Action E W) : Option (State E W) :=
  if s.panicked.isSome then none else s.act maxAttempts a

/-! ## What senders do -/

variable {maxAttempts : Nat} {s s' : State E W} {q q' : Sender E W} {a : Action E W}

theorem step_eq_some (h : step maxAttempts s a = some s') :
    s.panicked = none ∧ s.act maxAttempts a = some s' := by
  obtain ⟨hp, h⟩ := unless_some h
  exact ⟨by simpa using hp, h⟩

theorem readFlag_cases (h : s.readFlag q = some (s', q')) :
    ∃ j jobs, q = ⟨j :: jobs, false⟩ ∧
      ((s.stopped = true ∧ s' = s ∧ q' = ⟨jobs, false⟩) ∨
        (s.stopped = false ∧ s' = { s with passed := s.passed ++ [j] } ∧
          q' = ⟨j :: jobs, true⟩)) := by
  unfold State.readFlag at h
  split at h
  · next j jobs =>
    refine ⟨j, jobs, rfl, ?_⟩
    split at h
    · next hs =>
      cases h
      exact .inl ⟨hs, rfl, rfl⟩
    · next hs =>
      cases h
      exact .inr ⟨by simpa using hs, rfl, rfl⟩
  · cases h

theorem trySend_cases {α : Type} (c : Chan α) (x : α) :
    (c.closed = true ∧ c.trySend x = .panic) ∨
      (c.closed = false ∧ c.trySend x = .sent { c with buffer := c.buffer ++ [x] }) ∨
      (c.closed = false ∧ c.trySend x = .full) := by
  unfold Chan.trySend
  by_cases hclosed : c.closed = true
  · exact .inl ⟨hclosed, if_pos hclosed⟩
  · have hopen : c.closed = false := by simpa using hclosed
    rw [if_neg hclosed]
    by_cases hroom : c.buffer.length < c.cap
    · exact .inr (.inl ⟨hopen, if_pos hroom⟩)
    · exact .inr (.inr ⟨hopen, if_neg hroom⟩)

theorem sendJob_cases (h : s.sendJob q = some (s', q')) :
    ∃ j jobs, q = ⟨j :: jobs, true⟩ ∧ q' = ⟨jobs, false⟩ ∧
      ((s.queue.closed = true ∧ s' = { s with panicked := some .queue }) ∨
        (s.queue.closed = false ∧
          s' = { s with queue := { s.queue with buffer := s.queue.buffer ++ [j] } }) ∨
        (s.queue.closed = false ∧ s' = { s with overflowed := s.overflowed ++ [j] })) := by
  unfold State.sendJob at h
  split at h
  · next j jobs =>
    refine ⟨j, jobs, rfl, ?_⟩
    rcases trySend_cases s.queue j with ⟨hclosed, hsend⟩ | ⟨hopen, hsend⟩ | ⟨hopen, hsend⟩
    · rw [hsend] at h
      cases h
      exact ⟨rfl, .inl ⟨hclosed, rfl⟩⟩
    · rw [hsend] at h
      cases h
      exact ⟨rfl, .inr (.inl ⟨hopen, rfl⟩)⟩
    · rw [hsend] at h
      cases h
      exact ⟨rfl, .inr (.inr ⟨hopen, rfl⟩)⟩
  · cases h

theorem sendEvent_cases (s : State E W) (e : Raised E) :
    (s.events.closed = true ∧ s.sendEvent e = { s with panicked := some .events }) ∨
      (s.events.closed = false ∧ s.sendEvent e = { s with
        events := { s.events with buffer := s.events.buffer ++ [e] }
        buffered := s.buffered ++ [e] }) ∨
      (s.events.closed = false ∧ s.sendEvent e = s) := by
  unfold State.sendEvent
  rcases trySend_cases s.events e with ⟨hclosed, hsend⟩ | ⟨hopen, hsend⟩ | ⟨hopen, hsend⟩
  · exact .inl ⟨hclosed, by rw [hsend]⟩
  · exact .inr (.inl ⟨hopen, by rw [hsend]⟩)
  · exact .inr (.inr ⟨hopen, by rw [hsend]⟩)

variable {i : Option Nat}

theorem sender?_setSender_ne {i' : Option Nat} (h : i' ≠ i) (s : State E W) (q : Sender E W) :
    (s.setSender q i).sender? i' = s.sender? i' := by
  cases i with
  | none =>
    cases i' with
    | none => exact absurd rfl h
    | some n' => rfl
  | some n =>
    cases i' with
    | none => rfl
    | some n' => exact getElem?_set_ne fun hn => h (congrArg some hn.symm)

theorem sender?_setSender_self (h : s.sender? i = some q) (q' : Sender E W) :
    (s.setSender q' i).sender? i = some q' := by
  cases i with
  | none => rfl
  | some n => exact getElem?_set_self (List.getElem?_eq_some_iff.mp h).1

theorem sender?_setSender {i' : Option Nat} (h : (s.setSender q i).sender? i' = some q') :
    (i' = i ∧ q' = q) ∨ s.sender? i' = some q' := by
  by_cases hi : i' = i
  · subst hi
    have hq : ∃ q₀, s.sender? i' = some q₀ := by
      cases i' with
      | none => exact ⟨_, rfl⟩
      | some n =>
        have hlt : n < (s.callers.set n q).length := (List.getElem?_eq_some_iff.mp h).1
        rw [length_set] at hlt
        exact ⟨_, getElem?_eq_getElem hlt⟩
    obtain ⟨q₀, hq₀⟩ := hq
    rw [sender?_setSender_self hq₀] at h
    exact .inl ⟨rfl, (some.inj h).symm⟩
  · rw [sender?_setSender_ne hi] at h
    exact .inr h

theorem act_check (h : s.act maxAttempts (.check i) = some s') :
    ∃ q s₁ q', s.sender? i = some q ∧ s.readFlag q = some (s₁, q') ∧ s' = s₁.setSender q' i := by
  obtain ⟨q, hq, h⟩ := bind_eq_some_iff.mp h
  obtain ⟨⟨s₁, q'⟩, hread, h⟩ := bind_eq_some_iff.mp h
  exact ⟨q, s₁, q', hq, hread, (some.inj h).symm⟩

theorem act_send (h : s.act maxAttempts (.send i) = some s') :
    ∃ q s₁ q', s.sender? i = some q ∧ s.sendJob q = some (s₁, q') ∧ s' = s₁.setSender q' i := by
  obtain ⟨q, hq, h⟩ := bind_eq_some_iff.mp h
  obtain ⟨⟨s₁, q'⟩, hsend, h⟩ := bind_eq_some_iff.mp h
  exact ⟨q, s₁, q', hq, hsend, (some.inj h).symm⟩

variable {k : Nat}

theorem act_deliver {outcome : Outcome} (h : s.act maxAttempts (.deliver k outcome) = some s') :
    ∃ j, s.workers[k]? = some (.busy j) ∧
      (s' = { s with workers := s.workers.set k .idle } ∨
        s' = { s with
          workers := s.workers.set k .idle
          callers := s.callers ++ [⟨[{ j with attempt := j.attempt + 1 }], false⟩] }) := by
  rw [State.act] at h
  split at h
  · next j hk =>
    refine ⟨j, hk, ?_⟩
    split at h
    · exact .inr (some.inj h).symm
    · exact .inl (some.inj h).symm
  · cases h

/-! ## Where everything is -/

variable {j : Job E W}

theorem not_checked_of_append {callers : List (Sender E W)} {q : Sender E W} {i : Nat}
    {jobs : List (Job E W)} (hq : q.checked = false)
    (h : (callers ++ [q])[i]? = some ⟨j :: jobs, true⟩) : callers[i]? = some ⟨j :: jobs, true⟩ := by
  rcases Nat.lt_or_ge i callers.length with hlt | hge
  · rwa [getElem?_append_left hlt] at h
  · rw [getElem?_append_right hge, getElem?_singleton] at h
    obtain ⟨-, ⟨⟩⟩ := guard_some h
    cases hq

def State.Located (s : State E W) (j : Job E W) : Prop :=
  (∃ i jobs, s.sender? i = some ⟨j :: jobs, true⟩) ∨ j ∈ s.overflowed ∨ j ∈ s.queue.buffer ∨
    j ∈ s.received

theorem State.Located.setSender {x : Job E W} {passed overflowed : List (Job E W)}
    {queue : Chan (Job E W)} (hloc : s.Located x) (hq : s.sender? i = some q)
    (hx : ∀ jobs, q ≠ ⟨x :: jobs, true⟩) (hover : ∀ j ∈ s.overflowed, j ∈ overflowed)
    (hqueue : ∀ j ∈ s.queue.buffer, j ∈ queue.buffer) :
    State.Located (State.setSender
      { s with passed := passed, overflowed := overflowed, queue := queue } q' i) x := by
  rcases hloc with ⟨i', jobs, hi'⟩ | hrest
  · refine .inl ⟨i', jobs, ?_⟩
    rw [sender?_setSender_ne]
    · exact hi'
    · rintro rfl
      rw [hq] at hi'
      exact hx jobs (some.inj hi')
  · refine .inr ?_
    cases i <;> exact hrest.imp (hover x) (Or.imp (hqueue x) id)

structure Inv (s : State E W) : Prop where
  stopped : s.stop ≠ .notCalled → s.stopped = true
  awaited : s.stop = .loopEnded ∨ s.stop = .queueClosed ∨ s.stop = .returned → s.loop = .ended
  ended : s.loop = .ended → s.events.closed = true ∧ s.events.buffer = []
  fan_idle : s.loop ≠ .ready → s.fan.jobs = []
  workers_ne : s.workers ≠ []
  exited : .exited ∈ s.workers → s.queue.closed = true ∧ s.queue.buffer = []
  busy : ∀ j, .busy j ∈ s.workers → j ∈ s.received
  numbered : ∀ e, e ∈ s.submits ∨ e ∈ s.buffered → e.number ≠ none
  /-- Only the fan-out makes first attempts of events of `Submit`. -/
  caller_jobs : ∀ q ∈ s.callers, ∀ j ∈ q.jobs,
    1 ≤ j.attempt ∧ (j.event.number = none ∨ 2 ≤ j.attempt)
  fan_jobs : ∀ j ∈ s.fan.jobs, 1 ≤ j.attempt
  events : ∀ e ∈ s.buffered,
    e ∈ s.events.buffer ∨ s.loop = .looking e ∨ ∃ answer, (e, answer) ∈ s.looked
  checked : ∀ i j jobs, s.sender? i = some ⟨j :: jobs, true⟩ → j ∈ s.passed
  taken : ∀ j, j ∈ s.queue.buffer ∨ j ∈ s.received → j ∈ s.passed
  passed : ∀ j ∈ s.passed, 1 ≤ j.attempt ∧ s.Located j

theorem workers_pos (cfg : DispatcherConfig) : 0 < cfg.withDefaults.workers.toNatClampNeg := by
  have hpos : 0 < cfg.withDefaults.workers := by
    simp only [DispatcherConfig.withDefaults]
    split
    · decide
    · next h => exact Int64.not_le.mp h
  have hint : 0 < cfg.withDefaults.workers.toInt := Int64.lt_iff_toInt_lt.mp hpos
  exact Int.pos_iff_toNat_pos.mp hint

theorem inv_newDispatcher (cfg : DispatcherConfig) : Inv (newDispatcher cfg : State E W) := by
  constructor
  case workers_ne =>
    have hpos := workers_pos cfg
    simp only [newDispatcher, ne_eq, replicate_eq_nil_iff]
    omega
  case checked =>
    intro i j jobs h
    cases i <;> cases h
  all_goals simp [newDispatcher]

section inv

variable (hinv : Inv s)
include hinv

theorem Inv.attempt (hq : s.sender? i = some q) (hj : j ∈ q.jobs) :
    1 ≤ j.attempt := by
  cases i with
  | none =>
    cases hq
    exact hinv.fan_jobs j hj
  | some n => exact (hinv.caller_jobs q (mem_of_getElem? hq) j hj).1

theorem Inv.addCaller (hq : q.checked = false)
    (hjobs : ∀ j ∈ q.jobs, 1 ≤ j.attempt ∧ (j.event.number = none ∨ 2 ≤ j.attempt)) :
    Inv { s with callers := s.callers ++ [q] } := by
  have hold : ∀ {i : Option Nat} {q' : Sender E W}, s.sender? i = some q' →
      State.sender? { s with callers := s.callers ++ [q] } i = some q' := by
    intro i q' hi
    cases i with
    | none => exact hi
    | some n =>
      have hlt := (List.getElem?_eq_some_iff.mp hi).1
      exact (getElem?_append_left hlt).trans hi
  refine { hinv with caller_jobs := ?_, checked := ?_, passed := ?_ }
  · intro q' hq'
    rcases mem_append.mp hq' with hq' | hq'
    · exact hinv.caller_jobs q' hq'
    · rw [mem_singleton.mp hq']
      exact hjobs
  · intro i j jobs hi
    cases i with
    | none => exact hinv.checked none j jobs hi
    | some n => exact hinv.checked (some n) j jobs (not_checked_of_append hq hi)
  · intro j hj
    obtain ⟨hattempt, ⟨i, jobs, hi⟩ | hrest⟩ := hinv.passed j hj
    · exact ⟨hattempt, .inl ⟨i, jobs, hold hi⟩⟩
    · exact ⟨hattempt, .inr hrest⟩

theorem Inv.setSender {i : Option Nat} {q q' : Sender E W} {passed overflowed : List (Job E W)}
    {queue : Chan (Job E W)} (hq : s.sender? i = some q) (hne : q.jobs ≠ [])
    (hjobs : ∀ j ∈ q'.jobs, j ∈ q.jobs)
    (hqueue : queue.closed = s.queue.closed)
    (hchecked : ∀ j jobs, q' = ⟨j :: jobs, true⟩ → j ∈ passed)
    (hgrows : ∀ j ∈ s.passed, j ∈ passed)
    (hsent : ∀ j ∈ queue.buffer, j ∈ passed)
    (hexited : .exited ∈ s.workers → queue.buffer = [])
    (hpassed : ∀ j ∈ passed, 1 ≤ j.attempt ∧
      State.Located (State.setSender
        { s with passed := passed, overflowed := overflowed, queue := queue } q' i) j) :
    Inv (State.setSender
      { s with passed := passed, overflowed := overflowed, queue := queue } q' i) := by
  have hchecked' : ∀ i' j jobs, State.sender? (State.setSender
      { s with passed := passed, overflowed := overflowed, queue := queue } q' i) i' =
        some ⟨j :: jobs, true⟩ → j ∈ passed := by
    intro i' j jobs hi'
    rcases sender?_setSender hi' with ⟨-, hq'⟩ | hold
    · exact hchecked j jobs hq'.symm
    · exact hgrows j (hinv.checked i' j jobs hold)
  have htaken : ∀ j, j ∈ queue.buffer ∨ j ∈ s.received → j ∈ passed := by
    rintro j (hj | hj)
    · exact hsent j hj
    · exact hgrows j (hinv.taken j (.inr hj))
  have hexited' : .exited ∈ s.workers → queue.closed = true ∧ queue.buffer = [] :=
    fun hw => ⟨hqueue.trans (hinv.exited hw).1, hexited hw⟩
  cases i with
  | none =>
    cases hq
    exact { hinv with
      fan_idle := fun hloop => absurd (hinv.fan_idle hloop) hne
      fan_jobs := fun j hj => hinv.fan_jobs j (hjobs j hj)
      exited := hexited'
      checked := hchecked'
      taken := htaken
      passed := hpassed }
  | some n =>
    have hcaller : ∀ q₁ ∈ s.callers.set n q', ∀ j ∈ q₁.jobs,
        1 ≤ j.attempt ∧ (j.event.number = none ∨ 2 ≤ j.attempt) := by
      intro q₁ hq₁ j hj
      rcases mem_or_eq_of_mem_set hq₁ with hmem | rfl
      · exact hinv.caller_jobs q₁ hmem j hj
      · exact hinv.caller_jobs q (mem_of_getElem? hq) j (hjobs j hj)
    exact { hinv with
      caller_jobs := hcaller
      exited := hexited'
      checked := hchecked'
      taken := htaken
      passed := hpassed }

theorem Inv.check (h : s.act maxAttempts (.check i) = some s') : Inv s' := by
  obtain ⟨q, s₁, q', hq, hread, rfl⟩ := act_check h
  obtain ⟨j, jobs, rfl, hcase⟩ := readFlag_cases hread
  -- A job that has passed is not with this sender.
  have hother : ∀ x jobs', (⟨j :: jobs, false⟩ : Sender E W) ≠ ⟨x :: jobs', true⟩ :=
    fun x jobs' h => Bool.noConfusion (congrArg Sender.checked h)
  rcases hcase with ⟨-, rfl, rfl⟩ | ⟨-, rfl, rfl⟩
  · refine hinv.setSender hq (cons_ne_nil _ _) (fun _ => mem_cons_of_mem j) rfl
      nofun (fun _ => id) (fun x hx => hinv.taken x (.inl hx))
      (fun hw => (hinv.exited hw).2) fun x hx => ?_
    obtain ⟨hattempt, hloc⟩ := hinv.passed x hx
    exact ⟨hattempt, hloc.setSender hq (hother x) (fun _ => id) fun _ => id⟩
  · refine hinv.setSender hq (cons_ne_nil _ _) (fun _ => id) rfl ?_
      (fun x hx => mem_append_left _ hx)
      (fun x hx => mem_append_left _ (hinv.taken x (.inl hx)))
      (fun hw => (hinv.exited hw).2) fun x hx => ?_
    · intro x jobs' h
      cases h
      exact mem_append_right _ mem_cons_self
    · rcases mem_append.mp hx with hx | hx
      · obtain ⟨hattempt, hloc⟩ := hinv.passed x hx
        exact ⟨hattempt, hloc.setSender hq (hother x) (fun _ => id) fun _ => id⟩
      · rw [mem_singleton.mp hx]
        exact ⟨hinv.attempt hq mem_cons_self,
          .inl ⟨i, jobs, sender?_setSender_self (s := { s with passed := s.passed ++ [j] }) hq _⟩⟩

theorem Inv.send (h : s.act maxAttempts (.send i) = some s') (hpanic : s'.panicked = none) :
    Inv s' := by
  obtain ⟨q, s₁, q', hq, hsend, rfl⟩ := act_send h
  obtain ⟨j, jobs, rfl, rfl, hcase⟩ := sendJob_cases hsend
  have hj := hinv.checked i j jobs hq
  rcases hcase with ⟨-, rfl⟩ | ⟨hopen, rfl⟩ | ⟨-, rfl⟩
  · cases i <;> cases hpanic
  · refine hinv.setSender hq (cons_ne_nil _ _) (fun _ => mem_cons_of_mem j) rfl
      nofun (fun _ => id) (fun x hx => ?_) (fun hw => ?_) fun x hx => ?_
    · rcases mem_append.mp hx with hx | hx
      · exact hinv.taken x (.inl hx)
      · rw [mem_singleton.mp hx]
        exact hj
    · rw [(hinv.exited hw).1] at hopen
      cases hopen
    · obtain ⟨hattempt, hloc⟩ := hinv.passed x hx
      refine ⟨hattempt, ?_⟩
      by_cases hxj : x = j
      · subst hxj
        refine .inr (.inr (.inl ?_))
        cases i <;> exact mem_append_right _ mem_cons_self
      · refine hloc.setSender hq (fun jobs' h => ?_) (fun _ => id) fun _ => mem_append_left _
        cases h
        exact hxj rfl
  · refine hinv.setSender hq (cons_ne_nil _ _) (fun _ => mem_cons_of_mem j) rfl
      nofun (fun _ => id) (fun x hx => hinv.taken x (.inl hx))
      (fun hw => (hinv.exited hw).2) fun x hx => ?_
    obtain ⟨hattempt, hloc⟩ := hinv.passed x hx
    refine ⟨hattempt, ?_⟩
    by_cases hxj : x = j
    · subst hxj
      refine .inr (.inl ?_)
      cases i <;> exact mem_append_right _ mem_cons_self
    · refine hloc.setSender hq (fun jobs' h => ?_) (fun _ => mem_append_left _) fun _ => id
      cases h
      exact hxj rfl

variable {e : Raised E}

theorem Inv.submitSend {i : Nat} (hi : s.submits[i]? = some e)
    (hpanic : (State.sendEvent { s with submits := s.submits.eraseIdx i } e).panicked = none) :
    Inv (State.sendEvent { s with submits := s.submits.eraseIdx i } e) := by
  have hnumbered : ∀ e', e' ∈ s.submits.eraseIdx i ∨ e' ∈ s.buffered → e'.number ≠ none :=
    fun e' he' => hinv.numbered e' (he'.imp (eraseIdx_sublist _ _).mem id)
  rcases sendEvent_cases { s with submits := s.submits.eraseIdx i } e with
    ⟨-, hs'⟩ | ⟨hopen, hs'⟩ | ⟨-, hs'⟩
  · rw [hs'] at hpanic
    cases hpanic
  · rw [hs']
    refine { hinv with ended := fun hloop => ?_, numbered := ?_, events := ?_ }
    · rw [(hinv.ended hloop).1] at hopen
      cases hopen
    · rintro e' (he' | he')
      · exact hnumbered e' (.inl he')
      · rcases mem_append.mp he' with he' | he'
        · exact hnumbered e' (.inr he')
        · rw [mem_singleton.mp he']
          exact hinv.numbered e (.inl (mem_of_getElem? hi))
    · intro e' he'
      rcases mem_append.mp he' with he' | he'
      · exact (hinv.events e' he').imp (mem_append_left _) id
      · exact .inl (mem_append_right _ he')
  · rw [hs']
    exact { hinv with numbered := hnumbered }

theorem Inv.receiveEvent {rest : List (Raised E)} (hloop : s.loop = .ready) (hfan : s.fan.jobs = [])
    (hbuffer : s.events.buffer = e :: rest) :
    Inv { s with events := { s.events with buffer := rest }, loop := .looking e } := by
  refine { hinv with awaited := fun h => ?_, ended := ?_, fan_idle := fun _ => hfan, events := ?_ }
  · have hended := hinv.awaited h
    rw [hloop] at hended
    cases hended
  · intro h
    cases h
  · intro e' he'
    rcases hinv.events e' he' with h | h | h
    · rw [hbuffer] at h
      rcases mem_cons.mp h with rfl | h
      · exact .inr (.inl rfl)
      · exact .inl h
    · rw [hloop] at h
      cases h
    · exact .inr (.inr h)

theorem Inv.lookup (answer : Option (List W)) (hloop : s.loop = .looking e) :
    Inv { s with
      loop := .ready
      fan := ⟨State.firstJobs e (answer.getD []), false⟩
      looked := s.looked ++ [(e, answer)] } := by
  have hfan : s.fan.jobs = [] := hinv.fan_idle (by rw [hloop]; exact nofun)
  refine { hinv with
    awaited := fun h => ?_, ended := nofun, fan_idle := fun h => absurd rfl h,
    fan_jobs := fun j hj => ?_, events := fun e' he' => ?_, checked := fun i j jobs h => ?_,
    passed := fun j hj => ?_ }
  · have hended := hinv.awaited h
    rw [hloop] at hended
    cases hended
  · obtain ⟨w, -, rfl⟩ := mem_map.mp hj
    exact Nat.le_refl 1
  · rcases hinv.events e' he' with h | h | ⟨answer', h⟩
    · exact .inl h
    · rw [hloop] at h
      cases h
      exact .inr (.inr ⟨answer, mem_append_right _ mem_cons_self⟩)
    · exact .inr (.inr ⟨answer', mem_append_left _ h⟩)
  · cases i with
    | none => exact Bool.noConfusion (congrArg Sender.checked (some.inj h))
    | some n => exact hinv.checked (some n) j jobs h
  · obtain ⟨hattempt, ⟨i, jobs, hi⟩ | hrest⟩ := hinv.passed j hj
    · cases i with
      | none =>
        rw [some.inj hi] at hfan
        cases hfan
      | some n => exact ⟨hattempt, .inl ⟨some n, jobs, hi⟩⟩
    · exact ⟨hattempt, .inr hrest⟩

theorem Inv.setWorker {w : Worker E W} (hbusy : ∀ j, w ≠ .busy j)
    (hexited : w = .exited → s.queue.closed = true ∧ s.queue.buffer = []) :
    Inv { s with workers := s.workers.set k w } := by
  refine { hinv with workers_ne := ?_, exited := fun h => ?_, busy := fun j h => ?_ }
  · simpa using hinv.workers_ne
  · rcases mem_or_eq_of_mem_set h with h | h
    · exact hinv.exited h
    · exact hexited h.symm
  · rcases mem_or_eq_of_mem_set h with h | h
    · exact hinv.busy j h
    · exact absurd h.symm (hbusy j)

theorem Inv.receiveJob {rest : List (Job E W)} (hbuffer : s.queue.buffer = j :: rest) :
    Inv { s with
      queue := { s.queue with buffer := rest }
      workers := s.workers.set k (.busy j)
      received := s.received ++ [j] } := by
  have hj : j ∈ s.passed := hinv.taken j (.inl (by rw [hbuffer]; exact mem_cons_self))
  refine { hinv with
    workers_ne := ?_, exited := fun h => ?_, busy := fun x h => ?_, taken := fun x h => ?_,
    passed := fun x hx => ?_ }
  · simpa using hinv.workers_ne
  · rcases mem_or_eq_of_mem_set h with h | h
    · have hnil := (hinv.exited h).2
      rw [hbuffer] at hnil
      cases hnil
    · cases h
  · rcases mem_or_eq_of_mem_set h with h | h
    · exact mem_append_left _ (hinv.busy x h)
    · cases h
      exact mem_append_right _ mem_cons_self
  · rcases h with h | h
    · exact hinv.taken x (.inl (by rw [hbuffer]; exact mem_cons_of_mem _ h))
    · rcases mem_append.mp h with h | h
      · exact hinv.taken x (.inr h)
      · rwa [mem_singleton.mp h]
  · obtain ⟨hattempt, hsender | hover | hqueue | hreceived⟩ := hinv.passed x hx
    · exact ⟨hattempt, .inl hsender⟩
    · exact ⟨hattempt, .inr (.inl hover)⟩
    · rw [hbuffer] at hqueue
      rcases mem_cons.mp hqueue with rfl | hqueue
      · exact ⟨hattempt, .inr (.inr (.inr (mem_append_right _ mem_cons_self)))⟩
      · exact ⟨hattempt, .inr (.inr (.inl hqueue))⟩
    · exact ⟨hattempt, .inr (.inr (.inr (mem_append_left _ hreceived)))⟩

theorem Inv.deliver {outcome : Outcome} (h : s.act maxAttempts (.deliver k outcome) = some s') :
    Inv s' := by
  obtain ⟨j, hk, hcase⟩ := act_deliver h
  have hdone : Inv { s with workers := s.workers.set k .idle } :=
    hinv.setWorker nofun nofun
  rcases hcase with rfl | rfl
  · exact hdone
  · -- A worker only has jobs that passed, whose attempts count from 1.
    have hj := hinv.taken j (.inr (hinv.busy j (mem_of_getElem? hk)))
    have hattempt := (hinv.passed j hj).1
    refine hdone.addCaller rfl fun x hx => ?_
    rw [mem_singleton.mp hx]
    exact ⟨Nat.le_add_left 1 _, .inr (Nat.succ_le_succ hattempt)⟩

/-- **What a step keeps**, unless it is a panic. -/
theorem Inv.step (h : s.act maxAttempts a = some s') (hpanic : s'.panicked = none) : Inv s' := by
  have hact := h
  revert h
  fun_cases s.act maxAttempts a <;> intro h
  any_goals cases h
  any_goals exact hinv
  any_goals exact hinv.deliver hact
  case case2 =>
    refine { hinv with numbered := ?_ }
    rintro e' (he' | he')
    · rcases mem_append.mp he' with he' | he'
      · exact hinv.numbered e' (.inl he')
      · rw [mem_singleton.mp he']
        exact some_ne_none _
    · exact hinv.numbered e' (.inr he')
  case case3 =>
    obtain ⟨e, he, rfl⟩ := map_eq_some_iff.mp h
    exact hinv.submitSend he hpanic
  case case5 =>
    refine hinv.addCaller rfl fun j hj => ?_
    obtain ⟨w, -, rfl⟩ := mem_map.mp hj
    exact ⟨Nat.le_refl 1, .inl rfl⟩
  case case6 => exact hinv.check hact
  case case7 => exact hinv.send hact hpanic
  case case8 hbuffer hfan hloop => exact hinv.receiveEvent hloop hfan hbuffer
  case case10 hloop => exact hinv.lookup _ hloop
  case case12 hevents hfan hloop =>
    refine { hinv with
      awaited := fun _ => rfl, ended := ?_, fan_idle := fun _ => hfan, events := ?_ }
    · rw [hevents]
      exact fun _ => ⟨rfl, rfl⟩
    · intro e he
      rcases hinv.events e he with hb | hl | hl
      · exact .inl hb
      · rw [hloop] at hl
        cases hl
      · exact .inr (.inr hl)
  case case14 hbuffer _ => exact hinv.receiveJob hbuffer
  case case19 hqueue _ =>
    exact hinv.setWorker nofun fun _ => by rw [hqueue]; exact ⟨rfl, rfl⟩
  case case21 => exact { hinv with stopped := fun _ => rfl, awaited := by simp }
  case case23 hstop =>
    exact { hinv with
      stopped := fun _ => hinv.stopped (by rw [hstop]; decide)
      awaited := by simp
      ended := fun hloop => ⟨rfl, (hinv.ended hloop).2⟩ }
  case case25 hloop hstop =>
    exact { hinv with
      stopped := fun _ => hinv.stopped (by rw [hstop]; decide)
      awaited := fun _ => hloop }
  case case27 hstop =>
    exact { hinv with
      stopped := fun _ => hinv.stopped (by rw [hstop]; decide)
      awaited := fun _ => hinv.awaited (.inl hstop)
      exited := fun hw => ⟨rfl, (hinv.exited hw).2⟩ }
  case case29 hstop =>
    exact { hinv with
      stopped := fun _ => hinv.stopped (by rw [hstop.1]; decide)
      awaited := fun _ => hinv.awaited (.inr (.inl hstop.1)) }

end inv

theorem Inv.of_run {cfg : DispatcherConfig} {es : List (Event (State E W) (Action E W))}
    (hrun : Run (Webhook.step maxAttempts) (newDispatcher cfg) es s)
    (hpanicked : s.panicked = none) : Inv s := by
  have hkeeps : ∀ {s : State E W} {a s'}, (s.panicked = none → Inv s) → True →
      Webhook.step maxAttempts s a = some s' → s'.panicked = none → Inv s' := by
    intro s a s' hinv _ hstep hpanic
    obtain ⟨hs, hact⟩ := step_eq_some hstep
    exact (hinv hs).step hact hpanic
  exact (hrun.keeps hkeeps (fun _ => inv_newDispatcher cfg) fun _ _ => trivial).1 hpanicked

end Kseal.Webhook
