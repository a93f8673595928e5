import Kseal.Server.Webhook

/-!
# Stopping the webhook dispatcher (`data-plane/webhook/dispatcher.go`)

Those who have read the flag before `Stop` sets it go on to send, and the events still in the
channel are looked up when it is already set (`closed_never_sent_iff`, `received_iff`).
-/

namespace Kseal.Webhook

open Infra List Option

variable {E W : Type} {maxAttempts : Nat} {s s' : State E W} {a : Action E W}

/-! ## Sends on a closed channel -/

def State.Pending (s : State E W) : Channel → Prop
  | .events => s.submits ≠ []
  | .queue => ∃ i j jobs, s.sender? i = some ⟨j :: jobs, true⟩

def Channel.close : Channel → Action E W
  | .events => .closeEvents
  | .queue => .closeQueue

structure Quiet (ch : Channel) (s : State E W) : Prop where
  stopped : s.stopped = true
  pending : ¬ s.Pending ch
  panicked : s.panicked ≠ some ch

variable {ch : Channel}

theorem Quiet.of_step {ch : Channel} (h : Quiet ch s) (hstopped : s'.stopped = true)
    (hsubmits : s.submits = [] → s'.submits = [])
    (hsender : ∀ i j jobs, s'.sender? i = some ⟨j :: jobs, true⟩ →
      s.sender? i = some ⟨j :: jobs, true⟩)
    (hpanicked : s'.panicked = s.panicked) : Quiet ch s' := by
  refine ⟨hstopped, ?_, by rw [hpanicked]; exact h.panicked⟩
  have hpending := h.pending
  cases ch with
  | events =>
    simp only [State.Pending, not_not] at hpending ⊢
    exact hsubmits hpending
  | queue =>
    rintro ⟨i, j, jobs, hi⟩
    exact hpending ⟨i, j, jobs, hsender i j jobs hi⟩

variable {e : Raised E}

theorem Quiet.submitSend {i : Nat} (h : Quiet ch s) (hi : s.submits[i]? = some e) :
    Quiet ch (State.sendEvent { s with submits := s.submits.eraseIdx i } e) := by
  cases ch with
  | events =>
    have hnil : s.submits = [] := by simpa [State.Pending] using h.pending
    rw [hnil] at hi
    cases hi
  | queue =>
    rcases sendEvent_cases { s with submits := s.submits.eraseIdx i } e with
      ⟨-, hs'⟩ | ⟨-, hs'⟩ | ⟨-, hs'⟩
    all_goals
      rw [hs']
      exact ⟨h.stopped, h.pending, by first | exact h.panicked | exact nofun⟩

variable {i : Option Nat}

theorem Quiet.check (h : Quiet ch s) (hact : s.act maxAttempts (.check i) = some s') :
    Quiet ch s' := by
  obtain ⟨q, s₁, q', -, hread, rfl⟩ := act_check hact
  obtain ⟨j, jobs, -, ⟨-, rfl, rfl⟩ | ⟨hnot, -⟩⟩ := readFlag_cases hread
  · refine h.of_step (by cases i <;> exact h.stopped) (by cases i <;> exact id) ?_
      (by cases i <;> rfl)
    intro i' j' jobs' hi'
    rcases sender?_setSender hi' with ⟨-, hq⟩ | hold
    · cases hq
    · exact hold
  · rw [h.stopped] at hnot
    cases hnot

theorem Quiet.send (h : Quiet ch s) (hact : s.act maxAttempts (.send i) = some s') :
    Quiet ch s' := by
  obtain ⟨q, s₁, q', hq, hsend, rfl⟩ := act_send hact
  obtain ⟨j, jobs, rfl, rfl, hcase⟩ := sendJob_cases hsend
  cases ch with
  | queue => exact absurd ⟨i, j, jobs, hq⟩ h.pending
  | events =>
    have hpending : s.submits = [] := by simpa [State.Pending] using h.pending
    have hfields : s₁.stopped = s.stopped ∧ s₁.submits = s.submits ∧
        s₁.panicked ≠ some .events := by
      rcases hcase with ⟨-, rfl⟩ | ⟨-, rfl⟩ | ⟨-, rfl⟩
      · exact ⟨rfl, rfl, nofun⟩
      · exact ⟨rfl, rfl, h.panicked⟩
      · exact ⟨rfl, rfl, h.panicked⟩
    obtain ⟨hstopped, hsubmits, hpanicked⟩ := hfields
    constructor
    · cases i <;> exact hstopped.trans h.stopped
    · have hnil : (s₁.setSender ⟨jobs, false⟩ i).submits = [] := by
        cases i <;> exact hsubmits.trans hpending
      simp [State.Pending, hnil]
    · cases i <;> exact hpanicked

/-- **Once it is quiet, it stays so.** -/
theorem Quiet.step (h : Quiet ch s) (hstep : step maxAttempts s a = some s') :
    Quiet ch s' := by
  obtain ⟨-, hact⟩ := step_eq_some hstep
  have hsame : ∀ i j jobs, s.sender? i = some (⟨j :: jobs, true⟩ : Sender E W) →
      s.sender? i = some ⟨j :: jobs, true⟩ := fun _ _ _ => id
  cases a with
  | check i => exact h.check hact
  | send i => exact h.send hact
  | submitSend i =>
    obtain ⟨e, he, rfl⟩ := map_eq_some_iff.mp hact
    exact h.submitSend he
  | submit e =>
    rw [State.act, if_pos h.stopped] at hact
    cases hact
    exact h
  | dispatch e answer =>
    cases answer with
    | none =>
      cases hact
      exact h
    | some targets =>
      cases hact
      refine h.of_step h.stopped id (fun i j jobs hi => ?_) rfl
      cases i with
      | none => exact hi
      | some n => exact not_checked_of_append rfl hi
  | deliver k outcome =>
    obtain ⟨j, -, rfl | rfl⟩ := act_deliver hact
    · exact h.of_step h.stopped id hsame rfl
    · refine h.of_step h.stopped id (fun i j jobs hi => ?_) rfl
      cases i with
      | none => exact hi
      | some n => exact not_checked_of_append rfl hi
  | lookup answer =>
    rw [State.act] at hact
    split at hact
    · cases hact
      refine h.of_step h.stopped id (fun i j jobs hi => ?_) rfl
      cases i with
      | none => exact Bool.noConfusion (congrArg Sender.checked (some.inj hi))
      | some n => exact hi
    · cases hact
  | receiveEvent | endLoop | receiveJob k | exitWorker k | setFlag | closeEvents | awaitLoop
  | closeQueue | awaitWorkers =>
    rw [State.act] at hact
    split at hact
    · cases hact
      exact h.of_step (by first | exact h.stopped | rfl) id hsame rfl
    · cases hact

theorem panics_of_pending {ch : Channel} (hpending : s.Pending ch) (hpanicked : s.panicked = none)
    (hevents : ch = .events → s.events.closed = true)
    (hqueue : ch = .queue → s.queue.closed = true) :
    ∃ a t, step maxAttempts s a = some t ∧ t.panicked = some ch := by
  have hrunning : ¬ s.panicked.isSome = true := by simp [hpanicked]
  cases ch with
  | events =>
    obtain ⟨e, rest, hsubmits⟩ := exists_cons_of_ne_nil hpending
    have hi : s.submits[0]? = some e := by rw [hsubmits]; rfl
    refine ⟨.submitSend 0, State.sendEvent { s with submits := s.submits.eraseIdx 0 } e, ?_, ?_⟩
    · rw [step, if_neg hrunning, State.act, hi, map_some]
    · rcases sendEvent_cases { s with submits := s.submits.eraseIdx 0 } e with
        ⟨-, hs'⟩ | ⟨hopen, -⟩ | ⟨hopen, -⟩
      · rw [hs']
      · exact Bool.noConfusion (hopen.symm.trans (hevents rfl))
      · exact Bool.noConfusion (hopen.symm.trans (hevents rfl))
  | queue =>
    obtain ⟨i, j, jobs, hi⟩ := hpending
    have hsend : s.sendJob ⟨j :: jobs, true⟩ =
        some ({ s with panicked := some .queue }, ⟨jobs, false⟩) := by
      rw [State.sendJob, Chan.trySend, if_pos (hqueue rfl)]
    refine ⟨.send i, State.setSender { s with panicked := some .queue } ⟨jobs, false⟩ i, ?_, ?_⟩
    · rw [step, if_neg hrunning, State.act, hi, bind_eq_bind, bind_some, hsend]
      rfl
    · cases i <;> rfl

theorem step_close (h : step maxAttempts s ch.close = some s') :
    s.panicked = none ∧ s.stop ≠ .notCalled ∧ s'.panicked = none ∧ s'.stopped = s.stopped ∧
      (s'.Pending ch ↔ s.Pending ch) ∧ (ch = .events → s'.events.closed = true) ∧
      (ch = .queue → s'.queue.closed = true) := by
  obtain ⟨hpanicked, hact⟩ := step_eq_some h
  cases ch with
  | events =>
    rw [Channel.close, State.act] at hact
    obtain ⟨hstop, ⟨⟩⟩ := guard_some hact
    exact ⟨hpanicked, by rw [hstop]; decide, hpanicked, rfl, Iff.rfl, fun _ => rfl,
      fun hch => by cases hch⟩
  | queue =>
    rw [Channel.close, State.act] at hact
    obtain ⟨hstop, ⟨⟩⟩ := guard_some hact
    exact ⟨hpanicked, by rw [hstop]; decide, hpanicked, rfl, Iff.rfl, (fun hch => by cases hch),
      fun _ => rfl⟩

/--
**When a channel can be closed.** After `Stop` has closed a channel, there is never a send on it if
and only if at that moment nobody has read the flag and goes on to send on it.
-/
theorem closed_never_sent_iff {cfg : DispatcherConfig} {es : List (Event (State E W) (Action E W))}
    (hrun : Run (step cfg.attempts) (newDispatcher cfg) es s) {ch : Channel}
    (hclose : step cfg.attempts s ch.close = some s') :
    (∀ es' t, Run (step cfg.attempts) s' es' t → t.panicked ≠ some ch) ↔ ¬ s.Pending ch := by
  obtain ⟨hs, hstop, hs', hstopped, hpending, hevents, hqueue⟩ := step_close hclose
  constructor
  · intro hnever h
    obtain ⟨a, t, hstep, hpanic⟩ := panics_of_pending (hpending.mpr h) hs' hevents hqueue
    exact hnever _ t (.cons hstep (.nil t)) hpanic
  · intro h es' t hrun'
    have hquiet : Quiet ch s' :=
      ⟨hstopped.trans ((Inv.of_run hrun hs).stopped hstop), fun hp => h (hpending.mp hp),
        by rw [hs']; exact nofun⟩
    have hkeeps : ∀ {s : State E W} {a s'}, Quiet ch s → True →
        step cfg.attempts s a = some s' → Quiet ch s' := fun hq _ hstep => hq.step hstep
    exact (hrun'.keeps hkeeps hquiet fun _ _ => trivial).1.panicked

def sampleConfig : DispatcherConfig := ⟨1, 1, 1⟩

theorem closed_never_sent_iff_sample :
    ∃ es, ∃ s s' : State Nat Nat,
      Run (step sampleConfig.attempts) (newDispatcher sampleConfig) es s ∧
      step sampleConfig.attempts s .closeEvents = some s' ∧ ¬ s.Pending .events ∧
      ∀ es' t, Run (step sampleConfig.attempts) s' es' t → t.panicked ≠ some .events := by
  obtain ⟨es, s, hrun, -, hsubmits, hclose⟩ : ∃ es, ∃ s : State Nat Nat,
      Run (step sampleConfig.attempts) (newDispatcher sampleConfig) es s ∧
      es.map Event.action = [.submit 7, .submitSend 0, .setFlag] ∧ s.submits = [] ∧
      (step sampleConfig.attempts s .closeEvents).isSome = true := exists_run (by decide +kernel)
  obtain ⟨s', hs'⟩ := isSome_iff_exists.mp hclose
  have hpending : ¬ s.Pending .events := fun h => h hsubmits
  have hclosing : step sampleConfig.attempts s (Channel.close .events) = some s' := hs'
  exact ⟨es, s, s', hrun, hs', hpending, (closed_never_sent_iff hrun hclosing).mpr hpending⟩

theorem sends_after_close :
    (∃ es, ∃ t : State Nat Nat, Run (step sampleConfig.attempts) (newDispatcher sampleConfig) es t ∧
      es.map Event.action = [.submit 7, .setFlag, .closeEvents, .submitSend 0] ∧
      t.panicked = some .events) ∧
    ∃ es, ∃ t : State Nat Nat, Run (step sampleConfig.attempts) (newDispatcher sampleConfig) es t ∧
      es.map Event.action = [.dispatch 7 (some [1]), .check (some 0), .setFlag, .closeEvents,
        .endLoop, .awaitLoop, .closeQueue, .send (some 0)] ∧
      t.panicked = some .queue :=
  ⟨exists_run (by decide +kernel), exists_run (by decide +kernel)⟩

/-! ## What is received -/

structure Later (s s' : State E W) : Prop where
  buffered : s.buffered <+: s'.buffered
  stopped : s.stopped = true → s'.stopped = true
  passed : s.stopped = true → s'.passed = s.passed

theorem Later.refl (s : State E W) : Later s s := ⟨prefix_rfl, id, fun _ => rfl⟩

theorem Later.trans {s'' : State E W} (h : Later s s') (h' : Later s' s'') : Later s s'' where
  buffered := h.buffered.trans h'.buffered
  stopped hs := h'.stopped (h.stopped hs)
  passed hs := (h'.passed (h.stopped hs)).trans (h.passed hs)

theorem later_step (h : step maxAttempts s a = some s') : Later s s' := by
  obtain ⟨-, hact⟩ := step_eq_some h
  cases a with
  | check i =>
    obtain ⟨q, s₁, q', -, hread, rfl⟩ := act_check hact
    obtain ⟨j, jobs, -, ⟨-, rfl, rfl⟩ | ⟨hnot, rfl, rfl⟩⟩ := readFlag_cases hread
    · cases i <;> exact ⟨prefix_rfl, id, fun _ => rfl⟩
    · have hstopped : s.stopped ≠ true := by rw [hnot]; decide
      refine ⟨?_, fun hs => absurd hs hstopped, fun hs => absurd hs hstopped⟩
      cases i <;> exact prefix_rfl
  | send i =>
    obtain ⟨q, s₁, q', -, hsend, rfl⟩ := act_send hact
    obtain ⟨j, jobs, -, -, ⟨-, rfl⟩ | ⟨-, rfl⟩ | ⟨-, rfl⟩⟩ := sendJob_cases hsend
    all_goals cases i <;> exact ⟨prefix_rfl, id, fun _ => rfl⟩
  | submitSend i =>
    obtain ⟨e, -, rfl⟩ := map_eq_some_iff.mp hact
    rcases sendEvent_cases { s with submits := s.submits.eraseIdx i } e with
      ⟨-, hs'⟩ | ⟨-, hs'⟩ | ⟨-, hs'⟩
    · rw [hs']
      exact ⟨prefix_rfl, id, fun _ => rfl⟩
    · rw [hs']
      exact ⟨prefix_append _ _, id, fun _ => rfl⟩
    · rw [hs']
      exact ⟨prefix_rfl, id, fun _ => rfl⟩
  | dispatch e answer =>
    cases answer <;> cases hact <;> exact ⟨prefix_rfl, id, fun _ => rfl⟩
  | deliver k outcome =>
    obtain ⟨j, -, rfl | rfl⟩ := act_deliver hact
    all_goals exact ⟨prefix_rfl, id, fun _ => rfl⟩
  | submit e =>
    rw [State.act] at hact
    split at hact
    all_goals
      cases hact
      exact ⟨prefix_rfl, id, fun _ => rfl⟩
  | lookup answer | receiveEvent | endLoop | receiveJob k | exitWorker k | setFlag | closeEvents
  | awaitLoop | closeQueue | awaitWorkers =>
    rw [State.act] at hact
    split at hact
    · cases hact
      exact ⟨prefix_rfl, fun _ => by first | assumption | rfl, fun _ => rfl⟩
    · cases hact

theorem later_run {es : List (Event (State E W) (Action E W))}
    (hrun : Run (step maxAttempts) s es s') : Later s s' :=
  hrun.related Later.refl Later.trans later_step

theorem step_awaitWorkers (hinv : Inv s) (h : step maxAttempts s .awaitWorkers = some s') :
    s.loop = .ended ∧ s.events.buffer = [] ∧ s.fan.jobs = [] ∧ s.queue.buffer = [] := by
  obtain ⟨-, hact⟩ := step_eq_some h
  obtain ⟨hall, hact⟩ := guard_some hact
  have hloop := hinv.awaited (.inr (.inl hall.1))
  obtain ⟨w, rest, hworkers⟩ := exists_cons_of_ne_nil hinv.workers_ne
  have hexited : .exited ∈ s.workers := by
    have hw : w ∈ s.workers := by rw [hworkers]; exact mem_cons_self
    have := hall.2 w hw
    cases w with
    | exited => exact hw
    | idle => cases this
    | busy j => cases this
  exact ⟨hloop, (hinv.ended hloop).2, hinv.fan_idle (by rw [hloop]; exact nofun),
    (hinv.exited hexited).2⟩

theorem Inv.received_or_overflowed (hinv : Inv s) (hfan : s.fan.jobs = [])
    (hbuffer : s.queue.buffer = []) (he : e ∈ s.buffered) {w : W} (hpassed : ⟨e, w, 1⟩ ∈ s.passed) :
    ⟨e, w, 1⟩ ∈ s.overflowed ∨ ⟨e, w, 1⟩ ∈ s.received := by
  obtain ⟨-, ⟨i, jobs, hi⟩ | hover | hqueue | hreceived⟩ := hinv.passed _ hpassed
  · cases i with
    | none =>
      rw [some.inj hi] at hfan
      cases hfan
    | some n =>
      -- A first attempt with one of the others is for an event without a number.
      rcases (hinv.caller_jobs _ (mem_of_getElem? hi) _ mem_cons_self).2 with hnone | htwo
      · exact absurd hnone (hinv.numbered e (.inr he))
      · exact absurd (Nat.le_of_succ_le_succ htwo) (Nat.not_succ_le_zero 0)
  · exact .inl hover
  · rw [hbuffer] at hqueue
    cases hqueue
  · exact .inr hreceived

/--
**What `Stop` drains.** Of an event that `Submit` has put into the channel before `Stop` is called,
the webhooks have been looked up when `Stop` returns. The first attempt for one of them, unless the
queue had no room for it, was received by a worker if and only if the fan-out had read the flag for
it before `Stop` set it.
-/
theorem received_iff {cfg : DispatcherConfig} {es : List (Event (State E W) (Action E W))}
    (hrun : Run (step cfg.attempts) (newDispatcher cfg) es s)
    (hreturn : step cfg.attempts s .awaitWorkers = some s')
    {e₀ : Event (State E W) (Action E W)} (he₀ : e₀ ∈ es) (hflag : e₀.action = .setFlag)
    {e : Raised E} (he : e ∈ e₀.before.buffered) :
    (∃ answer, (e, answer) ∈ s.looked) ∧
      ∀ targets, (e, some targets) ∈ s.looked → ∀ w ∈ targets, ⟨e, w, 1⟩ ∉ s.overflowed →
        (⟨e, w, 1⟩ ∈ s.received ↔ ⟨e, w, 1⟩ ∈ e₀.before.passed) := by
  have hinv := Inv.of_run hrun (step_eq_some hreturn).1
  obtain ⟨hloop, hevents, hfan, hqueue⟩ := step_awaitWorkers hinv hreturn
  obtain ⟨es₁, es₂, -, hset, hafter⟩ := hrun.split he₀
  have hbuffered : e ∈ s.buffered := (later_run (.cons hset hafter)).buffered.subset he
  -- From the flag on, no job passes.
  have hpassed : s.passed = e₀.before.passed := by
    obtain ⟨-, hact⟩ := step_eq_some hset
    rw [hflag] at hact
    obtain ⟨-, hact⟩ := guard_some hact
    have hstate := some.inj hact
    have := (later_run hafter).passed (by rw [← hstate])
    rw [this, ← hstate]
  constructor
  · rcases hinv.events e hbuffered with h | h | h
    · rw [hevents] at h
      cases h
    · rw [hloop] at h
      cases h
    · exact h
  · intro targets _ w _ hroom
    rw [← hpassed]
    constructor
    · exact fun h => hinv.taken _ (.inr h)
    · exact fun h => (hinv.received_or_overflowed hfan hqueue hbuffered h).resolve_left hroom

theorem received_iff_sample :
    ∃ es, ∃ s s' : State Nat Nat, ∃ e₀ : Event (State Nat Nat) (Action Nat Nat),
      Run (step sampleConfig.attempts) (newDispatcher sampleConfig) es s ∧
      step sampleConfig.attempts s .awaitWorkers = some s' ∧ e₀ ∈ es ∧ e₀.action = .setFlag ∧
      ⟨some 0, 7⟩ ∈ e₀.before.buffered ∧ (⟨some 0, 7⟩, some [1]) ∈ s.looked ∧
      ⟨⟨some 0, 7⟩, 1, 1⟩ ∉ s.overflowed ∧ ⟨⟨some 0, 7⟩, 1, 1⟩ ∈ e₀.before.passed ∧
      ⟨⟨some 0, 7⟩, 1, 1⟩ ∈ s.received := by
  obtain ⟨es, s, e₀, hrun, he₀, hflag, he, hp, hl, ho, hreturn⟩ :=
    exists_run_at (step sampleConfig.attempts) (newDispatcher sampleConfig : State Nat Nat)
      [.submit 7, .submitSend 0, .receiveEvent, .lookup (some [1]), .check none] .setFlag
      [.send none, .closeEvents, .endLoop, .awaitLoop, .closeQueue, .receiveJob 0,
        .deliver 0 .success, .exitWorker 0]
      (fun s₀ s => ⟨some 0, 7⟩ ∈ s₀.buffered ∧ ⟨⟨some 0, 7⟩, 1, 1⟩ ∈ s₀.passed ∧
        (⟨some 0, 7⟩, some [1]) ∈ s.looked ∧ ⟨⟨some 0, 7⟩, 1, 1⟩ ∉ s.overflowed ∧
        (step sampleConfig.attempts s .awaitWorkers).isSome) (by decide +kernel)
  obtain ⟨s', hs'⟩ := isSome_iff_exists.mp hreturn
  exact ⟨es, s, s', e₀, hrun, hs', he₀, hflag, he, hl, ho, hp,
    ((received_iff hrun hs' he₀ hflag he).2 [1] hl 1 mem_cons_self ho).mpr hp⟩

theorem buffered_event_dropped :
    ∃ es, ∃ s s' : State Nat Nat, ∃ e₀ : Event (State Nat Nat) (Action Nat Nat),
      Run (step sampleConfig.attempts) (newDispatcher sampleConfig) es s ∧
      step sampleConfig.attempts s .awaitWorkers = some s' ∧ e₀ ∈ es ∧ e₀.action = .setFlag ∧
      ⟨some 0, 7⟩ ∈ e₀.before.buffered ∧ (⟨some 0, 7⟩, some [1]) ∈ s.looked ∧
      s.overflowed = [] ∧ s.received = [] := by
  obtain ⟨es, s, e₀, hrun, he₀, hflag, hreturn, hlost⟩ :=
    exists_run_at (step sampleConfig.attempts) (newDispatcher sampleConfig : State Nat Nat)
      [.submit 7, .submitSend 0] .setFlag
      [.closeEvents, .receiveEvent, .lookup (some [1]), .check none, .endLoop, .awaitLoop,
        .closeQueue, .exitWorker 0]
      (fun s₀ s => (step sampleConfig.attempts s .awaitWorkers).isSome ∧
        ⟨some 0, 7⟩ ∈ s₀.buffered ∧ (⟨some 0, 7⟩, some [1]) ∈ s.looked ∧ s.overflowed = [] ∧
        s.received = []) (by decide +kernel)
  obtain ⟨s', hs'⟩ := isSome_iff_exists.mp hreturn
  exact ⟨es, s, s', e₀, hrun, hs', he₀, hflag, hlost⟩

end Kseal.Webhook
