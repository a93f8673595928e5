import Kseal.Server.Audit
import Kseal.Server.CanaryStore
import Kseal.Server.KillSwitch

/-!
# The audit chains of the compliance stores (`control-plane/compliance/mem.go`, `postgres.go`)

The in-memory store changes its maps first and appends to the chain after that; the database does
both in one transaction (`audit_invariant`).
-/

namespace Kseal.Compliance

open Infra Wire Audit List

/-! ## What is recorded (`helpers.go`) -/

def commandName : KillSwitchCommand → String
  | .enable => "enable"
  | .disable => "disable"
  | _ => "unspecified"

def killSwitchResourceID (appID buildHash : String) : String :=
  if appID = "" ∧ buildHash = "" then "tenant"
  else if buildHash = "" then appID
  else appID ++ "/" ++ buildHash

def killSwitchEntry (input : KillSwitchInput) (actorKeyID : String) (version : Int64) : Entry where
  action := "killswitch.issue"
  resourceType := "kill_switch"
  resourceID := killSwitchResourceID input.appID input.buildHash
  actorKeyID := actorKeyID
  metadata := GoMap.writeAll ∅
    ([("command", commandName input.command), ("version", version.toInt.repr)] ++
      (if input.appID ≠ "" then [("app_id", input.appID)] else []) ++
      (if input.buildHash ≠ "" then [("build_hash", input.buildHash)] else []))

def canaryEntry (action appID actorKeyID : String) (md : List (String × String)) : Entry where
  action := action
  resourceType := "canary"
  resourceID := appID
  actorKeyID := actorKeyID
  metadata := GoMap.writeAll ∅ md

def setCanaryEntry (input : CanaryInput) (actorKeyID : String) : Entry :=
  canaryEntry "canary.set" input.appID actorKeyID
    [("candidate", input.candidatePolicyID), ("percent", input.percent.toNat.repr)]

def promoteCanaryEntry (appID actorKeyID : String) (cs : CanaryStatus) : Entry :=
  canaryEntry "canary.promote" appID actorKeyID [("candidate", cs.candidatePolicyId)]

def rollbackCanaryEntry (formatFloat : Float → String) (appID reason actorKeyID : String)
    (obs : CanaryObservation) (cs : CanaryStatus) : Entry :=
  canaryEntry "canary.rollback" appID actorKeyID
    [("reason", reason), ("block_rate", formatFloat obs.blockRate), ("stable", cs.stablePolicyId)]

/-! ## Operations -/

inductive StoreOp where
  | appendAudit (tenantID : String) (e : Entry) (created : Int64)
  | issueKillSwitch (input : KillSwitchInput) (actorKeyID : String)
      (key : Except String Registry.SigningKey) (now created : Int64)
  | setCanary (input : CanaryInput) (actorKeyID : String) (now created : Int64)
  | promoteCanary (tenantID appID actorKeyID : String) (now created : Int64)
  | rollbackCanary (tenantID appID reason actorKeyID : String) (obs : CanaryObservation)
      (now created : Int64)

def StoreOp.tenantID : StoreOp → String
  | .appendAudit tenantID _ _ => tenantID
  | .issueKillSwitch input _ _ _ _ => input.tenantID
  | .setCanary input _ _ _ => input.tenantID
  | .promoteCanary tenantID _ _ _ _ => tenantID
  | .rollbackCanary tenantID _ _ _ _ _ _ => tenantID

inductive OpError where
  | store (e : StoreError)
  /-- The audit entry is invalid. -/
  | entry (message : String)
  | keys (message : String)
  | database (message : String)
deriving DecidableEq

def outcome {α σ : Type} (r : Except OpError α × σ) : Option OpError × σ :=
  match r with
  | (.error e, s) => (some e, s)
  | (.ok _, s) => (none, s)

structure Audited (σ : Type) where
  store : σ
  audit : GoMap String (List AuditEvent)

def Audited.chain {σ : Type} (s : Audited σ) (tenantID : String) : List AuditEvent :=
  (s.audit.lookup tenantID).getD []

theorem Audited.chain_insert {σ : Type} (s : Audited σ) (store : σ) (tenantID t : String)
    (chain : List AuditEvent) :
    (Audited.mk store (s.audit.insert tenantID chain)).chain t =
      if t = tenantID then chain else s.chain t := by
  show ((s.audit.insert tenantID chain).lookup t).getD [] = _
  rw [GoMap.lookup_insert_eq]
  split <;> rfl

/-! ## What an operation does to the chains -/

/-- An operation that fails leaves the chains alone; one that succeeds appends one event to the
chain of its tenant. -/
structure StepSpec {σ : Type} (sha256 : Bytes → Bytes) (tenantID : String) (s : Audited σ)
    (r : Option OpError × Audited σ) : Prop where
  others : ∀ t, t ≠ tenantID → r.2.chain t = s.chain t
  failed : ∀ err, r.1 = some err → r.2.chain tenantID = s.chain tenantID
  recorded : r.1 = none → ∃ e created ev,
    Audit.appendLocked sha256 tenantID (s.chain tenantID) e created = .ok (ev, r.2.chain tenantID)

def Intact {σ : Type} (sha256 : Bytes → Bytes) (s : Audited σ) : Prop :=
  ∀ t, Linked sha256 t "" 1 (s.chain t)

namespace StepSpec

variable {σ : Type} {sha256 : Bytes → Bytes} {tenantID : String} {s : Audited σ}
  {r : Option OpError × Audited σ}

theorem refused (err : OpError) : StepSpec sha256 tenantID s (some err, s) where
  others := fun _ _ => rfl
  failed := fun _ _ => rfl
  recorded := nofun

theorem appended {store : σ} {e : Entry} {created : Int64} {ev : AuditEvent}
    {chain : List AuditEvent}
    (h : Audit.appendLocked sha256 tenantID (s.chain tenantID) e created = .ok (ev, chain)) :
    StepSpec sha256 tenantID s (none, ⟨store, s.audit.insert tenantID chain⟩) where
  others := fun t ht => by rw [Audited.chain_insert, if_neg ht]
  failed := nofun
  recorded := fun _ => ⟨e, created, ev, by rw [Audited.chain_insert, if_pos rfl]; exact h⟩

/-- **The chains stay intact.** -/
theorem intact (h : StepSpec sha256 tenantID s r) (hs : Intact sha256 s) : Intact sha256 r.2 := by
  intro t
  by_cases ht : t = tenantID
  · subst ht
    cases hr : r.1 with
    | some err =>
      rw [h.failed err hr]
      exact hs t
    | none =>
      obtain ⟨e, created, ev, happend⟩ := h.recorded hr
      exact linked_appendLocked happend (hs t)
  · rw [h.others t ht]
    exact hs t

theorem adds (h : StepSpec sha256 tenantID s r) (hr : r.1 = none) :
    ∃ ev, r.2.chain tenantID = s.chain tenantID ++ [ev] := by
  obtain ⟨e, created, ev, happend⟩ := h.recorded hr
  obtain ⟨-, -, happend⟩ := bind_eq_ok happend
  exact ⟨_, (Prod.mk.inj (Except.ok.inj happend)).2.symm⟩

/-- **A chain grows at its end, by one event at most.** -/
theorem grows (h : StepSpec sha256 tenantID s r) (t : String) :
    ∃ events, r.2.chain t = s.chain t ++ events ∧ events.length ≤ 1 := by
  by_cases ht : t = tenantID
  · subst ht
    cases hr : r.1 with
    | some err => exact ⟨[], by rw [h.failed err hr, append_nil], Nat.zero_le _⟩
    | none =>
      obtain ⟨ev, hev⟩ := h.adds hr
      exact ⟨[ev], hev, le_refl _⟩
  · exact ⟨[], by rw [h.others t ht, append_nil], Nat.zero_le _⟩

end StepSpec

section stores

variable (sha256 : Bytes → Bytes) (sign : Bytes → Bytes → Bytes) (formatFloat : Float → String)

/-! ## The in-memory store -/

def memAppend (s : Audited MemStore) (tenantID : String) (e : Entry) (created : Int64) :
    Except OpError AuditEvent × Audited MemStore :=
  match Audit.appendLocked sha256 tenantID (s.chain tenantID) e created with
  | .error message => (.error (.entry message), s)
  | .ok (ev, chain) => (.ok ev, { s with audit := s.audit.insert tenantID chain })

def memRecord {α : Type} (s : Audited MemStore) (tenantID : String)
    (changed : Except StoreError (α × MemStore)) (entry : α → Entry) (created : Int64) :
    Except OpError α × Audited MemStore :=
  match changed with
  | .error e => (.error (.store e), s)
  | .ok (a, store) =>
    match memAppend sha256 { s with store := store } tenantID (entry a) created with
    | (.error e, s) => (.error e, s)
    | (.ok _, s) => (.ok a, s)

def memAppendAudit (s : Audited MemStore) (tenantID : String) (e : Entry) (created : Int64) :
    Except OpError AuditEvent × Audited MemStore :=
  if tenantID = "" then (.error (.store (.invalidInput "tenant_id required")), s)
  else memAppend sha256 s tenantID e created

def memIssueKillSwitch (s : Audited MemStore) (input : KillSwitchInput) (actorKeyID : String)
    (key : Except String Registry.SigningKey) (now created : Int64) :
    Except OpError SignedKillSwitch × Audited MemStore :=
  if input.tenantID = "" then (.error (.store (.invalidInput "tenant_id required")), s)
  else if input.command = .unspecified then
    (.error (.store (.invalidInput "command required")), s)
  else
    match key with
    | .error message => (.error (.keys message), s)
    | .ok sk =>
      memRecord sha256 s input.tenantID (s.store.issueKillSwitch sign sk input now)
        (fun ks => killSwitchEntry input actorKeyID ks.version) created

def memStep (s : Audited MemStore) : StoreOp → Option OpError × Audited MemStore
  | .appendAudit tenantID e created => outcome (memAppendAudit sha256 s tenantID e created)
  | .issueKillSwitch input actorKeyID key now created =>
    outcome (memIssueKillSwitch sha256 sign s input actorKeyID key now created)
  | .setCanary input actorKeyID now created =>
    outcome (memRecord sha256 s input.tenantID (s.store.setCanary input now)
      (fun _ => setCanaryEntry input actorKeyID) created)
  | .promoteCanary tenantID appID actorKeyID now created =>
    outcome (memRecord sha256 s tenantID (s.store.promoteCanary tenantID appID now)
      (promoteCanaryEntry appID actorKeyID) created)
  | .rollbackCanary tenantID appID reason actorKeyID obs now created =>
    outcome (memRecord sha256 s tenantID (s.store.rollbackCanary tenantID appID reason obs now)
      (rollbackCanaryEntry formatFloat appID reason actorKeyID obs) created)

def emptyMem : Audited MemStore := ⟨⟨∅, ∅⟩, ∅⟩

/-! ## The database -/

structure PgRows where
  rollouts : PostgresStore
  killSwitches : GoMap (String × String × String) SignedKillSwitch

/-- `appendAuditTx`, on the rows of a tenant in the order of `seq`; the new row has the greatest
number and comes last. -/
def appendAuditTx (tenantID : String) (rows : List AuditEvent) (e : Entry) (created : Int64) :
    Except String (AuditEvent × List AuditEvent) := do
  validateEntry e
  let prevSeq := (rows.getLast?.map AuditEvent.seq).getD 0
  let prevHash := (rows.getLast?.map AuditEvent.hash).getD ""
  let seq := prevSeq + 1
  let ev : AuditEvent :=
    { tenantId := tenantID
      seq := seq
      action := e.action
      resourceType := e.resourceType
      resourceId := e.resourceID
      actorKeyId := e.actorKeyID
      metadata := e.metadata
      prevHash := prevHash
      hash := hashAuditEvent sha256 tenantID seq e created prevHash
      createdAt := created }
  pure (ev, rows ++ [ev])

/-- A transaction that changes rows and records the change. All of it is rolled back on an error;
`fault` is the one of the database, if there is one. -/
def pgRecord {α : Type} (s : Audited PgRows) (tenantID : String)
    (changed : Except StoreError (α × PgRows)) (entry : α → Entry) (created : Int64)
    (fault : Option String) : Except OpError α × Audited PgRows :=
  match changed with
  | .error e => (.error (.store e), s)
  | .ok (a, rows) =>
    match appendAuditTx sha256 tenantID (s.chain tenantID) (entry a) created with
    | .error message => (.error (.entry message), s)
    | .ok (_, chain) =>
      match fault with
      | some message => (.error (.database message), s)
      | none => (.ok a, ⟨rows, s.audit.insert tenantID chain⟩)

def pgAppendAudit (s : Audited PgRows) (tenantID : String) (e : Entry) (created : Int64)
    (fault : Option String) : Except OpError Unit × Audited PgRows :=
  if tenantID = "" then (.error (.store (.invalidInput "tenant_id required")), s)
  else pgRecord sha256 s tenantID (.ok ((), s.store)) (fun _ => e) created fault

def PgRows.issueKillSwitch (rows : PgRows) (sk : Registry.SigningKey) (input : KillSwitchInput)
    (now : Int64) : SignedKillSwitch × PgRows :=
  let key := (input.tenantID, input.appID, input.buildHash)
  let ks := signKillSwitch sign sk.privateKey
    { tenantId := input.tenantID
      appId := input.appID
      buildHash := input.buildHash
      command := input.command
      version := ((rows.killSwitches.lookup key).map SignedKillSwitch.version).getD 0 + 1
      issuedAt := now
      reason := input.reason
      signature := []
      keyId := sk.id }
  (ks, { rows with killSwitches := rows.killSwitches.insert key ks })

def pgIssueKillSwitch (s : Audited PgRows) (input : KillSwitchInput) (actorKeyID : String)
    (key : Except String Registry.SigningKey) (now created : Int64) (fault : Option String) :
    Except OpError SignedKillSwitch × Audited PgRows :=
  if input.tenantID = "" then (.error (.store (.invalidInput "tenant_id required")), s)
  else if input.command = .unspecified then
    (.error (.store (.invalidInput "command required")), s)
  else
    match key with
    | .error message => (.error (.keys message), s)
    | .ok sk =>
      pgRecord sha256 s input.tenantID (.ok (s.store.issueKillSwitch sign sk input now))
        (fun ks => killSwitchEntry input actorKeyID ks.version) created fault

def PgRows.withRollouts (rows : PgRows)
    (changed : Except StoreError (CanaryStatus × PostgresStore)) :
    Except StoreError (CanaryStatus × PgRows) :=
  changed.map fun (cs, rollouts) => (cs, { rows with rollouts := rollouts })

def pgStep (s : Audited PgRows) (op : StoreOp × Option String) :
    Option OpError × Audited PgRows :=
  match op with
  | (.appendAudit tenantID e created, fault) =>
    outcome (pgAppendAudit sha256 s tenantID e created fault)
  | (.issueKillSwitch input actorKeyID key now created, fault) =>
    outcome (pgIssueKillSwitch sha256 sign s input actorKeyID key now created fault)
  | (.setCanary input actorKeyID now created, fault) =>
    outcome (pgRecord sha256 s input.tenantID
      (s.store.withRollouts (s.store.rollouts.setCanary input now))
      (fun _ => setCanaryEntry input actorKeyID) created fault)
  | (.promoteCanary tenantID appID actorKeyID now created, fault) =>
    outcome (pgRecord sha256 s tenantID
      (s.store.withRollouts (s.store.rollouts.promoteCanary tenantID appID now))
      (promoteCanaryEntry appID actorKeyID) created fault)
  | (.rollbackCanary tenantID appID reason actorKeyID obs now created, fault) =>
    outcome (pgRecord sha256 s tenantID
      (s.store.withRollouts (s.store.rollouts.rollbackCanary tenantID appID reason obs now))
      (rollbackCanaryEntry formatFloat appID reason actorKeyID obs) created fault)

def emptyPg : Audited PgRows := ⟨⟨⟨∅⟩, ∅⟩, ∅⟩

/-! ## The operations keep to what is recorded -/

variable {sha256 sign formatFloat}

section mem

variable {s : Audited MemStore}

theorem memAppend_spec (s : Audited MemStore) (store : MemStore) (tenantID : String) (e : Entry)
    (created : Int64) :
    StepSpec sha256 tenantID s
      (outcome (memAppend sha256 { s with store := store } tenantID e created)) := by
  show StepSpec sha256 tenantID s (outcome
    (match Audit.appendLocked sha256 tenantID (s.chain tenantID) e created with
    | .error message => (.error (.entry message), { s with store := store })
    | .ok (ev, chain) => (.ok ev, ⟨store, s.audit.insert tenantID chain⟩)))
  cases happend : Audit.appendLocked sha256 tenantID (s.chain tenantID) e created with
  | error message => exact ⟨fun _ _ => rfl, fun _ _ => rfl, nofun⟩
  | ok r => exact .appended happend

theorem memRecord_spec {α : Type} (tenantID : String)
    (changed : Except StoreError (α × MemStore)) (entry : α → Entry) (created : Int64) :
    StepSpec sha256 tenantID s (outcome (memRecord sha256 s tenantID changed entry created)) := by
  cases changed with
  | error e => exact .refused _
  | ok r =>
    have hspec : StepSpec sha256 tenantID s (outcome
        (memAppend sha256 { s with store := r.2 } tenantID (entry r.1) created)) :=
      memAppend_spec s r.2 tenantID (entry r.1) created
    rw [memRecord]
    generalize memAppend sha256 { s with store := r.2 } tenantID (entry r.1) created = appended
      at hspec ⊢
    obtain ⟨result, s'⟩ := appended
    cases result with
    | error e => exact hspec
    | ok ev => exact hspec

/-- **What an operation of the in-memory store does to the chains.** -/
theorem memStep_spec (s : Audited MemStore) (op : StoreOp) :
    StepSpec sha256 op.tenantID s (memStep sha256 sign formatFloat s op) := by
  cases op with
  | appendAudit tenantID e created =>
    show StepSpec sha256 tenantID s (outcome (memAppendAudit sha256 s tenantID e created))
    unfold memAppendAudit
    split
    · exact .refused _
    · exact memAppend_spec s s.store tenantID e created
  | issueKillSwitch input actorKeyID key now created =>
    show StepSpec sha256 input.tenantID s
      (outcome (memIssueKillSwitch sha256 sign s input actorKeyID key now created))
    fun_cases memIssueKillSwitch sha256 sign s input actorKeyID key now created
    case case4 => exact memRecord_spec _ _ _ _
    all_goals exact .refused _
  | setCanary input actorKeyID now created => exact memRecord_spec _ _ _ _
  | promoteCanary tenantID appID actorKeyID now created => exact memRecord_spec _ _ _ _
  | rollbackCanary tenantID appID reason actorKeyID obs now created =>
    exact memRecord_spec _ _ _ _

end mem

section postgres

variable {s : Audited PgRows}

theorem lastSeq_eq {tenantID : String} {chain : List AuditEvent}
    (h : Linked sha256 tenantID "" 1 chain) :
    (chain.getLast?.map AuditEvent.seq).getD 0 = Int64.ofNat chain.length := by
  rcases eq_nil_or_concat chain with rfl | ⟨init, last, rfl⟩
  · rfl
  · rw [concat_eq_append] at h ⊢
    rw [getLast?_concat, Option.map_some, (linked_concat.mp h).2.seq, length_append,
      Int64.ofNat_add, Int64.add_comm]
    rfl

/-- **The database appends the event that the in-memory store does**, to a chain that is intact. -/
theorem appendAuditTx_eq {tenantID : String} {chain : List AuditEvent}
    (h : Linked sha256 tenantID "" 1 chain) (e : Entry) (created : Int64) :
    appendAuditTx sha256 tenantID chain e created =
      Audit.appendLocked sha256 tenantID chain e created := by
  unfold appendAuditTx Audit.appendLocked
  rw [lastSeq_eq h, Int64.ofNat_add]
  rfl

theorem pgRecord_spec {α : Type} (hs : Intact sha256 s) (tenantID : String)
    (changed : Except StoreError (α × PgRows)) (entry : α → Entry) (created : Int64)
    (fault : Option String) :
    StepSpec sha256 tenantID s
      (outcome (pgRecord sha256 s tenantID changed entry created fault)) := by
  cases changed with
  | error e => exact .refused _
  | ok r =>
    rw [pgRecord]
    rw [appendAuditTx_eq (hs tenantID)]
    cases happend : Audit.appendLocked sha256 tenantID (s.chain tenantID) (entry r.1) created with
    | error message => exact .refused _
    | ok appended =>
      cases fault with
      | some message => exact .refused _
      | none => exact .appended happend

/-- **What an operation of the database does to the chains.** -/
theorem pgStep_spec (hs : Intact sha256 s) (op : StoreOp × Option String) :
    StepSpec sha256 op.1.tenantID s (pgStep sha256 sign formatFloat s op) := by
  obtain ⟨op, fault⟩ := op
  cases op with
  | appendAudit tenantID e created =>
    show StepSpec sha256 tenantID s (outcome (pgAppendAudit sha256 s tenantID e created fault))
    unfold pgAppendAudit
    split
    · exact .refused _
    · exact pgRecord_spec hs _ _ _ _ _
  | issueKillSwitch input actorKeyID key now created =>
    show StepSpec sha256 input.tenantID s
      (outcome (pgIssueKillSwitch sha256 sign s input actorKeyID key now created fault))
    fun_cases pgIssueKillSwitch sha256 sign s input actorKeyID key now created fault
    case case4 => exact pgRecord_spec hs _ _ _ _ _
    all_goals exact .refused _
  | setCanary input actorKeyID now created => exact pgRecord_spec hs _ _ _ _ _
  | promoteCanary tenantID appID actorKeyID now created => exact pgRecord_spec hs _ _ _ _ _
  | rollbackCanary tenantID appID reason actorKeyID obs now created =>
    exact pgRecord_spec hs _ _ _ _ _

end postgres

/-! ## Any operations one after the other -/

def after {σ α : Type} (step : Audited σ → α → Option OpError × Audited σ) (s : Audited σ)
    (ops : List α) : Audited σ :=
  ops.foldl (fun s op => (step s op).2) s

structure ChainsKept {σ α : Type} (sha256 : Bytes → Bytes)
    (step : Audited σ → α → Option OpError × Audited σ) (tenantOf : α → String) (s : Audited σ)
    (op : α) (t : String) : Prop where
  intact : (recompute sha256 t (s.chain t)).intact = true
  count : (recompute sha256 t (s.chain t)).verifiedCount = Int64.ofNat (s.chain t).length
  grows : ∃ events, (step s op).2.chain t = s.chain t ++ events ∧ events.length ≤ 1
  failed : ∀ err, (step s op).1 = some err → (step s op).2.chain t = s.chain t
  adds : (step s op).1 = none →
    ∃ ev, (step s op).2.chain (tenantOf op) = s.chain (tenantOf op) ++ [ev]
  others : t ≠ tenantOf op → (step s op).2.chain t = s.chain t

theorem intact_after {σ α : Type} {step : Audited σ → α → Option OpError × Audited σ}
    {tenantOf : α → String}
    (hstep : ∀ s op, Intact sha256 s → StepSpec sha256 (tenantOf op) s (step s op))
    {s : Audited σ} (hs : Intact sha256 s) (ops : List α) : Intact sha256 (after step s ops) := by
  induction ops generalizing s with
  | nil => exact hs
  | cons op ops ih => exact ih ((hstep s op hs).intact hs)

theorem StepSpec.chainsKept {σ α : Type} {step : Audited σ → α → Option OpError × Audited σ}
    {tenantOf : α → String} {s : Audited σ} {op : α} (hs : Intact sha256 s)
    (h : StepSpec sha256 (tenantOf op) s (step s op)) (t : String) :
    ChainsKept sha256 step tenantOf s op t where
  intact := (recompute_eq _).1.mpr (hs t)
  count := recompute_count (hs t)
  grows := h.grows t
  failed := by
    intro err herr
    by_cases ht : t = tenantOf op
    · rw [ht]
      exact h.failed err herr
    · exact h.others t ht
  adds := h.adds
  others := h.others t

/--
**The audit chains are kept by any operations on either store**, of any tenants and with any keys,
times and faults: every chain is intact and all of its events are counted; an operation adds one
event at most, to the end of the chain of its own tenant: one if it succeeds, and none if it returns
an error.
-/
theorem audit_invariant (sha256 : Bytes → Bytes) (sign : Bytes → Bytes → Bytes)
    (formatFloat : Float → String) :
    (∀ ops op t, ChainsKept sha256 (memStep sha256 sign formatFloat) StoreOp.tenantID
      (after (memStep sha256 sign formatFloat) emptyMem ops) op t) ∧
    ∀ ops op t, ChainsKept sha256 (pgStep sha256 sign formatFloat) (fun op => op.1.tenantID)
      (after (pgStep sha256 sign formatFloat) emptyPg ops) op t := by
  have hmem : ∀ ops, Intact sha256 (after (memStep sha256 sign formatFloat) emptyMem ops) :=
    intact_after (fun s op _ => memStep_spec s op) fun _ => trivial
  have hpg : ∀ ops, Intact sha256 (after (pgStep sha256 sign formatFloat) emptyPg ops) :=
    intact_after (fun s op hs => pgStep_spec hs op) fun _ => trivial
  exact ⟨fun ops op t => (memStep_spec _ op).chainsKept (hmem ops) t,
    fun ops op t => (pgStep_spec (hpg ops) op).chainsKept (hpg ops) t⟩

end stores

end Kseal.Compliance
