import Kseal.Server.AuditStore

/-!
# The scopes of the kill switches (`control-plane/compliance/killswitch.go`, `mem.go`)

* `killSwitches_resolved_and_numbered` — the switch in effect does not depend on the order of the
  list, and over any run of the store the switches of a scope are numbered 1, 2, 3, …
-/

namespace Kseal.Compliance

open Infra Wire Audit List

/-! ## The switch in effect -/

def DistinctScopes (switches : List SignedKillSwitch) : Prop :=
  (switches.map fun ks => (ks.appId, ks.buildHash)).Nodup

theorem DistinctScopes.eq {switches : List SignedKillSwitch} (h : DistinctScopes switches)
    {ks ks' : SignedKillSwitch} (hks : ks ∈ switches) (hks' : ks' ∈ switches)
    (happ : ks.appId = ks'.appId) (hbuild : ks.buildHash = ks'.buildHash) : ks = ks' :=
  inj_on_of_nodup_map h hks hks' (Prod.ext happ hbuild)

/-! ## The versions of a scope -/

def StoreOp.NulFree : StoreOp → Prop
  | .issueKillSwitch input _ _ _ _ => '\x00' ∉ input.tenantID.toList ∧ '\x00' ∉ input.appID.toList
  | _ => True

variable {t a b : String}

theorem scopeKey_injective {t' a' b' : String} (ht : '\x00' ∉ t.toList) (ha : '\x00' ∉ a.toList)
    (ht' : '\x00' ∉ t'.toList) (ha' : '\x00' ∉ a'.toList) (h : scopeKey t a b = scopeKey t' a' b') :
    t = t' ∧ a = a' ∧ b = b' := by
  replace h := congrArg String.toList h
  rw [toList_scopeKey, toList_scopeKey] at h
  obtain ⟨htenant, h⟩ := append_sep_inj ht ht' h
  obtain ⟨happ, hbuild⟩ := append_sep_inj ha ha' h
  exact ⟨String.toList_injective htenant, String.toList_injective happ,
    String.toList_injective hbuild⟩

section run

variable (sha256 : Bytes → Bytes) (sign : Bytes → Bytes → Bytes) (formatFloat : Float → String)

def issuedBy (s : Audited MemStore) : StoreOp → Option SignedKillSwitch
  | .issueKillSwitch input actorKeyID key now created =>
    (memIssueKillSwitch sha256 sign s input actorKeyID key now created).1.toOption
  | _ => none

def issuedIn : Audited MemStore → List StoreOp → List SignedKillSwitch
  | _, [] => []
  | s, op :: ops =>
    (issuedBy sha256 sign s op).toList ++ issuedIn (memStep sha256 sign formatFloat s op).2 ops

def versionsOf (tenantID appID buildHash : String) (issued : List SignedKillSwitch) : List Int64 :=
  (issued.filter fun ks => ks.tenantId = tenantID ∧ ks.appId = appID ∧ ks.buildHash = buildHash).map
    SignedKillSwitch.version

variable {sha256 sign formatFloat}

/-- What an operation does to the switches: it issues none and leaves them alone, or it stores the
one it issues, numbered after the last of its scope. -/
inductive Files (s s' : Audited MemStore) (op : StoreOp) : Option SignedKillSwitch → Prop where
  | none (h : s'.store.killSw = s.store.killSw) : Files s s' op none
  | issued (ks : SignedKillSwitch)
      (h : s'.store.killSw =
        s.store.killSw.insert (scopeKey ks.tenantId ks.appId ks.buildHash) ks)
      (version : ks.version =
        nextKillVersion (s.store.killSw.lookup (scopeKey ks.tenantId ks.appId ks.buildHash)))
      (nulFree : op.NulFree → '\x00' ∉ ks.tenantId.toList ∧ '\x00' ∉ ks.appId.toList) :
      Files s s' op (some ks)

variable {tenantID : String}

theorem files_memRecord {α : Type} {s : Audited MemStore} {op : StoreOp}
    {changed : Except StoreError (α × MemStore)} {entry : α → Entry} {created : Int64}
    (h : ∀ r, changed = .ok r → r.2.killSw = s.store.killSw) :
    Files s (outcome (memRecord sha256 s tenantID changed entry created)).2 op none := by
  cases changed with
  | error e => exact .none rfl
  | ok r =>
    refine .none ?_
    rw [memRecord, memAppend]
    cases Audit.appendLocked sha256 tenantID (Audited.chain ⟨r.2, s.audit⟩ tenantID) (entry r.1)
      created with
    | error message => exact h r rfl
    | ok appended => exact h r rfl

variable {s : MemStore} {r : CanaryStatus × MemStore}

theorem killSw_updateCanary {appID : String} {f : CanaryStatus → CanaryStatus}
    (h : s.updateCanary tenantID appID f = .ok r) : r.2.killSw = s.killSw := by
  rw [MemStore.updateCanary] at h
  split at h
  · cases h
  · cases h
    rfl

theorem killSw_setCanary {input : CanaryInput} {now : Int64} (h : s.setCanary input now = .ok r) :
    r.2.killSw = s.killSw := by
  unfold MemStore.setCanary at h
  split_ifs at h
  · cases h
    rfl
  · cases h
    rfl

/-- **What an operation of the store does to the switches.** -/
theorem memStep_files (s : Audited MemStore) (op : StoreOp) :
    Files s (memStep sha256 sign formatFloat s op).2 op (issuedBy sha256 sign s op) := by
  cases op with
  | appendAudit tenantID e created =>
    refine .none ?_
    simp only [memStep, memAppendAudit, memAppend]
    split
    · rfl
    · split <;> rfl
  | issueKillSwitch input actorKeyID key now created =>
    simp only [memStep, issuedBy, memIssueKillSwitch]
    split
    · exact .none rfl
    · split
      · exact .none rfl
      · cases key with
        | error message => exact .none rfl
        | ok sk =>
          dsimp only
          cases hissue : s.store.issueKillSwitch sign sk input now with
          | error e => exact .none rfl
          | ok r =>
            obtain ⟨hstore, hgenuine, happ, -, hversion⟩ := issueKillSwitch_eq_ok hissue
            -- the entry has an action, so that it is never refused
            have hentry : validateEntry (killSwitchEntry input actorKeyID r.1.version) = .ok () :=
              rfl
            simp only [memRecord]
            refine .issued r.1 ?_ hversion ?_
            · rw [hstore]
              rfl
            · rw [hgenuine.tenant, happ]
              exact id
  | setCanary input actorKeyID now created => exact files_memRecord fun _ => killSw_setCanary
  | promoteCanary tenantID appID actorKeyID now created =>
    exact files_memRecord fun _ => killSw_updateCanary
  | rollbackCanary tenantID appID reason actorKeyID obs now created =>
    exact files_memRecord fun _ => killSw_updateCanary

theorem versionsOf_append (t a b : String) (xs ys : List SignedKillSwitch) :
    versionsOf t a b (xs ++ ys) = versionsOf t a b xs ++ versionsOf t a b ys := by
  simp [versionsOf]

/-- **The versions of a scope count up from the next one**, whatever is issued for others. -/
theorem versionsOf_issuedIn (ht : '\x00' ∉ t.toList) (ha : '\x00' ∉ a.toList) (ops : List StoreOp)
    (hops : ∀ op ∈ ops, op.NulFree) (s : Audited MemStore) (n : Nat)
    (hs : nextKillVersion (s.store.killSw.lookup (scopeKey t a b)) = Int64.ofNat n) :
    ∃ k, versionsOf t a b (issuedIn sha256 sign formatFloat s ops) =
      (List.range' n k).map Int64.ofNat := by
  induction ops generalizing s n with
  | nil => exact ⟨0, rfl⟩
  | cons op ops ih =>
    rw [forall_mem_cons] at hops
    rw [issuedIn, versionsOf_append]
    have hfiles : Files s (memStep sha256 sign formatFloat s op).2 op (issuedBy sha256 sign s op) :=
      memStep_files s op
    generalize (memStep sha256 sign formatFloat s op).2 = s' at hfiles ⊢
    generalize issuedBy sha256 sign s op = issued at hfiles ⊢
    cases hfiles with
    | none h => exact ih hops.2 s' n (by rw [h, hs])
    | issued ks h version nulFree =>
      obtain ⟨ht', ha'⟩ := nulFree hops.1
      by_cases hscope : ks.tenantId = t ∧ ks.appId = a ∧ ks.buildHash = b
      · obtain ⟨rfl, rfl, rfl⟩ := hscope
        rw [hs] at version
        have hnext : nextKillVersion (s'.store.killSw.lookup
            (scopeKey ks.tenantId ks.appId ks.buildHash)) = Int64.ofNat (n + 1) := by
          rw [h, AList.lookup_insert, Int64.ofNat_add, ← version]
          rfl
        obtain ⟨k, hk⟩ := ih hops.2 s' (n + 1) hnext
        refine ⟨k + 1, ?_⟩
        rw [hk, List.range'_succ, map_cons, ← version]
        simp [versionsOf]
      · have hkey : scopeKey t a b ≠ scopeKey ks.tenantId ks.appId ks.buildHash := by
          intro heq
          obtain ⟨rfl, rfl, rfl⟩ := scopeKey_injective ht ha ht' ha' heq
          exact hscope ⟨rfl, rfl, rfl⟩
        obtain ⟨k, hk⟩ := ih hops.2 s' n (by rw [h, AList.lookup_insert_ne hkey, hs])
        refine ⟨k, ?_⟩
        rw [hk]
        simp [versionsOf, hscope]

end run

/--
**The switch in effect is well defined, and the switches of a scope are numbered.** Of switches with
distinct scopes, the one that is resolved is the most specific one that matches, in any order of the
list, and no two that match are equally specific. Over any operations on an empty store, the
switches that are issued for a scope have the versions 1, 2, 3, …
-/
theorem killSwitches_resolved_and_numbered (sha256 : Bytes → Bytes)
    (sign : Bytes → Bytes → Bytes) (formatFloat : Float → String) :
    (∀ (switches : List SignedKillSwitch) (q : KillSwitchScope), DistinctScopes switches →
      Chosen q switches (resolveEffective switches q) ∧
      (∀ switches', switches'.Perm switches →
        resolveEffective switches' q = resolveEffective switches q) ∧
      ∀ ks ∈ switches, ∀ ks' ∈ switches,
        KillSwitchScope.matches ⟨ks.appId, ks.buildHash⟩ q = true →
        KillSwitchScope.matches ⟨ks'.appId, ks'.buildHash⟩ q = true →
        KillSwitchScope.specificity ⟨ks.appId, ks.buildHash⟩ =
          KillSwitchScope.specificity ⟨ks'.appId, ks'.buildHash⟩ → ks = ks') ∧
    ∀ (ops : List StoreOp) (tenantID appID buildHash : String), (∀ op ∈ ops, op.NulFree) →
      '\x00' ∉ tenantID.toList → '\x00' ∉ appID.toList →
      ∃ k, versionsOf tenantID appID buildHash (issuedIn sha256 sign formatFloat emptyMem ops) =
        (List.range' 1 k).map Int64.ofNat := by
  constructor
  · intro switches q hone
    refine ⟨chosen_resolveEffective q switches, ?_, ?_⟩
    · intro switches' hperm
      refine (resolveEffective_unique (fun ks _ => hperm.symm.mem_iff) ?_).symm
      intro ks hks ks' hks' happ hbuild
      exact hone.eq hks hks' happ hbuild
    · intro ks hks ks' hks' hmatch hmatch' hrank
      obtain ⟨happ, hbuild⟩ := scope_eq_of_specificity hmatch hmatch' hrank
      exact hone.eq hks hks' happ hbuild
  · intro ops tenantID appID buildHash hops ht ha
    exact versionsOf_issuedIn ht ha ops hops emptyMem 1 rfl

end Kseal.Compliance
