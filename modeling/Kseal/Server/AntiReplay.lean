import Kseal.Infra.Gate
import Kseal.Infra.Run
import Kseal.Server.RequestProof

/-!
# Request proofs are not replayed

`ValidateRequestProof` reads the session first and consumes the sequence later; any number of calls
run at once. `MemStore` consumes under its lock, `PostgresStore` in a transaction that locks the row
(`antiReplay`).
-/

namespace Kseal.Trust

open Infra Wire Server Registry Function

def gateOf (sess : TrustSession) : Gate Int :=
  ⟨sess.lastSequence.toInt, decide (sess.status = .active)⟩

/-! ## In memory -/

structure MemState where
  store : MemStore
  checked : List (String × RequestProof)
  history : List (Gate.Entry String Int)

inductive MemAction where
  /-- A call up to the tag, with `GetTrustSession`. -/
  | check (now : Int64) (ctx : Option Principal) (m : RequestProof)
  /-- `ConsumeSequence` of one of the calls that were checked. -/
  | consume (i : Nat)
  | revoke (tenantID tokenID : String)
  /-- The session of a new token. -/
  | create (claims : TrustClaims) (signed : Bytes)

def memStep (env : Env) (s : MemState) : MemAction → Option MemState
  | .check now ctx m =>
    match checkProof env (s.store.getTrustSession · m.trustTokenId) now ctx m with
    | .ok (.inr (tenantID, _)) => some { s with checked := (tenantID, m) :: s.checked }
    | _ => some s
  | .consume i =>
    match s.checked[i]? with
    | none => none
    | some (tenantID, m) =>
      match s.store.consumeSequence tenantID m.trustTokenId m.monotonicSequence with
      | .error _ => some { s with checked := s.checked.eraseIdx i }
      | .ok store =>
        some ⟨store, s.checked.eraseIdx i,
          s.history ++ [.admitted m.trustTokenId m.monotonicSequence.toInt]⟩
  | .revoke tenantID tokenID =>
    match s.store.revokeTrustSession tenantID tokenID with
    | .error _ => some s
    | .ok store => some { s with store := store, history := s.history ++ [.closed tokenID] }
  | .create claims signed =>
    if s.store.sessions.lookup claims.id ≠ none then none
    else
      match s.store.createTrustSession (sessionOf env claims signed) with
      | .error _ => some s
      | .ok store => some { s with store := store }

def memGates (store : MemStore) (tokenID : String) : Option (Gate Int) :=
  (store.sessions.lookup tokenID).map gateOf

theorem memGates_insert (store : MemStore) (tokenID : String)
    (sess : TrustSession) (k : String) :
    memGates { store with sessions := store.sessions.insert tokenID sess } k =
      if k = tokenID then some (gateOf sess) else memGates store k := by
  unfold memGates
  rw [GoMap.lookup_insert_eq]
  split <;> rfl

theorem memStep_kept {env : Env} {s s' : MemState} {a : MemAction}
    (h : Gate.Kept 0 (memGates s.store) s.history) (hstep : memStep env s a = some s') :
    Gate.Kept 0 (memGates s'.store) s'.history := by
  have hgate : ∀ {tokenID : String} {sess : TrustSession},
      s.store.sessions.lookup tokenID = some sess →
        memGates s.store tokenID = some (gateOf sess) := fun hlook => by
    rw [memGates, hlook]
    rfl
  revert hstep
  fun_cases memStep env s a <;> rintro ⟨⟩
  any_goals exact h
  case case5 hconsume =>
    obtain ⟨sess, hlook, -, hactive, hseq, rfl⟩ := consumeSequence_eq_ok hconsume
    exact h.admit (hgate hlook) (decide_eq_true hactive) (Int64.lt_iff_toInt_lt.mp hseq)
      (memGates_insert s.store _ _)
  case case7 hrevoke =>
    obtain ⟨sess, hlook, rfl⟩ := revokeTrustSession_eq_ok hrevoke
    exact h.close (hgate hlook) (memGates_insert s.store _ _)
  case case10 claims _ hfresh _ hcreate =>
    obtain ⟨-, ⟨⟩⟩ := guard_ok hcreate
    have hnone : memGates s.store claims.id = none := by
      rw [memGates, not_not.mp hfresh]
      rfl
    exact h.create hnone (Int.le_refl 0) (memGates_insert s.store claims.id _)

/-! ## In PostgreSQL -/

section postgres

variable {κ : Type} [DecidableEq κ]

inductive Tx (κ : Type) where
  | idle
  /-- The proof was checked; `ConsumeSequence` comes next. -/
  | checked (tenantID : String) (m : RequestProof)
  /-- `SELECT … FOR UPDATE` has locked the row, and the sequence is above the last one. -/
  | selected (k : κ) (seq : Int64)
  /-- `UPDATE` has written the row of `ConsumeSequence`, which is not committed yet. -/
  | updated (k : κ) (seq : Int64) (row : TrustSession)
  /-- `UPDATE` has written the row of `RevokeTrustSession`, which is not committed yet. -/
  | revoked (k : κ) (row : TrustSession)

structure PgState (κ : Type) where
  rows : GoMap κ TrustSession
  locks : κ → Option Nat
  tx : Nat → Tx κ
  history : List (Gate.Entry κ Int)

inductive PgAction where
  | check (i : Nat) (now : Int64) (ctx : Option Principal) (m : RequestProof)
  | select (i : Nat)
  | update (i : Nat)
  | commit (i : Nat)
  | abort (i : Nat)
  | revoke (i : Nat) (tenantID tokenID : String)
  | create (claims : TrustClaims) (signed : Bytes)

def PgState.goto (s : PgState κ) (i : Nat) (tx : Tx κ) : PgState κ :=
  { s with tx := update s.tx i tx }

def PgState.lock (s : PgState κ) (i : Nat) (k : κ) (tx : Tx κ) : PgState κ :=
  { s.goto i tx with locks := update s.locks k (some i) }

def PgState.unlock (s : PgState κ) (i : Nat) (k : κ) : PgState κ :=
  { s.goto i .idle with locks := update s.locks k none }

def PgState.row (uuid : String → κ) (s : PgState κ) (tenantID tokenID : String) :
    Option TrustSession :=
  (s.rows.lookup (uuid tokenID)).filter fun row => uuid row.tenantID = uuid tenantID

def PgState.getTrustSession (uuid : String → κ) (s : PgState κ) (tenantID tokenID : String) :
    Except StoreError TrustSession :=
  match s.row uuid tenantID tokenID with
  | some row => .ok row
  | none => .error .notFound

def pgStep (env : Env) (uuid : String → κ) (s : PgState κ) : PgAction → Option (PgState κ)
  | .check i now ctx m =>
    match s.tx i with
    | .idle =>
      match checkProof env (s.getTrustSession uuid · m.trustTokenId) now ctx m with
      | .ok (.inr (tenantID, _)) => some (s.goto i (.checked tenantID m))
      | _ => some s
    | _ => none
  | .select i =>
    match s.tx i with
    | .checked tenantID m =>
      match s.row uuid tenantID m.trustTokenId with
      | none => some (s.goto i .idle)
      | some row =>
        if row.status ≠ .active then some (s.goto i .idle)
        -- The transaction waits for the lock, and then looks at the row as it was committed.
        else if s.locks (uuid m.trustTokenId) ≠ none then none
        else if m.monotonicSequence ≤ row.lastSequence then some (s.goto i .idle)
        else
          some (s.lock i (uuid m.trustTokenId)
            (.selected (uuid m.trustTokenId) m.monotonicSequence))
    | _ => none
  | .update i =>
    match s.tx i with
    | .selected k seq =>
      (s.rows.lookup k).map fun row => s.goto i (.updated k seq { row with lastSequence := seq })
    | _ => none
  | .commit i =>
    match s.tx i with
    | .updated k seq row =>
      some { s.unlock i k with
        rows := s.rows.insert k row
        history := s.history ++ [.admitted k seq.toInt] }
    | .revoked k row =>
      some { s.unlock i k with
        rows := s.rows.insert k row
        history := s.history ++ [.closed k] }
    | _ => none
  | .abort i =>
    match s.tx i with
    | .idle => none
    | .checked _ _ => some (s.goto i .idle)
    | .selected k _ => some (s.unlock i k)
    | .updated k _ _ => some (s.unlock i k)
    | .revoked k _ => some (s.unlock i k)
  | .revoke i tenantID tokenID =>
    match s.tx i with
    | .idle =>
      match s.row uuid tenantID tokenID with
      | none => some s
      | some row =>
        if s.locks (uuid tokenID) ≠ none then none
        else
          some (s.lock i (uuid tokenID) (.revoked (uuid tokenID) { row with status := .revoked }))
    | _ => none
  | .create claims signed =>
    if s.rows.lookup (uuid claims.id) ≠ none then none
    else some { s with rows := s.rows.insert (uuid claims.id) (sessionOf env claims signed) }

def pgGates (rows : GoMap κ TrustSession) (k : κ) : Option (Gate Int) :=
  (rows.lookup k).map gateOf

theorem pgGates_insert (rows : GoMap κ TrustSession) (k k' : κ)
    (row : TrustSession) :
    pgGates (rows.insert k row) k' = if k' = k then some (gateOf row) else pgGates rows k' := by
  unfold pgGates
  rw [GoMap.lookup_insert_eq]
  split <;> rfl

def Knows (rows : GoMap κ TrustSession) (locks : κ → Option Nat) (i : Nat) :
    Tx κ → Prop
  | .idle => True
  | .checked _ _ => True
  | .selected k seq => locks k = some i ∧
      ∃ row, rows.lookup k = some row ∧ row.status = .active ∧ row.lastSequence < seq
  | .updated k seq new => locks k = some i ∧
      ∃ row, rows.lookup k = some row ∧ row.status = .active ∧ row.lastSequence < seq ∧
        new = { row with lastSequence := seq }
  | .revoked k new => locks k = some i ∧
      ∃ row, rows.lookup k = some row ∧ new = { row with status := .revoked }

variable {rows : GoMap κ TrustSession} {i : Nat} {tx : Tx κ}

theorem Knows.frame {rows rows' : GoMap κ TrustSession} {locks locks' : κ → Option Nat}
    {i : Nat} {tx : Tx κ} (h : Knows rows locks i tx)
    (hkeep : ∀ k row, locks k = some i → rows.lookup k = some row →
      locks' k = some i ∧ rows'.lookup k = some row) : Knows rows' locks' i tx := by
  cases tx with
  | idle | checked => trivial
  | selected | updated | revoked =>
    obtain ⟨hlock, row, hrow, hknown⟩ := h
    obtain ⟨hlock', hrow'⟩ := hkeep _ row hlock hrow
    exact ⟨hlock', row, hrow', hknown⟩

structure PgInv (s : PgState κ) : Prop where
  kept : Gate.Kept 0 (pgGates s.rows) s.history
  knows : ∀ i, Knows s.rows s.locks i (s.tx i)

variable {env : Env} {uuid : String → κ} {s s' : PgState κ}

theorem PgInv.goto (h : PgInv s) (hknows : Knows s.rows s.locks i tx) :
    PgInv (s.goto i tx) := by
  refine ⟨h.kept, fun j => ?_⟩
  show Knows s.rows s.locks j (update s.tx i tx j)
  by_cases hj : j = i
  · rw [hj, update_self]
    exact hknows
  · rw [update_of_ne hj]
    exact h.knows j

variable {k : κ}

theorem PgInv.lock (h : PgInv s) (hfree : s.locks k = none)
    (hknows : Knows s.rows (update s.locks k (some i)) i tx) : PgInv (s.lock i k tx) := by
  refine ⟨h.kept, fun j => ?_⟩
  show Knows s.rows (update s.locks k (some i)) j (update s.tx i tx j)
  by_cases hj : j = i
  · rw [hj, update_self]
    exact hknows
  · rw [update_of_ne hj]
    refine (h.knows j).frame fun k' row hlock hrow => ⟨?_, hrow⟩
    have hne : k' ≠ k := by
      rintro rfl
      rw [hfree] at hlock
      cases hlock
    rw [update_of_ne hne]
    exact hlock

theorem PgInv.finish (h : PgInv s) (hlock : s.locks k = some i) {history : List (Gate.Entry κ Int)}
    (hrows : ∀ k', k' ≠ k → rows.lookup k' = s.rows.lookup k')
    (hkept : Gate.Kept 0 (pgGates rows) history) :
    PgInv { s.unlock i k with rows := rows, history := history } := by
  refine ⟨hkept, fun j => ?_⟩
  show Knows rows (update s.locks k none) j (update s.tx i .idle j)
  by_cases hj : j = i
  · rw [hj, update_self]
    trivial
  · rw [update_of_ne hj]
    refine (h.knows j).frame fun k' row hlock' hrow => ?_
    have hne : k' ≠ k := by
      rintro rfl
      exact hj (Option.some.inj (hlock'.symm.trans hlock))
    rw [update_of_ne hne, hrows k' hne]
    exact ⟨hlock', hrow⟩

variable {row : TrustSession}

theorem PgState.lookup_of_row {tenantID tokenID : String}
    (h : s.row uuid tenantID tokenID = some row) : s.rows.lookup (uuid tokenID) = some row :=
  (Option.filter_eq_some_iff.mp h).1

theorem pgGates_of_lookup (h : rows.lookup k = some row) :
    pgGates rows k = some (gateOf row) := by
  rw [pgGates, h]
  rfl

theorem PgInv.step {a : PgAction} (h : PgInv s) (hstep : pgStep env uuid s a = some s') :
    PgInv s' := by
  revert hstep
  fun_cases pgStep env uuid s a <;> intro hstep
  -- Most steps change nothing, or leave the transaction without a lock.
  any_goals cases hstep
  any_goals exact h
  any_goals exact h.goto trivial
  case case8 row hrow hactive hfree hseq =>
    exact h.lock (not_not.mp hfree) ⟨update_self _ _ _, row, PgState.lookup_of_row hrow,
      not_not.mp hactive, Int64.not_le.mp hseq⟩
  case case10 htx =>
    obtain ⟨hlock, row, hrow, hactive, hseq⟩ := htx ▸ h.knows _
    rw [hrow] at hstep
    cases hstep
    exact h.goto ⟨hlock, row, hrow, hactive, hseq, rfl⟩
  case case12 k _ _ htx =>
    obtain ⟨hlock, row, hrow, hactive, hseq, rfl⟩ := htx ▸ h.knows _
    refine h.finish hlock (fun k' hne => AList.lookup_insert_ne hne) ?_
    exact h.kept.admit (pgGates_of_lookup hrow) (decide_eq_true hactive)
      (Int64.lt_iff_toInt_lt.mp hseq) (pgGates_insert s.rows k · _)
  case case13 k _ htx =>
    obtain ⟨hlock, row, hrow, rfl⟩ := htx ▸ h.knows _
    refine h.finish hlock (fun k' hne => AList.lookup_insert_ne hne) ?_
    exact h.kept.close (pgGates_of_lookup hrow) (pgGates_insert s.rows k · _)
  case case17 htx | case18 htx | case19 htx =>
    exact h.finish (htx ▸ h.knows _).1 (fun _ _ => rfl) h.kept
  case case22 row hrow hfree =>
    exact h.lock (not_not.mp hfree)
      ⟨update_self _ _ _, row, PgState.lookup_of_row hrow, rfl⟩
  case case25 claims signed hfresh =>
    have hnone := not_not.mp hfresh
    refine ⟨?_, fun j => (h.knows j).frame fun k row hlock hrow => ⟨hlock, ?_⟩⟩
    · refine h.kept.create (k := uuid claims.id) ?_ (Int.le_refl 0) (pgGates_insert s.rows _ · _)
      rw [pgGates, hnone]
      rfl
    · have hne : k ≠ uuid claims.id := by
        rintro rfl
        rw [hnone] at hrow
        cases hrow
      rw [AList.lookup_insert_ne hne]
      exact hrow

/-! ## Row locks -/

/-- The row that a transaction holds. -/
def Tx.held : Tx κ → Option κ
  | .idle | .checked .. => none
  | .selected k .. | .updated k .. | .revoked k .. => some k

def LocksHeld (s : PgState κ) : Prop := ∀ k i, s.locks k = some i ↔ (s.tx i).held = some k

omit [DecidableEq κ] in
theorem LocksHeld.goto (h : LocksHeld s) (hheld : tx.held = (s.tx i).held) :
    LocksHeld (s.goto i tx) := by
  intro k j
  show s.locks k = some j ↔ (update s.tx i tx j).held = some k
  rw [h, update_apply]
  split
  · next hj => rw [hj, hheld]
  · rfl

theorem LocksHeld.lock (h : LocksHeld s) (hfree : s.locks k = none) (hnone : (s.tx i).held = none)
    (hheld : tx.held = some k) : LocksHeld (s.lock i k tx) := by
  intro k' j
  show update s.locks k (some i) k' = some j ↔ (update s.tx i tx j).held = some k'
  have hother := h k' j
  grind [update_apply]

theorem LocksHeld.unlock (h : LocksHeld s) (hheld : (s.tx i).held = some k) :
    LocksHeld (s.unlock i k) := by
  intro k' j
  show update s.locks k none k' = some j ↔ (update s.tx i .idle j).held = some k'
  have hother := h k' j
  have hlock := h k i
  grind [update_apply, Tx.held]

theorem LocksHeld.step {a : PgAction} (h : LocksHeld s) (hstep : pgStep env uuid s a = some s') :
    LocksHeld s' := by
  revert hstep
  fun_cases pgStep env uuid s a <;> intro hstep
  any_goals cases hstep
  any_goals exact h
  case case8 htx _ _ _ hfree _ => exact h.lock (not_not.mp hfree) (by rw [htx]; rfl) rfl
  case case10 htx =>
    obtain ⟨row, -, rfl⟩ := Option.map_eq_some_iff.mp hstep
    exact h.goto (by rw [htx]; rfl)
  case case12 htx | case13 htx | case17 htx | case18 htx | case19 htx =>
    exact h.unlock (by rw [htx]; rfl)
  case case22 htx _ _ hfree => exact h.lock (not_not.mp hfree) (by rw [htx]; rfl) rfl
  all_goals
    refine h.goto ?_
    simp [*, Tx.held]

end postgres

/-! ## Both stores -/

structure NotReplayed {κ : Type} [DecidableEq κ] (history : List (Gate.Entry κ Int)) : Prop where
  increasing : ∀ k, (0 :: Gate.numbers k history).Pairwise (· < ·)
  once : ∀ k n, (Gate.numbers k history).count n ≤ 1
  final : ∀ k before after, history = before ++ .closed k :: after → Gate.numbers k after = []

theorem notReplayed_of_kept {κ : Type} [DecidableEq κ] {gates : κ → Option (Gate Int)}
    {history : List (Gate.Entry κ Int)} (h : Gate.Kept 0 gates history) : NotReplayed history where
  increasing := h.increasing
  once k n := List.nodup_iff_count_le_one.mp (h.nodup k) n
  final _ _ _ := h.final

/--
**Anti-replay.** Over either store, in any interleaving of checks, `ConsumeSequence` and
`RevokeTrustSession`: the sequences consumed for a token are positive and increase in the order in
which they succeeded, and there is none after a revocation of the token.
-/
theorem antiReplay (env : Env) :
    (∀ (s t : MemState) (es : List (Event MemState MemAction)),
      (∀ tokenID sess, s.store.sessions.lookup tokenID = some sess → 0 ≤ sess.lastSequence.toInt) →
      s.history = [] → Run (memStep env) s es t → NotReplayed t.history) ∧
    ∀ (κ : Type) [DecidableEq κ] (uuid : String → κ) (s t : PgState κ)
      (es : List (Event (PgState κ) PgAction)),
      (∀ k row, s.rows.lookup k = some row → 0 ≤ row.lastSequence.toInt) →
      (∀ i, s.tx i = .idle) → s.history = [] → Run (pgStep env uuid) s es t →
      NotReplayed t.history := by
  constructor
  · intro s t es hsessions hhistory hrun
    have hinit : Gate.Kept 0 (memGates s.store) s.history := by
      rw [hhistory]
      refine Gate.Kept.nil fun {k g} hg => ?_
      obtain ⟨sess, hsess, rfl⟩ := Option.map_eq_some_iff.mp hg
      exact hsessions k sess hsess
    have hkept : Gate.Kept 0 (memGates t.store) t.history :=
      (hrun.keeps (C := fun _ _ => True) (fun h _ hs => memStep_kept h hs) hinit
        fun _ _ => trivial).1
    exact notReplayed_of_kept hkept
  · intro κ _ uuid s t es hrows hidle hhistory hrun
    have hinit : PgInv s := by
      refine ⟨?_, fun i => by rw [hidle i]; trivial⟩
      rw [hhistory]
      refine Gate.Kept.nil fun {k g} hg => ?_
      obtain ⟨row, hrow, rfl⟩ := Option.map_eq_some_iff.mp hg
      exact hrows k row hrow
    have hkept := (hrun.keeps (C := fun _ _ => True) (fun h _ hs => PgInv.step h hs) hinit
      fun _ _ => trivial).1
    exact notReplayed_of_kept hkept.kept

/-! ## Two calls with one proof, and one that was checked before the revocation -/

namespace ReplaySample

def tokenID : String := "6ba7b810-9dad-11d1-80b4-00c04fd430c8"

def env : Env where
  parse _ := none
  sha256 _ := []
  hmac key message := key ++ message
  mint _ _ _ := .ok []
  consumeNonce _ _ _ := .ok true
  verify _ := .ok ⟨true, 0, ""⟩
  fleet := none
  validUUID id := id == tokenID

def claims : TrustClaims := ⟨tokenID, 1000, 1900, "i", "t", "a", "b", .trusted, [], ""⟩

def proof (sequence : Int64) : RequestProof where
  trustTokenId := tokenID
  requestHash := [9]
  nonce := [5]
  appInstanceSignature := expectedTag env (sessionOf env claims [8]) tokenID [9] [5] sequence
  monotonicSequence := sequence

def ctx : Option Principal := some ⟨"t", "api"⟩

def memStart : MemState := ⟨⟨∅, ∅, ∅, ∅⟩, [], []⟩

def memActions : List MemAction :=
  [.create claims [8], .check 1001 ctx (proof 5), .check 1002 ctx (proof 5), .consume 0, .consume 0,
    .check 1003 ctx (proof 7), .revoke "t" tokenID, .consume 0]

def pgStart : PgState String := ⟨∅, fun _ => none, fun _ => .idle, []⟩

def pgActions : List PgAction :=
  [.create claims [8], .check 0 1001 ctx (proof 5), .check 1 1002 ctx (proof 5), .select 0,
    .update 0, .commit 0, .select 1, .check 2 1003 ctx (proof 7), .revoke 3 "t" tokenID, .commit 3,
    .select 2]

def history : List (Gate.Entry String Int) := [.admitted tokenID 5, .closed tokenID]

theorem exists_memRun : ∃ es t, Run (memStep env) memStart es t ∧
    es.map Event.action = memActions ∧ t.history = history := exists_run (by decide +kernel)

theorem exists_pgRun : ∃ es t, Run (pgStep env id) pgStart es t ∧
    es.map Event.action = pgActions ∧ t.history = history := exists_run (by decide +kernel)

end ReplaySample

open ReplaySample in
theorem antiReplay_sample :
    (∃ es t, Run (memStep env) memStart es t ∧ es.map Event.action = memActions ∧
      t.history = history ∧ NotReplayed t.history) ∧
    ∃ es t, Run (pgStep env id) pgStart es t ∧ es.map Event.action = pgActions ∧
      t.history = history ∧ NotReplayed t.history := by
  obtain ⟨es, t, hrun, hes, hhistory⟩ := exists_memRun
  obtain ⟨es', t', hrun', hes', hhistory'⟩ := exists_pgRun
  refine ⟨⟨es, t, hrun, hes, hhistory, ?_⟩, es', t', hrun', hes', hhistory', ?_⟩
  · refine (antiReplay env).1 memStart t es ?_ rfl hrun
    rintro k sess ⟨⟩
  · refine (antiReplay env).2 String id pgStart t' es' ?_ (fun _ => rfl) rfl hrun'
    rintro k row ⟨⟩

end Kseal.Trust
