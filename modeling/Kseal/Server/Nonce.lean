import Kseal.Infra.Run
import Kseal.Infra.Ticket
import Kseal.Server.Trust

/-!
# One session per nonce

`GetNonce` puts a nonce into Redis, under a key with the tenant in it and the app as the value.
`VerifyAttestation` consumes it, and creates the session many steps later (`session_per_nonce`).
-/

namespace Kseal.Trust

open Infra Wire Server Registry Function

/-! ## The nonce store -/

def nonceKey (tenantID : String) (nonce : Bytes) : String :=
  "nonce:\x7b" ++ tenantID ++ "\x7d:" ++ hexEncode nonce

theorem brace_notMem_hexEncode (nonce : Bytes) : '\x7d' ∉ (hexEncode nonce).toList := by
  intro h
  obtain ⟨n, hn⟩ := exists_of_mem_hexEncode h
  revert n
  decide

theorem nonceKey_inj {tenantID tenantID' : String} {nonce nonce' : Bytes}
    (h : nonceKey tenantID nonce = nonceKey tenantID' nonce') :
    tenantID = tenantID' ∧ nonce = nonce' := by
  have hsep : "\x7d:".toList = ['\x7d', ':'] := rfl
  have hchars := congrArg String.toList h
  simp only [nonceKey, String.toList_append, List.append_assoc, hsep] at hchars
  obtain ⟨htenant, hnonce⟩ := append_sep_inj_last (by simp [brace_notMem_hexEncode])
    (by simp [brace_notMem_hexEncode]) (List.append_cancel_left hchars)
  exact ⟨String.toList_injective htenant,
    hexEncode_injective (String.toList_injective (List.cons.inj hnonce).2)⟩

def issue (redis : GoMap String String) (tenantID appID : String) (nonce : Bytes) :
    GoMap String String :=
  redis.insert (nonceKey tenantID nonce) appID

def consumeScript (redis : GoMap String String) (key arg : String) : Bool × GoMap String String :=
  match redis.lookup key with
  | some v => if v = arg then (true, redis.erase key) else (false, redis)
  | none => (false, redis)

def consume (redis : GoMap String String) (tenantID : String) (nonce : Bytes) (appID : String) :
    Bool × GoMap String String :=
  consumeScript redis (nonceKey tenantID nonce) appID

theorem consume_eq (redis : GoMap String String) (tenantID : String) (nonce : Bytes)
    (appID : String) :
    consume redis tenantID nonce appID =
      if redis.lookup (nonceKey tenantID nonce) = some appID
      then (true, redis.erase (nonceKey tenantID nonce)) else (false, redis) := by
  unfold consume consumeScript
  cases redis.lookup (nonceKey tenantID nonce) with
  | none => rfl
  | some v =>
    simp

def checkNonceRequest (store : MemStore) (m : NonceRequest) : Except ConnectError Unit :=
  if m.tenantId = "" then .error ⟨.invalidArgument, "tenant_id required"⟩
  else if m.appId = "" then .error ⟨.invalidArgument, "app_id required"⟩
  else
    match store.getApp m.tenantId m.appId with
    | .error .notFound => .error ⟨.notFound, "unknown tenant or app"⟩
    | .error e => .error ⟨.internal, e.message⟩
    | .ok _ => .ok ()

/-! ## The calls -/

structure Draft where
  request : AttestationRequest
  claims : TrustClaims
  tenantID_eq : claims.tenantID = request.tenantId
  appID_eq : claims.appID = request.appId

inductive Call where
  | idle
  /-- `GetNonce`, for an app of the tenant. -/
  | registered (m : NonceRequest)
  /-- `VerifyAttestation`, after `Consume`. -/
  | redeemed (m : AttestationRequest)
  | identified (m : AttestationRequest) (packageID : String)
  | refused (m : AttestationRequest)
  | accepted (m : AttestationRequest) (riskBits : UInt64)
  /-- The policy was read and the claims are made. -/
  | scored (d : Draft)
  /-- The tenant has no signing key. -/
  | keyless (d : Draft)
  | signed (d : Draft) (token : Bytes)

@[ext]
structure Ticket where
  tenantID : String
  appID : String
  nonce : Bytes
deriving DecidableEq

def ticketOf (m : AttestationRequest) : Ticket := ⟨m.tenantId, m.appId, m.nonce⟩

def Call.ticket : Call → Option Ticket
  | .idle | .registered _ => none
  | .redeemed m | .identified m _ | .refused m | .accepted m _ => some (ticketOf m)
  | .scored d | .keyless d | .signed d _ => some (ticketOf d.request)

structure Created where
  request : AttestationRequest
  session : TrustSession
  tenantID_eq : session.tenantID = request.tenantId
  appID_eq : session.appID = request.appId

structure NonceState where
  redis : GoMap String String
  store : MemStore
  calls : Nat → Call
  issued : List Ticket
  created : List Created

inductive NonceAction where
  | getNonce (i : Nat) (m : NonceRequest)
  | issue (i : Nat) (nonce : Bytes)
  | attest (i : Nat) (m : AttestationRequest)
  | getApp (i : Nat)
  | verify (i : Nat) (answer : Except VerifierError AttestationResult)
  | recordFailed (i : Nat) (now : Int64) (failedID : String)
  | score (i : Nat) (fresh : Fresh)
  | getKey (i : Nat)
  | createKey (i : Nat) (fresh : Fresh)
  | createSession (i : Nat)
  /-- The call is answered early: a request fails, or its answer gets lost. -/
  | fail (i : Nat)
  | expire (key : String)
  /-- Somebody else changes the registry. -/
  | manage (store : MemStore)

def NonceState.goto (s : NonceState) (i : Nat) (call : Call) : NonceState :=
  { s with calls := update s.calls i call }

def draftOf (env : Env) (svc : Service) (store : MemStore) (fresh : Fresh)
    (m : AttestationRequest) (riskBits : UInt64) : Draft :=
  ⟨m, claimsOf env svc store fresh m riskBits, rfl, rfl⟩

def Draft.created (d : Draft) (env : Env) (token : Bytes) : Created :=
  ⟨d.request, sessionOf env d.claims token, d.tenantID_eq, d.appID_eq⟩

def signedWith (env : Env) (sk : SigningKey) (d : Draft) : Call :=
  match env.mint sk.id sk.privateKey d.claims with
  | .ok token => .signed d token
  | .error _ => .idle

def nonceStep (env : Env) (svc : Service) (s : NonceState) : NonceAction → Option NonceState
  | .getNonce i m =>
    match s.calls i with
    | .idle =>
      match checkNonceRequest s.store m with
      | .error _ => some s
      | .ok _ => some (s.goto i (.registered m))
    | _ => none
  | .issue i nonce =>
    match s.calls i with
    | .registered m =>
      some { s.goto i .idle with
        redis := issue s.redis m.tenantId m.appId nonce
        issued := s.issued ++ [⟨m.tenantId, m.appId, nonce⟩] }
    | _ => none
  | .attest i m =>
    match s.calls i with
    | .idle =>
      if m.tenantId = "" ∨ m.appId = "" then some s
      else
        match consume s.redis m.tenantId m.nonce m.appId with
        | (false, redis) => some { s with redis := redis }
        | (true, redis) => some { s.goto i (.redeemed m) with redis := redis }
    | _ => none
  | .getApp i =>
    match s.calls i with
    | .redeemed m =>
      match s.store.getApp m.tenantId m.appId with
      | .error _ => some (s.goto i .idle)
      | .ok app =>
        if app.packageId = "" then some (s.goto i .idle)
        else some (s.goto i (.identified m app.packageId))
    | _ => none
  | .verify i answer =>
    match s.calls i with
    | .identified m _ =>
      match answer with
      | .error _ => some (s.goto i .idle)
      | .ok res =>
        if res.accepted = false then some (s.goto i (.refused m))
        else some (s.goto i (.accepted m res.riskBits))
    | _ => none
  | .recordFailed i now failedID =>
    match s.calls i with
    | .refused m =>
      match s.store.recordFailedAttestation (failedSession m now) failedID with
      | .error _ => some (s.goto i .idle)
      | .ok store =>
        some { s.goto i .idle with
          store := store
          created := s.created ++ [⟨m, failedSession m now, rfl, rfl⟩] }
    | _ => none
  | .score i fresh =>
    match s.calls i with
    | .accepted m riskBits => some (s.goto i (.scored (draftOf env svc s.store fresh m riskBits)))
    | _ => none
  | .getKey i =>
    match s.calls i with
    | .scored d =>
      match s.store.getActiveSigningKey d.request.tenantId with
      | .error .notFound => some (s.goto i (.keyless d))
      | .error _ => some (s.goto i .idle)
      | .ok sk => some (s.goto i (signedWith env sk d))
    | _ => none
  | .createKey i fresh =>
    match s.calls i with
    | .keyless d =>
      match s.store.createSigningKey d.request.tenantId fresh.pair fresh.keyID fresh.now with
      | .error _ => some (s.goto i .idle)
      | .ok (sk, store) => some { s.goto i (signedWith env sk d) with store := store }
    | _ => none
  | .createSession i =>
    match s.calls i with
    | .signed d token =>
      match s.store.createTrustSession (sessionOf env d.claims token) with
      | .error _ => some (s.goto i .idle)
      | .ok store =>
        some { s.goto i .idle with
          store := store
          created := s.created ++ [d.created env token] }
    | _ => none
  | .fail i => some (s.goto i .idle)
  | .expire key => some { s with redis := s.redis.erase key }
  | .manage store => some { s with store := store }

/-! ## A nonce is in one place -/

section nonces

def NonceState.tickets (s : NonceState) : Tickets Ticket Nat where
  issued := s.issued
  offered x := s.redis.lookup (nonceKey x.tenantID x.nonce) = some x.appID
  taken i := (s.calls i).ticket
  used := s.created.map fun c => ticketOf c.request

variable {env : Env} {svc : Service} {s s' t : NonceState} {a : NonceAction}

theorem tickets_goto (s : NonceState) (i : Nat) (call : Call) :
    (s.goto i call).tickets =
      { s.tickets with taken := update s.tickets.taken i call.ticket } := by
  unfold NonceState.goto NonceState.tickets
  congr 1
  exact comp_update Call.ticket s.calls i call

variable {i : Nat}

theorem once_goto (h : s.tickets.Once) {call : Call}
    (hcall : call.ticket = none ∨ call.ticket = (s.calls i).ticket) :
    (s.goto i call).tickets.Once := by
  rw [tickets_goto]
  refine h.lose id fun {j x} hj => ?_
  rcases Tickets.eq_or_of_update hj with ⟨rfl, hx⟩ | ⟨-, hj⟩
  · rcases hcall with hnone | hsame
    · rw [hnone] at hx
      cases hx
    · exact hsame.symm.trans hx
  · exact hj

theorem ticket_signedWith (env : Env) (sk : SigningKey) (d : Draft) :
    (signedWith env sk d).ticket = none ∨
      (signedWith env sk d).ticket = some (ticketOf d.request) := by
  unfold signedWith
  split
  · exact .inr rfl
  · exact .inl rfl

theorem lookup_of_erase {redis : GoMap String String} {key key' v : String}
    (h : (redis.erase key).lookup key' = some v) : key' ≠ key ∧ redis.lookup key' = some v := by
  by_cases hkey : key' = key
  · rw [hkey, AList.lookup_erase] at h
    cases h
  · rw [AList.lookup_erase_ne hkey] at h
    exact ⟨hkey, h⟩

theorem once_issue (h : s.tickets.Once) {m : NonceRequest} {nonce : Bytes}
    (hfresh : ⟨m.tenantId, m.appId, nonce⟩ ∉ s.issued) :
    Tickets.Once (NonceState.tickets { s with
      redis := issue s.redis m.tenantId m.appId nonce
      issued := s.issued ++ [⟨m.tenantId, m.appId, nonce⟩] }) := by
  refine h.issue hfresh fun {y} hy => ?_
  unfold issue at hy
  rw [GoMap.lookup_insert_eq] at hy
  split at hy
  · next hkey =>
    obtain ⟨htenant, hnonce⟩ := nonceKey_inj hkey
    exact .inl (Ticket.ext htenant (Option.some.inj hy).symm hnonce)
  · exact .inr hy

variable {m : AttestationRequest}

theorem once_redeem (h : s.tickets.Once)
    (hlook : s.redis.lookup (nonceKey m.tenantId m.nonce) = some m.appId) :
    Tickets.Once (NonceState.tickets { s.goto i (.redeemed m) with
      redis := s.redis.erase (nonceKey m.tenantId m.nonce) }) := by
  have htake : Tickets.Once { s.tickets with
      offered := fun x => (s.redis.erase (nonceKey m.tenantId m.nonce)).lookup
        (nonceKey x.tenantID x.nonce) = some x.appID
      taken := update s.tickets.taken i (some (ticketOf m)) } := by
    refine h.take hlook fun {y} hy => ?_
    obtain ⟨hkey, hy⟩ := lookup_of_erase hy
    refine ⟨hy, ?_⟩
    rintro rfl
    exact hkey rfl
  have heq := congrArg Tickets.taken (tickets_goto s i (.redeemed m))
  unfold NonceState.tickets at heq ⊢
  dsimp only at heq ⊢
  rw [heq]
  exact htake

theorem once_create (h : s.tickets.Once) {c : Created}
    (hcall : (s.calls i).ticket = some (ticketOf c.request)) (store : MemStore) :
    Tickets.Once (NonceState.tickets { s.goto i .idle with
      store := store
      created := s.created ++ [c] }) := by
  have huse : Tickets.Once { s.tickets with
      taken := update s.tickets.taken i none
      used := s.tickets.used ++ [ticketOf c.request] } := h.use hcall
  have heq := congrArg Tickets.taken (tickets_goto s i .idle)
  unfold NonceState.tickets at heq huse ⊢
  dsimp only at heq huse ⊢
  rw [heq, List.map_append]
  exact huse

inductive Move (s : NonceState) : NonceState → Prop where
  | goto (i : Nat) (call : Call) (store : MemStore)
      (hcall : call.ticket = none ∨ call.ticket = (s.calls i).ticket) :
      Move s { s.goto i call with store := store }
  | manage (store : MemStore) : Move s { s with store := store }
  | expire (key : String) : Move s { s with redis := s.redis.erase key }
  | issue (i : Nat) (m : NonceRequest) (nonce : Bytes) :
      Move s { s.goto i .idle with
        redis := issue s.redis m.tenantId m.appId nonce
        issued := s.issued ++ [⟨m.tenantId, m.appId, nonce⟩] }
  | redeem (i : Nat) (m : AttestationRequest)
      (hlook : s.redis.lookup (nonceKey m.tenantId m.nonce) = some m.appId) :
      Move s { s.goto i (.redeemed m) with
        redis := s.redis.erase (nonceKey m.tenantId m.nonce) }
  | create (i : Nat) (c : Created) (store : MemStore)
      (hcall : (s.calls i).ticket = some (ticketOf c.request)) :
      Move s { s.goto i .idle with
        store := store
        created := s.created ++ [c] }

theorem nonceStep_move (hstep : nonceStep env svc s a = some s') : Move s s' := by
  revert hstep
  fun_cases nonceStep env svc s a <;> rintro ⟨⟩
  case case4 => exact .issue ..
  case case7 hconsume =>
    rw [consume_eq] at hconsume
    split at hconsume <;> cases hconsume
    exact .manage s.store
  case case8 hconsume =>
    rw [consume_eq] at hconsume
    split at hconsume <;> cases hconsume
    exact .redeem _ _ ‹_›
  case case25 d hcall sk _ => exact .goto _ _ s.store (hcall ▸ ticket_signedWith env sk d)
  case case28 d hcall sk store _ => exact .goto _ _ store (hcall ▸ ticket_signedWith env sk d)
  case case34 key => exact .expire key
  -- The others change no call, give theirs up, pass its request on, or create the session.
  any_goals exact .manage s.store
  any_goals exact .manage _
  any_goals exact .goto _ _ s.store (.inl rfl)
  any_goals exact .goto _ _ s.store (.inr (by rw [‹s.calls _ = _›]; rfl))
  all_goals exact .create _ _ _ (by rw [‹s.calls _ = _›]; rfl)

theorem Move.issued_grows (hmove : Move s s') : s.issued <+: s'.issued := by
  cases hmove with
  | issue i m nonce => exact List.prefix_append _ _
  | _ => exact List.prefix_rfl

theorem Move.once (hmove : Move s s') (h : s.tickets.Once)
    (hdistinct : (s'.issued.map Ticket.nonce).Nodup) : s'.tickets.Once := by
  cases hmove with
  | goto i call store hcall => exact once_goto h hcall
  | manage store => exact h
  | expire key => exact h.lose (fun hx => (lookup_of_erase hx).2) id
  | issue i m nonce =>
    have hfresh : ⟨m.tenantId, m.appId, nonce⟩ ∉ s.issued := by
      intro hmem
      rw [List.map_append, List.nodup_append] at hdistinct
      exact hdistinct.2.2 nonce (List.mem_map.mpr ⟨_, hmem, rfl⟩) nonce (List.mem_singleton_self _)
        rfl
    exact once_issue (once_goto h (i := i) (.inl rfl)) hfresh
  | redeem i m hlook => exact once_redeem h hlook
  | create i c store hcall => exact once_create h hcall store

/-! ## One call after the other -/

def Env.withNonces (env : Env) (redis : GoMap String String) : Env :=
  { env with
    consumeNonce := fun tenantID nonce appID => .ok (consume redis tenantID nonce appID).1 }

@[simp] theorem calls_goto (s : NonceState) (i : Nat) (call : Call) :
    (s.goto i call).calls i = call :=
  update_self _ _ _

@[simp] theorem store_goto (s : NonceState) (i : Nat) (call : Call) :
    (s.goto i call).store = s.store := rfl

@[simp] theorem goto_goto (s : NonceState) (i : Nat) (call call' : Call) :
    (s.goto i call).goto i call' = s.goto i call' := by
  unfold NonceState.goto
  rw [update_idem]

theorem goto_idle (h : s.calls i = .idle) : s.goto i .idle = s := by
  unfold NonceState.goto
  rw [← h, update_eq_self]

variable {fresh : Fresh}

theorem exists_run_signingKey {i : Nat} {d : Draft} {fresh : Fresh} {sk : SigningKey}
    {store : MemStore} {token : Bytes}
    (hkey : s.store.signingKey d.request.tenantId fresh.pair fresh.keyID fresh.now =
      .ok (sk, store))
    (hsigned : env.mint sk.id sk.privateKey d.claims = .ok token) :
    ∃ es, Run (nonceStep env svc) (s.goto i (.scored d)) es
      (NonceState.goto { s with store := store } i (.signed d token)) := by
  have hcall : signedWith env sk d = .signed d token := by
    rw [signedWith, hsigned]
  unfold MemStore.signingKey at hkey
  split at hkey
  · next hnone =>
    have hget : nonceStep env svc (s.goto i (.scored d)) (.getKey i) =
        some (s.goto i (.keyless d)) := by
      simp only [nonceStep, calls_goto, goto_goto, store_goto, hnone]
    have hcreate : nonceStep env svc (s.goto i (.keyless d)) (.createKey i fresh) =
        some (NonceState.goto { s with store := store } i (.signed d token)) := by
      simp only [nonceStep, calls_goto, goto_goto, store_goto, hkey, hcall]
      rfl
    exact ⟨_, .cons hget (.cons hcreate (.nil _))⟩
  · cases hkey
  · next hactive =>
    cases hkey
    have hget : nonceStep env svc (s.goto i (.scored d)) (.getKey i) =
        some (s.goto i (.signed d token)) := by
      simp only [nonceStep, calls_goto, goto_goto, store_goto, hactive, hcall]
    exact ⟨_, .cons hget (.nil _)⟩

theorem exists_run_scored {app : App} {res : AttestationResult} (hidle : s.calls i = .idle)
    (hids : ¬ (m.tenantId = "" ∨ m.appId = ""))
    (hconsume : (consume s.redis m.tenantId m.nonce m.appId).1 = true)
    (happ : s.store.getApp m.tenantId m.appId = .ok app) (hpkg : app.packageId ≠ "")
    (hverified : res.accepted = true) :
    ∃ es, Run (nonceStep env svc) s es
      (NonceState.goto { s with redis := (consume s.redis m.tenantId m.nonce m.appId).2 } i
        (.scored (draftOf env svc s.store fresh m res.riskBits))) := by
  generalize hs₁ : { s with redis := (consume s.redis m.tenantId m.nonce m.appId).2 } = s₁
  have hstore : s₁.store = s.store := by rw [← hs₁]
  have hattest : nonceStep env svc s (.attest i m) = some (s₁.goto i (.redeemed m)) := by
    simp only [nonceStep, hidle]
    rw [if_neg hids, ← hs₁]
    generalize consume s.redis m.tenantId m.nonce m.appId = answer at hconsume
    obtain ⟨ok, redis⟩ := answer
    cases hconsume
    rfl
  have hget : nonceStep env svc (s₁.goto i (.redeemed m)) (.getApp i) =
      some (s₁.goto i (.identified m app.packageId)) := by
    simp only [nonceStep, calls_goto, goto_goto, store_goto, hstore, happ, if_neg hpkg]
  have hverify : nonceStep env svc (s₁.goto i (.identified m app.packageId)) (.verify i (.ok res)) =
      some (s₁.goto i (.accepted m res.riskBits)) := by
    simp only [nonceStep, calls_goto, goto_goto, hverified, Bool.true_eq_false, if_false]
  have hscore : nonceStep env svc (s₁.goto i (.accepted m res.riskBits)) (.score i fresh) =
      some (s₁.goto i (.scored (draftOf env svc s.store fresh m res.riskBits))) := by
    simp only [nonceStep, calls_goto, goto_goto, store_goto, hstore]
  exact ⟨_, .cons hattest (.cons hget (.cons hverify (.cons hscore (.nil _))))⟩

/-- **A call that is not disturbed does what `VerifyAttestation` does.** -/
theorem exists_run_verifyAttestation {resp : AttestationResponse} {store : MemStore}
    (hidle : s.calls i = .idle)
    (h : verifyAttestation (env.withNonces s.redis) svc s.store fresh m = .ok (resp, store))
    (hacc : resp.accepted = true) :
    ∃ es c, c.request = m ∧ Run (nonceStep env svc) s es
      { s with
        redis := (consume s.redis m.tenantId m.nonce m.appId).2
        store := store
        created := s.created ++ [c] } := by
  obtain ⟨hids, hnonce, app, res, happ, hpkg, -, hverified, hmint⟩ := verifyAttestation_eq_ok h hacc
  obtain ⟨sk, storeₖ, token, hkey, hsigned, hsession, -⟩ := mintSession_parts hmint
  generalize hredis : (consume s.redis m.tenantId m.nonce m.appId).2 = redis
  let d := draftOf env svc s.store fresh m res.riskBits
  have hscored : ∃ es, Run (nonceStep env svc) s es
      (NonceState.goto { s with redis := redis } i (.scored d)) := by
    rw [← hredis]
    exact exists_run_scored hidle hids (Except.ok.inj hnonce) happ hpkg hverified
  have hsign : ∃ es, Run (nonceStep env svc)
      (NonceState.goto { s with redis := redis } i (.scored d)) es
      (NonceState.goto { s with redis := redis, store := storeₖ } i (.signed d token)) :=
    exists_run_signingKey hkey hsigned
  have hcreate : nonceStep env svc
      (NonceState.goto { s with redis := redis, store := storeₖ } i (.signed d token))
        (.createSession i) =
      some { s with
        redis := redis
        store := store
        created := s.created ++ [d.created env token] } := by
    replace hsession : storeₖ.createTrustSession (sessionOf env d.claims token) = .ok store :=
      hsession
    simp only [nonceStep, calls_goto, goto_goto, store_goto, hsession]
    rw [goto_idle (by exact hidle)]
    rfl
  obtain ⟨es, hscored⟩ := hscored
  obtain ⟨es', hsign⟩ := hsign
  exact ⟨_, d.created env token, rfl, hscored.append (hsign.append (.cons hcreate (.nil _)))⟩

/-! ## The whole run -/

theorem attest_eq_self (hlook : s.redis.lookup (nonceKey m.tenantId m.nonce) ≠ some m.appId)
    (hstep : nonceStep env svc s (.attest i m) = some s') : s' = s ∧ s.calls i = .idle := by
  simp only [nonceStep] at hstep
  split at hstep
  · next hidle =>
    rw [consume_eq] at hstep
    split at hstep
    · exact ⟨(Option.some.inj hstep).symm, hidle⟩
    · exact ⟨(Option.some.inj hstep).symm, hidle⟩
  · cases hstep

structure NonceState.Initial (s : NonceState) : Prop where
  redis : ∀ tenantID nonce, s.redis.lookup (nonceKey tenantID nonce) = none
  calls : ∀ i, s.calls i = .idle
  issued : s.issued = []
  created : s.created = []

theorem NonceState.Initial.once (h : s.Initial) : s.tickets.Once := by
  refine Tickets.Once.empty (fun x hx => ?_) (fun i => ?_) ?_
  · cases (h.redis x.tenantID x.nonce).symm.trans hx
  · show (s.calls i).ticket = none
    rw [h.calls i]
    rfl
  · show s.created.map _ = []
    rw [h.created]
    rfl

theorem eq_ticketOf_of_lookup (h : s.tickets.Once) {x : Ticket} {issued : List Ticket}
    (hgrows : s.issued <+: issued) (hdistinct : (issued.map Ticket.nonce).Nodup) (hx : x ∈ issued)
    (hnonce : x.nonce = m.nonce)
    (hlook : s.redis.lookup (nonceKey m.tenantId m.nonce) = some m.appId) : x = ticketOf m := by
  have hmem : ticketOf m ∈ s.issued := h.offered_mem hlook
  exact List.inj_on_of_nodup_map hdistinct hx (hgrows.subset hmem) hnonce

/--
**One token per nonce.** In any interleaving of `GetNonce` and `VerifyAttestation`, at most one
session is created for requests with a given nonce, and it is for the tenant and the app that the
nonce was issued to. A request that presents it for another scope changes nothing.
-/
theorem session_per_nonce {es : List (Event NonceState NonceAction)} (hstart : s.Initial)
    (hrun : Run (nonceStep env svc) s es t) (hdistinct : (t.issued.map Ticket.nonce).Nodup) :
    (∀ nonce, (t.created.filter fun c => c.request.nonce = nonce).length ≤ 1) ∧
    (∀ c ∈ t.created, ∀ x ∈ t.issued, x.nonce = c.request.nonce →
      c.request.tenantId = x.tenantID ∧ c.request.appId = x.appID ∧
        c.session.tenantID = x.tenantID ∧ c.session.appID = x.appID) ∧
    (∀ c ∈ t.created, ∃ x ∈ t.issued, x.nonce = c.request.nonce) ∧
    ∀ e ∈ es, ∀ i m, e.action = .attest i m → ∀ x ∈ t.issued, x.nonce = m.nonce →
      (m.tenantId ≠ x.tenantID ∨ m.appId ≠ x.appID) →
      e.after = e.before ∧ e.after.calls i = .idle := by
  have hgrows := hrun.grows (f := NonceState.issued) fun hs => (nonceStep_move hs).issued_grows
  -- The nonces that were issued up to some state are among all of them.
  have hkeep : ∀ {s a s'}, ((s.issued.map Ticket.nonce).Nodup → s.tickets.Once) → True →
      nonceStep env svc s a = some s' → (s'.issued.map Ticket.nonce).Nodup → s'.tickets.Once := by
    intro s a s' h _ hs hdistinct'
    have hmove := nonceStep_move hs
    exact hmove.once (h ((hmove.issued_grows.map _).nodup hdistinct')) hdistinct'
  have honce : t.tickets.Once :=
    (hrun.keeps (C := fun _ _ => True) hkeep (fun _ => hstart.once) fun _ _ => trivial).1 hdistinct
  have hbefore := hrun.keeps_before (C := fun _ _ => True) hkeep (fun _ => hstart.once)
    fun _ _ => trivial
  have hissued : ∀ c ∈ t.created, ticketOf c.request ∈ t.issued := fun c hc =>
    honce.used_mem (List.mem_map.mpr ⟨c, hc, rfl⟩)
  refine ⟨?_, ?_, fun c hc => ⟨_, hissued c hc, rfl⟩, ?_⟩
  · intro nonce
    have hnodup : (t.created.map fun c => c.request.nonce).Nodup := by
      have hmap := honce.nodup_map hdistinct
      rw [show t.tickets.used = t.created.map fun c => ticketOf c.request from rfl,
        List.map_map] at hmap
      exact hmap
    have hcount := List.nodup_iff_count_le_one.mp hnodup nonce
    rw [List.count_eq_length_filter, List.filter_map, List.length_map] at hcount
    simpa only [comp_def, beq_eq_decide] using hcount
  · intro c hc x hx hnonce
    have heq : x = ticketOf c.request :=
      List.inj_on_of_nodup_map hdistinct hx (hissued c hc) hnonce
    rw [heq]
    exact ⟨rfl, rfl, c.tenantID_eq, c.appID_eq⟩
  · intro e he i m haction x hx hnonce hother
    obtain ⟨hinv, hstep⟩ := hbefore e he
    have hprior := hgrows.2 e he
    have hlook : e.before.redis.lookup (nonceKey m.tenantId m.nonce) ≠ some m.appId := by
      intro hlook
      have heq := eq_ticketOf_of_lookup (hinv ((hprior.map _).nodup hdistinct)) hprior hdistinct hx
        hnonce hlook
      rw [heq] at hother
      exact hother.elim (fun h => h rfl) fun h => h rfl
    rw [haction] at hstep
    obtain ⟨heq, hidle⟩ := attest_eq_self hlook hstep
    exact ⟨heq, by rw [heq]; exact hidle⟩

end nonces

/-! ## A nonce that three calls present, one of them for another app -/

namespace NonceSample

def env : Env where
  parse _ := none
  sha256 _ := []
  hmac key message := key ++ message
  mint _ _ claims := .ok (utf8 claims.id)
  consumeNonce _ _ _ := .ok true
  verify _ := .ok ⟨true, 0, ""⟩
  fleet := none
  validUUID _ := true

def service : Service := ⟨900, ⟨∅, ∅⟩⟩

def start : NonceState where
  redis := ∅
  store :=
    { apps := (AList.singleton "a" ⟨"a", "t", "com.example"⟩).insert "b" ⟨"b", "t", "com.other"⟩
      policies := ∅
      signing := ∅
      sessions := ∅ }
  calls _ := .idle
  issued := []
  created := []

def request (appID : String) : AttestationRequest where
  tenantId := "t"
  appId := appID
  buildHash := "b"
  policyHash := ""
  riskBitset := 0
  nonce := [1, 2]
  platformAttestationToken := [4]
  platform := .android
  instanceId := "i"

def fresh : Fresh := ⟨1000, "6ba7b810-9dad-11d1-80b4-00c04fd430c8", "", ([7], [8]), "k"⟩

def actions : List NonceAction :=
  [.getNonce 0 ⟨"t", "a"⟩, .issue 0 [1, 2], .attest 1 (request "b"), .attest 2 (request "a"),
    .attest 3 (request "a"), .getApp 2, .verify 2 (.ok ⟨true, 0, ""⟩), .score 2 fresh, .getKey 2,
    .createKey 2 fresh, .createSession 2]

end NonceSample

open NonceSample in
theorem session_per_nonce_sample :
    ∃ es t, Run (nonceStep env service) start es t ∧ es.map Event.action = actions ∧
      (t.created.map fun c => ticketOf c.request) = [⟨"t", "a", [1, 2]⟩] ∧
      (t.created.filter fun c => c.request.nonce = [1, 2]).length ≤ 1 := by
  obtain ⟨es, t, hrun, hes, hissued, hcreated⟩ : ∃ es t, Run (nonceStep env service) start es t ∧
      es.map Event.action = actions ∧ t.issued = [⟨"t", "a", [1, 2]⟩] ∧
      (t.created.map fun c => ticketOf c.request) = [⟨"t", "a", [1, 2]⟩] :=
    exists_run (by decide +kernel)
  have hstart : start.Initial := ⟨fun _ _ => rfl, fun _ => rfl, rfl, rfl⟩
  have hdistinct : (t.issued.map Ticket.nonce).Nodup := by
    rw [hissued]
    decide
  exact ⟨es, t, hrun, hes, hcreated, (session_per_nonce hstart hrun hdistinct).1 [1, 2]⟩

open NonceSample in
theorem exists_run_verifyAttestation_sample :
    ∃ es s t, s.redis = issue ∅ "t" "a" [1, 2] ∧ Run (nonceStep env service) s es t ∧
      t.created.map Created.request = [request "a"] := by
  let s := { start with redis := issue ∅ "t" "a" [1, 2] }
  have hok : (verifyAttestation (env.withNonces s.redis) service s.store fresh
      (request "a")).toOption.any (·.1.accepted) = true := by decide +kernel
  cases h : verifyAttestation (env.withNonces s.redis) service s.store fresh (request "a") with
  | error e =>
    rw [h] at hok
    cases hok
  | ok r =>
    rw [h] at hok
    obtain ⟨es, c, hc, hrun⟩ := exists_run_verifyAttestation (s := s) (i := 0) rfl h hok
    exact ⟨es, s, _, rfl, hrun, congrArg (fun m => [m]) hc⟩

end Kseal.Trust
