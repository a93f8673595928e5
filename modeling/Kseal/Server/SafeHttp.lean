import Kseal.Infra.Bytes
import Kseal.Infra.Run

/-!
# Outgoing requests (`shared/safehttp`)

A dial is refused unless all addresses of its host are public; the transport remembers the address
of every proxy that the proxy function returns, and dials these unguarded. The answers of the proxy
function, of the resolver and of the network are part of the actions (`connections_safe_iff`).
-/

namespace Kseal.SafeHttp

open Infra List

/-! ## Public addresses -/

abbrev IP := Bytes

def to4 : IP → Option (UInt8 × UInt8 × UInt8 × UInt8)
  | [a, b, c, d] => some (a, b, c, d)
  | [0, 0, 0, 0, 0, 0, 0, 0, 0, 0, 0xff, 0xff, a, b, c, d] => some (a, b, c, d)
  | _ => none

def byFamily (ip : IP) (v4 : UInt8 → UInt8 → UInt8 → UInt8 → Bool) (v6 : UInt8 → UInt8 → Bool) :
    Bool :=
  match to4 ip with
  | some (a, b, c, d) => v4 a b c d
  | none =>
    match ip with
    | a :: b :: rest => rest.length == 14 && v6 a b
    | _ => false

def isUnspecified (ip : IP) : Bool := to4 ip == some (0, 0, 0, 0) || ip == List.replicate 16 0

def isLoopback (ip : IP) : Bool :=
  byFamily ip (fun a _ _ _ => a == 127) fun _ _ => ip == List.replicate 15 0 ++ [1]

def isLinkLocalUnicast (ip : IP) : Bool :=
  byFamily ip (fun a b _ _ => a == 169 && b == 254) fun a b => a == 0xfe && b &&& 0xc0 == 0x80

def isLinkLocalMulticast (ip : IP) : Bool :=
  byFamily ip (fun a b c _ => a == 224 && b == 0 && c == 0) fun a b => a == 0xff && b &&& 0x0f == 2

def isMulticast (ip : IP) : Bool :=
  byFamily ip (fun a _ _ _ => a &&& 0xf0 == 0xe0) fun a _ => a == 0xff

def isInterfaceLocalMulticast (ip : IP) : Bool :=
  byFamily ip (fun _ _ _ _ => false) fun a b => a == 0xff && b &&& 0x0f == 1

def isPrivate (ip : IP) : Bool :=
  byFamily ip
    (fun a b _ _ => a == 10 || (a == 172 && b &&& 0xf0 == 16) || (a == 192 && b == 168))
    fun a _ => a &&& 0xfe == 0xfc

def isReserved4 (a b c : UInt8) : Bool :=
  (a == 100 && b ≥ 64 && b < 128) || (a == 192 && b == 0 && c == 0) ||
    (a == 192 && b == 0 && c == 2) || (a == 198 && b == 51 && c == 100) ||
    (a == 203 && b == 0 && c == 113) || (a == 198 && (b == 18 || b == 19)) ||
    (a == 192 && b == 88 && c == 99)

def isPublicIP (ip : IP) : Bool :=
  if ip = [] then false
  else if isLoopback ip || isUnspecified ip || isLinkLocalUnicast ip || isLinkLocalMulticast ip ||
      isMulticast ip || isInterfaceLocalMulticast ip || isPrivate ip then false
  else
    match to4 ip with
    | some (a, b, c, _) => !isReserved4 a b c
    | none => !(ip.length == 16 && ip.take 4 == [0x20, 0x01, 0x0d, 0xb8])

/-! ## Dialing -/

inductive DialError where
  | lookup (e : String)
  | dial (e : String)
  | blockedAddress
deriving Repr, DecidableEq

structure Network where
  /-- the answer of the resolver for the host, or the error that there is none -/
  ips : Except String (List IP)
  /-- the error of connecting to an address, if there is one -/
  refuses : IP → Option String
  /-- which of the addresses that accept is taken, if the dialer is left to choose -/
  choice : Nat

def dialEach (refuses : IP → Option String) : DialError → List IP → Except DialError IP
  | lastErr, [] => .error lastErr
  | _, ip :: ips =>
    match refuses ip with
    | some e => dialEach refuses (.dial e) ips
    | none => .ok ip

def guardedDial (net : Network) : Except DialError IP :=
  match net.ips with
  | .error e => .error (.lookup e)
  | .ok ips =>
    if ips.any fun ip => !isPublicIP ip then .error .blockedAddress
    else dialEach net.refuses .blockedAddress ips

def baseDial (net : Network) : Except DialError IP :=
  match net.ips with
  | .error e => .error (.lookup e)
  | .ok ips =>
    match (ips.filter fun ip => (net.refuses ip).isNone)[net.choice]? with
    | some ip => .ok ip
    | none => .error (.dial "connect")

variable {ip : IP}

theorem mem_of_dialEach {refuses : IP → Option String} {lastErr : DialError} {ips : List IP}
    (h : dialEach refuses lastErr ips = .ok ip) : ip ∈ ips := by
  induction ips generalizing lastErr with
  | nil => cases h
  | cons ip' ips ih =>
    unfold dialEach at h
    split at h
    · exact mem_cons_of_mem _ (ih h)
    · cases h
      exact mem_cons_self

variable {net : Network}

/-- **The guard lets public addresses through only.** -/
theorem guardedDial_public (h : guardedDial net = .ok ip) :
    isPublicIP ip := by
  unfold guardedDial at h
  split at h
  · cases h
  · next ips _ =>
    split at h
    · cases h
    · next hall =>
      simp only [any_eq_true, Bool.not_eq_true', not_exists, not_and,
        Bool.not_eq_false] at hall
      exact hall ip (mem_of_dialEach h)

/-! ## The transport -/

structure ProxyURL where
  scheme : String
  hostname : String
  port : String
deriving DecidableEq

def joinHostPort (host port : String) : String :=
  if host.toList.contains ':' then "[" ++ host ++ "]:" ++ port else host ++ ":" ++ port

def proxyDialAddr (u : ProxyURL) : String :=
  let port :=
    if u.port = "" then
      match u.scheme with
      | "http" => "80"
      | "https" => "443"
      | "socks5" | "socks5h" => "1080"
      | _ => u.port
    else u.port
  joinHostPort u.hostname port

structure Pending where
  /-- the `host:port` of the request -/
  target : String
  proxy : Option ProxyURL
deriving DecidableEq

structure Conn where
  request : Pending
  ip : IP
deriving DecidableEq

structure Transport where
  /-- `proxyAddrSet` -/
  allow : List String
  pending : List Pending
  conns : List Conn
deriving DecidableEq

def Transport.init : Transport := ⟨[], [], []⟩

inductive Action where
  /-- the transport asks the proxy function about a request to `target` -/
  | askProxy (target : String) (answer : Except String (Option ProxyURL))
  /-- the transport dials for a request it has asked about -/
  | dial (i : Nat) (net : Network)

section transport

variable (canonicalAddr : ProxyURL → String)

def Pending.addr (p : Pending) : String :=
  match p.proxy with
  | some u => canonicalAddr u
  | none => p.target

def Transport.dialContext (t : Transport) (addr : String) (net : Network) : Except DialError IP :=
  if addr ∈ t.allow then baseDial net else guardedDial net

def Transport.step (t : Transport) : Action → Option Transport
  | .askProxy _ (.error _) => some t
  | .askProxy target (.ok none) => some { t with pending := t.pending ++ [⟨target, none⟩] }
  | .askProxy target (.ok (some u)) =>
    some { t with
      allow := if proxyDialAddr u ∈ t.allow then t.allow else proxyDialAddr u :: t.allow
      pending := t.pending ++ [⟨target, some u⟩] }
  | .dial i net =>
    match t.pending[i]? with
    | none => none
    | some p =>
      match t.dialContext (p.addr canonicalAddr) net with
      | .error _ => some { t with pending := t.pending.eraseIdx i }
      | .ok ip => some { t with
          pending := t.pending.eraseIdx i
          conns := t.conns ++ [⟨p, ip⟩] }

end transport

/-! ## Which addresses are dialed unguarded -/

variable {canonicalAddr : ProxyURL → String}

variable {t t' : Transport}

theorem step_dial {i : Nat} (h : t.step canonicalAddr (.dial i net) = some t') :
    ∃ p, t.pending[i]? = some p ∧
      ((∃ e, t.dialContext (p.addr canonicalAddr) net = .error e) ∧
          t' = { t with pending := t.pending.eraseIdx i } ∨
        ∃ ip, t.dialContext (p.addr canonicalAddr) net = .ok ip ∧
          t' = { t with pending := t.pending.eraseIdx i, conns := t.conns ++ [⟨p, ip⟩] }) := by
  simp only [Transport.step] at h
  split at h
  · cases h
  · next p hp =>
    refine ⟨p, hp, ?_⟩
    split at h
    · next e he => exact .inl ⟨⟨e, he⟩, (Option.some.inj h).symm⟩
    · next ip hip => exact .inr ⟨ip, hip, (Option.some.inj h).symm⟩

/-! ## Connections -/

def Conn.Safe (c : Conn) : Prop := isPublicIP c.ip ∨ c.request.proxy ≠ none

/--
A dial for a request without a proxy does not go to the address of a proxy that was returned before,
or it gets to a public address there.
-/
def Guarded (t : Transport) : Action → Prop
  | .askProxy .. => True
  | .dial i net => ∀ p, t.pending[i]? = some p → p.proxy = none → p.target ∈ t.allow →
      ∀ ip, baseDial net = .ok ip → isPublicIP ip

theorem dialContext_direct {p : Pending} (hdirect : p.proxy = none) (t : Transport) (net : Network) :
    t.dialContext (p.addr canonicalAddr) net =
      if p.target ∈ t.allow then baseDial net else guardedDial net := by
  rw [Transport.dialContext, Pending.addr, hdirect]

variable {a : Action}

theorem safe_step_iff (hsafe : ∀ c ∈ t.conns, c.Safe) (h : t.step canonicalAddr a = some t') :
    (∀ c ∈ t'.conns, c.Safe) ↔ Guarded t a := by
  cases a with
  | askProxy target answer =>
    have hconns : t'.conns = t.conns := by
      match answer with
      | .error _ | .ok none | .ok (some _) => cases h; rfl
    rw [hconns]
    exact ⟨fun _ => trivial, fun _ => hsafe⟩
  | dial i net =>
    obtain ⟨p, hp, hcase⟩ := step_dial h
    have hguarded : Guarded t (.dial i net) ↔ (p.proxy = none → p.target ∈ t.allow →
        ∀ ip, baseDial net = .ok ip → isPublicIP ip) := by
      simp only [Guarded, hp, Option.some.injEq, forall_eq']
    rw [hguarded]
    rcases hcase with ⟨⟨e, hdial⟩, rfl⟩ | ⟨ip, hdial, rfl⟩
    · refine ⟨fun _ hdirect hallow ip hip => ?_, fun _ => hsafe⟩
      rw [dialContext_direct hdirect, if_pos hallow, hip] at hdial
      cases hdial
    · have hnew : (∀ c ∈ t.conns ++ [⟨p, ip⟩], c.Safe) ↔ (isPublicIP ip ∨ p.proxy ≠ none) := by
        constructor
        · exact fun hall => hall ⟨p, ip⟩ (by simp)
        · intro hnew c hc
          rcases mem_append.mp hc with hc | hc
          · exact hsafe c hc
          · rw [mem_singleton.mp hc]
            exact hnew
      rw [hnew]
      constructor
      · intro hsafe' hdirect hallow ip' hip'
        rw [dialContext_direct hdirect, if_pos hallow, hip'] at hdial
        cases hdial
        exact hsafe'.resolve_right (fun hne => hne hdirect)
      · intro hall
        by_cases hdirect : p.proxy = none
        · rw [dialContext_direct hdirect] at hdial
          split at hdial
          · next hallow => exact .inl (hall hdirect hallow ip hdial)
          · exact .inl (guardedDial_public hdial)
        · exact .inr hdirect

/--
**When no connection gets around the guard.** In every run, all connections are safe if and only if
no request without a proxy is dialed at the address of a proxy that another request got, where this
reaches an address that is not public.
-/
theorem connections_safe_iff {t : Transport} {es : List (Event Transport Action)}
    (hrun : Run (Transport.step canonicalAddr) .init es t) :
    (∀ e ∈ es, ∀ c ∈ e.after.conns, c.Safe) ↔ ∀ e ∈ es, Guarded e.before e.action := by
  have hinv : ∀ {t a t'}, (fun _ : Transport => True) t → t.step canonicalAddr a = some t' →
      (fun _ : Transport => True) t' := fun _ _ => trivial
  exact hrun.always_iff hinv (fun _ hsafe h => safe_step_iff hsafe h) trivial (by simp [Transport.init])

/-! ## A proxy in the private network -/

namespace Sample

def proxy : ProxyURL := ⟨"http", "10.0.0.5", "3128"⟩

def host (ip : IP) : Network := ⟨.ok [ip], fun _ => none, 0⟩

def guardedRun : List Action :=
  [.askProxy "hooks.example.com:443" (.ok (some proxy)), .dial 0 (host [10, 0, 0, 5]),
    .askProxy "status.example.com:443" (.ok none), .dial 0 (host [93, 184, 216, 34])]

def proxyRun : List Action :=
  [.askProxy "hooks.example.com:443" (.ok (some proxy)), .dial 0 (host [10, 0, 0, 5]),
    .askProxy "10.0.0.5:3128" (.ok none), .dial 0 (host [10, 0, 0, 5])]

def check (t : Transport) : Action → Bool
  | .askProxy .. => true
  | .dial i net =>
    match t.pending[i]?, baseDial net with
    | some p, .ok ip => p.proxy != none || !t.allow.contains p.target || isPublicIP ip
    | _, _ => true

theorem guarded_of_check (h : check t a) : Guarded t a := by
  cases a with
  | askProxy => trivial
  | dial i net =>
    intro p hp hdirect hallow ip hip
    simp only [check, hp, hip] at h
    simpa [hdirect, hallow] using h

end Sample

theorem connections_safe_iff_sample :
    ∃ es t, Run (Transport.step proxyDialAddr) .init es t ∧
      (t.conns.map Conn.ip = [[10, 0, 0, 5], [93, 184, 216, 34]]) ∧
      ∀ e ∈ es, ∀ c ∈ e.after.conns, c.Safe := by
  have hexec : (exec (Transport.step proxyDialAddr) Sample.check .init Sample.guardedRun).map
      (fun t => t.conns.map Conn.ip) = some [[10, 0, 0, 5], [93, 184, 216, 34]] := by
    decide +kernel
  obtain ⟨t, ht, hconns⟩ := Option.map_eq_some_iff.mp hexec
  obtain ⟨es, hrun, hcheck, -⟩ := run_of_exec _ _ _ _ ht
  exact ⟨es, t, hrun, hconns,
    (connections_safe_iff hrun).mpr fun e he => Sample.guarded_of_check (hcheck e he)⟩

theorem proxy_address_unguarded :
    ∃ es t, Run (Transport.step proxyDialAddr) .init es t ∧
      ∃ c ∈ t.conns, c.request.proxy = none ∧ isPublicIP c.ip = false := by
  obtain ⟨es, t, hrun, -, hconn⟩ : ∃ es t, Run (Transport.step proxyDialAddr) .init es t ∧
      es.map Event.action = Sample.proxyRun ∧ ⟨⟨"10.0.0.5:3128", none⟩, [10, 0, 0, 5]⟩ ∈ t.conns :=
    exists_run (by decide +kernel)
  exact ⟨es, t, hrun, _, hconn, rfl, by decide⟩

end Kseal.SafeHttp
