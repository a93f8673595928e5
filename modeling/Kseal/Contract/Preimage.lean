import Kseal.Device.KillSwitch
import Kseal.Device.Proof
import Kseal.Server.Audit
import Kseal.Server.Config
import Kseal.Server.KillSwitch
import Kseal.Server.Trust

/-!
# What is signed, tagged and hashed

All four kinds of messages start with a field of their own, and every field after it has a fixed
width or comes after its length (`Message.same_of_preimage_eq`).
-/

namespace Kseal.Contract

open Infra Wire Device

inductive Message where
  | requestProof (tokenId : String) (requestHash nonce : Bytes) (seq : Int64)
  | signedConfig (version ttlSeconds : Int64) (keyId : String) (configBytes : Bytes)
  | killSwitch (ks : SignedKillSwitch)
  | audit (tenantID : String) (seq : Int64) (e : Audit.Entry) (createdAtMillis : Int64)
      (prevHash : String)

namespace Message

def goPreimage : Message → Option Bytes
  | requestProof tokenId requestHash nonce seq =>
    Trust.requestProofPreimage tokenId requestHash nonce seq
  | signedConfig version ttlSeconds keyId configBytes =>
    Config.signedConfigPreimage version ttlSeconds keyId configBytes
  | killSwitch ks => some (Compliance.killSwitchPreimage ks)
  | audit tenantID seq e createdAtMillis prevHash =>
    some (Audit.auditPreimage tenantID seq e createdAtMillis prevHash)

def rustPreimage : Message → Option Bytes
  | requestProof tokenId requestHash nonce seq =>
    some (proofPreimage tokenId requestHash nonce seq)
  | signedConfig version ttlSeconds keyId configBytes =>
    some (signedConfigPreimage version ttlSeconds keyId configBytes)
  | killSwitch ks => some (killSwitchPreimage ks)
  | audit .. => none

def Short : Message → Prop
  | requestProof tokenId requestHash nonce _ =>
    (utf8 tokenId).length < 2 ^ 32 ∧ requestHash.length < 2 ^ 32 ∧ nonce.length < 2 ^ 32
  | signedConfig _ _ keyId configBytes =>
    (utf8 keyId).length < 2 ^ 32 ∧ configBytes.length < 2 ^ 32
  | killSwitch ks =>
    (utf8 ks.tenantId).length < 2 ^ 32 ∧ (utf8 ks.appId).length < 2 ^ 32 ∧
      (utf8 ks.buildHash).length < 2 ^ 32 ∧ (utf8 ks.reason).length < 2 ^ 32
  | audit tenantID _ e _ prevHash =>
    (utf8 tenantID).length < 2 ^ 32 ∧ Audit.ShortEntry e ∧ (utf8 prevHash).length < 2 ^ 32

structure SameSwitch (ks ks' : SignedKillSwitch) : Prop where
  tenantId : ks.tenantId = ks'.tenantId
  appId : ks.appId = ks'.appId
  buildHash : ks.buildHash = ks'.buildHash
  command : ks.command.toInt32 = ks'.command.toInt32
  version : ks.version = ks'.version
  issuedAt : ks.issuedAt = ks'.issuedAt
  reason : ks.reason = ks'.reason

def Same : Message → Message → Prop
  | requestProof tokenId requestHash nonce seq, requestProof tokenId' requestHash' nonce' seq' =>
    tokenId = tokenId' ∧ requestHash = requestHash' ∧ nonce = nonce' ∧ seq = seq'
  | signedConfig version ttl keyId configBytes, signedConfig version' ttl' keyId' configBytes' =>
    version = version' ∧ ttl = ttl' ∧ keyId = keyId' ∧ configBytes = configBytes'
  | killSwitch ks, killSwitch ks' => SameSwitch ks ks'
  | audit tenantID seq e created prevHash, audit tenantID' seq' e' created' prevHash' =>
    tenantID = tenantID' ∧ seq = seq' ∧ Audit.SameEntry e e' ∧ created = created' ∧
      prevHash = prevHash'
  | _, _ => False

/-! ## The two sides agree -/

def preimage : Message → Bytes
  | requestProof tokenId requestHash nonce seq =>
    proofPreimage tokenId requestHash nonce seq
  | signedConfig version ttlSeconds keyId configBytes =>
    signedConfigPreimage version ttlSeconds keyId configBytes
  | killSwitch ks => killSwitchPreimage ks
  | audit tenantID seq e createdAtMillis prevHash =>
    Audit.auditPreimage tenantID seq e createdAtMillis prevHash

theorem signedConfigPreimage_eq {keyId : String} {configBytes : Bytes}
    (hkey : (utf8 keyId).length < 2 ^ 32) (hbytes : configBytes.length < 2 ^ 32)
    (version ttlSeconds : Int64) :
    Config.signedConfigPreimage version ttlSeconds keyId configBytes =
      some (signedConfigPreimage version ttlSeconds keyId configBytes) := by
  have hdomain : Config.signedConfigDomain.length < 2 ^ 32 := by decide
  simp only [Config.signedConfigPreimage, pushLP_of_lt hkey,
    pushLP_of_lt hbytes]
  rfl

/-- **The server does not panic on short fields, and builds these bytes.** -/
theorem goPreimage_eq {m : Message} (hm : m.Short) : m.goPreimage = some m.preimage := by
  cases m with
  | requestProof tokenId requestHash nonce seq =>
    exact Trust.requestProofPreimage_eq hm.1 hm.2.1 hm.2.2 seq
  | signedConfig version ttlSeconds keyId configBytes =>
    exact signedConfigPreimage_eq hm.1 hm.2 version ttlSeconds
  | killSwitch ks => rfl
  | audit => rfl

/-! ## The bytes determine the message -/

inductive Kind where
  | requestProof
  | signedConfig
  | killSwitch
  | audit

def kind : Message → Kind
  | requestProof .. => .requestProof
  | signedConfig .. => .signedConfig
  | killSwitch .. => .killSwitch
  | audit .. => .audit

def Kind.domain : Kind → Bytes
  | requestProof => proofDomain
  | signedConfig => signedConfigDomain
  | killSwitch => killSwitchDomain
  | audit => Audit.auditDomain

theorem Kind.domain_injective {k k' : Kind} (h : k.domain = k'.domain) : k = k' := by
  cases k <;> cases k' <;> first | rfl | exact absurd h (by decide +kernel)

theorem Kind.length_domain_lt (k : Kind) : k.domain.length < 2 ^ 32 := by
  cases k <;> decide +kernel

def body : Message → Bytes
  | requestProof tokenId requestHash nonce seq =>
    lp (utf8 tokenId) ++ (lp requestHash ++ (lp nonce ++ i64Be seq))
  | signedConfig version ttlSeconds keyId configBytes =>
    i64Be version ++ (i64Be ttlSeconds ++ (lp (utf8 keyId) ++ lp configBytes))
  | killSwitch ks =>
    lp (utf8 ks.tenantId) ++ (lp (utf8 ks.appId) ++ (lp (utf8 ks.buildHash) ++
      (i64Be ks.command.toInt32.toInt64 ++ (i64Be ks.version ++ (i64Be ks.issuedAt ++
      lp (utf8 ks.reason))))))
  | audit tenantID seq e created prevHash =>
    lp (utf8 tenantID) ++ Audit.auditFields seq e created prevHash

theorem preimage_eq (m : Message) : m.preimage = lp m.kind.domain ++ m.body := by
  cases m <;> simp only [preimage, kind, Kind.domain, body, proofPreimage,
    signedConfigPreimage, killSwitchPreimage, Audit.auditPreimage_eq, List.append_assoc]

theorem command_eq {c c' : KillSwitchCommand} (h : c.toInt32.toInt64 = c'.toInt32.toInt64) :
    c.toInt32 = c'.toInt32 := by
  rw [← Int32.toInt32_toInt64 c.toInt32, h, Int32.toInt32_toInt64]

/-- **Within a kind, what follows the first field determines the fields.** -/
theorem same_of_body_eq {m m' : Message} (hm : m.Short) (hm' : m'.Short) (hkind : m.kind = m'.kind)
    (h : m.body = m'.body) : m.Same m' := by
  cases m <;> cases m' <;> cases hkind
  case requestProof.requestProof =>
    obtain ⟨htoken, h⟩ := lp_append_inj_of_lt hm.1 hm'.1 h
    obtain ⟨hhash, h⟩ := lp_append_inj_of_lt hm.2.1 hm'.2.1 h
    obtain ⟨hnonce, h⟩ := lp_append_inj_of_lt hm.2.2 hm'.2.2 h
    exact ⟨utf8_injective htoken, hhash, hnonce, i64Be_inj h⟩
  case signedConfig.signedConfig =>
    obtain ⟨hversion, h⟩ := i64Be_append_inj h
    obtain ⟨httl, h⟩ := i64Be_append_inj h
    obtain ⟨hkey, h⟩ := lp_append_inj_of_lt hm.1 hm'.1 h
    exact ⟨hversion, httl, utf8_injective hkey, lp_inj hm.2 hm'.2 h⟩
  case killSwitch.killSwitch =>
    obtain ⟨htenant, happ, hbuild, hreason⟩ := hm
    obtain ⟨htenant', happ', hbuild', hreason'⟩ := hm'
    obtain ⟨htenant, h⟩ := lp_append_inj_of_lt htenant htenant' h
    obtain ⟨happ, h⟩ := lp_append_inj_of_lt happ happ' h
    obtain ⟨hbuild, h⟩ := lp_append_inj_of_lt hbuild hbuild' h
    obtain ⟨hcommand, h⟩ := i64Be_append_inj h
    obtain ⟨hversion, h⟩ := i64Be_append_inj h
    obtain ⟨hissued, h⟩ := i64Be_append_inj h
    exact
      { tenantId := utf8_injective htenant
        appId := utf8_injective happ
        buildHash := utf8_injective hbuild
        command := command_eq hcommand
        version := hversion
        issuedAt := hissued
        reason := utf8_injective (lp_inj hreason hreason' h) }
  case audit.audit =>
    obtain ⟨htenant, hentry, hprev⟩ := hm
    obtain ⟨htenant', hentry', hprev'⟩ := hm'
    obtain ⟨htenant, h⟩ := lp_append_inj_of_lt htenant htenant' h
    exact ⟨utf8_injective htenant, Audit.auditFields_inj hentry hentry' hprev hprev' h⟩

/-- **The bytes determine the kind and the fields.** -/
theorem same_of_preimage_eq {m m' : Message} (hm : m.Short) (hm' : m'.Short)
    (h : m.preimage = m'.preimage) : m.Same m' := by
  rw [preimage_eq, preimage_eq] at h
  obtain ⟨hdomain, hbody⟩ := lp_append_inj_of_lt m.kind.length_domain_lt m'.kind.length_domain_lt h
  exact same_of_body_eq hm hm' (Kind.domain_injective hdomain) hbody

end Message

/-! ## Both together -/

/--
**Preimages are unambiguous and the same on both sides.** On short fields the device builds the
bytes of the server, and two messages with the same bytes are the same message.
-/
theorem preimages_unambiguous (m m' : Message) (hm : m.Short) (hm' : m'.Short) :
    (∃ bytes, m.goPreimage = some bytes) ∧
      (∀ bytes, m.rustPreimage = some bytes → m.goPreimage = some bytes) ∧
      (m.goPreimage = m'.goPreimage → m.Same m') := by
  rw [Message.goPreimage_eq hm, Message.goPreimage_eq hm']
  refine ⟨⟨m.preimage, rfl⟩, ?_, ?_⟩
  · intro bytes hbytes
    cases m with
    | audit => cases hbytes
    | _ => exact hbytes
  · intro h
    exact Message.same_of_preimage_eq hm hm' (Option.some.inj h)

theorem preimages_unambiguous_sample :
    (Message.requestProof "tok-1" [1, 2] [3] 7).rustPreimage =
        (Message.requestProof "tok-1" [1, 2] [3] 7).goPreimage ∧
      (Message.requestProof "tok-1" [1, 2] [3] 7).goPreimage ≠
        (Message.signedConfig 7 300 "k1" [1, 2]).goPreimage := by
  have hproof : (Message.requestProof "tok-1" [1, 2] [3] 7).Short := by
    refine ⟨?_, ?_, ?_⟩ <;> decide
  have hconfig : (Message.signedConfig 7 300 "k1" [1, 2]).Short := by
    refine ⟨?_, ?_⟩ <;> decide
  obtain ⟨-, hagree, hsame⟩ := preimages_unambiguous _ _ hproof hconfig
  exact ⟨(hagree _ rfl).symm, fun h => hsame h⟩

end Kseal.Contract
