import Kseal.Infra.Json

/-!
# Messages

The protobuf messages that server and device exchange, and the enumerations in them. An
enumeration is open: a number without a name arrives as `unrecognized` where the code can meet
one.
-/

namespace Kseal.Wire

open Infra

inductive EnforcementMode where
  | unspecified
  | observe
  | stepUp
  | block
  | unrecognized (n : Int32)
deriving DecidableEq

inductive TrustLevel where
  | unspecified
  | trusted
  | lowRisk
  | mediumRisk
  | highRisk
  | critical
deriving Repr, DecidableEq

def TrustLevel.toNat : TrustLevel → Nat
  | .unspecified => 0
  | .trusted => 1
  | .lowRisk => 2
  | .mediumRisk => 3
  | .highRisk => 4
  | .critical => 5

inductive Decision where
  | unspecified
  | allow
  | stepUp
  | deny
deriving Repr, DecidableEq

structure PolicyRule where
  id : String
  riskMask : UInt64
  minScore : UInt32
  action : EnforcementMode
  description : String

structure PolicyConfig where
  rules : List PolicyRule
  riskThresholds : GoMap String UInt32
  defaultMode : EnforcementMode
  modulesEnabled : List String
  signalWeights : GoMap UInt32 UInt32
  policyHash : String
  reattestIntervalSecs : UInt32

structure Policy where
  id : String
  tenantId : String
  appId : String
  name : String
  version : Int32
  enforcementMode : EnforcementMode
  rules : String
  riskThresholds : String
  modulesEnabled : List String
  isActive : Bool
  createdAt : Int64
  updatedAt : Int64

structure SignedConfig where
  configBytes : Bytes
  signature : Bytes
  keyId : String
  version : Int64
  ttlSeconds : Int64

structure ConfigRequest where
  tenantId : String
  appId : String
  instanceId : String
  buildHash : String

inductive KillSwitchCommand where
  | unspecified
  | enable
  | disable
  | unrecognized (n : Int32)
deriving DecidableEq

def KillSwitchCommand.toInt32 : KillSwitchCommand → Int32
  | .unspecified => 0
  | .enable => 1
  | .disable => 2
  | .unrecognized n => n

structure SignedKillSwitch where
  tenantId : String
  appId : String
  buildHash : String
  command : KillSwitchCommand
  version : Int64
  issuedAt : Int64
  reason : String
  signature : Bytes
  keyId : String
deriving DecidableEq

structure AuditEvent where
  tenantId : String
  seq : Int64
  action : String
  resourceType : String
  resourceId : String
  actorKeyId : String
  metadata : GoMap String String
  prevHash : String
  hash : String
  createdAt : Int64

inductive CanaryState where
  | unspecified
  | active
  | promoted
  | rolledBack
deriving Repr, DecidableEq

structure CanaryStatus where
  tenantId : String
  appId : String
  candidatePolicyId : String
  stablePolicyId : String
  percent : UInt32
  state : CanaryState
  blockRate : Float
  sampleCount : Int64
  rollbackThreshold : Float
  lastEvent : String
  updatedAt : Int64

inductive Platform where
  | unspecified
  | android
  | ios
  | unrecognized (n : Int32)
deriving DecidableEq

inductive EventType where
  | unspecified
  | runtimeTamper
  | debugger
  | rootRisk
  | attestationFail
  | networkMitm
  | policyDecision
  | hookingDetected
  | appIntegrityFail
  | environmentRisk
  | screenCapture
  | overlayAbuse
  | accessibilityAbuse
  | maliciousIme
  | remoteAccess
deriving Repr, DecidableEq

structure NonceRequest where
  tenantId : String
  appId : String

structure AttestationRequest where
  tenantId : String
  appId : String
  buildHash : String
  policyHash : String
  riskBitset : UInt64
  nonce : Bytes
  platformAttestationToken : Bytes
  platform : Platform
  instanceId : String

structure TrustToken where
  tokenId : String
  tenantId : String
  appId : String
  buildHash : String
  capabilityScope : List String
  ttlSeconds : Int64
  riskLevel : TrustLevel
  issuedAt : Int64
  expiresAt : Int64
  policyHash : String
  requiredNextChecks : List EventType

structure AttestationResponse where
  trustToken : Option TrustToken
  signedToken : Bytes
  accepted : Bool
  rejectionReason : String

structure RequestProofResult where
  decision : Decision
  reason : String
deriving DecidableEq

structure RequestProof where
  trustTokenId : String
  requestHash : Bytes
  nonce : Bytes
  appInstanceSignature : Bytes
  monotonicSequence : Int64

end Kseal.Wire
