import Kseal.Infra.Framing
import Kseal.Wire.Messages

/-!
# Request proofs on the device (`crypto.rs`, `lib.rs`, and the Android SDK)

The instance key comes from a file in the app's storage, or is generated and written there.
-/

namespace Kseal.Device

open Infra Wire

/-! ## The core -/

def proofDomain : Bytes := ascii "kseal/v1/request-proof"

def proofPreimage (tokenId : String) (requestHash nonce : Bytes) (seq : Int64) : Bytes :=
  lp proofDomain ++ lp (utf8 tokenId) ++ lp requestHash ++ lp nonce ++ i64Be seq

def generateRequestProof (hmac : Bytes → Bytes → Bytes) (key : Bytes) (tokenId : String)
    (requestHash nonce : Bytes) (seq : Int64) : RequestProof where
  trustTokenId := tokenId
  requestHash := requestHash
  nonce := nonce
  appInstanceSignature := hmac key (proofPreimage tokenId requestHash nonce seq)
  monotonicSequence := seq

/-! ## The SDK -/

inductive KeyFile where
  | missing
  | unreadable
  | bytes (key : Bytes)
deriving DecidableEq

/--
`KeystoreProofKeyProvider.proofKey`: the key, and the file from then on.

`generated` is the key that is drawn if none can be read; `writable` says whether it could be
written.
-/
def proofKey (file : KeyFile) (generated : Bytes) (writable : Bool) : Bytes × KeyFile :=
  match file with
  | .bytes key => (key, file)
  | .missing | .unreadable => (generated, if writable then .bytes generated else file)

structure Sdk where
  proofKey : Bytes
  trustTokenId : Option String
  sequence : Int64

def Sdk.init (file : KeyFile) (generated : Bytes) (writable : Bool) : Sdk × KeyFile :=
  let (key, file) := Device.proofKey file generated writable
  (⟨key, none, 0⟩, file)

def Sdk.setTrustToken (sdk : Sdk) (tokenId : String) : Sdk := { sdk with trustTokenId := some tokenId }

inductive SdkError where
  | trustTokenMissing (message : String)
deriving Repr, DecidableEq

def Sdk.getRequestProof (hmac : Bytes → Bytes → Bytes) (sdk : Sdk) (requestHash nonce : Bytes) :
    Except SdkError (RequestProof × Sdk) :=
  match sdk.trustTokenId with
  | none =>
    .error (.trustTokenMissing "no trust token set; complete attestation and call setTrustToken()")
  | some token =>
    let seq := sdk.sequence + 1
    .ok (generateRequestProof hmac sdk.proofKey token requestHash nonce seq,
      { sdk with sequence := seq })

end Kseal.Device
