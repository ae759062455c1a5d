import DomainKmip.Client
import DomainKmip.Rsa

namespace DomainKmip.PublicKeys

open DomainKmip.Library.RustResult
open DomainKmip.Library.Interaction
open DomainKmip.Domain
open DomainKmip.Kmip
open DomainKmip.Dependencies
open DomainKmip.Errors
open DomainKmip.Client
open DomainKmip.Ecdsa

/-- `Debug` of an option. -/
def debugOption {α : Type} (debug : α → String) : Option α → String
  | none => "None"
  | some a =>
      let inner := debug a
      s!"Some({inner})"

variable (crates : Crates)

/-- The dispatch over DNSSEC algorithm and key format for key material that is a
byte string. -/
def ofBytes (algorithm : SecurityAlgorithm) (keyBlock : KeyBlock) (bytes : List UInt8) :
    Outcome PublicKeyError PublicKey :=
  match algorithm, keyBlock.keyFormatType with
  | .RSASHA1, .PKCS1 | .RSASHA1_NSEC3_SHA1, .PKCS1 | .RSASHA256, .PKCS1
  | .RSASHA512, .PKCS1 => Rsa.parsePkcs1 crates algorithm bytes
  | .RSASHA1, .X509 | .RSASHA1_NSEC3_SHA1, .X509 | .RSASHA256, .X509
  | .RSASHA512, .X509 => Rsa.parseX509 crates algorithm bytes
  | .ECDSAP256SHA256, .X509 => Ecdsa.parseX509 crates algorithm bytes
  | .ECDSAP384SHA384, .Raw | .ECDSAP384SHA384, .X509 => Ecdsa.parseX509 crates algorithm bytes
  | .ED448, .Raw | .ED25519, .Raw => .ok { algorithm, publicKey := bytes }
  | _, keyFormatType =>
      let name := crates.displayAlgorithm algorithm
      let format := crates.displayKeyFormatType keyFormatType
      let alg := debugOption String.quote
        (keyBlock.cryptographicAlgorithm.map crates.displayCryptographicAlgorithm)
      let len := debugOption toString keyBlock.cryptographicLength
      .err (.Kmip s!"Unsupported public key format type for {name}: {format} (alg={alg}, len={len})")

def ofManagedObject (algorithm : SecurityAlgorithm) (object : ManagedObject) :
    Outcome PublicKeyError PublicKey :=
  match object with
  | .PublicKey keyBlock =>
      match keyBlock.keyMaterial with
      | .Bytes bytes => ofBytes crates algorithm keyBlock bytes
      | .TransparentRSAPublicKey modulus publicExponent => do
          let publicKey ← Outcome.unwrap (crates.rsaEncode publicExponent modulus)
          .ok { algorithm, publicKey }
      | mat =>
          let text := crates.displayKeyMaterial mat
          .err (.Kmip s!"Unsupported public key material format: {text}")
  | object =>
      let text := crates.displayManagedObject object
      .err (.Kmip s!"Expected KMIP PublicKey but received: {text}")

def forKeyIdAndDnssecAlgorithm (publicKeyId : String) (algorithm : SecurityAlgorithm)
    (connPool : ConnPool) : Action PublicKeyError PublicKey :=
  Action.withClient connPool
    (fun err =>
      let text := crates.displayConnError err
      PublicKeyError.ofNetError crates (.ServerError
        s!"Error while attempting to acquire KMIP connection from pool: {text}"))
    do
      let res ← Action.getKey connPool publicKeyId
      let object ← Action.lift (Outcome.ofExcept (PublicKeyError.ofNetError crates) res)
      Action.lift (ofManagedObject crates algorithm object)

/-- The DNSKEY record of a key; panics where `Dnskey::new` fails. -/
def dnskey {ε : Type} (key : PublicKey) (flags : UInt16) : Outcome ε Dnskey :=
  Outcome.unwrap (Dnskey.new flags 3 key.algorithm key.publicKey)

end DomainKmip.PublicKeys
