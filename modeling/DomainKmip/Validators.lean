import DomainKmip.Kmip
import DomainKmip.Library.RsaField

namespace DomainKmip.Validators

open DomainKmip.Library.BigEndian
open DomainKmip.Library.RsaField
open DomainKmip.Domain
open DomainKmip.Kmip

/-- Which signatures of some data there are under a public key: RSA with the padding of
PKCS #1, ECDSA on the numbers of a point and of a signature, EdDSA on octets. -/
structure Schemes where
  rsa : HashingAlgorithm → (modulus exponent : Nat) → (data signature : Octets) → Prop
  ecdsa : RecommendedCurve → HashingAlgorithm → (x y : Nat) → (data : Octets) → (r s : Nat) → Prop
  ed25519 : (point data signature : Octets) → Prop
  ed448 : (point data signature : Octets) → Prop

/-- The octets of a coordinate. -/
def coordLen : RecommendedCurve → Nat
  | .P_256 => 32
  | .P_384 => 48

variable (schemes : Schemes)

/-- The numbers count, with or without leading zeros. -/
def ValidatesRsa (hash : HashingAlgorithm) (publicKey data signature : Octets) : Prop :=
  ∃ exponent modulus, readRfc3110 publicKey = some (exponent, modulus) ∧
    schemes.rsa hash (value modulus) (value exponent) data signature

def ValidatesEcdsa (curve : RecommendedCurve) (hash : HashingAlgorithm)
    (publicKey data signature : Octets) : Prop :=
  publicKey.length = 2 * coordLen curve ∧
    schemes.ecdsa curve hash (value (publicKey.take (coordLen curve)))
      (value (publicKey.drop (coordLen curve))) data (value (signature.take (coordLen curve)))
      (value (signature.drop (coordLen curve)))

/-- The signature is one of the key's algorithm and holds under the key. -/
def ValidatesUnder (algorithm : SecurityAlgorithm) (publicKey data : Octets) : Signature → Prop
  | .RsaSha256 octets => algorithm = .RSASHA256 ∧ ValidatesRsa schemes .SHA256 publicKey data octets
  | .RsaSha512 octets => algorithm = .RSASHA512 ∧ ValidatesRsa schemes .SHA512 publicKey data octets
  | .EcdsaP256Sha256 octets =>
      algorithm = .ECDSAP256SHA256 ∧ ValidatesEcdsa schemes .P_256 .SHA256 publicKey data octets
  | .EcdsaP384Sha384 octets =>
      algorithm = .ECDSAP384SHA384 ∧ ValidatesEcdsa schemes .P_384 .SHA384 publicKey data octets
  | .Ed25519 octets =>
      algorithm = .ED25519 ∧ publicKey.length = 32 ∧ schemes.ed25519 publicKey data octets
  | .Ed448 octets =>
      algorithm = .ED448 ∧ publicKey.length = 57 ∧ schemes.ed448 publicKey data octets

def Validates (dnskey : Dnskey) (data : Octets) (signature : Signature) : Prop :=
  dnskey.protocol = 3 ∧
    ValidatesUnder schemes dnskey.algorithm dnskey.publicKey data signature

end DomainKmip.Validators
