import DomainKmip.Ecdsa

namespace DomainKmip.Rsa

open DomainKmip.Library.BigEndian
open DomainKmip.Library.RustResult
open DomainKmip.Library.Der
open DomainKmip.Domain
open DomainKmip.Dependencies
open DomainKmip.Errors
open DomainKmip.Oids
open DomainKmip.Ecdsa

def usesRsa : SecurityAlgorithm → Bool
  | .RSASHA1 | .RSASHA1_NSEC3_SHA1 | .RSASHA256 | .RSASHA512 => true
  | _ => false

variable (crates : Crates)

def takeRsaPublicKey : Decoder (Octets × Octets) :=
  takeSequence do
    let modulus ← mapDerErr crates .Unsigned "modulus" takeUnsigned
    let publicExponent ← mapDerErr crates .Unsigned "public exponent" takeUnsigned
    pure (modulus, publicExponent)

def takeAlgorithmIdentifier : Decoder Unit :=
  takeSequence do
    let algorithm ← mapDerErr crates .Oid "algorithm" takeOid
    if algorithm ≠ RSA_OID.bytes then
      let bytes := crates.debugOid RSA_OID.bytes
      let found := crates.debugOid algorithm
      fail (.content s!"Expected ASN.1 SubjectPublicKeyInfo with algorithm OID '{RSA_OID.dotName}' (id: {RSA_OID.asn1ObjectIdentifier}, bytes: {bytes}) but found: {found}")
    else mapDerErr crates .Null "parameter" takeNull

/-- The key inside the bit string is decoded on its own. -/
def takeSubjectPublicKeyInfo : Decoder (Octets × Octets) :=
  takeSequence do
    mapDerErr crates .Null "algorithm" (takeAlgorithmIdentifier crates)
    let bitString ← mapDerErr crates .BitString "subjectPublicKey" takeBitString
    let octets ← ofOutcome (Outcome.unwrap bitString.octetSlice)
    mapDerErr crates .UnsignedPair "subjectPublicKey" <| ofOutcome <| decode octets <|
      mapDerErr crates .UnsignedPair "modulus exponent sequence" (takeRsaPublicKey crates)

/-- Panics if the algorithm does not use RSA. -/
def parseX509 (algorithm : SecurityAlgorithm) (bytes : Octets) :
    Outcome PublicKeyError PublicKey := do
  Outcome.assert (usesRsa algorithm)
  let (modulus, publicExponent) ←
    (decode bytes (takeSubjectPublicKeyInfo crates)).mapErr fun err =>
      let text := crates.displayDecodeError err
      .InvalidKeyMaterial s!"Unable to parse RSA X.509 SubjectPublicKeyInfo: {text}"
  let publicKey ← Outcome.unwrap (crates.rsaEncode publicExponent modulus)
  .ok { algorithm, publicKey }

/-- Panics if the algorithm does not use RSA. -/
def parsePkcs1 (algorithm : SecurityAlgorithm) (bytes : Octets) :
    Outcome PublicKeyError PublicKey := do
  Outcome.assert (usesRsa algorithm)
  let (modulus, publicExponent) ←
    (decode bytes
      (mapDerErr crates .UnsignedPair "RSAPublicKey" (takeRsaPublicKey crates))).mapErr fun err =>
      let text := crates.displayDecodeError err
      .InvalidKeyMaterial s!"Unable to parse RSA PKCS#1 RSAPublicKey: {text}"
  let publicKey ← Outcome.unwrap (crates.rsaEncode publicExponent modulus)
  .ok { algorithm, publicKey }

end DomainKmip.Rsa
