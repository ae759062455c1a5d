import DomainKmip.Algorithms
import DomainKmip.Errors

namespace DomainKmip.Ecdsa

open DomainKmip.Library.BigEndian
open DomainKmip.Library.RustResult
open DomainKmip.Library.Der
open DomainKmip.Domain
open DomainKmip.Kmip
open DomainKmip.Dependencies
open DomainKmip.Errors
open DomainKmip.Algorithms

structure PublicKey where
  algorithm : SecurityAlgorithm
  publicKey : Octets
  deriving DecidableEq, Repr

def usesEcdsa : SecurityAlgorithm → Bool
  | .ECDSAP256SHA256 | .ECDSAP384SHA384 => true
  | _ => false

variable (crates : Crates)

/-- `map_err` with a message of the parser's own. -/
def labelled {α : Type} (label : String) (op : Decoder α) : Decoder α :=
  mapError (fun err =>
    let text := crates.displayDecodeError err
    .content s!"{label}: {text}") op

def takeAlgorithmIdentifier (algInfo : AlgorithmInfo) (curve : EllipticCurveInfo) :
    Decoder Unit :=
  takeSequence do
    let algorithm ← labelled crates "DER sequence 'algorithm'" takeOid
    if algorithm ≠ algInfo.oid.bytes then
      let name := algInfo.oid.dotName
      let id := algInfo.oid.asn1ObjectIdentifier
      let bytes := crates.debugOid algInfo.oid.bytes
      let found := crates.debugOid algorithm
      fail (.content s!"Expected ASN.1 SubjectPublicKeyInfo with algorithm OID '{name}' (id: {id}, bytes: {bytes}) but found: {found}")
    else
      let namedCurve ← labelled crates "DER oid 'parameters'" takeOid
      if namedCurve ≠ curve.oid.bytes then
        let name := curve.oid.dotName
        let id := curve.oid.asn1ObjectIdentifier
        let bytes := crates.debugOid curve.oid.bytes
        let found := crates.displayOid namedCurve
        fail (.content s!"Expected ASN.1 SubjectPublicKeyInfo with named curve OID '{name}' (id: {id}, bytes: {bytes}, KMIP name: {curve.kmipName}, alt name: {curve.altName}) but found: {found}")
      else pure ()

def takeSubjectPublicKeyInfo (algInfo : AlgorithmInfo) (curve : EllipticCurveInfo) :
    Decoder BitString :=
  takeSequence do
    takeAlgorithmIdentifier crates algInfo curve
    labelled crates "DER bit string 'subjectPublicKey'" takeBitString

/-- Panics if the algorithm does not use ECDSA. -/
def parseX509 (dnsAlgorithm : SecurityAlgorithm) (bytes : Octets) :
    Outcome PublicKeyError PublicKey := do
  Outcome.assert (usesEcdsa dnsAlgorithm)
  let algInfo ← Outcome.unwrap (getAlgInfo dnsAlgorithm)
  let curve ← Outcome.unwrap algInfo.ellipticCurve
  let fixedLen ← Outcome.unwrap algInfo.kmipCryptoFixedLen
  let valueByteLen := fixedLen / 8
  let bits ← (decode bytes (takeSubjectPublicKeyInfo crates algInfo curve)).mapErr fun err =>
    let text := crates.displayDecodeError err
    .InvalidKeyMaterial s!"Failed to parse ECDSA X.509 SubjectPublicKeyInfo: {text}"
  -- compression flag, X value, Y value
  let numExpectedBytes := 1 + valueByteLen + valueByteLen
  match bits.octetSlice with
  | none =>
      .err (.InvalidKeyMaterial s!"Failed to parse ECDSA X.509 SubjectPublicKeyInfo with curve {curve.kmipName}/{curve.altName} bit string: missing octets")
  | some octets =>
      let compressionFlag ← Outcome.unwrap octets[0]?
      if compressionFlag ≠ 0x04 then
        .err (.InvalidKeyMaterial s!"Failed to parse ECDSA X.509 SubjectPublicKeyInfo with curve {curve.kmipName}/{curve.altName} bit string: unsupported compression flag {compressionFlag}")
      else if octets.length ≠ numExpectedBytes.toNat then
        let hex := crates.encodeBase16 octets
        .err (.InvalidKeyMaterial s!"Failed to parse ECDSA X.509 SubjectPublicKeyInfo curve {curve.kmipName}/{curve.altName} bit string: expected [<compression flag byte>, <{valueByteLen}-byte X value>, <{valueByteLen}-byte Y value>]i but found: {hex} ({octets.length} bytes)")
      else
        .ok { algorithm := dnsAlgorithm, publicKey := octets.drop 1 }

end DomainKmip.Ecdsa
