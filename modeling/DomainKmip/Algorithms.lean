import DomainKmip.EcdsaSignature
import DomainKmip.Kmip
import DomainKmip.Oids

namespace DomainKmip.Algorithms

open DomainKmip.Library.BigEndian
open DomainKmip.Library.RustResult
open DomainKmip.Library.RustSlice
open DomainKmip.Domain
open DomainKmip.Kmip
open DomainKmip.Oids
open DomainKmip.EcdsaSignature

structure EllipticCurveInfo where
  oid : OidInfo
  kmipName : String
  altName : String
  kmipRecommendedCurve : Option RecommendedCurve

structure AlgorithmInfo where
  oid : OidInfo
  lenRange : Option (UInt32 × UInt32)
  kmipCryptoAlg : CryptographicAlgorithm
  kmipHashAlg : Option HashingAlgorithm
  kmipPaddingMethod : Option PaddingMethod
  kmipCryptoFixedLen : Option UInt32
  ellipticCurve : Option EllipticCurveInfo
  sigParser : Octets → Outcome SignError Signature

/-- The EdDSA signature parsers: the octets as they are, if there are `len` of
them. -/
def parseRaw (len : Nat) (sig : Octets) : Outcome SignError (OctetArray len) :=
  if sig.length ≠ len then .err {}
  else copyFromSlice (zeros len) 0 len sig

def ALG_RSASHA256 : AlgorithmInfo where
  oid := RSA_OID
  lenRange := some (512, 4096)
  kmipCryptoAlg := .RSA
  kmipHashAlg := some .SHA256
  kmipPaddingMethod := some .PKCS1_v1_5
  kmipCryptoFixedLen := none
  ellipticCurve := none
  sigParser := fun sig => .ok (.RsaSha256 sig)

def ALG_RSASHA512 : AlgorithmInfo where
  oid := RSA_OID
  lenRange := some (1024, 4096)
  kmipCryptoAlg := .RSA
  kmipHashAlg := some .SHA512
  kmipPaddingMethod := some .PKCS1_v1_5
  kmipCryptoFixedLen := none
  ellipticCurve := none
  sigParser := fun sig => .ok (.RsaSha512 sig)

def ALG_ECDSAP256SHA256 : AlgorithmInfo where
  oid := EC_OID
  lenRange := none
  kmipCryptoAlg := .ECDSA
  kmipHashAlg := some .SHA256
  kmipPaddingMethod := none
  kmipCryptoFixedLen := some 256
  ellipticCurve := some
    { oid := SECP256R1_OID
      kmipName := "P-256"
      altName := "SECP256R1"
      kmipRecommendedCurve := some .P_256 }
  sigParser := fun sig => do .ok (.EcdsaP256Sha256 (← parseX962 64 sig))

def ALG_ECDSAP384SHA384 : AlgorithmInfo where
  oid := EC_OID
  lenRange := none
  kmipCryptoAlg := .ECDSA
  kmipHashAlg := some .SHA384
  kmipPaddingMethod := none
  kmipCryptoFixedLen := some 384
  ellipticCurve := some
    { oid := SECP384R1_OID
      kmipName := "P-384"
      altName := "SECP384R1"
      kmipRecommendedCurve := some .P_384 }
  sigParser := fun sig => do .ok (.EcdsaP384Sha384 (← parseX962 96 sig))

def ALG_ED25519 : AlgorithmInfo where
  oid := ED25519_OID
  lenRange := none
  kmipCryptoAlg := .Ed25519
  kmipHashAlg := none
  kmipPaddingMethod := none
  kmipCryptoFixedLen := some (32 * 8)
  ellipticCurve := none
  sigParser := fun sig => do .ok (.Ed25519 (← parseRaw 64 sig))

def ALG_ED448 : AlgorithmInfo where
  oid := ED448_OID
  lenRange := none
  kmipCryptoAlg := .Ed448
  kmipHashAlg := none
  kmipPaddingMethod := none
  kmipCryptoFixedLen := some (57 * 8)
  ellipticCurve := none
  sigParser := fun sig => do .ok (.Ed448 (← parseRaw 114 sig))

def ALG_MAPPINGS : List (SecurityAlgorithm × AlgorithmInfo) :=
  [ (.RSASHA256, ALG_RSASHA256),
    (.RSASHA512, ALG_RSASHA512),
    (.ECDSAP256SHA256, ALG_ECDSAP256SHA256),
    (.ECDSAP384SHA384, ALG_ECDSAP384SHA384),
    (.ED448, ALG_ED448),
    (.ED25519, ALG_ED25519) ]

def getAlgInfo (alg : SecurityAlgorithm) : Option AlgorithmInfo :=
  (ALG_MAPPINGS.find? fun item => item.1 = alg).map Prod.snd

end DomainKmip.Algorithms
