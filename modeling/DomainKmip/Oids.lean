import DomainKmip.Library.BigEndian

namespace DomainKmip.Oids

open DomainKmip.Library.BigEndian

structure OidInfo where
  asn1ObjectIdentifier : String
  dotName : String
  bytes : Octets
  deriving DecidableEq, Repr

def RSA_OID : OidInfo where
  asn1ObjectIdentifier := "rsaEncryption"
  dotName := "1.2.840.113549.1.1.1"
  bytes := [42, 134, 72, 134, 247, 13, 1, 1, 1]

def EC_OID : OidInfo where
  asn1ObjectIdentifier := "id-ecPublicKey"
  dotName := "1.2.840.10045.2.1"
  bytes := [42, 134, 72, 206, 61, 2, 1]

def SECP256R1_OID : OidInfo where
  asn1ObjectIdentifier := "secp256r1"
  dotName := "1.2.840.10045.3.1.7"
  bytes := [42, 134, 72, 206, 61, 3, 1, 7]

def SECP384R1_OID : OidInfo where
  asn1ObjectIdentifier := "secp384r1"
  dotName := "1.3.132.0.34"
  bytes := [43, 129, 4, 0, 34]

def ED25519_OID : OidInfo where
  asn1ObjectIdentifier := "id-Ed25519"
  dotName := "1.3.101.112"
  bytes := [43, 101, 112]

-- The dotted name is the one of Ed25519 in the source as well.
def ED448_OID : OidInfo where
  asn1ObjectIdentifier := "id-Ed448"
  dotName := "1.3.101.112"
  bytes := [43, 101, 113]

end DomainKmip.Oids
