import DomainKmip.Domain

namespace DomainKmip.Kmip

open DomainKmip.Library.BigEndian

abbrev UniqueIdentifier := String

abbrev UniqueBatchItemID := Octets

inductive CryptographicAlgorithm where
  | RSA
  | ECDSA
  | Ed25519
  | Ed448
  | other (code : UInt32)
  deriving DecidableEq, Repr

inductive HashingAlgorithm where
  | SHA256
  | SHA384
  | SHA512
  deriving DecidableEq, Repr

inductive PaddingMethod where
  | PKCS1_v1_5
  deriving DecidableEq, Repr

inductive RecommendedCurve where
  | P_256
  | P_384
  deriving DecidableEq, Repr

inductive CryptographicUsageMask where
  | Sign
  | Verify
  deriving DecidableEq, Repr

structure CryptographicParameters where
  paddingMethod : Option PaddingMethod
  hashingAlgorithm : Option HashingAlgorithm
  cryptographicAlgorithm : Option CryptographicAlgorithm
  deriving DecidableEq, Repr

namespace CryptographicParameters

def default : CryptographicParameters := ⟨none, none, none⟩

def withPaddingMethod (p : CryptographicParameters) (m : PaddingMethod) :
    CryptographicParameters := { p with paddingMethod := some m }

def withHashingAlgorithm (p : CryptographicParameters) (h : HashingAlgorithm) :
    CryptographicParameters := { p with hashingAlgorithm := some h }

def withCryptographicAlgorithm (p : CryptographicParameters) (a : CryptographicAlgorithm) :
    CryptographicParameters := { p with cryptographicAlgorithm := some a }

end CryptographicParameters

structure CryptographicDomainParameters where
  recommendedCurve : Option RecommendedCurve
  deriving DecidableEq, Repr

def CryptographicDomainParameters.default : CryptographicDomainParameters := ⟨none⟩

def CryptographicDomainParameters.withRecommendedCurve
    (p : CryptographicDomainParameters) (c : RecommendedCurve) :
    CryptographicDomainParameters := { p with recommendedCurve := some c }

/-- Template attributes. `named` is the attribute that the crate builds by hand
from a name, an index and a value. -/
inductive Attribute where
  | Name (name : String)
  | CryptographicUsageMask (mask : CryptographicUsageMask)
  | CryptographicAlgorithm (algorithm : CryptographicAlgorithm)
  | CryptographicLength (bits : Int)
  | named (name : String) (index : Option Int) (value : CryptographicDomainParameters)
  deriving DecidableEq, Repr

inductive Operation where
  | CreateKeyPair
  | Activate
  | Sign
  deriving DecidableEq, Repr

inductive RequestPayload where
  | CreateKeyPair (common privateKey publicKey : Option (List Attribute))
  | Activate (id : Option UniqueIdentifier)
  | Sign (id : Option UniqueIdentifier) (parameters : Option CryptographicParameters)
      (data : Octets)
  deriving DecidableEq, Repr

def RequestPayload.operation : RequestPayload → Operation
  | CreateKeyPair .. => .CreateKeyPair
  | Activate .. => .Activate
  | Sign .. => .Sign

structure BatchItem where
  operation : Operation
  uniqueBatchItemId : Option UniqueBatchItemID
  payload : RequestPayload
  deriving DecidableEq, Repr

/-- Errors of the KMIP client. `ServerError` is the one the crate tells apart. -/
inductive NetError where
  | ServerError (text : String)
  | other (text : String)
  deriving DecidableEq, Repr

structure KmipConnError where
  text : String
  deriving DecidableEq, Repr

structure CreateKeyPairResponsePayload where
  privateKeyUniqueIdentifier : UniqueIdentifier
  publicKeyUniqueIdentifier : UniqueIdentifier
  deriving DecidableEq, Repr

structure SignResponsePayload where
  signatureData : Octets
  deriving DecidableEq, Repr

/-- Response payloads; `other` stands for the operations the crate never asks
for. -/
inductive ResponsePayload where
  | CreateKeyPair (payload : CreateKeyPairResponsePayload)
  | Activate (id : UniqueIdentifier)
  | Sign (payload : SignResponsePayload)
  | other (code : UInt32)
  deriving DecidableEq, Repr

structure BatchItemResponse where
  uniqueBatchItemId : Option UniqueBatchItemID
  payload : Option ResponsePayload
  deriving DecidableEq, Repr

structure ExtensionInformation where
  extensionName : String
  deriving DecidableEq, Repr

structure QueryResponsePayload where
  extensionInformation : Option (List ExtensionInformation)
  deriving DecidableEq, Repr

inductive KeyFormatType where
  | Raw
  | PKCS1
  | X509
  | other (code : UInt32)
  deriving DecidableEq, Repr

inductive KeyMaterial where
  | Bytes (bytes : Octets)
  | TransparentRSAPublicKey (modulus publicExponent : Octets)
  | other (code : UInt32)
  deriving DecidableEq, Repr

structure KeyBlock where
  keyFormatType : KeyFormatType
  keyMaterial : KeyMaterial
  cryptographicAlgorithm : Option CryptographicAlgorithm
  cryptographicLength : Option Int
  deriving DecidableEq, Repr

inductive ManagedObject where
  | PublicKey (keyBlock : KeyBlock)
  | other (code : UInt32)
  deriving DecidableEq, Repr

/-- A connection pool: the application's name for the server, and which pool it
is. -/
structure ConnPool where
  serverId : String
  handle : Nat
  deriving DecidableEq, Repr

/-- What the crate does with a connection pool and with the client it obtains from it.
`release` is the end of the client's scope, which gives the connection back to the pool. -/
inductive Call where
  | connect (pool : ConnPool)
  | release (pool : ConnPool)
  | query (pool : ConnPool)
  | doRequestPayload (pool : ConnPool) (request : RequestPayload)
  | doRequestBatch (pool : ConnPool) (queue : List BatchItem)
  | getKey (pool : ConnPool) (id : UniqueIdentifier)
  | revokeKey (pool : ConnPool) (id : UniqueIdentifier)
  | destroyKey (pool : ConnPool) (id : UniqueIdentifier)
  deriving DecidableEq, Repr

/-- Replies. A request first fails or yields a response message, and converting
that message into a payload fails or yields the payload. -/
@[reducible] def Reply : Call → Type
  | .connect _ => Except KmipConnError Unit
  | .release _ => Unit
  | .query _ => Except NetError QueryResponsePayload
  | .doRequestPayload .. => Except NetError (Except NetError ResponsePayload)
  | .doRequestBatch .. => Except NetError (List (Except NetError BatchItemResponse))
  | .getKey .. => Except NetError ManagedObject
  | .revokeKey .. => Except NetError Unit
  | .destroyKey .. => Except NetError Unit

end DomainKmip.Kmip
