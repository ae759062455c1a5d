import DomainKmip.Generate
import DomainKmip.KeyUrls
import DomainKmip.Library.Concurrency

namespace DomainKmip.Operations

open DomainKmip.Library.BigEndian
open DomainKmip.Library.RustResult
open DomainKmip.Library.Interaction
open DomainKmip.Library.Concurrency
open DomainKmip.Domain
open DomainKmip.Kmip
open DomainKmip.Dependencies
open DomainKmip.Errors
open DomainKmip.Ecdsa
open DomainKmip.KeyPairs
open DomainKmip.KeyUrls

/-- Everything the crate does with a connection pool. -/
inductive ApiCall where
  | generate (publicKeyName privateKeyName : String) (params : GenerateParams) (flags : UInt16)
      (connPool : ConnPool)
  | destroy (keyId : String) (connPool : ConnPool)
  | fromMetadata (algorithm : SecurityAlgorithm) (flags : UInt16)
      (privateKeyId publicKeyId : String) (connPool : ConnPool)
  | fromUrls (privKeyUrl pubKeyUrl : KeyUrl) (connPool : ConnPool)
  | forKeyIdAndDnssecAlgorithm (publicKeyId : String) (algorithm : SecurityAlgorithm)
      (connPool : ConnPool)
  | forKeyUrl (publicKeyUrl : KeyUrl) (connPool : ConnPool)
  | signRaw (self : KeyPair) (data : Octets)
  | signRawSubmitQueue (self : KeyPair) (queue : SignQueue)

namespace ApiCall

@[reducible] def Result : ApiCall → Type
  | .generate .. => Outcome GenerateError KeyPair
  | .destroy .. => Outcome DestroyError Unit
  | .fromMetadata .. => Outcome GenerateError KeyPair
  | .fromUrls .. => Outcome GenerateError KeyPair
  | .forKeyIdAndDnssecAlgorithm .. => Outcome PublicKeyError PublicKey
  | .forKeyUrl .. => Outcome PublicKeyError PublicKey
  | .signRaw .. => Outcome SignError Signature
  | .signRawSubmitQueue .. => Outcome SignError (List Signature) × SignQueue

def program (crates : Crates) : (call : ApiCall) → Program Call Reply call.Result
  | .generate publicKeyName privateKeyName params flags connPool =>
      (Generate.generate crates publicKeyName privateKeyName params flags connPool).program
  | .destroy keyId connPool => (Generate.destroy crates keyId connPool).program
  | .fromMetadata algorithm flags privateKeyId publicKeyId connPool =>
      (KeyPairs.fromMetadata crates algorithm flags privateKeyId publicKeyId connPool).program
  | .fromUrls privKeyUrl pubKeyUrl connPool =>
      (KeyUrls.fromUrls crates privKeyUrl pubKeyUrl connPool).program
  | .forKeyIdAndDnssecAlgorithm publicKeyId algorithm connPool =>
      (PublicKeys.forKeyIdAndDnssecAlgorithm crates publicKeyId algorithm connPool).program
  | .forKeyUrl publicKeyUrl connPool => (KeyUrls.forKeyUrl crates publicKeyUrl connPool).program
  | .signRaw self data => (KeyPairs.signRaw self data).program
  | .signRawSubmitQueue self queue => KeyPairs.signRawSubmitQueue self queue

/-- The pool that the operation is given, or that its key pair has. -/
def connPool : ApiCall → ConnPool
  | .generate _ _ _ _ connPool => connPool
  | .destroy _ connPool => connPool
  | .fromMetadata _ _ _ _ connPool => connPool
  | .fromUrls _ _ connPool => connPool
  | .forKeyIdAndDnssecAlgorithm _ _ connPool => connPool
  | .forKeyUrl _ connPool => connPool
  | .signRaw self _ => self.connPool
  | .signRawSubmitQueue self _ => self.connPool

end ApiCall

@[reducible] def api (crates : Crates) : Interface Call Reply where
  Operation := ApiCall
  Result := ApiCall.Result
  program := ApiCall.program crates

end DomainKmip.Operations
