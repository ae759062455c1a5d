import DomainKmip.PublicKeys

namespace DomainKmip.KeyPairs

open DomainKmip.Library.BigEndian
open DomainKmip.Library.RustResult
open DomainKmip.Library.Interaction
open DomainKmip.Domain
open DomainKmip.Kmip
open DomainKmip.Dependencies
open DomainKmip.Errors
open DomainKmip.Algorithms
open DomainKmip.Client

structure KeyPair where
  algorithm : SecurityAlgorithm
  privateKeyId : String
  publicKeyId : String
  connPool : ConnPool
  dnskey : Dnskey
  flags : UInt16
  deriving DecidableEq

structure SignQueue where
  items : List BatchItem
  deriving DecidableEq, Repr

def SignQueue.new : SignQueue := ⟨[]⟩

def fromMetadata (crates : Crates) (algorithm : SecurityAlgorithm) (flags : UInt16)
    (privateKeyId publicKeyId : String) (connPool : ConnPool) :
    Action GenerateError KeyPair := do
  let publicKey ← Action.mapErr (fun err => .Kmip err.display)
    (PublicKeys.forKeyIdAndDnssecAlgorithm crates publicKeyId algorithm connPool)
  let dnskey ← Action.lift (PublicKeys.dnskey publicKey flags)
  pure { algorithm, privateKeyId, publicKeyId, connPool, dnskey, flags }

def signParameters (algInfo : AlgorithmInfo) : CryptographicParameters :=
  let parameters := CryptographicParameters.default.withCryptographicAlgorithm
    algInfo.kmipCryptoAlg
  let parameters := match algInfo.kmipHashAlg with
    | some hashAlg => parameters.withHashingAlgorithm hashAlg
    | none => parameters
  match algInfo.kmipPaddingMethod with
  | some paddingMethod => parameters.withPaddingMethod paddingMethod
  | none => parameters

def signPre (self : KeyPair) (data : Octets) : Outcome SignError RequestPayload :=
  match getAlgInfo self.algorithm with
  | none => .err {}
  | some algInfo => .ok (.Sign (some self.privateKeyId) (some (signParameters algInfo)) data)

/-- The payload of any other operation is taken to be unreachable. -/
def signPost (self : KeyPair) (res : ResponsePayload) : Outcome SignError Signature :=
  match res with
  | .Sign signed =>
      match getAlgInfo self.algorithm with
      | none => .err {}
      | some algInfo => algInfo.sigParser signed.signatureData
  | _ => .panic

def signRaw (self : KeyPair) (data : Octets) : Action SignError Signature := do
  let request ← Action.lift (signPre self data)
  Action.withClient self.connPool (fun _ => {}) do
    let reply ← Action.doRequestPayload self.connPool request
    let response ← Action.lift (Outcome.ofExcept (fun _ => {}) reply)
    let res ← Action.lift (Outcome.ofExcept (fun _ => {}) response)
    Action.lift (signPost self res)

def signRawEnqueue (self : KeyPair) (uuid : UniqueBatchItemID) (queue : SignQueue)
    (data : Octets) : Outcome SignError (Option Signature) × SignQueue :=
  match signPre self data with
  | .ok request =>
      let batchItem : BatchItem :=
        { operation := request.operation, uniqueBatchItemId := some uuid, payload := request }
      (.ok none, ⟨queue.items ++ [batchItem]⟩)
  | .err e => (.err e, queue)
  | .panic => (.panic, queue)

/-- One round of the loop over the results of a batch. -/
def signBatchItem (self : KeyPair) (res : Except NetError BatchItemResponse) :
    Outcome SignError Signature :=
  match res with
  | .error _ => .err {}
  | .ok item => do
      let payload ← Outcome.unwrap item.payload
      signPost self payload

/-- What a submission does with the drained queue. -/
def submitBatch (self : KeyPair) (queue : List BatchItem) :
    Action SignError (List Signature) := do
  let reply ← Action.doRequestBatch self.connPool queue
  let batchItemResults ← Action.lift (Outcome.ofExcept (fun _ => {}) reply)
  Action.lift (Outcome.collect (signBatchItem self) batchItemResults)

/-- Submit a queue with this key pair. The queue is drained as soon as there is a
client. -/
def signRawSubmitQueue (self : KeyPair) (queue : SignQueue) :
    Program Call Reply (Outcome SignError (List Signature) × SignQueue) :=
  bracket self.connPool (fun _ => (.err {}, queue)) do
    let outcome ← (submitBatch self queue.items).program
    pure (outcome, SignQueue.new)

end DomainKmip.KeyPairs
