import DomainKmip.KeyPairs

namespace DomainKmip.Generate

open DomainKmip.Library.RustResult
open DomainKmip.Library.Interaction
open DomainKmip.Domain
open DomainKmip.Kmip
open DomainKmip.Dependencies
open DomainKmip.Errors
open DomainKmip.Algorithms
open DomainKmip.Client
open DomainKmip.KeyPairs

def selectAlgorithm : GenerateParams → AlgorithmInfo × Option UInt32
  | .RsaSha256 bits => (ALG_RSASHA256, some bits)
  | .RsaSha512 bits => (ALG_RSASHA512, some bits)
  | .EcdsaP256Sha256 => (ALG_ECDSAP256SHA256, none)
  | .EcdsaP384Sha384 => (ALG_ECDSAP384SHA384, none)
  | .Ed448 => (ALG_ED448, none)
  | .Ed25519 => (ALG_ED25519, none)

def isEdwards : GenerateParams → Bool
  | .Ed448 | .Ed25519 => true
  | _ => false

def edxxxExtension : String := "Cascade-HSM-Bridge Ed448/25519 KMIP 1.x Support"

def kmip1xEdxxxSupported (queryResponse : QueryResponsePayload) : Bool :=
  (queryResponse.extensionInformation.map fun ext =>
    ext.any fun ext => ext.extensionName = edxxxExtension).getD false

def tryIntoI32 (len : UInt32) : Option Int :=
  if len.toNat < 2 ^ 31 then some len.toNat else none

def outsideRange (range : Option (UInt32 × UInt32)) (len : UInt32) : Bool :=
  match range with
  | some (min, max) => ¬ (min ≤ len ∧ len ≤ max)
  | none => false

/-- The length attribute, unless the length is outside the range of the algorithm. -/
def lengthAttributes (alg : AlgorithmInfo) (bits : Option UInt32) :
    Outcome GenerateError (List Attribute) :=
  match bits.or alg.kmipCryptoFixedLen with
  | some len =>
      if outsideRange alg.lenRange len then .err .UnsupportedAlgorithm
      else do
        let n ← Outcome.unwrap (tryIntoI32 len)
        .ok [.CryptographicLength n]
  | none => .ok []

def privKeyAttrs (privateKeyName : String) : List Attribute :=
  [.Name privateKeyName, .CryptographicUsageMask .Sign]

def pubKeyAttrs (publicKeyName : String) : List Attribute :=
  [.Name publicKeyName, .CryptographicUsageMask .Verify]

def curveAttribute (curve : RecommendedCurve) : Attribute :=
  .named "Cryptographic Domain Parameters" none
    (CryptographicDomainParameters.default.withRecommendedCurve curve)

variable (crates : Crates)

/-- EdDSA keys are only asked for where the server says that it knows them in this
version of the protocol. -/
def requireEdxxxSupport (params : GenerateParams) (connPool : ConnPool) :
    Action GenerateError Unit :=
  if isEdwards params then do
    let res ← Action.query connPool
    let queryResponse ← Action.lift (Outcome.ofExcept (GenerateError.ofNetError crates) res)
    if kmip1xEdxxxSupported queryResponse then pure ()
    else Action.lift (.err .UnsupportedAlgorithm)
  else pure ()

/-- Send a request; the response message is not looked into yet. -/
def sendRequest (connPool : ConnPool) (request : RequestPayload) :
    Action GenerateError (Except NetError ResponsePayload) := do
  let reply ← Action.doRequestPayload connPool request
  Action.lift (Outcome.ofExcept (GenerateError.ofNetError crates) reply)

/-- Ask for a key pair, and ask again with the curve where the server refuses. -/
def createKeyPair (alg : AlgorithmInfo) (commonAttrs privateKeyAttrs publicKeyAttrs : List Attribute)
    (connPool : ConnPool) : Action GenerateError (Except NetError ResponsePayload) := do
  let response ← sendRequest crates connPool
    (.CreateKeyPair (some commonAttrs) (some privateKeyAttrs) (some publicKeyAttrs))
  match response, alg.ellipticCurve.bind EllipticCurveInfo.kmipRecommendedCurve with
  | .error (.ServerError _), some recommendedCurve =>
      sendRequest crates connPool (.CreateKeyPair
        (some (commonAttrs ++ [curveAttribute recommendedCurve]))
        (some privateKeyAttrs) (some publicKeyAttrs))
  | response, _ => pure response

/-- What `generate` does with its first client. -/
def requestKeyPair (publicKeyName privateKeyName : String) (params : GenerateParams)
    (connPool : ConnPool) : Action GenerateError ResponsePayload := do
  let (alg, bits) := selectAlgorithm params
  requireEdxxxSupport crates params connPool
  let lengthAttrs ← Action.lift (lengthAttributes alg bits)
  let response ← createKeyPair crates alg (.CryptographicAlgorithm alg.kmipCryptoAlg :: lengthAttrs)
    (privKeyAttrs privateKeyName) (pubKeyAttrs publicKeyName) connPool
  Action.lift (Outcome.ofExcept (GenerateError.ofNetError crates) response)

def takeKeyPairIds (response : ResponsePayload) :
    Outcome GenerateError CreateKeyPairResponsePayload :=
  match response with
  | .CreateKeyPair payload => .ok payload
  | response =>
      let text := crates.displayResponse response
      .err (.Kmip s!"Incorrect response type: {text}")

/-- What `generate` does with its second client. -/
def activate (privateKeyId : UniqueIdentifier) (connPool : ConnPool) :
    Action GenerateError Unit := do
  let response ← sendRequest crates connPool (.Activate (some privateKeyId))
  let response ← Action.lift (Outcome.ofExcept (GenerateError.ofNetError crates) response)
  match response with
  | .Activate _ => pure ()
  | response =>
      let text := crates.displayResponse response
      Action.lift (.err (.Kmip
        s!"Unable to parse response: expected Activate payload but received {text}"))

/-- What `generate` does once it has the ids of the two keys: fetch the public key and
activate the private one. -/
def locateAndActivate (algorithm : SecurityAlgorithm) (flags : UInt16) (connPool : ConnPool)
    (payload : CreateKeyPairResponsePayload) : Action GenerateError KeyPair := do
  let keyPair ← Action.mapErr
    (fun err =>
      let text := err.display
      .Kmip s!"Generated key pair could not be located: {text}")
    (fromMetadata crates algorithm flags payload.privateKeyUniqueIdentifier
      payload.publicKeyUniqueIdentifier connPool)
  Action.withClient connPool
    (fun err =>
      let text := crates.displayConnError err
      .Kmip s!"Failed to connect to KMIP server {connPool.serverId}: {text}")
    (activate crates payload.privateKeyUniqueIdentifier connPool)
  pure keyPair

/-- Generate a new key pair. The first client is given back before the public key is
fetched. -/
def generate (publicKeyName privateKeyName : String) (params : GenerateParams)
    (flags : UInt16) (connPool : ConnPool) : Action GenerateError KeyPair := do
  let response ← Action.withClient connPool
    (fun err =>
      let text := crates.displayConnError err
      .Kmip s!"Key generation error: Failed to connect to KMIP server {connPool.serverId}: {text}")
    (requestKeyPair crates publicKeyName privateKeyName params connPool)
  let payload ← Action.lift (takeKeyPairIds crates response)
  locateAndActivate crates params.algorithm flags connPool payload

def destroy (keyId : String) (connPool : ConnPool) : Action DestroyError Unit :=
  Action.withClient connPool (DestroyError.ofConnError crates) do
    let res ← Action.revokeKey connPool keyId
    Action.lift (Outcome.ofExcept (DestroyError.ofNetError crates) res)
    let res ← Action.destroyKey connPool keyId
    Action.lift (Outcome.ofExcept (DestroyError.ofNetError crates) res)

end DomainKmip.Generate
