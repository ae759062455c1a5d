import DomainKmip.KeyPairs
import DomainKmip.Library.RustText

namespace DomainKmip.KeyUrls

open DomainKmip.Library.RustResult
open DomainKmip.Library.RustText
open DomainKmip.Library.UrlSyntax
open DomainKmip.Domain
open DomainKmip.Kmip
open DomainKmip.Dependencies
open DomainKmip.Errors
open DomainKmip.Client
open DomainKmip.Ecdsa
open DomainKmip.KeyPairs

structure KeyUrl where
  url : Url
  serverId : String
  keyId : String
  algorithm : SecurityAlgorithm
  flags : UInt16
  deriving DecidableEq

variable (crates : Crates)

/-- One round of the loop over the query parameters. -/
def readParameter (found : Option UInt16 × Option SecurityAlgorithm)
    (parameter : String × String) : Outcome String (Option UInt16 × Option SecurityAlgorithm) :=
  let (flags, algorithm) := found
  let (k, v) := parameter
  if k = "flags" then
    match parseU16 v.toList with
    | some flags => .ok (some flags, algorithm)
    | none =>
        let err := crates.parseIntError v
        .err s!"Key URL flags value is invalid: {err}"
  else if k = "algorithm" then
    match crates.parseAlgorithm v with
    | .ok algorithm => .ok (flags, some algorithm)
    | .error err => .err s!"Key URL algorithm value is invalid: {err}"
  else .err s!"Key URL contains unknown query parameter: {k}"

def readParameters (parameters : List (String × String)) :
    Outcome String (Option UInt16 × Option SecurityAlgorithm) :=
  parameters.foldlM (readParameter crates) (none, none)

def tryFrom (url : Url) : Outcome String KeyUrl := do
  let text := String.ofList url.serialize
  let serverId ← Outcome.okOr s!"Key URL lacks hostname component: {text}" url.hostStr
  let keyId ← Outcome.okOr s!"Key URL lacks /keys/ path component: {text}"
    (stripPrefix "/keys/".toList url.path)
  let (flags, algorithm) ← readParameters crates (url.queryPairs crates.decodeUtf8Lossy)
  let algorithm ← Outcome.okOr s!"Key URL lacks algorithm query parameter: {text}" algorithm
  let flags ← Outcome.okOr s!"Key URL lacks flags query parameter: {text}" flags
  pure { url, serverId, keyId := String.ofList keyId, algorithm, flags }

theorem tryFrom_eq_ok_iff {url : Url} {key : KeyUrl} :
    tryFrom crates url = .ok key ↔
      key.url = url ∧ url.hostStr = some key.serverId ∧
        url.path = "/keys/".toList ++ key.keyId.toList ∧
        readParameters crates (url.queryPairs crates.decodeUtf8Lossy) =
          .ok (some key.flags, some key.algorithm) := by
  simp only [tryFrom, Outcome.bind_eq_ok_iff, Outcome.okOr_eq_ok_iff, Outcome.pure_eq,
    stripPrefix_eq_some_iff]
  constructor
  · rintro ⟨serverId, hhost, keyId, hpath, ⟨flags, algorithm⟩, hread, _, rfl, _, rfl, ⟨⟩⟩
    exact ⟨rfl, hhost, by simpa using hpath, hread⟩
  · rintro ⟨rfl, hhost, hpath, hread⟩
    exact ⟨_, hhost, _, hpath, _, hread, _, rfl, _, rfl, by simp⟩

def mkKeyUrl (self : KeyPair) (keyId : String) : Outcome KeyUrlParseError Url :=
  let algorithm := crates.displayAlgorithm self.algorithm
  let url :=
    s!"kmip://{self.connPool.serverId}/keys/{keyId}?algorithm={algorithm}&flags={self.flags}"
  Outcome.ofExcept (fun err => ⟨s!"unable to parse {url} as URL: {err}"⟩) (crates.parseUrl url)

/-- `Result::unwrap` of a key URL. -/
def keyUrl {ε : Type} (self : KeyPair) (keyId : String) : Outcome ε Url :=
  match mkKeyUrl crates self keyId with
  | .ok url => .ok url
  | .err _ | .panic => .panic

def privateKeyUrl {ε : Type} (self : KeyPair) : Outcome ε Url :=
  keyUrl crates self self.privateKeyId

def publicKeyUrl {ε : Type} (self : KeyPair) : Outcome ε Url :=
  keyUrl crates self self.publicKeyId

def fromUrls (privKeyUrl pubKeyUrl : KeyUrl) (connPool : ConnPool) :
    Action GenerateError KeyPair :=
  if privKeyUrl.algorithm ≠ pubKeyUrl.algorithm then
    let priv := crates.displayAlgorithm privKeyUrl.algorithm
    let pub := crates.displayAlgorithm pubKeyUrl.algorithm
    Action.lift (.err (.Kmip
      s!"Private and public key URLs have different algorithms: {priv} vs {pub}"))
  else if privKeyUrl.flags ≠ pubKeyUrl.flags then
    let priv := privKeyUrl.flags
    let pub := pubKeyUrl.flags
    Action.lift (.err (.Kmip
      s!"Private and public key URLs have different flags: {priv} vs {pub}"))
  else if privKeyUrl.serverId ≠ pubKeyUrl.serverId then
    let priv := privKeyUrl.serverId
    let pub := pubKeyUrl.serverId
    Action.lift (.err (.Kmip
      s!"Private and public key URLs have different server IDs: {priv} vs {pub}"))
  else if privKeyUrl.serverId ≠ connPool.serverId then
    let priv := privKeyUrl.serverId
    let pool := connPool.serverId
    Action.lift (.err (.Kmip
      s!"Key URLs have different server ID to the KMIP connection pool: {priv} vs {pool}"))
  else
    fromMetadata crates privKeyUrl.algorithm privKeyUrl.flags privKeyUrl.keyId pubKeyUrl.keyId
      connPool

def forKeyUrl (publicKeyUrl : KeyUrl) (connPool : ConnPool) : Action PublicKeyError PublicKey :=
  PublicKeys.forKeyIdAndDnssecAlgorithm crates publicKeyUrl.keyId publicKeyUrl.algorithm connPool

end DomainKmip.KeyUrls
