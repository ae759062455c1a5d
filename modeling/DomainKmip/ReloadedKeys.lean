import DomainKmip.UrlRoundTrip
import DomainKmip.ValidSignatures

namespace DomainKmip.ReloadedKeys

open DomainKmip.Library.RustResult
open DomainKmip.Library.UrlSyntax
open DomainKmip.Library.UrlParsing
open DomainKmip.Library.PercentEncoding
open DomainKmip.Library.Concurrency
open DomainKmip.Kmip
open DomainKmip.Dependencies
open DomainKmip.KeyPairs
open DomainKmip.KeyUrls
open DomainKmip.SigningSafety
open DomainKmip.GenerateSafety
open DomainKmip.UrlRoundTrip
open DomainKmip.Validators
open DomainKmip.Operations
open DomainKmip.ValidSignatures

variable {Server : Type} {schemes : Schemes} {reach : ConnPool → Server} {crates : Crates}
  {ipv6 : Ipv6} {ι : Type} [DecidableEq ι] {v₀ : Vaults Server}
  {t : List (Label (api crates) ι)} {sys : System (api crates) ι (Vaults Server)}

theorem plainHost_hsm : PlainHost loopback willingKeyPair.connPool.serverId.toList :=
  Or.inl ⟨by decide, fun c hc =>
    ⟨eq_false_of_any (by decide) c hc, eq_false_of_any (by decide) c hc⟩⟩

theorem plainPath_ids : PlainPath willingKeyPair.privateKeyId.toList ∧
    PlainPath willingKeyPair.publicKeyId.toList :=
  ⟨⟨eq_false_of_any (by decide), by decide⟩, ⟨eq_false_of_any (by decide), by decide⟩⟩

end DomainKmip.ReloadedKeys
