import DomainKmip.ReloadedKeys

namespace DomainKmip.PublishedKeys

open DomainKmip.Library.RustResult
open DomainKmip.Library.UrlSyntax
open DomainKmip.Library.UrlParsing
open DomainKmip.Library.Concurrency
open DomainKmip.Domain
open DomainKmip.Kmip
open DomainKmip.Dependencies
open DomainKmip.Ecdsa
open DomainKmip.PublicKeys
open DomainKmip.KeyPairs
open DomainKmip.KeyUrls
open DomainKmip.SigningSafety
open DomainKmip.GenerateSafety
open DomainKmip.UrlRoundTrip
open DomainKmip.Validators
open DomainKmip.HsmKeys
open DomainKmip.Operations
open DomainKmip.ValidSignatures
open DomainKmip.ReloadedKeys

variable {Server : Type} {schemes : Schemes} {reach : ConnPool → Server} {crates : Crates}
  {ipv6 : Ipv6} {ι : Type} [DecidableEq ι] {v₀ : Vaults Server}
  {t : List (Label (api crates) ι)} {sys : System (api crates) ι (Vaults Server)}

/-- The record that is made of a fetched key is that of its key pair. -/
theorem record_of_fetched (hcrates : crates.FramesRsa)
    (hrun : Runs (Truthful schemes reach) v₀ t sys) {keyPair : KeyPair}
    (hloaded : Loaded t keyPair) (hpaired : Paired reach sys.state keyPair) {pubKey : KeyUrl}
    (hnames : Names pubKey keyPair keyPair.publicKeyId) {i : ι} {pool : ConnPool}
    (hpool : reach pool = reach keyPair.connPool) {publicKey : PublicKey}
    (h : .returned i (ApiCall.forKeyUrl pubKey pool) (Outcome.ok publicKey) ∈ t) :
    (dnskey publicKey pubKey.flags : Outcome Empty Dnskey) = .ok keyPair.dnskey := by
  obtain ⟨exchanged, hadmits, hevents⟩ := hrun.admits_of_returned h
  obtain ⟨object, octets, hget, holds, rfl⟩ := getKey_of_forKeyId hadmits
  obtain ⟨key, hkey, hpublishes⟩ :=
    (explained_of_exchanged hrun (hevents _ hget)).published _ _ _ rfl
  rw [hpool, hnames.keyId] at hkey
  rw [hnames.algorithm] at holds
  obtain ⟨key', hprivate, hpublic, hsuits⟩ := hpaired
  obtain rfl : key' = key := Option.some.inj (hpublic.symm.trans hkey)
  have hencodes := encodes_of_publishes hcrates hsuits hpublishes holds
  obtain ⟨key'', octets', hprivate', hencodes', hrecord⟩ :=
    recorded_of_loaded hcrates hrun hloaded ⟨key', hprivate, hpublic, hsuits⟩
  obtain rfl : key' = key'' := Option.some.inj (hprivate.symm.trans hprivate')
  -- A key has its octets in one form, so that both records are made of the same.
  obtain rfl : octets = octets' :=
    (octets_of_encodes hencodes).trans (octets_of_encodes hencodes').symm
  rw [hnames.algorithm, hnames.flags]
  exact Outcome.unwrap_eq_ok_iff.mpr hrecord

/-- Where the server id and the id of the public key are plain, the URL of a public key is
enough to validate what is signed with its private key: whoever fetches the key by its URL
makes the DNSKEY record of the key pair of it, and the signatures hold under that record. -/
theorem published_keys_validate (hcrates : crates.FramesRsa) (hurls : crates.ParsesUrls ipv6)
    (hdecodes : Decodes crates.decodeUtf8Lossy) (hnames : crates.NamesAlgorithms)
    (hrun : Runs (Truthful schemes reach) v₀ t sys) {keyPair : KeyPair}
    (hloaded : Loaded t keyPair) (hpaired : Paired reach sys.state keyPair)
    (hhost : PlainHost ipv6 keyPair.connPool.serverId.toList)
    (hpublic : PlainPath keyPair.publicKeyId.toList) :
    ∃ url pubKey, (publicKeyUrl crates keyPair : Outcome Empty Url) = .ok url ∧
      tryFrom crates url = .ok pubKey ∧
      ∀ i pool publicKey, reach pool = reach keyPair.connPool →
        .returned i (ApiCall.forKeyUrl pubKey pool) (Outcome.ok publicKey) ∈ t →
        (dnskey publicKey pubKey.flags : Outcome Empty Dnskey) = .ok keyPair.dnskey ∧
        ∀ j signer data signature, SameKey reach signer keyPair →
          .returned j (ApiCall.signRaw signer data) (Outcome.ok signature) ∈ t →
          Validates schemes keyPair.dnskey data signature := by
  obtain ⟨pubKey, url, hurl, hpub, hpubNames⟩ :=
    readsBack_of_plain hurls hdecodes hnames hhost hpublic
  refine ⟨url, pubKey, hurl, hpub, fun i pool publicKey hpool hfetched => ?_⟩
  have hdnskey := record_of_fetched hcrates hrun hloaded hpaired hpubNames hpool hfetched
  have hrecorded := recorded_of_loaded hcrates hrun hloaded hpaired
  exact ⟨hdnskey, fun j signer data signature hsigner hsigned =>
    validates_of_signRaw hrun hrecorded hsigner hsigned⟩

def fetching (pubKey : KeyUrl) : ApiCall := .forKeyUrl pubKey samplePool

def sampleKey : PublicKey := ⟨.ED25519, samplePoint.val⟩

theorem fetched_in_sampleRun {pubKey : KeyUrl}
    (hpub : Names pubKey willingKeyPair willingKeyPair.publicKeyId) :
    .returned false (fetching pubKey) (Outcome.ok sampleKey) ∈
      sampleRun ++ sampleLabels false (fetching pubKey) := by
  have hreturned := returned_mem_sampleLabels false (fetching pubKey)
  have hresult : ((api sampleCrates).program (fetching pubKey)).run
      (fun v call => (sampleReplies call, v)) sampleVaults =
        (Outcome.ok sampleKey, sampleVaults) := by
    change (forKeyUrl sampleCrates pubKey samplePool).program.run _ _ = _
    rw [forKeyUrl, hpub.keyId, hpub.algorithm]
    rfl
  rw [hresult] at hreturned
  exact List.mem_append_right _ hreturned

theorem sampleKey_validates : ∃ pubKey,
    .returned false (fetching pubKey) (Outcome.ok sampleKey) ∈
      sampleRun ++ sampleLabels false (fetching pubKey) ∧
    (dnskey sampleKey pubKey.flags : Outcome Empty Dnskey) = .ok willingKeyPair.dnskey ∧
    Validates sampleSchemes willingKeyPair.dnskey [1, 2, 3] (sampleSignature [1, 2, 3]) := by
  obtain ⟨pubKey, url, hurl, hpub, hpubNames⟩ := readsBack_of_plain
    sampleCrates_parsesUrls sampleCrates_decodes sampleCrates_namesAlgorithms plainHost_hsm
    plainPath_ids.2
  have hfetched := fetched_in_sampleRun hpubNames
  have hrun := runs_sampleRun.trace_of_fixed (i := false) sampleReplies_truthful rfl
    (fetching pubKey)
  have hgenerated := List.mem_append_left (sampleLabels false (fetching pubKey))
    generated_in_sampleRun
  obtain ⟨url', pubKey', hurl', hpub', hvalidates⟩ :=
    published_keys_validate sampleCrates_framesRsa sampleCrates_parsesUrls sampleCrates_decodes
      sampleCrates_namesAlgorithms hrun (.generated hgenerated)
      (paired_of_generated hrun hgenerated) plainHost_hsm plainPath_ids.2
  obtain rfl := Outcome.ok.inj (hurl.symm.trans hurl')
  obtain rfl := Outcome.ok.inj (hpub.symm.trans hpub')
  obtain ⟨hdnskey, hsigned⟩ := hvalidates false samplePool sampleKey rfl hfetched
  exact ⟨pubKey, hfetched, hdnskey, hsigned false willingKeyPair [1, 2, 3] _ ⟨rfl, rfl, rfl⟩
    (List.mem_append_left _ signed_in_sampleRun)⟩

end DomainKmip.PublishedKeys
