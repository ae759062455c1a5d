import DomainKmip.KeyUrlForms
import DomainKmip.Library.SpecialUrls

namespace DomainKmip.UrlStability

open DomainKmip.Library.RustResult
open DomainKmip.Library.Interaction
open DomainKmip.Library.UrlSyntax
open DomainKmip.Library.UrlParsing
open DomainKmip.Library.SpecialUrls
open DomainKmip.Domain
open DomainKmip.Kmip
open DomainKmip.Dependencies
open DomainKmip.Errors
open DomainKmip.Client
open DomainKmip.KeyPairs
open DomainKmip.KeyUrls
open DomainKmip.SigningSafety
open DomainKmip.KeyLoading
open DomainKmip.KeyLabels
open DomainKmip.UrlRoundTrip
open DomainKmip.KeyUrlForms

/-- Two key URLs with the same server, key, algorithm and flags. -/
structure SaysTheSame (key key' : KeyUrl) : Prop where
  serverId : key.serverId = key'.serverId
  keyId : key.keyId = key'.keyId
  algorithm : key.algorithm = key'.algorithm
  flags : key.flags = key'.flags

theorem saysTheSame_of_names {key key' : KeyUrl} {kp : KeyPair} {keyId : String}
    (h : Names key kp keyId) (h' : Names key' kp keyId) : SaysTheSame key key' :=
  ⟨h.serverId.trans h'.serverId.symm, h.keyId.trans h'.keyId.symm,
    h.algorithm.trans h'.algorithm.symm, h.flags.trans h'.flags.symm⟩

variable {crates : Crates} {ipv6 : Ipv6} {rules : DomainRules}

theorem fromMetadata_result {algorithm : SecurityAlgorithm} {flags : UInt16}
    {privateKeyId publicKeyId : String} {connPool : ConnPool} {t : List (Event Call Reply)}
    {kp : KeyPair}
    (h : (fromMetadata crates algorithm flags privateKeyId publicKeyId connPool).program.Admits
      t (.ok kp)) :
    ∃ dnskey, kp = { algorithm, privateKeyId, publicKeyId, connPool, dnskey, flags } := by
  obtain ⟨_, _, _, _, _, h⟩ := Action.of_admits_bind h
  obtain ⟨_, _, dnskey, _, _, h⟩ := Action.of_admits_bind h
  cases h
  exact ⟨dnskey, rfl⟩

/-- A key pair is only loaded from URLs that agree with each other and with the pool. -/
theorem names_of_fromUrls {privKey pubKey : KeyUrl} {connPool : ConnPool}
    {t : List (Event Call Reply)} {kp : KeyPair}
    (h : (fromUrls crates privKey pubKey connPool).program.Admits t (.ok kp)) :
    kp.connPool = connPool ∧ Names privKey kp kp.privateKeyId ∧
      Names pubKey kp kp.publicKeyId := by
  rw [fromUrls] at h
  split at h
  · cases h
  · rename_i halgorithm
    split at h
    · cases h
    · rename_i hflags
      split at h
      · cases h
      · rename_i hserver
        split at h
        · cases h
        · rename_i hpool
          simp only [ne_eq, not_not] at halgorithm hflags hserver hpool
          obtain ⟨dnskey, rfl⟩ := fromMetadata_result h
          exact ⟨rfl, ⟨hpool, rfl, rfl, rfl⟩,
            ⟨hserver.symm.trans hpool, rfl, halgorithm.symm, hflags.symm⟩⟩

theorem fromUrls_congr {privKey pubKey privKey' pubKey' : KeyUrl}
    (hpriv : SaysTheSame privKey' privKey) (hpub : SaysTheSame pubKey' pubKey)
    (connPool : ConnPool) :
    fromUrls crates privKey' pubKey' connPool = fromUrls crates privKey pubKey connPool := by
  simp only [fromUrls, hpriv.serverId, hpriv.keyId, hpriv.algorithm, hpriv.flags, hpub.serverId,
    hpub.keyId, hpub.algorithm, hpub.flags]

theorem keyUrl_of_names {key : KeyUrl} {kp kp' : KeyPair} {keyId keyId' : String}
    (h : Names key kp keyId) (h' : Names key kp' keyId') :
    (keyUrl crates kp' keyId' : Outcome Empty Url) = keyUrl crates kp keyId := by
  simp only [keyUrl, mkKeyUrl, ← h.serverId, ← h.keyId, ← h.algorithm, ← h.flags,
    ← h'.serverId, ← h'.keyId, ← h'.algorithm, ← h'.flags]

/-- What can be read from a URL can be written and read once more. -/
theorem readsBack_of_tryFrom (hurls : crates.ParsesUrls ipv6)
    (hdecodes : Decodes crates.decodeUtf8Lossy) (hnames : crates.NamesAlgorithms) {url : Url}
    (hurl : Standard rules ipv6 url) {key : KeyUrl} (hkey : tryFrom crates url = .ok key)
    {kp : KeyPair} {keyId : String} (h : Names key kp keyId) :
    ∃ key', ReadsBack crates kp keyId key' := by
  obtain ⟨_, hhost, hpath, _⟩ := (tryFrom_eq_ok_iff crates).mp hkey
  obtain ⟨hplainHost, hplainPath⟩ := hurl.plain hhost
  have hplainKey := plainPath_keyId hplainPath hpath
  rw [h.serverId] at hplainHost
  rw [h.keyId] at hplainKey
  exact readsBack_of_plain hurls hdecodes hnames hplainHost hplainKey

/-- The URLs that a loaded key pair prints say what the URLs said that it was loaded
from, and from then on nothing changes any more. -/
theorem reload_stable (hurls : crates.ParsesUrls ipv6)
    (hdecodes : Decodes crates.decodeUtf8Lossy) (hnames : crates.NamesAlgorithms)
    {u v : Url} (hu : Standard rules ipv6 u) (hv : Standard rules ipv6 v)
    {privKey pubKey : KeyUrl} (hpriv : tryFrom crates u = .ok privKey)
    (hpub : tryFrom crates v = .ok pubKey) {connPool : ConnPool} {t : List (Event Call Reply)}
    {kp : KeyPair} (h : (fromUrls crates privKey pubKey connPool).program.Admits t (.ok kp)) :
    (privKey.algorithm = pubKey.algorithm ∧ privKey.flags = pubKey.flags ∧
      privKey.serverId = connPool.serverId ∧ pubKey.serverId = connPool.serverId) ∧
    ∃ u' v' privKey' pubKey',
      (privateKeyUrl crates kp : Outcome Empty Url) = .ok u' ∧
      (publicKeyUrl crates kp : Outcome Empty Url) = .ok v' ∧
      tryFrom crates u' = .ok privKey' ∧ tryFrom crates v' = .ok pubKey' ∧
      SaysTheSame privKey' privKey ∧ SaysTheSame pubKey' pubKey ∧
      fromUrls crates privKey' pubKey' connPool = fromUrls crates privKey pubKey connPool ∧
      ∀ connPool' t' kp',
        (fromUrls crates privKey' pubKey' connPool').program.Admits t' (.ok kp') →
        (privateKeyUrl crates kp' : Outcome Empty Url) = .ok u' ∧
        (publicKeyUrl crates kp' : Outcome Empty Url) = .ok v' := by
  obtain ⟨rfl, hprivNames, hpubNames⟩ := names_of_fromUrls h
  obtain ⟨privKey', u', hprivUrl, hpriv', hprivNames'⟩ :=
    readsBack_of_tryFrom hurls hdecodes hnames hu hpriv hprivNames
  obtain ⟨pubKey', v', hpubUrl, hpub', hpubNames'⟩ :=
    readsBack_of_tryFrom hurls hdecodes hnames hv hpub hpubNames
  have hprivSame := saysTheSame_of_names hprivNames' hprivNames
  have hpubSame := saysTheSame_of_names hpubNames' hpubNames
  refine ⟨⟨hprivNames.algorithm.trans hpubNames.algorithm.symm,
    hprivNames.flags.trans hpubNames.flags.symm, hprivNames.serverId, hpubNames.serverId⟩,
    u', v', privKey', pubKey', hprivUrl, hpubUrl, hpriv', hpub', hprivSame, hpubSame,
    fromUrls_congr hprivSame hpubSame _, ?_⟩
  intro connPool' t' kp' h'
  obtain ⟨_, hprivNames'', hpubNames''⟩ := names_of_fromUrls h'
  exact ⟨(keyUrl_of_names hprivNames' hprivNames'').trans hprivUrl,
    (keyUrl_of_names hpubNames' hpubNames'').trans hpubUrl⟩

/-- Domains in lower case. -/
def sampleRules : DomainRules where
  toAscii text :=
    let domain := text.map Char.toLower
    if domain.all fun c => c.toNat < 0x80 then some domain else none
  endsInNumber text := text.getLast?.any Char.isDigit
  parseIpv4 _ := none
  isAscii_toAscii := by
    intro text domain h c hc
    simp only at h
    split at h
    · rename_i hall
      obtain rfl := Option.some.inj h
      simpa using List.all_eq_true.mp hall c hc
    · exact nomatch h

/-- `https://HSM:8443/keys\\public?flags=1&flags=257&algorithm=15#old` -/
def sampleSpecialUrl : Url where
  scheme := "https".toList
  username := []
  password := []
  host := some "hsm".toList
  port := some 8443
  path := "/keys/public".toList
  query := some (formText strayParameters)
  fragment := some "old".toList

theorem standard_sampleSpecialUrl : Standard sampleRules loopback sampleSpecialUrl := by
  have hhost : sampleSpecialUrl.host = parseSpecialHost sampleRules loopback "HSM".toList := by
    decide
  have hpath : sampleSpecialUrl.path = parseSpecialPath false "/keys\\public".toList := by
    decide
  exact .special hhost hpath

theorem reload_stable_sample :
    ∃ kp u' v' privKey' pubKey',
      (privateKeyUrl sampleCrates kp : Outcome Empty Url) = .ok u' ∧
      (publicKeyUrl sampleCrates kp : Outcome Empty Url) = .ok v' ∧
      tryFrom sampleCrates u' = .ok privKey' ∧ privKey'.keyId = "private" ∧
      tryFrom sampleCrates v' = .ok pubKey' ∧ pubKey'.keyId = "public" ∧
      pubKey'.flags = 257 := by
  have hpriv : tryFrom sampleCrates strayUrl = .ok ⟨strayUrl, "hsm", "private", .ED25519, 257⟩ :=
    tryFrom_strayParameters rfl rfl rfl
  have hpub : tryFrom sampleCrates sampleSpecialUrl =
      .ok ⟨sampleSpecialUrl, "hsm", "public", .ED25519, 257⟩ := tryFrom_strayParameters rfl rfl rfl
  obtain ⟨t, ht⟩ := Program.exists_admits (getReplies (rawKey (List.replicate 32 1)))
    (fromUrls sampleCrates ⟨strayUrl, "hsm", "private", .ED25519, 257⟩
      ⟨sampleSpecialUrl, "hsm", "public", .ED25519, 257⟩ samplePool).program
  obtain ⟨_, u', v', privKey', pubKey', hu', hv', hpriv', hpub', hsame, hsame', _⟩ :=
    reload_stable sampleCrates_parsesUrls sampleCrates_decodes sampleCrates_namesAlgorithms
      (.generic (by decide) parse_strayUrl) standard_sampleSpecialUrl hpriv hpub ht
  exact ⟨_, u', v', privKey', pubKey', hu', hv', hpriv', hsame.keyId, hpub', hsame'.keyId,
    hsame'.flags⟩

end DomainKmip.UrlStability
