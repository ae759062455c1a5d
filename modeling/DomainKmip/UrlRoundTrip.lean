import DomainKmip.KeyLabels
import DomainKmip.KeyUrls

namespace DomainKmip.UrlRoundTrip

open DomainKmip.Library.PercentEncoding
open DomainKmip.Library.RustResult
open DomainKmip.Library.RustText
open DomainKmip.Library.UrlSyntax
open DomainKmip.Library.UrlParsing
open DomainKmip.Domain
open DomainKmip.Kmip
open DomainKmip.Dependencies
open DomainKmip.Errors
open DomainKmip.Client
open DomainKmip.KeyPairs
open DomainKmip.KeyUrls
open DomainKmip.SigningSafety
open DomainKmip.KeyLoading
open DomainKmip.KeyLabels

/-- A key URL says what a key pair holds about one of its keys. -/
structure Names (key : KeyUrl) (kp : KeyPair) (keyId : String) : Prop where
  serverId : key.serverId = kp.connPool.serverId
  keyId : key.keyId = keyId
  algorithm : key.algorithm = kp.algorithm
  flags : key.flags = kp.flags

def ReadsBack (crates : Crates) (kp : KeyPair) (keyId : String) (key : KeyUrl) : Prop :=
  ∃ url, (keyUrl crates kp keyId : Outcome Empty Url) = .ok url ∧
    tryFrom crates url = .ok key ∧ Names key kp keyId

/-- Both key URLs are read back, and a key pair is loaded from them as from its
metadata. -/
def RoundTrips (crates : Crates) (kp : KeyPair) : Prop :=
  ∃ privateUrl publicUrl privKey pubKey,
    (privateKeyUrl crates kp : Outcome Empty Url) = .ok privateUrl ∧
      (publicKeyUrl crates kp : Outcome Empty Url) = .ok publicUrl ∧
      tryFrom crates privateUrl = .ok privKey ∧ tryFrom crates publicUrl = .ok pubKey ∧
      Names privKey kp kp.privateKeyId ∧ Names pubKey kp kp.publicKeyId ∧
      fromUrls crates privKey pubKey kp.connPool =
        fromMetadata crates kp.algorithm kp.flags kp.privateKeyId kp.publicKeyId kp.connPool

theorem fromUrls_of_names {crates : Crates} {kp : KeyPair} {privKey pubKey : KeyUrl}
    (hpriv : Names privKey kp kp.privateKeyId) (hpub : Names pubKey kp kp.publicKeyId) :
    fromUrls crates privKey pubKey kp.connPool =
      fromMetadata crates kp.algorithm kp.flags kp.privateKeyId kp.publicKeyId kp.connPool := by
  simp [fromUrls, hpriv.algorithm, hpriv.flags, hpriv.serverId, hpriv.keyId, hpub.algorithm,
    hpub.flags, hpub.serverId, hpub.keyId]

theorem roundTrips_iff_readsBack {crates : Crates} {kp : KeyPair} :
    RoundTrips crates kp ↔
      (∃ key, ReadsBack crates kp kp.privateKeyId key) ∧
        ∃ key, ReadsBack crates kp kp.publicKeyId key := by
  constructor
  · rintro ⟨privateUrl, publicUrl, privKey, pubKey, hprivUrl, hpubUrl, hpriv, hpub, hprivNames,
      hpubNames, _⟩
    exact ⟨⟨privKey, privateUrl, hprivUrl, hpriv, hprivNames⟩,
      ⟨pubKey, publicUrl, hpubUrl, hpub, hpubNames⟩⟩
  · rintro ⟨⟨privKey, privateUrl, hprivUrl, hpriv, hprivNames⟩,
      ⟨pubKey, publicUrl, hpubUrl, hpub, hpubNames⟩⟩
    exact ⟨privateUrl, publicUrl, privKey, pubKey, hprivUrl, hpubUrl, hpriv, hpub, hprivNames,
      hpubNames, fromUrls_of_names hprivNames hpubNames⟩

def parameters (crates : Crates) (algorithm : SecurityAlgorithm) (flags : UInt16) :
    List (List Char × List Char) :=
  [("algorithm".toList, (crates.displayAlgorithm algorithm).toList),
    ("flags".toList, Nat.toDigits 10 flags.toNat)]

/-- What a key URL has behind its scheme. -/
def afterScheme (crates : Crates) (kp : KeyPair) (keyId : String) : List Char :=
  kp.connPool.serverId.toList ++ '/' :: (("keys".toList ++ '/' :: keyId.toList) ++
    '?' :: formText (parameters crates kp.algorithm kp.flags))

variable {crates : Crates} {ipv6 : Ipv6} {kp : KeyPair} {keyId : String}

theorem keyUrl_text (server id algorithm : String) (flags : UInt16) :
    s!"kmip://{server}/keys/{id}?algorithm={algorithm}&flags={flags}" =
      String.ofList ("kmip".toList ++ ':' :: '/' :: '/' ::
        (server.toList ++ '/' :: (("keys".toList ++ '/' :: id.toList) ++
          '?' :: formText [("algorithm".toList, algorithm.toList),
            ("flags".toList, Nat.toDigits 10 flags.toNat)]))) := by
  apply String.toList_inj.mp
  change ("kmip://" ++ server ++ "/keys/" ++ id ++ "?algorithm=" ++ algorithm ++ "&flags=" ++
    flags.toNat.repr).toList = _
  simp [formText, List.intercalate_cons_cons]

theorem keyUrl_eq_ok_iff (hurls : crates.ParsesUrls ipv6) {url : Url} :
    (keyUrl crates kp keyId : Outcome Empty Url) = .ok url ↔
      parse ipv6 "kmip".toList (afterScheme crates kp keyId) = some url := by
  rw [← hurls "kmip".toList _ (by decide), keyUrl, mkKeyUrl]
  simp only [keyUrl_text, afterScheme, parameters]
  cases crates.parseUrl _ with
  | ok parsed => simp [Outcome.ofExcept, Except.toOption]
  | error err => simp [Outcome.ofExcept, Except.toOption]

theorem isPlain_parameters (hnames : crates.NamesAlgorithms) (algorithm : SecurityAlgorithm)
    (flags : UInt16) :
    ∀ pair ∈ parameters crates algorithm flags,
      (∀ c ∈ pair.1, isPlain c = true) ∧ ∀ c ∈ pair.2, isPlain c = true := by
  simp only [parameters, List.mem_cons, List.not_mem_nil, or_false, forall_eq_or_imp, forall_eq]
  refine ⟨⟨List.all_eq_true.mp (by decide), hnames.isPlain_display algorithm⟩,
    List.all_eq_true.mp (by decide), ?_⟩
  intro c hc
  exact isPlain_of_mem_toDigits hc

theorem readParameters_parameters (hnames : crates.NamesAlgorithms)
    (algorithm : SecurityAlgorithm) (flags : UInt16) :
    readParameters crates ((parameters crates algorithm flags).map fun pair =>
        (String.ofList pair.1, String.ofList pair.2)) =
      .ok (some flags, some algorithm) := by
  simp [parameters, readParameters, readParameter, hnames.parse_display, parseU16_toDigits]

theorem tryFrom_of_components (hdecodes : Decodes crates.decodeUtf8Lossy)
    (hnames : crates.NamesAlgorithms) {url : Url} {serverId : String}
    {algorithm : SecurityAlgorithm} {flags : UInt16} (hhost : url.hostStr = some serverId)
    (hpath : url.path = "/keys/".toList ++ keyId.toList)
    (hquery : url.query = some (formText (parameters crates algorithm flags))) :
    tryFrom crates url = .ok { url, serverId, keyId, algorithm, flags } := by
  refine (tryFrom_eq_ok_iff crates).mpr ⟨rfl, hhost, hpath, ?_⟩
  rw [queryPairs_formText hdecodes (by simp [parameters]) hquery
    (isPlain_parameters hnames algorithm flags)]
  exact readParameters_parameters hnames algorithm flags

/-- Below `/keys/` a path looks as it does elsewhere. -/
theorem plainPath_keyId {path : List Char}
    (hplain : path = [] ∨ ∃ rest, path = '/' :: rest ∧ PlainPath rest)
    (hpath : path = "/keys/".toList ++ keyId.toList) : PlainPath keyId.toList := by
  rcases hplain with hnil | ⟨rest, hslash, hplain⟩
  · rw [hnil] at hpath
    exact nomatch hpath
  · have hkeys : rest = "keys".toList ++ '/' :: keyId.toList := by
      rw [hslash] at hpath
      exact (List.cons.inj hpath).2
    rw [hkeys] at hplain
    exact ((plainPath_cons_slash_iff (by decide)).mp hplain).2

theorem plain_of_readsBack (hurls : crates.ParsesUrls ipv6) {key : KeyUrl}
    (h : ReadsBack crates kp keyId key) :
    PlainHost ipv6 kp.connPool.serverId.toList ∧ PlainPath keyId.toList := by
  obtain ⟨url, hurl, hkey, hnames⟩ := h
  obtain ⟨_, hhost, hpath, _⟩ := (tryFrom_eq_ok_iff crates).mp hkey
  obtain ⟨⟨host, hurlHost, hplainHost⟩, hplainPath⟩ :=
    parse_components ((keyUrl_eq_ok_iff hurls).mp hurl)
  rw [hnames.serverId] at hhost
  rw [hnames.keyId] at hpath
  constructor
  · obtain ⟨hhost, hne⟩ := Url.hostStr_eq_some_iff.mp hhost
    obtain rfl := Option.some.inj (hurlHost.symm.trans hhost)
    exact hplainHost.resolve_left hne
  · exact plainPath_keyId hplainPath hpath

theorem readsBack_of_plain (hurls : crates.ParsesUrls ipv6)
    (hdecodes : Decodes crates.decodeUtf8Lossy) (hnames : crates.NamesAlgorithms)
    (hhost : PlainHost ipv6 kp.connPool.serverId.toList) (hpath : PlainPath keyId.toList) :
    ∃ key, ReadsBack crates kp keyId key := by
  have hkeys : PlainPath ("keys".toList ++ '/' :: keyId.toList) :=
    (plainPath_cons_slash_iff (by decide)).mpr
      ⟨⟨eq_false_of_any (by decide), by decide, by decide, by decide⟩, hpath⟩
  have hquery := querySet_of_mem_formText (isPlain_parameters hnames kp.algorithm kp.flags)
  have hparse := parse_plain "kmip".toList hhost hkeys hquery
  exact ⟨_, _, (keyUrl_eq_ok_iff hurls).mpr hparse,
    tryFrom_of_components hdecodes hnames (Url.hostStr_eq_some_iff.mpr ⟨rfl, hhost.ne_nil⟩) rfl rfl,
    rfl, rfl, rfl, rfl⟩

/-- A key pair can be loaded again from its URLs exactly if its server id is a plain
host and its key ids are plain paths. -/
theorem roundTrips_iff (hurls : crates.ParsesUrls ipv6) (hdecodes : Decodes crates.decodeUtf8Lossy)
    (hnames : crates.NamesAlgorithms) (kp : KeyPair) :
    RoundTrips crates kp ↔
      PlainHost ipv6 kp.connPool.serverId.toList ∧ PlainPath kp.privateKeyId.toList ∧
        PlainPath kp.publicKeyId.toList := by
  rw [roundTrips_iff_readsBack]
  constructor
  · rintro ⟨⟨privKey, hpriv⟩, ⟨pubKey, hpub⟩⟩
    obtain ⟨hhost, hprivPath⟩ := plain_of_readsBack hurls hpriv
    exact ⟨hhost, hprivPath, (plain_of_readsBack hurls hpub).2⟩
  · rintro ⟨hhost, hprivPath, hpubPath⟩
    exact ⟨readsBack_of_plain hurls hdecodes hnames hhost hprivPath,
      readsBack_of_plain hurls hdecodes hnames hhost hpubPath⟩

theorem sampleKeyPair_roundTrips :
    RoundTrips sampleCrates (sampleKeyPair .RSASHA256 samplePool) :=
  (roundTrips_iff sampleCrates_parsesUrls sampleCrates_decodes sampleCrates_namesAlgorithms
    (sampleKeyPair .RSASHA256 samplePool)).mpr
    ⟨Or.inl ⟨by decide, fun c hc =>
        ⟨eq_false_of_any (by decide) c hc, eq_false_of_any (by decide) c hc⟩⟩,
      ⟨eq_false_of_any (by decide), by decide⟩, ⟨eq_false_of_any (by decide), by decide⟩⟩

theorem ones_fit : 4 + (List.replicate 32 (1 : UInt8)).length ≤ 65535 := by decide

def dottedKeyPair : KeyPair where
  algorithm := .ED25519
  privateKeyId := "private"
  publicKeyId := "zone/../root"
  connPool := samplePool
  dnskey :=
    { flags := 257
      protocol := 3
      algorithm := .ED25519
      publicKey := List.replicate 32 1
      fits := ones_fit }
  flags := 257

theorem publicKeyUrl_of_dottedKeyPair :
    ∃ url, (publicKeyUrl sampleCrates dottedKeyPair : Outcome Empty Url) = .ok url ∧
      url.hostStr = some "hsm" ∧ url.path = "/keys/".toList ++ "root".toList ∧
      url.query = some (formText (parameters sampleCrates .ED25519 257)) := by
  have hparse : parse loopback "kmip".toList (afterScheme sampleCrates dottedKeyPair
        dottedKeyPair.publicKeyId) =
      some
        { scheme := "kmip".toList, username := [], password := [], host := some "hsm".toList
          port := none, path := "/keys/root".toList
          query := some (formText (parameters sampleCrates .ED25519 257)), fragment := none } := by
    decide +kernel
  exact ⟨_, (keyUrl_eq_ok_iff sampleCrates_parsesUrls).mpr hparse,
    Url.hostStr_eq_some_iff.mpr ⟨rfl, by decide⟩, rfl, rfl⟩

/-- The server can choose an id whose URL is that of another key. -/
theorem dottedKeyPair_names_another_key :
    (fromMetadata sampleCrates .ED25519 257 "private" "zone/../root" samplePool).eval
        (getReplies (rawKey (List.replicate 32 1))) = .ok dottedKeyPair ∧
      ¬ RoundTrips sampleCrates dottedKeyPair ∧
      ∃ url key, (publicKeyUrl sampleCrates dottedKeyPair : Outcome Empty Url) = .ok url ∧
        tryFrom sampleCrates url = .ok key ∧ key.keyId = "root" := by
  refine ⟨rfl, ?_, ?_⟩
  · rw [roundTrips_iff_readsBack]
    rintro ⟨_, key, hkey⟩
    have hpath := (plain_of_readsBack sampleCrates_parsesUrls hkey).2
    exact absurd (hpath.2 "..".toList (by decide)) (by decide)
  · obtain ⟨url, hurl, hhost, hpath, hquery⟩ := publicKeyUrl_of_dottedKeyPair
    exact ⟨url, _, hurl, tryFrom_of_components sampleCrates_decodes sampleCrates_namesAlgorithms
      hhost hpath hquery, rfl⟩

end DomainKmip.UrlRoundTrip
