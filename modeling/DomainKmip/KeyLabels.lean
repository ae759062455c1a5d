import DomainKmip.KeyLoading

namespace DomainKmip.KeyLabels

open DomainKmip.Library.BigEndian
open DomainKmip.Library.RsaField
open DomainKmip.Library.Der
open DomainKmip.Domain
open DomainKmip.Kmip
open DomainKmip.Dependencies
open DomainKmip.Oids
open DomainKmip.Ecdsa
open DomainKmip.PublicKeys
open DomainKmip.SigningSafety
open DomainKmip.KeyForms
open DomainKmip.KeyLoading

inductive KeyType where
  | rsa
  | p256
  | p384
  | ed25519
  | ed448
  deriving DecidableEq, Repr

/-- The type of key an algorithm is for. Of the algorithms without a name in the
crate, RSA/MD5 is for RSA keys. -/
def requires : SecurityAlgorithm → Option KeyType
  | .RSASHA1 | .RSASHA1_NSEC3_SHA1 | .RSASHA256 | .RSASHA512 => some .rsa
  | .ECDSAP256SHA256 => some .p256
  | .ECDSAP384SHA384 => some .p384
  | .ED25519 => some .ed25519
  | .ED448 => some .ed448
  | .int code _ => if code = 1 then some .rsa else none

/-- The cryptographic algorithms that a key of the type may be labelled with. Code
26 is that of elliptic curve keys in general. -/
def KeyType.labels : KeyType → List CryptographicAlgorithm
  | .rsa => [.RSA]
  | .p256 | .p384 => [.ECDSA, .other 26]
  | .ed25519 => [.Ed25519]
  | .ed448 => [.Ed448]

def KeyType.identifier : KeyType → Option Octets
  | .rsa => some rsaIdentifier
  | .p256 => some (ecIdentifier SECP256R1_OID)
  | .p384 => some (ecIdentifier SECP384R1_OID)
  | .ed25519 | .ed448 => none

/-- The shape of the public key field in a DNSKEY record. -/
def KeyType.WellFormed (octets : Octets) : KeyType → Prop
  | .rsa => IsRfc3110 octets
  | .p256 => octets.length = 64
  | .p384 => octets.length = 96
  | .ed25519 => octets.length = 32
  | .ed448 => octets.length = 57

/-- Something in the response says that the key is not of the type: the label, the
kind of key material, the format or the identifier in an X.509 key. -/
inductive Denies (keyBlock : KeyBlock) (type : KeyType) : Prop
  | label {label : CryptographicAlgorithm}
      (hlabel : keyBlock.cryptographicAlgorithm = some label) (hother : label ∉ type.labels)
  | transparent {modulus exponent : Octets}
      (hmaterial : keyBlock.keyMaterial = .TransparentRSAPublicKey modulus exponent)
      (hother : type ≠ .rsa)
  | pkcs1 {bytes : Octets} (hmaterial : keyBlock.keyMaterial = .Bytes bytes)
      (hformat : keyBlock.keyFormatType = .PKCS1) (hother : type ≠ .rsa)
  | x509 {bytes identifier rest : Octets} {bits : BitString}
      (hmaterial : keyBlock.keyMaterial = .Bytes bytes)
      (hformat : keyBlock.keyFormatType = .X509) (hbits : SpkiBits identifier bits)
      (hbytes : bytes = subjectPublicKeyInfo identifier bits ++ rest)
      (hother : type.identifier ≠ some identifier)

/-- The key is labelled with the algorithm, is of the type that the algorithm
requires as far as the response tells, and has the field of such a key. -/
def Fits (algorithm : SecurityAlgorithm) (object : ManagedObject) (key : PublicKey) : Prop :=
  key.algorithm = algorithm ∧ ∃ keyBlock type, object = .PublicKey keyBlock ∧
    requires algorithm = some type ∧ ¬ Denies keyBlock type ∧ type.WellFormed key.publicKey

def LabelAgrees (algorithm : SecurityAlgorithm) (keyBlock : KeyBlock) : Prop :=
  ∀ label, keyBlock.cryptographicAlgorithm = some label →
    ∃ type, requires algorithm = some type ∧ label ∈ type.labels

/-- The length of the exponent can be written, once its leading zeros are gone. -/
def Encodable (exponent : Octets) : Prop := (withoutLeadingZeros exponent).length ≤ 65535

/-- Neither number is zero. After an exponent of zero, of which nothing is written, the first
octets of the modulus would have to announce a length in the long form. -/
def FramedNumbers (modulus exponent : Octets) : Prop :=
  value exponent ≠ 0 ∧ value modulus ≠ 0 ∨
    value exponent = 0 ∧ ∃ hi lo rest, withoutLeadingZeros modulus = hi :: lo :: rest ∧
      255 < 256 * hi.toNat + lo.toNat ∧ 256 * hi.toNat + lo.toNat < rest.length

/-- A byte string that the parser for its form turns into a key. -/
def Accepted (bytes : Octets) : Form → Prop
  | .pkcs1 => ∃ modulus exponent, HasPkcs1 bytes modulus exponent ∧ Encodable exponent
  | .rsaX509 => ∃ modulus exponent, HasRsaX509 bytes modulus exponent ∧ Encodable exponent
  | .ecX509 curve coordLen => ∃ point, HasEcX509 curve bytes (0x04 :: point) ∧
      point.length = 2 * coordLen
  | .raw => True

/-- What no parser checks of the key in a byte string. -/
def FieldAgrees (algorithm : SecurityAlgorithm) (bytes : Octets) : Form → Prop
  | .pkcs1 => ∀ modulus exponent, HasPkcs1 bytes modulus exponent → FramedNumbers modulus exponent
  | .rsaX509 =>
      ∀ modulus exponent, HasRsaX509 bytes modulus exponent → FramedNumbers modulus exponent
  | .ecX509 .. => True
  | .raw => ∀ type, requires algorithm = some type → type.WellFormed bytes

/-- The dispatch does not look at the label, looks at raw octets for no algorithm,
takes a transparent RSA key for every algorithm, and lets zero pass for a modulus or an
exponent. -/
def Agrees (algorithm : SecurityAlgorithm) : ManagedObject → Prop
  | .PublicKey keyBlock =>
      match keyBlock.keyMaterial with
      | .Bytes bytes => ∀ f, form algorithm keyBlock.keyFormatType = some f →
          Accepted bytes f → LabelAgrees algorithm keyBlock ∧ FieldAgrees algorithm bytes f
      | .TransparentRSAPublicKey modulus exponent => Encodable exponent →
          requires algorithm = some .rsa ∧ LabelAgrees algorithm keyBlock ∧
            FramedNumbers modulus exponent
      | .other _ => True
  | .other _ => True

theorem framedNumbers_iff {modulus exponent : Octets} :
    FramedNumbers modulus exponent ↔
      Framed (withoutLeadingZeros exponent) (withoutLeadingZeros modulus) := by
  simp only [FramedNumbers, Framed, ne_eq, withoutLeadingZeros_eq_nil_iff]

theorem requires_of_form {algorithm : SecurityAlgorithm} {format : KeyFormatType} {f : Form}
    (h : form algorithm format = some f) : ∃ type, requires algorithm = some type := by
  cases algorithm with
  | int code unnamed => cases format <;> simp [form, Rsa.usesRsa] at h
  | _ => exact ⟨_, rfl⟩

theorem requires_of_usesRsa {algorithm : SecurityAlgorithm}
    (h : Rsa.usesRsa algorithm = true) : requires algorithm = some .rsa := by
  cases algorithm <;> simp_all [Rsa.usesRsa, requires]

/-- What the parsers of X.509 keys accept has the identifier of the required type. -/
theorem identifier_of_accepted {algorithm : SecurityAlgorithm} {bytes : Octets} {f : Form}
    {type : KeyType} (hform : form algorithm .X509 = some f)
    (hrequires : requires algorithm = some type) (haccepted : Accepted bytes f) :
    ∃ identifier bits rest, type.identifier = some identifier ∧ SpkiBits identifier bits ∧
      bytes = subjectPublicKeyInfo identifier bits ++ rest := by
  cases f with
  | pkcs1 => cases algorithm <;> simp [form, Rsa.usesRsa] at hform
  | rsaX509 =>
      obtain ⟨modulus, exponent, ⟨bits, rest, hbits, _, hbytes⟩, _⟩ := haccepted
      refine ⟨rsaIdentifier, bits, rest, ?_, hbits, hbytes⟩
      rw [requires_of_usesRsa (usesRsa_of_form (Or.inr hform))] at hrequires
      cases hrequires
      rfl
  | ecX509 curve coordLen =>
      obtain ⟨point, ⟨bits, rest, hbits, _, hbytes⟩, _⟩ := haccepted
      refine ⟨ecIdentifier curve, bits, rest, ?_, hbits, hbytes⟩
      rcases curve_of_form hform with ⟨rfl, rfl, _⟩ | ⟨rfl, rfl, _⟩ <;>
        cases hrequires <;> rfl
  | raw => cases algorithm <;> simp [form, Rsa.usesRsa] at hform

/-- The forms with a parser settle the type of the key. -/
theorem not_denies_of_accepted {algorithm : SecurityAlgorithm} {keyBlock : KeyBlock}
    {bytes : Octets} {f : Form} {type : KeyType}
    (hmaterial : keyBlock.keyMaterial = .Bytes bytes)
    (hform : form algorithm keyBlock.keyFormatType = some f)
    (hrequires : requires algorithm = some type) (haccepted : Accepted bytes f) :
    Denies keyBlock type ↔
      ∃ label, keyBlock.cryptographicAlgorithm = some label ∧ label ∉ type.labels := by
  constructor
  · intro h
    cases h with
    | label hlabel hother => exact ⟨_, hlabel, hother⟩
    | transparent hmaterial' => simp [hmaterial] at hmaterial'
    | pkcs1 _ hformat hother =>
        rw [hformat] at hform
        cases algorithm <;> simp_all [form, Rsa.usesRsa, requires]
    | x509 hmaterial' hformat hbits hbytes hother =>
        obtain rfl : bytes = _ := by simpa [hmaterial] using hmaterial'
        rw [hformat] at hform
        obtain ⟨identifier, bits, rest, hidentifier, hbits', h⟩ :=
          identifier_of_accepted hform hrequires haccepted
        obtain ⟨rfl, _⟩ := subjectPublicKeyInfo_unique hbits hbits' (hbytes.symm.trans h)
        exact (hother hidentifier).elim
  · rintro ⟨label, hlabel, hother⟩
    exact .label hlabel hother

theorem labelAgrees_iff {algorithm : SecurityAlgorithm} {keyBlock : KeyBlock} {type : KeyType}
    (hrequires : requires algorithm = some type) :
    LabelAgrees algorithm keyBlock ↔
      ¬ ∃ label, keyBlock.cryptographicAlgorithm = some label ∧ label ∉ type.labels := by
  simp [LabelAgrees, hrequires]

theorem not_denies_transparent_iff {algorithm : SecurityAlgorithm} {keyBlock : KeyBlock}
    {modulus exponent : Octets}
    (hmaterial : keyBlock.keyMaterial = .TransparentRSAPublicKey modulus exponent)
    {type : KeyType} (hrequires : requires algorithm = some type) :
    ¬ Denies keyBlock type ↔ type = .rsa ∧ LabelAgrees algorithm keyBlock := by
  rw [labelAgrees_iff hrequires]
  constructor
  · intro h
    refine ⟨?_, ?_⟩
    · by_contra hother
      exact h (.transparent hmaterial hother)
    · rintro ⟨label, hlabel, hother⟩
      exact h (.label hlabel hother)
  · rintro ⟨rfl, hlabel⟩ hdenies
    cases hdenies with
    | label hlabel' hother => exact hlabel ⟨_, hlabel', hother⟩
    | transparent _ hother => exact hother rfl
    | pkcs1 hmaterial' => simp [hmaterial] at hmaterial'
    | x509 hmaterial' => simp [hmaterial] at hmaterial'

section Condition

variable {crates : Crates} (hcrates : crates.FramesRsa) {algorithm : SecurityAlgorithm}

include hcrates

theorem exists_rsaEncode_iff {modulus exponent : Octets} :
    (∃ publicKey, crates.rsaEncode exponent modulus = some publicKey) ↔ Encodable exponent := by
  rw [hcrates, frameNumbers, Encodable]
  split <;> simp_all

theorem isRfc3110_of_rsaEncode {modulus exponent publicKey : Octets}
    (h : crates.rsaEncode exponent modulus = some publicKey) :
    IsRfc3110 publicKey ↔ FramedNumbers modulus exponent := by
  rw [hcrates, frameNumbers] at h
  split at h
  · rename_i hlen
    obtain rfl := Option.some.inj h
    rw [isRfc3110_iff hlen, framedNumbers_iff]
  · simp at h

theorem exists_encoded_iff {read : Octets → Octets → Prop} :
    (∃ publicKey modulus exponent, read modulus exponent ∧
      crates.rsaEncode exponent modulus = some publicKey) ↔
      ∃ modulus exponent, read modulus exponent ∧ Encodable exponent := by
  constructor
  · rintro ⟨publicKey, modulus, exponent, hread, hencode⟩
    exact ⟨modulus, exponent, hread, (exists_rsaEncode_iff hcrates).mp ⟨publicKey, hencode⟩⟩
  · rintro ⟨modulus, exponent, hread, hlen⟩
    obtain ⟨publicKey, hencode⟩ := (exists_rsaEncode_iff hcrates).mpr hlen
    exact ⟨publicKey, modulus, exponent, hread, hencode⟩

theorem exists_holds_iff {bytes : Octets} {f : Form} :
    (∃ publicKey, f.Holds crates bytes publicKey) ↔ Accepted bytes f := by
  cases f with
  | pkcs1 => exact exists_encoded_iff hcrates
  | rsaX509 => exact exists_encoded_iff hcrates
  | ecX509 curve coordLen => rfl
  | raw => simp [Form.Holds, Accepted]

/-- The field of a key that came out of a parser is well formed but for what the parser
leaves unchecked. -/
theorem wellFormed_iff_of_holds {format : KeyFormatType} {bytes publicKey : Octets} {f : Form}
    {type : KeyType} (hform : form algorithm format = some f)
    (hrequires : requires algorithm = some type) (holds : f.Holds crates bytes publicKey) :
    type.WellFormed publicKey ↔ FieldAgrees algorithm bytes f := by
  cases f with
  | pkcs1 =>
      obtain ⟨modulus, exponent, hkey, hencode⟩ := holds
      obtain rfl : type = .rsa := by
        simpa [requires_of_usesRsa (usesRsa_of_form (Or.inl hform))] using hrequires.symm
      rw [KeyType.WellFormed, isRfc3110_of_rsaEncode hcrates hencode]
      refine ⟨fun hframed modulus' exponent' hkey' => ?_, fun h => h _ _ hkey⟩
      obtain ⟨rfl, rfl⟩ := hasPkcs1_unique hkey hkey'
      exact hframed
  | rsaX509 =>
      obtain ⟨modulus, exponent, hkey, hencode⟩ := holds
      obtain rfl : type = .rsa := by
        simpa [requires_of_usesRsa (usesRsa_of_form (Or.inr hform))] using hrequires.symm
      rw [KeyType.WellFormed, isRfc3110_of_rsaEncode hcrates hencode]
      refine ⟨fun hframed modulus' exponent' hkey' => ?_, fun h => h _ _ hkey⟩
      obtain ⟨rfl, rfl⟩ := hasRsaX509_unique hkey hkey'
      exact hframed
  | ecX509 curve coordLen =>
      obtain ⟨_, hlen⟩ := holds
      rcases curve_of_form hform with ⟨rfl, _, rfl⟩ | ⟨rfl, _, rfl⟩ <;>
        cases hrequires <;> simpa [KeyType.WellFormed, FieldAgrees] using hlen
  | raw =>
      obtain rfl : publicKey = bytes := holds
      simp [FieldAgrees, hrequires]

theorem encoded_fits_iff {keyBlock : KeyBlock} {modulus exponent publicKey : Octets}
    (hmaterial : keyBlock.keyMaterial = .TransparentRSAPublicKey modulus exponent)
    (hencode : crates.rsaEncode exponent modulus = some publicKey) :
    Fits algorithm (.PublicKey keyBlock) ⟨algorithm, publicKey⟩ ↔
      requires algorithm = some .rsa ∧ LabelAgrees algorithm keyBlock ∧
        FramedNumbers modulus exponent := by
  rw [← isRfc3110_of_rsaEncode hcrates hencode]
  constructor
  · rintro ⟨_, _, type, ⟨⟩, hrequires, hdenies, hwf⟩
    obtain ⟨rfl, hlabel⟩ := (not_denies_transparent_iff hmaterial hrequires).mp hdenies
    exact ⟨hrequires, hlabel, hwf⟩
  · rintro ⟨hrequires, hlabel, hwf⟩
    exact ⟨rfl, keyBlock, .rsa, rfl, hrequires,
      (not_denies_transparent_iff hmaterial hrequires).mpr ⟨rfl, hlabel⟩, hwf⟩

theorem form_fits_iff {keyBlock : KeyBlock} {bytes : Octets}
    (hmaterial : keyBlock.keyMaterial = .Bytes bytes) {f : Form}
    (hform : form algorithm keyBlock.keyFormatType = some f) :
    (∀ publicKey, f.Holds crates bytes publicKey →
        Fits algorithm (.PublicKey keyBlock) ⟨algorithm, publicKey⟩) ↔
      (Accepted bytes f →
        LabelAgrees algorithm keyBlock ∧ FieldAgrees algorithm bytes f) := by
  obtain ⟨type, hrequires⟩ := requires_of_form hform
  constructor
  · intro h haccepted
    obtain ⟨publicKey, holds⟩ := (exists_holds_iff hcrates).mpr haccepted
    obtain ⟨_, _, type', ⟨⟩, hrequires', hdenies, hwf⟩ := h publicKey holds
    obtain rfl : type = type' := Option.some.inj (hrequires.symm.trans hrequires')
    rw [not_denies_of_accepted hmaterial hform hrequires haccepted] at hdenies
    exact ⟨(labelAgrees_iff hrequires).mpr hdenies,
      (wellFormed_iff_of_holds hcrates hform hrequires holds).mp hwf⟩
  · intro h publicKey holds
    have haccepted := (exists_holds_iff hcrates).mp ⟨publicKey, holds⟩
    obtain ⟨hlabel, hfield⟩ := h haccepted
    refine ⟨rfl, keyBlock, type, rfl, hrequires, ?_, ?_⟩
    · rw [not_denies_of_accepted hmaterial hform hrequires haccepted]
      exact (labelAgrees_iff hrequires).mp hlabel
    · exact (wellFormed_iff_of_holds hcrates hform hrequires holds).mpr hfield

theorem bytes_fits_iff {keyBlock : KeyBlock} {bytes : Octets}
    (hmaterial : keyBlock.keyMaterial = .Bytes bytes) :
    (∀ publicKey, Holds crates algorithm (.PublicKey keyBlock) publicKey →
        Fits algorithm (.PublicKey keyBlock) ⟨algorithm, publicKey⟩) ↔
      ∀ f, form algorithm keyBlock.keyFormatType = some f → Accepted bytes f →
        LabelAgrees algorithm keyBlock ∧ FieldAgrees algorithm bytes f := by
  constructor
  · intro h f hform
    exact (form_fits_iff hcrates hmaterial hform).mp fun publicKey holds =>
      h publicKey (.bytes hmaterial hform holds)
  · intro h publicKey holds
    cases holds with
    | bytes hmaterial' hform holds =>
        obtain rfl := KeyMaterial.Bytes.inj (hmaterial.symm.trans hmaterial')
        exact (form_fits_iff hcrates hmaterial hform).mpr (h _ hform) publicKey holds
    | transparent hmaterial' => cases hmaterial.symm.trans hmaterial'

theorem transparent_fits_iff {keyBlock : KeyBlock} {modulus exponent : Octets}
    (hmaterial : keyBlock.keyMaterial = .TransparentRSAPublicKey modulus exponent) :
    (∀ publicKey, Holds crates algorithm (.PublicKey keyBlock) publicKey →
        Fits algorithm (.PublicKey keyBlock) ⟨algorithm, publicKey⟩) ↔
      (Encodable exponent → requires algorithm = some .rsa ∧ LabelAgrees algorithm keyBlock ∧
        FramedNumbers modulus exponent) := by
  constructor
  · intro h hlen
    obtain ⟨publicKey, hencode⟩ := (exists_rsaEncode_iff hcrates).mpr hlen
    exact (encoded_fits_iff hcrates hmaterial hencode).mp
      (h _ (.transparent hmaterial hencode))
  · intro h publicKey holds
    cases holds with
    | bytes hmaterial' => cases hmaterial.symm.trans hmaterial'
    | transparent hmaterial' hencode =>
        obtain ⟨rfl, rfl⟩ :=
          KeyMaterial.TransparentRSAPublicKey.inj (hmaterial.symm.trans hmaterial')
        have hlen := (exists_rsaEncode_iff hcrates).mp ⟨publicKey, hencode⟩
        exact (encoded_fits_iff hcrates hmaterial hencode).mpr (h hlen)

theorem ofManagedObject_fits_iff {object : ManagedObject} :
    (∀ key, ofManagedObject crates algorithm object = .ok key → Fits algorithm object key) ↔
      Agrees algorithm object := by
  have hholds : (∀ key, ofManagedObject crates algorithm object = .ok key →
      Fits algorithm object key) ↔ ∀ publicKey, Holds crates algorithm object publicKey →
        Fits algorithm object ⟨algorithm, publicKey⟩ := by
    simp only [ofManagedObject_eq_ok_iff]
    grind
  rw [hholds]
  rcases object with ⟨format, material, label, length⟩ | code
  · cases material with
    | Bytes bytes => exact bytes_fits_iff hcrates rfl
    | TransparentRSAPublicKey modulus exponent => exact transparent_fits_iff hcrates rfl
    | other code =>
        simp only [Agrees, iff_true]
        intro publicKey h
        cases h with
        | bytes hmaterial => cases hmaterial
        | transparent hmaterial => cases hmaterial
  · simp only [Agrees, iff_true]
    intro publicKey h
    cases h

end Condition

/-- A fetched key fits the algorithm it is labelled with, whatever the keys in the
response, exactly when the response agrees with the algorithm. -/
theorem fetched_key_fits_iff {crates : Crates} (hcrates : crates.FramesRsa)
    (publicKeyId : String) (algorithm : SecurityAlgorithm) (connPool : ConnPool)
    (reply : (call : Call) → Reply call) :
    (∀ object key, reply (.getKey connPool publicKeyId) = .ok object →
        (forKeyIdAndDnssecAlgorithm crates publicKeyId algorithm connPool).eval reply = .ok key →
        Fits algorithm object key) ↔
      ∀ object, reply (.connect connPool) = .ok () →
        reply (.getKey connPool publicKeyId) = .ok object → Agrees algorithm object := by
  rw [eval_forKeyIdAndDnssecAlgorithm]
  simp only [← ofManagedObject_fits_iff hcrates]
  cases reply (.connect connPool) with
  | error err => simp
  | ok _ =>
      constructor
      · intro h object _ hget key hkey
        apply h object key hget
        rw [hget]
        exact hkey
      · intro h object key hget hkey
        rw [hget] at hkey
        exact h object rfl hget key hkey

def rawKey (bytes : Octets) : ManagedObject :=
  .PublicKey
    { keyFormatType := .Raw
      keyMaterial := .Bytes bytes
      cryptographicAlgorithm := some .Ed25519
      cryptographicLength := none }

def transparentKey : ManagedObject :=
  .PublicKey
    { keyFormatType := .other 7
      keyMaterial := .TransparentRSAPublicKey [143] [3]
      cryptographicAlgorithm := some .RSA
      cryptographicLength := some 8 }

def paddedKey : ManagedObject :=
  .PublicKey
    { keyFormatType := .other 7
      keyMaterial := .TransparentRSAPublicKey [0, 0, 0, 0, 0, 0, 0, 143] [0, 0, 0, 0, 0, 0, 0, 3]
      cryptographicAlgorithm := some .RSA
      cryptographicLength := some 8 }

theorem fetched_keys_fit :
    Fits .ED25519 (rawKey (List.replicate 32 1)) ⟨.ED25519, List.replicate 32 1⟩ ∧
      Fits .RSASHA256 paddedKey ⟨.RSASHA256, [1, 3, 143]⟩ := by
  constructor
  · refine (fetched_key_fits_iff sampleCrates_framesRsa "public" .ED25519 samplePool
      (getReplies (rawKey (List.replicate 32 1)))).mpr ?_ _ _ rfl rfl
    rintro _ _ ⟨⟩ f ⟨⟩ _
    refine ⟨?_, ?_⟩
    · rintro label ⟨⟩
      exact ⟨.ed25519, rfl, by simp [KeyType.labels]⟩
    · rintro type ⟨⟩
      rfl
  · refine (fetched_key_fits_iff sampleCrates_framesRsa "public" .RSASHA256 samplePool
      (getReplies paddedKey)).mpr ?_ _ _ rfl rfl
    rintro _ _ ⟨⟩ _
    refine ⟨rfl, ?_, Or.inl ⟨by decide, by decide⟩⟩
    rintro label ⟨⟩
    exact ⟨.rsa, rfl, by simp [KeyType.labels]⟩

/-- A server that answers with an RSA key makes it the key of an elliptic curve
algorithm, and a single octet becomes an Ed25519 key. -/
theorem mismatched_keys_are_returned :
    (∃ key, (forKeyIdAndDnssecAlgorithm sampleCrates "public" .ECDSAP256SHA256
        samplePool).eval (getReplies transparentKey) = .ok key ∧
      ¬ Fits .ECDSAP256SHA256 transparentKey key) ∧
    ∃ key, (forKeyIdAndDnssecAlgorithm sampleCrates "public" .ED25519 samplePool).eval
        (getReplies (rawKey [1])) = .ok key ∧ ¬ Fits .ED25519 (rawKey [1]) key := by
  refine ⟨⟨⟨.ECDSAP256SHA256, [1, 3, 143]⟩, rfl, ?_⟩, ⟨⟨.ED25519, [1]⟩, rfl, ?_⟩⟩
  · rintro ⟨_, _, type, ⟨⟩, ⟨⟩, _, hlength⟩
    simp [KeyType.WellFormed] at hlength
  · rintro ⟨_, _, type, ⟨⟩, ⟨⟩, _, hlength⟩
    simp [KeyType.WellFormed] at hlength

end DomainKmip.KeyLabels
