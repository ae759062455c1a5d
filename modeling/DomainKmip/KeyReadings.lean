import DomainKmip.HsmKeys
import DomainKmip.KeyLabels

namespace DomainKmip.KeyReadings

open DomainKmip.Library.BigEndian
open DomainKmip.Library.Der
open DomainKmip.Library.DerReading
open DomainKmip.Domain
open DomainKmip.Kmip
open DomainKmip.Dependencies
open DomainKmip.Oids
open DomainKmip.Ecdsa
open DomainKmip.PublicKeys
open DomainKmip.KeyForms
open DomainKmip.KeyLoading
open DomainKmip.KeyLabels
open DomainKmip.HsmKeys

section Forms

variable {bytes : Octets}

/-- The first element of one form is an integer, that of the other one a sequence. -/
theorem not_hasPkcs1_of_spki {modulus exponent identifier rest : Octets} {bits : BitString}
    (hbits : SpkiBits identifier bits)
    (hbytes : bytes = subjectPublicKeyInfo identifier bits ++ rest) :
    ¬ HasPkcs1 bytes modulus exponent := by
  rintro ⟨⟨_, _, hfits⟩, rest', heq⟩
  obtain ⟨hcontent, _⟩ := (reads_takeValue 0x30).unique ⟨hfits, rfl⟩ ⟨hbits.2, rfl⟩
    (heq.symm.trans hbytes)
  simp [rsaPublicKeyContent, spkiContent, sequenceOf, tlv] at hcontent

end Forms

def curveType : RecommendedCurve → KeyType
  | .P_256 => .p256
  | .P_384 => .p384

/-- The byte string is a key of the type, in a form that says so. -/
inductive Spells (crates : Crates) (bytes : Octets) : KeyType → Octets → Prop
  | pkcs1 {modulus exponent publicKey : Octets} (h : HasPkcs1 bytes modulus exponent)
      (hencode : crates.rsaEncode exponent modulus = some publicKey) :
      Spells crates bytes .rsa publicKey
  | rsaX509 {modulus exponent publicKey : Octets} (h : HasRsaX509 bytes modulus exponent)
      (hencode : crates.rsaEncode exponent modulus = some publicKey) :
      Spells crates bytes .rsa publicKey
  | ecX509 {publicKey : Octets} (curve : RecommendedCurve)
      (h : HasEcX509 (curveOid curve) bytes (0x04 :: publicKey)) :
      Spells crates bytes (curveType curve) publicKey

variable {crates : Crates} {bytes publicKey publicKey' : Octets}

theorem not_hasEcX509_of_hasRsaX509 {modulus exponent octets : Octets}
    {curve : RecommendedCurve} (h : HasRsaX509 bytes modulus exponent) :
    ¬ HasEcX509 (curveOid curve) bytes octets := by
  obtain ⟨bits, rest, hbits, _, hbytes⟩ := h
  rintro ⟨bits', rest', hbits', _, hbytes'⟩
  obtain ⟨hidentifier, _⟩ :=
    subjectPublicKeyInfo_unique hbits hbits' (hbytes.symm.trans hbytes')
  have hne : rsaIdentifier ≠ ecIdentifier (curveOid curve) := by cases curve <;> decide
  exact hne hidentifier

/-- A byte string is one key, of one type. -/
theorem Spells.unique {type type' : KeyType} (h : Spells crates bytes type publicKey)
    (h' : Spells crates bytes type' publicKey') : publicKey = publicKey' ∧ type = type' := by
  have hencodes : ∀ {modulus exponent modulus' exponent' : Octets},
      modulus = modulus' ∧ exponent = exponent' →
      crates.rsaEncode exponent modulus = some publicKey →
      crates.rsaEncode exponent' modulus' = some publicKey' → publicKey = publicKey' := by
    rintro modulus exponent _ _ ⟨rfl, rfl⟩ hencode hencode'
    exact Option.some.inj (hencode.symm.trans hencode')
  cases h with
  | pkcs1 hkey hencode =>
      cases h' with
      | pkcs1 hkey' hencode' =>
          exact ⟨hencodes (hasPkcs1_unique hkey hkey') hencode hencode', rfl⟩
      | rsaX509 hkey' _ =>
          obtain ⟨bits, rest, hbits, _, hbytes⟩ := hkey'
          exact (not_hasPkcs1_of_spki hbits hbytes hkey).elim
      | ecX509 curve hpoint =>
          obtain ⟨bits, rest, hbits, _, hbytes⟩ := hpoint
          exact (not_hasPkcs1_of_spki hbits hbytes hkey).elim
  | rsaX509 hkey hencode =>
      cases h' with
      | pkcs1 hkey' _ =>
          obtain ⟨bits, rest, hbits, _, hbytes⟩ := hkey
          exact (not_hasPkcs1_of_spki hbits hbytes hkey').elim
      | rsaX509 hkey' hencode' =>
          exact ⟨hencodes (hasRsaX509_unique hkey hkey') hencode hencode', rfl⟩
      | ecX509 curve hpoint => exact (not_hasEcX509_of_hasRsaX509 hkey hpoint).elim
  | ecX509 curve hpoint =>
      cases h' with
      | pkcs1 hkey' _ =>
          obtain ⟨bits, rest, hbits, _, hbytes⟩ := hpoint
          exact (not_hasPkcs1_of_spki hbits hbytes hkey').elim
      | rsaX509 hkey' _ => exact (not_hasEcX509_of_hasRsaX509 hkey' hpoint).elim
      | ecX509 curve' hpoint' =>
          obtain ⟨hidentifier, hoctets⟩ := hasEcX509_unique hpoint hpoint'
          obtain rfl := ecIdentifier_injective hidentifier
          exact ⟨(List.cons.inj hoctets).2, rfl⟩

theorem spells_of_form {algorithm : SecurityAlgorithm} {format : KeyFormatType} {f : Form}
    (hform : form algorithm format = some f) (hraw : f ≠ .raw)
    (h : f.Holds crates bytes publicKey) :
    ∃ type, requires algorithm = some type ∧ Spells crates bytes type publicKey := by
  cases f with
  | pkcs1 =>
      obtain ⟨modulus, exponent, hkey, hencode⟩ := h
      exact ⟨.rsa, requires_of_usesRsa (usesRsa_of_form (Or.inl hform)), .pkcs1 hkey hencode⟩
  | rsaX509 =>
      obtain ⟨modulus, exponent, hkey, hencode⟩ := h
      exact ⟨.rsa, requires_of_usesRsa (usesRsa_of_form (Or.inr hform)), .rsaX509 hkey hencode⟩
  | ecX509 curve coordLen =>
      rcases curve_of_form hform with ⟨rfl, rfl, rfl⟩ | ⟨rfl, rfl, rfl⟩
      · exact ⟨.p256, rfl, .ecX509 .P_256 h.1⟩
      · exact ⟨.p384, rfl, .ecX509 .P_384 h.1⟩
  | raw => exact (hraw rfl).elim

/-- The algorithms whose keys may come as raw octets. -/
def takesRaw : SecurityAlgorithm → Bool
  | .ED25519 | .ED448 => true
  | _ => false

theorem spells_of_ofManagedObject {algorithm : SecurityAlgorithm} {keyBlock : KeyBlock}
    {key : PublicKey} (hmaterial : keyBlock.keyMaterial = .Bytes bytes)
    (hraw : takesRaw algorithm = false)
    (h : ofManagedObject crates algorithm (.PublicKey keyBlock) = .ok key) :
    ∃ type, requires algorithm = some type ∧ Spells crates bytes type key.publicKey := by
  obtain ⟨publicKey, holds, rfl⟩ := (ofManagedObject_eq_ok_iff crates).mp h
  cases holds with
  | transparent hmaterial' => simp [hmaterial] at hmaterial'
  | bytes hmaterial' hform holds =>
      obtain rfl := KeyMaterial.Bytes.inj (hmaterial.symm.trans hmaterial')
      refine spells_of_form hform ?_ holds
      rintro rfl
      cases algorithm <;> cases hformat : keyBlock.keyFormatType <;>
        simp_all [form, takesRaw, Rsa.usesRsa]

/-- Whatever format, label and length two responses give the same octets, and whatever
algorithms they are fetched for: where both can be read, they are read as the same key,
and the algorithms are for keys of the same type. -/
theorem readings_agree {algorithm algorithm' : SecurityAlgorithm} {keyBlock keyBlock' : KeyBlock}
    {key key' : PublicKey} (hmaterial : keyBlock.keyMaterial = .Bytes bytes)
    (hmaterial' : keyBlock'.keyMaterial = .Bytes bytes)
    (hraw : takesRaw algorithm = false) (hraw' : takesRaw algorithm' = false)
    (h : ofManagedObject crates algorithm (.PublicKey keyBlock) = .ok key)
    (h' : ofManagedObject crates algorithm' (.PublicKey keyBlock') = .ok key') :
    key.publicKey = key'.publicKey ∧ requires algorithm = requires algorithm' := by
  obtain ⟨type, hrequires, hspells⟩ := spells_of_ofManagedObject hmaterial hraw h
  obtain ⟨type', hrequires', hspells'⟩ := spells_of_ofManagedObject hmaterial' hraw' h'
  obtain ⟨hkey, rfl⟩ := hspells.unique hspells'
  exact ⟨hkey, hrequires.trans hrequires'.symm⟩

theorem zeroPoint_reads_alike : ∃ key key',
    ofManagedObject sampleCrates .ECDSAP384SHA384
        (EcdsaKeys.labelledKey .Raw (EcdsaKeys.zeroPoint SECP384R1_OID 48 0)) = .ok key ∧
      ofManagedObject sampleCrates .ECDSAP384SHA384
        (EcdsaKeys.labelledKey .X509 (EcdsaKeys.zeroPoint SECP384R1_OID 48 0)) = .ok key' ∧
      key.publicKey = key'.publicKey := by
  have hraw : ofManagedObject sampleCrates .ECDSAP384SHA384 (EcdsaKeys.labelledKey .Raw
      (EcdsaKeys.zeroPoint SECP384R1_OID 48 0)) =
        .ok ⟨.ECDSAP384SHA384, List.replicate 96 0⟩ := by decide +kernel
  have hx509 : ofManagedObject sampleCrates .ECDSAP384SHA384 (EcdsaKeys.labelledKey .X509
      (EcdsaKeys.zeroPoint SECP384R1_OID 48 0)) =
        .ok ⟨.ECDSAP384SHA384, List.replicate 96 0⟩ := by decide +kernel
  exact ⟨_, _, hraw, hx509, (readings_agree rfl rfl rfl rfl hraw hx509).1⟩

end DomainKmip.KeyReadings
