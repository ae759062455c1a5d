import DomainKmip.KeyForms

namespace DomainKmip.RsaParsers

open DomainKmip.Library.BigEndian
open DomainKmip.Library.Der
open DomainKmip.Domain
open DomainKmip.Dependencies
open DomainKmip.Ecdsa
open DomainKmip.KeyForms

/-- The X.509 form of a PKCS#1 key, or of any other octets. -/
def spki (key : Octets) : Octets := subjectPublicKeyInfo rsaIdentifier ⟨0, key⟩

theorem hasRsaX509_spki_iff {key modulus exponent : Octets}
    (hfits : Fits (spkiContent rsaIdentifier ⟨0, key⟩)) :
    HasRsaX509 (spki key) modulus exponent ↔ HasPkcs1 key modulus exponent := by
  have hbits : SpkiBits rsaIdentifier ⟨0, key⟩ := ⟨BitString.valid_of_whole key, hfits⟩
  constructor
  · rintro ⟨bits, rest, hbits', hkey, hbytes⟩
    rw [← List.append_nil (spki key)] at hbytes
    obtain ⟨_, rfl⟩ := subjectPublicKeyInfo_unique hbits hbits' hbytes
    exact hkey
  · intro hkey
    exact ⟨_, [], hbits, hkey, (List.append_nil _).symm⟩

section Parsers

variable (crates : Crates) {algorithm : SecurityAlgorithm}
  (halg : Rsa.usesRsa algorithm = true)

include halg

theorem parseX509_spki_eq_ok_iff {octets : Octets}
    (hfits : Fits (spkiContent rsaIdentifier ⟨0, octets⟩)) {key : PublicKey} :
    Rsa.parseX509 crates algorithm (spki octets) = .ok key ↔
      Rsa.parsePkcs1 crates algorithm octets = .ok key := by
  simp only [parseRsaX509_eq_ok_iff crates halg, parsePkcs1_eq_ok_iff crates halg,
    hasRsaX509_spki_iff hfits]

theorem parseX509_spki_eq_panic_iff {octets : Octets}
    (hfits : Fits (spkiContent rsaIdentifier ⟨0, octets⟩)) :
    Rsa.parseX509 crates algorithm (spki octets) = .panic ↔
      Rsa.parsePkcs1 crates algorithm octets = .panic := by
  simp only [parseRsaX509_eq_panic_iff crates halg, parsePkcs1_eq_panic_iff crates halg,
    hasRsaX509_spki_iff hfits]

/-- The X.509 parser returns what the PKCS#1 parser makes of the bit string. -/
theorem parsePkcs1_of_parseX509 {bytes : Octets} {key : PublicKey}
    (h : Rsa.parseX509 crates algorithm bytes = .ok key) :
    ∃ bits rest, bits.Valid ∧ bytes = subjectPublicKeyInfo rsaIdentifier bits ++ rest ∧
      Rsa.parsePkcs1 crates algorithm bits.octets = .ok key := by
  obtain ⟨modulus, exponent, publicKey, ⟨bits, rest, hbits, hkey, hbytes⟩, hencode, rfl⟩ :=
    (parseRsaX509_eq_ok_iff crates halg).mp h
  exact ⟨bits, rest, hbits.1, hbytes, (parsePkcs1_eq_ok_iff crates halg).mpr
    ⟨modulus, exponent, publicKey, hkey, hencode, rfl⟩⟩

end Parsers

/-- The two parsers agree on every octet string that fits into a bit string, and both
panic exactly where the encoding of a key does. -/
theorem parsers_agree (crates : Crates) (algorithm : SecurityAlgorithm)
    (halg : Rsa.usesRsa algorithm = true) :
    (∀ octets, Fits (spkiContent rsaIdentifier ⟨0, octets⟩) →
      SameResult (Rsa.parseX509 crates algorithm (spki octets))
        (Rsa.parsePkcs1 crates algorithm octets) ∨
      Rsa.parseX509 crates algorithm (spki octets) = .panic ∧
        Rsa.parsePkcs1 crates algorithm octets = .panic ∧
        ∃ modulus exponent, HasPkcs1 octets modulus exponent ∧
          crates.rsaEncode exponent modulus = none) ∧
    ∀ bytes key, Rsa.parseX509 crates algorithm bytes = .ok key →
      ∃ bits rest, bits.Valid ∧ bytes = subjectPublicKeyInfo rsaIdentifier bits ++ rest ∧
        Rsa.parsePkcs1 crates algorithm bits.octets = .ok key := by
  refine ⟨fun octets hfits => ?_, fun bytes key => parsePkcs1_of_parseX509 crates halg⟩
  have hok : ∀ key, Rsa.parseX509 crates algorithm (spki octets) = .ok key ↔ _ :=
    fun key => parseX509_spki_eq_ok_iff crates halg hfits
  have hpanic := parseX509_spki_eq_panic_iff crates halg hfits
  cases hpkcs1 : Rsa.parsePkcs1 crates algorithm octets with
  | ok key => exact Or.inl (Or.inl ⟨key, (hok key).mpr hpkcs1, rfl⟩)
  | panic =>
      exact Or.inr ⟨hpanic.mpr hpkcs1, rfl, (parsePkcs1_eq_panic_iff crates halg).mp hpkcs1⟩
  | err e =>
      refine Or.inl (Or.inr ?_)
      cases hx509 : Rsa.parseX509 crates algorithm (spki octets) with
      | ok key =>
          rw [(hok key).mp hx509] at hpkcs1
          simp at hpkcs1
      | panic =>
          rw [hpanic.mp hx509] at hpkcs1
          simp at hpkcs1
      | err e' => exact ⟨e', e, rfl, rfl⟩

def smallKey : Octets := rsaPublicKey [0x00, 0x8f] [0x03]

theorem parsers_agree_on_smallKey :
    Rsa.parsePkcs1 sampleCrates .RSASHA256 smallKey = .ok ⟨.RSASHA256, [1, 3, 143]⟩ ∧
      Rsa.parseX509 sampleCrates .RSASHA256 (spki smallKey) =
        .ok ⟨.RSASHA256, [1, 3, 143]⟩ := by
  have hpkcs1 : Rsa.parsePkcs1 sampleCrates .RSASHA256 smallKey =
      .ok ⟨.RSASHA256, [1, 3, 143]⟩ := rfl
  refine ⟨hpkcs1, ?_⟩
  rcases (parsers_agree sampleCrates .RSASHA256 rfl).1 smallKey (by decide) with
    (⟨key, hx509, hkey⟩ | ⟨_, _, _, herr⟩) | ⟨_, hpanic, _⟩
  · rw [hx509, ← hkey, hpkcs1]
  · cases hpkcs1.symm.trans herr
  · cases hpkcs1.symm.trans hpanic

end DomainKmip.RsaParsers
