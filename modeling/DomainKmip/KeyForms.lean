import DomainKmip.PublicKeys
import DomainKmip.SigningSafety

namespace DomainKmip.KeyForms

open DomainKmip.Library.BigEndian
open DomainKmip.Library.RustResult
open DomainKmip.Library.Der
open DomainKmip.Library.DerReading
open DomainKmip.Domain
open DomainKmip.Dependencies
open DomainKmip.Errors
open DomainKmip.Oids
open DomainKmip.Algorithms
open DomainKmip.Ecdsa

def rsaPublicKeyContent (modulus exponent : Octets) : Octets :=
  tlv 0x02 modulus ++ tlv 0x02 exponent

/-- RSAPublicKey: the PKCS#1 form, from the content octets of the two integers. -/
def rsaPublicKey (modulus exponent : Octets) : Octets :=
  sequenceOf (rsaPublicKeyContent modulus exponent)

def spkiContent (identifier : Octets) (bits : BitString) : Octets :=
  sequenceOf identifier ++ bitString bits

/-- SubjectPublicKeyInfo: the X.509 form. -/
def subjectPublicKeyInfo (identifier : Octets) (bits : BitString) : Octets :=
  sequenceOf (spkiContent identifier bits)

/-- rsaEncryption, NULL. -/
def rsaIdentifier : Octets := oid RSA_OID.bytes ++ null

def ecIdentifier (curve : OidInfo) : Octets := oid EC_OID.bytes ++ oid curve.bytes

/-- Content octets of two integers that fit into one RSAPublicKey. -/
def RsaIntegers (modulus exponent : Octets) : Prop :=
  isUnsigned modulus = true ∧ isUnsigned exponent = true ∧
    Fits (rsaPublicKeyContent modulus exponent)

def SpkiBits (identifier : Octets) (bits : BitString) : Prop :=
  bits.Valid ∧ Fits (spkiContent identifier bits)

theorem fits_spkiContent {identifier : Octets} {bits : BitString}
    (hidentifier : identifier.length < 2 ^ 15) (hbits : bits.octets.length < 2 ^ 15) :
    Fits (spkiContent identifier bits) := by
  have hfirst : (tlv 0x30 identifier).length ≤ identifier.length + 2 + 2 :=
    length_tlv_le 2 (by omega)
  have hsecond : (tlv 0x03 (bits.unused :: bits.octets)).length ≤
      (bits.unused :: bits.octets).length + 2 + 2 :=
    length_tlv_le 2 (by rw [List.length_cons]; omega)
  rw [List.length_cons] at hsecond
  rw [Fits, spkiContent, sequenceOf, bitString, List.length_append]
  omega

/-- A key of this form can be read in one way only. -/
theorem subjectPublicKeyInfo_unique {identifier identifier' rest rest' : Octets}
    {bits bits' : BitString} (hbits : SpkiBits identifier bits)
    (hbits' : SpkiBits identifier' bits')
    (h : subjectPublicKeyInfo identifier bits ++ rest =
      subjectPublicKeyInfo identifier' bits' ++ rest') :
    identifier = identifier' ∧ bits = bits' := by
  have hreads := reads_takeValue 0x30
  obtain ⟨hfits, hfitsBits⟩ := Fits.of_tlv_append hbits.2
  obtain ⟨hfits', hfitsBits'⟩ := Fits.of_tlv_append hbits'.2
  obtain ⟨hcontent, _⟩ := hreads.unique ⟨hbits.2, rfl⟩ ⟨hbits'.2, rfl⟩ h
  obtain ⟨hidentifier, htail⟩ := hreads.unique ⟨hfits, rfl⟩ ⟨hfits', rfl⟩ hcontent
  exact ⟨hidentifier, (reads_takeBitString.unique ⟨hbits.1, hfitsBits, rfl⟩
    ⟨hbits'.1, hfitsBits', rfl⟩ (congrArg (· ++ []) htail)).1⟩

variable (crates : Crates)

theorem reads_mapDerErr {α : Type} {op : Decoder α} {encodes : α → Octets → Prop}
    (type : DerType) (el : String) (h : Reads op encodes) :
    Reads (mapDerErr crates type el op) encodes :=
  h.mapError _

theorem total_mapDerErr {α : Type} {op : Decoder α} (type : DerType) (el : String)
    (h : Total op) : Total (mapDerErr crates type el op) :=
  h.mapError _

theorem reads_takeRsaPublicKey : Reads (Rsa.takeRsaPublicKey crates) fun key e =>
    RsaIntegers key.1 key.2 ∧ e = rsaPublicKey key.1 key.2 := by
  exact reads_unsignedPair (reads_mapDerErr crates .Unsigned _ reads_takeUnsigned)
    (reads_mapDerErr crates .Unsigned _ reads_takeUnsigned)

theorem total_takeRsaPublicKey : Total (Rsa.takeRsaPublicKey crates) :=
  total_takeSequence <| (total_mapDerErr crates _ _ total_takeUnsigned).bind fun _ =>
    (total_mapDerErr crates _ _ total_takeUnsigned).bind fun _ => total_pure _

theorem reads_rsa_takeAlgorithmIdentifier : Reads (Rsa.takeAlgorithmIdentifier crates)
    fun _ e => e = sequenceOf rsaIdentifier := by
  refine Reads.congr (reads_takeSequence
    ((reads_mapDerErr crates .Oid _ reads_takeOid).bind fun algorithm =>
      reads_ite (reads_fail _) (reads_mapDerErr crates .Null _ reads_takeNull))) ?_
  intro _ e
  constructor
  · rintro ⟨content, ⟨algorithm, e₁, e₂, ⟨_, rfl⟩, h, rfl⟩, _, rfl⟩
    split at h
    · exact h.elim
    · rename_i heq
      obtain rfl : algorithm = RSA_OID.bytes := by simpa using heq
      rw [h, rsaIdentifier]
  · rintro rfl
    exact ⟨rsaIdentifier, ⟨RSA_OID.bytes, _, null, ⟨by decide, rfl⟩, by simp, rfl⟩,
      by decide, rfl⟩

theorem reads_inner_rsaPublicKey (octets : Octets) :
    Reads (mapDerErr crates .UnsignedPair "subjectPublicKey" <| ofOutcome <| decode octets <|
        mapDerErr crates .UnsignedPair "modulus exponent sequence"
          (Rsa.takeRsaPublicKey crates))
      fun key e => (∃ rest, RsaIntegers key.1 key.2 ∧
        octets = rsaPublicKey key.1 key.2 ++ rest) ∧ e = [] := by
  apply Reads.congr (reads_mapDerErr crates _ _ (reads_ofOutcome _))
  intro key e
  rw [decode_eq_ok_iff (reads_mapDerErr crates _ _ (reads_takeRsaPublicKey crates))]
  constructor
  · rintro ⟨⟨_, rest, ⟨hkey, rfl⟩, h⟩, rfl⟩
    exact ⟨⟨rest, hkey, h⟩, rfl⟩
  · rintro ⟨⟨rest, hkey, h⟩, rfl⟩
    exact ⟨⟨_, rest, ⟨hkey, rfl⟩, h⟩, rfl⟩

theorem reads_rsa_takeSubjectPublicKeyInfo : Reads (Rsa.takeSubjectPublicKeyInfo crates)
    fun key e => ∃ bits rest, SpkiBits rsaIdentifier bits ∧ RsaIntegers key.1 key.2 ∧
      bits.octets = rsaPublicKey key.1 key.2 ++ rest ∧
      e = subjectPublicKeyInfo rsaIdentifier bits := by
  refine Reads.congr (reads_takeSequence
    ((reads_mapDerErr crates .Null _ (reads_rsa_takeAlgorithmIdentifier crates)).bind fun _ =>
      (reads_mapDerErr crates .BitString _ reads_takeBitString).bind fun bits =>
        (reads_ofOutcome (Outcome.unwrap bits.octetSlice)).bind fun octets =>
          reads_inner_rsaPublicKey crates octets)) ?_
  intro key e
  constructor
  · rintro ⟨_, ⟨_, _, _, rfl, ⟨bits, _, _, ⟨hvalid, _, rfl⟩,
      ⟨octets, _, _, ⟨hoctets, rfl⟩, ⟨⟨rest, hkey, h⟩, rfl⟩, rfl⟩, rfl⟩, rfl⟩, hfits, rfl⟩
    obtain rfl : bits.octets = octets := by simpa [BitString.octetSlice] using hoctets
    simp only [List.append_nil] at hfits ⊢
    exact ⟨bits, rest, ⟨hvalid, hfits⟩, hkey, h, rfl⟩
  · rintro ⟨bits, rest, ⟨hvalid, hfits⟩, hkey, h, rfl⟩
    obtain ⟨_, hfitsBits⟩ := Fits.of_tlv_append hfits
    exact ⟨spkiContent rsaIdentifier bits, ⟨(), _, bitString bits, rfl,
      ⟨bits, bitString bits, [], ⟨hvalid, hfitsBits, rfl⟩,
        ⟨bits.octets, [], [], ⟨rfl, rfl⟩, ⟨⟨rest, hkey, h⟩, rfl⟩, rfl⟩, by simp⟩, rfl⟩,
      hfits, rfl⟩

theorem total_rsa_takeSubjectPublicKeyInfo : Total (Rsa.takeSubjectPublicKeyInfo crates) := by
  have hidentifier : Total (Rsa.takeAlgorithmIdentifier crates) :=
    total_takeSequence <| (total_mapDerErr crates _ _ (total_takeValue 0x06)).bind fun _ =>
      total_ite (total_fail _) (total_mapDerErr crates _ _ total_takeNull)
  have hinner : ∀ octets, decode octets (mapDerErr crates .UnsignedPair
      "modulus exponent sequence" (Rsa.takeRsaPublicKey crates)) ≠ .panic :=
    decode_ne_panic (total_mapDerErr crates _ _ (total_takeRsaPublicKey crates))
  exact total_takeSequence <| (total_mapDerErr crates _ _ hidentifier).bind fun _ =>
    (total_mapDerErr crates _ _ total_takeBitString).bind fun bits =>
      (total_ofOutcome (x := Outcome.unwrap bits.octetSlice) nofun).bind fun octets =>
        total_mapDerErr crates _ _ (total_ofOutcome (hinner octets))

theorem reads_labelled {α : Type} {op : Decoder α} {encodes : α → Octets → Prop}
    (label : String) (h : Reads op encodes) : Reads (labelled crates label op) encodes :=
  h.mapError _

theorem total_labelled {α : Type} {op : Decoder α} (label : String) (h : Total op) :
    Total (labelled crates label op) :=
  h.mapError _

theorem reads_ecdsa_takeAlgorithmIdentifier {algInfo : AlgorithmInfo}
    {curve : EllipticCurveInfo} (hoid : algInfo.oid = EC_OID)
    (hcurve : Fits (ecIdentifier curve.oid)) :
    Reads (Ecdsa.takeAlgorithmIdentifier crates algInfo curve)
      fun _ e => e = sequenceOf (ecIdentifier curve.oid) := by
  refine Reads.congr (reads_takeSequence
    ((reads_labelled crates _ reads_takeOid).bind fun algorithm =>
      reads_ite (reads_fail _) ((reads_labelled crates _ reads_takeOid).bind fun named =>
        reads_ite (reads_fail _) (reads_pure ())))) ?_
  intro _ e
  constructor
  · rintro ⟨content, ⟨algorithm, e₁, e₂, ⟨_, rfl⟩, h, rfl⟩, _, rfl⟩
    split at h
    · exact h.elim
    · rename_i heq
      obtain ⟨named, e₃, e₄, ⟨_, rfl⟩, h, rfl⟩ := h
      split at h
      · exact h.elim
      · rename_i heq'
        obtain ⟨_, rfl⟩ := h
        obtain rfl : algorithm = algInfo.oid.bytes := by simpa using heq
        obtain rfl : named = curve.oid.bytes := by simpa using heq'
        rw [ecIdentifier, hoid, List.append_nil]
  · rintro rfl
    have hfits : Fits curve.oid.bytes := by
      have := length_le_length_tlv 0x06 curve.oid.bytes
      apply Fits.of_length_le hcurve
      simp only [ecIdentifier, oid, List.length_append]
      omega
    exact ⟨ecIdentifier curve.oid, ⟨EC_OID.bytes, _, oid curve.oid.bytes, ⟨by decide, rfl⟩,
      by simp [hoid, hfits], rfl⟩, hcurve, rfl⟩

theorem reads_ecdsa_takeSubjectPublicKeyInfo {algInfo : AlgorithmInfo}
    {curve : EllipticCurveInfo} (hoid : algInfo.oid = EC_OID)
    (hcurve : Fits (ecIdentifier curve.oid)) :
    Reads (Ecdsa.takeSubjectPublicKeyInfo crates algInfo curve) fun bits e =>
      SpkiBits (ecIdentifier curve.oid) bits ∧
        e = subjectPublicKeyInfo (ecIdentifier curve.oid) bits := by
  refine Reads.congr (reads_takeSequence
    ((reads_ecdsa_takeAlgorithmIdentifier crates hoid hcurve).bind fun _ =>
      reads_labelled crates _ reads_takeBitString)) ?_
  intro bits e
  constructor
  · rintro ⟨_, ⟨_, _, _, rfl, ⟨hvalid, _, rfl⟩, rfl⟩, hfits, rfl⟩
    exact ⟨⟨hvalid, hfits⟩, rfl⟩
  · rintro ⟨⟨hvalid, hfits⟩, rfl⟩
    obtain ⟨_, hfitsBits⟩ := Fits.of_tlv_append hfits
    exact ⟨spkiContent (ecIdentifier curve.oid) bits,
      ⟨(), _, bitString bits, rfl, ⟨hvalid, hfitsBits, rfl⟩, rfl⟩, hfits, rfl⟩

theorem total_ecdsa_takeSubjectPublicKeyInfo (algInfo : AlgorithmInfo)
    (curve : EllipticCurveInfo) :
    Total (Ecdsa.takeSubjectPublicKeyInfo crates algInfo curve) := by
  have hidentifier : Total (Ecdsa.takeAlgorithmIdentifier crates algInfo curve) :=
    total_takeSequence <| (total_labelled crates _ (total_takeValue 0x06)).bind fun _ =>
      total_ite (total_fail _) ((total_labelled crates _ (total_takeValue 0x06)).bind fun _ =>
        total_ite (total_fail _) (total_pure _))
  exact total_takeSequence <| hidentifier.bind fun _ =>
    total_labelled crates _ total_takeBitString

/-- The same key, or an error in both cases. -/
def SameResult (a b : Outcome PublicKeyError PublicKey) : Prop :=
  (∃ key, a = .ok key ∧ b = .ok key) ∨ ∃ e e', a = .err e ∧ b = .err e'

theorem sameResult_self_iff {a : Outcome PublicKeyError PublicKey} :
    SameResult a a ↔ a ≠ .panic := by
  cases a <;> simp [SameResult]

theorem sameResult_err_iff {a : Outcome PublicKeyError PublicKey} {e : PublicKeyError} :
    SameResult a (.err e) ↔ a ≠ .panic ∧ ∀ key, a ≠ .ok key := by
  cases a <;> simp [SameResult]

/-- `bytes` starts with a PKCS#1 key. -/
def HasPkcs1 (bytes modulus exponent : Octets) : Prop :=
  RsaIntegers modulus exponent ∧ ∃ rest, bytes = rsaPublicKey modulus exponent ++ rest

/-- `bytes` starts with an X.509 key, whose bit string starts with a PKCS#1 key. -/
def HasRsaX509 (bytes modulus exponent : Octets) : Prop :=
  ∃ bits rest, SpkiBits rsaIdentifier bits ∧ HasPkcs1 bits.octets modulus exponent ∧
    bytes = subjectPublicKeyInfo rsaIdentifier bits ++ rest

def HasEcX509 (curve : OidInfo) (bytes octets : Octets) : Prop :=
  ∃ bits rest, SpkiBits (ecIdentifier curve) bits ∧ bits.octets = octets ∧
    bytes = subjectPublicKeyInfo (ecIdentifier curve) bits ++ rest

/-- Octets start with one key of a form. -/
theorem hasPkcs1_unique {bytes modulus exponent modulus' exponent' : Octets}
    (h : HasPkcs1 bytes modulus exponent) (h' : HasPkcs1 bytes modulus' exponent') :
    modulus = modulus' ∧ exponent = exponent' := by
  obtain ⟨hkey, rest, hbytes⟩ := h
  obtain ⟨hkey', rest', hbytes'⟩ := h'
  have heq := (reads_unsignedPair reads_takeUnsigned reads_takeUnsigned).unique
    (a := (modulus, exponent)) (b := (modulus', exponent')) ⟨hkey, rfl⟩ ⟨hkey', rfl⟩
    (hbytes.symm.trans hbytes')
  simpa using heq.1

theorem hasRsaX509_unique {bytes modulus exponent modulus' exponent' : Octets}
    (h : HasRsaX509 bytes modulus exponent) (h' : HasRsaX509 bytes modulus' exponent') :
    modulus = modulus' ∧ exponent = exponent' := by
  obtain ⟨bits, rest, hbits, hkey, hbytes⟩ := h
  obtain ⟨bits', rest', hbits', hkey', hbytes'⟩ := h'
  obtain ⟨_, rfl⟩ := subjectPublicKeyInfo_unique hbits hbits' (hbytes.symm.trans hbytes')
  exact hasPkcs1_unique hkey hkey'

theorem hasEcX509_unique {curve curve' : OidInfo} {bytes octets octets' : Octets}
    (h : HasEcX509 curve bytes octets) (h' : HasEcX509 curve' bytes octets') :
    ecIdentifier curve = ecIdentifier curve' ∧ octets = octets' := by
  obtain ⟨bits, rest, hbits, rfl, hbytes⟩ := h
  obtain ⟨bits', rest', hbits', rfl, hbytes'⟩ := h'
  obtain ⟨hidentifier, rfl⟩ :=
    subjectPublicKeyInfo_unique hbits hbits' (hbytes.symm.trans hbytes')
  exact ⟨hidentifier, rfl⟩

theorem decode_pkcs1_eq_ok_iff {bytes modulus exponent : Octets} :
    decode bytes (mapDerErr crates .UnsignedPair "RSAPublicKey" (Rsa.takeRsaPublicKey crates)) =
      .ok (modulus, exponent) ↔ HasPkcs1 bytes modulus exponent := by
  rw [decode_eq_ok_iff (reads_mapDerErr crates _ _ (reads_takeRsaPublicKey crates))]
  constructor
  · rintro ⟨_, rest, ⟨hkey, rfl⟩, h⟩
    exact ⟨hkey, rest, h⟩
  · rintro ⟨hkey, rest, h⟩
    exact ⟨_, rest, ⟨hkey, rfl⟩, h⟩

theorem decode_rsaX509_eq_ok_iff {bytes modulus exponent : Octets} :
    decode bytes (Rsa.takeSubjectPublicKeyInfo crates) = .ok (modulus, exponent) ↔
      HasRsaX509 bytes modulus exponent := by
  rw [decode_eq_ok_iff (reads_rsa_takeSubjectPublicKeyInfo crates)]
  constructor
  · rintro ⟨_, rest, ⟨bits, rest', hbits, hkey, h, rfl⟩, hbytes⟩
    exact ⟨bits, rest, hbits, ⟨hkey, rest', h⟩, hbytes⟩
  · rintro ⟨bits, rest, hbits, ⟨hkey, rest', h⟩, hbytes⟩
    exact ⟨_, rest, ⟨bits, rest', hbits, hkey, h, rfl⟩, hbytes⟩

theorem rsaEncode_bind_eq_ok_iff {x : Outcome PublicKeyError (Octets × Octets)}
    {algorithm : SecurityAlgorithm} {key : PublicKey} :
    (x >>= fun p => do
      let publicKey ← Outcome.unwrap (crates.rsaEncode p.2 p.1)
      Outcome.ok { algorithm, publicKey }) = .ok key ↔
      ∃ modulus exponent publicKey, x = .ok (modulus, exponent) ∧
        crates.rsaEncode exponent modulus = some publicKey ∧ key = ⟨algorithm, publicKey⟩ := by
  rcases x with ⟨modulus, exponent⟩ | err | _
  · cases h : crates.rsaEncode exponent modulus <;> simp [h, eq_comm]
  · simp
  · simp

theorem rsaEncode_bind_eq_panic_iff {x : Outcome PublicKeyError (Octets × Octets)}
    {algorithm : SecurityAlgorithm} (hx : x ≠ .panic) :
    (x >>= fun p => do
      let publicKey ← Outcome.unwrap (crates.rsaEncode p.2 p.1)
      Outcome.ok (PublicKey.mk algorithm publicKey)) = .panic ↔
      ∃ modulus exponent, x = .ok (modulus, exponent) ∧
        crates.rsaEncode exponent modulus = none := by
  rcases x with ⟨modulus, exponent⟩ | err | _
  · cases h : crates.rsaEncode exponent modulus <;> simp [h]
  · simp
  · simp at hx

section Rsa

variable {algorithm : SecurityAlgorithm} (halg : Rsa.usesRsa algorithm = true)
  {bytes : Octets}

include halg

theorem parsePkcs1_eq_ok_iff {key : PublicKey} :
    Rsa.parsePkcs1 crates algorithm bytes = .ok key ↔
      ∃ modulus exponent publicKey, HasPkcs1 bytes modulus exponent ∧
        crates.rsaEncode exponent modulus = some publicKey ∧ key = ⟨algorithm, publicKey⟩ := by
  rw [Rsa.parsePkcs1, halg, Outcome.assert_true, Outcome.ok_bind]
  apply (rsaEncode_bind_eq_ok_iff crates).trans
  simp only [Outcome.mapErr_eq_ok_iff, decode_pkcs1_eq_ok_iff]

theorem parsePkcs1_eq_panic_iff :
    Rsa.parsePkcs1 crates algorithm bytes = .panic ↔
      ∃ modulus exponent, HasPkcs1 bytes modulus exponent ∧
        crates.rsaEncode exponent modulus = none := by
  rw [Rsa.parsePkcs1, halg, Outcome.assert_true, Outcome.ok_bind]
  refine (rsaEncode_bind_eq_panic_iff crates ?_).trans ?_
  · rw [ne_eq, Outcome.mapErr_eq_panic_iff]
    exact decode_ne_panic (total_mapDerErr crates _ _ (total_takeRsaPublicKey crates)) bytes
  · simp only [Outcome.mapErr_eq_ok_iff, decode_pkcs1_eq_ok_iff]

theorem parseRsaX509_eq_ok_iff {key : PublicKey} :
    Rsa.parseX509 crates algorithm bytes = .ok key ↔
      ∃ modulus exponent publicKey, HasRsaX509 bytes modulus exponent ∧
        crates.rsaEncode exponent modulus = some publicKey ∧ key = ⟨algorithm, publicKey⟩ := by
  rw [Rsa.parseX509, halg, Outcome.assert_true, Outcome.ok_bind]
  apply (rsaEncode_bind_eq_ok_iff crates).trans
  simp only [Outcome.mapErr_eq_ok_iff, decode_rsaX509_eq_ok_iff]

theorem parseRsaX509_eq_panic_iff :
    Rsa.parseX509 crates algorithm bytes = .panic ↔
      ∃ modulus exponent, HasRsaX509 bytes modulus exponent ∧
        crates.rsaEncode exponent modulus = none := by
  rw [Rsa.parseX509, halg, Outcome.assert_true, Outcome.ok_bind]
  refine (rsaEncode_bind_eq_panic_iff crates ?_).trans ?_
  · rw [ne_eq, Outcome.mapErr_eq_panic_iff]
    exact decode_ne_panic (total_rsa_takeSubjectPublicKeyInfo crates) bytes
  · simp only [Outcome.mapErr_eq_ok_iff, decode_rsaX509_eq_ok_iff]

end Rsa

section Ecdsa

/-- What the algorithm table says about an algorithm on an elliptic curve with
coordinates of `coordLen` octets. -/
structure OnCurve (algorithm : SecurityAlgorithm) (curve : OidInfo) (coordLen : Nat) where
  info : AlgorithmInfo
  curveInfo : EllipticCurveInfo
  fixedLen : UInt32
  usesEcdsa_eq : usesEcdsa algorithm = true
  info_eq : getAlgInfo algorithm = some info
  curve_eq : info.ellipticCurve = some curveInfo
  fixedLen_eq : info.kmipCryptoFixedLen = some fixedLen
  oid_eq : info.oid = EC_OID
  curveOid_eq : curveInfo.oid = curve
  fits : Fits (ecIdentifier curve)
  points : (1 + fixedLen / 8 + fixedLen / 8).toNat = 1 + 2 * coordLen

def onP256 : OnCurve .ECDSAP256SHA256 SECP256R1_OID 32 where
  info := ALG_ECDSAP256SHA256
  curveInfo :=
    { oid := SECP256R1_OID
      kmipName := "P-256"
      altName := "SECP256R1"
      kmipRecommendedCurve := some .P_256 }
  fixedLen := 256
  usesEcdsa_eq := rfl
  info_eq := rfl
  curve_eq := rfl
  fixedLen_eq := rfl
  oid_eq := rfl
  curveOid_eq := rfl
  fits := by decide
  points := by decide

def onP384 : OnCurve .ECDSAP384SHA384 SECP384R1_OID 48 where
  info := ALG_ECDSAP384SHA384
  curveInfo :=
    { oid := SECP384R1_OID
      kmipName := "P-384"
      altName := "SECP384R1"
      kmipRecommendedCurve := some .P_384 }
  fixedLen := 384
  usesEcdsa_eq := rfl
  info_eq := rfl
  curve_eq := rfl
  fixedLen_eq := rfl
  oid_eq := rfl
  curveOid_eq := rfl
  fits := by decide
  points := by decide

variable {algorithm : SecurityAlgorithm} {curve : OidInfo} {coordLen : Nat}
  (c : OnCurve algorithm curve coordLen) {bytes : Octets}

theorem exists_decode_ecX509_iff {octets : Octets} :
    (∃ bits, decode bytes (Ecdsa.takeSubjectPublicKeyInfo crates c.info c.curveInfo) = .ok bits ∧
      bits.octets = octets) ↔ HasEcX509 curve bytes octets := by
  have hfits : Fits (ecIdentifier c.curveInfo.oid) := by
    rw [c.curveOid_eq]
    exact c.fits
  simp only [decode_eq_ok_iff (reads_ecdsa_takeSubjectPublicKeyInfo crates c.oid_eq hfits),
    c.curveOid_eq]
  constructor
  · rintro ⟨bits, ⟨_, rest, ⟨hbits, rfl⟩, hbytes⟩, hoctets⟩
    exact ⟨bits, rest, hbits, hoctets, hbytes⟩
  · rintro ⟨bits, rest, hbits, hoctets, hbytes⟩
    exact ⟨bits, ⟨_, rest, ⟨hbits, rfl⟩, hbytes⟩, hoctets⟩

include c

/-- The octets of the bit string are an uncompressed point of the curve's size. -/
theorem parseEcX509_eq_ok_iff {key : PublicKey} :
    Ecdsa.parseX509 crates algorithm bytes = .ok key ↔
      ∃ point, HasEcX509 curve bytes (0x04 :: point) ∧ point.length = 2 * coordLen ∧
        key = ⟨algorithm, point⟩ := by
  simp only [← exists_decode_ecX509_iff crates c]
  rw [Ecdsa.parseX509, c.usesEcdsa_eq, c.info_eq]
  simp only [Outcome.assert_true, Outcome.ok_bind, Outcome.unwrap_some, c.curve_eq,
    c.fixedLen_eq, Outcome.bind_eq_ok_iff, Outcome.mapErr_eq_ok_iff, BitString.octetSlice,
    c.points]
  constructor
  · rintro ⟨bits, hbits, h⟩
    obtain ⟨unused, _ | ⟨flag, point⟩⟩ := bits
    · simp at h
    · simp only [List.getElem?_cons_zero, Outcome.unwrap_some, Outcome.ok.injEq,
        exists_eq_left'] at h
      split at h
      · simp at h
      · rename_i hflag
        split at h
        · simp at h
        · rename_i hlen
          obtain rfl : flag = 0x04 := by simpa using hflag
          obtain rfl : (⟨algorithm, point⟩ : PublicKey) = key := by simpa using h
          refine ⟨point, ⟨_, hbits, rfl⟩, ?_, rfl⟩
          simp only [List.length_cons, ne_eq, Decidable.not_not] at hlen
          omega
  · rintro ⟨point, ⟨⟨unused, _⟩, hbits, rfl⟩, hlen, rfl⟩
    refine ⟨_, hbits, 0x04, by simp, ?_⟩
    rw [if_neg (by simp), if_neg (by simp; omega)]
    rfl

/-- The first octet of the bit string is looked at before its length. -/
theorem parseEcX509_eq_panic_iff :
    Ecdsa.parseX509 crates algorithm bytes = .panic ↔ HasEcX509 curve bytes [] := by
  rw [← exists_decode_ecX509_iff crates c, Ecdsa.parseX509, c.usesEcdsa_eq, c.info_eq]
  simp only [Outcome.assert_true, Outcome.ok_bind, Outcome.unwrap_some, c.curve_eq,
    c.fixedLen_eq, Outcome.bind_eq_panic_iff, Outcome.mapErr_eq_panic_iff,
    Outcome.mapErr_eq_ok_iff, BitString.octetSlice,
    decode_ne_panic (total_ecdsa_takeSubjectPublicKeyInfo crates c.info c.curveInfo) bytes,
    false_or]
  refine exists_congr fun bits => and_congr_right fun _ => ?_
  obtain ⟨unused, _ | ⟨flag, point⟩⟩ := bits
  · simp
  · simp only [List.getElem?_cons_zero, Outcome.unwrap_some, reduceCtorEq, false_or,
      Outcome.ok.injEq, exists_eq_left', iff_false]
    split
    · simp
    · split <;> simp

end Ecdsa

end DomainKmip.KeyForms
