import DomainKmip.KeyLoading

namespace DomainKmip.RsaForms

open DomainKmip.Library.BigEndian
open DomainKmip.Library.RsaField
open DomainKmip.Library.Der
open DomainKmip.Domain
open DomainKmip.Kmip
open DomainKmip.Dependencies
open DomainKmip.PublicKeys
open DomainKmip.SigningSafety
open DomainKmip.KeyForms
open DomainKmip.KeyLoading

/-- A KMIP big integer: two's complement, padded on the left to a multiple of eight
octets. -/
def kmipBigInteger (n : Nat) : Octets :=
  let content := unsignedContent n
  List.replicate ((8 - content.length % 8) % 8) 0 ++ content

@[simp] theorem value_kmipBigInteger (n : Nat) : value (kmipBigInteger n) = n := by
  rw [kmipBigInteger, value_append, value_replicate_zero, value_unsignedContent, Nat.zero_mul,
    Nat.zero_add]

theorem length_ofNat_le_of_bits {n k : Nat} (h : n < 2 ^ (8 * k)) : (ofNat n).length ≤ k := by
  rw [Nat.pow_mul] at h
  exact length_ofNat_le_iff.mpr h

theorem length_ofNat_le {n : Nat} (h : n < 2 ^ 4096) : (ofNat n).length ≤ 512 := by
  rw [show 4096 = 8 * 512 by rfl] at h
  exact length_ofNat_le_of_bits h

/-- Objects that hold the RSA public key with modulus `n` and exponent `e`, under any
label. -/
inductive IsRsaKey (n e : Nat) : ManagedObject → Prop
  | pkcs1 (label : Option CryptographicAlgorithm) (length : Option Int) :
      IsRsaKey n e (.PublicKey
        { keyFormatType := .PKCS1
          keyMaterial := .Bytes (rsaPublicKey (unsignedContent n) (unsignedContent e))
          cryptographicAlgorithm := label
          cryptographicLength := length })
  | x509 (label : Option CryptographicAlgorithm) (length : Option Int) :
      IsRsaKey n e (.PublicKey
        { keyFormatType := .X509
          keyMaterial := .Bytes (subjectPublicKeyInfo rsaIdentifier
            ⟨0, rsaPublicKey (unsignedContent n) (unsignedContent e)⟩)
          cryptographicAlgorithm := label
          cryptographicLength := length })
  | transparent (format : KeyFormatType) (label : Option CryptographicAlgorithm)
      (length : Option Int) :
      IsRsaKey n e (.PublicKey
        { keyFormatType := format
          keyMaterial := .TransparentRSAPublicKey (kmipBigInteger n) (kmipBigInteger e)
          cryptographicAlgorithm := label
          cryptographicLength := length })

/-- `rsa_encode` frames arguments without leading zero octets. -/
def FramesMinimal (crates : Crates) : Prop :=
  ∀ exponent modulus, exponent.head? ≠ some 0 → modulus.head? ≠ some 0 →
    exponent.length ≤ 65535 → crates.rsaEncode exponent modulus = some (rfc3110 exponent modulus)

/-- Whatever the form, the key is fetched with the octets of its RFC 3110 form. -/
def OneDnskey (crates : Crates) (algorithm : SecurityAlgorithm) (n e : Nat) : Prop :=
  ∀ object publicKeyId connPool, ∀ reply : (call : Call) → Reply call, IsRsaKey n e object →
    reply (.connect connPool) = .ok () → reply (.getKey connPool publicKeyId) = .ok object →
    (forKeyIdAndDnssecAlgorithm crates publicKeyId algorithm connPool).eval reply =
      .ok ⟨algorithm, rfc3110 (ofNat e) (ofNat n)⟩

section Forms

variable {n e : Nat}

theorem length_content_le {n : Nat} (h : n < 2 ^ 4096) : (unsignedContent n).length ≤ 513 :=
  length_unsignedContent_le (length_ofNat_le_iff.mp (length_ofNat_le h))

variable (hn : n < 2 ^ 4096) (he : e < 2 ^ 4096)

include hn he

theorem length_rsaPublicKeyContent_le :
    (rsaPublicKeyContent (unsignedContent n) (unsignedContent e)).length ≤ 1034 := by
  have hlenN := length_content_le hn
  have hlenE := length_content_le he
  have htlvN : (tlv 0x02 (unsignedContent n)).length ≤ _ := length_tlv_le 2 (by omega)
  have htlvE : (tlv 0x02 (unsignedContent e)).length ≤ _ := length_tlv_le 2 (by omega)
  rw [rsaPublicKeyContent, List.length_append]
  omega

theorem hasPkcs1 : HasPkcs1 (rsaPublicKey (unsignedContent n) (unsignedContent e))
    (unsignedContent n) (unsignedContent e) := by
  have hlength := length_rsaPublicKeyContent_le hn he
  refine ⟨⟨isUnsigned_unsignedContent n, isUnsigned_unsignedContent e, ?_⟩, [], by simp⟩
  rw [Fits]
  omega

theorem hasRsaX509 : HasRsaX509
    (subjectPublicKeyInfo rsaIdentifier ⟨0, rsaPublicKey (unsignedContent n) (unsignedContent e)⟩)
    (unsignedContent n) (unsignedContent e) := by
  have hkey := hasPkcs1 hn he
  have hlength := length_rsaPublicKeyContent_le hn he
  have hsequence : (rsaPublicKey (unsignedContent n) (unsignedContent e)).length ≤ 1038 :=
    (length_tlv_le 2 (by omega)).trans (by omega)
  exact ⟨⟨0, rsaPublicKey (unsignedContent n) (unsignedContent e)⟩, [],
    ⟨BitString.valid_of_whole _, fits_spkiContent (by decide) (hsequence.trans_lt (by decide))⟩,
    hkey, by simp⟩

variable {crates : Crates} {algorithm : SecurityAlgorithm}
  (halg : Rsa.usesRsa algorithm = true)

include halg

theorem holds_of_isRsaKey {object : ManagedObject} (hobject : IsRsaKey n e object)
    {publicKey : Octets}
    (hder : crates.rsaEncode (unsignedContent e) (unsignedContent n) = some publicKey)
    (hkmip : crates.rsaEncode (kmipBigInteger e) (kmipBigInteger n) = some publicKey) :
    Holds crates algorithm object publicKey := by
  cases hobject with
  | pkcs1 label length =>
      exact .bytes (f := .pkcs1) rfl (by simp [form, halg])
        ⟨_, _, hasPkcs1 hn he, hder⟩
  | x509 label length =>
      exact .bytes (f := .rsaX509) rfl (by simp [form, halg])
        ⟨_, _, hasRsaX509 hn he, hder⟩
  | transparent format label length => exact .transparent rfl hkmip

end Forms

/-- An RSA key gives one DNSKEY whatever its form: sign octets and padding are leading
zeros, which `rsa_encode` drops. -/
theorem oneDnskey_of_framesRsa {crates : Crates} (hcrates : crates.FramesRsa)
    {algorithm : SecurityAlgorithm} (halg : Rsa.usesRsa algorithm = true) {n e : Nat}
    (hn : n < 2 ^ 4096) (he : e < 2 ^ 4096) :
    OneDnskey crates algorithm n e := by
  intro object publicKeyId connPool reply hobject hconnect hget
  have hlength : (ofNat e).length ≤ 65535 := (length_ofNat_le he).trans (by decide)
  have hder := (hcrates _ _).trans
    (frameNumbers_of_values (value_unsignedContent e) (value_unsignedContent n) hlength)
  have hkmip := (hcrates _ _).trans
    (frameNumbers_of_values (value_kmipBigInteger e) (value_kmipBigInteger n) hlength)
  have holds := holds_of_isRsaKey hn he halg hobject hder hkmip
  exact eval_forKeyIdAndDnssecAlgorithm_eq_ok_iff.mpr ⟨object, _, hconnect, hget, holds, rfl⟩

theorem lt_two_pow_of_octet {n k : Nat} (h : n < 2 ^ 8) (hk : 8 ≤ k) : n < 2 ^ k :=
  h.trans_le (Nat.pow_le_pow_right Nat.two_pos hk)

theorem oneDnskey_of_143_and_3 :
    OneDnskey sampleCrates .RSASHA256 143 3 ∧ rfc3110 (ofNat 3) (ofNat 143) = [1, 3, 143] :=
  ⟨oneDnskey_of_framesRsa sampleCrates_framesRsa rfl
    (lt_two_pow_of_octet (by decide) (by decide)) (lt_two_pow_of_octet (by decide) (by decide)),
    by norm_num [ofNat, rfc3110]; decide⟩

def pkcs1Key : ManagedObject :=
  .PublicKey
    { keyFormatType := .PKCS1
      keyMaterial := .Bytes [48, 7, 2, 2, 0, 143, 2, 1, 3]
      cryptographicAlgorithm := some .RSA
      cryptographicLength := some 8 }

theorem isRsaKey_pkcs1Key : IsRsaKey 143 3 pkcs1Key := by
  have hbytes : rsaPublicKey (unsignedContent 143) (unsignedContent 3) =
      [48, 7, 2, 2, 0, 143, 2, 1, 3] := by
    norm_num [unsignedContent, ofNat, rsaPublicKey, rsaPublicKeyContent, sequenceOf, tlv,
      encodeLength]
    decide
  rw [pkcs1Key, ← hbytes]
  exact .pkcs1 (some .RSA) (some 8)

/-- An encoding that leaves the zeros of its arguments where they are. -/
def keepingCrates : Crates :=
  { sampleCrates with
    rsaEncode := fun exponent modulus =>
      if exponent.length ≤ 65535 then some (rfc3110 exponent modulus) else none }

/-- Where the encoding keeps it, the sign octet of the modulus ends up in the DNSKEY. -/
theorem not_oneDnskey_of_pkcs1Key :
    FramesMinimal keepingCrates ∧ ¬ OneDnskey keepingCrates .RSASHA256 143 3 := by
  refine ⟨fun _ _ _ _ hlength => if_pos hlength, fun h => ?_⟩
  have hfetched := h pkcs1Key "public" samplePool (getReplies pkcs1Key) isRsaKey_pkcs1Key rfl rfl
  have hoctets : (forKeyIdAndDnssecAlgorithm keepingCrates "public" .RSASHA256 samplePool).eval
      (getReplies pkcs1Key) = .ok ⟨.RSASHA256, [1, 3, 0, 143]⟩ := by rfl
  rw [hoctets] at hfetched
  norm_num [ofNat, rfc3110] at hfetched

end DomainKmip.RsaForms
