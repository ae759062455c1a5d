import DomainKmip.EcdsaKeys
import DomainKmip.RsaForms
import DomainKmip.SignatureForms
import DomainKmip.Validators

namespace DomainKmip.HsmKeys

open DomainKmip.Library.BigEndian
open DomainKmip.Library.RustResult
open DomainKmip.Library.RustSlice
open DomainKmip.Library.RsaField
open DomainKmip.Library.Der
open DomainKmip.Domain
open DomainKmip.Kmip
open DomainKmip.Dependencies
open DomainKmip.Oids
open DomainKmip.EcdsaSignature
open DomainKmip.Algorithms
open DomainKmip.KeyPairs
open DomainKmip.SigningSafety
open DomainKmip.KeyForms
open DomainKmip.KeyLoading
open DomainKmip.RsaForms
open DomainKmip.SignatureForms
open DomainKmip.Validators

structure RsaKey where
  modulus : Nat
  exponent : Nat
  modulus_pos : 1 ≤ modulus
  modulus_lt : modulus < 2 ^ 4096
  exponent_pos : 1 ≤ exponent
  exponent_lt : exponent < 2 ^ 4096

structure Point (curve : RecommendedCurve) where
  x : Nat
  y : Nat
  x_lt : x < 256 ^ coordLen curve
  y_lt : y < 256 ^ coordLen curve

/-- The public half of a key pair. -/
inductive HsmKey where
  | rsa (key : RsaKey)
  | ec (curve : RecommendedCurve) (point : Point curve)
  | ed25519 (point : OctetArray 32)
  | ed448 (point : OctetArray 57)

def HsmKey.cryptographicAlgorithm : HsmKey → CryptographicAlgorithm
  | .rsa _ => .RSA
  | .ec .. => .ECDSA
  | .ed25519 _ => .Ed25519
  | .ed448 _ => .Ed448

def curveOid : RecommendedCurve → OidInfo
  | .P_256 => SECP256R1_OID
  | .P_384 => SECP384R1_OID

def Point.octets {curve : RecommendedCurve} (point : Point curve) : Octets :=
  fixedWidth (coordLen curve) point.x ++ fixedWidth (coordLen curve) point.y

/-- An uncompressed point. -/
def Point.info {curve : RecommendedCurve} (point : Point curve) : Octets :=
  subjectPublicKeyInfo (ecIdentifier (curveOid curve)) ⟨0, 0x04 :: point.octets⟩

/-- The objects by which a server hands out a key, labelled as it likes. -/
inductive Publishes : HsmKey → ManagedObject → Prop
  | rsa {key : RsaKey} {object : ManagedObject} (h : IsRsaKey key.modulus key.exponent object) :
      Publishes (.rsa key) object
  | ec {curve : RecommendedCurve} {point : Point curve} {keyBlock : KeyBlock}
      (hmaterial : keyBlock.keyMaterial = .Bytes point.info) :
      Publishes (.ec curve point) (.PublicKey keyBlock)
  | ed25519 {point : OctetArray 32} {keyBlock : KeyBlock}
      (hmaterial : keyBlock.keyMaterial = .Bytes point.val) :
      Publishes (.ed25519 point) (.PublicKey keyBlock)
  | ed448 {point : OctetArray 57} {keyBlock : KeyBlock}
      (hmaterial : keyBlock.keyMaterial = .Bytes point.val) :
      Publishes (.ed448 point) (.PublicKey keyBlock)

/-- A signature of the data with the key, as the parameters ask for. It is left open
what a server answers to parameters that do not fit the key. -/
def Signs (schemes : Schemes) (parameters : CryptographicParameters) (data octets : Octets) :
    HsmKey → Prop
  | .rsa key => ∀ hash, parameters = ⟨some .PKCS1_v1_5, some hash, some .RSA⟩ →
      schemes.rsa hash key.modulus key.exponent data octets
  | .ec curve point => ∀ hash, parameters = ⟨none, some hash, some .ECDSA⟩ →
      ∃ r s, r < 256 ^ coordLen curve ∧ s < 256 ^ coordLen curve ∧ octets = signatureValue r s ∧
        schemes.ecdsa curve hash point.x point.y data r s
  | .ed25519 point => parameters = ⟨none, none, some .Ed25519⟩ →
      schemes.ed25519 point.val data octets
  | .ed448 point => parameters = ⟨none, none, some .Ed448⟩ → schemes.ed448 point.val data octets

/-- The key is of the type that the algorithm is for, which is what the documentation
asks of whoever names the two. -/
def Suits (algorithm : SecurityAlgorithm) (key : HsmKey) : Prop :=
  ∃ algInfo, getAlgInfo algorithm = some algInfo ∧
    key.cryptographicAlgorithm = algInfo.kmipCryptoAlg

def ecAlgorithm : RecommendedCurve → SecurityAlgorithm
  | .P_256 => .ECDSAP256SHA256
  | .P_384 => .ECDSAP384SHA384

def RsaKey.octets (key : RsaKey) : Octets := rfc3110 (ofNat key.exponent) (ofNat key.modulus)

/-- The octets that stand for a key in a DNSKEY record. -/
def HsmKey.octets : HsmKey → Octets
  | .rsa key => key.octets
  | .ec _ point => point.octets
  | .ed25519 point => point.val
  | .ed448 point => point.val

/-- The public key field of a DNSKEY record has the key in it. -/
inductive Encodes : SecurityAlgorithm → HsmKey → Octets → Prop
  | rsa {algorithm : SecurityAlgorithm} {key : RsaKey}
      (halg : algorithm = .RSASHA256 ∨ algorithm = .RSASHA512) :
      Encodes algorithm (.rsa key) key.octets
  | ec (curve : RecommendedCurve) (point : Point curve) :
      Encodes (ecAlgorithm curve) (.ec curve point) point.octets
  | ed25519 (point : OctetArray 32) : Encodes .ED25519 (.ed25519 point) point.val
  | ed448 (point : OctetArray 57) : Encodes .ED448 (.ed448 point) point.val

/-- The key is of the type and on the curve that the algorithm is for. -/
inductive Matches : SecurityAlgorithm → HsmKey → Prop
  | rsa {algorithm : SecurityAlgorithm} {key : RsaKey}
      (halg : algorithm = .RSASHA256 ∨ algorithm = .RSASHA512) : Matches algorithm (.rsa key)
  | ec (curve : RecommendedCurve) (point : Point curve) :
      Matches (ecAlgorithm curve) (.ec curve point)
  | ed25519 (point : OctetArray 32) : Matches .ED25519 (.ed25519 point)
  | ed448 (point : OctetArray 57) : Matches .ED448 (.ed448 point)

theorem matches_of_encodes {algorithm : SecurityAlgorithm} {key : HsmKey} {publicKey : Octets}
    (h : Encodes algorithm key publicKey) : Matches algorithm key := by
  cases h with
  | rsa halg => exact .rsa halg
  | ec curve point => exact .ec curve point
  | ed25519 point => exact .ed25519 point
  | ed448 point => exact .ed448 point

theorem octets_of_encodes {algorithm : SecurityAlgorithm} {key : HsmKey} {publicKey : Octets}
    (h : Encodes algorithm key publicKey) : publicKey = key.octets := by
  cases h <;> rfl

theorem algInfo_of_matches {algorithm : SecurityAlgorithm} {key : HsmKey}
    (h : Matches algorithm key) : ∃ algInfo, getAlgInfo algorithm = some algInfo := by
  cases h with
  | rsa halg =>
      rcases halg with rfl | rfl
      · exact ⟨_, rfl⟩
      · exact ⟨_, rfl⟩
  | ec curve point => cases curve <;> exact ⟨_, rfl⟩
  | ed25519 point => exact ⟨_, rfl⟩
  | ed448 point => exact ⟨_, rfl⟩

section Loading

variable {crates : Crates} {algorithm : SecurityAlgorithm} {object : ManagedObject}
  {publicKey : Octets}

/-- A response holds one key at most. -/
theorem holds_unique {publicKey' : Octets} (h : Holds crates algorithm object publicKey)
    (h' : Holds crates algorithm object publicKey') : publicKey = publicKey' := by
  have hkey := (ofManagedObject_eq_ok_iff crates).mpr ⟨publicKey, h, rfl⟩
  have hkey' := (ofManagedObject_eq_ok_iff crates).mpr ⟨publicKey', h', rfl⟩
  have heq := hkey.symm.trans hkey'
  simpa using heq

theorem length_value_fixedWidth {curve : RecommendedCurve} {n : Nat}
    (h : n < 256 ^ coordLen curve) : (fixedWidth (coordLen curve) n).length = coordLen curve ∧
      value (fixedWidth (coordLen curve) n) = n :=
  (eq_fixedWidth_iff h).mp rfl

theorem length_octets {curve : RecommendedCurve} (point : Point curve) :
    (fixedWidth (coordLen curve) point.x).length = coordLen curve ∧
      (fixedWidth (coordLen curve) point.y).length = coordLen curve :=
  ⟨(length_value_fixedWidth point.x_lt).1, (length_value_fixedWidth point.y_lt).1⟩

theorem length_rsaOctets_le (key : RsaKey) : key.octets.length ≤ 65531 := by
  have hexponent := length_ofNat_le key.exponent_lt
  have hmodulus := length_ofNat_le key.modulus_lt
  exact (length_rfc3110_le _ _).trans (by omega)

/-- The octets are those of the two numbers, in whatever form they were handed out. -/
theorem rsaEncode_of_values (hcrates : crates.FramesRsa) {key : RsaKey}
    {exponent modulus : Octets} (hexponent : value exponent = key.exponent)
    (hmodulus : value modulus = key.modulus) :
    crates.rsaEncode exponent modulus = some key.octets := by
  have hlength := length_ofNat_le key.exponent_lt
  rw [hcrates, frameNumbers_of_values hexponent hmodulus (by omega), RsaKey.octets]

theorem holds_of_rsa (hcrates : crates.FramesRsa) {key : RsaKey}
    (halg : algorithm = .RSASHA256 ∨ algorithm = .RSASHA512)
    (hobject : IsRsaKey key.modulus key.exponent object) :
    Holds crates algorithm object key.octets := by
  have hrsa : Rsa.usesRsa algorithm = true := by rcases halg with rfl | rfl <;> rfl
  exact holds_of_isRsaKey key.modulus_lt key.exponent_lt hrsa hobject
    (rsaEncode_of_values hcrates (value_unsignedContent _) (value_unsignedContent _))
    (rsaEncode_of_values hcrates (value_kmipBigInteger _) (value_kmipBigInteger _))

theorem curveOf_ecAlgorithm (curve : RecommendedCurve) :
    EcdsaKeys.curveOf (ecAlgorithm curve) = some (curveOid curve, coordLen curve) := by
  cases curve <;> rfl

theorem spkiBits_octets {curve : RecommendedCurve} (point : Point curve) :
    SpkiBits (ecIdentifier (curveOid curve)) ⟨0, 0x04 :: point.octets⟩ :=
  EcdsaKeys.spkiBits_of_length (curveOf_ecAlgorithm curve) (BitString.valid_of_whole _)
    (length_octets point).1 (length_octets point).2

theorem ecIdentifier_injective {curve curve' : RecommendedCurve}
    (h : ecIdentifier (curveOid curve) = ecIdentifier (curveOid curve')) : curve = curve' := by
  cases curve <;> cases curve' <;> first | rfl | exact absurd h (by decide)

/-- The curve that the octets name decides, not the algorithm that was expected. -/
theorem encodes_of_info {curve : RecommendedCurve} {point : Point curve} {keyBlock : KeyBlock}
    {expected : RecommendedCurve} (hmaterial : keyBlock.keyMaterial = .Bytes point.info)
    (h : Holds crates (ecAlgorithm expected) (.PublicKey keyBlock) publicKey) :
    Encodes (ecAlgorithm expected) (.ec curve point) publicKey := by
  cases h with
  | transparent hmaterial' => simp [hmaterial] at hmaterial'
  | @bytes _ bytes _ f hmaterial' hform holds =>
      obtain rfl : point.info = bytes := by simpa [hmaterial] using hmaterial'
      obtain rfl : f = .ecX509 (curveOid expected) (coordLen expected) := by
        cases expected <;> cases hformat : keyBlock.keyFormatType <;>
          simp_all [form, ecAlgorithm, Rsa.usesRsa, curveOid, coordLen]
      obtain ⟨⟨bits, rest, hbits, hoctets, hbytes⟩, _⟩ := holds
      rw [← List.append_nil point.info] at hbytes
      obtain ⟨hidentifier, rfl⟩ :=
        subjectPublicKeyInfo_unique (spkiBits_octets point) hbits hbytes
      obtain rfl := ecIdentifier_injective hidentifier
      obtain rfl : point.octets = publicKey := (List.cons.inj hoctets).2
      exact .ec curve point

/-- The type of a key leaves one algorithm, or the two that differ in the hash or the
curve. -/
theorem algorithm_of_suits {key : HsmKey} (h : Suits algorithm key) :
    match key with
    | .rsa _ => algorithm = .RSASHA256 ∨ algorithm = .RSASHA512
    | .ec .. => ∃ curve, algorithm = ecAlgorithm curve
    | .ed25519 _ => algorithm = .ED25519
    | .ed448 _ => algorithm = .ED448 := by
  obtain ⟨algInfo, halg, hkmip⟩ := h
  rcases getAlgInfo_cases halg with ⟨rfl, rfl⟩ | ⟨rfl, rfl⟩ | ⟨rfl, rfl⟩ | ⟨rfl, rfl⟩ |
    ⟨rfl, rfl⟩ | ⟨rfl, rfl⟩ <;> cases key <;>
    first
    | cases hkmip; done
    | exact Or.inl rfl
    | exact Or.inr rfl
    | exact ⟨.P_256, rfl⟩
    | exact ⟨.P_384, rfl⟩
    | rfl

theorem encodes_of_raw {point : Octets} {keyBlock : KeyBlock}
    (halg : algorithm = .ED25519 ∨ algorithm = .ED448)
    (hmaterial : keyBlock.keyMaterial = .Bytes point)
    (h : Holds crates algorithm (.PublicKey keyBlock) publicKey) : publicKey = point := by
  cases h with
  | transparent hmaterial' => simp [hmaterial] at hmaterial'
  | @bytes _ bytes _ f hmaterial' hform holds =>
      obtain rfl : point = bytes := by simpa [hmaterial] using hmaterial'
      obtain rfl : f = .raw := by
        rcases halg with rfl | rfl <;> cases hformat : keyBlock.keyFormatType <;>
          simp_all [form, Rsa.usesRsa]
      exact holds

/-- A key that is loaded for an algorithm that suits it is the key in the DNSKEY
record. -/
theorem encodes_of_publishes (hcrates : crates.FramesRsa) {key : HsmKey}
    (hsuits : Suits algorithm key) (hpublishes : Publishes key object)
    (h : Holds crates algorithm object publicKey) : Encodes algorithm key publicKey := by
  have halgorithm := algorithm_of_suits hsuits
  cases hpublishes with
  | rsa hobject =>
      rw [holds_unique h (holds_of_rsa hcrates halgorithm hobject)]
      exact .rsa halgorithm
  | ec hmaterial =>
      obtain ⟨expected, rfl⟩ := halgorithm
      exact encodes_of_info hmaterial h
  | @ed25519 point _ hmaterial =>
      obtain rfl : algorithm = .ED25519 := halgorithm
      rw [encodes_of_raw (Or.inl rfl) hmaterial h]
      exact .ed25519 point
  | @ed448 point _ hmaterial =>
      obtain rfl : algorithm = .ED448 := halgorithm
      rw [encodes_of_raw (Or.inr rfl) hmaterial h]
      exact .ed448 point

theorem dnskey_of_length {publicKey : Octets} (h : publicKey.length ≤ 65531)
    (algorithm : SecurityAlgorithm) (flags : UInt16) :
    ∃ record, Dnskey.new flags 3 algorithm publicKey = some record := by
  apply Option.ne_none_iff_exists'.mp
  rw [ne_eq, Dnskey.new_eq_none_iff]
  omega

end Loading

section Signatures

variable {schemes : Schemes} {data octets : Octets}

theorem val_of_parseRaw {len : Nat} {signature : OctetArray len}
    (h : parseRaw len octets = .ok signature) : signature.val = octets := by
  by_cases hlen : octets.length = len
  · rw [parseRaw_of_length hlen] at h
    rw [← Outcome.ok.inj h]
  · rw [parseRaw, if_pos hlen] at h
    simp at h

theorem parseX962_signatureValue {curve : RecommendedCurve} {r s : Nat}
    (hr : r < 256 ^ coordLen curve) (hs : s < 256 ^ coordLen curve) :
    ∃ signature, parseX962 (2 * coordLen curve) (signatureValue r s) = .ok signature ∧
      signature.val = fixedWidth (coordLen curve) r ++ fixedWidth (coordLen curve) s := by
  have hpos : 0 < coordLen curve ∧ coordLen curve ≤ 48 := by cases curve <;> decide
  have hhalf : 2 * coordLen curve / 2 = coordLen curve := by omega
  have hrest : 2 * coordLen curve - coordLen curve = coordLen curve := by omega
  obtain ⟨hlenR, _⟩ := length_value_fixedWidth hr
  obtain ⟨hlenS, _⟩ := length_value_fixedWidth hs
  refine ⟨⟨fixedWidth (coordLen curve) r ++ fixedWidth (coordLen curve) s, ?_⟩, ?_, rfl⟩
  · rw [List.length_append, hlenR, hlenS]
    omega
  · apply (parseX962_eq_ok_iff (by omega)).mpr
    rw [hhalf, hrest]
    exact ⟨r, s, ⟨hr, hs, [], (List.append_nil _).symm⟩,
      fits_signatureContent hr hs (by omega), rfl⟩

/-- The halves of the array are the two numbers that the server signed with. -/
theorem validatesEcdsa_of_parseX962 {curve : RecommendedCurve} {point : Point curve}
    {hash : HashingAlgorithm} {r s : Nat} (hr : r < 256 ^ coordLen curve)
    (hs : s < 256 ^ coordLen curve) (hsigns : schemes.ecdsa curve hash point.x point.y data r s)
    {signature : OctetArray (2 * coordLen curve)}
    (h : parseX962 (2 * coordLen curve) (signatureValue r s) = .ok signature) :
    ValidatesEcdsa schemes curve hash point.octets data signature.val := by
  obtain ⟨hlenX, hvalueX⟩ := length_value_fixedWidth point.x_lt
  obtain ⟨hlenY, hvalueY⟩ := length_value_fixedWidth point.y_lt
  obtain ⟨hlenR, hvalueR⟩ := length_value_fixedWidth hr
  obtain ⟨_, hvalueS⟩ := length_value_fixedWidth hs
  obtain ⟨parsed, hparsed, hval⟩ := parseX962_signatureValue hr hs
  obtain rfl : parsed = signature := Outcome.ok.inj (hparsed.symm.trans h)
  constructor
  · rw [Point.octets, List.length_append, hlenX, hlenY]
    omega
  · rw [hval, Point.octets, List.take_left' hlenX, List.drop_left' hlenX, List.take_left' hlenR,
      List.drop_left' hlenR, hvalueX, hvalueY, hvalueR, hvalueS]
    exact hsigns

theorem readRfc3110_octets (key : RsaKey) :
    readRfc3110 key.octets = some (ofNat key.exponent, ofNat key.modulus) := by
  have hlength := length_ofNat_le key.exponent_lt
  have hne : ofNat key.exponent ≠ [] := by
    rw [ne_eq, ofNat_eq_nil_iff]
    exact Nat.ne_of_gt key.exponent_pos
  exact readRfc3110_rfc3110 hne (by omega)

theorem validatesRsa_octets {hash : HashingAlgorithm} {key : RsaKey}
    (h : schemes.rsa hash key.modulus key.exponent data octets) :
    ValidatesRsa schemes hash key.octets data octets := by
  refine ⟨_, _, readRfc3110_octets key, ?_⟩
  rwa [value_ofNat, value_ofNat]

/-- What the parser of the algorithm makes of a signature that was made with the
parameters of the algorithm holds under the key. -/
theorem validates_of_signs {algorithm : SecurityAlgorithm} {algInfo : AlgorithmInfo}
    {key : HsmKey} {publicKey : Octets} {signature : Signature}
    (hencodes : Encodes algorithm key publicKey) (halg : getAlgInfo algorithm = some algInfo)
    (hsigns : Signs schemes (signParameters algInfo) data octets key)
    (hparse : algInfo.sigParser octets = .ok signature) :
    ValidatesUnder schemes algorithm publicKey data signature := by
  cases hencodes with
  | rsa halgorithm =>
      rcases halgorithm with rfl | rfl
      · obtain rfl : ALG_RSASHA256 = algInfo := Option.some.inj halg
        obtain rfl := Outcome.ok.inj hparse
        exact ⟨rfl, validatesRsa_octets (hsigns .SHA256 rfl)⟩
      · obtain rfl : ALG_RSASHA512 = algInfo := Option.some.inj halg
        obtain rfl := Outcome.ok.inj hparse
        exact ⟨rfl, validatesRsa_octets (hsigns .SHA512 rfl)⟩
  | ec curve point =>
      cases curve with
      | P_256 =>
          obtain rfl : ALG_ECDSAP256SHA256 = algInfo := Option.some.inj halg
          obtain ⟨array, harray, hsignature⟩ := Outcome.bind_eq_ok_iff.mp hparse
          obtain rfl := Outcome.ok.inj hsignature
          obtain ⟨r, s, hr, hs, rfl, hscheme⟩ := hsigns .SHA256 rfl
          exact ⟨rfl, validatesEcdsa_of_parseX962 hr hs hscheme harray⟩
      | P_384 =>
          obtain rfl : ALG_ECDSAP384SHA384 = algInfo := Option.some.inj halg
          obtain ⟨array, harray, hsignature⟩ := Outcome.bind_eq_ok_iff.mp hparse
          obtain rfl := Outcome.ok.inj hsignature
          obtain ⟨r, s, hr, hs, rfl, hscheme⟩ := hsigns .SHA384 rfl
          exact ⟨rfl, validatesEcdsa_of_parseX962 hr hs hscheme harray⟩
  | ed25519 point =>
      obtain rfl : ALG_ED25519 = algInfo := Option.some.inj halg
      obtain ⟨array, harray, hsignature⟩ := Outcome.bind_eq_ok_iff.mp hparse
      obtain rfl := Outcome.ok.inj hsignature
      obtain rfl := val_of_parseRaw harray
      exact ⟨rfl, point.property, hsigns rfl⟩
  | ed448 point =>
      obtain rfl : ALG_ED448 = algInfo := Option.some.inj halg
      obtain ⟨array, harray, hsignature⟩ := Outcome.bind_eq_ok_iff.mp hparse
      obtain rfl := Outcome.ok.inj hsignature
      obtain rfl := val_of_parseRaw harray
      exact ⟨rfl, point.property, hsigns rfl⟩

end Signatures

end DomainKmip.HsmKeys
