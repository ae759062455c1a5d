import DomainKmip.KeyLoading

namespace DomainKmip.EcdsaKeys

open DomainKmip.Library.BigEndian
open DomainKmip.Library.RustResult
open DomainKmip.Library.Der
open DomainKmip.Domain
open DomainKmip.Kmip
open DomainKmip.Dependencies
open DomainKmip.Oids
open DomainKmip.Ecdsa
open DomainKmip.PublicKeys
open DomainKmip.SigningSafety
open DomainKmip.KeyForms
open DomainKmip.KeyLoading

def curveOf : SecurityAlgorithm → Option (OidInfo × Nat)
  | .ECDSAP256SHA256 => some (SECP256R1_OID, 32)
  | .ECDSAP384SHA384 => some (SECP384R1_OID, 48)
  | _ => none

/-- `bytes` starts with the key of an uncompressed point. A bit string of whole octets
has no unused bits; what a decoder of DER asks of the others is in `valid`. -/
structure HasPoint (curve : OidInfo) (coordLen : Nat) (bytes : Octets) (unused : UInt8)
    (x y : Octets) : Prop where
  length_x : x.length = coordLen
  length_y : y.length = coordLen
  valid : BitString.Valid ⟨unused, 0x04 :: (x ++ y)⟩
  starts : ∃ rest, bytes =
    subjectPublicKeyInfo (ecIdentifier curve) ⟨unused, 0x04 :: (x ++ y)⟩ ++ rest

section Points

variable {algorithm : SecurityAlgorithm} {curve : OidInfo} {coordLen : Nat}
  (hcurve : curveOf algorithm = some (curve, coordLen))

include hcurve

theorem form_of_curveOf : form algorithm .X509 = some (.ecX509 curve coordLen) := by
  cases algorithm <;> simp_all [curveOf, form, Rsa.usesRsa]

theorem spkiBits_of_length {unused : UInt8} {x y : Octets}
    (hvalid : BitString.Valid ⟨unused, 0x04 :: (x ++ y)⟩)
    (hx : x.length = coordLen) (hy : y.length = coordLen) :
    SpkiBits (ecIdentifier curve) ⟨unused, 0x04 :: (x ++ y)⟩ := by
  have hcases := curve_of_form (form_of_curveOf hcurve)
  have hidentifier : (ecIdentifier curve).length < 2 ^ 15 := by
    rcases hcases with ⟨_, rfl, _⟩ | ⟨_, rfl, _⟩ <;> decide
  refine ⟨hvalid, fits_spkiContent hidentifier ?_⟩
  rw [List.length_cons, List.length_append]
  omega

/-- The parser sees a point of the right size whatever the number of unused bits. -/
theorem hasEcX509_iff {bytes point : Octets} :
    HasEcX509 curve bytes (0x04 :: point) ∧ point.length = 2 * coordLen ↔
      ∃ unused x y, HasPoint curve coordLen bytes unused x y ∧ point = x ++ y := by
  constructor
  · rintro ⟨⟨⟨unused, octets⟩, rest, hbits, hoctets, hbytes⟩, hlen⟩
    obtain rfl : octets = 0x04 :: point := hoctets
    refine ⟨unused, point.take coordLen, point.drop coordLen,
      ⟨?_, ?_, ?_, rest, ?_⟩, (List.take_append_drop coordLen point).symm⟩
    · rw [List.length_take]
      omega
    · rw [List.length_drop]
      omega
    · rw [List.take_append_drop]
      exact hbits.1
    · rw [hbytes, List.take_append_drop]
  · rintro ⟨unused, x, y, ⟨hx, hy, hvalid, rest, hbytes⟩, rfl⟩
    refine ⟨⟨_, rest, spkiBits_of_length hcurve hvalid hx hy, rfl, hbytes⟩, ?_⟩
    rw [List.length_append]
    omega

theorem HasPoint.unique {bytes x y x' y' : Octets} {unused unused' : UInt8}
    (h : HasPoint curve coordLen bytes unused x y)
    (h' : HasPoint curve coordLen bytes unused' x' y') : unused = unused' := by
  obtain ⟨rest, hbytes⟩ := h.starts
  obtain ⟨rest', hbytes'⟩ := h'.starts
  have hbits := spkiBits_of_length hcurve h.valid h.length_x h.length_y
  have hbits' := spkiBits_of_length hcurve h'.valid h'.length_x h'.length_y
  exact congrArg BitString.unused
    (subjectPublicKeyInfo_unique hbits hbits' (hbytes.symm.trans hbytes')).2

theorem parseX509_eq_ok_iff (crates : Crates) {bytes : Octets} {key : PublicKey} :
    parseX509 crates algorithm bytes = .ok key ↔
      ∃ unused x y, HasPoint curve coordLen bytes unused x y ∧
        key = ⟨algorithm, x ++ y⟩ := by
  obtain ⟨c⟩ := onCurve_of_form (form_of_curveOf hcurve)
  rw [parseEcX509_eq_ok_iff crates c]
  constructor
  · rintro ⟨point, hkey, hlen, rfl⟩
    obtain ⟨unused, x, y, hpoint, rfl⟩ := (hasEcX509_iff hcurve).mp ⟨hkey, hlen⟩
    exact ⟨unused, x, y, hpoint, rfl⟩
  · rintro ⟨unused, x, y, hpoint, rfl⟩
    obtain ⟨hkey, hlen⟩ := (hasEcX509_iff hcurve).mpr ⟨unused, x, y, hpoint, rfl⟩
    exact ⟨x ++ y, hkey, hlen, rfl⟩

theorem parseX509_ne_ok_iff (crates : Crates) {bytes : Octets} :
    (∀ key, parseX509 crates algorithm bytes ≠ .ok key) ↔
      ∀ unused x y, ¬ HasPoint curve coordLen bytes unused x y := by
  constructor
  · intro hnone unused x y h
    exact hnone _ ((parseX509_eq_ok_iff hcurve crates).mpr ⟨unused, x, y, h, rfl⟩)
  · intro hnone key h
    obtain ⟨unused, x, y, h, _⟩ := (parseX509_eq_ok_iff hcurve crates).mp h
    exact hnone unused x y h

theorem parseX509_eq_panic_iff (crates : Crates) {bytes : Octets} :
    parseX509 crates algorithm bytes = .panic ↔ HasEcX509 curve bytes [] := by
  obtain ⟨c⟩ := onCurve_of_form (form_of_curveOf hcurve)
  exact parseEcX509_eq_panic_iff crates c

end Points

/-- The parser accepts the uncompressed points of the curve, and nothing else, except
that it takes a bit string with unused bits for one of whole octets. -/
theorem parseX509_exact_iff (crates : Crates) (algorithm : SecurityAlgorithm)
    (curve : OidInfo) (coordLen : Nat) (hcurve : curveOf algorithm = some (curve, coordLen))
    (bytes : Octets) :
    (∀ key, parseX509 crates algorithm bytes = .ok key ↔
      ∃ x y, HasPoint curve coordLen bytes 0 x y ∧ key = ⟨algorithm, x ++ y⟩) ↔
    ∀ unused x y, 1 ≤ unused.toNat → ¬ HasPoint curve coordLen bytes unused x y := by
  simp only [parseX509_eq_ok_iff hcurve]
  constructor
  · intro hexact unused x y hpos hpoint
    obtain ⟨x', y', hzero, _⟩ := (hexact _).mp ⟨unused, x, y, hpoint, rfl⟩
    rw [hpoint.unique hcurve hzero] at hpos
    simp at hpos
  · intro hwhole key
    constructor
    · rintro ⟨unused, x, y, hpoint, rfl⟩
      have hzero : unused = 0 := by
        apply UInt8.toNat_inj.mp
        by_contra hne
        exact hwhole unused x y (Nat.pos_of_ne_zero hne) hpoint
      subst hzero
      exact ⟨x, y, hpoint, rfl⟩
    · rintro ⟨x, y, hpoint, rfl⟩
      exact ⟨0, x, y, hpoint, rfl⟩

theorem curveOf_P256 : curveOf .ECDSAP256SHA256 = some (SECP256R1_OID, 32) := rfl

theorem curveOf_P384 : curveOf .ECDSAP384SHA384 = some (SECP384R1_OID, 48) := rfl

/-- The key of some point, with a number of unused bits, which are zero. -/
def zeroPoint (curve : OidInfo) (coordLen : Nat) (unused : UInt8) : Octets :=
  subjectPublicKeyInfo (ecIdentifier curve)
    ⟨unused, 0x04 :: (List.replicate coordLen 0 ++ List.replicate coordLen 0)⟩

theorem hasPoint_zeroPoint (curve : OidInfo) (coordLen : Nat) {unused : UInt8}
    (hvalid : BitString.Valid
      ⟨unused, 0x04 :: (List.replicate coordLen 0 ++ List.replicate coordLen 0)⟩) :
    HasPoint curve coordLen (zeroPoint curve coordLen unused) unused
      (List.replicate coordLen 0) (List.replicate coordLen 0) :=
  ⟨by simp, by simp, hvalid, [], by simp [zeroPoint]⟩

theorem parseX509_exact_zeroPoint :
    parseX509 sampleCrates .ECDSAP256SHA256 (zeroPoint SECP256R1_OID 32 0) =
      .ok ⟨.ECDSAP256SHA256, List.replicate 64 0⟩ := by
  have hpoint := hasPoint_zeroPoint SECP256R1_OID 32 (BitString.valid_of_whole _)
  have hexact := (parseX509_exact_iff sampleCrates _ _ _ curveOf_P256
    (zeroPoint SECP256R1_OID 32 0)).mpr ?_
  · exact (hexact _).mpr ⟨_, _, hpoint, by simp⟩
  · intro unused x y hpos h
    rw [h.unique curveOf_P256 hpoint] at hpos
    simp at hpos

/-- A bit string cut at a place that is not the end of an octet passes for a point. -/
theorem parseX509_accepts_unused_bits :
    parseX509 sampleCrates .ECDSAP256SHA256 (zeroPoint SECP256R1_OID 32 1) =
      .ok ⟨.ECDSAP256SHA256, List.replicate 64 0⟩ ∧
    ¬ ∃ x y, HasPoint SECP256R1_OID 32 (zeroPoint SECP256R1_OID 32 1) 0 x y := by
  have hpoint : HasPoint SECP256R1_OID 32 (zeroPoint SECP256R1_OID 32 1) 1 _ _ :=
    hasPoint_zeroPoint SECP256R1_OID 32 (by decide)
  constructor
  · exact (parseX509_eq_ok_iff curveOf_P256 sampleCrates).mpr ⟨1, _, _, hpoint, by simp⟩
  · rintro ⟨x, y, hzero⟩
    exact absurd (hpoint.unique curveOf_P256 hzero) (by decide)

/-- The server has the key, as octets under a label. -/
structure Returns (reply : (call : Call) → Reply call) (connPool : ConnPool)
    (publicKeyId : String) (format : KeyFormatType) (bytes : Octets) : Prop where
  connects : reply (.connect connPool) = .ok ()
  gets : ∃ keyBlock, reply (.getKey connPool publicKeyId) = .ok (.PublicKey keyBlock) ∧
    keyBlock.keyFormatType = format ∧ keyBlock.keyMaterial = .Bytes bytes

section Labels

variable (crates : Crates) {algorithm : SecurityAlgorithm} {curve : OidInfo} {coordLen : Nat}
  {reply : (call : Call) → Reply call} {connPool : ConnPool} {publicKeyId : String}
  {format : KeyFormatType} {bytes : Octets}

variable (algorithm) in
theorem eval_of_returns (h : Returns reply connPool publicKeyId format bytes) :
    ∃ keyBlock : KeyBlock, keyBlock.keyFormatType = format ∧
      (forKeyIdAndDnssecAlgorithm crates publicKeyId algorithm connPool).eval reply =
        ofBytes crates algorithm keyBlock bytes := by
  obtain ⟨keyBlock, hget, hformat, hmaterial⟩ := h.gets
  refine ⟨keyBlock, hformat, ?_⟩
  rw [eval_forKeyIdAndDnssecAlgorithm, h.connects, hget]
  simp only [Outcome.ofExcept_ok, Outcome.ok_bind, ofManagedObject, hmaterial]

/-- Wherever the dispatch takes the octets for a key on a curve, they are parsed. -/
theorem eval_of_form (h : Returns reply connPool publicKeyId format bytes)
    (hform : form algorithm format = some (.ecX509 curve coordLen)) :
    (forKeyIdAndDnssecAlgorithm crates publicKeyId algorithm connPool).eval reply =
      parseX509 crates algorithm bytes := by
  obtain ⟨keyBlock, rfl, heval⟩ := eval_of_returns crates algorithm h
  have hdispatch := ofBytes_cases crates algorithm keyBlock bytes
  rw [hform] at hdispatch
  rw [heval, hdispatch]

/-- The dispatch has no entry for a raw key on P-256. -/
theorem eval_raw_P256 (h : Returns reply connPool publicKeyId .Raw bytes) :
    ∃ e, (forKeyIdAndDnssecAlgorithm crates publicKeyId .ECDSAP256SHA256 connPool).eval reply =
      .err e := by
  obtain ⟨keyBlock, hformat, heval⟩ := eval_of_returns crates .ECDSAP256SHA256 h
  have hdispatch := ofBytes_cases crates .ECDSAP256SHA256 keyBlock bytes
  rw [hformat] at hdispatch
  rw [heval]
  exact hdispatch

end Labels

/-- The label makes no difference on P-384, and on P-256 only where the octets are no
key anyway; an empty bit string crashes the parser. -/
theorem label_irrelevant_iff (crates : Crates) (algorithm : SecurityAlgorithm)
    (curve : OidInfo) (coordLen : Nat) (hcurve : curveOf algorithm = some (curve, coordLen))
    (bytes : Octets) (connPool : ConnPool) (publicKeyId : String)
    (reply reply' : (call : Call) → Reply call)
    (hx509 : Returns reply connPool publicKeyId .X509 bytes)
    (hraw : Returns reply' connPool publicKeyId .Raw bytes) :
    (SameResult
        ((forKeyIdAndDnssecAlgorithm crates publicKeyId algorithm connPool).eval reply)
        ((forKeyIdAndDnssecAlgorithm crates publicKeyId algorithm connPool).eval reply') ∧
      ∀ x y, HasPoint curve coordLen bytes 0 x y →
        (forKeyIdAndDnssecAlgorithm crates publicKeyId algorithm connPool).eval reply =
          .ok ⟨algorithm, x ++ y⟩ ∧
        (forKeyIdAndDnssecAlgorithm crates publicKeyId algorithm connPool).eval reply' =
          .ok ⟨algorithm, x ++ y⟩) ↔
    ¬ HasEcX509 curve bytes [] ∧
      (algorithm = .ECDSAP256SHA256 → ∀ unused x y,
        ¬ HasPoint curve coordLen bytes unused x y) := by
  have hpoint : ∀ x y, HasPoint curve coordLen bytes 0 x y →
      parseX509 crates algorithm bytes = .ok ⟨algorithm, x ++ y⟩ := by
    intro x y h
    exact (parseX509_eq_ok_iff hcurve crates).mpr ⟨0, x, y, h, rfl⟩
  have hpanic : ¬ parseX509 crates algorithm bytes = .panic ↔ ¬ HasEcX509 curve bytes [] :=
    not_congr (parseX509_eq_panic_iff hcurve crates)
  rw [eval_of_form crates hx509 (form_of_curveOf hcurve)]
  rcases curve_of_form (form_of_curveOf hcurve) with ⟨rfl, rfl, rfl⟩ | ⟨rfl, rfl, rfl⟩
  · obtain ⟨e, he⟩ := eval_raw_P256 crates hraw
    rw [he, sameResult_err_iff, parseX509_ne_ok_iff hcurve, ne_eq, hpanic]
    constructor
    · rintro ⟨⟨hnonempty, hnone⟩, _⟩
      exact ⟨hnonempty, fun _ => hnone⟩
    · rintro ⟨hnonempty, hnone⟩
      exact ⟨⟨hnonempty, hnone rfl⟩, fun x y h => absurd h (hnone rfl 0 x y)⟩
  · rw [eval_of_form crates hraw rfl, sameResult_self_iff, ne_eq, hpanic]
    constructor
    · rintro ⟨hnonempty, _⟩
      exact ⟨hnonempty, nofun⟩
    · rintro ⟨hnonempty, _⟩
      exact ⟨hnonempty, fun x y h => ⟨hpoint x y h, hpoint x y h⟩⟩

def labelledKey (format : KeyFormatType) (bytes : Octets) : ManagedObject :=
  .PublicKey
    { keyFormatType := format
      keyMaterial := .Bytes bytes
      cryptographicAlgorithm := some .ECDSA
      cryptographicLength := none }

theorem returns_labelledKey (format : KeyFormatType) (bytes : Octets) :
    Returns (getReplies (labelledKey format bytes)) samplePool "public" format bytes :=
  ⟨rfl, _, rfl, rfl, rfl⟩

theorem label_irrelevant_on_P384 :
    (forKeyIdAndDnssecAlgorithm sampleCrates "public" .ECDSAP384SHA384 samplePool).eval
        (getReplies (labelledKey .X509 (zeroPoint SECP384R1_OID 48 0))) =
      .ok ⟨.ECDSAP384SHA384, List.replicate 96 0⟩ ∧
    (forKeyIdAndDnssecAlgorithm sampleCrates "public" .ECDSAP384SHA384 samplePool).eval
        (getReplies (labelledKey .Raw (zeroPoint SECP384R1_OID 48 0))) =
      .ok ⟨.ECDSAP384SHA384, List.replicate 96 0⟩ := by
  have hpoint := hasPoint_zeroPoint SECP384R1_OID 48 (BitString.valid_of_whole _)
  have hnonempty : ¬ HasEcX509 SECP384R1_OID (zeroPoint SECP384R1_OID 48 0) [] := by
    rw [← parseX509_eq_panic_iff curveOf_P384 sampleCrates,
      (parseX509_eq_ok_iff curveOf_P384 sampleCrates).mpr ⟨0, _, _, hpoint, rfl⟩]
    nofun
  have hloads := (label_irrelevant_iff sampleCrates .ECDSAP384SHA384 SECP384R1_OID 48
    curveOf_P384 (zeroPoint SECP384R1_OID 48 0) samplePool "public" _ _
    (returns_labelledKey .X509 _) (returns_labelledKey .Raw _)).mpr ⟨hnonempty, nofun⟩
  simpa using hloads.2 _ _ hpoint

/-- The same P-256 key loads under one label and not under the other. -/
theorem label_decides_on_P256 :
    HasPoint SECP256R1_OID 32 (zeroPoint SECP256R1_OID 32 0) 0
      (List.replicate 32 0) (List.replicate 32 0) ∧
    (forKeyIdAndDnssecAlgorithm sampleCrates "public" .ECDSAP256SHA256 samplePool).eval
        (getReplies (labelledKey .X509 (zeroPoint SECP256R1_OID 32 0))) =
      .ok ⟨.ECDSAP256SHA256, List.replicate 64 0⟩ ∧
    ∃ e, (forKeyIdAndDnssecAlgorithm sampleCrates "public" .ECDSAP256SHA256 samplePool).eval
        (getReplies (labelledKey .Raw (zeroPoint SECP256R1_OID 32 0))) = .err e := by
  have hpoint := hasPoint_zeroPoint SECP256R1_OID 32 (BitString.valid_of_whole _)
  refine ⟨hpoint, ?_, eval_raw_P256 sampleCrates (returns_labelledKey .Raw _)⟩
  rw [eval_of_form sampleCrates (returns_labelledKey .X509 _) rfl]
  exact (parseX509_eq_ok_iff curveOf_P256 sampleCrates).mpr
    ⟨0, _, _, hpoint, by simp⟩

end DomainKmip.EcdsaKeys
