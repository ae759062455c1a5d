import DomainKmip.SigningSafety

namespace DomainKmip.SignatureForms

open DomainKmip.Library.BigEndian
open DomainKmip.Library.RustResult
open DomainKmip.Library.RustSlice
open DomainKmip.Library.Der
open DomainKmip.Library.DerReading
open DomainKmip.Domain
open DomainKmip.EcdsaSignature
open DomainKmip.SigningSafety

def signatureContent (r s : Nat) : Octets := integer r ++ integer s

/-- Ecdsa-Sig-Value. -/
def signatureValue (r s : Nat) : Octets := sequenceOf (signatureContent r s)

/-- `bytes` starts with a signature whose numbers have at most `halfLen` octets. -/
structure HasSignature (halfLen : Nat) (bytes : Octets) (r s : Nat) : Prop where
  r_lt : r < 256 ^ halfLen
  s_lt : s < 256 ^ halfLen
  starts : ∃ rest, bytes = signatureValue r s ++ rest

theorem reads_takeSignature : Reads takeSignature fun p e =>
    (isUnsigned p.1 = true ∧ isUnsigned p.2 = true ∧ Fits (tlv 0x02 p.1 ++ tlv 0x02 p.2)) ∧
      e = sequenceOf (tlv 0x02 p.1 ++ tlv 0x02 p.2) :=
  reads_unsignedPair reads_takeUnsigned reads_takeUnsigned

/-- The contents that are read are those of two numbers. -/
theorem decode_takeSignature_eq_ok_iff {bytes : Octets} {p : Octets × Octets} :
    decode bytes takeSignature = .ok p ↔
      ∃ r s rest, p = (unsignedContent r, unsignedContent s) ∧ Fits (signatureContent r s) ∧
        bytes = signatureValue r s ++ rest := by
  rw [decode_eq_ok_iff reads_takeSignature]
  constructor
  · rintro ⟨_, rest, ⟨⟨hr, hs, hfits⟩, rfl⟩, hbytes⟩
    rw [← unsignedContent_value hr, ← unsignedContent_value hs] at hfits hbytes
    refine ⟨value p.1, value p.2, rest, ?_, hfits, hbytes⟩
    rw [unsignedContent_value hr, unsignedContent_value hs]
  · rintro ⟨r, s, rest, rfl, hfits, hbytes⟩
    exact ⟨_, rest, ⟨⟨isUnsigned_unsignedContent r, isUnsigned_unsignedContent s, hfits⟩, rfl⟩,
      hbytes⟩

/-- Without its sign octet a number is the shortest one for its value, but for the
single octet of zero. -/
theorem dropSign_unsignedContent (n : Nat) :
    ∃ x, dropSign (unsignedContent n) = .ok x ∧ value x = n ∧ (x = [0] ∨ x = ofNat n) := by
  have hvalue := value_unsignedContent n
  rcases isUnsigned_cases (isUnsigned_unsignedContent n) with h | ⟨b, l, h, hb, _⟩ | ⟨b, l, h, hle⟩
  · rw [h] at hvalue ⊢
    exact ⟨[0], rfl, hvalue, Or.inl rfl⟩
  · rw [h] at hvalue ⊢
    refine ⟨b :: l, ?_, hvalue, Or.inr ?_⟩
    · rw [dropSign]
      simp [hb]
    · rw [← hvalue, ofNat_value (by simpa using hb)]
  · rw [h, value_zero_cons] at hvalue
    rw [h]
    refine ⟨b :: l, ?_, hvalue, Or.inr ?_⟩
    · rw [dropSign, if_pos hle]
    · rw [← hvalue, ofNat_value (by simpa using ne_zero_of_le hle)]

theorem value_of_stripSign {halfLen n : Nat} {x : Octets}
    (h : stripSign halfLen (unsignedContent n) = .ok x) : value x = n := by
  obtain ⟨y, hy, hvalue, _⟩ := dropSign_unsignedContent n
  rw [stripSign, hy, Outcome.ok_bind] at h
  split at h
  · simp at h
  · obtain rfl : y = x := by simpa using h
    exact hvalue

/-- One octet is room enough for zero. -/
theorem exists_stripSign_iff {halfLen n : Nat} (hpos : 0 < halfLen) :
    (∃ x, stripSign halfLen (unsignedContent n) = .ok x) ↔ n < 256 ^ halfLen := by
  constructor
  · rintro ⟨x, hx⟩
    rw [← value_of_stripSign hx]
    exact (value_lt x).trans_le (Nat.pow_le_pow_right (by omega) (length_le_of_stripSign hx))
  · intro hlt
    obtain ⟨x, hx, hvalue, hform⟩ := dropSign_unsignedContent n
    have hlen : x.length ≤ halfLen := by
      rcases hform with rfl | rfl
      · exact hpos
      · exact length_ofNat_le_iff.mpr hlt
    refine ⟨x, ?_⟩
    rw [stripSign, hx, Outcome.ok_bind, if_neg (by omega)]

theorem replicate_append_eq_fixedWidth {k : Nat} {x : Octets} (h : x.length ≤ k) :
    List.replicate (k - x.length) 0 ++ x = fixedWidth k (value x) := by
  have hlt : value x < 256 ^ k :=
    (value_lt x).trans_le (Nat.pow_le_pow_right (by omega) h)
  apply (eq_fixedWidth_iff hlt).mpr
  constructor
  · simp
    omega
  · simp [value_append, value_replicate_zero]

/-- The array behind the two numbers, once they are cut to half its length. -/
theorem copy_halves_eq_ok_iff {len : Nat} {r s : Octets} {signature : OctetArray len}
    (hr : r.length ≤ len / 2) (hs : s.length ≤ len / 2) :
    (do
      let signature ← copyFromSlice (zeros len) (← usizeSub (len / 2) r.length) (len / 2) r
      copyFromSlice signature (← usizeSub len s.length) len s : Outcome SignError _) =
        .ok signature ↔
      signature.val = fixedWidth (len / 2) (value r) ++ fixedWidth (len - len / 2) (value s) := by
  obtain ⟨written, hwritten, hval⟩ := copy_halves hr hs
  rw [hwritten, ← replicate_append_eq_fixedWidth hr,
    ← replicate_append_eq_fixedWidth (by omega : s.length ≤ len - len / 2), ← hval,
    Outcome.ok.injEq, Subtype.ext_iff, eq_comm]

theorem parseX962_eq_ok_iff {len : Nat} (hpos : 0 < len / 2) {bytes : Octets}
    {signature : OctetArray len} :
    parseX962 len bytes = .ok signature ↔
      ∃ r s, HasSignature (len / 2) bytes r s ∧ Fits (signatureContent r s) ∧
        signature.val = fixedWidth (len / 2) r ++ fixedWidth (len - len / 2) s := by
  constructor
  · intro h
    obtain ⟨_, hdecode, h⟩ := Outcome.bind_eq_ok_iff.mp h
    obtain ⟨r, s, rest, rfl, hfits, hbytes⟩ :=
      decode_takeSignature_eq_ok_iff.mp (Outcome.mapErr_eq_ok_iff.mp hdecode)
    obtain ⟨r', hr, h⟩ := Outcome.bind_eq_ok_iff.mp h
    obtain ⟨s', hs, h⟩ := Outcome.bind_eq_ok_iff.mp h
    have hval := (copy_halves_eq_ok_iff (length_le_of_stripSign hr)
      (length_le_of_stripSign hs)).mp h
    rw [value_of_stripSign hr, value_of_stripSign hs] at hval
    exact ⟨r, s, ⟨(exists_stripSign_iff hpos).mp ⟨r', hr⟩, (exists_stripSign_iff hpos).mp ⟨s', hs⟩,
      rest, hbytes⟩, hfits, hval⟩
  · rintro ⟨r, s, ⟨hr, hs, rest, hbytes⟩, hfits, hval⟩
    obtain ⟨r', hr'⟩ := (exists_stripSign_iff hpos).mpr hr
    obtain ⟨s', hs'⟩ := (exists_stripSign_iff hpos).mpr hs
    have hdecode : decode bytes takeSignature = .ok (unsignedContent r, unsignedContent s) :=
      decode_takeSignature_eq_ok_iff.mpr ⟨r, s, rest, rfl, hfits, hbytes⟩
    apply Outcome.bind_eq_ok_iff.mpr ⟨_, Outcome.mapErr_eq_ok_iff.mpr hdecode, ?_⟩
    apply Outcome.bind_eq_ok_iff.mpr ⟨r', hr', ?_⟩
    apply Outcome.bind_eq_ok_iff.mpr ⟨s', hs', ?_⟩
    apply (copy_halves_eq_ok_iff (length_le_of_stripSign hr') (length_le_of_stripSign hs')).mpr
    rw [value_of_stripSign hr', value_of_stripSign hs', hval]

theorem length_signatureContent_le {halfLen r s : Nat} (hr : r < 256 ^ halfLen)
    (hs : s < 256 ^ halfLen) (k : Nat) (hk : halfLen + 1 < 256 ^ k) :
    (signatureContent r s).length ≤ 2 * (halfLen + k + 3) := by
  have hlenR := length_unsignedContent_le hr
  have hlenS := length_unsignedContent_le hs
  have htlvR : (tlv 0x02 (unsignedContent r)).length ≤ _ := length_tlv_le k (hlenR.trans_lt hk)
  have htlvS : (tlv 0x02 (unsignedContent s)).length ≤ _ := length_tlv_le k (hlenS.trans_lt hk)
  rw [signatureContent, integer, integer, List.length_append]
  omega

theorem not_fits_signatureContent {r s : Nat} (h : 2 ^ 32 < (ofNat r).length) :
    ¬ Fits (signatureContent r s) := by
  have hcontent := length_ofNat_le_unsignedContent r
  have htlv := length_le_length_tlv 0x02 (unsignedContent r)
  rw [Fits, signatureContent, integer, List.length_append]
  omega

theorem fits_signatureContent {halfLen r s : Nat} (hr : r < 256 ^ halfLen)
    (hs : s < 256 ^ halfLen) (h : 2 * halfLen + 14 < 2 ^ 32) : Fits (signatureContent r s) := by
  have hlen := length_signatureContent_le hr hs 4 (by omega)
  rw [Fits]
  omega

theorem parseX962_of_long {len r s : Nat} (h : ¬ Fits (signatureContent r s))
    (hlt : (signatureContent r s).length < 256 ^ 127) :
    parseX962 len (signatureValue r s) = .err {} := by
  have hdecode : decode (signatureValue r s ++ []) takeSignature = _ :=
    decode_sequenceOf_of_long h hlt []
  rw [List.append_nil] at hdecode
  rw [parseX962, hdecode]
  rfl

/-- The parser decodes the signatures whose numbers fit into half the length each, and
refuses everything else. -/
theorem parseX962_decodes (len : Nat) (heven : Even len) (hpos : 0 < len) (bytes : Octets) :
    parseX962 len bytes ≠ .panic ∧
    (∀ signature, parseX962 len bytes = .ok signature ↔
      ∃ r s, HasSignature (len / 2) bytes r s ∧ Fits (signatureContent r s) ∧
        signature.val = fixedWidth (len / 2) r ++ fixedWidth (len / 2) s) ∧
    ((∀ r s, HasSignature (len / 2) bytes r s → ¬ Fits (signatureContent r s)) →
      parseX962 len bytes = .err {}) ∧
    (∀ r s, HasSignature (len / 2) bytes r s →
      Fits (signatureContent r s) ∨ len + 14 < 2 ^ 32 →
      ∃ signature, parseX962 len bytes = .ok signature ∧
        signature.val = fixedWidth (len / 2) r ++ fixedWidth (len / 2) s) := by
  obtain ⟨half, rfl⟩ := heven
  have hdecodes : ∀ signature, parseX962 (half + half) bytes = .ok signature ↔
      ∃ r s, HasSignature ((half + half) / 2) bytes r s ∧ Fits (signatureContent r s) ∧
        signature.val =
          fixedWidth ((half + half) / 2) r ++ fixedWidth ((half + half) / 2) s := by
    intro signature
    have hsecond : half + half - (half + half) / 2 = (half + half) / 2 := by omega
    rw [parseX962_eq_ok_iff (by omega), hsecond]
  refine ⟨parseX962_ne_panic _ bytes, hdecodes, ?_, ?_⟩
  · intro hnone
    cases h : parseX962 (half + half) bytes with
    | ok signature =>
        obtain ⟨r, s, hsignature, hfits, _⟩ := (hdecodes signature).mp h
        exact absurd hfits (hnone r s hsignature)
    | err e => rfl
    | panic => exact absurd h (parseX962_ne_panic _ bytes)
  · intro r s hsignature hfits
    have hlenR := ((eq_fixedWidth_iff hsignature.r_lt).mp rfl).1
    have hlenS := ((eq_fixedWidth_iff hsignature.s_lt).mp rfl).1
    refine ⟨⟨fixedWidth ((half + half) / 2) r ++ fixedWidth ((half + half) / 2) s, ?_⟩, ?_, rfl⟩
    · rw [List.length_append, hlenR, hlenS]
      omega
    · apply (hdecodes _).mpr ⟨r, s, hsignature, ?_, rfl⟩
      rcases hfits with hfits | hshort
      · exact hfits
      · exact fits_signatureContent hsignature.r_lt hsignature.s_lt (by omega)

/-- The signature of the numbers 1 and 128, with one octet after it. -/
theorem parseX962_decodes_short :
    ∃ signature, parseX962 4 [0x30, 0x07, 0x02, 0x01, 0x01, 0x02, 0x02, 0x00, 0x80, 0xff] =
      .ok signature ∧ signature.val = [0x00, 0x01, 0x00, 0x80] :=
  (parseX962_decodes 4 (by decide) (by decide) _).2.2.2 1 128
    ⟨by decide, by decide, [0xff], by decide⟩ (Or.inr (by decide))

/-- An array without octets has no room for the content octet of zero, and lengths of
five octets are not read. -/
theorem parseX962_refuses :
    (HasSignature (0 / 2) (signatureValue 0 0) 0 0 ∧
      parseX962 0 (signatureValue 0 0) = .err {}) ∧
    HasSignature (2 ^ 34 / 2) (signatureValue (256 ^ 2 ^ 32) 0) (256 ^ 2 ^ 32) 0 ∧
      parseX962 (2 ^ 34) (signatureValue (256 ^ 2 ^ 32) 0) = .err {} := by
  have hlt : 256 ^ 2 ^ 32 < 256 ^ (2 ^ 34 / 2) := Nat.pow_lt_pow_right (by decide) (by decide)
  have hzero : 0 < 256 ^ (2 ^ 34 / 2) := Nat.pow_pos (by decide)
  have hlen := length_signatureContent_le hlt hzero 5 (by decide)
  refine ⟨⟨⟨by decide, by decide, [], by decide⟩, by decide⟩,
    ⟨hlt, hzero, [], (List.append_nil _).symm⟩, ?_⟩
  apply parseX962_of_long
  · apply not_fits_signatureContent
    exact Nat.lt_of_not_le (mt length_ofNat_le_iff.mp (Nat.lt_irrefl _))
  · exact hlen.trans_lt (by decide)

end DomainKmip.SignatureForms
