import DomainKmip.Library.BigEndian

namespace DomainKmip.Library.RsaField

open DomainKmip.Library.BigEndian

/-- The public key field of an RSA key: the length of the exponent in one or three octets,
the exponent, the modulus. -/
def rfc3110 (exponent modulus : Octets) : Octets :=
  if exponent.length ≤ 255 then
    UInt8.ofNat exponent.length :: (exponent ++ modulus)
  else
    0 :: UInt8.ofNat (exponent.length / 256) :: UInt8.ofNat (exponent.length % 256) ::
      (exponent ++ modulus)

/-- An octet string of this form, with a length that can be written. -/
def IsRfc3110 (octets : Octets) : Prop :=
  ∃ exponent modulus, exponent ≠ [] ∧ exponent.length ≤ 65535 ∧ modulus ≠ [] ∧
    octets = rfc3110 exponent modulus

theorem rfc3110_of_short {exponent : Octets} (h : exponent.length ≤ 255) (modulus : Octets) :
    rfc3110 exponent modulus = UInt8.ofNat exponent.length :: (exponent ++ modulus) :=
  if_pos h

theorem rfc3110_of_long {exponent : Octets} (h : 255 < exponent.length) (modulus : Octets) :
    rfc3110 exponent modulus = 0 :: UInt8.ofNat (exponent.length / 256) ::
      UInt8.ofNat (exponent.length % 256) :: (exponent ++ modulus) :=
  if_neg (Nat.not_le.mpr h)

theorem length_rfc3110_le (exponent modulus : Octets) :
    (rfc3110 exponent modulus).length ≤ exponent.length + modulus.length + 3 := by
  rw [rfc3110]
  split <;> simp

/-- The first `n` octets and those after them, if there are that many. -/
def cutAt (n : Nat) (octets : Octets) : Option (Octets × Octets) :=
  if n ≤ octets.length then some (octets.take n, octets.drop n) else none

def readLongForm : Octets → Option (Octets × Octets)
  | hi :: lo :: rest => cutAt (256 * hi.toNat + lo.toNat) rest
  | _ => none

/-- The exponent and the modulus, as the lengths in the field have it. -/
def readRfc3110 : Octets → Option (Octets × Octets)
  | [] => none
  | length :: rest => if length = 0 then readLongForm rest else cutAt length.toNat rest

theorem cutAt_append (a b : Octets) : cutAt a.length (a ++ b) = some (a, b) := by
  rw [cutAt, if_pos (by simp), List.take_left, List.drop_left]

theorem uint8_ofNat_inj {m n : Nat} (hm : m < 256) (hn : n < 256)
    (h : UInt8.ofNat m = UInt8.ofNat n) : m = n := by
  have := congrArg UInt8.toNat h
  simpa [Nat.mod_eq_of_lt hm, Nat.mod_eq_of_lt hn] using this

variable {exponent modulus exponent' modulus' : Octets}

theorem ofNat_length_ne_zero (hne : exponent ≠ []) (h : exponent.length ≤ 255) :
    UInt8.ofNat exponent.length ≠ 0 := by
  intro hzero
  have hlen := uint8_ofNat_inj (n := 0) (by omega) (by omega) hzero
  exact hne (List.length_eq_zero_iff.mp hlen)

theorem readRfc3110_rfc3110 (hne : exponent ≠ []) (hlen : exponent.length ≤ 65535) :
    readRfc3110 (rfc3110 exponent modulus) = some (exponent, modulus) := by
  rcases Nat.lt_or_ge 255 exponent.length with hlong | hshort
  · have hlength : 256 * (UInt8.ofNat (exponent.length / 256)).toNat +
        (UInt8.ofNat (exponent.length % 256)).toNat = exponent.length := by
      simp only [UInt8.toNat_ofNat']
      omega
    rw [rfc3110_of_long hlong, readRfc3110, if_pos rfl, readLongForm, hlength, cutAt_append]
  · have hlength : (UInt8.ofNat exponent.length).toNat = exponent.length := by
      simp only [UInt8.toNat_ofNat']
      omega
    rw [rfc3110_of_short hshort, readRfc3110, if_neg (ofNat_length_ne_zero hne hshort), hlength,
      cutAt_append]

/-- The form of a key can be read back, except that an empty exponent makes the
marker of the long form. -/
theorem rfc3110_inj (hne : exponent ≠ []) (hlen : exponent.length ≤ 65535)
    (hne' : exponent' ≠ []) (hlen' : exponent'.length ≤ 65535)
    (h : rfc3110 exponent modulus = rfc3110 exponent' modulus') :
    exponent = exponent' ∧ modulus = modulus' := by
  rcases Nat.lt_or_ge 255 exponent.length with hlong | hshort <;>
    rcases Nat.lt_or_ge 255 exponent'.length with hlong' | hshort'
  · rw [rfc3110_of_long hlong, rfc3110_of_long hlong'] at h
    obtain ⟨_, hhi, hlo, happend⟩ : _ ∧ _ ∧ _ ∧ _ := by simpa only [List.cons.injEq] using h
    have hhi := uint8_ofNat_inj (by omega) (by omega) hhi
    have hlo := uint8_ofNat_inj (by omega) (by omega) hlo
    exact List.append_inj happend (by omega)
  · rw [rfc3110_of_long hlong, rfc3110_of_short hshort'] at h
    exact (ofNat_length_ne_zero hne' hshort' (List.cons.inj h).1.symm).elim
  · rw [rfc3110_of_short hshort, rfc3110_of_long hlong'] at h
    exact (ofNat_length_ne_zero hne hshort (List.cons.inj h).1).elim
  · rw [rfc3110_of_short hshort, rfc3110_of_short hshort'] at h
    obtain ⟨hhead, happend⟩ := List.cons.inj h
    exact List.append_inj happend (uint8_ofNat_inj (by omega) (by omega) hhead)

/-- The parts have the lengths that the octets announce. After an empty exponent
these are the lengths that the first octets of the modulus happen to announce. -/
def Framed (exponent modulus : Octets) : Prop :=
  exponent ≠ [] ∧ modulus ≠ [] ∨
    exponent = [] ∧ ∃ hi lo rest, modulus = hi :: lo :: rest ∧
      255 < 256 * hi.toNat + lo.toNat ∧ 256 * hi.toNat + lo.toNat < rest.length

theorem isRfc3110_of_nil_iff :
    IsRfc3110 (rfc3110 [] modulus) ↔ ∃ hi lo rest, modulus = hi :: lo :: rest ∧
      255 < 256 * hi.toNat + lo.toNat ∧ 256 * hi.toNat + lo.toNat < rest.length := by
  constructor
  · rintro ⟨exponent, modulus', hne, hlen, hne', h⟩
    rw [rfc3110_of_short (by simp)] at h
    rcases Nat.lt_or_ge 255 exponent.length with hlong | hshort
    · rw [rfc3110_of_long hlong] at h
      refine ⟨_, _, _, (List.cons.inj h).2, ?_, ?_⟩ <;>
        have hpos := List.length_pos_iff.mpr hne' <;>
        simp only [UInt8.toNat_ofNat', List.length_append] <;> omega
    · rw [rfc3110_of_short hshort] at h
      exact (ofNat_length_ne_zero hne hshort (List.cons.inj h).1.symm).elim
  · rintro ⟨hi, lo, rest, rfl, hlong, hrest⟩
    have hhi := hi.toNat_lt
    have hlo := lo.toNat_lt
    have htake : (rest.take (256 * hi.toNat + lo.toNat)).length = 256 * hi.toNat + lo.toNat := by
      rw [List.length_take]
      omega
    have hhi' : UInt8.ofNat ((256 * hi.toNat + lo.toNat) / 256) = hi := by
      rw [show (256 * hi.toNat + lo.toNat) / 256 = hi.toNat by omega]
      simp
    have hlo' : UInt8.ofNat ((256 * hi.toNat + lo.toNat) % 256) = lo := by
      rw [show (256 * hi.toNat + lo.toNat) % 256 = lo.toNat by omega]
      simp
    refine ⟨rest.take (256 * hi.toNat + lo.toNat), rest.drop (256 * hi.toNat + lo.toNat),
      ?_, by omega, ?_, ?_⟩
    · exact List.ne_nil_of_length_pos (by omega)
    · exact List.ne_nil_of_length_pos (by rw [List.length_drop]; omega)
    · rw [rfc3110_of_short (by simp), rfc3110_of_long (by omega), htake, hhi', hlo',
        List.take_append_drop]
      rfl

theorem isRfc3110_iff (hlen : exponent.length ≤ 65535) :
    IsRfc3110 (rfc3110 exponent modulus) ↔ Framed exponent modulus := by
  by_cases hnil : exponent = []
  · subst hnil
    simp [Framed, isRfc3110_of_nil_iff]
  · simp only [Framed, hnil, not_false_eq_true, ne_eq, true_and, false_and, or_false]
    constructor
    · rintro ⟨exponent', modulus', hne', hlen', hmodulus, h⟩
      obtain ⟨_, rfl⟩ := rfc3110_inj hnil hlen hne' hlen' h
      exact hmodulus
    · intro hmodulus
      exact ⟨exponent, modulus, hnil, hlen, hmodulus, rfl⟩

end DomainKmip.Library.RsaField
