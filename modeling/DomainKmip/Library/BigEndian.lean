import Mathlib.Data.Nat.Digits.Lemmas

namespace DomainKmip.Library.BigEndian

abbrev Octets := List UInt8

/-- Octets as a big-endian number. The digits of Mathlib are little-endian. -/
def value (l : Octets) : Nat := Nat.ofDigits 256 (l.reverse.map UInt8.toNat)

/-- The shortest octet string for a number: none at all for zero. -/
def ofNat (n : Nat) : Octets := ((Nat.digits 256 n).map UInt8.ofNat).reverse

@[simp] theorem value_nil : value [] = 0 := rfl

theorem value_append (a b : Octets) :
    value (a ++ b) = value a * 256 ^ b.length + value b := by
  simp [value, Nat.ofDigits_append, Nat.mul_comm, Nat.add_comm]

theorem value_cons (x : UInt8) (l : Octets) :
    value (x :: l) = x.toNat * 256 ^ l.length + value l := by
  simpa [value] using value_append [x] l

@[simp] theorem value_zero_cons (l : Octets) : value (0 :: l) = value l := by
  simp [value_cons]

theorem lt_of_mem_map_toNat {l : Octets} {d : Nat} (h : d ∈ l.map UInt8.toNat) : d < 256 := by
  obtain ⟨b, _, rfl⟩ := List.mem_map.mp h
  exact b.toNat_lt

theorem value_lt (l : Octets) : value l < 256 ^ l.length := by
  have h := Nat.ofDigits_lt_base_pow_length (b := 256) (l := l.reverse.map UInt8.toNat)
    (by omega) fun _ => lt_of_mem_map_toNat
  simpa [value] using h

theorem value_replicate_zero (k : Nat) : value (List.replicate k 0) = 0 := by
  induction k with
  | zero => rfl
  | succ k ih => simp [List.replicate_succ, ih]

theorem value_injective_of_length {a b : Octets} (hlen : a.length = b.length)
    (h : value a = value b) : a = b := by
  have hdigits : a.reverse.map UInt8.toNat = b.reverse.map UInt8.toNat := by
    apply Nat.ofDigits_inj_of_len_eq (by omega : 1 < 256) (by simpa using hlen)
      (fun _ => lt_of_mem_map_toNat) (fun _ => lt_of_mem_map_toNat) h
  apply List.reverse_injective
  exact List.map_injective_iff.mpr (fun _ _ => UInt8.toNat_inj.mp) hdigits

theorem map_toNat_map_ofNat {l : List Nat} (h : ∀ d ∈ l, d < 256) :
    (l.map UInt8.ofNat).map UInt8.toNat = l := by
  rw [List.map_map]
  conv_rhs => rw [← List.map_id l]
  apply List.map_congr_left
  intro d hd
  simpa using Nat.mod_eq_of_lt (h d hd)

@[simp] theorem value_ofNat (n : Nat) : value (ofNat n) = n := by
  rw [value, ofNat, List.reverse_reverse,
    map_toNat_map_ofNat fun d hd => Nat.digits_lt_base (by omega) hd]
  exact Nat.ofDigits_digits 256 n

/-- An octet string without a leading zero octet is the shortest one for its
value. -/
theorem ofNat_value {l : Octets} (h : l.head? ≠ some 0) : ofNat (value l) = l := by
  have hdigits : Nat.digits 256 (value l) = l.reverse.map UInt8.toNat := by
    apply Nat.digits_ofDigits 256 (by omega)
    · exact fun _ => lt_of_mem_map_toNat
    · intro hne hzero
      cases l with
      | nil => simp at hne
      | cons b l =>
          have hb : b.toNat = 0 := by simpa using hzero
          exact h (by simpa using UInt8.toNat_inj.mp hb)
  rw [ofNat, hdigits, List.map_map]
  simp [Function.comp_def]

theorem ofNat_injective : Function.Injective ofNat :=
  Function.LeftInverse.injective value_ofNat

@[simp] theorem ofNat_zero : ofNat 0 = [] := by simp [ofNat]

theorem ofNat_eq_nil_iff {n : Nat} : ofNat n = [] ↔ n = 0 := by
  rw [← ofNat_zero]
  exact ofNat_injective.eq_iff

theorem length_ofNat_le_iff {n k : Nat} : (ofNat n).length ≤ k ↔ n < 256 ^ k := by
  simpa [ofNat] using Nat.digits_length_le_iff (by omega : 1 < 256) n

theorem head?_ofNat (n : Nat) : (ofNat n).head? ≠ some 0 := by
  intro h
  have hne : Nat.digits 256 n ≠ [] := by
    intro hnil
    simp [ofNat, hnil] at h
  have hlast : (Nat.digits 256 n).getLast hne ≠ 0 :=
    Nat.getLast_digit_ne_zero 256 (Nat.digits_ne_nil_iff_ne_zero.mp hne)
  have hlt : (Nat.digits 256 n).getLast hne < 256 :=
    Nat.digits_lt_base (by omega) (List.getLast_mem hne)
  rw [ofNat, List.head?_reverse, List.getLast?_map,
    List.getLast?_eq_some_getLast hne] at h
  have hzero : UInt8.ofNat ((Nat.digits 256 n).getLast hne) = 0 := by simpa using h
  have := congrArg UInt8.toNat hzero
  simp at this
  omega

/-- The octets from the first one on that is not zero. -/
def withoutLeadingZeros (l : Octets) : Octets := l.dropWhile fun b => b = 0

theorem withoutLeadingZeros_eq_ofNat (l : Octets) : withoutLeadingZeros l = ofNat (value l) := by
  induction l with
  | nil => simp [withoutLeadingZeros]
  | cons b l ih =>
      by_cases hb : b = 0
      · subst hb
        simpa [withoutLeadingZeros] using ih
      · have hhead : (b :: l).head? ≠ some 0 := by simpa using hb
        rw [ofNat_value hhead, withoutLeadingZeros, List.dropWhile_cons_of_neg (by simpa using hb)]

theorem withoutLeadingZeros_eq_nil_iff {l : Octets} : withoutLeadingZeros l = [] ↔ value l = 0 := by
  rw [withoutLeadingZeros_eq_ofNat, ofNat_eq_nil_iff]

/-- A number padded with zero octets on the left. -/
def fixedWidth (k n : Nat) : Octets := List.replicate (k - (ofNat n).length) 0 ++ ofNat n

theorem eq_fixedWidth_iff {k n : Nat} {l : Octets} (h : n < 256 ^ k) :
    l = fixedWidth k n ↔ l.length = k ∧ value l = n := by
  have hle := length_ofNat_le_iff.mpr h
  have hlen : (fixedWidth k n).length = k := by
    simp [fixedWidth]
    omega
  have hvalue : value (fixedWidth k n) = n := by
    simp [fixedWidth, value_append, value_replicate_zero]
  constructor
  · rintro rfl
    exact ⟨hlen, hvalue⟩
  · rintro ⟨hl, hv⟩
    apply value_injective_of_length
    · rw [hl, hlen]
    · rw [hv, hvalue]

end DomainKmip.Library.BigEndian
