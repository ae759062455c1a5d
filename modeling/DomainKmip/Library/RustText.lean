import Mathlib.Tactic.Common

namespace DomainKmip.Library.RustText

/-- The value of a text that consists of digits and is not empty. -/
def readDecimal (text : List Char) : Option Nat :=
  if text ≠ [] ∧ text.all Char.isDigit = true then some (Nat.ofDigitChars 10 text 0) else none

theorem readDecimal_toDigits (n : Nat) : readDecimal (Nat.toDigits 10 n) = some n := by
  rw [readDecimal, if_pos, Nat.ofDigitChars_ten_toDigits]
  refine ⟨Nat.toDigits_ne_nil, List.all_eq_true.mpr fun c hc => ?_⟩
  exact Nat.isDigit_of_mem_toDigits (by omega) (by omega) hc

/-- `str::parse` for an integer type without a sign, which accepts a plus sign before the
digits. -/
def parseUnsigned (bound : Nat) (text : List Char) : Option Nat :=
  match readDecimal (if text.head? = some '+' then text.tail else text) with
  | some n => if n < bound then some n else none
  | none => none

theorem parseUnsigned_toDigits {bound n : Nat} (h : n < bound) :
    parseUnsigned bound (Nat.toDigits 10 n) = some n := by
  have hplus : (Nat.toDigits 10 n).head? ≠ some '+' := by
    intro h
    have hdigit := Nat.isDigit_of_mem_toDigits (by omega) (by omega) (List.mem_of_mem_head? h)
    simp at hdigit
  simp only [parseUnsigned, if_neg hplus, readDecimal_toDigits, if_pos h]

/-- `str::parse::<u8>`. -/
def parseU8 (text : List Char) : Option UInt8 := (parseUnsigned 256 text).map UInt8.ofNat

/-- `str::parse::<u16>`. -/
def parseU16 (text : List Char) : Option UInt16 := (parseUnsigned 65536 text).map UInt16.ofNat

theorem parseU8_toDigits (n : UInt8) : parseU8 (Nat.toDigits 10 n.toNat) = some n := by
  simp [parseU8, parseUnsigned_toDigits n.toNat_lt]

theorem parseU16_toDigits (n : UInt16) : parseU16 (Nat.toDigits 10 n.toNat) = some n := by
  simp [parseU16, parseUnsigned_toDigits n.toNat_lt]

/-- `str::strip_prefix`. -/
def stripPrefix (front text : List Char) : Option (List Char) :=
  if text.take front.length = front then some (text.drop front.length) else none

theorem stripPrefix_eq_some_iff {front text rest : List Char} :
    stripPrefix front text = some rest ↔ text = front ++ rest := by
  rw [stripPrefix]
  constructor
  · intro h
    split at h
    · rename_i hfront
      rw [← Option.some.inj h]
      exact (List.take_append_drop front.length text).symm.trans (by rw [hfront])
    · exact nomatch h
  · rintro rfl
    simp

end DomainKmip.Library.RustText
