import Mathlib.Data.List.Basic
import Mathlib.Tactic.IntervalCases

namespace DomainKmip.Library.PercentEncoding

def hexDigit (n : Nat) : Char := Char.ofNat (if n < 10 then 48 + n else 55 + n)

def encodeOctet (octet : UInt8) : List Char :=
  ['%', hexDigit (octet.toNat / 16), hexDigit (octet.toNat % 16)]

/-- Characters of the set become the octets of their UTF-8 form, each as a percent sign and
two hexadecimal digits. -/
def encodeChar (set : Char → Bool) (c : Char) : List Char :=
  if set c then (String.utf8EncodeChar c).flatMap encodeOctet else [c]

def percentEncode (set : Char → Bool) (text : List Char) : List Char :=
  text.flatMap (encodeChar set)

def c0ControlSet (c : Char) : Bool := c.toNat < 0x20 || 0x7E < c.toNat

def fragmentSet (c : Char) : Bool := c0ControlSet c || [' ', '"', '<', '>', '\x60'].contains c

def querySet (c : Char) : Bool := c0ControlSet c || [' ', '"', '#', '<', '>'].contains c

/-- The `url` crate leaves a caret in a path alone. -/
def pathSet (c : Char) : Bool := querySet c || ['?', '\x60', '{', '}'].contains c

def userinfoSet (c : Char) : Bool :=
  pathSet c || ['/', ':', ';', '=', '@', '[', '\\', ']', '^', '|'].contains c

theorem c0ControlSet_eq_false_iff {c : Char} :
    c0ControlSet c = false ↔ 0x20 ≤ c.toNat ∧ c.toNat ≤ 0x7E := by
  simp [c0ControlSet]

theorem hexDigit_mem {n : Nat} (h : n < 16) : hexDigit n ∈ "0123456789ABCDEF".toList := by
  interval_cases n <;> decide

/-- A set that leaves the characters alone that encoding inserts. -/
def KeepsEncoded (set : Char → Bool) : Prop :=
  ∀ c ∈ '%' :: "0123456789ABCDEF".toList, set c = false

theorem eq_false_of_any {p : Char → Bool} {text : List Char} (h : text.any p = false) :
    ∀ c ∈ text, p c = false := by
  simpa using h

theorem keepsEncoded_pathSet : KeepsEncoded pathSet := eq_false_of_any (by decide)

theorem keepsEncoded_c0ControlSet : KeepsEncoded c0ControlSet := eq_false_of_any (by decide)

/-- The characters of an encoded text: those the set left alone, or what encoding
inserts. -/
theorem mem_percentEncode {set : Char → Bool} {text : List Char} {c : Char}
    (h : c ∈ percentEncode set text) :
    c ∈ text ∧ set c = false ∨ c ∈ '%' :: "0123456789ABCDEF".toList := by
  obtain ⟨d, hd, hc⟩ := List.mem_flatMap.mp h
  by_cases hset : set d
  · rw [encodeChar, if_pos hset] at hc
    obtain ⟨octet, _, hc⟩ := List.mem_flatMap.mp hc
    have hlt := octet.toNat_lt
    apply Or.inr
    rcases List.mem_cons.mp hc with rfl | hc
    · exact List.mem_cons_self
    apply List.mem_cons_of_mem _
    rcases List.mem_cons.mp hc with rfl | hc
    · exact hexDigit_mem (by omega)
    · rw [List.mem_singleton.mp hc]
      exact hexDigit_mem (by omega)
  · rw [encodeChar, if_neg hset] at hc
    obtain rfl := List.mem_singleton.mp hc
    exact Or.inl ⟨hd, by simpa using hset⟩

theorem eq_false_of_mem_percentEncode {set : Char → Bool} (hset : KeepsEncoded set)
    {text : List Char} {c : Char} (h : c ∈ percentEncode set text) : set c = false := by
  rcases mem_percentEncode h with ⟨_, hc⟩ | hc
  · exact hc
  · exact hset c hc

theorem percentEncode_eq_self {set : Char → Bool} {text : List Char}
    (h : ∀ c ∈ text, set c = false) : percentEncode set text = text := by
  induction text with
  | nil => rfl
  | cons c rest ih =>
      have hrest := ih fun d hd => h d (List.mem_cons_of_mem c hd)
      rw [percentEncode, List.flatMap_cons, encodeChar, if_neg (by simp [h c List.mem_cons_self])]
      exact congrArg (c :: ·) hrest

def hexValue (octet : UInt8) : Option Nat :=
  let code := octet.toNat
  if 48 ≤ code ∧ code ≤ 57 then some (code - 48)
  else if 65 ≤ code ∧ code ≤ 70 then some (code - 55)
  else if 97 ≤ code ∧ code ≤ 102 then some (code - 87)
  else none

/-- A percent sign that no two hexadecimal digits follow stands for itself. -/
def percentDecode : List UInt8 → List UInt8
  | [] => []
  | octet :: hi :: lo :: rest =>
      match decide (octet = 37), hexValue hi, hexValue lo with
      | true, some h, some l => UInt8.ofNat (16 * h + l) :: percentDecode rest
      | _, _, _ => octet :: percentDecode (hi :: lo :: rest)
  | octet :: rest => octet :: percentDecode rest

theorem percentDecode_eq_self {octets : List UInt8} (h : 37 ∉ octets) :
    percentDecode octets = octets := by
  induction octets with
  | nil => rfl
  | cons octet rest ih =>
      have hne : octet ≠ 37 := fun heq => h (by simp [heq])
      have hrest : 37 ∉ rest := fun hmem => h (List.mem_cons_of_mem octet hmem)
      cases rest with
      | nil => rfl
      | cons hi rest =>
          cases rest with
          | nil => rw [percentDecode, ih hrest]; simp
          | cons lo rest => rw [percentDecode, decide_eq_false hne, ih hrest]

end DomainKmip.Library.PercentEncoding
