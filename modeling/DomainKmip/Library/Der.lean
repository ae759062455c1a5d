import DomainKmip.Library.BigEndian
import DomainKmip.Library.RustResult

/-!
DER as the `bcder` crate decodes it in DER mode: single-octet tags, definite
lengths in minimal form of at most four octets, sequences that must be consumed
to their end, and nothing said about the octets after the outermost value.
-/

namespace DomainKmip.Library.Der

open DomainKmip.Library.BigEndian
open DomainKmip.Library.RustResult

/-- What the decoder itself objects to. -/
inductive Fault where
  | endOfData
  | unexpectedTag
  | invalidLength
  | trailingData
  | invalidInteger
  | invalidNull
  | invalidBitString
  deriving DecidableEq, Repr

inductive DecodeError where
  | malformed (fault : Fault)
  | content (text : String)
  deriving DecidableEq, Repr

/-- A decoder consumes a prefix of its input. -/
abbrev Decoder := StateT Octets (Outcome DecodeError)

def fail {α : Type} (error : DecodeError) : Decoder α := fun _ => .err error

def takeOctet : Decoder UInt8
  | [] => .err (.malformed .endOfData)
  | b :: rest => .ok (b, rest)

def takeOctets (n : Nat) : Decoder Octets := fun input =>
  if n ≤ input.length then .ok (input.take n, input.drop n)
  else .err (.malformed .endOfData)

def takeTag (tag : UInt8) : Decoder Unit := do
  let b ← takeOctet
  if b = tag then pure () else fail (.malformed .unexpectedTag)

/-- The definite form. `0x80` is the indefinite form, which DER excludes, and a
longer form than the number needs is refused. -/
def takeLength : Decoder Nat := do
  let first ← takeOctet
  if first.toNat < 128 then
    pure first.toNat
  else
    let k := first.toNat - 128
    if 1 ≤ k ∧ k ≤ 4 then
      let octets ← takeOctets k
      if 128 ≤ value octets ∧ 256 ^ (k - 1) ≤ value octets then
        pure (value octets)
      else fail (.malformed .invalidLength)
    else fail (.malformed .invalidLength)

def takeValue (tag : UInt8) : Decoder Octets := do
  takeTag tag
  let n ← takeLength
  takeOctets n

def consume {α : Type} (op : Decoder α) (content : Octets) : Decoder α := fun input =>
  match op content with
  | .ok (a, []) => .ok (a, input)
  | .ok (_, _ :: _) => .err (.malformed .trailingData)
  | .err e => .err e
  | .panic => .panic

def takeSequence {α : Type} (op : Decoder α) : Decoder α := do
  let content ← takeValue 0x30
  consume op content

/-- Content octets of a minimal non-negative INTEGER. -/
def isUnsigned : Octets → Bool
  | [] => false
  | [b] => b.toNat < 128
  | b :: c :: _ => if b = 0 then 128 ≤ c.toNat else b.toNat < 128

/-- `Unsigned::take_from`; the content octets are what `as_slice` returns. -/
def takeUnsigned : Decoder Octets := do
  let content ← takeValue 0x02
  if isUnsigned content then pure content else fail (.malformed .invalidInteger)

/-- `Oid::take_from`. The content octets are kept as they are. -/
def takeOid : Decoder Octets := takeValue 0x06

def takeNull : Decoder Unit := do
  let content ← takeValue 0x05
  if content = [] then pure () else fail (.malformed .invalidNull)

structure BitString where
  unused : UInt8
  octets : Octets
  deriving DecidableEq, Repr

/-- `BitString::octet_slice`: a primitive bit string always has its octets in
one slice. -/
def BitString.octetSlice (bits : BitString) : Option Octets := some bits.octets

/-- The unused bits, which are the last ones of the last octet. -/
def BitString.padding (bits : BitString) : Nat :=
  ((bits.octets.getLast?).getD 0).toNat % 2 ^ bits.unused.toNat

/-- What `BitString::take_from` checks: DER has the unused bits zero. -/
def BitString.Valid (bits : BitString) : Prop :=
  bits.unused.toNat ≤ 7 ∧ (bits.octets = [] → bits.unused = 0) ∧ bits.padding = 0

instance (bits : BitString) : Decidable bits.Valid := inferInstanceAs (Decidable (_ ∧ _))

theorem BitString.valid_of_whole (octets : Octets) : BitString.Valid ⟨0, octets⟩ :=
  ⟨by simp, fun _ => rfl, by simp [BitString.padding, Nat.mod_one]⟩

def splitBitString : Octets → Decoder BitString
  | [] => fail (.malformed .invalidBitString)
  | unused :: octets =>
      if BitString.Valid ⟨unused, octets⟩ then pure ⟨unused, octets⟩
      else fail (.malformed .invalidBitString)

def takeBitString : Decoder BitString := do
  let content ← takeValue 0x03
  splitBitString content

/-- `Mode::decode`: octets after the decoded value are ignored. -/
def decode {α : Type} (bytes : Octets) (op : Decoder α) : Outcome DecodeError α := do
  let (a, _) ← op bytes
  pure a

def ofOutcome {α : Type} (x : Outcome DecodeError α) : Decoder α := fun input => do
  let a ← x
  pure (a, input)

def mapError {α : Type} (f : DecodeError → DecodeError) (op : Decoder α) : Decoder α :=
  fun input => (op input).mapErr f

def encodeLength (n : Nat) : Octets :=
  if n < 128 then [UInt8.ofNat n]
  else UInt8.ofNat (128 + (ofNat n).length) :: ofNat n

def tlv (tag : UInt8) (content : Octets) : Octets :=
  tag :: (encodeLength content.length ++ content)

def sequenceOf (content : Octets) : Octets := tlv 0x30 content

/-- Content octets of the INTEGER `n`, with a sign octet where the top bit of the
number is set. -/
def unsignedContent (n : Nat) : Octets :=
  match ofNat n with
  | [] => [0]
  | b :: l => if b.toNat < 128 then b :: l else 0 :: b :: l

def integer (n : Nat) : Octets := tlv 0x02 (unsignedContent n)

def oid (arcs : Octets) : Octets := tlv 0x06 arcs

def null : Octets := tlv 0x05 []

def bitString (bits : BitString) : Octets := tlv 0x03 (bits.unused :: bits.octets)

/-- Longest content a length of four octets can announce. -/
def Fits (content : Octets) : Prop := content.length < 2 ^ 32

instance (content : Octets) : Decidable (Fits content) := inferInstanceAs (Decidable (_ < _))

theorem length_le_length_tlv (tag : UInt8) (content : Octets) :
    content.length ≤ (tlv tag content).length := by
  simp [tlv]
  omega

theorem length_tlv_le {tag : UInt8} {content : Octets} (k : Nat)
    (h : content.length < 256 ^ k) : (tlv tag content).length ≤ content.length + k + 2 := by
  have hlength := length_ofNat_le_iff.mpr h
  rw [tlv, List.length_cons, List.length_append, encodeLength]
  split
  · rw [List.length_singleton]
    omega
  · rw [List.length_cons]
    omega

theorem isUnsigned_unsignedContent (n : Nat) : isUnsigned (unsignedContent n) = true := by
  have hhead := head?_ofNat n
  rw [unsignedContent]
  split
  · rfl
  · rename_i b l heq
    rw [heq] at hhead
    have hb : b ≠ 0 := by simpa using hhead
    split
    · rename_i hlt
      cases l <;> simp [isUnsigned, hb, hlt]
    · rename_i hge
      simpa [isUnsigned] using hge

/-- Zero, a number whose top bit is clear, or one behind a sign octet. -/
theorem isUnsigned_cases {content : Octets} (h : isUnsigned content = true) :
    content = [0] ∨
    (∃ b l, content = b :: l ∧ b ≠ 0 ∧ b.toNat < 128) ∨
    ∃ b l, content = 0 :: b :: l ∧ 128 ≤ b.toNat := by
  cases content with
  | nil => simp [isUnsigned] at h
  | cons b l =>
      by_cases hb : b = 0
      · subst hb
        cases l with
        | nil => exact Or.inl rfl
        | cons c l => exact Or.inr (Or.inr ⟨c, l, rfl, by simpa [isUnsigned] using h⟩)
      · refine Or.inr (Or.inl ⟨b, l, rfl, hb, ?_⟩)
        cases l <;> simpa [isUnsigned, hb] using h

theorem ne_zero_of_le {b : UInt8} (h : 128 ≤ b.toNat) : b ≠ 0 := by
  rintro rfl
  simp at h

theorem value_unsignedContent (n : Nat) : value (unsignedContent n) = n := by
  have hvalue := value_ofNat n
  rw [unsignedContent]
  split
  · rename_i heq
    simpa [heq] using hvalue
  · rename_i b l heq
    rw [heq] at hvalue
    split <;> simpa using hvalue

theorem length_ofNat_le_unsignedContent (n : Nat) :
    (ofNat n).length ≤ (unsignedContent n).length := by
  rw [unsignedContent]
  split
  · rename_i heq
    simp [heq]
  · rename_i heq
    rw [heq]
    split <;> simp

theorem length_unsignedContent_le {n k : Nat} (h : n < 256 ^ k) :
    (unsignedContent n).length ≤ k + 1 := by
  have hlength := length_ofNat_le_iff.mpr h
  rw [unsignedContent]
  split
  · simp
  · rename_i heq
    rw [heq] at hlength
    split <;> simp at hlength ⊢ <;> omega

/-- Minimal content octets are those of the number they stand for. -/
theorem unsignedContent_value {content : Octets} (h : isUnsigned content = true) :
    unsignedContent (value content) = content := by
  rcases isUnsigned_cases h with rfl | ⟨b, l, rfl, hb, hlt⟩ | ⟨b, l, rfl, hle⟩
  · rfl
  · rw [unsignedContent, ofNat_value (by simpa using hb)]
    simp [hlt]
  · rw [value_zero_cons, unsignedContent, ofNat_value (by simpa using ne_zero_of_le hle)]
    simp [hle]

end DomainKmip.Library.Der
