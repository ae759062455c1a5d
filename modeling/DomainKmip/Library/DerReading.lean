import DomainKmip.Library.Der

/-!
What decoders read. `Reads` ties a decoder to the encodings it accepts, so that a
decoder built from the primitive ones is specified by building the encodings the
same way.
-/

namespace DomainKmip.Library.DerReading

open DomainKmip.Library.BigEndian
open DomainKmip.Library.RustResult
open DomainKmip.Library.Der

variable {α β : Type}

/-- `op` succeeds exactly on the inputs that start with an encoding of its result,
and consumes that encoding. -/
def Reads (op : Decoder α) (encodes : α → Octets → Prop) : Prop :=
  ∀ input a rest, op input = .ok (a, rest) ↔
    ∃ encoding, encodes a encoding ∧ input = encoding ++ rest

theorem Reads.congr {op : Decoder α} {encodes encodes' : α → Octets → Prop}
    (h : Reads op encodes) (hiff : ∀ a e, encodes a e ↔ encodes' a e) :
    Reads op encodes' := by
  intro input a rest
  simp only [h input a rest, hiff]

theorem Reads.unique {op : Decoder α} {encodes : α → Octets → Prop} (h : Reads op encodes)
    {a b : α} {e e' rest rest' : Octets} (ha : encodes a e) (hb : encodes b e')
    (heq : e ++ rest = e' ++ rest') : a = b ∧ rest = rest' := by
  have hleft := (h (e ++ rest) a rest).mpr ⟨e, ha, rfl⟩
  have hright := (h (e ++ rest) b rest').mpr ⟨e', hb, heq⟩
  rw [hleft] at hright
  simpa using hright

theorem bind_run (op : Decoder α) (f : α → Decoder β) (input : Octets) :
    (op >>= f) input = op input >>= fun p => f p.1 p.2 := rfl

theorem bind_run_eq_ok_iff {op : Decoder α} {f : α → Decoder β} {input : Octets}
    {b : β} {rest : Octets} :
    (op >>= f) input = .ok (b, rest) ↔
      ∃ a mid, op input = .ok (a, mid) ∧ f a mid = .ok (b, rest) := by
  simp [bind_run, Outcome.bind_eq_ok_iff]

theorem reads_pure (a : α) : Reads (pure a) fun b e => b = a ∧ e = [] := by
  intro input b rest
  change Outcome.ok (a, input) = .ok (b, rest) ↔ _
  simp [eq_comm]

theorem reads_fail (error : DecodeError) : Reads (fail error : Decoder α) fun _ _ => False := by
  intro input a rest
  simp [fail]

theorem reads_ite {c : Prop} [Decidable c] {op op' : Decoder α}
    {encodes encodes' : α → Octets → Prop}
    (h : Reads op encodes) (h' : Reads op' encodes') :
    Reads (if c then op else op') fun a e => if c then encodes a e else encodes' a e := by
  split <;> assumption

theorem Reads.bind {op : Decoder α} {f : α → Decoder β} {encodes : α → Octets → Prop}
    {encodes' : α → β → Octets → Prop}
    (h : Reads op encodes) (hf : ∀ a, Reads (f a) (encodes' a)) :
    Reads (op >>= f) fun b e =>
      ∃ a e₁ e₂, encodes a e₁ ∧ encodes' a b e₂ ∧ e = e₁ ++ e₂ := by
  intro input b rest
  simp only [bind_run_eq_ok_iff, h input, hf _ _ b rest]
  constructor
  · rintro ⟨a, mid, ⟨e₁, h₁, rfl⟩, e₂, h₂, rfl⟩
    exact ⟨e₁ ++ e₂, ⟨a, e₁, e₂, h₁, h₂, rfl⟩, by simp⟩
  · rintro ⟨e, ⟨a, e₁, e₂, h₁, h₂, rfl⟩, rfl⟩
    exact ⟨a, e₂ ++ rest, ⟨e₁, h₁, by simp⟩, e₂, h₂, rfl⟩

theorem Reads.mapError {op : Decoder α} {encodes : α → Octets → Prop}
    (f : DecodeError → DecodeError) (h : Reads op encodes) :
    Reads (mapError f op) encodes := by
  intro input a rest
  rw [Der.mapError, Outcome.mapErr_eq_ok_iff]
  exact h input a rest

theorem reads_ofOutcome (x : Outcome DecodeError α) :
    Reads (ofOutcome x) fun a e => x = .ok a ∧ e = [] := by
  intro input a rest
  cases x <;> simp [ofOutcome, eq_comm]

theorem reads_takeOctet : Reads takeOctet fun b e => e = [b] := by
  intro input b rest
  cases input with
  | nil => simp [takeOctet]
  | cons c l => simp [takeOctet]

theorem reads_takeOctets (n : Nat) :
    Reads (takeOctets n) fun content e => content.length = n ∧ e = content := by
  intro input content rest
  simp only [takeOctets]
  constructor
  · intro h
    split at h
    · rename_i hn
      obtain ⟨rfl, rfl⟩ : input.take n = content ∧ input.drop n = rest := by simpa using h
      exact ⟨_, ⟨by simpa using hn, rfl⟩, (List.take_append_drop n input).symm⟩
    · simp at h
  · rintro ⟨_, ⟨rfl, rfl⟩, rfl⟩
    simp

theorem reads_takeTag (tag : UInt8) : Reads (takeTag tag) fun _ e => e = [tag] := by
  refine Reads.congr (reads_takeOctet.bind fun b =>
    reads_ite (reads_pure ()) (reads_fail _)) ?_
  intro _ e
  simp

theorem length_ofNat_pos {n : Nat} (h : 128 ≤ n) : 1 ≤ (ofNat n).length := by
  apply Nat.one_le_iff_ne_zero.mpr
  intro hzero
  have := ofNat_eq_nil_iff.mp (List.length_eq_zero_iff.mp hzero)
  omega

/-- The minimality check of the long form leaves one octet string for each
length. -/
theorem ofNat_eq_of_minimal {octets : Octets} {n : Nat} (hpos : 1 ≤ octets.length)
    (hvalue : value octets = n) (hmin : 256 ^ (octets.length - 1) ≤ n) :
    ofNat n = octets := by
  subst hvalue
  apply ofNat_value
  intro hhead
  cases octets with
  | nil => simp at hhead
  | cons b l =>
      obtain rfl : b = 0 := by simpa using hhead
      have hlt := value_lt l
      rw [value_cons] at hmin
      simp at hmin
      omega

theorem minimal_ofNat {n : Nat} (h : 128 ≤ n) : 256 ^ ((ofNat n).length - 1) ≤ n := by
  have hpos := length_ofNat_pos h
  by_contra hlt
  have := length_ofNat_le_iff.mpr (Nat.lt_of_not_le hlt)
  omega

/-- The octets behind the first one of the long form. -/
theorem reads_longLength (k : Nat) :
    Reads (do
        let octets ← takeOctets k
        if 128 ≤ value octets ∧ 256 ^ (k - 1) ≤ value octets then
          pure (value octets)
        else fail (.malformed .invalidLength) : Decoder Nat)
      fun n e => e.length = k ∧ value e = n ∧ 128 ≤ n ∧ 256 ^ (k - 1) ≤ n := by
  refine Reads.congr ((reads_takeOctets k).bind fun octets =>
    reads_ite (reads_pure (value octets)) (reads_fail _)) ?_
  intro n e
  constructor
  · rintro ⟨octets, e₁, e₂, ⟨hk, rfl⟩, h, rfl⟩
    split at h
    · rename_i hmin
      obtain ⟨rfl, rfl⟩ := h
      simpa using ⟨hk, hmin⟩
    · exact h.elim
  · rintro ⟨hk, rfl, hmin⟩
    exact ⟨e, e, [], ⟨hk, rfl⟩, by simp [hmin], by simp⟩

theorem reads_takeLength : Reads takeLength fun n e => n < 2 ^ 32 ∧ e = encodeLength n := by
  refine Reads.congr (reads_takeOctet.bind fun first =>
    reads_ite (reads_pure first.toNat)
      (reads_ite (reads_longLength (first.toNat - 128)) (reads_fail _))) ?_
  intro n e
  constructor
  · rintro ⟨first, e₁, e₂, rfl, h, rfl⟩
    split at h
    · rename_i hfirst
      obtain ⟨rfl, rfl⟩ := h
      exact ⟨by omega, by simp [encodeLength, hfirst]⟩
    · split at h
      · rename_i hfirst hk
        obtain ⟨hlen, hvalue, hn, hmin⟩ := h
        have hoctets : ofNat n = e₂ :=
          ofNat_eq_of_minimal (by omega) hvalue (by rwa [hlen])
        have hlt : n < 256 ^ 4 := by
          apply length_ofNat_le_iff.mp
          rw [hoctets]
          omega
        refine ⟨by simpa using hlt, ?_⟩
        rw [encodeLength, if_neg (by omega), hoctets, hlen, List.singleton_append,
          show 128 + (first.toNat - 128) = first.toNat by omega, UInt8.ofNat_toNat]
      · exact h.elim
  · rintro ⟨hn, rfl⟩
    by_cases hshort : n < 128
    · refine ⟨UInt8.ofNat n, [UInt8.ofNat n], [], rfl, ?_, by simp [encodeLength, hshort]⟩
      have hmod : n % 256 = n := by omega
      simp [hmod, hshort]
    · have hlen : (ofNat n).length ≤ 4 := length_ofNat_le_iff.mpr (by simpa using hn)
      have hpos := length_ofNat_pos (Nat.le_of_not_lt hshort)
      have hfirst : (UInt8.ofNat (128 + (ofNat n).length)).toNat = 128 + (ofNat n).length := by
        simp
        omega
      refine ⟨UInt8.ofNat (128 + (ofNat n).length), [_], ofNat n, rfl, ?_,
        by simp [encodeLength, hshort]⟩
      rw [hfirst, if_neg (by omega), if_pos (by omega)]
      have hmin := minimal_ofNat (Nat.le_of_not_lt hshort)
      exact ⟨by omega, value_ofNat n, by omega, by
        rwa [show 128 + (ofNat n).length - 128 = (ofNat n).length by omega]⟩

/-- Five octets of length or more are not read. -/
theorem takeLength_encodeLength_of_long {n : Nat} (h : 2 ^ 32 ≤ n) (hlt : n < 256 ^ 127)
    (rest : Octets) :
    takeLength (encodeLength n ++ rest) = .err (.malformed .invalidLength) := by
  have hle : (ofNat n).length ≤ 127 := length_ofNat_le_iff.mpr hlt
  have hlong : ¬ (ofNat n).length ≤ 4 := by
    rw [length_ofNat_le_iff]
    omega
  have hfirst : (UInt8.ofNat (128 + (ofNat n).length)).toNat = 128 + (ofNat n).length := by
    simp
    omega
  rw [encodeLength, if_neg (by omega)]
  simp only [takeLength, bind_run, List.cons_append, takeOctet, Outcome.ok_bind, hfirst]
  rw [if_neg (by omega), if_neg (by omega)]
  rfl

theorem reads_takeValue (tag : UInt8) :
    Reads (takeValue tag) fun content e => Fits content ∧ e = tlv tag content := by
  refine Reads.congr ((reads_takeTag tag).bind fun _ =>
    reads_takeLength.bind fun n => reads_takeOctets n) ?_
  intro content e
  constructor
  · rintro ⟨_, e₁, e₂, rfl, ⟨n, e₃, e₄, ⟨hn, rfl⟩, ⟨rfl, rfl⟩, rfl⟩, rfl⟩
    exact ⟨hn, by simp [tlv]⟩
  · rintro ⟨hn, rfl⟩
    exact ⟨(), [tag], encodeLength content.length ++ content, rfl,
      ⟨_, _, content, ⟨hn, rfl⟩, ⟨rfl, rfl⟩, rfl⟩, rfl⟩

theorem Fits.of_length_le {a b : Octets} (h : Fits b) (hle : a.length ≤ b.length) : Fits a :=
  Nat.lt_of_le_of_lt hle h

theorem Fits.of_tlv_append {tag tag' : UInt8} {a b : Octets}
    (h : Fits (tlv tag a ++ tlv tag' b)) : Fits a ∧ Fits b := by
  have ha := length_le_length_tlv tag a
  have hb := length_le_length_tlv tag' b
  constructor <;> refine Fits.of_length_le h ?_ <;> simp only [List.length_append] <;> omega

theorem reads_takeSequence {op : Decoder α} {encodes : α → Octets → Prop}
    (h : Reads op encodes) :
    Reads (takeSequence op) fun a e =>
      ∃ content, encodes a content ∧ Fits content ∧ e = sequenceOf content := by
  have hconsume : ∀ content,
      Reads (consume op content) fun a e => encodes a content ∧ e = [] := by
    intro content input a rest
    have hop := h content
    simp only [consume]
    constructor
    · intro hrun
      split at hrun
      · rename_i b heq
        obtain ⟨rfl, rfl⟩ : b = a ∧ input = rest := by simpa using hrun
        obtain ⟨e, he, hcontent⟩ := (hop b []).mp heq
        obtain rfl : content = e := by simpa using hcontent
        exact ⟨[], ⟨he, rfl⟩, rfl⟩
      all_goals simp at hrun
    · rintro ⟨_, ⟨he, rfl⟩, rfl⟩
      have heq : op content = .ok (a, []) := (hop a []).mpr ⟨content, he, by simp⟩
      simp [heq]
  refine Reads.congr ((reads_takeValue 0x30).bind fun content => hconsume content) ?_
  intro a e
  constructor
  · rintro ⟨content, e₁, e₂, ⟨hfits, rfl⟩, ⟨ha, rfl⟩, rfl⟩
    exact ⟨content, ha, hfits, by simp [sequenceOf]⟩
  · rintro ⟨content, ha, hfits, rfl⟩
    exact ⟨content, sequenceOf content, [], ⟨hfits, rfl⟩, ⟨ha, rfl⟩, by simp⟩

theorem reads_takeUnsigned : Reads takeUnsigned fun content e =>
    isUnsigned content = true ∧ Fits content ∧ e = tlv 0x02 content := by
  refine Reads.congr ((reads_takeValue 0x02).bind fun content =>
    reads_ite (reads_pure content) (reads_fail _)) ?_
  intro content e
  constructor
  · rintro ⟨c, e₁, e₂, ⟨hfits, rfl⟩, h, rfl⟩
    split at h
    · rename_i hc
      obtain ⟨rfl, rfl⟩ := h
      exact ⟨hc, hfits, by simp⟩
    · exact h.elim
  · rintro ⟨hc, hfits, rfl⟩
    exact ⟨content, _, [], ⟨hfits, rfl⟩, by simp [hc], by simp⟩

/-- A SEQUENCE of two integers, with whatever errors their decoders report. -/
theorem reads_unsignedPair {op op' : Decoder Octets}
    (h : Reads op fun content e => isUnsigned content = true ∧ Fits content ∧ e = tlv 0x02 content)
    (h' : Reads op' fun content e =>
      isUnsigned content = true ∧ Fits content ∧ e = tlv 0x02 content) :
    Reads (takeSequence do
        let m ← op
        let n ← op'
        pure (m, n)) fun p e =>
      (isUnsigned p.1 = true ∧ isUnsigned p.2 = true ∧ Fits (tlv 0x02 p.1 ++ tlv 0x02 p.2)) ∧
        e = sequenceOf (tlv 0x02 p.1 ++ tlv 0x02 p.2) := by
  refine Reads.congr (reads_takeSequence (h.bind fun m => h'.bind fun n => reads_pure (m, n))) ?_
  rintro ⟨m, n⟩ e
  constructor
  · rintro ⟨content, ⟨m', e₁, e₂, ⟨hm, _, rfl⟩, ⟨n', e₃, e₄, ⟨hn, _, rfl⟩, ⟨heq, rfl⟩, rfl⟩, rfl⟩,
      hfits, rfl⟩
    obtain ⟨rfl, rfl⟩ : m = m' ∧ n = n' := by simpa using heq
    rw [List.append_nil] at hfits ⊢
    exact ⟨⟨hm, hn, hfits⟩, rfl⟩
  · rintro ⟨⟨hm, hn, hfits⟩, rfl⟩
    obtain ⟨hfm, hfn⟩ := Fits.of_tlv_append hfits
    exact ⟨tlv 0x02 m ++ tlv 0x02 n, ⟨m, _, tlv 0x02 n, ⟨hm, hfm, rfl⟩,
      ⟨n, _, [], ⟨hn, hfn, rfl⟩, ⟨rfl, rfl⟩, by simp⟩, rfl⟩, hfits, rfl⟩

theorem reads_takeOid : Reads takeOid fun arcs e => Fits arcs ∧ e = oid arcs :=
  reads_takeValue 0x06

theorem reads_takeNull : Reads takeNull fun _ e => e = null := by
  refine Reads.congr ((reads_takeValue 0x05).bind fun content =>
    reads_ite (reads_pure ()) (reads_fail _)) ?_
  intro _ e
  constructor
  · rintro ⟨content, e₁, e₂, ⟨_, rfl⟩, h, rfl⟩
    split at h
    · rename_i hc
      obtain ⟨_, rfl⟩ := h
      simp [null, hc]
    · exact h.elim
  · rintro rfl
    exact ⟨[], null, [], ⟨by simp [Fits], rfl⟩, by simp, by simp⟩

theorem reads_splitBitString (content : Octets) :
    Reads (splitBitString content) fun bits e =>
      bits.Valid ∧ content = bits.unused :: bits.octets ∧ e = [] := by
  cases content with
  | nil => exact (reads_fail _).congr (by simp)
  | cons unused octets =>
      apply (reads_ite (reads_pure _) (reads_fail _)).congr
      intro bits e
      constructor
      · intro h
        split at h
        · rename_i hvalid
          obtain ⟨rfl, rfl⟩ := h
          exact ⟨hvalid, rfl, rfl⟩
        · exact h.elim
      · rintro ⟨hvalid, heq, rfl⟩
        obtain ⟨rfl, rfl⟩ : unused = bits.unused ∧ octets = bits.octets := by simpa using heq
        rw [if_pos hvalid]
        exact ⟨rfl, rfl⟩

theorem reads_takeBitString : Reads takeBitString fun bits e =>
    bits.Valid ∧ Fits (bits.unused :: bits.octets) ∧ e = bitString bits := by
  apply Reads.congr ((reads_takeValue 0x03).bind reads_splitBitString)
  intro bits e
  constructor
  · rintro ⟨content, e₁, e₂, ⟨hfits, rfl⟩, ⟨hvalid, rfl, rfl⟩, rfl⟩
    exact ⟨hvalid, hfits, by simp [bitString]⟩
  · rintro ⟨hvalid, hfits, rfl⟩
    exact ⟨_, bitString bits, [], ⟨hfits, rfl⟩, ⟨hvalid, rfl, rfl⟩, by simp⟩

theorem decode_eq_ok_iff {op : Decoder α} {encodes : α → Octets → Prop}
    (h : Reads op encodes) {bytes : Octets} {a : α} :
    decode bytes op = .ok a ↔ ∃ e rest, encodes a e ∧ bytes = e ++ rest := by
  simp only [decode, Outcome.bind_eq_ok_iff, Outcome.pure_eq, Outcome.ok.injEq]
  constructor
  · rintro ⟨⟨b, rest⟩, hop, rfl⟩
    obtain ⟨e, he, hbytes⟩ := (h bytes b rest).mp hop
    exact ⟨e, rest, he, hbytes⟩
  · rintro ⟨e, rest, he, hbytes⟩
    exact ⟨(a, rest), (h bytes a rest).mpr ⟨e, he, hbytes⟩, rfl⟩

/-- A sequence that is too long for the decoder. -/
theorem decode_sequenceOf_of_long {op : Decoder α} {content : Octets} (h : ¬ Fits content)
    (hlt : content.length < 256 ^ 127) (rest : Octets) :
    decode (sequenceOf content ++ rest) (takeSequence op) =
      .err (.malformed .invalidLength) := by
  have htag : takeTag 0x30 (sequenceOf content ++ rest) =
      .ok ((), encodeLength content.length ++ (content ++ rest)) := by
    simp [sequenceOf, tlv, takeTag, bind_run, takeOctet]
    rfl
  have hlength := takeLength_encodeLength_of_long (Nat.le_of_not_lt h) hlt (content ++ rest)
  simp only [decode, takeSequence, takeValue, bind_run, htag, Outcome.ok_bind, hlength,
    Outcome.err_bind]

def Total (op : Decoder α) : Prop := ∀ input, op input ≠ .panic

theorem total_pure (a : α) : Total (pure a) := fun _ => nofun

theorem total_fail (error : DecodeError) : Total (fail error : Decoder α) := fun _ => nofun

theorem Total.bind {op : Decoder α} {f : α → Decoder β} (h : Total op)
    (hf : ∀ a, Total (f a)) : Total (op >>= f) := by
  intro input hpanic
  rw [bind_run] at hpanic
  rcases Outcome.bind_eq_panic_iff.mp hpanic with hop | ⟨p, _, hp⟩
  · exact h input hop
  · exact hf p.1 p.2 hp

theorem total_ite {c : Prop} [Decidable c] {op op' : Decoder α}
    (h : Total op) (h' : Total op') : Total (if c then op else op') := by
  split <;> assumption

theorem Total.mapError {op : Decoder α} (f : DecodeError → DecodeError) (h : Total op) :
    Total (mapError f op) := by
  intro input hpanic
  exact h input (Outcome.mapErr_eq_panic_iff.mp hpanic)

theorem total_ofOutcome {x : Outcome DecodeError α} (h : x ≠ .panic) :
    Total (ofOutcome x) := by
  intro input
  cases x with
  | ok a => nofun
  | err e => nofun
  | panic => exact absurd rfl h

theorem total_takeOctet : Total takeOctet := by
  intro input
  cases input <;> nofun

theorem total_takeOctets (n : Nat) : Total (takeOctets n) := by
  intro input
  rw [takeOctets]
  split <;> nofun

theorem total_takeLength : Total takeLength :=
  total_takeOctet.bind fun _ => total_ite (total_pure _)
    (total_ite ((total_takeOctets _).bind fun _ => total_ite (total_pure _) (total_fail _))
      (total_fail _))

theorem total_takeValue (tag : UInt8) : Total (takeValue tag) :=
  (total_takeOctet.bind fun _ => total_ite (total_pure _) (total_fail _)).bind fun _ =>
    total_takeLength.bind fun n => total_takeOctets n

theorem total_takeSequence {op : Decoder α} (h : Total op) : Total (takeSequence op) := by
  refine (total_takeValue 0x30).bind fun content input => ?_
  have hop := h content
  simp only [consume]
  split <;> simp_all

theorem total_takeUnsigned : Total takeUnsigned :=
  (total_takeValue 0x02).bind fun _ => total_ite (total_pure _) (total_fail _)

theorem total_takeNull : Total takeNull :=
  (total_takeValue 0x05).bind fun _ => total_ite (total_pure _) (total_fail _)

theorem total_takeBitString : Total takeBitString := by
  refine (total_takeValue 0x03).bind fun content => ?_
  cases content with
  | nil => exact total_fail _
  | cons unused octets => exact total_ite (total_pure _) (total_fail _)

theorem decode_ne_panic {op : Decoder α} (h : Total op) (bytes : Octets) :
    decode bytes op ≠ .panic := by
  intro hpanic
  rcases Outcome.bind_eq_panic_iff.mp hpanic with hop | ⟨_, _, hp⟩
  · exact h bytes hop
  · simp at hp

end DomainKmip.Library.DerReading
