import DomainKmip.Library.BigEndian
import DomainKmip.Library.RustResult

namespace DomainKmip.Library.RustSlice

open DomainKmip.Library.BigEndian
open DomainKmip.Library.RustResult

/-- `[u8; len]`. -/
abbrev OctetArray (len : Nat) := { octets : Octets // octets.length = len }

def zeros (len : Nat) : OctetArray len := ⟨List.replicate len 0, by simp⟩

variable {ε : Type} {len : Nat}

def usizeSub (a b : Nat) : Outcome ε Nat := if b ≤ a then .ok (a - b) else .panic

/-- `array[start..stop].copy_from_slice(src)`. -/
def copyFromSlice (array : OctetArray len) (start stop : Nat) (src : Octets) :
    Outcome ε (OctetArray len) :=
  if h : start ≤ stop ∧ stop ≤ len ∧ src.length = stop - start then
    .ok ⟨array.val.take start ++ src ++ array.val.drop stop, by
      have := array.property
      simp
      omega⟩
  else .panic

theorem usizeSub_of_le {a b : Nat} (h : b ≤ a) : (usizeSub a b : Outcome ε Nat) = .ok (a - b) :=
  if_pos h

variable (ε) in
theorem copyFromSlice_of_fits (array : OctetArray len) (start stop : Nat) (src : Octets)
    (h : start ≤ stop ∧ stop ≤ len ∧ src.length = stop - start) :
    ∃ array' : OctetArray len,
      (copyFromSlice array start stop src : Outcome ε (OctetArray len)) = .ok array' ∧
        array'.val = array.val.take start ++ src ++ array.val.drop stop := by
  rw [copyFromSlice, dif_pos h]
  exact ⟨_, rfl, rfl⟩

end DomainKmip.Library.RustSlice
