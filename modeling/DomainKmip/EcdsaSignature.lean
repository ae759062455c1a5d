import DomainKmip.Domain
import DomainKmip.Library.DerReading

namespace DomainKmip.EcdsaSignature

open DomainKmip.Library.BigEndian
open DomainKmip.Library.RustResult
open DomainKmip.Library.RustSlice
open DomainKmip.Library.Der
open DomainKmip.Library.DerReading
open DomainKmip.Domain

/-- SEQUENCE of `r` and `s`. The texts that the source puts into decoding errors
here only reach the debug log. -/
def takeSignature : Decoder (Octets × Octets) :=
  takeSequence do
    let r ← takeUnsigned
    let s ← takeUnsigned
    pure (r, s)

/-- Drop the sign octet of a number; refuse other leading zeros. -/
def dropSign : Octets → Outcome SignError Octets
  | 0 :: b :: rest => if 0x80 ≤ b.toNat then .ok (b :: rest) else .err {}
  | x => .ok x

/-- One round of the loop over `r` and `s`. -/
def stripSign (halfLen : Nat) (x : Octets) : Outcome SignError Octets := do
  let x ← dropSign x
  if halfLen < x.length then .err {} else .ok x

def parseX962 (len : Nat) (bytes : Octets) : Outcome SignError (OctetArray len) := do
  let (r, s) ← (decode bytes takeSignature).mapErr fun _ => {}
  let signature := zeros len
  let halfLen := len / 2
  let r ← stripSign halfLen r
  let s ← stripSign halfLen s
  let signature ← copyFromSlice signature (← usizeSub halfLen r.length) halfLen r
  copyFromSlice signature (← usizeSub len s.length) len s

end DomainKmip.EcdsaSignature
