import DomainKmip.Library.RustSlice

namespace DomainKmip.Domain

open DomainKmip.Library.BigEndian
open DomainKmip.Library.RustSlice

def namedAlgorithms : List UInt8 := [5, 7, 8, 10, 13, 14, 15, 16]

/-- The DNSSEC algorithm numbers. Those the crate never names are `int`. -/
inductive SecurityAlgorithm where
  | RSASHA1
  | RSASHA1_NSEC3_SHA1
  | RSASHA256
  | RSASHA512
  | ECDSAP256SHA256
  | ECDSAP384SHA384
  | ED25519
  | ED448
  | int (code : UInt8) (unnamed : code ∉ namedAlgorithms)
  deriving DecidableEq, Repr

inductive GenerateParams where
  | RsaSha256 (bits : UInt32)
  | RsaSha512 (bits : UInt32)
  | EcdsaP256Sha256
  | EcdsaP384Sha384
  | Ed25519
  | Ed448
  deriving DecidableEq, Repr

def GenerateParams.algorithm : GenerateParams → SecurityAlgorithm
  | .RsaSha256 _ => .RSASHA256
  | .RsaSha512 _ => .RSASHA512
  | .EcdsaP256Sha256 => .ECDSAP256SHA256
  | .EcdsaP384Sha384 => .ECDSAP384SHA384
  | .Ed25519 => .ED25519
  | .Ed448 => .ED448

inductive Signature where
  | RsaSha256 (octets : Octets)
  | RsaSha512 (octets : Octets)
  | EcdsaP256Sha256 (octets : OctetArray 64)
  | EcdsaP384Sha384 (octets : OctetArray 96)
  | Ed25519 (octets : OctetArray 64)
  | Ed448 (octets : OctetArray 114)
  deriving DecidableEq

structure SignError where
  deriving DecidableEq, Repr

/-- DNSKEY record data, which is at most 65535 octets long: flags, protocol and
algorithm take four of them. -/
structure Dnskey where
  flags : UInt16
  protocol : UInt8
  algorithm : SecurityAlgorithm
  publicKey : Octets
  fits : 4 + publicKey.length ≤ 65535
  deriving DecidableEq

/-- `Dnskey::new`, with `none` for its error. -/
def Dnskey.new (flags : UInt16) (protocol : UInt8) (algorithm : SecurityAlgorithm)
    (publicKey : Octets) : Option Dnskey :=
  if fits : 4 + publicKey.length ≤ 65535 then
    some { flags, protocol, algorithm, publicKey, fits }
  else none

theorem Dnskey.new_eq_none_iff (flags : UInt16) (protocol : UInt8)
    (algorithm : SecurityAlgorithm) {publicKey : Octets} :
    Dnskey.new flags protocol algorithm publicKey = none ↔ 65531 < publicKey.length := by
  rw [Dnskey.new]
  split <;> simp <;> omega

theorem Dnskey.of_new {flags : UInt16} {protocol : UInt8} {algorithm : SecurityAlgorithm}
    {publicKey : Octets} {dnskey : Dnskey}
    (h : Dnskey.new flags protocol algorithm publicKey = some dnskey) :
    dnskey.flags = flags ∧ dnskey.protocol = protocol ∧ dnskey.algorithm = algorithm ∧
      dnskey.publicKey = publicKey := by
  rw [Dnskey.new] at h
  split at h
  · obtain rfl := Option.some.inj h
    exact ⟨rfl, rfl, rfl, rfl⟩
  · simp at h

end DomainKmip.Domain
