import DomainKmip.Kmip
import DomainKmip.Library.Der
import DomainKmip.Library.RsaField
import DomainKmip.Library.RustText
import DomainKmip.Library.UrlParsing

/-!
The functions of other crates that the crate calls and whose results it returns
or prints. They are a parameter of the model.
-/

namespace DomainKmip.Dependencies

open DomainKmip.Library.BigEndian
open DomainKmip.Library.Der
open DomainKmip.Library.RsaField
open DomainKmip.Library.RustText
open DomainKmip.Library.UrlSyntax
open DomainKmip.Library.UrlParsing
open DomainKmip.Domain
open DomainKmip.Kmip

/-- The types whose names `map_der_err` puts into its messages. -/
inductive DerType where
  | Oid
  | Null
  | BitString
  | Unsigned
  | UnsignedPair
  deriving DecidableEq, Repr

structure Crates where
  /-- `domain::crypto::common::rsa_encode` on an exponent and a modulus; `none`
  where it panics. -/
  rsaEncode : Octets → Octets → Option Octets
  /-- `Display` and `FromStr` of `SecurityAlgorithm`. -/
  displayAlgorithm : SecurityAlgorithm → String
  parseAlgorithm : String → Except String SecurityAlgorithm
  parseIntError : String → String
  /-- `Url::parse`, with the message of its error. -/
  parseUrl : String → Except String Url
  /-- UTF-8 decoding, with replacement characters for what is malformed. -/
  decodeUtf8Lossy : List UInt8 → String
  displayNetError : NetError → String
  displayConnError : KmipConnError → String
  displayDecodeError : DecodeError → String
  typeName : DerType → String
  displayOid : Octets → String
  debugOid : Octets → String
  displayResponse : ResponsePayload → String
  displayManagedObject : ManagedObject → String
  displayKeyMaterial : KeyMaterial → String
  displayKeyFormatType : KeyFormatType → String
  displayCryptographicAlgorithm : CryptographicAlgorithm → String
  encodeBase16 : Octets → String

/-- Both numbers without the zero octets in front of them, if the length of the exponent
can be written then. -/
def frameNumbers (exponent modulus : Octets) : Option Octets :=
  if (withoutLeadingZeros exponent).length ≤ 65535 then
    some (rfc3110 (withoutLeadingZeros exponent) (withoutLeadingZeros modulus))
  else none

/-- `rsa_encode` frames the numbers that its arguments stand for. -/
def Crates.FramesRsa (crates : Crates) : Prop :=
  ∀ exponent modulus, crates.rsaEncode exponent modulus = frameNumbers exponent modulus

theorem frameNumbers_of_values {exponent modulus : Octets} {e n : Nat}
    (hexponent : value exponent = e) (hmodulus : value modulus = n)
    (hlen : (ofNat e).length ≤ 65535) :
    frameNumbers exponent modulus = some (rfc3110 (ofNat e) (ofNat n)) := by
  rw [frameNumbers, withoutLeadingZeros_eq_ofNat, withoutLeadingZeros_eq_ofNat, hexponent,
    hmodulus, if_pos hlen]

/-- `Url::parse` follows the URL standard where no special scheme and no opaque path
is involved. -/
def Crates.ParsesUrls (crates : Crates) (ipv6 : Ipv6) : Prop :=
  ∀ scheme rest, isGenericScheme scheme = true →
    (crates.parseUrl (String.ofList (scheme ++ ':' :: '/' :: '/' :: rest))).toOption =
      parse ipv6 scheme rest

/-- Algorithms can be read back from what they are displayed as, which needs no encoding in
a URL. -/
structure Crates.NamesAlgorithms (crates : Crates) : Prop where
  parse_display : ∀ algorithm,
    crates.parseAlgorithm (crates.displayAlgorithm algorithm) = .ok algorithm
  isPlain_display : ∀ algorithm, ∀ c ∈ (crates.displayAlgorithm algorithm).toList,
    isPlain c = true

/-- The number of an algorithm. -/
def toInt : SecurityAlgorithm → UInt8
  | .RSASHA1 => 5
  | .RSASHA1_NSEC3_SHA1 => 7
  | .RSASHA256 => 8
  | .RSASHA512 => 10
  | .ECDSAP256SHA256 => 13
  | .ECDSAP384SHA384 => 14
  | .ED25519 => 15
  | .ED448 => 16
  | .int code _ => code

def fromInt (code : UInt8) : SecurityAlgorithm :=
  if unnamed : code ∉ namedAlgorithms then .int code unnamed
  else if code = 5 then .RSASHA1
  else if code = 7 then .RSASHA1_NSEC3_SHA1
  else if code = 8 then .RSASHA256
  else if code = 10 then .RSASHA512
  else if code = 13 then .ECDSAP256SHA256
  else if code = 14 then .ECDSAP384SHA384
  else if code = 15 then .ED25519
  else .ED448

theorem fromInt_toInt (algorithm : SecurityAlgorithm) : fromInt (toInt algorithm) = algorithm := by
  cases algorithm with
  | int code unnamed => exact dif_pos unnamed
  | _ => rfl

def parseDecimalAlgorithm (text : String) : Except String SecurityAlgorithm :=
  match parseU8 text.toList with
  | some code => .ok (fromInt code)
  | none => .error "invalid digit found in string"

def loopback : Ipv6 where
  Address := Unit
  parse text := if text = "::1".toList then some () else none
  serialize _ := "::1".toList
  parse_serialize _ := if_pos rfl
  serialize_plain _ := by simp

def parseSampleUrl (text : String) : Except String Url :=
  let afterScheme := text.toList.dropWhile (· ≠ ':')
  match parse loopback (text.toList.takeWhile (· ≠ ':')) (afterScheme.drop 3) with
  | some url => .ok url
  | none => .error "invalid"

def decodeSampleUtf8 (octets : List UInt8) : String :=
  match octets.toByteArray.utf8Decode? with
  | some text => String.ofList text.toList
  | none => "\uFFFD"

/-- Crates to run examples with. -/
def sampleCrates : Crates where
  rsaEncode := frameNumbers
  displayAlgorithm := fun algorithm => (toInt algorithm).toNat.repr
  parseAlgorithm := parseDecimalAlgorithm
  parseIntError := fun _ => "invalid digit found in string"
  parseUrl := parseSampleUrl
  decodeUtf8Lossy := decodeSampleUtf8
  displayNetError := fun
    | .ServerError text => text
    | .other text => text
  displayConnError := KmipConnError.text
  displayDecodeError := fun
    | .malformed _ => "malformed"
    | .content text => text
  typeName := fun _ => "Der"
  displayOid := fun _ => "oid"
  debugOid := fun _ => "oid"
  displayResponse := fun _ => "response"
  displayManagedObject := fun _ => "object"
  displayKeyMaterial := fun _ => "material"
  displayKeyFormatType := fun _ => "format"
  displayCryptographicAlgorithm := fun _ => "algorithm"
  encodeBase16 := fun _ => "octets"

theorem sampleCrates_framesRsa : sampleCrates.FramesRsa := fun _ _ => rfl

theorem colon_not_mem_of_isGenericScheme {scheme : List Char} (h : isGenericScheme scheme = true) :
    ∀ c ∈ scheme, decide (c ≠ ':') = true := by
  rw [isGenericScheme, Bool.and_eq_true, Bool.and_eq_true, List.all_eq_true] at h
  intro c hc
  apply decide_eq_true
  rintro rfl
  exact absurd (h.1.2 ':' hc) (by decide)

theorem sampleCrates_parsesUrls : sampleCrates.ParsesUrls loopback := by
  intro scheme rest hscheme
  have hcolon := colon_not_mem_of_isGenericScheme hscheme
  have hstop : decide (':' ≠ ':') = false := by decide
  simp only [sampleCrates, parseSampleUrl, String.toList_ofList,
    takeWhile_append_stop hcolon hstop, dropWhile_append_stop hcolon hstop, List.drop_succ_cons,
    List.drop_zero]
  cases parse loopback scheme rest <;> rfl

theorem sampleCrates_decodes : Decodes sampleCrates.decodeUtf8Lossy := by
  intro text
  change decodeSampleUtf8 _ = _
  have hdecode : (text.flatMap String.utf8EncodeChar).toByteArray.utf8Decode? =
      some text.toArray := List.utf8Decode?_utf8Encode
  rw [decodeSampleUtf8, hdecode]

theorem sampleCrates_namesAlgorithms : sampleCrates.NamesAlgorithms where
  parse_display := by
    intro algorithm
    change parseDecimalAlgorithm (toInt algorithm).toNat.repr = _
    rw [parseDecimalAlgorithm, Nat.toList_repr, parseU8_toDigits]
    exact congrArg Except.ok (fromInt_toInt algorithm)
  isPlain_display := by
    intro algorithm c hc
    change c ∈ (toInt algorithm).toNat.repr.toList at hc
    rw [Nat.toList_repr] at hc
    exact isPlain_of_mem_toDigits hc

end DomainKmip.Dependencies
