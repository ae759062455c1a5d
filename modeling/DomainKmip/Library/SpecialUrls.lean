import DomainKmip.Library.UrlParsing

namespace DomainKmip.Library.SpecialUrls

open DomainKmip.Library.PercentEncoding
open DomainKmip.Library.UrlSyntax
open DomainKmip.Library.UrlParsing

/-- Domain to ASCII, after percent-decoding, and the parser of IPv4 addresses. -/
structure DomainRules where
  toAscii : List Char → Option (List Char)
  endsInNumber : List Char → Bool
  parseIpv4 : List Char → Option (Fin (2 ^ 32))
  isAscii_toAscii : ∀ text domain, toAscii text = some domain → ∀ c ∈ domain, c.toNat < 0x80

def serializeIpv4 (address : Fin (2 ^ 32)) : List Char :=
  let n := address.val
  ['.'].intercalate ([n / 256 ^ 3, n / 256 ^ 2, n / 256, n].map fun part =>
    Nat.toDigits 10 (part % 256))

def forbiddenDomain (c : Char) : Bool :=
  forbiddenHost c || c.toNat < 0x20 || c = '%' || c = '\x7F'

def parseSpecialHost (rules : DomainRules) (ipv6 : Ipv6) (text : List Char) :
    Option (List Char) :=
  if text.head? = some '[' then parseHost ipv6 text
  else do
    let domain ← rules.toAscii text
    if domain = [] ∨ domain.any forbiddenDomain then none
    else if rules.endsInNumber domain then (rules.parseIpv4 domain).map serializeIpv4
    else some domain

/-- The URLs that parsing returns, as far as hosts and paths go. -/
inductive Standard (rules : DomainRules) (ipv6 : Ipv6) : Url → Prop
  | hostless {url : Url} (h : url.hostStr = none) : Standard rules ipv6 url
  | generic {scheme rest : List Char} {url : Url} (hscheme : isGenericScheme scheme = true)
      (h : parse ipv6 scheme rest = some url) : Standard rules ipv6 url
  | special {url : Url} {host path : List Char}
      (hhost : url.host = parseSpecialHost rules ipv6 host)
      (hpath : url.path = parseSpecialPath (url.scheme = "file".toList) path) :
      Standard rules ipv6 url

variable {rules : DomainRules} {ipv6 : Ipv6}

theorem mem_serializeIpv4 {address : Fin (2 ^ 32)} {c : Char} (h : c ∈ serializeIpv4 address) :
    c = '.' ∨ isPlain c = true := by
  simp only [serializeIpv4, List.map_cons, List.map_nil, List.intercalate_cons_cons,
    List.intercalate_singleton, List.mem_append, List.mem_singleton] at h
  rcases h with (h | h) | (h | h) | (h | h) | h
  all_goals first | exact Or.inl h | exact Or.inr (isPlain_of_mem_toDigits h)

theorem plainHost_serializeIpv4 (address : Fin (2 ^ 32)) :
    PlainHost ipv6 (serializeIpv4 address) := by
  refine Or.inl ⟨by simp [serializeIpv4, List.intercalate_cons_cons], fun c hc => ?_⟩
  rcases mem_serializeIpv4 hc with rfl | hplain
  · decide
  · exact ⟨forbiddenHost_of_isPlain hplain, c0ControlSet_of_isPlain hplain⟩

theorem parseSpecialHost_eq_some {text host : List Char}
    (h : parseSpecialHost rules ipv6 text = some host) : host = [] ∨ PlainHost ipv6 host := by
  rw [parseSpecialHost] at h
  split at h
  · exact parseHost_eq_some h
  · obtain ⟨domain, hdomain, h⟩ := Option.bind_eq_some_iff.mp h
    split at h
    · exact nomatch h
    · rename_i hforbidden
      push Not at hforbidden
      split at h
      · obtain ⟨address, _, rfl⟩ := Option.map_eq_some_iff.mp h
        exact Or.inr (plainHost_serializeIpv4 address)
      · obtain rfl := Option.some.inj h
        refine Or.inr (Or.inl ⟨hforbidden.1, fun c hc => ?_⟩)
        have hascii := rules.isAscii_toAscii text _ hdomain c hc
        have hc : forbiddenDomain c = false := by
          simpa using List.any_eq_false.mp (by simpa using hforbidden.2) c hc
        simp only [forbiddenDomain, Bool.or_eq_false_iff, decide_eq_false_iff_not] at hc
        obtain ⟨⟨⟨hhost, hcontrol⟩, _⟩, hdelete⟩ := hc
        have hcode : c.toNat ≠ 0x7F := fun hcode => hdelete (Char.toNat_inj.mp hcode)
        refine ⟨hhost, c0ControlSet_eq_false_iff.mpr ?_⟩
        omega

theorem Standard.plain {url : Url} (h : Standard rules ipv6 url) {host : String}
    (hhost : url.hostStr = some host) :
    PlainHost ipv6 host.toList ∧
      (url.path = [] ∨ ∃ path, url.path = '/' :: path ∧ PlainPath path) := by
  obtain ⟨hurlHost, hne⟩ := Url.hostStr_eq_some_iff.mp hhost
  cases h with
  | hostless h => exact nomatch h.symm.trans hhost
  | generic _ h =>
      obtain ⟨⟨parsed, hparsed, hplain⟩, hpath⟩ := parse_components h
      obtain rfl := Option.some.inj (hparsed.symm.trans hurlHost)
      exact ⟨hplain.resolve_left hne, hpath⟩
  | special hspecial hpath =>
      have hplain := parseSpecialHost_eq_some (hspecial.symm.trans hurlHost)
      refine ⟨hplain.resolve_left hne, Or.inr ?_⟩
      rw [hpath]
      exact parseSpecialPath_plain _ _

end DomainKmip.Library.SpecialUrls
