import DomainKmip.Library.PercentEncoding

namespace DomainKmip.Library.UrlSyntax

open DomainKmip.Library.PercentEncoding

/-- The components of a URL, encoded as in its text. -/
structure Url where
  scheme : List Char
  username : List Char
  password : List Char
  host : Option (List Char)
  port : Option Nat
  path : List Char
  query : Option (List Char)
  fragment : Option (List Char)
  deriving DecidableEq, Repr

def Url.credentials (url : Url) : List Char :=
  if url.username = [] ∧ url.password = [] then []
  else if url.password = [] then url.username ++ ['@']
  else url.username ++ ':' :: (url.password ++ ['@'])

def Url.authority (url : Url) : List Char :=
  match url.host with
  | none => if url.path.take 2 = ['/', '/'] then ['/', '.'] else []
  | some host =>
      let port := match url.port with
        | none => []
        | some port => ':' :: Nat.toDigits 10 port
      '/' :: '/' :: (url.credentials ++ host ++ port)

def Url.serialize (url : Url) : List Char :=
  let query := match url.query with
    | none => []
    | some query => '?' :: query
  let fragment := match url.fragment with
    | none => []
    | some fragment => '#' :: fragment
  url.scheme ++ ':' :: (url.authority ++ url.path ++ query ++ fragment)

/-- An empty host counts as none. -/
def Url.hostStr (url : Url) : Option String :=
  match url.host with
  | none | some [] => none
  | some host => some (String.ofList host)

theorem Url.hostStr_eq_some_iff {url : Url} {text : String} :
    url.hostStr = some text ↔ url.host = some text.toList ∧ text.toList ≠ [] := by
  rw [Url.hostStr]
  split
  · rename_i hhost
    simp [hhost]
  · rename_i hhost
    simp only [hhost, reduceCtorEq, Option.some.injEq, false_iff, not_and, ne_eq, not_not]
    exact Eq.symm
  · rename_i host hne hhost
    rw [hhost, Option.some.injEq, Option.some.injEq]
    constructor
    · rintro rfl
      simpa using hne
    · rintro ⟨rfl, _⟩
      exact String.ofList_toList

def plusToSpace (c : Char) : Char := if c = '+' then ' ' else c

/-- A name or a value; `decodeUtf8` also decodes malformed octet strings. -/
def decodeForm (decodeUtf8 : List UInt8 → String) (text : List Char) : String :=
  decodeUtf8 (percentDecode ((text.map plusToSpace).flatMap String.utf8EncodeChar))

def Url.queryPairs (decodeUtf8 : List UInt8 → String) (url : Url) : List (String × String) :=
  let pieces := ((url.query.getD []).splitOn '&').filter (· ≠ [])
  pieces.map fun piece =>
    (decodeForm decodeUtf8 (piece.takeWhile (· ≠ '=')),
      decodeForm decodeUtf8 ((piece.dropWhile (· ≠ '=')).drop 1))

/-- Letters, digits and hyphens stand for themselves in a form-encoded query. -/
def isPlain (c : Char) : Bool := c.isAlphanum || c = '-'

theorem isPlain_toNat {c : Char} (h : isPlain c = true) : 0x20 < c.toNat ∧ c.toNat < 0x7F := by
  have hupper : c.isUpper = true → 65 ≤ c.toNat ∧ c.toNat ≤ 90 := of_decide_eq_true
  have hlower : c.isLower = true → 97 ≤ c.toNat ∧ c.toNat ≤ 122 := fun hc =>
    ((Bool.and_eq_true _ _).mp hc).imp of_decide_eq_true of_decide_eq_true
  have hdigit : c.isDigit = true → 48 ≤ c.toNat ∧ c.toNat ≤ 57 := fun hc =>
    ((Bool.and_eq_true _ _).mp hc).imp of_decide_eq_true of_decide_eq_true
  have halpha : c.isAlpha = (c.isUpper || c.isLower) := rfl
  simp only [isPlain, Char.isAlphanum, halpha, Bool.or_eq_true, decide_eq_true_eq] at h
  rcases h with ((hc | hc) | hc) | rfl
  · have hrange := hupper hc
    omega
  · have hrange := hlower hc
    omega
  · have hrange := hdigit hc
    omega
  · decide

theorem isPlain_of_mem_toDigits {n : Nat} {c : Char} (h : c ∈ Nat.toDigits 10 n) :
    isPlain c = true := by
  have hdigit := Nat.isDigit_of_mem_toDigits (by omega) (by omega) h
  simp [isPlain, Char.isAlphanum, hdigit]

theorem c0ControlSet_of_isPlain {c : Char} (h : isPlain c = true) : c0ControlSet c = false := by
  have hrange := isPlain_toNat h
  apply c0ControlSet_eq_false_iff.mpr
  omega

theorem querySet_of_isPlain {c : Char} (h : isPlain c = true) : querySet c = false := by
  have hspecial : ∀ d ∈ [' ', '"', '#', '<', '>'], isPlain d = false :=
    eq_false_of_any (by decide)
  have hmem : c ∉ [' ', '"', '#', '<', '>'] := fun hmem =>
    Bool.noConfusion (h.symm.trans (hspecial c hmem))
  rw [querySet, c0ControlSet_of_isPlain h, List.contains_eq_mem, Bool.false_or,
    decide_eq_false_iff_not]
  exact hmem

/-- The decoder maps well-formed octets back to their text. -/
def Decodes (decodeUtf8 : List UInt8 → String) : Prop :=
  ∀ text : List Char, decodeUtf8 (text.flatMap String.utf8EncodeChar) = String.ofList text

variable {decodeUtf8 : List UInt8 → String}

theorem percent_not_mem_utf8EncodeChar {c : Char} (h : isPlain c = true) :
    37 ∉ String.utf8EncodeChar c := by
  have hrange := isPlain_toNat h
  have hsize : c.utf8Size = 1 := by
    rw [Char.utf8Size_eq_one_iff, UInt32.le_iff_toNat_le]
    change c.toNat ≤ 127
    omega
  rw [String.utf8EncodeChar_eq_singleton hsize, List.mem_singleton]
  intro heq
  have hcode : c = '%' := by
    apply Char.toNat_inj.mp
    have hcode := congrArg UInt8.toNat heq
    change 37 = c.val.toNat % 256 at hcode
    change c.val.toNat = 37
    change _ ∧ c.val.toNat < _ at hrange
    omega
  subst hcode
  exact nomatch h

theorem decodeForm_eq_self (hdecodes : Decodes decodeUtf8) {text : List Char}
    (h : ∀ c ∈ text, isPlain c = true) : decodeForm decodeUtf8 text = String.ofList text := by
  have hplus : text.map plusToSpace = text := by
    refine (List.map_congr_left fun c hc => ?_).trans (List.map_id text)
    apply if_neg
    rintro rfl
    exact nomatch h _ hc
  have hpercent : 37 ∉ text.flatMap String.utf8EncodeChar := by
    intro hmem
    obtain ⟨c, hc, hmem⟩ := List.mem_flatMap.mp hmem
    exact percent_not_mem_utf8EncodeChar (h c hc) hmem
  rw [decodeForm, hplus, percentDecode_eq_self hpercent, hdecodes]

def formText (pairs : List (List Char × List Char)) : List Char :=
  ['&'].intercalate (pairs.map fun pair => pair.1 ++ '=' :: pair.2)

theorem querySet_of_mem_formText {pairs : List (List Char × List Char)}
    (hplain : ∀ pair ∈ pairs, (∀ c ∈ pair.1, isPlain c = true) ∧ ∀ c ∈ pair.2, isPlain c = true) :
    ∀ c ∈ formText pairs, querySet c = false := by
  induction pairs with
  | nil => simp [formText, List.intercalate_nil]
  | cons pair rest ih =>
      have hpiece : ∀ c ∈ pair.1 ++ '=' :: pair.2, querySet c = false := by
        obtain ⟨hname, hvalue⟩ := hplain pair List.mem_cons_self
        simp only [List.mem_append, List.mem_cons]
        rintro c (hc | rfl | hc)
        · exact querySet_of_isPlain (hname c hc)
        · decide
        · exact querySet_of_isPlain (hvalue c hc)
      cases rest with
      | nil => simpa [formText, List.intercalate_singleton] using hpiece
      | cons next rest =>
          intro c hc
          rw [formText, List.map_cons, List.map_cons, List.intercalate_cons_cons] at hc
          rcases List.mem_append.mp hc with hc | hc
          · rcases List.mem_append.mp hc with hc | hc
            · exact hpiece c hc
            · rw [List.mem_singleton.mp hc]
              decide
          · exact ih (fun p hp => hplain p (List.mem_cons_of_mem pair hp)) c hc

theorem queryPairs_formText (hdecodes : Decodes decodeUtf8) {url : Url}
    {pairs : List (List Char × List Char)} (hne : pairs ≠ [])
    (hquery : url.query = some (formText pairs))
    (hplain : ∀ pair ∈ pairs, (∀ c ∈ pair.1, isPlain c = true) ∧ ∀ c ∈ pair.2, isPlain c = true) :
    url.queryPairs decodeUtf8 =
      pairs.map fun pair => (String.ofList pair.1, String.ofList pair.2) := by
  have hsplit : (formText pairs).splitOn '&' = pairs.map fun pair => pair.1 ++ '=' :: pair.2 := by
    refine List.splitOn_intercalate '&' ?_ (by simpa using hne)
    intro piece hpiece hmem
    obtain ⟨pair, hpair, rfl⟩ := List.mem_map.mp hpiece
    simp only [List.mem_append, List.mem_cons] at hmem
    rcases hmem with hmem | hmem | hmem
    · exact nomatch (hplain pair hpair).1 _ hmem
    · exact nomatch hmem
    · exact nomatch (hplain pair hpair).2 _ hmem
  have hnonempty : ((pairs.map fun pair => pair.1 ++ '=' :: pair.2).filter (· ≠ [])) =
      pairs.map fun pair => pair.1 ++ '=' :: pair.2 := by
    rw [List.filter_eq_self]
    intro piece hpiece
    obtain ⟨pair, _, rfl⟩ := List.mem_map.mp hpiece
    simp
  rw [Url.queryPairs, hquery, Option.getD_some, hsplit, hnonempty, List.map_map]
  refine List.map_congr_left fun pair hpair => ?_
  obtain ⟨hname, hvalue⟩ := hplain pair hpair
  have hstop : ∀ c ∈ pair.1, decide (c ≠ '=') = true := by
    intro c hc
    apply decide_eq_true
    rintro rfl
    exact nomatch hname _ hc
  simp only [Function.comp_apply]
  rw [List.takeWhile_append_of_pos hstop, List.dropWhile_append_of_pos hstop]
  simp [decodeForm_eq_self hdecodes hname, decodeForm_eq_self hdecodes hvalue]

end DomainKmip.Library.UrlSyntax
