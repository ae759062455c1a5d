import DomainKmip.Library.RustText
import DomainKmip.Library.UrlSyntax
import Mathlib.Data.List.DropRight

/-!
The parsing of a text `scheme://…` whose scheme is not special, and of paths under
any scheme.
-/

namespace DomainKmip.Library.UrlParsing

open DomainKmip.Library.RustText
open DomainKmip.Library.PercentEncoding
open DomainKmip.Library.UrlSyntax

structure Ipv6 where
  Address : Type
  parse : List Char → Option Address
  serialize : Address → List Char
  parse_serialize : ∀ address, parse (serialize address) = some address
  serialize_plain : ∀ address, ∀ c ∈ serialize address, c ∈ "0123456789abcdef:".toList

variable (ipv6 : Ipv6)

def forbiddenHost (c : Char) : Bool :=
  ['\x00', '\t', '\n', '\r', ' ', '#', '/', ':', '<', '>', '?', '@', '[', '\\', ']', '^', '|'].contains c

def parseHost (text : List Char) : Option (List Char) :=
  if text.head? = some '[' then
    if text.getLast? = some ']' then
      (ipv6.parse text.tail.dropLast).map fun address =>
        '[' :: (ipv6.serialize address ++ [']'])
    else none
  else if text.any forbiddenHost then none
  else some (percentEncode c0ControlSet text)

/-- Split at the first colon outside of brackets. -/
def splitPort (insideBrackets : Bool) : List Char → List Char × Option (List Char)
  | [] => ([], none)
  | c :: rest =>
      if c = ':' ∧ insideBrackets = false then ([], some rest)
      else
        let (host, port) := splitPort (c = '[' || insideBrackets && c ≠ ']') rest
        (c :: host, port)

def parsePort : Option (List Char) → Option (Option Nat)
  | none | some [] => some none
  | some digits => (readDecimal digits).bind fun port =>
      if port ≤ 65535 then some (some port) else none

structure Authority where
  username : List Char
  password : List Char
  host : List Char
  port : Option Nat

/-- Credentials extend to the last at sign. -/
def parseAuthority (text : List Char) : Option Authority :=
  let credentials := (text.rdropWhile (· ≠ '@')).dropLast
  let (host, port) := splitPort false (text.rtakeWhile (· ≠ '@'))
  if host = [] ∧ ('@' ∈ text ∨ port.isSome) then none
  else do
    let host ← parseHost ipv6 host
    let port ← parsePort port
    some
      { username := percentEncode userinfoSet (credentials.takeWhile (· ≠ ':'))
        password := percentEncode userinfoSet ((credentials.dropWhile (· ≠ ':')).drop 1)
        host, port }

def isSingleDot (segment : List Char) : Bool :=
  [['.'], ['%', '2', 'e']].contains (segment.map Char.toLower)

def isDoubleDot (segment : List Char) : Bool :=
  [['.', '.'], ['.', '%', '2', 'e'], ['%', '2', 'e', '.'],
    ['%', '2', 'e', '%', '2', 'e']].contains (segment.map Char.toLower)

/-- Append segments to a path. A dot segment in the last position leaves an empty
segment. -/
def appendSegments (path : List (List Char)) : List (List Char) → List (List Char)
  | [] => path
  | segment :: rest =>
      let buffer := percentEncode pathSet segment
      let ending := if rest = [] then [[]] else []
      if isDoubleDot buffer then appendSegments (path.dropLast ++ ending) rest
      else if isSingleDot buffer then appendSegments (path ++ ending) rest
      else appendSegments (path ++ [buffer]) rest

def joinPath (segments : List (List Char)) : List Char := segments.flatMap ('/' :: ·)

def parsePath : List Char → List Char
  | [] => []
  | _ :: rest => joinPath (appendSegments [] (rest.splitOn '/'))

/-- The drive letter of a file path is written with a colon. -/
def normalizeDrive (file : Bool) (path : List (List Char)) (segment : List Char) : List Char :=
  match segment with
  | [letter, '|'] => if file = true ∧ path = [] ∧ letter.isAlpha then [letter, ':'] else segment
  | _ => segment

/-- Remove the last segment, unless it is a drive letter. -/
def shorten (file : Bool) (path : List (List Char)) : List (List Char) :=
  match path with
  | [[letter, ':']] => if file = true ∧ letter.isAlpha then path else []
  | _ => path.dropLast

def appendSpecialSegments (file : Bool) (path : List (List Char)) :
    List (List Char) → List (List Char)
  | [] => path
  | segment :: rest =>
      let buffer := percentEncode pathSet segment
      let ending := if rest = [] then [[]] else []
      if isDoubleDot buffer then appendSpecialSegments file (shorten file path ++ ending) rest
      else if isSingleDot buffer then appendSpecialSegments file (path ++ ending) rest
      else appendSpecialSegments file (path ++ [normalizeDrive file path buffer]) rest

/-- A backslash separates segments as a slash does, and there always is a first
slash. -/
def parseSpecialPath (file : Bool) (text : List Char) : List Char :=
  let text := text.map fun c => if c = '\\' then '/' else c
  let segments := if text.head? = some '/' then text.tail.splitOn '/' else text.splitOn '/'
  joinPath (appendSpecialSegments file [] segments)

/-- Trailing spaces and controls are cut off, tabs and line breaks removed. -/
def clean (text : List Char) : List Char :=
  (text.rdropWhile fun c => c.toNat ≤ 0x20).filter fun c => !(['\t', '\n', '\r'].contains c)

def endsAuthority (c : Char) : Bool := ['/', '?', '#'].contains c

def endsPath (c : Char) : Bool := ['?', '#'].contains c

/-- A scheme that is not special, in lower case. -/
def isGenericScheme (scheme : List Char) : Bool :=
  (scheme.head?.any Char.isLower && scheme.all fun c =>
      c.isLower || c.isDigit || ['+', '-', '.'].contains c) &&
    !(["ftp".toList, "file".toList, "http".toList, "https".toList, "ws".toList,
      "wss".toList].contains scheme)

/-- The URL of the text `scheme://rest`. -/
def parse (scheme rest : List Char) : Option Url := do
  let text := clean rest
  let authority ← parseAuthority ipv6 (text.takeWhile (!endsAuthority ·))
  let afterAuthority := text.dropWhile (!endsAuthority ·)
  let afterPath := afterAuthority.dropWhile (!endsPath ·)
  let query := match afterPath.takeWhile (· ≠ '#') with
    | [] => none
    | _ :: query => some (percentEncode querySet query)
  let fragment := match afterPath.dropWhile (· ≠ '#') with
    | [] => none
    | _ :: fragment => some (percentEncode fragmentSet fragment)
  some
    { scheme
      username := authority.username
      password := authority.password
      host := some authority.host
      port := authority.port
      path := parsePath (afterAuthority.takeWhile (!endsPath ·))
      query, fragment }

/-- The text of an opaque host, or an IPv6 address in brackets. -/
def PlainHost (host : List Char) : Prop :=
  host ≠ [] ∧ (∀ c ∈ host, forbiddenHost c = false ∧ c0ControlSet c = false) ∨
    ∃ address, host = '[' :: (ipv6.serialize address ++ [']'])

variable {ipv6}

theorem keepsEncoded_forbiddenHost : KeepsEncoded forbiddenHost :=
  eq_false_of_any (by decide)

theorem forbiddenHost_of_isPlain {c : Char} (h : isPlain c = true) : forbiddenHost c = false := by
  rw [forbiddenHost, List.contains_eq_mem, decide_eq_false_iff_not]
  intro hmem
  exact Bool.noConfusion (h.symm.trans (eq_false_of_any (by decide) c hmem))

theorem parseHost_eq_some {text host : List Char} (h : parseHost ipv6 text = some host) :
    host = [] ∨ PlainHost ipv6 host := by
  rw [parseHost] at h
  split at h
  · split at h
    · obtain ⟨address, _, rfl⟩ := Option.map_eq_some_iff.mp h
      exact Or.inr (Or.inr ⟨address, rfl⟩)
    · exact nomatch h
  · split at h
    · exact nomatch h
    · rename_i hforbidden
      obtain rfl := Option.some.inj h
      refine or_iff_not_imp_left.mpr fun hne => Or.inl ⟨hne, fun c hc => ⟨?_, ?_⟩⟩
      · rcases mem_percentEncode hc with ⟨hmem, _⟩ | hinserted
        · simp only [List.any_eq_true, not_exists, not_and, Bool.not_eq_true] at hforbidden
          exact hforbidden c hmem
        · exact keepsEncoded_forbiddenHost c hinserted
      · exact eq_false_of_mem_percentEncode keepsEncoded_c0ControlSet hc

/-- A segment that stays as it is. -/
structure PlainSegment (segment : List Char) : Prop where
  unencoded : ∀ c ∈ segment, pathSet c = false
  no_slash : '/' ∉ segment
  not_singleDot : isSingleDot segment = false
  not_doubleDot : isDoubleDot segment = false

/-- A path below the root that stays as it is. -/
def PlainPath (path : List Char) : Prop :=
  (∀ c ∈ path, pathSet c = false) ∧
    ∀ segment ∈ path.splitOn '/', isSingleDot segment = false ∧ isDoubleDot segment = false

theorem not_mem_of_mem_splitOn {text : List Char} {a : Char} :
    ∀ {piece : List Char}, piece ∈ text.splitOn a → a ∉ piece := by
  induction text with
  | nil => simp
  | cons c rest ih =>
      intro piece h
      rw [List.splitOn_cons_eq_if_modifyHead] at h
      split at h
      · rcases List.mem_cons.mp h with rfl | h
        · exact List.not_mem_nil
        · exact ih h
      · rename_i hne
        obtain ⟨first, others, heq⟩ := List.exists_cons_of_ne_nil (List.splitOn_ne_nil a rest)
        rw [heq] at h ih
        rcases List.mem_cons.mp h with rfl | h
        · intro hmem
          rcases List.mem_cons.mp hmem with rfl | hmem
          · simp at hne
          · exact ih List.mem_cons_self hmem
        · exact ih (List.mem_cons_of_mem first h)

theorem joinPath_eq_cons_intercalate {segments : List (List Char)} (h : segments ≠ []) :
    joinPath segments = '/' :: ['/'].intercalate segments := by
  induction segments with
  | nil => exact (h rfl).elim
  | cons segment rest ih =>
      cases rest with
      | nil => simp [joinPath]
      | cons next rest =>
          rw [List.intercalate_cons_cons, joinPath, List.flatMap_cons]
          change '/' :: segment ++ joinPath (next :: rest) = _
          rw [ih (by simp)]
          simp

theorem joinPath_splitOn (path : List Char) : joinPath (path.splitOn '/') = '/' :: path := by
  rw [joinPath_eq_cons_intercalate (List.splitOn_ne_nil _ _), List.intercalate_splitOn]

theorem PlainPath.plainSegment {path segment : List Char} (h : PlainPath path)
    (hmem : segment ∈ path.splitOn '/') : PlainSegment segment where
  unencoded := by
    intro c hc
    have hjoin : c ∈ joinPath (path.splitOn '/') :=
      List.mem_flatMap.mpr ⟨segment, hmem, List.mem_cons_of_mem _ hc⟩
    rw [joinPath_splitOn] at hjoin
    rcases List.mem_cons.mp hjoin with rfl | hpath
    · exact (not_mem_of_mem_splitOn hmem hc).elim
    · exact h.1 c hpath
  no_slash := not_mem_of_mem_splitOn hmem
  not_singleDot := (h.2 segment hmem).1
  not_doubleDot := (h.2 segment hmem).2

theorem plainPath_intercalate {segments : List (List Char)} (hne : segments ≠ [])
    (h : ∀ segment ∈ segments, PlainSegment segment) :
    PlainPath (['/'].intercalate segments) := by
  constructor
  · intro c hc
    have hjoin : c ∈ joinPath segments := by
      rw [joinPath_eq_cons_intercalate hne]
      exact List.mem_cons_of_mem _ hc
    obtain ⟨segment, hmem, hc⟩ := List.mem_flatMap.mp hjoin
    rcases List.mem_cons.mp hc with rfl | hc
    · decide
    · exact (h segment hmem).unencoded c hc
  · intro segment hmem
    rw [List.splitOn_intercalate '/' (fun l hl => (h l hl).no_slash) hne] at hmem
    exact ⟨(h segment hmem).not_singleDot, (h segment hmem).not_doubleDot⟩

theorem plainPath_cons_slash_iff {segment path : List Char} (hslash : '/' ∉ segment) :
    PlainPath (segment ++ '/' :: path) ↔ PlainSegment segment ∧ PlainPath path := by
  simp only [PlainPath, List.splitOn_append_cons_self_of_not_mem hslash, List.mem_cons,
    List.mem_append, forall_eq_or_imp]
  constructor
  · rintro ⟨hc, hsegment, hpath⟩
    exact ⟨⟨fun c hc' => hc c (Or.inl hc'), hslash, hsegment.1, hsegment.2⟩,
      fun c hc' => hc c (Or.inr (Or.inr hc')), hpath⟩
  · rintro ⟨hsegment, hpath⟩
    refine ⟨?_, ⟨hsegment.not_singleDot, hsegment.not_doubleDot⟩, hpath.2⟩
    rintro c (hc | rfl | hc)
    · exact hsegment.unencoded c hc
    · decide
    · exact hpath.1 c hc

theorem plainSegment_nil : PlainSegment [] := ⟨by simp, by simp, rfl, rfl⟩

theorem plainSegment_percentEncode {segment : List Char} (hslash : '/' ∉ segment)
    (hsingle : isSingleDot (percentEncode pathSet segment) = false)
    (hdouble : isDoubleDot (percentEncode pathSet segment) = false) :
    PlainSegment (percentEncode pathSet segment) where
  unencoded := fun _ hc => eq_false_of_mem_percentEncode keepsEncoded_pathSet hc
  no_slash := by
    intro hmem
    rcases mem_percentEncode hmem with ⟨h, _⟩ | h
    · exact hslash h
    · revert h
      decide
  not_singleDot := hsingle
  not_doubleDot := hdouble

theorem plainSegment_normalizeDrive {file : Bool} {path : List (List Char)} {segment : List Char}
    (h : PlainSegment segment) : PlainSegment (normalizeDrive file path segment) := by
  rw [normalizeDrive.eq_def]
  split
  · rename_i letter
    split
    · have hletter : ∀ c ∈ [letter, ':'], c ∈ [letter, '|'] ∨ c = ':' := by simp
      refine ⟨fun c hc => ?_, fun hmem => ?_, by simp [isSingleDot], by simp [isDoubleDot]⟩
      · rcases hletter c hc with hc | rfl
        · exact h.unencoded c hc
        · decide
      · rcases hletter _ hmem with hmem | hcolon
        · exact h.no_slash hmem
        · exact nomatch hcolon
    · exact h
  · exact h

theorem mem_of_mem_shorten {file : Bool} {path : List (List Char)} {segment : List Char}
    (h : segment ∈ shorten file path) : segment ∈ path := by
  rw [shorten.eq_def] at h
  split at h
  · split at h
    · exact h
    · exact nomatch h
  · exact List.dropLast_subset _ h

theorem plainSegment_of_mem_appendSpecialSegments {file : Bool} {segments : List (List Char)}
    (hslash : ∀ segment ∈ segments, '/' ∉ segment) :
    ∀ path, (∀ segment ∈ path, PlainSegment segment) →
      ∀ segment ∈ appendSpecialSegments file path segments, PlainSegment segment := by
  induction segments with
  | nil => exact fun _ hpath => hpath
  | cons segment rest ih =>
      intro path hpath
      have ih := ih fun s hs => hslash s (List.mem_cons_of_mem segment hs)
      have hending : ∀ s ∈ (if rest = [] then [[]] else [] : List (List Char)),
          PlainSegment s := by
        intro s hs
        split at hs
        · rw [List.mem_singleton.mp hs]
          exact plainSegment_nil
        · exact nomatch hs
      rw [appendSpecialSegments]
      split
      · apply ih _
        intro s hs
        rcases List.mem_append.mp hs with hs | hs
        · exact hpath s (mem_of_mem_shorten hs)
        · exact hending s hs
      · split
        · apply ih _
          intro s hs
          rcases List.mem_append.mp hs with hs | hs
          · exact hpath s hs
          · exact hending s hs
        · rename_i hdouble hsingle
          apply ih _
          intro s hs
          rcases List.mem_append.mp hs with hs | hs
          · exact hpath s hs
          · rw [List.mem_singleton.mp hs]
            apply plainSegment_normalizeDrive
            exact plainSegment_percentEncode (hslash segment List.mem_cons_self)
              (by simpa using hsingle) (by simpa using hdouble)

theorem appendSpecialSegments_ne_nil {file : Bool} {segments : List (List Char)}
    (h : segments ≠ []) : ∀ path, appendSpecialSegments file path segments ≠ [] := by
  induction segments with
  | nil => exact (h rfl).elim
  | cons segment rest ih =>
      intro path
      cases rest with
      | nil =>
          simp only [appendSpecialSegments, ↓reduceIte]
          split
          · simp
          · split <;> simp
      | cons next rest =>
          have ih := ih (by simp)
          rw [appendSpecialSegments]
          split
          · exact ih _
          · split
            · exact ih _
            · exact ih _

theorem joinPath_appendSpecialSegments {file : Bool} (text : List Char) :
    ∃ path, joinPath (appendSpecialSegments file [] (text.splitOn '/')) = '/' :: path ∧
      PlainPath path := by
  have hne : appendSpecialSegments file [] (text.splitOn '/') ≠ [] :=
    appendSpecialSegments_ne_nil (List.splitOn_ne_nil '/' text) []
  refine ⟨_, joinPath_eq_cons_intercalate hne, plainPath_intercalate hne ?_⟩
  exact plainSegment_of_mem_appendSpecialSegments (fun _ => not_mem_of_mem_splitOn) [] (by simp)

/-- Without drive letters the two kinds of paths are the same. -/
theorem appendSpecialSegments_false (path segments : List (List Char)) :
    appendSpecialSegments false path segments = appendSegments path segments := by
  induction segments generalizing path with
  | nil => rfl
  | cons segment rest ih =>
      have hshorten : shorten false path = path.dropLast := by
        rw [shorten.eq_def]
        split <;> simp
      have hdrive : ∀ buffer, normalizeDrive false path buffer = buffer := by
        intro buffer
        rw [normalizeDrive.eq_def]
        split <;> simp
      simp only [appendSpecialSegments, appendSegments, hshorten, hdrive, ih]

theorem parsePath_plain (text : List Char) :
    parsePath text = [] ∨ ∃ path, parsePath text = '/' :: path ∧ PlainPath path := by
  cases text with
  | nil => exact Or.inl rfl
  | cons c rest =>
      apply Or.inr
      rw [parsePath, ← appendSpecialSegments_false]
      exact joinPath_appendSpecialSegments rest

theorem parseSpecialPath_plain (file : Bool) (text : List Char) :
    ∃ path, parseSpecialPath file text = '/' :: path ∧ PlainPath path := by
  simp only [parseSpecialPath]
  split <;> exact joinPath_appendSpecialSegments _

theorem parse_components {scheme rest : List Char} {url : Url}
    (h : parse ipv6 scheme rest = some url) :
    (∃ host, url.host = some host ∧ (host = [] ∨ PlainHost ipv6 host)) ∧
      (url.path = [] ∨ ∃ path, url.path = '/' :: path ∧ PlainPath path) := by
  simp only [parse, Option.bind_eq_bind, Option.bind_eq_some_iff, Option.some.injEq] at h
  obtain ⟨authority, hauthority, rfl⟩ := h
  refine ⟨⟨authority.host, rfl, ?_⟩, parsePath_plain _⟩
  simp only [parseAuthority] at hauthority
  split at hauthority
  · exact nomatch hauthority
  · obtain ⟨host, hhost, hrest⟩ := Option.bind_eq_some_iff.mp hauthority
    obtain ⟨port, _, heq⟩ := Option.bind_eq_some_iff.mp hrest
    obtain rfl := Option.some.inj heq
    exact parseHost_eq_some hhost

theorem clean_eq_self {text : List Char} (h : ∀ c ∈ text, 0x20 < c.toNat) :
    clean text = text := by
  have hkept : (text.rdropWhile fun c => c.toNat ≤ 0x20) = text := by
    rw [List.rdropWhile_eq_self_iff]
    intro hne
    have hlast := h _ (List.getLast_mem hne)
    simpa using hlast
  rw [clean, hkept, List.filter_eq_self]
  intro c hc
  have hcontrols : ∀ c ∈ ['\t', '\n', '\r'], c.toNat ≤ 0x20 := by simp
  suffices hmem : c ∉ ['\t', '\n', '\r'] by simpa using hmem
  exact fun hmem => Nat.not_le.mpr (h c hc) (hcontrols c hmem)

theorem lt_toNat_of_ne_space {c : Char} (hcontrol : c0ControlSet c = false) (hspace : c ≠ ' ') :
    0x20 < c.toNat := by
  have hne : c.toNat ≠ 0x20 := fun h => hspace (Char.toNat_inj.mp h)
  have hrange := c0ControlSet_eq_false_iff.mp hcontrol
  omega

theorem lt_toNat_of_querySet {c : Char} (h : querySet c = false) : 0x20 < c.toNat := by
  simp only [querySet, Bool.or_eq_false_iff] at h
  apply lt_toNat_of_ne_space h.1
  rintro rfl
  simp at h

/-- No character of a host has a meaning outside of it. -/
theorem PlainHost.of_mem {host : List Char} (h : PlainHost ipv6 host) {c : Char} (hc : c ∈ host) :
    0x20 < c.toNat ∧ c ≠ '@' ∧ endsAuthority c = false := by
  rcases h with ⟨_, hplain⟩ | ⟨address, rfl⟩
  · obtain ⟨hforbidden, hcontrol⟩ := hplain c hc
    refine ⟨lt_toNat_of_ne_space hcontrol ?_, ?_, ?_⟩
    · rintro rfl
      exact nomatch hforbidden
    · rintro rfl
      exact nomatch hforbidden
    · have hends : ∀ c ∈ ['/', '?', '#'], forbiddenHost c = true :=
        List.all_eq_true.mp (by decide)
      rw [endsAuthority, List.contains_eq_mem, decide_eq_false_iff_not]
      intro hmem
      exact Bool.noConfusion (hforbidden.symm.trans (hends c hmem))
  · have hbracketed : ∀ c ∈ '[' :: ("0123456789abcdef:".toList ++ [']']),
        decide (0x20 < c.toNat ∧ c ≠ '@' ∧ endsAuthority c = false) = true :=
      List.all_eq_true.mp (by decide)
    apply of_decide_eq_true
    apply hbracketed
    rcases List.mem_cons.mp hc with rfl | hc
    · exact List.mem_cons_self
    · refine List.mem_cons_of_mem _ (List.mem_append.mpr ?_)
      exact (List.mem_append.mp hc).imp_left (ipv6.serialize_plain address c)

theorem PlainHost.ne_nil {host : List Char} (h : PlainHost ipv6 host) : host ≠ [] := by
  rcases h with ⟨hne, _⟩ | ⟨address, rfl⟩
  · exact hne
  · simp

theorem parseHost_eq_self {host : List Char} (h : PlainHost ipv6 host) :
    parseHost ipv6 host = some host := by
  rcases h with ⟨hne, hplain⟩ | ⟨address, rfl⟩
  · obtain ⟨c, rest, rfl⟩ := List.exists_cons_of_ne_nil hne
    have hbracket : (c :: rest).head? ≠ some '[' := by
      rintro ⟨⟩
      exact nomatch (hplain '[' List.mem_cons_self).1
    have hforbidden : ¬ (c :: rest).any forbiddenHost = true := by
      simp only [List.any_eq_true, not_exists, not_and, Bool.not_eq_true]
      exact fun d hd => (hplain d hd).1
    rw [parseHost, if_neg hbracket, if_neg hforbidden,
      percentEncode_eq_self fun d hd => (hplain d hd).2]
  · have hlast : ('[' :: (ipv6.serialize address ++ [']'])).getLast? = some ']' := by
      rw [← List.cons_append, List.getLast?_concat]
    rw [parseHost, if_pos (by rfl), if_pos hlast, List.tail_cons, List.dropLast_concat,
      ipv6.parse_serialize]
    rfl

theorem splitPort_of_not_mem {host : List Char} (h : ∀ c ∈ host, c ≠ ':' ∧ c ≠ '[') :
    splitPort false host = (host, none) := by
  induction host with
  | nil => rfl
  | cons c rest ih =>
      obtain ⟨hcolon, hbracket⟩ := h c List.mem_cons_self
      have hrest := ih fun d hd => h d (List.mem_cons_of_mem c hd)
      simp [splitPort, hcolon, hbracket, hrest]

theorem splitPort_of_closing {text : List Char} (h : ']' ∉ text) :
    splitPort true (text ++ [']']) = (text ++ [']'], none) := by
  induction text with
  | nil => rfl
  | cons c rest ih =>
      have hne : c ≠ ']' := fun heq => h (by simp [heq])
      have hrest := ih fun hmem => h (List.mem_cons_of_mem c hmem)
      simp [splitPort, hne, hrest]

theorem splitPort_eq_self {host : List Char} (h : PlainHost ipv6 host) :
    splitPort false host = (host, none) := by
  rcases h with ⟨_, hplain⟩ | ⟨address, rfl⟩
  · apply splitPort_of_not_mem
    intro c hc
    constructor <;> rintro rfl <;> exact nomatch (hplain _ hc).1
  · have hclosing : ']' ∉ ipv6.serialize address := by
      intro hmem
      have hdigit := ipv6.serialize_plain address _ hmem
      revert hdigit
      decide
    simp [splitPort, splitPort_of_closing hclosing]

theorem parseAuthority_eq_self {host : List Char} (h : PlainHost ipv6 host) :
    parseAuthority ipv6 host =
      some { username := [], password := [], host, port := none } := by
  have hat : ∀ c ∈ host, decide (c ≠ '@') = true := fun c hc => by simp [(h.of_mem hc).2.1]
  rw [parseAuthority, List.rdropWhile_eq_nil_iff.mpr hat, List.rtakeWhile_eq_self_iff.mpr hat,
    splitPort_eq_self h]
  simp [h.ne_nil, parseHost_eq_self h, parsePort, percentEncode]

theorem appendSegments_eq_append {segments : List (List Char)}
    (h : ∀ segment ∈ segments, PlainSegment segment) :
    ∀ path, appendSegments path segments = path ++ segments := by
  induction segments with
  | nil => simp [appendSegments]
  | cons segment rest ih =>
      intro path
      have hsegment := h segment List.mem_cons_self
      have hrest := ih fun s hs => h s (List.mem_cons_of_mem segment hs)
      simp [appendSegments, percentEncode_eq_self hsegment.unencoded, hsegment.not_singleDot,
        hsegment.not_doubleDot, hrest]

theorem parsePath_eq_self {path : List Char} (h : PlainPath path) :
    parsePath ('/' :: path) = '/' :: path := by
  rw [parsePath, appendSegments_eq_append fun segment hmem => h.plainSegment hmem,
    List.nil_append, joinPath_splitOn]

theorem takeWhile_append_stop {p : Char → Bool} {text rest : List Char} {c : Char}
    (h : ∀ d ∈ text, p d = true) (hc : p c = false) :
    (text ++ c :: rest).takeWhile p = text := by
  rw [List.takeWhile_append_of_pos h, List.takeWhile_cons_of_neg (by simp [hc]), List.append_nil]

theorem dropWhile_append_stop {p : Char → Bool} {text rest : List Char} {c : Char}
    (h : ∀ d ∈ text, p d = true) (hc : p c = false) :
    (text ++ c :: rest).dropWhile p = c :: rest := by
  rw [List.dropWhile_append_of_pos h, List.dropWhile_cons_of_neg (by simp [hc])]

/-- A text of plain components is the URL with these components. -/
theorem parse_plain (scheme : List Char) {host path query : List Char}
    (hhost : PlainHost ipv6 host) (hpath : PlainPath path)
    (hquery : ∀ c ∈ query, querySet c = false) :
    parse ipv6 scheme (host ++ '/' :: (path ++ '?' :: query)) =
      some
        { scheme, username := [], password := [], host := some host, port := none
          path := '/' :: path, query := some query, fragment := none } := by
  have hclean : clean (host ++ '/' :: (path ++ '?' :: query)) =
      host ++ '/' :: (path ++ '?' :: query) := by
    apply clean_eq_self
    intro c hc
    simp only [List.mem_append, List.mem_cons] at hc
    rcases hc with hc | rfl | hc | rfl | hc
    · exact (hhost.of_mem hc).1
    · decide
    · have hunencoded := hpath.1 c hc
      rw [pathSet, Bool.or_eq_false_iff] at hunencoded
      exact lt_toNat_of_querySet hunencoded.1
    · decide
    · exact lt_toNat_of_querySet (hquery c hc)
  have hauthority : ∀ c ∈ host, (!endsAuthority c) = true := fun c hc => by
    simp [(hhost.of_mem hc).2.2]
  have hends : ∀ c ∈ '/' :: path, (!endsPath c) = true := by
    intro c hc
    rcases List.mem_cons.mp hc with rfl | hc
    · decide
    · have hends : ∀ c ∈ ['?', '#'], pathSet c = true := List.all_eq_true.mp (by decide)
      rw [endsPath, List.contains_eq_mem, Bool.not_eq_true', decide_eq_false_iff_not]
      exact fun hmem => Bool.noConfusion ((hpath.1 c hc).symm.trans (hends c hmem))
  have hfragment : ∀ c ∈ '?' :: query, decide (c ≠ '#') = true := by
    intro c hc
    rcases List.mem_cons.mp hc with rfl | hc
    · decide
    · apply decide_eq_true
      rintro rfl
      exact nomatch hquery _ hc
  have htake : ('/' :: (path ++ '?' :: query)).takeWhile (!endsPath ·) = '/' :: path := by
    rw [← List.cons_append]
    exact takeWhile_append_stop hends (by decide)
  have hdrop : ('/' :: (path ++ '?' :: query)).dropWhile (!endsPath ·) = '?' :: query := by
    rw [← List.cons_append]
    exact dropWhile_append_stop hends (by decide)
  rw [parse, hclean, takeWhile_append_stop hauthority (by decide),
    dropWhile_append_stop hauthority (by decide), parseAuthority_eq_self hhost]
  simp only [htake, hdrop, List.takeWhile_eq_self_iff.mpr hfragment,
    List.dropWhile_eq_nil_iff.mpr hfragment, Option.bind_eq_bind, Option.bind_some,
    parsePath_eq_self hpath, percentEncode_eq_self hquery]

end DomainKmip.Library.UrlParsing
