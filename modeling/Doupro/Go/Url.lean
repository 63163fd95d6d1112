import Doupro.Go.Strings
import Mathlib.Data.List.Basic

/-!
# Texts and URLs

`net/url` on lists of characters: where a URL leads is its scheme and its host. Escapes in
a path and a user name are kept as they are written.
-/

namespace Doupro

/-- A Go string. -/
abbrev Text := List Char

/-- `==` on texts is equality. -/
instance : LawfulBEq Text := inferInstance

namespace Text

/-- `strings.Cut` at a character: what is before it, and what is after it if it occurs. -/
def cut (sep : Char) : Text → Text × Option Text
  | [] => ([], none)
  | c :: rest =>
    if c = sep then ([], some rest)
    else
      let (before, after) := cut sep rest
      (c :: before, after)

/-- `strings.Split` at a character. -/
def split (sep : Char) : Text → List Text
  | [] => [[]]
  | c :: rest =>
    if c = sep then [] :: split sep rest
    else match split sep rest with
      | [] => [[c]]
      | part :: parts => (c :: part) :: parts

/-- The parts around the last occurrence of a character. -/
def cutLast (sep : Char) (s : Text) : Option (Text × Text) :=
  match cut sep s.reverse with
  | (_, none) => none
  | (after, some before) => some (before.reverse, after.reverse)

/-- `strings.LastIndex` of a character; -1 if there is none. -/
def lastIndex (sep : Char) (s : Text) : Int := (s.length : Int) - 1 - s.reverse.idxOf sep

/-- `strings.HasPrefix`, and the rest. -/
def afterPrefix : (start : Text) → Text → Option Text
  | [], s => some s
  | _ :: _, [] => none
  | p :: start, c :: s => if p = c then afterPrefix start s else none

/-- `strings.TrimPrefix`. -/
def trimStart (start s : Text) : Text := (afterPrefix start s).getD s

/-- `strings.TrimSuffix`. -/
def trimEnd (tail s : Text) : Text := (trimStart tail.reverse s.reverse).reverse

/-- `strings.Contains`. -/
def contains (s sub : Text) : Bool := s.tails.any fun t => sub.isPrefixOf t

/-- `strings.Trim` of one character. -/
def trimChar (c : Char) (s : Text) : Text :=
  ((s.dropWhile (· = c)).reverse.dropWhile (· = c)).reverse

/-- The representative of a rune under simple case folding. Outside ASCII, only the Kelvin
sign and the long s fold to a letter of ASCII. -/
def foldRune (c : Char) : Char :=
  if 'A' ≤ c ∧ c ≤ 'Z' then Char.ofNat (c.toNat + 32)
  else if c.toNat = 0x212A then 'k'
  else if c.toNat = 0x17F then 's'
  else c

/-- `strings.EqualFold`. -/
def equalFold (a b : Text) : Bool := a.map foldRune = b.map foldRune

theorem equalFold_trans {a b c : Text} (hab : equalFold a b = true) (hbc : equalFold b c = true) :
    equalFold a c = true := by
  simp only [equalFold, decide_eq_true_eq] at hab hbc ⊢
  exact hab.trans hbc

@[simp] theorem equalFold_refl (a : Text) : equalFold a a = true := by simp [equalFold]

/-- A part without the separator is not cut. -/
theorem cut_append {sep : Char} {before : Text} (h : sep ∉ before) (rest : Text) :
    cut sep (before ++ rest) = (before ++ (cut sep rest).1, (cut sep rest).2) := by
  induction before with
  | nil => rfl
  | cons c before ih =>
    have hne : c ≠ sep := fun heq => h (heq ▸ List.mem_cons_self)
    have hrest : sep ∉ before := fun hmem => h (List.mem_cons_of_mem c hmem)
    rw [List.cons_append, cut, if_neg hne, ih hrest]
    rfl

theorem cut_of_notMem {sep : Char} {s : Text} (h : sep ∉ s) : cut sep s = (s, none) := by
  simpa [cut] using cut_append h []

theorem cutLast_of_notMem {sep : Char} {s : Text} (h : sep ∉ s) : cutLast sep s = none := by
  rw [cutLast, cut_of_notMem (by simpa using h)]

theorem afterPrefix_eq_some {start s rest : Text} :
    afterPrefix start s = some rest ↔ s = start ++ rest := by
  induction start generalizing s with
  | nil => simp [afterPrefix, eq_comm]
  | cons p start ih =>
    cases s with
    | nil => simp [afterPrefix]
    | cons c s =>
      rw [afterPrefix]
      by_cases hp : p = c
      · simp [hp, ih]
      · simp [hp, Ne.symm hp]

/-! ### Splitting -/

variable {sep : Char}

theorem split_ne_nil (s : Text) : split sep s ≠ [] := by
  cases s with
  | nil => simp [split]
  | cons c rest =>
    rw [split]
    split
    · simp
    · split <;> simp

/-- A text without the separator is one part. -/
theorem split_of_notMem {s : Text} (h : sep ∉ s) : split sep s = [s] := by
  induction s with
  | nil => rfl
  | cons c rest ih =>
    have hne : c ≠ sep := fun heq => h (heq ▸ List.mem_cons_self)
    have hrest : sep ∉ rest := fun hmem => h (List.mem_cons_of_mem c hmem)
    rw [split, if_neg hne, ih hrest]

theorem split_append {before : Text} (h : sep ∉ before) (rest : Text) :
    split sep (before ++ sep :: rest) = before :: split sep rest := by
  induction before with
  | nil => simp [split]
  | cons c before ih =>
    have hne : c ≠ sep := fun heq => h (heq ▸ List.mem_cons_self)
    have hrest : sep ∉ before := fun hmem => h (List.mem_cons_of_mem c hmem)
    rw [List.cons_append, split, if_neg hne, ih hrest]

/-- The parts, with the separator between them, are the text. -/
theorem split_cons {s part : Text} {parts : List Text} (h : split sep s = part :: parts) :
    (parts = [] ∧ s = part) ∨ ∃ rest, s = part ++ sep :: rest ∧ split sep rest = parts := by
  induction s generalizing part parts with
  | nil =>
    obtain ⟨rfl, rfl⟩ : [] = part ∧ [] = parts := by simpa [split] using h
    exact .inl ⟨rfl, rfl⟩
  | cons c rest ih =>
    rw [split] at h
    split at h
    · next heq =>
      obtain ⟨rfl, rfl⟩ := List.cons.inj h
      exact .inr ⟨rest, by simp [heq], rfl⟩
    · cases hrest : split sep rest with
      | nil => exact absurd hrest (split_ne_nil rest)
      | cons first more =>
        rw [hrest] at h
        obtain ⟨rfl, rfl⟩ := List.cons.inj h
        rcases ih hrest with ⟨hnil, heq⟩ | ⟨after, heq, hafter⟩
        · exact .inl ⟨hnil, by rw [heq]⟩
        · exact .inr ⟨after, by rw [heq]; rfl, hafter⟩

theorem split_intercalate {parts : List Text} (hne : parts ≠ [])
    (hparts : ∀ part ∈ parts, sep ∉ part) : split sep ([sep].intercalate parts) = parts := by
  induction parts with
  | nil => exact absurd rfl hne
  | cons first rest ih =>
    have hfirst := hparts first List.mem_cons_self
    cases rest with
    | nil => rw [List.intercalate_singleton, split_of_notMem hfirst]
    | cons second rest =>
      have hrest := ih (by simp) fun part hpart => hparts part (List.mem_cons_of_mem _ hpart)
      rw [List.intercalate_cons_cons, List.append_assoc, List.singleton_append,
        split_append hfirst, hrest]

/-- No part has the separator. -/
theorem notMem_of_mem_split {s part : Text} (h : part ∈ split sep s) : sep ∉ part := by
  induction s generalizing part with
  | nil =>
    rw [split, List.mem_singleton] at h
    simp [h]
  | cons c rest ih =>
    rw [split] at h
    split at h
    · rcases List.mem_cons.mp h with rfl | h
      · simp
      · exact ih h
    · next hne =>
      cases hrest : split sep rest with
      | nil => exact absurd hrest (split_ne_nil rest)
      | cons first more =>
        rw [hrest] at h ih
        rcases List.mem_cons.mp h with rfl | h
        · have hfirst := ih List.mem_cons_self
          simp [Ne.symm hne, hfirst]
        · exact ih (List.mem_cons_of_mem _ h)

/-- A character that does not separate goes into the last part. -/
theorem split_concat {c : Char} (hc : c ≠ sep) (s : Text) : ∃ init last,
    split sep s = init ++ [last] ∧ split sep (s ++ [c]) = init ++ [last ++ [c]] := by
  induction s with
  | nil => exact ⟨[], [], rfl, by simp [split, hc]⟩
  | cons d rest ih =>
    obtain ⟨init, last, hrest, hmore⟩ := ih
    rw [List.cons_append, split, split, hrest, hmore]
    split
    · exact ⟨[] :: init, last, rfl, rfl⟩
    · cases init with
      | nil => exact ⟨[], d :: last, rfl, rfl⟩
      | cons first init => exact ⟨(d :: first) :: init, last, rfl, rfl⟩

/-- Parts without the separator can be told from the text they are joined to. -/
theorem intercalate_inj {parts others : List Text} (hparts : ∀ part ∈ parts, sep ∉ part)
    (hothers : ∀ part ∈ others, sep ∉ part) (hne : parts ≠ []) (hothersNe : others ≠ [])
    (h : [sep].intercalate parts = [sep].intercalate others) : parts = others := by
  rw [← split_intercalate hne hparts, h, split_intercalate hothersNe hothers]

theorem mem_intercalate {c : Char} {parts : List Text} (h : c ∈ [sep].intercalate parts) :
    c = sep ∨ ∃ part ∈ parts, c ∈ part := by
  induction parts with
  | nil => simp at h
  | cons first rest ih =>
    cases rest with
    | nil => exact .inr ⟨first, List.mem_cons_self, by simpa using h⟩
    | cons second rest =>
      rw [List.intercalate_cons_cons, List.append_assoc, List.mem_append] at h
      rcases h with hfirst | hrest
      · exact .inr ⟨first, List.mem_cons_self, hfirst⟩
      · rcases List.mem_append.mp hrest with hsep | hrest
        · exact .inl (List.mem_singleton.mp hsep)
        · rcases ih hrest with hsep | ⟨part, hpart, hc⟩
          · exact .inl hsep
          · exact .inr ⟨part, List.mem_cons_of_mem _ hpart, hc⟩

end Text

/-! ### URLs -/

structure URL where
  scheme : Text := []
  /-- The opaque data of a URL without slashes. -/
  rootless : Text := []
  user : Option Text := none
  /-- The host and its port. -/
  host : Text := []
  path : Text := []
  query : Text := []
  fragment : Text := []
  deriving DecidableEq

namespace URL

open Text

def isLetter (c : Char) : Bool := ('a' ≤ c && c ≤ 'z') || ('A' ≤ c && c ≤ 'Z')

def isDigit (c : Char) : Bool := '0' ≤ c && c ≤ '9'

/-- `getScheme`: the scheme and the rest, or none for a URL that starts with a colon. -/
def getScheme (raw : Text) : Option (Text × Text) :=
  let rec go (seen : Text) : Text → Option (Text × Text)
    | [] => some ([], raw)
    | c :: rest =>
      if isLetter c then go (seen ++ [c]) rest
      else if isDigit c || c = '+' || c = '-' || c = '.' then
        if seen = [] then some ([], raw) else go (seen ++ [c]) rest
      else if c = ':' then if seen = [] then none else some (seen, rest)
      else some ([], raw)
  go [] raw

/-- The characters `url.Parse` lets stand for themselves in a host. -/
def hostChar (c : Char) : Bool :=
  isLetter c || isDigit c || ("-_.~!$&'()*+,;=:[]<>\"".toList.contains c) || 0x80 ≤ c.toNat

/-- `validOptionalPort`: empty, or a colon and digits. -/
def validOptionalPort : Text → Bool
  | [] => true
  | ':' :: digits => digits.all isDigit
  | _ => false

/-- `parseHost`. Escapes are refused, but for those of characters outside ASCII. -/
def parseHost (host : Text) : Option Text :=
  let port := match cutLast ':' host with
    | none => []
    | some (_, digits) => ':' :: digits
  if host.head? = some '[' then
    match cutLast ']' host with
    | none => none
    | some (_, port) => if validOptionalPort port && host.all hostChar then some host else none
  else if validOptionalPort port && host.all hostChar then some host
  else none

/-- `validUserinfo`. -/
def validUserinfo (user : Text) : Bool :=
  user.all fun c => isLetter c || isDigit c || "-._:~!$&'()*+,;=%@".toList.contains c

/-- `parseAuthority`. -/
def parseAuthority (authority : Text) : Option (Option Text × Text) :=
  match cutLast '@' authority with
  | none => (parseHost authority).map fun host => (none, host)
  | some (user, host) => match parseHost host with
    | none => none
    | some host => if validUserinfo user then some (some user, host) else none

/-- What follows the scheme. -/
def parseRest (scheme rest : Text) (fragment : Text) : Option URL :=
  let (rest, query) := cut '?' rest
  let url : URL := { scheme := scheme.map foldRune, query := query.getD [], fragment }
  match afterPrefix ['/', '/'] rest with
  | some authority =>
    if scheme ≠ [] ∨ rest.take 3 ≠ ['/', '/', '/'] then
      let (authority, path) := cut '/' authority
      (parseAuthority authority).map fun (user, host) =>
        { url with user, host, path := match path with
          | none => []
          | some path => '/' :: path }
    else some { url with path := rest }
  | none =>
    if rest.head? ≠ some '/' then
      if scheme ≠ [] then some { url with rootless := rest }
      else if ':' ∈ (cut '/' rest).1 then none
      else some { url with path := rest }
    else some { url with path := rest }

/-- `url.Parse`. -/
def parse (raw : Text) : Option URL :=
  let (raw, fragment) := cut '#' raw
  if raw.any fun c => c.toNat < 0x20 || c.toNat = 0x7F then none
  else match getScheme raw with
    | none => none
    | some (scheme, rest) => parseRest scheme rest (fragment.getD [])

/-- The loop of `resolvePath` over the segments of a path. -/
def resolveSegments : List Text → List Text → List Text
  | done, [] => done
  | done, ['.'] :: rest => resolveSegments done rest
  | done, ['.', '.'] :: rest => resolveSegments done.dropLast rest
  | done, segment :: rest => resolveSegments (done ++ [segment]) rest

/-- `resolvePath`. -/
def resolvePath (base ref : Text) : Text :=
  let full :=
    if ref = [] then base
    else if ref.head? = some '/' then ref
    else ((cutLast '/' base).elim [] fun (directory, _) => directory ++ ['/']) ++ ref
  if full = [] then []
  else
    let segments := Text.split '/' full
    let tail := if segments.getLast? = some ['.'] ∨ segments.getLast? = some ['.', '.'] then ['/'] else []
    let resolved := '/' :: (['/'].intercalate (resolveSegments [] segments) ++ tail)
    match resolved with
    | '/' :: '/' :: rest => '/' :: rest
    | _ => resolved

/-- `URL.ResolveReference`. -/
def resolveReference (base ref : URL) : URL :=
  let url := { ref with scheme := if ref.scheme = [] then base.scheme else ref.scheme }
  if ref.scheme ≠ [] ∨ ref.host ≠ [] ∨ ref.user.isSome then
    { url with path := resolvePath ref.path [] }
  else if ref.rootless ≠ [] then { url with user := none, host := [], path := [] }
  else
    let url := if ref.path = [] ∧ ref.query = [] then
        { url with
          query := base.query
          fragment := if ref.fragment = [] then base.fragment else ref.fragment }
      else url
    if ref.path = [] ∧ base.rootless ≠ [] then
      { url with rootless := base.rootless, user := none, host := [], path := [] }
    else
      { url with host := base.host, user := base.user, path := resolvePath base.path ref.path }

/-- `URL.Hostname`: the host without its port. -/
def hostname (u : URL) : Text :=
  if u.host.head? = some '[' then (cut ']' (u.host.drop 1)).1
  else match cutLast ':' u.host with
    | none => u.host
    | some (name, _) => name

/-- A host of letters, digits, dots and dashes, and a port if there is one. -/
def plainHost (host : Text) : Bool :=
  host.all fun c => isLetter c || isDigit c || c = '.' || c = '-' || c = '_' || c = ':'

theorem plainHost_notMem {host : Text} (h : plainHost host = true) {c : Char}
    (hc : c ∈ ['/', '?', '#', '@', '[', '%']) : c ∉ host := by
  intro hmem
  simp only [plainHost, List.all_eq_true] at h
  have hplain := h c hmem
  have hchars : ['/', '?', '#', '@', '[', '%'].all (fun c => !(isLetter c || isDigit c || c = '.' ||
      c = '-' || c = '_' || c = ':')) = true := by decide
  have hstrange := List.all_eq_true.mp hchars c hc
  rw [hplain] at hstrange
  cases hstrange

theorem parseHost_eq {host parsed : Text} (h : parseHost host = some parsed) : parsed = host := by
  unfold parseHost at h
  repeat' split at h
  all_goals simp_all

theorem getScheme_https (rest : Text) :
    getScheme ("https:".toList ++ rest) = some ("https".toList, rest) := by
  simp [getScheme, getScheme.go, isLetter, isDigit]

theorem parseAuthority_plain {host : Text} {user : Option Text} {parsed : Text}
    (hplain : plainHost host = true) (h : parseAuthority host = some (user, parsed)) :
    parsed = host := by
  have hat : cutLast '@' host = none :=
    cutLast_of_notMem (plainHost_notMem hplain (by decide))
  rw [parseAuthority, hat] at h
  obtain ⟨host', hhost, heq⟩ := Option.map_eq_some_iff.mp h
  obtain ⟨-, rfl⟩ := Prod.mk.inj heq
  exact parseHost_eq hhost

/-- The URL `https://<host>/...` leads to that host, if it is one at all. -/
theorem parse_https {host rest : Text} {u : URL} (hplain : plainHost host = true)
    (h : parse ("https:".toList ++ ("//".toList ++ (host ++ '/' :: rest))) = some u) :
    u.scheme = "https".toList ∧ u.host = host := by
  have hhash : '#' ∉ "https:".toList ++ ("//".toList ++ host) := by
    simpa using plainHost_notMem hplain (c := '#') (by decide)
  have hquery : '?' ∉ "//".toList ++ host := by
    simpa using plainHost_notMem hplain (c := '?') (by decide)
  have hslash : '/' ∉ host := plainHost_notMem hplain (by decide)
  have hraw : "https:".toList ++ ("//".toList ++ (host ++ '/' :: rest)) =
      ("https:".toList ++ ("//".toList ++ host)) ++ '/' :: rest := by simp
  rw [parse, hraw, cut_append hhash] at h
  dsimp only at h
  split at h
  · cases h
  · rw [List.append_assoc, getScheme_https] at h
    unfold parseRest at h
    dsimp only at h
    rw [show (cut '#' ('/' :: rest)).1 = '/' :: (cut '#' rest).1 by simp [cut],
      cut_append hquery, show (cut '?' ('/' :: (cut '#' rest).1)).1 =
        '/' :: (cut '?' (cut '#' rest).1).1 by simp [cut]] at h
    have hauthority : ∀ tail : Text, afterPrefix ['/', '/'] ("//".toList ++ host ++ '/' :: tail) =
        some (host ++ '/' :: tail) := by
      intro tail
      simp [afterPrefix]
    simp only [hauthority] at h
    rw [if_pos (.inl (by decide)), cut_append hslash] at h
    obtain ⟨⟨user, parsed⟩, hparsed, rfl⟩ := Option.map_eq_some_iff.mp h
    have hhost : (host ++ (cut '/' ('/' :: (cut '?' (cut '#' rest).1).1)).1) = host := by
      simp [cut]
    rw [hhost] at hparsed
    have hscheme : "https".toList.map foldRune = "https".toList := by decide
    exact ⟨hscheme, parseAuthority_plain hplain hparsed⟩

example : (parse "https://user@auth.docker.io:443/token?a=b#c".toList).map URL.host =
    some "auth.docker.io:443".toList := by decide

end URL
end Doupro
