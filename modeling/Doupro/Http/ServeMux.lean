import Doupro.Go.Path

/-!
# Request routing

`http.ServeMux` with method patterns, single wildcards, trailing slashes and `{$}`: a tree
search that prefers a literal to a wildcard and a wildcard to the rest of the path.
-/

namespace Doupro.ServeMux

open Text Doupro.Path

/-- A segment of a pattern. `{$}` is the literal slash. -/
inductive Piece where
  | literal (text : Text)
  | wildcard (name : Text)
  /-- A trailing slash: whatever is left of the path. -/
  | rest
  deriving DecidableEq

structure Route (α : Type) where
  /-- Empty if the pattern names no method. -/
  method : Text
  pieces : List Piece
  handler : α
  deriving DecidableEq

/-- One part of a pattern between two slashes; the last one is empty after a trailing slash. -/
def pieceOf (part : Text) : Piece :=
  if part = "{$}".toList then .literal ['/']
  else if part.head? = some '{' then .wildcard part.tail.dropLast
  else .literal part

def piecesOf : List Text → List Piece
  | [] => []
  | [[]] => [.rest]
  | part :: parts => pieceOf part :: piecesOf parts

/-- `parsePattern`, for the patterns that name no host. -/
def parsePattern {α : Type} (pattern : String) (handler : α) : Route α where
  method := if ' ' ∈ pattern.toList then (cut ' ' pattern.toList).1 else []
  pieces := piecesOf (split '/' ((cut ' ' pattern.toList).2.getD pattern.toList).tail)
  handler := handler

/-! ### Paths -/

/-- The segment a trailing slash makes. -/
def slash : Bytes := [0x2F]

/-- `pathUnescape` of `net/http`: what cannot be read stays as it is. -/
def segmentBytes (part : Text) : Bytes := (pathUnescape part).getD part.bytes

/-- What `firstSegment` finds one after another. -/
def segmentsOf : List Text → List Bytes
  | [] => []
  | [[]] => [slash]
  | part :: parts => segmentBytes part :: segmentsOf parts

def segments (path : Text) : List Bytes := segmentsOf (split '/' path.tail)

/-! ### Matching -/

def Piece.isLiteral (seg : Bytes) : Piece → Bool
  | .literal text => text.bytes = seg
  | _ => false

def Piece.isWildcard : Piece → Bool
  | .wildcard _ => true
  | _ => false

variable {α : Type}

/-- The children of a node along the pieces of a kind. -/
def descend (kind : Piece → Bool) (nodes : List (List Piece × α)) : List (List Piece × α) :=
  nodes.filterMap fun
    | (piece :: pieces, a) => if kind piece then some (pieces, a) else none
    | ([], _) => none

/-- The pattern that ends at a node. -/
def leaf (nodes : List (List Piece × α)) : Option α :=
  (nodes.find? fun node => node.1.isEmpty).map Prod.snd

/-- `routingNode.matchPath`. -/
def matchPath : List Bytes → List (List Piece × α) → (values : List Bytes) →
    Option (α × List Bytes)
  | [], nodes, values => (leaf nodes).map fun a => (a, values)
  | seg :: rest, nodes, values =>
    ((matchPath rest (descend (Piece.isLiteral seg) nodes) values).or
      (if seg = slash then none
        else matchPath rest (descend Piece.isWildcard nodes) (values ++ [seg]))).or
      ((leaf (descend (· = .rest) nodes)).map fun a => (a, values))

def ofMethod (mux : List (Route α)) (method : Text) : List (List Piece × Route α) :=
  (mux.filter fun route => decide (route.method = method)).map fun route => (route.pieces, route)

/-- `routingNode.matchMethodAndPath`. -/
def matchMethodAndPath (mux : List (Route α)) (method path : Text) :
    Option (Route α × List Bytes) :=
  ((matchPath (segments path) (ofMethod mux method) []).or
    (if method = "HEAD".toList then matchPath (segments path) (ofMethod mux "GET".toList) []
      else none)).or
    (matchPath (segments path) (ofMethod mux []) [])

/-- `exactMatch`. -/
def exactMatch (path : Text) (route : Route α) : Bool :=
  route.pieces.getLast? ≠ some .rest ||
    (path.getLast? = some '/' && route.pieces.length == path.count '/')

/-- The path is that of a directory without its slash, which `matchOrRedirect` adds. -/
def redirectsToSlash (mux : List (Route α)) (method path : Text) : Bool :=
  !((matchMethodAndPath mux method path).any fun found => exactMatch path found.1) &&
    path.getLast? ≠ some '/' &&
    (matchMethodAndPath mux method (path ++ ['/'])).any fun found =>
      exactMatch (path ++ ['/']) found.1

/-- What becomes of a request. -/
inductive Found (α : Type) where
  | badRequest
  | redirect
  | handler (route : Route α) (values : List Bytes)
  | methodNotAllowed
  | notFound
  deriving DecidableEq

/-- `ServeMux.findHandler`, given the path of the request line. -/
def findHandler (mux : List (Route α)) (method raw : Text) : Found α :=
  match pathUnescape raw with
  | none => .badRequest
  | some decoded =>
    let escaped := escapedPath raw decoded
    let path := if method = "CONNECT".toList then escaped else cleanPath escaped
    if redirectsToSlash mux method path then .redirect
    else if path ≠ escaped then .redirect
    else match matchMethodAndPath mux method path with
      | some (route, values) => .handler route values
      | none =>
        if mux.any fun route => (matchMethodAndPath mux route.method path).isSome ||
            (matchMethodAndPath mux route.method (path ++ ['/'])).isSome then .methodNotAllowed
        else .notFound

/-! ### What a match says -/

/-- The values a pattern takes from a path it matches. -/
def capture : List Piece → List Bytes → Option (List Bytes)
  | [], [] => some []
  | [.rest], _ :: _ => some []
  | .literal text :: pieces, seg :: rest =>
    if text.bytes = seg then capture pieces rest else none
  | .wildcard _ :: pieces, seg :: rest =>
    if seg = slash then none else (capture pieces rest).map (seg :: ·)
  | _, _ => none

theorem mem_descend {kind : Piece → Bool} {nodes : List (List Piece × α)} {pieces : List Piece}
    {a : α} : (pieces, a) ∈ descend kind nodes ↔
      ∃ piece, kind piece = true ∧ (piece :: pieces, a) ∈ nodes := by
  unfold descend
  rw [List.mem_filterMap]
  constructor
  · rintro ⟨⟨pieces', a'⟩, hmem, hsome⟩
    cases pieces' with
    | nil => cases hsome
    | cons piece pieces' =>
      simp only at hsome
      split at hsome
      · next hkind =>
        obtain ⟨rfl, rfl⟩ := Prod.mk.inj (Option.some.inj hsome)
        exact ⟨piece, hkind, hmem⟩
      · cases hsome
  · rintro ⟨piece, hkind, hmem⟩
    exact ⟨_, hmem, by simp only [hkind, if_true]⟩

theorem leaf_eq_some {nodes : List (List Piece × α)} {a : α} (h : leaf nodes = some a) :
    ([], a) ∈ nodes := by
  unfold leaf at h
  obtain ⟨⟨pieces, a'⟩, hfound, rfl⟩ := Option.map_eq_some_iff.mp h
  have hmem := List.mem_of_find?_eq_some hfound
  have hempty : pieces = [] := by simpa using List.find?_some hfound
  rwa [hempty] at hmem

theorem leaf_isSome {nodes : List (List Piece × α)} {a : α} (h : ([], a) ∈ nodes) :
    (leaf nodes).isSome = true := by
  unfold leaf
  rw [Option.isSome_map, List.find?_isSome]
  exact ⟨_, h, rfl⟩

/-- A match is a match of a pattern that was registered. -/
theorem matchPath_sound {segs : List Bytes} {nodes : List (List Piece × α)} {values : List Bytes}
    {a : α} {out : List Bytes} (h : matchPath segs nodes values = some (a, out)) :
    ∃ pieces more, (pieces, a) ∈ nodes ∧ capture pieces segs = some more ∧ out = values ++ more := by
  induction segs generalizing nodes values with
  | nil =>
    obtain ⟨a', hleaf, heq⟩ := Option.map_eq_some_iff.mp h
    obtain ⟨rfl, rfl⟩ := Prod.mk.inj heq
    exact ⟨[], [], leaf_eq_some hleaf, rfl, by simp⟩
  | cons seg rest ih =>
    rw [matchPath, Option.or_eq_some_iff, Option.or_eq_some_iff] at h
    rcases h with (hliteral | ⟨-, hwild⟩) | ⟨-, hrest⟩
    · obtain ⟨pieces, more, hmem, hcapture, rfl⟩ := ih hliteral
      obtain ⟨piece, hkind, hmem⟩ := mem_descend.mp hmem
      refine ⟨piece :: pieces, more, hmem, ?_, rfl⟩
      cases piece with
      | literal text => rw [capture, if_pos (by simpa [Piece.isLiteral] using hkind), hcapture]
      | wildcard name => cases hkind
      | rest => cases hkind
    · split at hwild
      · cases hwild
      · next hslash =>
        obtain ⟨pieces, more, hmem, hcapture, rfl⟩ := ih hwild
        obtain ⟨piece, hkind, hmem⟩ := mem_descend.mp hmem
        refine ⟨piece :: pieces, seg :: more, hmem, ?_, by simp⟩
        cases piece with
        | wildcard name => rw [capture, if_neg hslash, hcapture, Option.map_some]
        | literal text => cases hkind
        | rest => cases hkind
    · obtain ⟨a', hleaf, heq⟩ := Option.map_eq_some_iff.mp hrest
      obtain ⟨rfl, rfl⟩ := Prod.mk.inj heq
      obtain ⟨piece, hkind, hmem⟩ := mem_descend.mp (leaf_eq_some hleaf)
      obtain rfl : piece = .rest := by simpa using hkind
      exact ⟨[.rest], [], hmem, rfl, by simp⟩

/-- A pattern that matches is enough for a match. -/
theorem matchPath_complete {segs : List Bytes} {nodes : List (List Piece × α)}
    {pieces : List Piece} {a : α} {more : List Bytes} (hmem : (pieces, a) ∈ nodes)
    (h : capture pieces segs = some more) (values : List Bytes) :
    (matchPath segs nodes values).isSome = true := by
  induction segs generalizing nodes pieces more values with
  | nil =>
    cases pieces with
    | nil => simpa [matchPath] using leaf_isSome hmem
    | cons piece pieces => cases piece <;> cases pieces <;> cases h
  | cons seg rest ih =>
    rw [matchPath, Option.isSome_or, Option.isSome_or, Bool.or_eq_true, Bool.or_eq_true]
    match pieces, h, hmem with
    | .literal text :: pieces, h, hmem =>
      rw [capture] at h
      split at h
      · next htext =>
        refine .inl (.inl (ih (mem_descend.mpr ⟨_, ?_, hmem⟩) h values))
        simpa [Piece.isLiteral] using htext
      · cases h
    | .wildcard name :: pieces, h, hmem =>
      rw [capture] at h
      split at h
      · cases h
      · next hslash =>
        obtain ⟨more, hcapture, rfl⟩ := Option.map_eq_some_iff.mp h
        rw [if_neg hslash]
        exact .inl (.inr (ih (mem_descend.mpr ⟨_, rfl, hmem⟩) hcapture _))
    | [.rest], h, hmem =>
      refine .inr ?_
      rw [Option.isSome_map]
      exact leaf_isSome (mem_descend.mpr ⟨.rest, by simp, hmem⟩)
    | [], h, _ => cases h
    | .rest :: _ :: _, h, _ => cases h

/-- The match of a path that only one handler's patterns match. -/
theorem matchPath_eq {segs : List Bytes} {nodes : List (List Piece × α)} {pieces : List Piece}
    {a : α} {more : List Bytes} (hmem : (pieces, a) ∈ nodes) (h : capture pieces segs = some more)
    (hunique : ∀ node ∈ nodes, (capture node.1 segs).isSome = true → node = (pieces, a)) :
    matchPath segs nodes [] = some (a, more) := by
  obtain ⟨⟨a', out⟩, hfound⟩ := Option.isSome_iff_exists.mp (matchPath_complete hmem h [])
  obtain ⟨pieces', more', hmem', hcapture, rfl⟩ := matchPath_sound hfound
  obtain ⟨rfl, rfl⟩ := Prod.mk.inj (hunique _ hmem' (by simp [hcapture]))
  rw [hcapture] at h
  obtain rfl := Option.some.inj h
  exact hfound

variable {mux : List (Route α)} {method path raw : Text} {route : Route α} {values : List Bytes}

theorem mem_ofMethod {pieces : List Piece} :
    (pieces, route) ∈ ofMethod mux method ↔
      route ∈ mux ∧ route.method = method ∧ route.pieces = pieces := by
  unfold ofMethod
  simp only [List.mem_map, List.mem_filter, decide_eq_true_eq, Prod.mk.injEq]
  constructor
  · rintro ⟨other, ⟨hmem, hmethod⟩, hpieces, rfl⟩
    exact ⟨hmem, hmethod, hpieces⟩
  · rintro ⟨hmem, hmethod, hpieces⟩
    exact ⟨route, ⟨hmem, hmethod⟩, hpieces, rfl⟩

/-- The methods a pattern serves: its own, `HEAD` if that is `GET`, or all. -/
def Serves (route : Route α) (method : Text) : Prop :=
  route.method = method ∨ (method = "HEAD".toList ∧ route.method = "GET".toList) ∨ route.method = []

theorem matchMethodAndPath_sound (h : matchMethodAndPath mux method path = some (route, values)) :
    route ∈ mux ∧ Serves route method ∧ capture route.pieces (segments path) = some values := by
  have hnode : ∀ {m : Text}, matchPath (segments path) (ofMethod mux m) [] = some (route, values) →
      route ∈ mux ∧ route.method = m ∧ capture route.pieces (segments path) = some values := by
    intro m hm
    obtain ⟨pieces, more, hmem, hcapture, rfl⟩ := matchPath_sound hm
    obtain ⟨hroute, hmethod, rfl⟩ := mem_ofMethod.mp hmem
    exact ⟨hroute, hmethod, hcapture⟩
  unfold matchMethodAndPath at h
  rw [Option.or_eq_some_iff, Option.or_eq_some_iff] at h
  rcases h with (hown | ⟨-, hhead⟩) | ⟨-, hany⟩
  · obtain ⟨hmem, hmethod, hcapture⟩ := hnode hown
    exact ⟨hmem, .inl hmethod, hcapture⟩
  · split at hhead
    · next hmethod =>
      obtain ⟨hmem, hget, hcapture⟩ := hnode hhead
      exact ⟨hmem, .inr (.inl ⟨hmethod, hget⟩), hcapture⟩
    · cases hhead
  · obtain ⟨hmem, hmethod, hcapture⟩ := hnode hany
    exact ⟨hmem, .inr (.inr hmethod), hcapture⟩

/-- A handler is found for a path that decodes to the path of the URL. -/
theorem findHandler_sound (h : findHandler mux method raw = .handler route values) :
    ∃ decoded escaped, pathUnescape raw = some decoded ∧ pathUnescape escaped = some decoded ∧
      route ∈ mux ∧ Serves route method ∧
      capture route.pieces (segments escaped) = some values ∧
      (method ≠ "CONNECT".toList → cleanPath escaped = escaped) := by
  unfold findHandler at h
  cases hraw : pathUnescape raw with
  | none => simp [hraw] at h
  | some decoded =>
    simp only [hraw] at h
    generalize hpath : (if method = "CONNECT".toList then escapedPath raw decoded
      else cleanPath (escapedPath raw decoded)) = path at h
    split at h
    · cases h
    · split at h
      · cases h
      · next hclean =>
        rw [not_not] at hclean
        split at h
        · next found hfound =>
          obtain ⟨rfl, rfl⟩ := Found.handler.inj h
          rw [hclean] at hfound hpath
          obtain ⟨hmem, hserves, hcapture⟩ := matchMethodAndPath_sound hfound
          refine ⟨decoded, escapedPath raw decoded, rfl, pathUnescape_escapedPath hraw, hmem,
            hserves, hcapture, fun hconnect => ?_⟩
          rwa [if_neg hconnect] at hpath
        · split at h <;> cases h

/-! ### The path of the URL -/

/-- The path that parts stand for. -/
def spell (parts : List Text) : Bytes := parts.flatMap fun part => 0x2F :: segmentBytes part

theorem intercalate_split {sep : Char} (s : Text) : [sep].intercalate (split sep s) = s := by
  cases hsplit : split sep s with
  | nil => exact absurd hsplit (split_ne_nil s)
  | cons part parts =>
    induction parts generalizing s part with
    | nil =>
      rcases split_cons hsplit with ⟨-, rfl⟩ | ⟨rest, -, hrest⟩
      · exact List.intercalate_singleton
      · exact absurd hrest (split_ne_nil rest)
    | cons next parts ih =>
      rcases split_cons hsplit with ⟨hnil, -⟩ | ⟨rest, rfl, hrest⟩
      · cases hnil
      · rw [List.intercalate_cons_cons, ih rest next hrest]
        simp

/-- A path is read part by part. -/
theorem pathUnescape_spell {parts : List Text} (hne : parts ≠ []) {decoded : Bytes}
    (h : pathUnescape (['/'].intercalate parts) = some decoded) : 0x2F :: decoded = spell parts := by
  induction parts generalizing decoded with
  | nil => exact absurd rfl hne
  | cons part rest ih =>
    cases rest with
    | nil =>
      rw [List.intercalate_singleton] at h
      simp [spell, segmentBytes, h]
    | cons next rest =>
      rw [List.intercalate_cons_cons, List.append_assoc, List.singleton_append,
        pathUnescape_slash] at h
      obtain ⟨first, hfirst, hmore⟩ := Option.bind_eq_some_iff.mp h
      obtain ⟨more, hrest, rfl⟩ := Option.map_eq_some_iff.mp hmore
      have hspell := ih (by simp) hrest
      unfold spell at hspell ⊢
      rw [List.flatMap_cons, ← hspell]
      simp [segmentBytes, hfirst]

theorem clean_rooted {p : Text} (h : p.head? = some '/') : (clean p).head? = some '/' := by
  unfold clean
  simp only [h, decide_true, if_true, List.head?_cons]

theorem cleanPath_rooted (p : Text) : (cleanPath p).head? = some '/' := by
  unfold cleanPath
  have hrooted : (if p.head? = some '/' then p else '/' :: p).head? = some '/' := by
    split
    · assumption
    · rfl
  generalize (if p.head? = some '/' then p else '/' :: p) = rooted at hrooted
  have hclean := clean_rooted hrooted
  simp only
  split
  · rw [List.head?_append, hclean]
    rfl
  · exact hclean

/-- Whether a pattern can match a path that is read as given: its literals are there, one
after another, up to a wildcard. An escaped slash is read like a trailing one. -/
def fits : List Piece → Bytes → Bool
  | [], path => path.isEmpty
  | .literal text :: pieces, path =>
    if text = ['/'] then pieces ≠ [] || path = slash || path = slash ++ slash
    else (slash ++ text.bytes).isPrefixOf path && fits pieces (path.drop (text.bytes.length + 1))
  | _ :: _, path => slash.isPrefixOf path

theorem slash_ne_bytes {text : Text} (h : text ≠ ['/']) : text.bytes ≠ slash := by
  intro hbytes
  have hslash : ofBytes slash = some ['/'] := ofBytes_bytes ['/']
  have htext := ofBytes_bytes text
  rw [hbytes, hslash] at htext
  exact h (Option.some.inj htext).symm

theorem capture_fits {pieces : List Piece} {parts : List Text} {values : List Bytes}
    (h : capture pieces (segmentsOf parts) = some values) : fits pieces (spell parts) = true := by
  induction pieces generalizing parts values with
  | nil =>
    cases parts with
    | nil => rfl
    | cons part rest => cases part <;> cases rest <;> simp [segmentsOf, capture] at h
  | cons piece pieces ih =>
    cases parts with
    | nil => cases piece <;> cases pieces <;> simp [segmentsOf, capture] at h
    | cons part rest =>
      have hspell : spell (part :: rest) = 0x2F :: (segmentBytes part ++ spell rest) := by
        simp [spell]
      have hseg : segmentsOf (part :: rest) = segmentBytes part :: segmentsOf rest ∨
          (part = [] ∧ rest = [] ∧ segmentsOf (part :: rest) = [slash]) := by
        cases part with
        | nil =>
          cases rest with
          | nil => exact .inr ⟨rfl, rfl, rfl⟩
          | cons next rest => exact .inl rfl
        | cons c part => exact .inl rfl
      rw [hspell]
      cases piece with
      | wildcard name => rfl
      | rest => rfl
      | literal text =>
        by_cases htext : text = ['/']
        · rw [fits, if_pos htext]
          cases pieces with
          | cons => rfl
          | nil =>
            subst htext
            rcases hseg with hseg | ⟨rfl, rfl, -⟩
            · rw [hseg, capture] at h
              split at h
              · next hbytes =>
                cases rest with
                | nil => rw [← hbytes]; rfl
                | cons next rest => cases next <;> cases rest <;> simp [segmentsOf, capture] at h
              · cases h
            · rfl
        · have hcut : text.bytes = segmentBytes part ∧
              capture pieces (segmentsOf rest) = some values := by
            rcases hseg with hseg | ⟨-, -, hseg⟩
            · rw [hseg, capture] at h
              split at h
              · next hbytes => exact ⟨hbytes, h⟩
              · cases h
            · rw [hseg, capture, if_neg (slash_ne_bytes htext)] at h
              cases h
          rw [fits, if_neg htext, hcut.1, Bool.and_eq_true]
          refine ⟨?_, ?_⟩
          · rw [List.isPrefixOf_iff_prefix]
            exact ⟨spell rest, by simp [slash]⟩
          · rw [List.drop_succ_cons, List.drop_left]
            exact ih hcut.2

/-- The path of the URL fits the pattern of the handler that was found. -/
theorem findHandler_fits (h : findHandler mux method raw = .handler route values)
    (hconnect : method ≠ "CONNECT".toList) :
    ∃ decoded, pathUnescape raw = some decoded ∧ fits route.pieces decoded = true := by
  obtain ⟨decoded, escaped, hraw, hescaped, -, -, hcapture, hclean⟩ := findHandler_sound h
  have hhead := cleanPath_rooted escaped
  rw [hclean hconnect] at hhead
  obtain ⟨tail, rfl⟩ : ∃ tail, escaped = '/' :: tail := by
    cases escaped with
    | nil => cases hhead
    | cons c tail => exact ⟨tail, by rw [Option.some.inj hhead]⟩
  have hslash := pathUnescape_slash [] tail
  rw [List.nil_append, hescaped, pathUnescape, Option.bind_some] at hslash
  obtain ⟨rest, hrest, hdecoded⟩ := Option.map_eq_some_iff.mp hslash.symm
  have hspell := pathUnescape_spell (split_ne_nil tail) (by rwa [intercalate_split])
  obtain rfl : spell (split '/' tail) = decoded := by rw [← hspell, ← hdecoded]; rfl
  exact ⟨_, hraw, capture_fits hcapture⟩

/-! ### Finding a handler -/

theorem segmentsOf_kept {parts : List Text} (h : ∀ part ∈ parts, Kept part) :
    segmentsOf parts = parts.map segmentBytes := by
  induction parts with
  | nil => rfl
  | cons part rest ih =>
    obtain ⟨hpart, hrest⟩ := List.forall_mem_cons.mp h
    rw [segmentsOf, ih hrest, List.map_cons]
    rintro rfl -
    exact hpart.ne_nil rfl

theorem segments_ofParts {parts : List Text} (hne : parts ≠ []) (h : ∀ part ∈ parts, Kept part) :
    segments (ofParts parts) = parts.map segmentBytes := by
  rw [segments, ofParts_eq hne, List.tail_cons,
    split_intercalate hne fun part hpart => (h part hpart).slash, segmentsOf_kept h]

/-- A path in its normal form whose segments only the patterns of one route of its method match
leads to that route. -/
theorem findHandler_ofParts {parts : List Text} (hmem : route ∈ mux) (hmethod : route.method = method)
    (hconnect : method ≠ "CONNECT".toList) (hexact : route.pieces.getLast? ≠ some .rest)
    (hne : parts ≠ []) (hkept : ∀ part ∈ parts, Kept part)
    (hencoded : (ofParts parts).all encodedChar = true)
    (hread : ∀ part ∈ parts, (pathUnescape part).isSome = true)
    (hcapture : capture route.pieces (parts.map segmentBytes) = some values)
    (hunique : ∀ other ∈ mux, other.method = method →
      (capture other.pieces (parts.map segmentBytes)).isSome = true → other = route) :
    findHandler mux method (ofParts parts) = .handler route values := by
  obtain ⟨decoded, hdecoded⟩ := Option.isSome_iff_exists.mp (pathUnescape_ofParts hread)
  have hfound : matchMethodAndPath mux method (ofParts parts) = some (route, values) := by
    have hnode := mem_ofMethod.mpr ⟨hmem, hmethod, rfl⟩
    unfold matchMethodAndPath
    rw [segments_ofParts hne hkept, matchPath_eq hnode hcapture]
    · rfl
    · rintro ⟨pieces, other⟩ hother hmatch
      obtain ⟨hin, hsame, rfl⟩ := mem_ofMethod.mp hother
      rw [hunique other hin hsame hmatch]
  have hdirect : redirectsToSlash mux method (ofParts parts) = false := by
    simp [redirectsToSlash, hfound, exactMatch, hexact]
  unfold findHandler
  simp only [hdecoded, escapedPath, hencoded, if_true, if_neg hconnect, cleanPath_ofParts hne hkept,
    hdirect, Bool.false_eq_true, if_false, ne_eq, not_true_eq_false, hfound]

/-- What a pattern can match of a path some of whose segments are not known. -/
def mayCapture : List Piece → List (Option Text) → Bool
  | [], [] => true
  | [.rest], _ :: _ => true
  | .literal text :: pieces, seg :: rest =>
    (seg = none || seg = some text) && mayCapture pieces rest
  | .wildcard _ :: pieces, seg :: rest => seg ≠ some ['/'] && mayCapture pieces rest
  | _, _ => false

/-- A segment that is known or not. -/
def Fills (known : Option Text) (seg : Bytes) : Prop := ∀ text, known = some text → seg = text.bytes

theorem bytes_injective {text other : Text} (h : text.bytes = other.bytes) : text = other := by
  have hread := ofBytes_bytes text
  rw [h, ofBytes_bytes] at hread
  exact (Option.some.inj hread).symm

theorem mayCapture_of_capture {pieces : List Piece} {shape : List (Option Text)}
    {segs : List Bytes} (hshape : List.Forall₂ Fills shape segs)
    (h : (capture pieces segs).isSome = true) : mayCapture pieces shape = true := by
  induction hshape generalizing pieces with
  | nil =>
    cases pieces with
    | nil => rfl
    | cons piece pieces => cases piece <;> cases pieces <;> simp [capture] at h
  | @cons known seg shape segs hknown _ ih =>
    match pieces, h with
    | [], h => simp [capture] at h
    | [.rest], _ => rfl
    | .rest :: _ :: _, h => simp [capture] at h
    | .literal text :: pieces, h =>
      rw [capture] at h
      split at h
      · next htext =>
        rw [mayCapture, ih h, Bool.and_true]
        cases known with
        | none => rfl
        | some other =>
          have hsame := bytes_injective (htext.trans (hknown other rfl))
          simp [hsame]
      · cases h
    | .wildcard name :: pieces, h =>
      rw [capture] at h
      split at h
      · cases h
      · next hslash =>
        rw [Option.isSome_map] at h
        rw [mayCapture, ih h, Bool.and_true]
        cases known with
        | none => rfl
        | some other =>
          have hother : other ≠ ['/'] := by
            rintro rfl
            exact hslash (hknown _ rfl)
          simpa using hother

end Doupro.ServeMux
