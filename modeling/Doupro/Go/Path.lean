import Doupro.Go.Base64
import Doupro.Go.Query

/-!
# Paths

How `net/url` writes and reads the path of a request, and how `net/http` cleans it.
-/

namespace Doupro

namespace Path

open Text

/-! ### Escapes -/

/-- The characters `url.PathEscape` leaves alone. -/
def segmentChar (c : Char) : Bool :=
  URL.isLetter c || URL.isDigit c || "-_.~$&+:=@".toList.contains c

/-- The characters that stay as they are in a path that is escaped as a whole. -/
def pathChar (c : Char) : Bool := segmentChar c || "/;,".toList.contains c

/-- The characters of `validEncoded`, `%` among them. -/
def encodedChar (c : Char) : Bool := pathChar c || "!'()*[]%".toList.contains c

def escapeByte (safe : Char → Bool) (b : UInt8) : Text :=
  if safe (Char.ofNat b.toNat) then [Char.ofNat b.toNat]
  else ['%', Query.upperHex (b.toNat / 16), Query.upperHex (b.toNat % 16)]

/-- `url.PathEscape`. -/
def pathEscape (s : Bytes) : Text := s.flatMap (escapeByte segmentChar)

/-- `escape` in its mode for paths. -/
def escapePath (s : Bytes) : Text := s.flatMap (escapeByte pathChar)

/-- `url.PathUnescape`. -/
def pathUnescape : Text → Option Bytes
  | [] => some []
  | '%' :: high :: low :: rest => match Query.unhex high, Query.unhex low with
    | some h, some l => (pathUnescape rest).map (UInt8.ofNat (16 * h + l) :: ·)
    | _, _ => none
  | c :: rest =>
    if c = '%' then none else (pathUnescape rest).map (String.utf8EncodeChar c ++ ·)

/-- `URL.EscapedPath` of the URL whose path was parsed from a text. -/
def escapedPath (raw : Text) (path : Bytes) : Text :=
  if raw.all encodedChar then raw else escapePath path

/-! ### Cleaning -/

/-- The elements of `path.Clean`, one segment after the other. -/
def cleanSegments (rooted : Bool) : List Text → List Text → List Text
  | done, [] => done
  | done, segment :: rest =>
    if segment = [] ∨ segment = ['.'] then cleanSegments rooted done rest
    else if segment = ['.', '.'] then
      match done.getLast? with
      | none => cleanSegments rooted (if rooted then [] else [segment]) rest
      | some last =>
        if last = ['.', '.'] then cleanSegments rooted (done ++ [segment]) rest
        else cleanSegments rooted done.dropLast rest
    else cleanSegments rooted (done ++ [segment]) rest

/-- `path.Clean`. -/
def clean (path : Text) : Text :=
  let rooted := path.head? = some '/'
  let text := ['/'].intercalate (cleanSegments rooted [] (split '/' path))
  if rooted then '/' :: text else if text = [] then ['.'] else text

example : clean "/data/".toList = "/data".toList ∧ clean "/a/./b//../c".toList = "/a/c".toList ∧
    clean "../a/../..".toList = "../..".toList ∧ clean [] = ['.'] := by decide

/-- `cleanPath` of `net/http`. -/
def cleanPath (p : Text) : Text :=
  let rooted := if p.head? = some '/' then p else '/' :: p
  let cleaned := clean rooted
  if rooted.getLast? = some '/' ∧ cleaned ≠ ['/'] then cleaned ++ ['/'] else cleaned

/-! ### Escapes are read back -/

/-- Characters of ASCII other than `%`. -/
def Plain (safe : Char → Bool) : Prop :=
  ∀ n < 256, safe (Char.ofNat n) = true →
    String.utf8EncodeChar (Char.ofNat n) = [UInt8.ofNat n] ∧ Char.ofNat n ≠ '%'

set_option maxRecDepth 2000 in
theorem segmentChar_plain : Plain segmentChar := by
  unfold Plain
  decide

set_option maxRecDepth 2000 in
theorem pathChar_plain : Plain pathChar := by
  unfold Plain
  decide

theorem pathUnescape_cons {c : Char} (hc : c ≠ '%') (rest : Text) :
    pathUnescape (c :: rest) = (pathUnescape rest).map (String.utf8EncodeChar c ++ ·) := by
  rw [pathUnescape]
  · rw [if_neg hc]
  · rintro high low rest' heq -
    exact absurd heq hc

variable {safe : Char → Bool}

theorem pathUnescape_escapeByte (hsafe : Plain safe) (b : UInt8) (rest : Text) :
    pathUnescape (escapeByte safe b ++ rest) = (pathUnescape rest).map (b :: ·) := by
  have hb : b.toNat < 256 := b.toNat_lt
  unfold escapeByte
  split
  · next hplain =>
    obtain ⟨hbytes, hpercent⟩ := hsafe b.toNat hb hplain
    rw [List.singleton_append, pathUnescape_cons hpercent, hbytes, UInt8.ofNat_toNat]
    rfl
  · have hhigh : b.toNat / 16 < 16 := by omega
    have hvalue : 16 * (b.toNat / 16) + b.toNat % 16 = b.toNat := by omega
    simp only [List.cons_append, List.nil_append, pathUnescape, Query.unhex_upperHex _ hhigh,
      Query.unhex_upperHex _ (Nat.mod_lt _ (by omega)), hvalue, UInt8.ofNat_toNat]

theorem pathUnescape_flatMap (hsafe : Plain safe) (s : Bytes) (rest : Text) :
    pathUnescape (s.flatMap (escapeByte safe) ++ rest) = (pathUnescape rest).map (s ++ ·) := by
  induction s with
  | nil => simp
  | cons b s ih =>
    rw [List.flatMap_cons, List.append_assoc, pathUnescape_escapeByte hsafe, ih, Option.map_map]
    rfl

theorem pathUnescape_pathEscape (s : Bytes) : pathUnescape (pathEscape s) = some s := by
  have h := pathUnescape_flatMap segmentChar_plain s []
  rw [List.append_nil] at h
  simpa [pathUnescape, pathEscape] using h

theorem pathUnescape_escapePath (s : Bytes) : pathUnescape (escapePath s) = some s := by
  have h := pathUnescape_flatMap pathChar_plain s []
  rw [List.append_nil] at h
  simpa [pathUnescape, escapePath] using h

/-- A path and its escaped form name the same resource. -/
theorem pathUnescape_escapedPath {raw : Text} {path : Bytes} (h : pathUnescape raw = some path) :
    pathUnescape (escapedPath raw path) = some path := by
  unfold escapedPath
  split
  · exact h
  · exact pathUnescape_escapePath path

/-- A slash that was not escaped separates what is read. -/
theorem pathUnescape_slash (s rest : Text) : pathUnescape (s ++ '/' :: rest) =
    (pathUnescape s).bind fun a => (pathUnescape rest).map fun b => a ++ 0x2F :: b := by
  induction s using pathUnescape.induct with
  | case1 =>
    rw [List.nil_append, pathUnescape_cons (by decide)]
    rfl
  | case2 high low s h l hhigh hlow ih =>
    simp only [List.cons_append, pathUnescape, hhigh, hlow, ih]
    cases pathUnescape s <;> cases pathUnescape rest <;> rfl
  | case3 high low s hbad =>
    have hnone : ∀ tail, pathUnescape ('%' :: high :: low :: tail) = none := by
      intro tail
      rw [pathUnescape]
      cases hhigh : Query.unhex high with
      | none => rfl
      | some h => cases hlow : Query.unhex low with
        | none => rfl
        | some l => exact (hbad h l hhigh hlow).elim
    rw [List.cons_append, List.cons_append, List.cons_append, hnone, hnone]
    rfl
  | case4 s hshort =>
    -- an escape cut short by the slash is none
    match s, hshort with
    | [], _ =>
      cases rest with
      | nil => rfl
      | cons c rest => rfl
    | [high], _ =>
      change (match Query.unhex high, Query.unhex '/' with
        | some h, some l => _
        | _, _ => none) = none
      cases Query.unhex high <;> rfl
    | high :: low :: s, hshort => exact (hshort high low s rfl rfl).elim
  | case5 c s hshort hc ih =>
    rw [List.cons_append, pathUnescape_cons hc, pathUnescape_cons hc, ih]
    cases pathUnescape s <;> cases pathUnescape rest <;> simp

/-! ### Paths of parts -/

/-- A slash before every part. -/
def ofParts (parts : List Text) : Text := parts.flatMap ('/' :: ·)

theorem ofParts_eq {parts : List Text} (hne : parts ≠ []) :
    ofParts parts = '/' :: ['/'].intercalate parts := by
  induction parts with
  | nil => exact absurd rfl hne
  | cons part rest ih =>
    cases rest with
    | nil => simp [ofParts]
    | cons next rest =>
      rw [List.intercalate_cons_cons]
      change '/' :: part ++ ofParts (next :: rest) = _
      rw [ih (by simp)]
      simp

/-- A part that cleaning leaves alone. -/
structure Kept (part : Text) : Prop where
  ne_nil : part ≠ []
  ne_dot : part ≠ ['.']
  ne_dots : part ≠ ['.', '.']
  slash : '/' ∉ part

theorem cleanSegments_kept {rooted : Bool} {parts : List Text} (h : ∀ part ∈ parts, Kept part)
    (done : List Text) : cleanSegments rooted done parts = done ++ parts := by
  induction parts generalizing done with
  | nil => simp [cleanSegments]
  | cons part rest ih =>
    obtain ⟨hpart, hrest⟩ := List.forall_mem_cons.mp h
    rw [cleanSegments, if_neg (by simp [hpart.ne_nil, hpart.ne_dot]), if_neg hpart.ne_dots, ih hrest]
    simp

theorem split_ofParts {parts : List Text} (hne : parts ≠ []) (h : ∀ part ∈ parts, Kept part) :
    split '/' (ofParts parts) = [] :: parts := by
  have hempty : '/' ∉ ([] : Text) := by simp
  have hsplit := split_append hempty (['/'].intercalate parts)
  rw [List.nil_append] at hsplit
  rw [ofParts_eq hne, hsplit, split_intercalate hne fun part hpart => (h part hpart).slash]

theorem getLast?_ofParts {parts : List Text} (hne : parts ≠ []) (h : ∀ part ∈ parts, Kept part) :
    (ofParts parts).getLast? ≠ some '/' := by
  obtain ⟨init, last, rfl⟩ : ∃ init last, parts = init ++ [last] :=
    ⟨_, _, (List.dropLast_append_getLast hne).symm⟩
  have hlast := h last (by simp)
  have htail : ofParts (init ++ [last]) = ofParts init ++ ['/'] ++ last := by
    simp [ofParts]
  rw [htail, List.getLast?_append, List.getLast?_eq_some_getLast hlast.ne_nil]
  intro heq
  refine hlast.slash ?_
  rw [← Option.some.inj heq]
  exact List.getLast_mem hlast.ne_nil

theorem cleanPath_ofParts {parts : List Text} (hne : parts ≠ []) (h : ∀ part ∈ parts, Kept part) :
    cleanPath (ofParts parts) = ofParts parts := by
  have hhead : (ofParts parts).head? = some '/' := by rw [ofParts_eq hne, List.head?_cons]
  have hclean : clean (ofParts parts) = ofParts parts := by
    unfold clean
    simp only [hhead, decide_true, if_true]
    rw [split_ofParts hne h, cleanSegments, if_pos (.inl rfl), cleanSegments_kept h,
      List.nil_append, ← ofParts_eq hne]
  unfold cleanPath
  simp only [if_pos hhead, hclean]
  exact if_neg fun hslash => getLast?_ofParts hne h hslash.1

/-- A path whose parts can be read can be read. -/
theorem pathUnescape_ofParts {parts : List Text}
    (h : ∀ part ∈ parts, (pathUnescape part).isSome = true) :
    (pathUnescape (ofParts parts)).isSome = true := by
  have hrest : ∀ part rest, (pathUnescape part).isSome = true →
      (rest = [] ∨ ∃ tail, rest = '/' :: tail) → (pathUnescape rest).isSome = true →
      (pathUnescape (part ++ rest)).isSome = true := by
    rintro part rest hpart (rfl | ⟨tail, rfl⟩) hread
    · rwa [List.append_nil]
    · rw [pathUnescape_cons (by decide), Option.isSome_map] at hread
      rw [pathUnescape_slash, Option.isSome_bind]
      simp [Option.isSome_map, hread, hpart]
  induction parts with
  | nil => rfl
  | cons part rest ih =>
    obtain ⟨hpart, hmore⟩ := List.forall_mem_cons.mp h
    change (pathUnescape ('/' :: (part ++ ofParts rest))).isSome = true
    rw [pathUnescape_cons (by decide), Option.isSome_map]
    refine hrest part _ hpart ?_ (ih hmore)
    cases rest with
    | nil => exact .inl rfl
    | cons next rest => exact .inr ⟨_, rfl⟩

/-! ### What an escaped segment looks like -/

theorem upperHex_segment : ∀ n < 16, encodedChar (Query.upperHex n) = true ∧
    Query.upperHex n ≠ '/' ∧ Query.upperHex n ≠ '?' ∧ Query.upperHex n ≠ '#' := by
  decide

theorem segmentChar_segment {c : Char} (h : segmentChar c = true) : encodedChar c = true ∧
    c ≠ '/' ∧ c ≠ '?' ∧ c ≠ '#' := by
  refine ⟨by simp [encodedChar, pathChar, h], ?_, ?_, ?_⟩ <;>
  · rintro rfl
    exact absurd h (by decide)

theorem mem_pathEscape {s : Bytes} {c : Char} (hc : c ∈ pathEscape s) : encodedChar c = true ∧
    c ≠ '/' ∧ c ≠ '?' ∧ c ≠ '#' := by
  obtain ⟨b, -, hb⟩ := List.mem_flatMap.mp hc
  have hlt : b.toNat < 256 := b.toNat_lt
  unfold escapeByte at hb
  split at hb
  · next hplain =>
    obtain rfl := List.mem_singleton.mp hb
    exact segmentChar_segment hplain
  · simp only [List.mem_cons, List.not_mem_nil, or_false] at hb
    rcases hb with rfl | rfl | rfl
    · decide
    · exact upperHex_segment _ (by omega)
    · exact upperHex_segment _ (by omega)

theorem pathEscape_eq {s : Bytes} {t : Text} {out : Bytes} (h : pathEscape s = t)
    (ht : pathUnescape t = some out) : s = out := by
  have hread := pathUnescape_pathEscape s
  rw [h, ht] at hread
  exact (Option.some.inj hread).symm

/-- The segment of a name is left alone, but for three names. -/
theorem pathEscape_kept {s : Bytes} (hnil : s ≠ []) (hdot : s ≠ [0x2E]) (hdots : s ≠ [0x2E, 0x2E]) :
    Kept (pathEscape s) where
  ne_nil h := hnil (pathEscape_eq h rfl)
  ne_dot h := hdot (pathEscape_eq h rfl)
  ne_dots h := hdots (pathEscape_eq h rfl)
  slash h := (mem_pathEscape h).2.1 rfl

end Path
end Doupro
