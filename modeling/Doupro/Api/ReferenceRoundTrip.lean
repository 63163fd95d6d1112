import Doupro.Api.Pins
import Doupro.Registry.SemverCandidates

/-!
# Parsing and rebuilding references

A reference is a name of components and perhaps a tag. On components, parsing finds the host and
the path of the repository, and rebuilding puts a name together again.
-/

namespace Doupro.Api

open Registry Text

/-! ### References -/

/-- A first component that stands for a registry: it has a dot or a colon, or is `localhost`. -/
def IsHost (component : Text) : Prop :=
  '.' ∈ component ∨ ':' ∈ component ∨ component = "localhost".toList

instance (component : Text) : Decidable (IsHost component) :=
  inferInstanceAs (Decidable (_ ∨ _ ∨ _))

/-- The components of a name. Only a host before a path has a colon in it. -/
structure ValidName (components : List Text) : Prop where
  nonempty : components ≠ []
  filled : ∀ component ∈ components, component ≠ []
  noSlash : ∀ component ∈ components, '/' ∉ component
  pathColon : ∀ component ∈ components.tail, ':' ∉ component
  nameColon : ∀ component, components = [component] → ':' ∉ component

def isWord (c : Char) : Bool := isAlnum c || c = '_'

/-- The tags of a reference, `[\w][\w.-]{0,127}`. -/
def ValidTag (tag : Text) : Prop :=
  tag.length ≤ 128 ∧ ∃ first rest, tag = first :: rest ∧ isWord first = true ∧
    ∀ c ∈ rest, isWord c = true ∨ c = '.' ∨ c = '-'

theorem tail_of_all {rest : Text}
    (h : (rest.all fun c => isWord c || (c = '.' || c = '-')) = true) :
    ∀ c ∈ rest, isWord c = true ∨ c = '.' ∨ c = '-' := by
  simpa using h

theorem ValidTag.plain {tag : Text} (h : ValidTag tag) : '/' ∉ tag ∧ ':' ∉ tag := by
  obtain ⟨-, first, rest, rfl, hfirst, hrest⟩ := h
  have hno : ∀ c, isWord c = false → c ≠ '.' → c ≠ '-' → c ∉ first :: rest := by
    intro c hc hdot hdash hmem
    rcases List.mem_cons.mp hmem with rfl | hin
    · rw [hc] at hfirst
      exact nomatch hfirst
    · rcases hrest c hin with hword | h | h
      · rw [hc] at hword
        exact nomatch hword
      · exact hdot h
      · exact hdash h
  exact ⟨hno '/' (by decide) (by decide) (by decide), hno ':' (by decide) (by decide) (by decide)⟩

/-- A reference `name` or `name:tag`. -/
structure Reference where
  components : List Text
  tag : Option Text
  name : ValidName components
  tagged : ∀ t ∈ tag, ValidTag t

def nameText (components : List Text) : Text := ['/'].intercalate components

def withTag (name : Text) : Option Text → Text
  | none => name
  | some tag => name ++ ':' :: tag

def Reference.text (r : Reference) : String := String.ofList (withTag (nameText r.components) r.tag)

/-! ### Parsing on components -/

/-- The host a name starts with, and its path. -/
def hostAndPath : List Text → Text × List Text
  | first :: second :: rest =>
    if IsHost first then (first, second :: rest) else (dockerHub, first :: second :: rest)
  | components => (dockerHub, components)

/-- The names Docker Hub goes by. -/
def IsHub (host : Text) : Prop :=
  host = "docker.io".toList ∨ host = "index.docker.io".toList ∨ host = dockerHub

instance (host : Text) : Decidable (IsHub host) := inferInstanceAs (Decidable (_ ∨ _ ∨ _))

/-- The path of a repository of Docker Hub: a single component is a library image. -/
def hubPath : List Text → List Text
  | [image] => ["library".toList, image]
  | path => path

/-- `parseRef` on the components of a name. -/
def resolve (components : List Text) : Text × List Text :=
  let (host, path) := hostAndPath components
  if IsHub host then (dockerHub, hubPath path) else (host, path)

/-- `replaceTag` on a host and the components of a path. -/
def rebuild : Text × List Text → List Text
  | (host, path) =>
    if host ≠ dockerHub then host :: path
    else match path with
      | first :: second :: rest =>
        if first = "library".toList then second :: rest else first :: second :: rest
      | path => path

theorem rebuild_other {host : Text} (h : host ≠ dockerHub) (path : List Text) :
    rebuild (host, path) = host :: path := if_pos h

theorem rebuild_library (second : Text) (rest : List Text) :
    rebuild (dockerHub, "library".toList :: second :: rest) = second :: rest := by
  unfold rebuild
  dsimp only
  rw [if_neg (not_not.mpr rfl), if_pos rfl]

theorem rebuild_hub {first : Text} (h : first ≠ "library".toList) (second : Text)
    (rest : List Text) : rebuild (dockerHub, first :: second :: rest) = first :: second :: rest := by
  unfold rebuild
  dsimp only
  rw [if_neg (not_not.mpr rfl), if_neg h]

theorem isHost_iff {component : Text} :
    (component.any (fun c => c = '.' || c = ':') || component = "localhost".toList) = true ↔
      IsHost component := by
  simp only [IsHost, Bool.or_eq_true, List.any_eq_true, decide_eq_true_eq]
  constructor
  · rintro (⟨c, hc, rfl | rfl⟩ | h)
    · exact .inl hc
    · exact .inr (.inl hc)
    · exact .inr (.inr h)
  · rintro (h | h | h)
    · exact .inl ⟨'.', h, .inl rfl⟩
    · exact .inl ⟨':', h, .inr rfl⟩
    · exact .inr h

theorem nameText_cons_cons (first second : Text) (rest : List Text) :
    nameText (first :: second :: rest) = first ++ '/' :: nameText (second :: rest) := by
  unfold nameText
  rw [List.intercalate_cons_cons, List.append_assoc, List.singleton_append]

theorem hostAndPath_of_host {first second : Text} {rest : List Text} (h : IsHost first) :
    hostAndPath (first :: second :: rest) = (first, second :: rest) := by
  rw [hostAndPath, if_pos h]

theorem hostAndPath_of_not_host {first second : Text} {rest : List Text} (h : ¬ IsHost first) :
    hostAndPath (first :: second :: rest) = (dockerHub, first :: second :: rest) := by
  rw [hostAndPath, if_neg h]

theorem cutHost_nameText {components : List Text} (h : ValidName components) :
    cutHost (nameText components) =
      ((hostAndPath components).1, nameText (hostAndPath components).2) := by
  match components, h with
  | [], h => exact absurd rfl h.nonempty
  | [image], h =>
    have hslash : '/' ∉ image := h.noSlash image List.mem_cons_self
    change cutHost (nameText [image]) = (dockerHub, nameText [image])
    have htext : nameText [image] = image := List.intercalate_singleton
    unfold cutHost
    rw [htext, cut_of_notMem hslash]
  | first :: second :: rest, h =>
    have hslash : '/' ∉ first := h.noSlash first List.mem_cons_self
    have hcut : cut '/' (nameText (first :: second :: rest)) =
        (first, some (nameText (second :: rest))) := by
      rw [nameText_cons_cons, cut_append hslash]
      simp [cut]
    unfold cutHost
    rw [hcut]
    dsimp only
    by_cases hhost : IsHost first
    · rw [if_pos (isHost_iff.mpr hhost), hostAndPath_of_host hhost]
    · rw [if_neg (fun hany => hhost (isHost_iff.mp hany)), hostAndPath_of_not_host hhost]

/-- A component of a path. -/
def Plain (component : Text) : Prop := component ≠ [] ∧ '/' ∉ component ∧ ':' ∉ component

/-- The path of a name has components, and its host is Docker Hub or its first component. -/
theorem hostAndPath_plain {components : List Text} (h : ValidName components) :
    (hostAndPath components).2 ≠ [] ∧ ∀ component ∈ (hostAndPath components).2,
      Plain component := by
  match components, h with
  | [], h => exact absurd rfl h.nonempty
  | [image], h =>
    refine ⟨by simp [hostAndPath], fun component hmem => ?_⟩
    obtain rfl := List.mem_singleton.mp hmem
    exact ⟨h.filled _ hmem, h.noSlash _ hmem, h.nameColon _ rfl⟩
  | first :: second :: rest, h =>
    have htail : ∀ component ∈ second :: rest, Plain component := fun component hmem =>
      ⟨h.filled _ (List.mem_cons_of_mem _ hmem), h.noSlash _ (List.mem_cons_of_mem _ hmem),
        h.pathColon _ hmem⟩
    by_cases hhost : IsHost first
    · rw [hostAndPath_of_host hhost]
      exact ⟨by simp, htail⟩
    · rw [hostAndPath_of_not_host hhost]
      refine ⟨by simp, fun component hmem => ?_⟩
      rcases List.mem_cons.mp hmem with rfl | hin
      · exact ⟨h.filled _ hmem, h.noSlash _ hmem, fun hcolon => hhost (.inr (.inl hcolon))⟩
      · exact htail component hin

theorem hostAndPath_host (components : List Text) :
    (hostAndPath components).1 = dockerHub ∨ (IsHost (hostAndPath components).1 ∧
      (hostAndPath components).1 ∈ components) := by
  match components with
  | [] => exact .inl rfl
  | [image] => exact .inl rfl
  | first :: second :: rest =>
    by_cases hhost : IsHost first
    · rw [hostAndPath_of_host hhost]
      exact .inr ⟨hhost, List.mem_cons_self⟩
    · rw [hostAndPath_of_not_host hhost]
      exact .inl rfl

theorem nameText_notMem {c : Char} {path : List Text} (hc : c ≠ '/')
    (h : ∀ component ∈ path, c ∉ component) : c ∉ nameText path := by
  intro hmem
  rcases mem_intercalate hmem with heq | ⟨component, hin, hcomponent⟩
  · exact hc heq
  · exact h component hin hcomponent

/-- A single component, and only that, is a path without a slash. -/
theorem hubRepository {path : List Text} (hne : path ≠ []) (hplain : ∀ c ∈ path, Plain c) :
    (if '/' ∉ nameText path then "library/".toList ++ nameText path else nameText path) =
      nameText (hubPath path) := by
  match path, hne with
  | [image], _ =>
    have htext : nameText [image] = image := List.intercalate_singleton
    have hslash : '/' ∉ image := (hplain image List.mem_cons_self).2.1
    rw [htext, if_pos hslash, hubPath, nameText_cons_cons, htext]
    rfl
  | first :: second :: rest, _ =>
    have hslash : '/' ∈ nameText (first :: second :: rest) := by
      rw [nameText_cons_cons]
      simp
    rw [if_neg (not_not.mpr hslash), hubPath]
    exact fun image h => nomatch h

/-- What a reference is parsed to. -/
theorem parseRef_text {components : List Text} {tag : Option Text} (h : ValidName components)
    (htag : ∀ t ∈ tag, ValidTag t) :
    parseRef (String.ofList (withTag (nameText components) tag)) =
      { registry := (resolve components).1
        repository := nameText (resolve components).2
        tag := tag.getD "latest".toList } := by
  obtain ⟨hne, hplain⟩ := hostAndPath_plain h
  have hcolon : ':' ∉ nameText (hostAndPath components).2 :=
    nameText_notMem (by decide) fun component hmem => (hplain component hmem).2.2
  have hhost : cutHost (withTag (nameText components) tag) =
      ((hostAndPath components).1, withTag (nameText (hostAndPath components).2) tag) := by
    cases tag with
    | none => exact cutHost_nameText h
    | some t =>
      unfold withTag
      rw [cutHost_tagged (htag t rfl).plain.1, cutHost_nameText h]
  have hcut : (cutLast ':' (withTag (nameText (hostAndPath components).2) tag)).getD
      (withTag (nameText (hostAndPath components).2) tag, "latest".toList) =
        (nameText (hostAndPath components).2, tag.getD "latest".toList) := by
    cases tag with
    | none =>
      unfold withTag
      rw [cutLast_of_notMem hcolon]
      rfl
    | some t =>
      unfold withTag
      rw [cutLast_append (htag t rfl).plain.2]
      rfl
  unfold parseRef
  rw [String.toList_ofList, hhost]
  dsimp only
  rw [hcut]
  dsimp only
  unfold resolve
  dsimp only
  by_cases hhub : IsHub (hostAndPath components).1
  · have hname : (if (hostAndPath components).1 = "docker.io".toList ∨
        (hostAndPath components).1 = "index.docker.io".toList then dockerHub
        else (hostAndPath components).1) = dockerHub := by
      rcases hhub with h | h | h
      · rw [if_pos (.inl h)]
      · rw [if_pos (.inr h)]
      · rw [h, ite_self]
    rw [hname, if_pos hhub, ← hubRepository hne hplain]
    simp only [true_and]
  · have hname : ¬ ((hostAndPath components).1 = "docker.io".toList ∨
        (hostAndPath components).1 = "index.docker.io".toList) :=
      fun h => hhub (h.imp_right .inl)
    have hother : (hostAndPath components).1 ≠ dockerHub := fun h => hhub (.inr (.inr h))
    rw [if_neg hname, if_neg hhub, if_neg (fun h => hother h.1)]

/-! ### Rebuilding -/

/-- A path that starts with the text `library/` starts with the component. -/
theorem afterPrefix_library {path : List Text} (hplain : ∀ c ∈ path, Plain c) :
    (match afterPrefix "library/".toList (nameText path) with
      | some (c :: rest) => c :: rest
      | _ => nameText path) = nameText (rebuild (dockerHub, path)) := by
  have hlibrary : "library/".toList = "library".toList ++ ['/'] := by decide
  match path with
  | [] => rfl
  | [image] =>
    have htext : nameText [image] = image := List.intercalate_singleton
    have hnone : afterPrefix "library/".toList image = none := by
      rw [Option.eq_none_iff_forall_not_mem]
      intro rest hrest
      have himage := afterPrefix_eq_some.mp hrest
      apply (hplain image List.mem_cons_self).2.1
      rw [himage, hlibrary]
      simp
    rw [htext, hnone]
    exact htext.symm
  | first :: second :: rest =>
    have hslash : '/' ∉ first := (hplain first List.mem_cons_self).2.1
    by_cases hfirst : first = "library".toList
    · have hafter : afterPrefix "library/".toList (nameText (first :: second :: rest)) =
          some (nameText (second :: rest)) := by
        rw [afterPrefix_eq_some, nameText_cons_cons, hfirst, hlibrary]
        simp
      have hfilled : second ≠ [] := (hplain second (by simp)).1
      have hne : nameText (second :: rest) ≠ [] := by
        cases rest with
        | nil => rwa [nameText, List.intercalate_singleton]
        | cons third rest =>
          rw [nameText_cons_cons]
          simp
      obtain ⟨c, text, htext⟩ := List.exists_cons_of_ne_nil hne
      rw [hafter, hfirst, rebuild_library, htext]
    · have hafter : afterPrefix "library/".toList (nameText (first :: second :: rest)) = none := by
        rw [Option.eq_none_iff_forall_not_mem]
        intro text htext
        have hname := afterPrefix_eq_some.mp htext
        rw [nameText_cons_cons, hlibrary, List.append_assoc] at hname
        have hcut : (cut '/' (first ++ '/' :: nameText (second :: rest))).1 =
            (cut '/' ("library".toList ++ (['/'] ++ text))).1 := by rw [hname]
        rw [cut_append hslash, cut_append (by decide)] at hcut
        exact hfirst (by simpa [cut] using hcut)
      rw [hafter, rebuild_hub hfirst]

/-- What a parsed name and a tag are put together to. -/
theorem replaceTag_path {host : Text} {path : List Text} (hne : path ≠ [])
    (hplain : ∀ c ∈ path, Plain c) (tag t : Text) :
    replaceTag { registry := host, repository := nameText path, tag := tag } t =
      String.ofList (withTag (nameText (rebuild (host, path))) (some t)) := by
  unfold replaceTag withTag
  dsimp only
  congr 1
  congr 1
  by_cases hhost : host = dockerHub
  · rw [if_neg (not_not.mpr hhost), hhost]
    exact afterPrefix_library hplain
  · rw [if_pos hhost, rebuild_other hhost]
    obtain ⟨first, rest, rfl⟩ := List.exists_cons_of_ne_nil hne
    rw [nameText_cons_cons]

/-- The path of a resolved name. -/
theorem resolve_plain {components : List Text} (h : ValidName components) :
    (resolve components).2 ≠ [] ∧ ∀ c ∈ (resolve components).2, Plain c := by
  obtain ⟨hne, hplain⟩ := hostAndPath_plain h
  unfold resolve
  dsimp only
  split
  · match hpath : (hostAndPath components).2, hne with
    | [image], _ =>
      refine ⟨by simp [hubPath], fun c hc => ?_⟩
      rcases List.mem_cons.mp hc with rfl | hc
      · exact ⟨by decide, by decide, by decide⟩
      · exact hplain c (hpath ▸ hc)
    | first :: second :: rest, _ =>
      rw [hpath] at hplain
      exact ⟨by simp [hubPath], hplain⟩
  · exact ⟨hne, hplain⟩

/-- A resolved host other than Docker Hub is one the name starts with. -/
theorem resolve_host {components : List Text} (hother : (resolve components).1 ≠ dockerHub) :
    resolve components = hostAndPath components ∧ IsHost (resolve components).1 ∧
      ¬ IsHub (resolve components).1 ∧ (resolve components).1 ∈ components := by
  have hnot : ¬ IsHub (hostAndPath components).1 := by
    intro hhub
    apply hother
    unfold resolve
    dsimp only
    rw [if_pos hhub]
  have hresolve : resolve components = hostAndPath components := by
    unfold resolve
    dsimp only
    rw [if_neg hnot]
  rw [hresolve] at hother ⊢
  rcases hostAndPath_host components with hhub | ⟨hhost, hmem⟩
  · exact absurd hhub hother
  · exact ⟨rfl, hhost, hnot, hmem⟩

/-- The components of a path make a name. -/
theorem validName_path {path : List Text} (hne : path ≠ []) (hplain : ∀ c ∈ path, Plain c) :
    ValidName path where
  nonempty := hne
  filled c hc := (hplain c hc).1
  noSlash c hc := (hplain c hc).2.1
  pathColon c hc := (hplain c (List.mem_of_mem_tail hc)).2.2
  nameColon c hc := (hplain c (hc ▸ List.mem_cons_self)).2.2

theorem rebuild_mem {path : List Text} {c : Text} (h : c ∈ rebuild (dockerHub, path)) :
    c ∈ path := by
  match path with
  | [] => exact h
  | [image] => exact h
  | first :: second :: rest =>
    by_cases hfirst : first = "library".toList
    · rw [hfirst, rebuild_library] at h
      exact List.mem_cons_of_mem _ h
    · rwa [rebuild_hub hfirst] at h

theorem rebuild_ne_nil {path : List Text} (hne : path ≠ []) : rebuild (dockerHub, path) ≠ [] := by
  match path with
  | [] => exact absurd rfl hne
  | [image] => simp [rebuild]
  | first :: second :: rest =>
    by_cases hfirst : first = "library".toList
    · rw [hfirst, rebuild_library]
      simp
    · rw [rebuild_hub hfirst]
      simp

theorem validName_rebuild {components : List Text} (h : ValidName components) :
    ValidName (rebuild (resolve components)) := by
  obtain ⟨hne, hplain⟩ := resolve_plain h
  by_cases hhost : (resolve components).1 = dockerHub
  · have heq : resolve components = (dockerHub, (resolve components).2) := by rw [← hhost]
    rw [heq]
    exact validName_path (rebuild_ne_nil hne) fun c hc => hplain c (rebuild_mem hc)
  · obtain ⟨-, -, -, hmem⟩ := resolve_host hhost
    have heq : rebuild (resolve components) = (resolve components).1 :: (resolve components).2 :=
      rebuild_other hhost _
    rw [heq]
    exact
      { nonempty := by simp
        filled := fun c hc => (List.mem_cons.mp hc).elim
          (fun heq => heq ▸ h.filled _ hmem) fun hc => (hplain c hc).1
        noSlash := fun c hc => (List.mem_cons.mp hc).elim
          (fun heq => heq ▸ h.noSlash _ hmem) fun hc => (hplain c hc).2.1
        pathColon := fun c hc => (hplain c hc).2.2
        nameColon := fun c hc => absurd (List.cons.inj hc).2 hne }

/-- A name survives parsing and rebuilding exactly if it still resolves to itself. -/
theorem roundTrip_iff_resolve (r : Reference) {t : Text} (ht : ValidTag t) :
    parseRef (replaceTag (parseRef r.text) t) = { parseRef r.text with tag := t } ↔
      resolve (rebuild (resolve r.components)) = resolve r.components := by
  obtain ⟨hne, hplain⟩ := resolve_plain r.name
  obtain ⟨hne', hplain'⟩ := resolve_plain (validName_rebuild r.name)
  have htag : ∀ t' ∈ some t, ValidTag t' := by
    intro t' h
    rwa [← Option.some.inj h]
  have hparse : parseRef r.text = { registry := (resolve r.components).1
                                    repository := nameText (resolve r.components).2
                                    tag := r.tag.getD "latest".toList } :=
    parseRef_text r.name r.tagged
  rw [hparse, replaceTag_path hne hplain, parseRef_text (validName_rebuild r.name) htag]
  simp only [Ref.mk.injEq, Option.getD_some, and_true]
  constructor
  · rintro ⟨hhost, hpath⟩
    exact Prod.ext hhost (intercalate_inj (fun c hc => (hplain' c hc).2.1)
      (fun c hc => (hplain c hc).2.1) hne' hne hpath)
  · intro h
    rw [h]
    exact ⟨rfl, rfl⟩

/-! ### Which names survive -/

/-- A path on Docker Hub that is still one without its host: it does not start like a host, and
only library images start with `library`. -/
def Survives : List Text → Prop
  | first :: _ :: rest =>
    (first = "library".toList → rest = []) ∧ ¬ IsHost first
  | _ => True

theorem not_isHost_library : ¬ IsHost "library".toList := by decide

theorem isHub_dockerHub : IsHub dockerHub := .inr (.inr rfl)

theorem resolve_of_host {first second : Text} {rest : List Text} (h : IsHost first) :
    resolve (first :: second :: rest) =
      if IsHub first then (dockerHub, hubPath (second :: rest)) else (first, second :: rest) := by
  unfold resolve
  rw [hostAndPath_of_host h]

theorem resolve_of_not_host {first second : Text} {rest : List Text} (h : ¬ IsHost first) :
    resolve (first :: second :: rest) = (dockerHub, first :: second :: rest) := by
  unfold resolve
  rw [hostAndPath_of_not_host h]
  dsimp only
  rw [if_pos isHub_dockerHub]
  rfl

theorem hubPath_length (first : Text) (rest : List Text) :
    (hubPath (first :: rest)).length ≤ rest.length + 2 := by
  cases rest <;> simp [hubPath]

/-- The path without its first component never resolves to the whole path. -/
theorem resolve_tail_ne {first second third : Text} {rest : List Text} :
    resolve (second :: third :: rest) ≠ (dockerHub, first :: second :: third :: rest) := by
  intro h
  by_cases hhost : IsHost second
  · rw [resolve_of_host hhost] at h
    split at h
    · have hlength := congrArg (fun p => p.2.length) h
      have hshort := hubPath_length third rest
      simp only [List.length_cons] at hlength
      omega
    · next hother =>
      exact hother ((Prod.mk.inj h).1 ▸ isHub_dockerHub)
  · rw [resolve_of_not_host hhost] at h
    have hlength := congrArg (fun p => p.2.length) h
    simp at hlength

theorem resolve_rebuild_hub {path : List Text} (hne : path ≠ []) :
    resolve (rebuild (dockerHub, hubPath path)) = (dockerHub, hubPath path) ↔ Survives path := by
  match path, hne with
  | [image], _ =>
    have hlibrary : hubPath [image] = ["library".toList, image] := rfl
    rw [hlibrary, rebuild_library]
    simp [resolve, hostAndPath, isHub_dockerHub, hubPath, Survives]
  | first :: second :: rest, _ =>
    have hsame : hubPath (first :: second :: rest) = first :: second :: rest := rfl
    rw [hsame]
    by_cases hfirst : first = "library".toList
    · rw [hfirst, rebuild_library]
      cases rest with
      | nil =>
        have hlibrary : Survives ["library".toList, second] := ⟨fun _ => rfl, not_isHost_library⟩
        exact iff_of_true (by simp [resolve, hostAndPath, isHub_dockerHub, hubPath]) hlibrary
      | cons third rest =>
        constructor
        · exact fun h => absurd h resolve_tail_ne
        · exact fun h => nomatch h.1 rfl
    · rw [rebuild_hub hfirst]
      by_cases hhost : IsHost first
      · constructor
        · intro h
          rw [resolve_of_host hhost] at h
          split at h
          · exfalso
            cases rest with
            | nil =>
              have hlibrary := (List.cons.inj (Prod.mk.inj h).2).1
              exact hfirst hlibrary.symm
            | cons third rest =>
              have hlength := congrArg (fun p => p.2.length) h
              simp [hubPath] at hlength
          · next hother => exact absurd ((Prod.mk.inj h).1 ▸ isHub_dockerHub) hother
        · exact fun h => absurd hhost h.2
      · rw [resolve_of_not_host hhost]
        exact ⟨fun _ => ⟨fun heq => absurd heq hfirst, hhost⟩, fun _ => rfl⟩

theorem resolve_rebuild_iff {components : List Text} (h : ValidName components) :
    resolve (rebuild (resolve components)) = resolve components ↔
      (IsHub (hostAndPath components).1 → Survives (hostAndPath components).2) := by
  obtain ⟨hne, -⟩ := hostAndPath_plain h
  by_cases hhub : IsHub (hostAndPath components).1
  · have hresolve : resolve components = (dockerHub, hubPath (hostAndPath components).2) := by
      unfold resolve
      dsimp only
      rw [if_pos hhub]
    rw [hresolve, resolve_rebuild_hub hne]
    exact ⟨fun hsurvives _ => hsurvives, fun hsurvives => hsurvives hhub⟩
  · have hresolve : resolve components = hostAndPath components := by
      unfold resolve
      dsimp only
      rw [if_neg hhub]
    have hother : (resolve components).1 ≠ dockerHub := by
      rw [hresolve]
      exact fun heq => hhub (heq ▸ isHub_dockerHub)
    obtain ⟨-, hhost, hnot, -⟩ := resolve_host hother
    obtain ⟨second, rest, hpath⟩ := List.exists_cons_of_ne_nil hne
    have hrebuild : rebuild (resolve components) =
        (resolve components).1 :: (resolve components).2 := rebuild_other hother _
    rw [hrebuild]
    refine ⟨fun _ hhub' => absurd hhub' hhub, fun _ => ?_⟩
    have hsecond : (resolve components).2 = second :: rest := by rw [hresolve, hpath]
    rw [hsecond, resolve_of_host hhost, if_neg hnot, ← hsecond]

/-- A reference without its tag has the host and the repository of the reference. -/
theorem parseRef_strip (r : Reference) :
    (parseRef (stripImageTag r.text)).registry = (parseRef r.text).registry ∧
      (parseRef (stripImageTag r.text)).repository = (parseRef r.text).repository := by
  apply parseRef_stripImageTag
  rw [show parseRef r.text = _ from parseRef_text r.name r.tagged]
  exact nameText_notMem (by decide) fun c hc => ((resolve_plain r.name).2 c hc).2.2

/-- Parsing undoes rebuilding with any tag, and a reference without its tag names the same
repository, exactly if the name is not on Docker Hub or its path survives without the host. -/
theorem roundTrip_iff (r : Reference) :
    ((∀ t, ValidTag t → parseRef (replaceTag (parseRef r.text) t) =
        { parseRef r.text with tag := t }) ∧
      (parseRef (stripImageTag r.text)).registry = (parseRef r.text).registry ∧
      (parseRef (stripImageTag r.text)).repository = (parseRef r.text).repository) ↔
    (IsHub (hostAndPath r.components).1 → Survives (hostAndPath r.components).2) := by
  have hlatest : ValidTag "latest".toList :=
    ⟨by decide, 'l', "atest".toList, by decide, by decide, tail_of_all (by decide)⟩
  rw [← resolve_rebuild_iff r.name]
  constructor
  · exact fun h => (roundTrip_iff_resolve r hlatest).mp (h.1 _ hlatest)
  · exact fun h => ⟨fun t ht => (roundTrip_iff_resolve r ht).mpr h, parseRef_strip r⟩

/-- A repository of Docker Hub whose owner is called like a host. -/
def hostlikeOwner : Reference where
  components := ["docker.io".toList, "localhost".toList, "app".toList]
  tag := some "1.0.0".toList
  name :=
    { nonempty := by decide
      filled := by decide
      noSlash := by decide
      pathColon := by decide
      nameColon := fun component h => by simp at h }
  tagged t h := by
    rw [← Option.some.inj h]
    exact ⟨by decide, '1', ".0.0".toList, by decide, by decide, tail_of_all (by decide)⟩

theorem hostlikeOwner_moves : ¬ ∀ r : Reference,
    (∀ t, ValidTag t → parseRef (replaceTag (parseRef r.text) t) =
        { parseRef r.text with tag := t }) ∧
      (parseRef (stripImageTag r.text)).registry = (parseRef r.text).registry ∧
      (parseRef (stripImageTag r.text)).repository = (parseRef r.text).repository := by
  intro h
  have htag : ValidTag "1.0.1".toList :=
    ⟨by decide, '1', ".0.1".toList, by decide, by decide, tail_of_all (by decide)⟩
  have hregistry := congrArg Ref.registry ((h hostlikeOwner).1 _ htag)
  exact absurd hregistry (by decide +kernel)

end Doupro.Api
