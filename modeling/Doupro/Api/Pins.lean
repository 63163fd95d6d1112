import Doupro.Api.Schedules

/-!
# What a pin names

A pin is the name of the reference and a digest. The name keeps the host and the repository of the
reference, and what a registry keeps under a digest never changes.
-/

namespace Doupro.Api

open Registry Text

/-! ### The name of a reference -/

theorem lastIndex_append {sep : Char} {before after : Text} (h : sep ∉ after) :
    lastIndex sep (before ++ sep :: after) = before.length := by
  have hrev : sep ∉ after.reverse := by simpa using h
  have hidx : (before ++ sep :: after).reverse.idxOf sep = after.length := by
    rw [List.reverse_append, List.reverse_cons, List.append_assoc, List.idxOf_append, if_neg hrev]
    simp
  unfold lastIndex
  rw [hidx]
  simp only [List.length_append, List.length_cons]
  omega

/-- The last slash lies before the last colon. -/
theorem lastIndex_lt {s : Text} (h : lastIndex '/' s < lastIndex ':' s) :
    ∃ name tag, s = name ++ ':' :: tag ∧ ':' ∉ tag ∧ '/' ∉ tag := by
  have hmem : ':' ∈ s.reverse := by
    by_contra hnone
    have hcolon : s.reverse.idxOf ':' = s.length := by rw [List.idxOf_eq_length hnone, List.length_reverse]
    have hslash : s.reverse.idxOf '/' ≤ s.length := by
      rw [← s.length_reverse]
      exact List.idxOf_le_length
    unfold lastIndex at h
    omega
  obtain ⟨tag, name, hs, hcolon⟩ := List.eq_append_cons_of_mem hmem
  have hs' : s = name.reverse ++ ':' :: tag.reverse := by
    rw [← List.reverse_reverse s, hs]
    simp
  refine ⟨name.reverse, tag.reverse, hs', by simpa using hcolon, fun hslash => ?_⟩
  have hslash : '/' ∈ tag := by simpa using hslash
  have hbefore : s.reverse.idxOf '/' < tag.length := by
    rw [hs, List.idxOf_append, if_pos hslash]
    exact List.idxOf_lt_length_of_mem hslash
  have hat : s.reverse.idxOf ':' = tag.length := by
    rw [hs, List.idxOf_append, if_neg hcolon]
    simp
  unfold lastIndex at h
  omega

theorem cutLast_append {sep : Char} {before after : Text} (h : sep ∉ after) :
    cutLast sep (before ++ sep :: after) = some (before, after) := by
  have hrev : sep ∉ after.reverse := by simpa using h
  unfold cutLast
  rw [List.reverse_append, List.reverse_cons, List.append_assoc]
  rw [show [sep] ++ before.reverse = sep :: before.reverse from rfl, cut_append hrev]
  simp [cut]

/-- A tag after the last slash belongs to what follows the host. -/
theorem cutHost_tagged {name tag : Text} (h : '/' ∉ tag) :
    cutHost (name ++ ':' :: tag) = ((cutHost name).1, (cutHost name).2 ++ ':' :: tag) := by
  by_cases hslash : '/' ∈ name
  · obtain ⟨first, rest, rfl, hfirst⟩ := List.eq_append_cons_of_mem hslash
    unfold cutHost
    rw [List.append_assoc, List.cons_append, cut_append hfirst, cut_append hfirst]
    simp only [cut, if_true, List.append_nil]
    split <;> simp
  · have hnone : '/' ∉ name ++ ':' :: tag := by simp [hslash, h]
    unfold cutHost
    rw [cut_of_notMem hslash, cut_of_notMem hnone]

/-- Host and repository come from the host and from what stands before the tag. -/
theorem parseRef_congr {a b : String} (hhost : (cutHost a.toList).1 = (cutHost b.toList).1)
    (hrepo : ((cutLast ':' (cutHost a.toList).2).getD ((cutHost a.toList).2, "latest".toList)).1 =
      ((cutLast ':' (cutHost b.toList).2).getD ((cutHost b.toList).2, "latest".toList)).1) :
    (parseRef a).registry = (parseRef b).registry ∧
      (parseRef a).repository = (parseRef b).repository := by
  unfold parseRef
  simp only [hhost, hrepo, and_self]

theorem repository_of_notMem {image : String} (h : ':' ∉ (parseRef image).repository) :
    ':' ∉ ((cutLast ':' (cutHost image.toList).2).getD ((cutHost image.toList).2, "latest".toList)).1 := by
  intro hmem
  apply h
  unfold parseRef
  dsimp only
  split_ifs
  all_goals first
    | exact hmem
    | exact List.mem_append_right _ hmem

/-- The name of a reference keeps its host and its repository. -/
theorem parseRef_stripImageTag {image : String} (h : ':' ∉ (parseRef image).repository) :
    (parseRef (stripImageTag image)).registry = (parseRef image).registry ∧
      (parseRef (stripImageTag image)).repository = (parseRef image).repository := by
  unfold stripImageTag
  simp only
  split
  · next hcolon =>
    obtain ⟨name, tag, himage, htag, hslash⟩ := lastIndex_lt hcolon
    have hstrip : image.toList.take (lastIndex ':' image.toList).toNat = name := by
      rw [himage, lastIndex_append htag]
      simp
    rw [hstrip]
    have hrepo := repository_of_notMem h
    rw [himage, cutHost_tagged hslash, cutLast_append htag] at hrepo
    change ':' ∉ (cutHost name).2 at hrepo
    apply parseRef_congr
    · rw [String.toList_ofList, himage, cutHost_tagged hslash]
    · rw [String.toList_ofList, himage, cutHost_tagged hslash, cutLast_append htag,
        cutLast_of_notMem hrepo]
      rfl
  · exact ⟨rfl, rfl⟩

/-! ### Content by digest -/

/-- What registries keep under a host, a repository and a digest. -/
abbrev Blobs := Text → Text → String → Option String

/-- A reference by digest stands for what is kept under its repository and the digest. -/
def Blobs.Serves (blobs : Blobs) (imageRef image : String) : Prop :=
  ∀ name digest, '@' ∉ digest.toList → imageRef = name ++ "@" ++ digest →
    blobs (parseRef name).registry (parseRef name).repository digest = some image

/-- The references by digest that can be pulled stand for what is kept. -/
def Blobs.KeptBy (blobs : Blobs) (e : Engine) : Prop :=
  ∀ imageRef image, e.registry imageRef = some image → blobs.Serves imageRef image

/-- A registry answered for a reference with the digest of what it has under it. Such a reference
is no image ID, no registry is called like one, and a repository has no colon in its name. -/
structure Resolved (blobs : Blobs) (e : Engine) (image digest : String) (content : String) : Prop where
  host : ¬ "sha256:".toList <+: (parseRef image).registry
  repository : ':' ∉ (parseRef image).repository
  digest_plain : '@' ∉ digest.toList
  tagged : hasPrefix image "sha256:" = false
  published : e.registry image = some content
  kept : blobs (parseRef image).registry (parseRef image).repository digest = some content

/-- The reference a pin makes. -/
def pinned (image digest : String) : String := stripImageTag image ++ "@" ++ digest

/-- The first segment of a text with a slash. -/
theorem cutHost_imageID {s : Text} (hstart : "sha256:".toList <+: s) (hslash : '/' ∈ s) :
    "sha256:".toList <+: (cutHost s).1 := by
  obtain ⟨first, rest, rfl, hfirst⟩ := List.eq_append_cons_of_mem hslash
  have hpre : "sha256:".toList <+: first := by
    rcases Nat.lt_or_ge first.length "sha256:".toList.length with hshort | hlong
    · have hat : first ++ ['/'] <+: "sha256:".toList := by
        have hlength : (first ++ ['/']).length ≤ "sha256:".toList.length := by
          rw [List.length_append]
          exact hshort
        exact List.prefix_of_prefix_length_le ⟨rest, by simp⟩ hstart hlength
      have hmem : '/' ∈ "sha256:".toList := hat.subset (by simp)
      exact absurd hmem (by decide)
    · exact List.prefix_of_prefix_length_le hstart ⟨'/' :: rest, rfl⟩ hlong
  have hcolon : ':' ∈ first := hpre.subset (by decide)
  have hhost : (first.any fun c => c = '.' || c = ':') = true :=
    List.any_eq_true.mpr ⟨':', hcolon, by decide⟩
  unfold cutHost
  rw [cut_append hfirst]
  simp only [cut, if_true, List.append_nil, hhost, Bool.true_or]
  exact hpre

/-- A reference whose first segment looks like an image ID is served by a host of that name. -/
theorem parseRef_imageID {image : String} (hstart : "sha256:".toList <+: (cutHost image.toList).1) :
    "sha256:".toList <+: (parseRef image).registry := by
  unfold parseRef
  dsimp only
  split
  · next hhub =>
    rcases hhub with hhub | hhub
    · rw [hhub] at hstart
      exact absurd hstart (by decide)
    · rw [hhub] at hstart
      exact absurd hstart (by decide)
  · exact hstart

/-- The name of a resolved reference is no image ID. -/
theorem stripImageTag_tagged {image : String} (hhost : ¬ "sha256:".toList <+: (parseRef image).registry)
    (hrepo : ':' ∉ (parseRef image).repository) : ¬ "sha256:".toList <+: (stripImageTag image).toList := by
  intro hstart
  have hcolon : ':' ∈ (stripImageTag image).toList := hstart.subset (by decide)
  have hslash : '/' ∉ (stripImageTag image).toList := by
    intro hslash
    have hregistry := parseRef_imageID (cutHost_imageID hstart hslash)
    rw [(parseRef_stripImageTag hrepo).1] at hregistry
    exact hhost hregistry
  have hname := repository_of_notMem hrepo
  unfold stripImageTag at hcolon hslash
  dsimp only at hcolon hslash
  split at hcolon
  · next hlt =>
    rw [if_pos hlt, String.toList_ofList] at hslash
    rw [String.toList_ofList] at hcolon
    obtain ⟨name, tag, himage, htag, hrest⟩ := lastIndex_lt hlt
    rw [himage, lastIndex_append htag] at hcolon hslash
    simp only [Int.toNat_natCast, List.take_left'] at hcolon hslash
    rw [himage, cutHost_tagged hrest, cutLast_append htag] at hname
    unfold cutHost at hname
    rw [cut_of_notMem hslash] at hname
    exact hname hcolon
  · next hge =>
    rw [if_neg hge] at hslash
    have hlast : Text.lastIndex '/' image.toList = -1 := by
      unfold lastIndex
      rw [List.idxOf_eq_length (by simpa using hslash), List.length_reverse]
      omega
    have hfound : image.toList.reverse.idxOf ':' < image.toList.length := by
      rw [← image.toList.length_reverse]
      exact List.idxOf_lt_length_of_mem (by simpa using hcolon)
    rw [hlast] at hge
    unfold lastIndex at hge
    omega

namespace Resolved

variable {blobs : Blobs} {e : Engine} {image digest content : String}

/-- A pin is no image ID either, however the reference is written. -/
theorem pinned_tagged (h : Resolved blobs e image digest content) {written : String}
    (hsame : parseRef written = parseRef image) :
    hasPrefix (pinned written digest) "sha256:" = false := by
  have hname : ¬ "sha256:".toList <+: (stripImageTag written).toList :=
    stripImageTag_tagged (hsame ▸ h.host) (hsame ▸ h.repository)
  by_contra hpinned
  rw [Bool.not_eq_false] at hpinned
  have hstart : "sha256:".toList <+: (stripImageTag written).toList ++ '@' :: digest.toList := by
    have hpre := List.isPrefixOf_iff_prefix.mp hpinned
    unfold pinned at hpre
    simpa using hpre
  rcases Nat.lt_or_ge (stripImageTag written).toList.length "sha256:".toList.length with hshort | hlong
  · have hat : (stripImageTag written).toList ++ ['@'] <+: "sha256:".toList := by
      have hlength : ((stripImageTag written).toList ++ ['@']).length ≤ "sha256:".toList.length := by
        rw [List.length_append]
        exact hshort
      exact List.prefix_of_prefix_length_le ⟨digest.toList, by simp⟩ hstart hlength
    have hmem : '@' ∈ "sha256:".toList := hat.subset (by simp)
    exact absurd hmem (by decide)
  · exact hname (List.prefix_of_prefix_length_le hstart ⟨'@' :: digest.toList, rfl⟩ hlong)

/-- Whatever a pin stands for later, it is what its reference stood for when it was resolved. -/
theorem pinned_content (h : Resolved blobs e image digest content) {written : String}
    (hsame : parseRef written = parseRef image) {later : Engine} (hlater : blobs.KeptBy later)
    {found : String} (hfound : later.registry (pinned written digest) = some found) :
    found = content := by
  have hserved := hlater _ _ hfound (stripImageTag written) digest h.digest_plain rfl
  obtain ⟨hregistry, hrepository⟩ := parseRef_stripImageTag (hsame ▸ h.repository)
  rw [hregistry, hrepository, hsame, h.kept] at hserved
  exact (Option.some.inj hserved).symm

end Resolved
end Doupro.Api
