import Doupro.Registry.Confinement
import Doupro.Registry.ResolveVersion

/-!
# The search for the versions of digests

`ListDockerHubTags` and `ResolveVersionTags` stop once a tag that counts as a version has been seen
for every digest they look for. `ResolveVersion` then takes only the tags of plain version shape.
-/

namespace Doupro.Registry

open Interaction Text

/-! ### The pages of Docker Hub -/

/-- The tags an answer lists. -/
def listedIn : Except GoError Response → List (Text × Text)
  | .ok resp => if resp.status = 200 then (resp.body.map Body.results).getD [] else []
  | .error _ => []

/-- The tags on the pages of a run, with their digests. -/
def listed (trace : Trace Wire Unit) : List (Text × Text) := trace.flatMap fun e => listedIn e.reply

theorem listed_append (first rest : Trace Wire Unit) :
    listed (first ++ rest) = listed first ++ listed rest :=
  List.flatMap_append

theorem listedIn_of_isRedirect {resp : Response} (h : isRedirect resp.status = true) :
    listedIn (.ok resp) = [] := by
  have hstatus : resp.status ≠ 200 := by
    intro hok
    rw [hok] at h
    cases h
  exact if_neg hstatus

/-- Redirects list nothing. -/
theorem follow_listed {redirects : Nat} {req : Request} {trace : Trace Wire Unit}
    {out : Except GoError Response}
    (hrun : anyRegistry.Runs (follow redirects req) () trace out ()) : listed trace = listedIn out := by
  induction redirects generalizing req trace with
  | zero =>
    obtain ⟨rfl, rfl, -⟩ := hrun
    rfl
  | succ redirects ih =>
    unfold follow at hrun
    split at hrun
    · obtain ⟨rfl, rfl, -⟩ := hrun
      rfl
    split at hrun
    · obtain ⟨rfl, rfl, -⟩ := hrun
      rfl
    obtain ⟨_, answer, _, rest, -, -, rfl, hrest⟩ := Machine.runs_request_bind.mp hrun
    cases answer with
    | error err =>
      obtain ⟨rfl, rfl, -⟩ := hrest
      rfl
    | ok resp =>
      have hcons : listed (⟨(), req, .ok resp⟩ :: rest) = listedIn (.ok resp) ++ listed rest := rfl
      have hcases : redirect req resp = .none ∨ isRedirect resp.status = true := by
        unfold redirect
        split
        · exact .inl rfl
        · next h =>
          push Not at h
          exact .inr (by simpa using h.1)
      rw [hcons]
      dsimp only at hrest
      cases hredirect : redirect req resp with
      | none =>
        rw [hredirect] at hrest
        obtain ⟨rfl, rfl, -⟩ := hrest
        exact List.append_nil _
      | invalid =>
        rw [hredirect] at hrest hcases
        obtain ⟨rfl, rfl, -⟩ := hrest
        rw [listedIn_of_isRedirect (hcases.resolve_left (by simp))]
        rfl
      | onward next =>
        rw [hredirect] at hrest hcases
        rw [listedIn_of_isRedirect (hcases.resolve_left (by simp)), List.nil_append]
        exact ih hrest

theorem get_listed {purpose : Purpose} {url accept : Text} {authorization : Option Authorization}
    {trace : Trace Wire Unit} {out : Except GoError Response}
    (hrun : anyRegistry.Runs (get purpose url accept authorization) () trace out ()) :
    listed trace = listedIn out := by
  unfold get at hrun
  split at hrun
  · obtain ⟨rfl, rfl, -⟩ := hrun
    rfl
  · exact follow_listed hrun

/-- The map is what the scan makes of the tags on the pages that were read. -/
theorem listHubPages_runs {bounded : Bool} {pages : Nat} {next : Text} {s : HubScan}
    {trace : Trace Wire Unit} {tags : List (Text × Text)}
    (hrun : anyRegistry.Runs (listHubPages bounded pages next s) () trace (.ok tags) ()) :
    tags = ((listed trace).foldl HubScan.add s).tags := by
  induction pages generalizing next s trace with
  | zero =>
    obtain ⟨rfl, hout, -⟩ := hrun
    exact Except.ok.inj hout
  | succ pages ih =>
    unfold listHubPages at hrun
    split at hrun
    · obtain ⟨rfl, hout, -⟩ := hrun
      exact Except.ok.inj hout
    obtain ⟨first, answer, _, rest, hget, hrest, rfl⟩ := Machine.runs_bind.mp hrun
    rw [listed_append, get_listed hget, List.foldl_append]
    cases answer with
    | error err =>
      obtain ⟨-, hout, -⟩ := hrest
      cases hout
    | ok resp =>
      dsimp only at hrest
      split at hrest
      · obtain ⟨-, hout, -⟩ := hrest
        cases hout
      next hstatus =>
      cases hbody : resp.body with
      | none =>
        rw [hbody] at hrest
        obtain ⟨-, hout, -⟩ := hrest
        cases hout
      | some body =>
        have hpage : listedIn (.ok resp) = body.results := by
          simp [listedIn, not_not.mp hstatus, hbody]
        rw [hbody] at hrest
        dsimp only at hrest
        rw [hpage]
        split at hrest
        · obtain ⟨rfl, hout, -⟩ := hrest
          exact Except.ok.inj hout
        · exact ih hrest

/-! ### The scan of the pages -/

/-- The digest a listing gives a name last. -/
def lastDigest (told : List (Text × Text)) (name : Text) : Option Text := told.reverse.lookup name

theorem lastDigest_concat (told : List (Text × Text)) (entry : Text × Text) (name : Text) :
    lastDigest (told ++ [entry]) name =
      if name = entry.1 then some entry.2 else lastDigest told name := by
  obtain ⟨key, digest⟩ := entry
  unfold lastDigest
  rw [List.reverse_append, List.reverse_singleton, List.singleton_append, List.lookup_cons]
  by_cases h : name = key
  · simp [h]
  · rw [beq_false_of_ne h, if_neg h]

theorem mem_put {key value name digest : Text} {m : List (Text × Text)} :
    (name, digest) ∈ put key value m ↔
      (name = key ∧ digest = value) ∨ (name ≠ key ∧ (name, digest) ∈ m) := by
  unfold put
  rw [List.mem_append, List.mem_filter]
  simp only [List.mem_singleton, Prod.mk.injEq, decide_eq_true_eq]
  tauto

/-- The entries of a listing that have a digest. -/
def withDigest (results : List (Text × Text)) : List (Text × Text) :=
  results.filter fun entry => entry.2 ≠ []

theorem withDigest_concat (results : List (Text × Text)) (entry : Text × Text) :
    withDigest (results ++ [entry]) =
      if entry.2 = [] then withDigest results else withDigest results ++ [entry] := by
  by_cases h : entry.2 = [] <;> simp [withDigest, h]

theorem add_tags (s : HubScan) (entry : Text × Text) :
    (s.add entry).tags = if entry.2 = [] then s.tags else put entry.1 entry.2 s.tags := by
  unfold HubScan.add
  split
  · rfl
  · dsimp only
    split <;> rfl

/-- The map of a scan holds for each name the digest listed last. -/
theorem mem_scan_tags {s : HubScan} (hs : s.tags = []) (results : List (Text × Text))
    {name digest : Text} : (name, digest) ∈ (results.foldl HubScan.add s).tags ↔
      lastDigest (withDigest results) name = some digest := by
  induction results using List.reverseRecOn with
  | nil => simp [hs, lastDigest, withDigest]
  | append_singleton results entry ih =>
    rw [List.foldl_append, List.foldl_cons, List.foldl_nil, add_tags, withDigest_concat]
    by_cases hempty : entry.2 = []
    · rw [if_pos hempty, if_pos hempty]
      exact ih
    · rw [if_neg hempty, if_neg hempty, mem_put, ih, lastDigest_concat]
      by_cases hname : name = entry.1
      · simp [hname, eq_comm]
      · simp [hname]

/-- A digest has been matched by a tag that counts as a version. -/
def Matched (told : List (Text × Text)) (digest : Text) : Prop :=
  ∃ entry ∈ told, entry.2 = digest ∧ isVersionTag entry.1 = true

instance (told : List (Text × Text)) (digest : Text) : Decidable (Matched told digest) :=
  inferInstanceAs (Decidable (∃ _ ∈ _, _))

theorem matched_concat {told : List (Text × Text)} {entry : Text × Text} {digest : Text} :
    Matched (told ++ [entry]) digest ↔
      Matched told digest ∨ (entry.2 = digest ∧ isVersionTag entry.1 = true) := by
  simp [Matched, or_and_right, exists_or]

/-- What a scan still wants, and how it counts it. -/
theorem scan_wanted {wanted : List Text} (hwanted : wanted.Nodup) (results : List (Text × Text)) :
    let s := results.foldl HubScan.add { wanted, remaining := wanted.length }
    s.wanted = wanted.filter (fun digest => ¬ Matched (withDigest results) digest) ∧
      s.remaining = s.wanted.length := by
  induction results using List.reverseRecOn with
  | nil => simp [Matched, withDigest]
  | append_singleton results entry ih =>
    obtain ⟨hleft, hcount⟩ := ih
    rw [List.foldl_append, List.foldl_cons, List.foldl_nil, withDigest_concat]
    generalize results.foldl HubScan.add { wanted, remaining := wanted.length } = s at hleft hcount
    unfold HubScan.add
    by_cases hempty : entry.2 = []
    · rw [if_pos hempty, if_pos hempty]
      exact ⟨hleft, hcount⟩
    rw [if_neg hempty, if_neg hempty]
    dsimp only
    by_cases hhit : entry.2 ∈ s.wanted ∧ isVersionTag entry.1 = true
    · rw [if_pos hhit]
      constructor
      · dsimp only
        rw [hleft, List.filter_filter]
        refine List.filter_congr fun digest _ => ?_
        simp [matched_concat, hhit.2, eq_comm, and_comm]
      · have hnodup : s.wanted.Nodup := hleft ▸ hwanted.filter _
        have herase : s.wanted.filter (fun digest => digest ≠ entry.2) = s.wanted.erase entry.2 := by
          rw [hnodup.erase_eq_filter]
          exact List.filter_congr fun digest _ => by simp [bne, Bool.beq_eq_decide_eq]
        have hlength := List.length_erase_of_mem hhit.1
        have hpos := List.length_pos_of_mem hhit.1
        simp only [herase, hlength, hcount]
        omega
    · rw [if_neg hhit]
      refine ⟨?_, hcount⟩
      dsimp only
      rw [hleft]
      refine List.filter_congr fun digest hdigest => ?_
      have hmiss : ¬ (entry.2 = digest ∧ isVersionTag entry.1 = true) ∨
          Matched (withDigest results) digest := by
        by_contra hboth
        push Not at hboth
        obtain ⟨⟨rfl, hversion⟩, hnew⟩ := hboth
        exact hhit ⟨hleft ▸ List.mem_filter.mpr ⟨hdigest, by simpa using hnew⟩, hversion⟩
      rcases hmiss with hmiss | hold
      · simp [matched_concat, hmiss]
      · simp [matched_concat, hold]

/-- The count that ends the scan reaches zero once every digest has been matched. -/
theorem scan_stops_iff {wanted : List Text} (hwanted : wanted.Nodup) (results : List (Text × Text)) :
    (results.foldl HubScan.add { wanted, remaining := wanted.length }).remaining ≤ 0 ↔
      ∀ digest ∈ wanted, Matched (withDigest results) digest := by
  obtain ⟨hleft, hcount⟩ := scan_wanted hwanted results
  rw [hcount, hleft]
  simp [List.filter_eq_nil_iff]

/-! ### The manifests of a registry -/

/-- The tags a session asked for, in order, and what it was told of each. -/
def Told (r : Registries) (ref : Ref) :
    SessionAuth → Trace Wire Unit → List (Text × Except GoError Text) → Prop
  | _, trace, [] => trace = []
  | auth, trace, (tag, answer) :: more => ∃ first rest auth', trace = first ++ rest ∧
      anyRegistry.Runs (manifestSessionDigest r ref auth tag) () first (auth', answer) () ∧
      Told r ref auth' rest more

/-- The tags whose digest was told. -/
def toldBy (answers : List (Text × Except GoError Text)) : List (Text × Text) :=
  answers.filterMap fun (tag, answer) => answer.toOption.map fun digest => (tag, digest)

/-- What a digest that was told does to the digests still wanted and those resolved. -/
def note (s : List Text × List (Text × Text)) (entry : Text × Text) : List Text × List (Text × Text) :=
  if entry.2 ∈ s.1 then (s.1.filter (· ≠ entry.2), put entry.1 entry.2 s.2) else s

theorem resolveCandidates_runs {r : Registries} {ref : Ref} {candidates : List Text}
    {auth : SessionAuth} {s out : Resolution} {trace : Trace Wire Unit}
    (hrun : anyRegistry.Runs (resolveCandidates r ref candidates auth s) () trace out ()) :
    ∃ answers, Told r ref auth trace answers ∧ answers.map Prod.fst <+: candidates ∧
      (out.remaining, out.resolved) = (toldBy answers).foldl note (s.remaining, s.resolved) := by
  induction candidates generalizing auth s trace with
  | nil =>
    obtain ⟨rfl, rfl, -⟩ := hrun
    exact ⟨[], rfl, List.nil_prefix, rfl⟩
  | cons tag rest ih =>
    obtain ⟨first, ⟨auth', answer⟩, _, later, hfirst, hlater, rfl⟩ := Machine.runs_bind.mp hrun
    cases answer with
    | error err =>
      obtain ⟨answers, hanswers, hstarts, hout⟩ := ih hlater
      exact ⟨(tag, .error err) :: answers, ⟨first, later, auth', rfl, hfirst, hanswers⟩,
        List.prefix_cons_inj tag |>.mpr hstarts, hout⟩
    | ok digest =>
      dsimp only at hlater
      split at hlater
      · next hwanted =>
        have hnote : note (s.remaining, s.resolved) (tag, digest) =
            (s.remaining.filter (· ≠ digest), put tag digest s.resolved) := if_pos hwanted
        split at hlater
        · next hdone =>
          obtain ⟨rfl, rfl, -⟩ := hlater
          refine ⟨[(tag, .ok digest)], ⟨first, [], auth', rfl, hfirst, rfl⟩, ?_, ?_⟩
          · exact List.prefix_cons_inj tag |>.mpr List.nil_prefix
          · exact hnote.symm
        · obtain ⟨answers, hanswers, hstarts, hout⟩ := ih hlater
          refine ⟨(tag, .ok digest) :: answers, ⟨first, later, auth', rfl, hfirst, hanswers⟩,
            List.prefix_cons_inj tag |>.mpr hstarts, ?_⟩
          change _ = (toldBy answers).foldl note (note (s.remaining, s.resolved) (tag, digest))
          rw [hnote]
          exact hout
      · next hunwanted =>
        obtain ⟨answers, hanswers, hstarts, hout⟩ := ih hlater
        refine ⟨(tag, .ok digest) :: answers, ⟨first, later, auth', rfl, hfirst, hanswers⟩,
          List.prefix_cons_inj tag |>.mpr hstarts, ?_⟩
        change _ = (toldBy answers).foldl note (note (s.remaining, s.resolved) (tag, digest))
        rw [note, if_neg hunwanted]
        exact hout

/-- A digest is resolved by the first tag it was told for. -/
theorem mem_foldl_note {told : List (Text × Text)} {wanted : List Text}
    {resolved : List (Text × Text)} {name digest : Text} (htold : (told.map Prod.fst).Nodup)
    (hnew : ∀ entry ∈ resolved, entry.1 ∉ told.map Prod.fst) :
    (name, digest) ∈ (told.foldl note (wanted, resolved)).2 ↔ (name, digest) ∈ resolved ∨
      (digest ∈ wanted ∧ told.find? (fun entry => entry.2 = digest) = some (name, digest)) := by
  induction told generalizing wanted resolved with
  | nil => simp
  | cons entry told ih =>
    obtain ⟨tag, d⟩ := entry
    rw [List.map_cons, List.nodup_cons] at htold
    have hfresh : ∀ entry ∈ resolved, entry.1 ≠ tag ∧ entry.1 ∉ told.map Prod.fst := by
      intro entry hentry
      simpa using hnew entry hentry
    rw [List.foldl_cons, note]
    by_cases hwanted : d ∈ wanted
    · rw [if_pos hwanted, ih htold.2, mem_put, List.mem_filter]
      · by_cases hd : d = digest
        · subst hd
          have hname : (name, d) ∈ resolved → name ≠ tag := fun h => (hfresh _ h).1
          simp only [List.find?_cons_of_pos, decide_true, Option.some.injEq, Prod.mk.injEq, and_true]
          simp only [ne_eq, decide_not, decide_true, Bool.not_true, Bool.false_eq_true, and_false,
            false_and, or_false, hwanted, true_and]
          tauto
        · have hname : (name, digest) ∈ resolved → name ≠ tag := fun h => (hfresh _ h).1
          simp only [hd, decide_false, Bool.false_eq_true, not_false_eq_true, List.find?_cons_of_neg,
            ne_eq, Ne.symm hd, and_false, false_or, and_true, decide_true]
          tauto
      · intro entry hentry
        rcases List.mem_append.mp hentry with hold | hsame
        · exact (hfresh entry (List.mem_of_mem_filter hold)).2
        · rw [List.mem_singleton.mp hsame]
          exact htold.1
    · rw [if_neg hwanted, ih htold.2 fun entry hentry => (hfresh entry hentry).2]
      by_cases hd : d = digest
      · subst hd
        simp [hwanted]
      · simp [hd]

/-- What is still wanted has not been told; the session ends when nothing is. -/
theorem mem_foldl_note_wanted {told : List (Text × Text)} {wanted : List Text}
    {resolved : List (Text × Text)} {digest : Text} :
    digest ∈ (told.foldl note (wanted, resolved)).1 ↔
      digest ∈ wanted ∧ ∀ entry ∈ told, entry.2 ≠ digest := by
  induction told generalizing wanted resolved with
  | nil => simp
  | cons entry told ih =>
    rw [List.foldl_cons, note, List.forall_mem_cons]
    by_cases hwanted : entry.2 ∈ wanted
    · rw [if_pos hwanted, ih, List.mem_filter]
      simp only [decide_eq_true_eq, ne_eq, eq_comm (a := digest)]
      tauto
    · rw [if_neg hwanted, ih]
      constructor
      · rintro ⟨hmem, htold⟩
        exact ⟨hmem, fun h => hwanted (h ▸ hmem), htold⟩
      · rintro ⟨hmem, -, htold⟩
        exact ⟨hmem, htold⟩

theorem sessionDigest_ne_nil {auth auth' : SessionAuth} {answer : Except GoError Response}
    {digest : Text} (h : sessionDigest auth answer = (auth', .ok digest)) : digest ≠ [] := by
  unfold sessionDigest at h
  split at h
  · cases h
  split at h
  · cases h
  split at h
  · cases h
  · next hdigest =>
    obtain ⟨-, rfl⟩ := Prod.mk.inj h |>.imp_right Except.ok.inj
    exact hdigest

/-- A digest that is told is not empty. -/
theorem manifestSessionDigest_ne_nil {r : Registries} {ref : Ref} {auth auth' : SessionAuth}
    {tag digest : Text} {trace : Trace Wire Unit}
    (hrun : anyRegistry.Runs (manifestSessionDigest r ref auth tag) () trace (auth', .ok digest) ()) :
    digest ≠ [] := by
  obtain ⟨_, answer, _, later, -, hlater, rfl⟩ := Machine.runs_bind.mp hrun
  cases answer with
  | error err =>
    obtain ⟨-, hout, -⟩ := hlater
    cases hout
  | ok resp =>
    cases auth with
    | basic cfg =>
      obtain ⟨-, hout, -⟩ := hlater
      exact sessionDigest_ne_nil hout.symm
    | bearer token =>
      obtain ⟨-, hout, -⟩ := hlater
      exact sessionDigest_ne_nil hout.symm
    | anonymous =>
      dsimp only at hlater
      split at hlater
      · obtain ⟨-, hout, -⟩ := hlater
        exact sessionDigest_ne_nil hout.symm
      split at hlater
      · split at hlater
        · obtain ⟨-, hout, -⟩ := hlater
          cases hout
        · obtain ⟨_, second, _, rest, -, hrest, rfl⟩ := Machine.runs_bind.mp hlater
          obtain ⟨-, hout, -⟩ := hrest
          exact sessionDigest_ne_nil hout.symm
      · obtain ⟨_, granted, _, rest, -, hrest, rfl⟩ := Machine.runs_bind.mp hlater
        cases granted with
        | error err =>
          obtain ⟨-, hout, -⟩ := hrest
          cases hout
        | ok token =>
          obtain ⟨_, second, _, last, -, hlast, rfl⟩ := Machine.runs_bind.mp hrest
          obtain ⟨-, hout, -⟩ := hlast
          exact sessionDigest_ne_nil hout.symm

theorem clientDo_silent {req : Request} {out : Except GoError Response}
    (hrun : anyRegistry.Runs (clientDo req) () [] out ()) : ∃ err, out = .error err := by
  unfold clientDo follow at hrun
  split at hrun
  · exact ⟨_, hrun.2.1⟩
  split at hrun
  · exact ⟨_, hrun.2.1⟩
  · obtain ⟨_, answer, _, rest, -, -, hnil, -⟩ := Machine.runs_request_bind.mp hrun
    cases hnil

theorem sessionRequest_silent {url : Text} {auth : SessionAuth} {out : Except GoError Response}
    (hrun : anyRegistry.Runs (sessionRequest url auth) () [] out ()) : ∃ err, out = .error err := by
  have hbearer : ∀ token, anyRegistry.Runs (doManifestRequest url token) () [] out () →
      ∃ err, out = .error err := by
    intro token hrun
    unfold doManifestRequest at hrun
    split at hrun
    · exact ⟨_, hrun.2.1⟩
    · obtain ⟨_, answer, _, rest, hdo, hrest, hnil⟩ := Machine.runs_bind.mp hrun
      obtain ⟨rfl, rfl⟩ := List.append_eq_nil_iff.mp hnil.symm
      obtain ⟨err, rfl⟩ := clientDo_silent hdo
      exact ⟨_, hrest.2.1⟩
  cases auth with
  | anonymous => exact hbearer [] hrun
  | bearer token => exact hbearer token hrun
  | basic cfg =>
    change anyRegistry.Runs (get .manifest url manifestAccept (some cfg.header)) () [] out () at hrun
    unfold get at hrun
    split at hrun
    · exact ⟨_, hrun.2.1⟩
    · exact clientDo_silent hrun

/-- Nothing is told without a request. -/
theorem toldBy_silent {r : Registries} {ref : Ref} {auth : SessionAuth}
    {answers : List (Text × Except GoError Text)} (h : Told r ref auth [] answers) :
    toldBy answers = [] := by
  induction answers generalizing auth with
  | nil => rfl
  | cons answer more ih =>
    obtain ⟨tag, answer⟩ := answer
    obtain ⟨first, rest, auth', hnil, hrun, hmore⟩ := h
    obtain ⟨rfl, rfl⟩ := List.append_eq_nil_iff.mp hnil.symm
    obtain ⟨_, reply, _, later, hrequest, hlater, hnil⟩ := Machine.runs_bind.mp hrun
    obtain ⟨rfl, rfl⟩ := List.append_eq_nil_iff.mp hnil.symm
    obtain ⟨err, rfl⟩ := sessionRequest_silent hrequest
    obtain ⟨-, hout, -⟩ := hlater
    obtain ⟨-, rfl⟩ := Prod.mk.inj hout
    exact ih hmore

/-- The requests of a session tell which digests it was told. -/
theorem toldBy_unique {r : Registries} {ref : Ref} {auth : SessionAuth} {trace : Trace Wire Unit}
    {candidates : List Text} {answers others : List (Text × Except GoError Text)}
    (h : Told r ref auth trace answers) (hstarts : answers.map Prod.fst <+: candidates)
    (h' : Told r ref auth trace others) (hstarts' : others.map Prod.fst <+: candidates) :
    toldBy answers = toldBy others := by
  induction answers generalizing auth trace candidates others with
  | nil =>
    obtain rfl := h
    exact (toldBy_silent h').symm
  | cons answer more ih =>
    cases others with
    | nil =>
      obtain rfl := h'
      exact toldBy_silent h
    | cons other rest =>
      obtain ⟨first, answer⟩ := answer
      obtain ⟨second, other⟩ := other
      cases candidates with
      | nil => simp at hstarts
      | cons tag candidates =>
        rw [List.map_cons, List.cons_prefix_cons] at hstarts hstarts'
        obtain ⟨rfl, hstarts⟩ := hstarts
        obtain ⟨rfl, hstarts'⟩ := hstarts'
        obtain ⟨first, tail, auth', rfl, hrun, hmore⟩ := h
        obtain ⟨first', tail', auth'', htrace, hrun', hmore'⟩ := h'
        obtain ⟨-, hout, rfl⟩ := Machine.runs_unique hrun hrun' htrace
        obtain ⟨rfl, rfl⟩ := Prod.mk.inj hout
        have hsame := ih hmore hstarts hmore' hstarts'
        cases answer with
        | error err => exact hsame
        | ok digest => exact congrArg (List.cons (_, digest)) hsame

theorem toldBy_ne_nil {r : Registries} {ref : Ref} {auth : SessionAuth} {trace : Trace Wire Unit}
    {answers : List (Text × Except GoError Text)} (h : Told r ref auth trace answers) :
    ∀ entry ∈ toldBy answers, entry.2 ≠ [] := by
  induction answers generalizing auth trace with
  | nil => simp [toldBy]
  | cons answer more ih =>
    obtain ⟨tag, answer⟩ := answer
    obtain ⟨first, rest, auth', rfl, hrun, hmore⟩ := h
    cases answer with
    | error err => exact ih hmore
    | ok digest =>
      exact List.forall_mem_cons.mpr ⟨manifestSessionDigest_ne_nil hrun, ih hmore⟩

theorem toldBy_names (answers : List (Text × Except GoError Text)) :
    ((toldBy answers).map Prod.fst).Sublist (answers.map Prod.fst) := by
  induction answers with
  | nil => exact List.Sublist.refl _
  | cons answer answers ih =>
    obtain ⟨tag, answer⟩ := answer
    cases answer with
    | error err => exact ih.cons tag
    | ok digest => exact ih.cons_cons tag

theorem listTagPages_nodup {r : Registries} {ref : Ref} {pages : Nat} {next : URL}
    {out tags : List Text} {trace : Trace Wire Unit} (hout : out.Nodup)
    (hrun : anyRegistry.Runs (listTagPages r ref pages next out) () trace (.ok tags) ()) :
    tags.Nodup := by
  induction pages generalizing next out trace with
  | zero =>
    obtain ⟨-, htags, -⟩ := hrun
    exact Except.ok.inj htags ▸ hout
  | succ pages ih =>
    obtain ⟨_, answer, _, rest, -, hrest, rfl⟩ := Machine.runs_bind.mp hrun
    cases answer with
    | error err =>
      obtain ⟨-, htags, -⟩ := hrest
      cases htags
    | ok resp =>
      dsimp only at hrest
      split at hrest
      · obtain ⟨-, htags, -⟩ := hrest
        cases htags
      split at hrest
      · obtain ⟨-, htags, -⟩ := hrest
        cases htags
      · next body _ =>
        have hmore : (out ++ (body.tags.filter fun tag => tag ∉ out).dedup).Nodup := by
          refine hout.append (List.nodup_dedup _) fun tag hold hnew => ?_
          have hfresh := List.of_mem_filter (List.mem_dedup.mp hnew)
          exact absurd hold (by simpa using hfresh)
        split at hrest
        · obtain ⟨-, htags, -⟩ := hrest
          exact Except.ok.inj htags ▸ hmore
        · exact ih hmore hrest

theorem listTags_nodup {r : Registries} {ref : Ref} {tags : List Text} {trace : Trace Wire Unit}
    (hrun : anyRegistry.Runs (listTags r ref) () trace (.ok tags) ()) : tags.Nodup := by
  unfold listTags at hrun
  dsimp only at hrun
  split at hrun
  · obtain ⟨-, htags, -⟩ := hrun
    cases htags
  · exact listTagPages_nodup List.nodup_nil hrun

/-! ### What a search leaves to be resolved -/

/-- The two functions that search for versions. -/
inductive Search where
  | dockerHub (repository : Text)
  | tags (ref : Ref)

namespace Search

def run (r : Registries) (wanted : List Text) : Search → Web (Except GoError (List (Text × Text)))
  | .dockerHub repository => listDockerHubTags repository (wanted.map fun digest => (digest, true))
  | .tags ref => resolveVersionTags r ref (wanted.map fun digest => (digest, true))

/-- A search walks the pages of Docker Hub. -/
def OnHub : Search → Prop
  | .dockerHub _ => True
  | .tags ref => ref.registry = "registry-1.docker.io".toList

instance : (search : Search) → Decidable search.OnHub
  | .dockerHub _ => inferInstanceAs (Decidable True)
  | .tags _ => inferInstanceAs (Decidable (_ = _))

/-- The tags a search was told the digest of, in the order it was told: those on the pages of
Docker Hub, or those whose manifests were asked for. -/
def Hears (r : Registries) (trace : Trace Wire Unit) (told : List (Text × Text)) : Search → Prop
  | .dockerHub _ => told = withDigest (listed trace)
  | .tags ref =>
    if ref.registry = "registry-1.docker.io".toList then told = withDigest (listed trace)
    else ∃ front back tags answers, trace = front ++ back ∧
      anyRegistry.Runs (listTags r ref) () front (.ok tags) () ∧
      answers.map Prod.fst <+: (tags.filter isVersionTag).insertionSort (fun a b => before a b = true) ∧
      Told r ref .anonymous back answers ∧ told = toldBy answers

/-- A search ends early: every digest has been matched by a tag that counts as a version. -/
def Stops (wanted : List Text) (told : List (Text × Text)) : Prop :=
  wanted ≠ [] ∧ ∀ digest ∈ wanted, Matched told digest

/-- A tag of plain version shape stays on the map for a digest. On Docker Hub the last listing of
a name counts, elsewhere the first tag of a digest. -/
def Keeps (told : List (Text × Text)) (digest : Text) (search : Search) : Prop :=
  ∃ name, isPlainVersion (String.ofList name) = true ∧
    if search.OnHub then lastDigest told name = some digest
    else told.find? (fun entry => entry.2 = digest) = some (name, digest)

/-- What was told is in the trace. -/
theorem hears_unique {r : Registries} {trace : Trace Wire Unit} {told other : List (Text × Text)}
    {search : Search} (h : search.Hears r trace told) (h' : search.Hears r trace other) :
    told = other := by
  cases search with
  | dockerHub repository => exact h.trans h'.symm
  | tags ref =>
    by_cases href : ref.registry = "registry-1.docker.io".toList
    · rw [Hears, if_pos href] at h h'
      exact h.trans h'.symm
    · rw [Hears, if_neg href] at h h'
      obtain ⟨front, back, tags, answers, rfl, hlist, hstarts, htold, rfl⟩ := h
      obtain ⟨front', back', tags', answers', htrace, hlist', hstarts', htold', rfl⟩ := h'
      obtain ⟨-, htags, rfl⟩ := Machine.runs_unique hlist hlist' htrace
      obtain rfl := Except.ok.inj htags
      exact toldBy_unique htold hstarts htold' hstarts'

theorem keeps_hub {told : List (Text × Text)} {digest : Text} {search : Search} (h : search.OnHub) :
    search.Keeps told digest ↔ ∃ name, isPlainVersion (String.ofList name) = true ∧
      lastDigest told name = some digest := by
  simp only [Keeps, h, if_true]

theorem keeps_registry {told : List (Text × Text)} {digest : Text} {search : Search}
    (h : ¬ search.OnHub) :
    search.Keeps told digest ↔ ∃ name, isPlainVersion (String.ofList name) = true ∧
      told.find? (fun entry => entry.2 = digest) = some (name, digest) := by
  simp only [Keeps, h, if_false]

end Search

/-- A map of tags, as `ResolveVersion` reads it. -/
def named (tags : List (Text × Text)) : List (String × String) :=
  tags.map fun entry => (String.ofList entry.1, String.ofList entry.2)

theorem isSome_resolve_named {tags : List (Text × Text)} {digest : Text} (hdigest : digest ≠ []) :
    (resolveVersion (named tags) (String.ofList digest)).isSome = true ↔
      ∃ name, isPlainVersion (String.ofList name) = true ∧ (name, digest) ∈ tags := by
  have htarget : String.ofList digest ≠ "" := by simpa using hdigest
  rw [isSome_resolveVersion]
  constructor
  · rintro ⟨-, name, hmem, hplain⟩
    obtain ⟨⟨key, value⟩, hentry, heq⟩ := List.mem_map.mp hmem
    obtain ⟨rfl, hvalue⟩ := Prod.mk.inj heq
    obtain rfl := String.ofList_injective hvalue
    exact ⟨key, hplain, hentry⟩
  · rintro ⟨name, hplain, hmem⟩
    exact ⟨htarget, String.ofList name, List.mem_map.mpr ⟨_, hmem, rfl⟩, hplain⟩

namespace Search

variable {r : Registries} {wanted : List Text} {trace : Trace Wire Unit}
  {tags told : List (Text × Text)}

theorem hub_tags {repository : Text} {entries : List (Text × Bool)} {name digest : Text}
    (hrun : anyRegistry.Runs (listDockerHubTags repository entries) () trace (.ok tags) ()) :
    (name, digest) ∈ tags ↔ lastDigest (withDigest (listed trace)) name = some digest := by
  rw [listHubPages_runs hrun]
  exact mem_scan_tags rfl _

theorem registry_tags {ref : Ref} {entries : List (Text × Bool)}
    (href : ¬ ref.registry = "registry-1.docker.io".toList)
    (hrun : anyRegistry.Runs (resolveVersionTags r ref entries) () trace (.ok tags) ()) :
    ∃ told, (Search.tags ref).Hears r trace told ∧ (∀ entry ∈ told, entry.2 ≠ []) ∧
      ∀ name digest, (name, digest) ∈ tags ↔
        digest ∈ (entries.filter Prod.snd).map Prod.fst ∧
          told.find? (fun entry => entry.2 = digest) = some (name, digest) := by
  unfold resolveVersionTags at hrun
  rw [if_neg href] at hrun
  obtain ⟨front, answer, _, later, hlist, hlater, rfl⟩ := Machine.runs_bind.mp hrun
  cases answer with
  | error err =>
    obtain ⟨-, hout, -⟩ := hlater
    cases hout
  | ok listing =>
    obtain ⟨back, s, _, rest, hback, hrest, rfl⟩ := Machine.runs_bind.mp hlater
    obtain ⟨answers, htold, hstarts, hout⟩ := resolveCandidates_runs hback
    have htags : tags = s.resolved ∧ rest = [] := by
      split at hrest
      · obtain ⟨-, hout, -⟩ := hrest
        cases hout
      · obtain ⟨hnil, hout, -⟩ := hrest
        exact ⟨Except.ok.inj hout, hnil⟩
    obtain ⟨rfl, rfl⟩ := htags
    rw [List.append_nil]
    refine ⟨toldBy answers, ?_, toldBy_ne_nil htold, fun name digest => ?_⟩
    · rw [Hears, if_neg href]
      exact ⟨front, back, listing, answers, rfl, hlist, hstarts, htold, rfl⟩
    · have hcandidates : ((listing.filter isVersionTag).insertionSort
          fun a b => before a b = true).Nodup :=
        (List.perm_insertionSort _ _).nodup_iff.mpr ((listTags_nodup hlist).filter _)
      have hnames : ((toldBy answers).map Prod.fst).Nodup :=
        (hcandidates.sublist hstarts.sublist).sublist (toldBy_names answers)
      have hresolved : s.resolved = _ := congrArg Prod.snd hout
      rw [hresolved, mem_foldl_note hnames (by simp)]
      simp

/-- What a search has left on the map for a digest, whichever way it searched. -/
theorem keeps_iff (search : Search)
    (hrun : anyRegistry.Runs (search.run r wanted) () trace (.ok tags) ())
    (hhears : search.Hears r trace told) : (∀ entry ∈ told, entry.2 ≠ []) ∧ ∀ digest ∈ wanted,
      ((∃ name, isPlainVersion (String.ofList name) = true ∧ (name, digest) ∈ tags) ↔
        search.Keeps told digest) := by
  cases search with
  | dockerHub repository =>
    have hhub : (Search.dockerHub repository).OnHub := trivial
    obtain rfl := hhears
    refine ⟨by simp [withDigest], fun digest _ => ?_⟩
    rw [keeps_hub hhub]
    simp only [hub_tags hrun]
  | tags ref =>
    by_cases href : ref.registry = "registry-1.docker.io".toList
    · have hhub : (Search.tags ref).OnHub := href
      rw [run, resolveVersionTags, if_pos href] at hrun
      rw [Hears, if_pos href] at hhears
      subst hhears
      refine ⟨by simp [withDigest], fun digest _ => ?_⟩
      rw [keeps_hub hhub]
      simp only [hub_tags hrun]
    · have helsewhere : ¬ (Search.tags ref).OnHub := href
      have hall : ((wanted.map fun digest => (digest, true)).filter Prod.snd).map Prod.fst = wanted := by
        simp [List.filter_map, Function.comp_def]
      obtain ⟨other, hother, hdigests, hmem⟩ := registry_tags href hrun
      obtain rfl := hears_unique hhears hother
      refine ⟨hdigests, fun digest hdigest => ?_⟩
      rw [keeps_registry helsewhere]
      simp only [hmem, hall, hdigest, true_and]

/-- A search that ends early leaves a version for every digest exactly if it keeps for each a tag
of plain shape. -/
theorem resolves_iff (search : Search)
    (hrun : anyRegistry.Runs (search.run r wanted) () trace (.ok tags) ())
    (hhears : search.Hears r trace told) (hstops : Stops wanted told) :
    (∀ digest ∈ wanted, (resolveVersion (named tags) (String.ofList digest)).isSome = true) ↔
      ∀ digest ∈ wanted, search.Keeps told digest := by
  obtain ⟨hdigests, hkeeps⟩ := search.keeps_iff hrun hhears
  refine forall₂_congr fun digest hdigest => ?_
  obtain ⟨entry, hentry, hsame, -⟩ := hstops.2 digest hdigest
  rw [isSome_resolve_named (hsame ▸ hdigests entry hentry)]
  exact hkeeps digest hdigest

end Search

/-! ### A search that stops at a composite tag -/

/-- What a program sends, and returns, when it is answered as scripted. -/
def serve {α : Type} : Web α → List Response → Trace Wire Unit × Option α
  | .ret a, _ => ([], some a)
  | .call _ _, [] => ([], none)
  | .call op next, answer :: rest =>
    let out := serve (next (.ok answer)) rest
    (⟨(), op, .ok answer⟩ :: out.1, out.2)

theorem serve_runs {α : Type} {p : Web α} {answers : List Response} {a : α}
    (h : (serve p answers).2 = some a) : anyRegistry.Runs p () (serve p answers).1 a () := by
  induction answers generalizing p with
  | nil =>
    cases p with
    | ret b => exact ⟨rfl, (Option.some.inj h).symm, rfl⟩
    | call op next => cases h
  | cons answer rest ih =>
    cases p with
    | ret b => exact ⟨rfl, (Option.some.inj h).symm, rfl⟩
    | call op next => exact ⟨(), .ok answer, (), _, trivial, trivial, rfl, ih h⟩

/-- The first page lists a build under its composite tag; the plain one would be on the next. -/
def compositePage : Response where
  status := 200
  body := some {
    results := [("php8.2-1.17.999".toList, "sha256:a".toList)]
    next := "https://hub.docker.com/v2/repositories/library/app/tags?page=2".toList }

def compositeSearch : Search := .dockerHub "library/app".toList

def compositeRun : Trace Wire Unit × Option (Except GoError (List (Text × Text))) :=
  serve (compositeSearch.run {} ["sha256:a".toList]) [compositePage]

def compositeTags : List (Text × Text) := [("php8.2-1.17.999".toList, "sha256:a".toList)]

theorem compositeRun_runs : anyRegistry.Runs (compositeSearch.run {} ["sha256:a".toList]) ()
    compositeRun.1 (.ok compositeTags) () :=
  serve_runs (by decide)

theorem compositeRun_hears : compositeSearch.Hears {} compositeRun.1 compositeTags := by
  have htold : withDigest (listed compositeRun.1) = compositeTags := by decide
  exact htold.symm

theorem compositeRun_stops : Search.Stops ["sha256:a".toList] compositeTags :=
  ⟨by simp, by decide⟩

/-- The search ends with the composite tag, in which no version is found. -/
theorem composite_unresolved :
    ¬ ∀ (search : Search) (r : Registries) (wanted : List Text) (trace : Trace Wire Unit)
      (tags told : List (Text × Text)), anyRegistry.Runs (search.run r wanted) () trace (.ok tags) () →
      search.Hears r trace told → Search.Stops wanted told →
      ∀ digest ∈ wanted, (resolveVersion (named tags) (String.ofList digest)).isSome = true := by
  intro h
  have hfound := h compositeSearch {} _ _ _ _ compositeRun_runs compositeRun_hears compositeRun_stops
    _ List.mem_cons_self
  revert hfound
  decide

theorem resolves_iff_composite :
    (∀ digest ∈ ["sha256:a".toList],
      (resolveVersion (named compositeTags) (String.ofList digest)).isSome = true) ↔
    ∀ digest ∈ ["sha256:a".toList], compositeSearch.Keeps compositeTags digest :=
  compositeSearch.resolves_iff compositeRun_runs compositeRun_hears compositeRun_stops

end Doupro.Registry
