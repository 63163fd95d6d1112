import Doupro.Cli.Client

/-!
# Every command reaches its handler

The patterns of the daemon overlap only where a literal stands against a wildcard; no path the
client writes is such a path, so the name it was given decides nothing about the route.
-/

namespace Doupro.Cli

open Api Doupro.Path Query ServeMux Text

/-! ### Paths of a template -/

def Template.parts (t : Template) (argument : Option Bytes) : List Text :=
  t.before ++ argument.toList.map pathEscape ++ t.after

/-- The segments of a path of a template, its name not known. -/
def Template.shape (t : Template) : List (Option Text) :=
  t.before.map some ++ t.wildcard.toList.map (fun _ => none) ++ t.after.map some

def Template.pieces (t : Template) : List Piece :=
  t.before.map .literal ++ t.wildcard.toList.map .wildcard ++ t.after.map .literal

/-- A part that is written without an escape. -/
def PlainPart (part : Text) : Prop :=
  part ≠ [] ∧ part ≠ ['.'] ∧ part ≠ ['.', '.'] ∧ part.all segmentChar = true

instance (part : Text) : Decidable (PlainPart part) :=
  inferInstanceAs (Decidable (_ ∧ _ ∧ _ ∧ _))

/-- A template has a route of its own among the routes of its method. -/
def Template.Routed (t : Template) (oidcProvider : Bool) : Prop :=
  t.before ≠ [] ∧ (∀ part ∈ t.before ++ t.after, PlainPart part) ∧ t.method ≠ "CONNECT".toList ∧
    ∃ route ∈ mux oidcProvider, route.method = t.method ∧ route.pieces = t.pieces ∧
      route.handler.endpoint = t.endpoint ∧
      ∀ other ∈ mux oidcProvider, other.method = t.method →
        mayCapture other.pieces t.shape = true → other = route

instance (t : Template) (oidcProvider : Bool) : Decidable (t.Routed oidcProvider) :=
  inferInstanceAs (Decidable (_ ∧ _ ∧ _ ∧ _))

/-- Every method, with nothing to put into the URL. -/
def calls : List Call :=
  [.listUsers, .createUser, .setUserAccess [], .deleteUser [], .listAPIKeys, .createAPIKey,
    .revokeAPIKey [], .listContainers, .getContainer [], .checkContainer [], .updateContainer [] [],
    .previewUpdate [] [], .rollbackContainer [], .updateAllContainers [],
    .listLogs ⟨[], [], [], 0⟩, .listSchedules, .createSchedule, .deleteSchedule [],
    .setScheduleEnabled [], .listNotifications, .listNotificationQueue, .retryNotification [],
    .listNotificationChannels, .stats, .listRegistryConfigs, .setRegistryConfigs,
    .testRegistryConfig, .getGeneralSettings, .setGeneralSettings]

theorem template_mem (call : Call) : call.template ∈ calls.map Call.template := by
  cases call <;> simp only [calls, List.map_cons, Call.template, List.mem_cons, true_or, or_true]

theorem calls_routed : ∀ oidcProvider, ∀ t ∈ calls.map Call.template, t.Routed oidcProvider := by
  decide +kernel

theorem template_sent (call : Call) : call.sent.method = call.template.method ∧
    call.sent.path = ofParts (call.template.parts call.argument) ∧
    call.template.wildcard.isSome = call.argument.isSome := by
  cases call <;>
    simp [Call.sent, send, Call.template, template, Template.parts, Call.argument, ofParts]

theorem capture_literals (texts : List Text) (pieces : List Piece) (segs : List Bytes) :
    capture (texts.map .literal ++ pieces) (texts.map bytes ++ segs) = capture pieces segs := by
  induction texts with
  | nil => rfl
  | cons text texts ih => rw [List.map_cons, List.map_cons, List.cons_append, List.cons_append,
      capture, if_pos rfl, ih]

theorem pathUnescape_plain {part : Text} (h : part.all segmentChar = true) :
    pathUnescape part = some part.bytes := by
  induction part with
  | nil => rfl
  | cons c part ih =>
    rw [List.all_cons, Bool.and_eq_true] at h
    have hc : c ≠ '%' := by
      rintro rfl
      exact absurd h.1 (by decide)
    rw [pathUnescape_cons hc, ih h.2]
    rfl

theorem PlainPart.kept {part : Text} (h : PlainPart part) : Kept part where
  ne_nil := h.1
  ne_dot := h.2.1
  ne_dots := h.2.2.1
  slash hmem := (segmentChar_segment (List.all_eq_true.mp h.2.2.2 _ hmem)).2.1 rfl

/-- What all parts of a path have that is written for a name. -/
structure Written (part : Text) : Prop where
  kept : Kept part
  read : (pathUnescape part).isSome = true
  chars : ∀ c ∈ part, encodedChar c = true ∧ c ≠ '?' ∧ c ≠ '#'

theorem PlainPart.written {part : Text} (h : PlainPart part) : Written part where
  kept := h.kept
  read := by rw [pathUnescape_plain h.2.2.2, Option.isSome_some]
  chars c hc := by
    obtain ⟨hencoded, -, hmark, hsharp⟩ := segmentChar_segment (List.all_eq_true.mp h.2.2.2 c hc)
    exact ⟨hencoded, hmark, hsharp⟩

theorem written_pathEscape {name : Bytes} (h : proper name = true) : Written (pathEscape name) where
  kept := by
    simp only [proper, Bool.and_eq_true, decide_eq_true_eq] at h
    exact pathEscape_kept h.1.1.1 h.1.1.2 h.1.2
  read := by rw [pathUnescape_pathEscape, Option.isSome_some]
  chars c hc := by
    obtain ⟨hencoded, -, hmark, hsharp⟩ := mem_pathEscape hc
    exact ⟨hencoded, hmark, hsharp⟩

section Routed

variable {t : Template} {oidcProvider : Bool} {argument : Option Bytes}

theorem written_parts (hplain : ∀ part ∈ t.before ++ t.after, PlainPart part)
    (hproper : ∀ name ∈ argument, proper name = true) : ∀ part ∈ t.parts argument, Written part := by
  intro part hpart
  simp only [Template.parts, List.mem_append, List.mem_map, Option.mem_toList] at hpart hplain
  rcases hpart with (hbefore | ⟨name, hname, rfl⟩) | hafter
  · exact (hplain part (.inl hbefore)).written
  · exact written_pathEscape (hproper name hname)
  · exact (hplain part (.inr hafter)).written

/-- The segments of a path that was written: the literals, and the name as it was given. -/
theorem segments_parts (hplain : ∀ part ∈ t.before ++ t.after, PlainPart part) :
    (t.parts argument).map segmentBytes =
      t.before.map bytes ++ argument.toList ++ t.after.map bytes := by
  have hliterals : ∀ texts : List Text, (∀ part ∈ texts, PlainPart part) →
      texts.map segmentBytes = texts.map bytes := by
    intro texts htexts
    refine List.map_congr_left fun part hpart => ?_
    rw [segmentBytes, pathUnescape_plain (htexts part hpart).2.2.2, Option.getD_some]
  have hname : ∀ name, segmentBytes (pathEscape name) = name := by
    intro name
    rw [segmentBytes, pathUnescape_pathEscape, Option.getD_some]
  simp only [Template.parts, List.map_append, List.map_map]
  rw [hliterals _ fun part hpart => hplain part (List.mem_append_left _ hpart),
    hliterals _ fun part hpart => hplain part (List.mem_append_right _ hpart)]
  cases argument <;> simp [hname]

theorem capture_parts (hsome : t.wildcard.isSome = argument.isSome)
    (hproper : ∀ name ∈ argument, proper name = true) :
    capture t.pieces (t.before.map bytes ++ argument.toList ++ t.after.map bytes) =
      some argument.toList := by
  have hafter := capture_literals t.after [] []
  simp only [List.append_nil] at hafter
  unfold Template.pieces
  rw [List.append_assoc, List.append_assoc, capture_literals]
  cases hwildcard : t.wildcard with
  | none =>
    cases argument with
    | none => simpa [capture] using hafter
    | some name => simp [hwildcard] at hsome
  | some wildcard =>
    cases argument with
    | none => simp [hwildcard] at hsome
    | some name =>
      have hslash : name ≠ slash := by
        have h := hproper name rfl
        simp only [proper, Bool.and_eq_true, decide_eq_true_eq] at h
        exact h.2
      simp [capture, hslash, hafter]

theorem shaped_parts (hsome : t.wildcard.isSome = argument.isSome) :
    List.Forall₂ Fills t.shape (t.before.map bytes ++ argument.toList ++ t.after.map bytes) := by
  have hliterals : ∀ texts : List Text, List.Forall₂ Fills (texts.map some) (texts.map bytes) := by
    intro texts
    induction texts with
    | nil => exact .nil
    | cons text texts ih => exact .cons (fun known hknown => Option.some.inj hknown ▸ rfl) ih
  unfold Template.shape
  refine List.rel_append (List.rel_append (hliterals t.before) ?_) (hliterals t.after)
  cases hwildcard : t.wildcard <;> cases argument <;> simp [hwildcard] at hsome ⊢
  intro known hknown
  cases hknown

/-- A path that was written for a proper name leads to the handler of its template. -/
theorem findHandler_parts (h : t.Routed oidcProvider)
    (hsome : t.wildcard.isSome = argument.isSome)
    (hproper : ∀ name ∈ argument, proper name = true) :
    handled (findHandler (mux oidcProvider) t.method (ofParts (t.parts argument))) =
      some (t.endpoint, argument.toList) := by
  obtain ⟨hne, hplain, hconnect, route, hmem, hmethod, hpieces, hendpoint, hunique⟩ := h
  have hwritten := written_parts hplain hproper
  have hsegments : (t.parts argument).map segmentBytes =
      t.before.map bytes ++ argument.toList ++ t.after.map bytes := segments_parts hplain
  have hparts : t.parts argument ≠ [] := by simp [Template.parts, hne]
  have hlast : route.pieces.getLast? ≠ some .rest := by
    intro hrest
    have hin := List.mem_of_getLast? hrest
    simp [hpieces, Template.pieces] at hin
  have hfound := findHandler_ofParts hmem hmethod hconnect hlast hparts
    (fun part hpart => (hwritten part hpart).kept) ?_
    (fun part hpart => (hwritten part hpart).read)
    (by rw [hsegments, hpieces]; exact capture_parts hsome hproper)
    (fun other hother hsame hmatch => hunique other hother hsame ?_)
  · rw [hfound, handled, hendpoint]
  · refine List.all_eq_true.mpr fun c hc => ?_
    obtain ⟨part, hpart, hin⟩ := List.mem_flatMap.mp hc
    rcases List.mem_cons.mp hin with rfl | hin
    · decide
    · exact ((hwritten part hpart).chars c hin).1
  · rw [hsegments] at hmatch
    exact mayCapture_of_capture (shaped_parts hsome) hmatch

end Routed

/-! ### Queries -/

theorem logsQuery_keys (f : LogFilter) : ((logsQuery f).map Prod.fst).Nodup := by
  have hlimit : ((if 0 < f.limit then [("limit".toList, (toString f.limit).toList)]
      else []).map Prod.fst).Sublist ["limit".toList] := by
    split
    · exact List.Sublist.refl _
    · exact List.nil_sublist _
  have hkeys := (((setNonempty_keys "event" f.event).append
    (setNonempty_keys "container" f.container)).append
    (setNonempty_keys "level" f.level)).append hlimit
  rw [← List.map_append, ← List.map_append, ← List.map_append] at hkeys
  exact List.Nodup.sublist hkeys (by decide +kernel)

theorem sent_keys (call : Call) : (call.sent.query.map Prod.fst).Nodup := by
  have hone : ∀ key value, ((setNonempty key value).map Prod.fst).Nodup := fun key value =>
    List.Nodup.sublist (setNonempty_keys key value) (List.nodup_singleton _)
  cases call with
  | updateContainer name semverPolicy => exact hone _ _
  | previewUpdate name semverPolicy => exact hone _ _
  | updateAllContainers stack => exact hone _ _
  | listLogs f => exact logsQuery_keys f
  | _ => exact .nil

/-- What a server reads of a target: the path, and the query. -/
theorem target_read {s : Sent} (hpath : ∀ c ∈ s.path, c ≠ '?' ∧ c ≠ '#') :
    targetPath s.target = s.path ∧ targetQuery s.target = encode s.query := by
  have hmark : '?' ∉ s.path := fun hmem => (hpath _ hmem).1 rfl
  have hsharp : '#' ∉ s.path := fun hmem => (hpath _ hmem).2 rfl
  unfold targetPath targetQuery Sent.target
  split
  · next hempty =>
    rw [cut_of_notMem hsharp, cut_of_notMem hmark, hempty]
    exact ⟨rfl, rfl⟩
  · have hquery := encode_delimiter (c := '#') (by decide) (by decide) (by decide) s.query
    have htarget : '#' ∉ s.path ++ '?' :: encode s.query := by simp [hsharp, hquery]
    rw [cut_of_notMem htarget, cut_append hmark]
    simp [cut]

/-- A command that is given a name that can stand in a path has its handler run, with the name as
it was given and every parameter as it was set. -/
theorem call_reaches (call : Call) (oidcProvider : Bool)
    (hproper : ∀ name ∈ call.argument, proper name = true) :
    handled (findHandler (mux oidcProvider) call.sent.method (targetPath call.sent.target)) =
        some (call.template.endpoint, call.argument.toList) ∧
      ∀ key, get (targetQuery call.sent.target) key = (call.sent.query.lookup key).getD [] := by
  have hrouted := calls_routed oidcProvider _ (template_mem call)
  obtain ⟨hmethod, hpath, hsome⟩ := template_sent call
  have hread : targetPath call.sent.target = call.sent.path ∧
      targetQuery call.sent.target = encode call.sent.query := by
    refine target_read fun c hc => ?_
    rw [hpath] at hc
    obtain ⟨part, hpart, hin⟩ := List.mem_flatMap.mp hc
    rcases List.mem_cons.mp hin with rfl | hin
    · decide
    · exact ((written_parts hrouted.2.1 hproper part hpart).chars c hin).2
  rw [hread.1, hread.2, hmethod, hpath]
  exact ⟨findHandler_parts hrouted hsome hproper, get_encode (sent_keys call)⟩

/-- A container whose name looks like another route. -/
theorem call_reaches_lookalike :
    handled (findHandler (mux true) (Call.rollbackContainer (bytes "a/../é".toList)).sent.method
      (targetPath (Call.rollbackContainer (bytes "a/../é".toList)).sent.target)) =
      some (.handleRollbackContainer, [bytes "a/../é".toList]) :=
  (call_reaches (.rollbackContainer (bytes "a/../é".toList)) true (by decide +kernel)).1

end Doupro.Cli
