import Doupro.Api.BulkUpdates
import Doupro.Go.Query
import Mathlib.Data.List.Dedup

/-!
# Update-all of a group

The containers page has a group for each stack and one for the containers without a stack. The
button of a group sends the name of its stack, through an attribute and a query, to update-all.
-/

namespace Doupro.Web

open Go Interaction Api

/-- The group a container is displayed in. -/
def groupName (c : ContainerRecord) : String := if c.stack = "" then "Ungrouped" else c.stack

structure StackView where
  name : String
  stackParam : String
  containers : List ContainerRecord
  deriving DecidableEq

/-- The groups of `handleContainers`. -/
def stackViews (records : List ContainerRecord) : List StackView :=
  let names := (records.map groupName).dedup.insertionSort (· ≤ ·)
  names.map fun name =>
    { name
      stackParam := if name = "Ungrouped" then "" else name
      containers := records.filter (groupName · = name) }

/-! ### From the button to the handler -/

/-- A browser reads every line break of a page as a line feed. -/
def normalizeNewlines : Text → Text
  | [] => []
  | '\r' :: '\n' :: rest => '\n' :: normalizeNewlines rest
  | c :: rest => (if c = '\r' then '\n' else c) :: normalizeNewlines rest

/-- What is read of an attribute that `html/template` wrote. References stand for the characters
they escape, and the replacement character for NUL. -/
def attributeText (s : Text) : Text :=
  normalizeNewlines (s.map fun c => if c = Char.ofNat 0 then Char.ofNat 0xFFFD else c)

/-- The query of `triggerUpdateAll`. -/
def updateAllQuery (stackParam : Text) : Text :=
  if stackParam = [] then [] else "stack=".toList ++ Query.encodeURIComponent stackParam

/-- The stack that `handleUpdateAllContainers` finds in its query when the button of a group is
pressed. -/
def pressed (view : StackView) : String :=
  String.ofList (Query.get (updateAllQuery (attributeText view.stackParam.toList)) "stack".toList)

/-- Update-all of a group asks only for updates of containers that are displayed in it. -/
def StaysInGroup (s : Store) (view : StackView) : Prop :=
  ∀ updater ctx opCtx actorID w trace answer w', w.store = s →
    (openSystem.layered Service.run).Runs
      (handleUpdateAllContainers updater ctx opCtx (pressed view) actorID) w trace answer w' →
    ∀ req ∈ asked trace, ∃ c ∈ view.containers, req = bulkUpdateRequest opCtx actorID c

/-- A container with an update that is not excluded. -/
def Eligible (c : ContainerRecord) : Prop := c.updateAvailable = true ∧ c.excluded = false

/-- A text without the characters that an attribute does not hold as they are. -/
def Readable (s : Text) : Prop := ∀ c ∈ s, c ≠ Char.ofNat 0 ∧ c ≠ '\r'

/-- No container that may be updated has another stack than the group, among those that its button
reaches: for the containers without a stack it reaches all of them, for a stack of another name
than an attribute can hold those of the stack whose name the attribute holds. -/
def Separate (records : List ContainerRecord) (view : StackView) : Prop :=
  (view.name = "Ungrouped" → ∀ c ∈ records, Eligible c → c.stack = "" ∨ c.stack = "Ungrouped") ∧
  (view.name ≠ "Ungrouped" → Readable view.name.toList ∨
    ∀ c ∈ records, Eligible c → c.stack.toList ≠ attributeText view.name.toList)

/-! ### Attributes and queries -/

theorem mem_normalizeNewlines {c : Char} {s : Text} (h : c ∈ normalizeNewlines s) :
    c ≠ '\r' ∧ (c = '\n' ∨ c ∈ s) := by
  induction s using normalizeNewlines.induct with
  | case1 => cases h
  | case2 rest ih =>
    rcases List.mem_cons.mp h with rfl | hmem
    · exact ⟨by decide, .inl rfl⟩
    · exact (ih hmem).imp_right (Or.imp_right fun hin => by simp [hin])
  | case3 first rest hnot ih =>
    rw [normalizeNewlines.eq_3 _ _ hnot] at h
    rcases List.mem_cons.mp h with rfl | hmem
    · split
      · exact ⟨by decide, .inl rfl⟩
      · next hne => exact ⟨hne, .inr List.mem_cons_self⟩
    · exact (ih hmem).imp_right (Or.imp_right (List.mem_cons_of_mem first))

theorem normalizeNewlines_eq {s : Text} (h : '\r' ∉ s) : normalizeNewlines s = s := by
  induction s using normalizeNewlines.induct with
  | case1 => rfl
  | case2 rest ih => exact absurd List.mem_cons_self h
  | case3 first rest hnot ih =>
    have hfirst : first ≠ '\r' := fun heq => h (heq ▸ List.mem_cons_self)
    rw [normalizeNewlines.eq_3 _ _ hnot, if_neg hfirst,
      ih fun hmem => h (List.mem_cons_of_mem first hmem)]

theorem normalizeNewlines_ne_nil {s : Text} (h : s ≠ []) : normalizeNewlines s ≠ [] := by
  cases s using normalizeNewlines.fun_cases with
  | case1 => exact absurd rfl h
  | case2 rest => simp [normalizeNewlines]
  | case3 first rest hnot => simp [normalizeNewlines.eq_3 _ _ hnot]

theorem readable_attributeText (s : Text) : Readable (attributeText s) := by
  intro c hc
  obtain ⟨hreturn, rfl | hin⟩ := mem_normalizeNewlines hc
  · exact ⟨by decide, hreturn⟩
  · obtain ⟨d, -, rfl⟩ := List.mem_map.mp hin
    refine ⟨?_, hreturn⟩
    split
    · decide
    · assumption

theorem attributeText_eq {s : Text} (h : Readable s) : attributeText s = s := by
  have hmap : (s.map fun c => if c = Char.ofNat 0 then Char.ofNat 0xFFFD else c) = s := by
    conv_rhs => rw [← List.map_id s]
    exact List.map_congr_left fun c hc => if_neg (h c hc).1
  rw [attributeText, hmap, normalizeNewlines_eq fun hmem => (h _ hmem).2 rfl]

theorem attributeText_ne_nil {s : Text} (h : s ≠ []) : attributeText s ≠ [] :=
  normalizeNewlines_ne_nil (by simpa using h)

/-- What the button sends is what the handler finds. -/
theorem get_updateAllQuery (stackParam : Text) :
    Query.get (updateAllQuery stackParam) "stack".toList = stackParam := by
  unfold updateAllQuery
  split
  · next h =>
    rw [h]
    rfl
  · have hname : "stack=".toList = Query.encodeURIComponent "stack".toList ++ ['='] := by
      decide +kernel
    rw [hname, List.append_assoc]
    exact Query.get_encodeURIComponent _ _

theorem pressed_eq (view : StackView) :
    pressed view = String.ofList (attributeText view.stackParam.toList) := by
  rw [pressed, get_updateAllQuery]

/-! ### What update-all asks for -/

variable {updater : Updater.SelfUpdater} {ctx opCtx : Context} {actorID stack : String} {w w' : World}
  {s : Store} {view : StackView}

theorem turns_of_targets {targets : List ContainerRecord} {turns : List BulkTurn}
    (h : TakesTurns ctx actorID targets w turns w') :
    ∀ turn ∈ turns, turn.container ∈ targets := by
  induction targets generalizing w turns with
  | nil =>
    obtain ⟨rfl, -⟩ := h
    simp
  | cons rec rest ih =>
    obtain ⟨result, left, later, -, rfl, hlater⟩ := h
    refine List.forall_mem_cons.mpr ⟨List.mem_cons_self, fun turn hturn => ?_⟩
    cases result with
    | none =>
      obtain ⟨rfl, -⟩ := hlater
      cases hturn
    | some err => exact List.mem_cons_of_mem rec (ih hlater turn hturn)

/-- Update-all asks for updates of what it selected. -/
theorem updateAll_selected {trace : Trace Services World} {answer : Option Answer}
    (hrun : (openSystem.layered Service.run).Runs
      (handleUpdateAllContainers updater ctx opCtx stack actorID) w trace answer w') :
    ∀ req ∈ asked trace, ∃ c ∈ selectBulkUpdateTargets w.store.listContainers stack,
      req = bulkUpdateRequest opCtx actorID c := by
  obtain ⟨kept, met, turns, left, hkept, -, -, hturns, -, hasked⟩ := updateAll_turns hrun
  rw [hasked]
  intro req hreq
  obtain ⟨turn, hturn, rfl⟩ := List.mem_map.mp hreq
  exact ⟨turn.container, hkept.subset (turns_of_targets hturns turn hturn), rfl⟩

theorem beginOperation_answers (w : World) (name kind : String) :
    ∃ current w', openSystem.step w (.beginOperation name kind) current w' :=
  ⟨(w.guard.begin name kind w.clock).1, { w with guard := (w.guard.begin name kind w.clock).2 }, {}, rfl⟩

/-- An update may fail at once, whatever the world. -/
theorem update_refused {req : Updater.UpdateRequest} (hctx : req.ctx = .background) (w : World) :
    ∃ trace err w', err ≠ .nilDereference ∧
      openSystem.Runs (Updater.update req) w trace (some err) w' := by
  obtain ⟨ctx, containerID, targetImage, requester⟩ := req
  obtain rfl : ctx = .background := hctx
  have hrec := step_failed w (.getContainer containerID) .notFound
  obtain ⟨current, w₁, hbegin⟩ := beginOperation_answers w containerID "update"
  cases current with
  | some current =>
    by_cases hkind : current.kind = "self-update"
    · refine ⟨_, .maintenanceInProgress, w₁, by simp, w, _, w, _, .refl, hrec, rfl, w, _, w₁, _, .refl,
        hbegin, rfl, w₁, (), w₁, [], .refl, ⟨{}, rfl⟩, rfl, ?_⟩
      simp only [if_pos hkind]
      exact ⟨rfl, rfl, rfl⟩
    · refine ⟨_, .operationInProgress containerID current.kind, w₁, by simp, w, _, w, _, .refl, hrec, rfl,
        w, _, w₁, _, .refl, hbegin, rfl, w₁, (), w₁, [], .refl, ⟨{}, rfl⟩, rfl, ?_⟩
      simp only [if_neg hkind]
      exact ⟨rfl, rfl, rfl⟩
  | none =>
    refine ⟨_, .wrap "inspect container before update" _, _, by simp, w, _, w, _, .refl, hrec, rfl, w, _,
      w₁, _, .refl, hbegin, rfl, w₁, _, w₁, _, .refl, ⟨{ fault := some .notFound }, rfl⟩, rfl, w₁, _, _, _,
      .refl, ⟨{}, rfl⟩, rfl, rfl, rfl, rfl⟩

theorem bulkUpdates_refused (targets : List ContainerRecord) (succeeded failed : Nat) (w : World) :
    ∃ trace counts w', (openSystem.layered Service.run).Runs
      (bulkUpdates .background actorID targets succeeded failed) w trace (some counts) w' ∧
      asked trace = targets.map (bulkUpdateRequest .background actorID) := by
  induction targets generalizing w failed with
  | nil => exact ⟨[], _, w, ⟨rfl, rfl, rfl⟩, rfl⟩
  | cons rec rest ih =>
    have hrefused := update_refused (rfl : (bulkUpdateRequest .background actorID rec).ctx = .background) w
    obtain ⟨inner, err, w₁, hne, hupdate⟩ := hrefused
    obtain ⟨later, counts, w', hlater, hasked⟩ := ih (failed + 1) w₁
    refine ⟨⟨w, .update (bulkUpdateRequest .background actorID rec), some err⟩ :: later, counts, w', ?_, ?_⟩
    · refine ⟨w, some err, w₁, later, rfl, ⟨inner, hupdate⟩, rfl, ?_⟩
      cases err <;> first | exact absurd rfl hne | exact hlater
    · change bulkUpdateRequest .background actorID rec :: asked later = _
      rw [hasked]
      rfl

theorem excludeSelf_denied (updater : Updater.SelfUpdater) (w : World)
    (targets : List ContainerRecord) :
    ∃ trace, openSystem.Runs (excludeSelf updater .background targets) w trace targets w := by
  induction targets with
  | nil => exact ⟨[], rfl, rfl, rfl⟩
  | cons c rest ih =>
    obtain ⟨first, hself⟩ := isSelf_denied updater w c.id
    obtain ⟨second, hrest⟩ := ih
    refine ⟨first ++ (second ++ []), Machine.runs_bind.mpr ⟨first, false, w, _, hself, ?_, rfl⟩⟩
    exact Machine.runs_bind.mpr ⟨second, rest, w, [], hrest, ⟨rfl, rfl, rfl⟩, rfl⟩

theorem emit_answers (event : LogEvent) (w : World) :
    ∃ trace, (openSystem.layered Service.run).Runs (Daemon.ofGo (emit event)) w trace () w ∧
      asked trace = [] := by
  have hemit : openSystem.Runs (emit event) w [⟨w, .emit event, ()⟩] () w :=
    ⟨w, (), w, [], .refl, ⟨{}, rfl⟩, rfl, rfl, rfl, rfl⟩
  obtain ⟨trace, htrace⟩ := looks_runs_of hemit
  exact ⟨trace, htrace, asked_ofGo htrace⟩

theorem runBulkUpdate_refused (actorID : String) (targets : List ContainerRecord) (w : World) :
    ∃ trace w', (openSystem.layered Service.run).Runs (runBulkUpdate .background targets actorID) w
      trace (some ()) w' ∧ asked trace = targets.map (bulkUpdateRequest .background actorID) := by
  obtain ⟨first, ⟨succeeded, failed⟩, w', hfirst, hasked⟩ := bulkUpdates_refused targets 0 0 w
  obtain ⟨second, hsecond, hquiet⟩ := emit_answers _ w'
  refine ⟨first ++ (second ++ []), w', Machine.runs_bind.mpr ⟨first, _, w', _, hfirst, ?_, rfl⟩, ?_⟩
  · exact Machine.runs_bind.mpr ⟨second, (), w', [], hsecond, ⟨rfl, rfl, rfl⟩, rfl⟩
  · rw [List.append_nil, asked_append, hasked, hquiet, List.append_nil]

/-- Update-all may ask for an update of each container it selects. -/
theorem updateAll_asks (updater : Updater.SelfUpdater) (stack actorID : String) (w : World) :
    ∃ trace answer w', (openSystem.layered Service.run).Runs
      (handleUpdateAllContainers updater .background .background stack actorID) w trace answer w' ∧
      asked trace = (selectBulkUpdateTargets w.store.listContainers stack).map
        (bulkUpdateRequest .background actorID) := by
  have hlist : openSystem.Runs (Go.store .background .listContainers) w _ _ w :=
    ⟨w, _, w, [], .refl, step_answered rfl, rfl, rfl, rfl, rfl⟩
  obtain ⟨_, hself⟩ := excludeSelf_denied updater w (selectBulkUpdateTargets w.store.listContainers stack)
  obtain ⟨first, hfirst⟩ := looks_runs_of hlist
  obtain ⟨second, hsecond⟩ := looks_runs_of hself
  have hquiet : asked (first ++ second) = [] := by
    rw [asked_append, asked_ofGo hfirst, asked_ofGo hsecond]
    rfl
  by_cases hempty : selectBulkUpdateTargets w.store.listContainers stack = []
  · refine ⟨first ++ (second ++ []), some (.queued 0), w, ?_, ?_⟩
    · refine Machine.runs_bind.mpr ⟨first, _, w, _, hfirst, ?_, rfl⟩
      refine Machine.runs_bind.mpr ⟨second, _, w, [], hsecond, ?_, rfl⟩
      rw [if_pos hempty]
      exact ⟨rfl, rfl, rfl⟩
    · rw [List.append_nil, hquiet, hempty]
      rfl
  · obtain ⟨third, hthird, hnone⟩ := emit_answers _ w
    obtain ⟨bulk, w', hbulk, hmap⟩ := runBulkUpdate_refused actorID
      (selectBulkUpdateTargets w.store.listContainers stack) w
    refine ⟨first ++ (second ++ (third ++ (bulk ++ []))),
      some (.queued (selectBulkUpdateTargets w.store.listContainers stack).length), w', ?_, ?_⟩
    · refine Machine.runs_bind.mpr ⟨first, _, w, _, hfirst, ?_, rfl⟩
      refine Machine.runs_bind.mpr ⟨second, _, w, _, hsecond, ?_, rfl⟩
      rw [if_neg hempty]
      refine Machine.runs_bind.mpr ⟨third, (), w, _, hthird, ?_, rfl⟩
      exact Machine.runs_bind.mpr ⟨bulk, some (), w', [], hbulk, ⟨rfl, rfl, rfl⟩, rfl⟩
    · rw [← List.append_assoc, asked_append, hquiet, asked_append, hnone, List.append_nil, hmap]
      rfl

/-! ### Which groups stay apart -/

theorem mem_selectBulkUpdateTargets {records : List ContainerRecord} {c : ContainerRecord} :
    c ∈ selectBulkUpdateTargets records stack ↔
      c ∈ records ∧ Eligible c ∧ (stack = "" ∨ c.stack = stack) := by
  simp [selectBulkUpdateTargets, Eligible, and_assoc]

/-- A group of the page: its name is that of one of its containers. -/
theorem mem_stackViews {records : List ContainerRecord} (h : view ∈ stackViews records) :
    view.name ≠ "" ∧ view.stackParam = (if view.name = "Ungrouped" then "" else view.name) ∧
      ∀ c, c ∈ view.containers ↔ c ∈ records ∧ groupName c = view.name := by
  obtain ⟨name, hname, rfl⟩ := List.mem_map.mp h
  have hname : name ∈ records.map groupName :=
    List.mem_dedup.mp ((List.perm_insertionSort _ _).mem_iff.mp hname)
  obtain ⟨c, -, rfl⟩ := List.mem_map.mp hname
  refine ⟨?_, rfl, fun d => by simp⟩
  change groupName c ≠ ""
  unfold groupName
  split
  · decide
  · assumption

/-- The containers a group's button selects, against those the group displays. -/
theorem staysInGroup_iff_selected (hunique : s.UniqueIDs) (hview : view ∈ stackViews s.listContainers) :
    StaysInGroup s view ↔
      ∀ c ∈ selectBulkUpdateTargets s.listContainers (pressed view), c ∈ view.containers := by
  constructor
  · intro h c hc
    obtain ⟨trace, answer, w', hrun, hasked⟩ := updateAll_asks {} (pressed view) "" { webWorld with store := s }
    have hreq : bulkUpdateRequest .background "" c ∈ asked trace := by
      rw [hasked]
      exact List.mem_map_of_mem hc
    obtain ⟨d, hd, heq⟩ := h _ _ _ _ _ _ _ _ rfl hrun _ hreq
    have hid : c.id = d.id := congrArg Updater.UpdateRequest.containerID heq
    have hlisted : d ∈ s.listContainers := ((mem_stackViews hview).2.2 d |>.mp hd).1
    have hfound := Store.getContainer_of_listed hunique (mem_selectBulkUpdateTargets.mp hc).1
    rw [hid, Store.getContainer_of_listed hunique hlisted] at hfound
    exact Option.some.inj hfound ▸ hd
  · rintro h updater ctx opCtx actorID w trace answer w' rfl hrun req hreq
    obtain ⟨c, hc, rfl⟩ := updateAll_selected hrun req hreq
    exact ⟨c, h c hc, rfl⟩

/-- Update-all of a group stays in the group just when the group is separate. -/
theorem staysInGroup_iff (hunique : s.UniqueIDs) (hview : view ∈ stackViews s.listContainers) :
    StaysInGroup s view ↔ Separate s.listContainers view := by
  obtain ⟨hname, hparam, hshown⟩ := mem_stackViews hview
  rw [staysInGroup_iff_selected hunique hview]
  simp only [mem_selectBulkUpdateTargets, hshown]
  by_cases hungrouped : view.name = "Ungrouped"
  · have hpressed : pressed view = "" := by
      rw [pressed_eq, hparam, if_pos hungrouped]
      rfl
    have hgroup : ∀ c : ContainerRecord,
        groupName c = "Ungrouped" ↔ c.stack = "" ∨ c.stack = "Ungrouped" := by
      intro c
      by_cases h : c.stack = "" <;> simp [groupName, h]
    simp only [Separate, hpressed, hungrouped, hgroup]
    constructor
    · intro h
      refine ⟨fun _ c hc heligible => ?_, fun hne => absurd rfl hne⟩
      exact (h c ⟨hc, heligible, .inl trivial⟩).2
    · rintro ⟨h, -⟩ c ⟨hc, heligible, -⟩
      exact ⟨hc, h trivial c hc heligible⟩
  · have hpressed : pressed view = String.ofList (attributeText view.name.toList) := by
      rw [pressed_eq, hparam, if_neg hungrouped]
    have hsent : pressed view ≠ "" := by
      rw [hpressed]
      simpa using attributeText_ne_nil (s := view.name.toList) (by simpa using hname)
    have hreads : ∀ c : ContainerRecord,
        c.stack = pressed view ↔ c.stack.toList = attributeText view.name.toList := by
      intro c
      rw [hpressed, ← String.toList_inj, String.toList_ofList]
    constructor
    · refine fun h => ⟨fun heq => absurd heq hungrouped, fun _ => ?_⟩
      by_cases hreadable : Readable view.name.toList
      · exact .inl hreadable
      · refine .inr fun c hc heligible hstack => hreadable ?_
        have hgroup := (h c ⟨hc, heligible, .inr ((hreads c).mpr hstack)⟩).2
        have hfilled : c.stack ≠ "" := fun heq => hsent ((hreads c).mpr hstack ▸ heq)
        rw [groupName, if_neg hfilled] at hgroup
        rw [← hgroup, hstack]
        exact readable_attributeText _
    · rintro ⟨-, h⟩ c ⟨hc, heligible, hstack⟩
      have hstack := (hreads c).mp (hstack.resolve_left hsent)
      rcases h hungrouped with hreadable | hother
      · rw [attributeText_eq hreadable, String.toList_inj] at hstack
        refine ⟨hc, ?_⟩
        rw [groupName, hstack, if_neg hname]
      · exact absurd hstack (hother c hc heligible)

def looseRow : ContainerRecord := { webRecord with updateAvailable := true }

def shopRow : ContainerRecord :=
  { webRecord with id := "c1", name := "api", stack := "shop", updateAvailable := true }

def mixedStore : Store := { containers := [looseRow, shopRow] }

theorem mixedStore_uniqueIDs : mixedStore.UniqueIDs := by
  change ["c0", "c1"].Nodup
  decide

/-- The button of the containers without a stack updates those of the stack `shop`. -/
theorem ungrouped_updates_every_stack : ∃ view ∈ stackViews mixedStore.listContainers,
    view.containers = [looseRow] ∧ ¬ StaysInGroup mixedStore view := by
  have hview : ⟨"Ungrouped", "", [looseRow]⟩ ∈ stackViews mixedStore.listContainers := by
    decide +kernel
  refine ⟨_, hview, rfl, fun hstays => ?_⟩
  have hselected := (staysInGroup_iff_selected mixedStore_uniqueIDs hview).mp hstays shopRow
    (by decide +kernel)
  revert hselected
  decide

theorem staysInGroup_iff_shop :
    StaysInGroup mixedStore ⟨"shop", "shop", [shopRow]⟩ ↔
      Separate mixedStore.listContainers ⟨"shop", "shop", [shopRow]⟩ :=
  staysInGroup_iff mixedStore_uniqueIDs (by decide +kernel)

end Doupro.Web
