import Doupro.Api.Containers
import Doupro.Scheduler.Exclusion

/-!
# The targets of the scheduled passes and of update-all

A pass asks for updates of containers only whose rows it read without the flag. As long as the
flags are right, none of them is excluded.
-/

namespace Doupro

open Go Interaction

namespace Scheduler

theorem sparesMarks_store {ctx : Context} {call : StoreCall} (hmarks : ¬ call.Marks)
    (hlists : ¬ call.EditsLists) (hrows : call.replaces = none) : Call.SparesMarks (.store ctx call) :=
  ⟨⟨hmarks, hrows⟩, fun _ _ heq => by cases heq; exact hlists⟩

theorem sparesMarks_of_reads {call : Call} (h : Reads call) : call.SparesMarks := by
  unfold Reads at h
  split at h <;> first
    | exact h.elim
    | exact sparesMarks_store id id rfl
    | exact ⟨trivial, fun _ _ heq => by cases heq⟩

/-- The containers read without the flag. -/
def clear (cleared : List String) : Event Services World → List String
  | ⟨_, .call (.store _ .listContainers), .ok rows⟩ =>
    (rows.filter fun row => !row.excluded).map ContainerRecord.id ++ cleared
  | ⟨_, .call (.store _ (.getContainer _)), .ok row⟩ =>
    if row.excluded then cleared else row.id :: cleared
  | _ => cleared

theorem subset_clear (cleared : List String) (e : Event Services World) :
    cleared ⊆ clear cleared e := by
  unfold clear
  split
  · exact List.subset_append_right _ _
  · split
    · exact List.Subset.refl _
    · exact List.subset_cons_self _ _
  · exact List.Subset.refl _

/-- Updates are of cleared containers only, and nothing else is done to a flag. -/
def sparing : Contract Services World (List String) where
  allowed cleared op := match op with
    | .update req => req.containerID ∈ cleared
    | .call call => call.SparesMarks
    | .rollback _ | .startSelfUpdate _ _ _ _ _ => False
  expects _ _ := True
  next := clear

section Obeys

variable {M : Machine Services World} {α β : Type} {k : List String} {Q : List String → α → Prop}

theorem ofGo_sparing {p : Go β} (hp : p.Uses Call.SparesMarks) (k : List String) :
    M.obeys sparing (Daemon.ofGo p) k fun k' _ => k ⊆ k' := by
  induction p generalizing k with
  | ret a => exact List.Subset.refl k
  | call op next ih =>
    refine ⟨hp.1, fun w r w' _ _ => ?_⟩
    exact Machine.obeys_mono (ih r (hp.2 r) _) fun _ _ hk => List.Subset.trans (subset_clear k _) hk

theorem sparing_bind {p : Go β} {f : β → Daemon α} (hp : p.Uses Call.SparesMarks)
    (h : ∀ b k', k ⊆ k' → M.obeys sparing (f b) k' Q) :
    M.obeys sparing (Daemon.ofGo p >>= f) k Q :=
  Machine.obeys_bind.mpr (Machine.obeys_mono (ofGo_sparing hp k) fun k' b hk => h b k' hk)

theorem update_sparing {req : Updater.UpdateRequest} {f : Option GoError → Daemon α}
    (hk : req.containerID ∈ k) (h : ∀ err, M.obeys sparing (f err) k Q) :
    M.obeys sparing (Daemon.update req >>= f) k Q :=
  ⟨hk, fun _ err _ _ _ => h err⟩

/-- Every target without the flag is cleared. -/
def Cleared (k : List String) (targets : List ContainerRecord) : Prop :=
  ∀ rec ∈ targets, rec.excluded = false → rec.id ∈ k

theorem Cleared.tail {rec : ContainerRecord} {rest : List ContainerRecord} {k' : List String}
    (h : Cleared k (rec :: rest)) (hk : k ⊆ k') : Cleared k' rest :=
  fun other hother hflag => hk (h other (List.mem_cons_of_mem _ hother) hflag)

theorem resolveTargets_sparing (ctx : Context) (sc : Schedule) :
    M.obeys sparing (Daemon.ofGo (resolveTargets ctx sc)) k fun k' found =>
      ∀ targets, found = .ok targets → Cleared k' targets := by
  unfold resolveTargets Monitor.getContainerByName
  split
  · refine ⟨sparesMarks_store id id rfl, fun w found w' _ _ => ?_⟩
    cases found with
    | error err => exact fun _ h => by cases h
    | ok id =>
      refine ⟨sparesMarks_store (fun h => h) (fun h => h) rfl, fun w' row w'' _ _ => ?_⟩
      cases row with
      | error err => exact fun _ h => by cases h
      | ok found =>
        intro targets h rec hrec hflag
        obtain rfl := Except.ok.inj h
        obtain rfl := List.mem_singleton.mp hrec
        simp [sparing, clear, hflag]
  · refine ⟨sparesMarks_store id id rfl, fun w found w' _ _ => ?_⟩
    cases found with
    | error err => exact fun _ h => by cases h
    | ok all =>
      intro targets h rec hrec hflag
      obtain rfl := Except.ok.inj h
      have hall : rec ∈ all := (List.mem_filter.mp hrec).1
      refine List.mem_append_left _ (List.mem_map.mpr ⟨rec, List.mem_filter.mpr ⟨hall, ?_⟩, rfl⟩)
      simp [hflag]

theorem waits_sparesMarks (delay : Duration) (candidate : UpdateCandidate) :
    (waits delay candidate).Uses Call.SparesMarks := by
  unfold waits
  split
  · trivial
  · exact ⟨⟨trivial, fun _ _ heq => by cases heq⟩, fun _ => trivial⟩

theorem logExecuted_sparesMarks (sc : Schedule) (err : Option GoError) :
    (logExecuted sc err).Uses Call.SparesMarks := by
  refine ⟨sparesMarks_emit _, fun _ => ?_⟩
  dsimp only
  split
  · exact ⟨⟨trivial, fun _ _ heq => by cases heq⟩, fun _ => trivial⟩
  · trivial

theorem applyEach_sparing (ctx : Context) (sc : Schedule) (delay : Duration)
    {targets : List ContainerRecord} (hcleared : Cleared k targets) (applied : Nat) :
    M.obeys sparing (applyEach ctx sc delay targets applied) k fun _ _ => True := by
  induction targets generalizing k applied with
  | nil => trivial
  | cons rec rest ih =>
    unfold applyEach
    split
    · exact ih (hcleared.tail (List.Subset.refl k)) applied
    next hskipped =>
    refine sparing_bind ⟨sparesMarks_store id id rfl, fun _ => trivial⟩ fun candidate k₁ hk₁ => ?_
    cases candidate with
    | error err => exact ih (hcleared.tail hk₁) applied
    | ok candidate =>
      refine sparing_bind (waits_sparesMarks delay candidate) fun waiting k₂ hk₂ => ?_
      have hk : k ⊆ k₂ := List.Subset.trans hk₁ hk₂
      split
      · exact ih (hcleared.tail hk) applied
      have hflag : rec.excluded = false := by
        unfold isSkipped at hskipped
        simp at hskipped
        exact hskipped.2
      refine update_sparing (hk (hcleared rec List.mem_cons_self hflag)) fun err => ?_
      split
      · trivial
      split
      · trivial
      refine sparing_bind (logExecuted_sparesMarks _ _) fun _ k₃ hk₃ => ?_
      have hk' : k ⊆ k₃ := List.Subset.trans hk hk₃
      split
      · refine sparing_bind ⟨sparesMarks_store id id rfl, fun _ => trivial⟩ fun _ k₄ hk₄ => ?_
        exact ih (hcleared.tail (List.Subset.trans hk' hk₄)) _
      · exact ih (hcleared.tail hk') _

theorem applyToTargets_sparing (ctx : Context) (sc : Schedule) (delay : Duration) :
    M.obeys sparing (applyToTargets ctx sc delay) k fun _ _ => True := by
  refine Machine.obeys_bind.mpr (Machine.obeys_mono (resolveTargets_sparing ctx sc) ?_)
  intro k' found hcleared
  cases found with
  | error err =>
    exact sparing_bind ⟨sparesMarks_emit _, fun _ => trivial⟩ fun _ _ _ => trivial
  | ok targets => exact applyEach_sparing ctx sc delay (hcleared targets rfl) 0

variable (s : Scheduler)

theorem executeCron_sparing (ctx : Context) (sc : Schedule) :
    M.obeys sparing (s.executeCron ctx sc) k fun _ _ => True := by
  refine Machine.obeys_bind.mpr (Machine.obeys_mono (applyToTargets_sparing ctx sc 0) ?_)
  intro k' result _
  match result with
  | none => trivial
  | some (_, true) => trivial
  | some (applied, false) =>
    have hnext : (s.nextCronRun sc.cronExpr).Uses Call.SparesMarks := by
      unfold nextCronRun
      split
      · trivial
      · exact ⟨⟨trivial, fun _ _ heq => by cases heq⟩, fun _ => trivial⟩
    refine sparing_bind hnext fun next _ _ => ?_
    refine sparing_bind ⟨sparesMarks_store id id rfl, fun _ => trivial⟩ fun marked _ _ => ?_
    cases marked with
    | error err => exact sparing_bind ⟨sparesMarks_emit _, fun _ => trivial⟩ fun _ _ _ => trivial
    | ok _ => trivial

theorem runPolicies_sparing (ctx : Context) (rows : List Schedule) :
    M.obeys sparing (s.runPolicies ctx rows) k fun _ _ => True := by
  induction rows generalizing k with
  | nil => trivial
  | cons sc rest ih =>
    unfold runPolicies
    split
    · exact ih
    have hinterval : (s.currentCheckInterval ctx).Uses Call.SparesMarks := by
      refine Program.uses_bind ((Program.uses_request _).mpr (sparesMarks_store id id rfl))
        fun minutes => ?_
      split <;> trivial
    refine sparing_bind hinterval fun interval _ _ => ?_
    refine sparing_bind ⟨⟨trivial, fun _ _ heq => by cases heq⟩, fun _ => trivial⟩ fun now _ _ => ?_
    split
    · exact ih
    cases delayOf sc with
    | none => exact ih
    | some delay =>
      refine Machine.obeys_bind.mpr (Machine.obeys_mono (applyToTargets_sparing ctx sc delay) ?_)
      intro k' result _
      match result with
      | none => trivial
      | some (_, true) => trivial
      | some (applied, false) =>
        dsimp only
        split
        · exact sparing_bind ⟨sparesMarks_store id id rfl, fun _ => trivial⟩ fun _ _ _ => ih
        · exact ih

theorem runRelativePolicies_sparing (ctx : Context) :
    M.obeys sparing (s.runRelativePolicies ctx) k fun _ _ => True := by
  refine sparing_bind ⟨⟨trivial, fun _ _ heq => by cases heq⟩, fun _ => trivial⟩ fun active _ _ => ?_
  split
  · trivial
  refine sparing_bind ⟨sparesMarks_store id id rfl, fun _ => trivial⟩ fun rows _ _ => ?_
  cases rows with
  | error err => exact sparing_bind ⟨sparesMarks_emit _, fun _ => trivial⟩ fun _ _ _ => trivial
  | ok rows => exact s.runPolicies_sparing ctx rows

end Obeys

end Scheduler

namespace Api

open Scheduler

section Obeys

variable {M : Machine Services World} {k : List String}

theorem isSelf_sparesMarks (updater : Updater.SelfUpdater) (ctx : Context) (containerID : String) :
    (Updater.isSelf updater ctx containerID).Uses Call.SparesMarks := by
  refine Program.uses_bind ⟨⟨trivial, fun _ _ heq => by cases heq⟩, fun items => ?_⟩ fun self => ?_
  · cases items <;> trivial
  · cases self <;> trivial

/-- The container of the daemon apart, every target is kept. -/
theorem excludeSelf_sparing (updater : Updater.SelfUpdater) (ctx : Context)
    {rows : List ContainerRecord} (hrows : ∀ rec ∈ rows, rec.id ∈ k) :
    M.obeys sparing (Daemon.ofGo (excludeSelf updater ctx rows)) k fun k' others =>
      k ⊆ k' ∧ ∀ rec ∈ others, rec.id ∈ k' := by
  induction rows generalizing k with
  | nil => exact ⟨List.Subset.refl k, fun rec hrec => absurd hrec List.not_mem_nil⟩
  | cons c rest ih =>
    obtain ⟨hc, hrest⟩ := List.forall_mem_cons.mp hrows
    unfold excludeSelf
    rw [Daemon.ofGo_bind]
    refine sparing_bind (isSelf_sparesMarks updater ctx c.id) fun self k₁ hk₁ => ?_
    rw [Daemon.ofGo_bind]
    refine Machine.obeys_bind.mpr (Machine.obeys_mono (ih fun rec hrec => hk₁ (hrest rec hrec)) ?_)
    rintro k₂ others ⟨hk₂, hothers⟩
    have hk : k ⊆ k₂ := List.Subset.trans hk₁ hk₂
    refine ⟨hk, fun rec hrec => ?_⟩
    split at hrec
    · exact hothers rec hrec
    · rcases List.mem_cons.mp hrec with rfl | hrec
      · exact hk hc
      · exact hothers rec hrec

theorem concludeUpdate_sparesMarks (ctx : Context) (rec : ContainerRecord) :
    (concludeUpdate ctx rec).Uses Call.SparesMarks := by
  refine ⟨sparesMarks_store id id rfl, fun _ => ?_⟩
  refine Program.uses_bind (p := Monitor.getContainerByName ctx rec.name) ?_ fun updated => ?_
  · exact Program.uses_mono (fun _ => sparesMarks_of_reads) (getContainerByName_reads ctx rec.name)
  · cases updated with
    | error err => trivial
    | ok updated =>
      refine Program.uses_bind ?_ fun _ => trivial
      exact Program.uses_mono (fun _ => sparesMarks_of_checks)
        (Program.uses_mono checks_of_compares
          (resolveVersionAfterAction_compares ctx updated.id updated.currentImage))

theorem bulkUpdates_sparing (ctx : Context) (actorID : String) {targets : List ContainerRecord}
    (htargets : ∀ rec ∈ targets, rec.id ∈ k) (succeeded failed : Nat) :
    M.obeys sparing (bulkUpdates ctx actorID targets succeeded failed) k fun _ _ => True := by
  induction targets generalizing k succeeded failed with
  | nil => trivial
  | cons rec rest ih =>
    obtain ⟨hrec, hrest⟩ := List.forall_mem_cons.mp htargets
    refine update_sparing hrec fun err => ?_
    split
    · trivial
    · exact ih hrest _ _
    · refine sparing_bind (concludeUpdate_sparesMarks ctx rec) fun _ k' hk => ?_
      exact ih (fun other hother => hk (hrest other hother)) _ _

theorem handleUpdateAllContainers_sparing (updater : Updater.SelfUpdater) (ctx opCtx : Context)
    (stack actorID : String) :
    M.obeys sparing (handleUpdateAllContainers updater ctx opCtx stack actorID) k
      fun _ _ => True := by
  refine ⟨sparesMarks_store id id rfl, fun w records w' _ _ => ?_⟩
  cases records with
  | error err => trivial
  | ok records =>
    have hselected : ∀ rec ∈ selectBulkUpdateTargets records stack,
        rec.id ∈ clear k ⟨w, .call (.store ctx .listContainers), .ok records⟩ := by
      intro rec hrec
      obtain ⟨hmem, hchosen⟩ := List.mem_filter.mp hrec
      refine List.mem_append_left _ (List.mem_map.mpr ⟨rec, List.mem_filter.mpr ⟨hmem, ?_⟩, rfl⟩)
      simp only [Bool.and_eq_true] at hchosen
      exact hchosen.1.2
    refine (Machine.obeys_bind (p := Daemon.ofGo (excludeSelf updater ctx _))).mpr
      (Machine.obeys_mono (excludeSelf_sparing updater ctx hselected) ?_)
    rintro k₁ targets ⟨-, htargets⟩
    split
    · trivial
    refine sparing_bind ⟨sparesMarks_emit _, fun _ => trivial⟩ fun _ k₂ hk₂ => ?_
    refine Machine.obeys_bind.mpr (Machine.obeys_mono (Q := fun _ _ => True) ?_ ?_)
    · refine Machine.obeys_bind.mpr (Machine.obeys_mono
        (bulkUpdates_sparing opCtx actorID (fun rec hrec => hk₂ (htargets rec hrec)) 0 0) ?_)
      intro k₃ result _
      cases result with
      | none => trivial
      | some counts => exact sparing_bind ⟨sparesMarks_emit _, fun _ => trivial⟩ fun _ _ _ => trivial
    · intro k₃ result _
      cases result <;> trivial

end Obeys

end Api
end Doupro
