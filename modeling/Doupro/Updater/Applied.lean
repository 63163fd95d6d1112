import Doupro.Updater.OperationRuns

/-!
# The content an update applies

An update that went through created one container, from what its target stood for when it was
pulled.
-/

namespace Doupro.Updater

open Interaction

/-- What a container was created from. -/
def contentOf (e : Event Calls World) : Option String :=
  match e with
  | ⟨w, .docker _ (.create config _ _ _), reply⟩ =>
    (show Except GoError String from reply).toOption.bind fun _ => w.engine.resolve config.image
  | _ => none

/-- What the containers of a run were created from. -/
def applied (trace : Trace Calls World) : List String := trace.filterMap contentOf

@[simp] theorem applied_append (first rest : Trace Calls World) :
    applied (first ++ rest) = applied first ++ applied rest := List.filterMap_append

theorem contentOf_keepsHost {e : Event Calls World} (h : e.op.KeepsHost) : contentOf e = none := by
  unfold contentOf
  split
  · exact h.elim
  · rfl

theorem contentOf_uncreated {e : Event Calls World} (h : createdBy e = none) : contentOf e = none := by
  unfold createdBy at h
  unfold contentOf
  split
  · dsimp only at h
    rw [h]
    rfl
  · rfl

theorem applied_keepsHost {trace : Trace Calls World} (h : ∀ e ∈ trace, e.op.KeepsHost) :
    applied trace = [] :=
  List.filterMap_eq_nil_iff.mpr fun e he => contentOf_keepsHost (h e he)

/-- What a reference stands for when it is pulled and created from. -/
def Pulls (trace : Trace Calls World) (imageRef image : String) : Prop :=
  if hasPrefix imageRef "sha256:" then image = imageRef
  else ∃ e ∈ trace, (∃ ctx, e.op = .docker ctx (.pull imageRef)) ∧
    e.world.engine.registry imageRef = some image

variable {M : Machine Calls World} {R : List ContainerSpec → List ContainerSpec → Prop}
  {w w' : World} {trace : Trace Calls World}

theorem Pulls.mono {trace trace' : Trace Calls World} (hsub : trace ⊆ trace') {imageRef image : String}
    (h : Pulls trace imageRef image) : Pulls trace' imageRef image := by
  unfold Pulls at h ⊢
  split at h
  · rwa [if_pos ‹_›]
  · rw [if_neg ‹_›]
    obtain ⟨e, he, hpull⟩ := h
    exact ⟨e, hsub he, hpull⟩

/-- What the tags say of the target after the pull. -/
theorem Pulled.resolves {ctx : Context} {targetImage : String} {w₁ : World}
    (h : Pulled R ctx targetImage w trace w₁) {tags : Engine} (htags : tags.tags = w₁.engine.tags)
    {image : String} (himage : tags.resolve targetImage = some image) (rest : Trace Calls World) :
    Pulls (trace ++ rest) targetImage image ∧ applied trace = [] := by
  unfold Engine.resolve at himage
  unfold Pulls
  cases h with
  | imageID h =>
    rw [if_pos h] at himage ⊢
    exact ⟨(Option.some.inj himage).symm, rfl⟩
  | tag h hframe hlive hpulled =>
    rw [h, if_neg Bool.false_ne_true] at himage ⊢
    rw [htags] at himage
    simp only [Function.update_self] at himage
    exact ⟨⟨_, List.mem_cons_self, ⟨_, rfl⟩, hpulled.trans himage⟩, rfl⟩

theorem RecreateRun.applies {ctx : Context} {oldID targetImage : String} {before : InspectResponse}
    {result : RecreationResult}
    (h : RecreateRun M R ctx oldID before targetImage w trace (result, none) w') :
    ∃ image, applied trace = [image] ∧ Pulls trace targetImage image := by
  cases h with
  | @pulled plan _ _ _ _ _ hplan hpulled hrun =>
    cases hrun with
    | halted h =>
      obtain ⟨label, cause, h⟩ := h.failed
      cases h
    | @replaced pre _ _ _ _ hcleared hreplaced =>
      cases hreplaced with
      | @created w₀ w₁ _ spec rest _ hframe hlive hcreate hrest =>
        have himage := hcreate.image
        rw [plan_image hplan] at himage
        have htags := hframe.tags.trans hcleared.tags
        have hcontent : contentOf ⟨w₀, createCall ctx plan, .ok spec.id⟩ = some spec.image :=
          hcreate.image
        obtain ⟨hpulls, hquiet⟩ := hpulled.resolves htags himage _
        refine ⟨spec.image, ?_, hpulls⟩
        rw [applied_append, applied_append, hquiet]
        have hpre : applied pre = [] :=
          List.filterMap_eq_nil_iff.mpr fun e he => contentOf_uncreated (hcleared.silent e he).2.1
        have hpost : applied rest = [] :=
          applied_keepsHost fun e he => Call.keepsHost_of_quiet (hrest.2 e he)
        rw [hpre, List.nil_append, List.nil_append]
        unfold applied at hpost ⊢
        rw [List.filterMap_cons, hcontent, hpost]

theorem UpdateCommits.keepsHost {req : UpdateRequest} {before : InspectResponse} {definedImage : String}
    {result : RecreationResult} (h : UpdateCommits M R req before definedImage result w trace w') :
    ∀ e ∈ trace, e.op.KeepsHost := by
  cases h with
  | armed _ hkeeps => exact List.forall_mem_cons.mpr ⟨trivial, hkeeps⟩
  | stopped _ _ hkeeps =>
    exact List.forall_mem_cons.mpr ⟨trivial, List.forall_mem_cons.mpr ⟨trivial, hkeeps⟩⟩

/-- An update that went through applied what its target stood for. -/
theorem update_applies (hM : Hosts M R) {req : UpdateRequest}
    (hrun : M.Runs (update req) w trace none w') :
    ∃ image, applied trace = [image] ∧ Pulls trace req.targetImage image := by
  cases update_runs hM hrun with
  | early _ hout =>
    obtain ⟨err, h, -⟩ := hout
    cases h
  | @attempted opening rest closing before event _ w₁ w₂ w₃ _ hopened _ hattempt hclosing _ =>
    obtain ⟨definedImage, hattempt⟩ := hattempt
    obtain ⟨first, commit, result, w₄, rfl, -, hrecreate, hcommit⟩ := hattempt.of_success
    obtain ⟨image, himage, hpulls⟩ := hrecreate.applies
    have hopening : applied opening = [] := applied_keepsHost hopened.quiet.keepsHost
    have hclosed : applied closing = [] := applied_keepsHost hclosing.keepsHost
    have hcommitted : applied commit = [] := applied_keepsHost hcommit.keepsHost
    refine ⟨image, ?_, hpulls.mono fun e he => ?_⟩
    · change applied (opening ++ ([_] ++ (first ++ commit)) ++ closing) = _
      rw [applied_append, applied_append, applied_append, applied_append, hopening, hclosed, hcommitted,
        himage]
      rfl
    · simp [he]

end Doupro.Updater
