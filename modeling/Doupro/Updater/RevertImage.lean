import Doupro.Updater.OperationRuns

/-!
# The image a reverted update leaves running

The revert recreates the original container from the reference it was created from, and
pulls that reference again first. What it leaves running is what the reference stood for
at that pull, not what it stood for when the original was created.
-/

namespace Doupro.Updater

open Interaction

def lastPull (trace : Trace Calls World) : Option (Event Calls World) :=
  (trace.filter fun e => isPull e.op).getLast?

/-- The image a reference was last pulled as; an image ID is never pulled. -/
def pulledImage (trace : Trace Calls World) (imageRef : String) : Option String :=
  if hasPrefix imageRef "sha256:" then some imageRef
  else (lastPull trace).bind fun e => e.world.engine.registry imageRef

variable {M : Machine Calls World} {R : List ContainerSpec → List ContainerSpec → Prop}

theorem lastPull_eq {earlier later : Trace Calls World} {e : Event Calls World}
    (he : isPull e.op = true) (hlater : ∀ x ∈ later, isPull x.op = false) :
    lastPull (earlier ++ e :: later) = some e := by
  have hnone : later.filter (fun x => isPull x.op) = [] := by
    rw [List.filter_eq_nil_iff]
    intro x hx
    simp [hlater x hx]
  simp [lastPull, he, hnone]

/-- The container a successful recreation leaves, and where its image came from. -/
theorem RecreateRun.image {ctx : Context} {oldID targetImage : String} {before : InspectResponse}
    {w w' : World} {trace : Trace Calls World} {result : RecreationResult} (hM : Hosts M R)
    (h : RecreateRun M R ctx oldID before targetImage w trace (result, none) w') :
    ∃ (w₀ w₁ : World) (spec : ContainerSpec), w₀.engine.specs ++ [spec] = w₁.engine.specs ∧ World.Frame R w₁ w' ∧
      spec.name = trimSlash before.name ∧ ∀ earlier later : Trace Calls World, (∀ e ∈ later, isPull e.op = false) →
        pulledImage (earlier ++ trace ++ later) targetImage = some spec.image := by
  cases h with
  | @pulled plan pulls rest _ w₁ _ hplan hpulled hrun =>
    cases hrun with
    | halted hhalted =>
      obtain ⟨label, cause, h⟩ := hhalted.failed
      cases h
    | @replaced pre tail _ w₂ _ hcleared hreplaced =>
      cases hreplaced with
      | @created w₃ w₄ _ spec rest _ hframe hlive hcreate hrest hid hverdict =>
        refine ⟨w₃, w₄, spec, hcreate.specs.symm, hrest.frame hM,
          hcreate.named.trans (plan_name hplan), ?_⟩
        intro earlier later hlater
        have htags : w₃.engine.tags = w₁.engine.tags := hframe.tags.trans hcleared.tags
        have himage : w₃.engine.resolve targetImage = some spec.image :=
          plan_image hplan ▸ hcreate.image
        have hafter : ∀ e ∈ pre ++ ⟨w₃, createCall ctx plan, .ok spec.id⟩ :: rest ++ later,
            isPull e.op = false := by
          refine List.forall_mem_append.mpr ⟨List.forall_mem_append.mpr ⟨?_, ?_⟩, hlater⟩
          · exact fun e he => (hcleared.silent e he).2.2.1
          · refine List.forall_mem_cons.mpr ⟨rfl, fun e he => ?_⟩
            exact isPull_keepsHost (hrest.keepsHost e he)
        unfold Engine.resolve at himage
        unfold pulledImage
        cases hpulled with
        | imageID hstarts =>
          rw [if_pos hstarts] at himage ⊢
          exact himage
        | @tag w₀ image hstarts _ _ hregistry =>
          rw [if_neg (by simp [hstarts])] at himage ⊢
          rw [htags] at himage
          simp only [Function.update_self] at himage
          have hsplit : earlier ++ ([⟨w₀, .docker ctx (.pull targetImage), .ok ()⟩] ++
              (pre ++ ⟨w₃, createCall ctx plan, .ok spec.id⟩ :: rest)) ++ later =
              earlier ++ ⟨w₀, .docker ctx (.pull targetImage), .ok ()⟩ ::
                (pre ++ ⟨w₃, createCall ctx plan, .ok spec.id⟩ :: rest ++ later) := by simp
          rw [hsplit, lastPull_eq rfl hafter]
          exact hregistry.trans himage

/-- The container a reported revert leaves, and where its image came from. -/
theorem RevertRun.image {ctx : Context} {op : FailedOperation} {liveID : String} {w w' : World}
    {trace : Trace Calls World} {out : Option GoError} (hM : Hosts M R)
    (h : RevertRun M R ctx op liveID w trace out w') (hreverted : ¬ Failed out) :
    ∃ (w₀ w₁ : World) (spec : ContainerSpec), w₀.engine.specs ++ [spec] = w₁.engine.specs ∧
      R w₁.engine.specs w'.engine.specs ∧ spec.name = trimSlash op.before.name ∧
      ∀ earlier later : Trace Calls World, (∀ e ∈ later, isPull e.op = false) →
        pulledImage (earlier ++ trace ++ later) (configImage op.before) = some spec.image := by
  cases h with
  | failed _ _ hout => exact absurd hout hreverted
  | unrecorded => exact absurd ⟨_, rfl, rfl⟩ hreverted
  | @reverted first read rest result recorded w₁ w₂ w₃ _ hrecreate hread hrely hrest =>
    obtain ⟨w₄, w₅, spec, hspecs, hframe, hname, himage⟩ := hrecreate.image hM
    have hafter := ((hread.frame hM).trans hM (hM.rely hrely)).specs
    refine ⟨w₄, w₅, spec, hspecs, hM.trans hframe.specs (hM.trans hafter (hrest.frame hM).specs),
      hname, fun earlier later hlater => ?_⟩
    have hquiet : ∀ e ∈ read ++ ⟨w₃, .store ctx (.replaceContainer op.originalID
        (revertedRecord op result recorded)), .ok ()⟩ :: rest ++ later, isPull e.op = false := by
      refine List.forall_mem_append.mpr ⟨List.forall_mem_append.mpr ⟨?_, ?_⟩, hlater⟩
      · exact fun e he => isPull_keepsHost (hread.keepsHost e he)
      · exact List.forall_mem_cons.mpr
          ⟨rfl, fun e he => isPull_keepsHost (hrest.keepsHost e he)⟩
    simpa using himage earlier _ hquiet

/-- In a host that lost containers since one was created, the carrier of its name is it. -/
theorem carrier_eq {w w₁ w' : World} {spec live : ContainerSpec}
    (hspecs : w.engine.specs ++ [spec] = w₁.engine.specs)
    (hafter : Sheds w₁.engine.specs w'.engine.specs)
    (hlive : w'.engine.named spec.name = some live) : live = spec := by
  obtain ⟨hmem, hname⟩ := w'.engine.named_eq_some.mp hlive
  have hmem₁ := hafter.1.subset hmem
  have hspec : spec ∈ w₁.engine.specs := hspecs ▸ List.mem_append_right _ List.mem_cons_self
  exact List.inj_on_of_nodup_map w₁.engine.names_nodup hmem₁ hspec hname

/-- An update that reports its revert leaves the original image running exactly if the
reference the original was created from was pulled as that image again. -/
theorem update_revert_image {req : UpdateRequest} {w w' : World} {trace : Trace Calls World}
    {kind : String} {cause : GoError}
    (hrun : openSystem.Runs (update req) w trace (some (.reverted kind cause)) w')
    {original live : ContainerSpec} (horiginal : original ∈ w.engine.specs)
    (hid : original.id = req.containerID) (hlive : w'.engine.named original.name = some live) :
    live.image = original.image ↔
      pulledImage trace original.config.image = some original.image := by
  have hreverted : ¬ Failed (some (.reverted kind cause)) := by
    rintro ⟨err, h, herr⟩
    cases h
    cases herr
  cases update_runs openSystem_hosts hrun with
  | early _ hfailed _ => exact absurd hfailed hreverted
  | @attempted opening rest closing before event _ w₁ w₂ w₃ _ hopened hrely hattempt hclosing _ =>
    obtain ⟨w₀, spec, hframe, hmem, hspec, rfl⟩ := hopened.original openSystem_hosts
    obtain rfl : spec = original := List.inj_on_of_nodup_map w.engine.ids_nodup
      (hframe.specs.1.subset hmem) horiginal (hspec.trans hid.symm)
    obtain ⟨definedImage, hattempt⟩ := hattempt
    have hrevert : ∃ w₄ first later liveID cause', rest = first ++ later ∧
        RevertRun openSystem Sheds req.ctx ⟨"update", req.containerID, w₀.engine.inspectResponse spec,
          trimSlash (w₀.engine.inspectResponse spec).name, req.requester, cause'⟩ liveID w₄ later
          (some (.reverted kind cause)) w₃ := by
      cases hattempt with
      | recovered hrecreate _ hreport hrecover =>
        cases hrecover with
        | kept _ _ hout => exact absurd hout hreverted
        | removed _ hrevert => exact ⟨_, _, _, _, _, rfl, hrevert⟩
      | uncommitted hrecreate hcommit =>
        obtain ⟨commit, last, cause', w₄, rfl, -, -, -, hrevert⟩ := hcommit
        exact ⟨w₄, _, last, _, cause', (List.append_assoc _ _ _).symm, hrevert⟩
    obtain ⟨w₄, first, later, liveID, cause', rfl, hrevert⟩ := hrevert
    obtain ⟨w₅, w₆, made, hspecs, hafter, hname, himage⟩ :=
      hrevert.image openSystem_hosts hreverted
    have hname : made.name = spec.name := hname.trans (trimSlash_slash spec.name)
    have hafter := hafter.trans (hclosing.frame openSystem_hosts).specs
    obtain rfl := carrier_eq hspecs hafter (hname ▸ hlive)
    have himage := himage (opening ++ ⟨w₂, .emit event, ()⟩ :: first) closing
      fun e he => isPull_keepsHost (hclosing.keepsHost e he)
    have himage : pulledImage (opening ++ ⟨w₂, .emit event, ()⟩ :: (first ++ later) ++ closing)
        (configImage (w₀.engine.inspectResponse spec)) = some live.image := by
      simpa using himage
    change pulledImage _ spec.config.image = _ at himage
    rw [himage, Option.some_inj]

/-! ### A tag that moved -/

/-- `web:1` was rebuilt since `c0` was created from it. -/
def movedTagWorld : World :=
  { webWorld with
    engine.registry := fun imageRef =>
      [("web:1", "sha256:1"), ("web:2", "sha256:2")].lookup imageRef }

def createRefused : GoError :=
  .wrap "create container" (.wrap "create container web" (.external "driver failed"))

/-- The revert starts the image the tag stands for now. -/
theorem update_revert_image_moved : ∃ trace w' live,
    openSystem.Runs (update updateWeb) movedTagWorld trace (some (.reverted "update" createRefused))
      w' ∧
    webSpec ∈ movedTagWorld.engine.specs ∧ webSpec.id = updateWeb.containerID ∧
    w'.engine.named webSpec.name = some live ∧ live.image ≠ webSpec.image := by
  have hrun := (update updateWeb).play_runs movedTagWorld createFailsOnce
  have hvalue : ((update updateWeb).play movedTagWorld createFailsOnce).value =
      some (.reverted "update" createRefused) := by decide +kernel
  have himage : (((update updateWeb).play movedTagWorld createFailsOnce).world.engine.named
      "web").map ContainerSpec.image = some "sha256:1" := by decide +kernel
  obtain ⟨live, hlive, himage⟩ := Option.map_eq_some_iff.mp himage
  rw [hvalue] at hrun
  refine ⟨_, _, live, hrun, List.mem_cons_self, rfl, hlive, ?_⟩
  rw [himage]
  decide

/-- Where the tag did not move, the same failure ends with the original image. -/
theorem update_revert_image_unmoved : ∃ trace w' live,
    openSystem.Runs (update updateWeb) webWorld trace (some (.reverted "update" createRefused)) w' ∧
    webSpec ∈ webWorld.engine.specs ∧ webSpec.id = updateWeb.containerID ∧
    w'.engine.named webSpec.name = some live ∧ live.image = webSpec.image := by
  have hrun := (update updateWeb).play_runs webWorld createFailsOnce
  have hvalue : ((update updateWeb).play webWorld createFailsOnce).value =
      some (.reverted "update" createRefused) := by decide +kernel
  have hcarries : (((update updateWeb).play webWorld createFailsOnce).world.engine.named
      webSpec.name).isSome = true := by decide +kernel
  have hpulled : pulledImage ((update updateWeb).play webWorld createFailsOnce).trace
      webSpec.config.image = some webSpec.image := by decide +kernel
  obtain ⟨live, hlive⟩ := Option.isSome_iff_exists.mp hcarries
  rw [hvalue] at hrun
  have horiginal : webSpec ∈ webWorld.engine.specs := List.mem_cons_self
  exact ⟨_, _, live, hrun, horiginal, rfl, hlive,
    (update_revert_image hrun horiginal rfl hlive).mpr hpulled⟩

end Doupro.Updater
