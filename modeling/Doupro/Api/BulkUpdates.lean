import Doupro.Api.UpdateRuns

/-!
# Update-all against the single update

The manual calls update-all the same as clicking Update on each container. Both come to one call
of the updater and the same conclusion, but the single update looks up the stored candidate and
update-all goes by the reference of the row.
-/

namespace Doupro.Api

open Go Interaction

/-- Updating a container from a world may answer this and leave that. -/
def Yields (ctx : Context) (actorID : String) (rec : ContainerRecord) (target : String) (w : World)
    (result : Option (Option GoError)) (w' : World) : Prop :=
  ∃ trace, (openSystem.layered Service.run).Runs (updateAlone ctx actorID rec target) w trace result w'

/-- `POST update` at the default scope may ask for an update, answer what it came to and leave
that. -/
def PostYields (updater : Updater.SelfUpdater) (ctx opCtx : Context) (name actorID : String)
    (w : World) (req : Updater.UpdateRequest) (result : Option (Option GoError)) (w' : World) : Prop :=
  ∃ trace, (openSystem.layered Service.run).Runs
    (handleUpdateContainer updater ctx opCtx name "" actorID) w trace (result.map .action) w' ∧
    req ∈ asked trace

/-- `POST update` on the container alone asks for the update that update-all asks for, and comes
to the same ends. -/
def AgreesWithPost (actorID : String) (rec : ContainerRecord) (w : World) : Prop :=
  ∀ updater opCtx req result w',
    (∃ ctx, PostYields updater ctx opCtx rec.name actorID w req result w') ↔
      req = bulkUpdateRequest opCtx actorID rec ∧
        Yields opCtx actorID rec rec.currentImage w result w'

/-- The name leads to the row as it was listed, and no stored candidate names another image. -/
def SameTarget (s : Store) (rec : ContainerRecord) : Prop :=
  (∃ row, Table.lookup ContainerRecord.name rec.name s.containers = some row ∧ row.id = rec.id ∧
    row.currentImage = rec.currentImage) ∧
  ∀ candidate, s.getUpdateCandidate rec.id "major" = some candidate →
    candidate.image = rec.currentImage

/-! ### The turns of update-all -/

/-- One container of update-all: the world its update met, what it came to and left. -/
structure BulkTurn where
  container : ContainerRecord
  met : World
  result : Option (Option GoError)
  left : World

/-- Containers are updated in turn, as far as a panic. -/
def TakesTurns (ctx : Context) (actorID : String) :
    List ContainerRecord → World → List BulkTurn → World → Prop
  | [], w, turns, w' => turns = [] ∧ w' = w
  | rec :: rest, w, turns, w' => ∃ result left later,
      Yields ctx actorID rec rec.currentImage w result left ∧ turns = ⟨rec, w, result, left⟩ :: later ∧
      match result with
      | none => later = [] ∧ w' = left
      | some _ => TakesTurns ctx actorID rest left later w'

variable {ctx opCtx : Context} {actorID : String} {w w' : World}

/-- The rest of update-all after a turn. -/
def proceed (ctx : Context) (actorID : String) (rest : List ContainerRecord)
    (succeeded failed : Nat) : Option (Option GoError) → Daemon (Option (Nat × Nat))
  | none => return none
  | some (some _) => bulkUpdates ctx actorID rest succeeded (failed + 1)
  | some none => bulkUpdates ctx actorID rest (succeeded + 1) failed

theorem bulkUpdates_cons (ctx : Context) (actorID : String) (rec : ContainerRecord)
    (rest : List ContainerRecord) (succeeded failed : Nat) :
    bulkUpdates ctx actorID (rec :: rest) succeeded failed =
      updateAlone ctx actorID rec rec.currentImage >>= proceed ctx actorID rest succeeded failed := by
  change (Daemon.update _ >>= _) = (Daemon.update _ >>= _) >>= _
  rw [Program.bind_assoc_eq]
  congr 1
  funext err
  cases err with
  | none =>
    change (Daemon.ofGo (concludeUpdate ctx rec) >>= fun _ => _) =
      (Daemon.ofGo (concludeUpdate ctx rec) >>= fun _ => pure (some none)) >>= _
    rw [Program.bind_assoc_eq]
    rfl
  | some err => cases err <;> rfl

theorem bulkUpdates_turns {targets : List ContainerRecord} {succeeded failed : Nat}
    {trace : Trace Services World} {out : Option (Nat × Nat)}
    (h : (openSystem.layered Service.run).Runs (bulkUpdates ctx actorID targets succeeded failed) w
      trace out w') :
    ∃ turns, TakesTurns ctx actorID targets w turns w' ∧
      asked trace = turns.map fun turn => bulkUpdateRequest ctx actorID turn.container := by
  induction targets generalizing w trace succeeded failed with
  | nil =>
    obtain ⟨rfl, -, rfl⟩ := h
    exact ⟨[], ⟨rfl, rfl⟩, rfl⟩
  | cons rec rest ih =>
    rw [bulkUpdates_cons] at h
    obtain ⟨first, result, left, later, hfirst, hlater, rfl⟩ := Machine.runs_bind.mp h
    have hasked := asked_updateAlone hfirst
    cases result with
    | none =>
      obtain ⟨rfl, -, rfl⟩ := hlater
      refine ⟨[⟨rec, w, none, w'⟩], ⟨none, w', [], ⟨first, hfirst⟩, rfl, rfl, rfl⟩, ?_⟩
      rw [List.append_nil, hasked]
      rfl
    | some err =>
      have hrest : ∃ succeeded failed, (openSystem.layered Service.run).Runs
          (bulkUpdates ctx actorID rest succeeded failed) left later out w' := by
        cases err with
        | none => exact ⟨_, _, hlater⟩
        | some err => exact ⟨_, _, hlater⟩
      obtain ⟨_, _, hrest⟩ := hrest
      obtain ⟨turns, hturns, hmap⟩ := ih hrest
      refine ⟨⟨rec, w, some err, left⟩ :: turns, ⟨some err, left, turns, ⟨first, hfirst⟩, rfl, hturns⟩, ?_⟩
      rw [asked_append, hasked, hmap]
      rfl

/-! ### What the single update asks for -/

/-- What happens before an update may be left to its environment. -/
theorem yields_of_drifts {rec : ContainerRecord} {target : String} {met : World}
    {result : Option (Option GoError)} (hmet : World.Drifts (fun _ _ => True) w met)
    (h : Yields ctx actorID rec target met result w') : Yields ctx actorID rec target w result w' := by
  obtain ⟨trace, h⟩ := h
  obtain ⟨_, err, w₁, rest, rfl, ⟨inner, hinner⟩, rfl, hrest⟩ := Machine.runs_request_bind.mp h
  exact ⟨_, w, err, w₁, rest, rfl, ⟨inner, runs_of_drifts hmet hinner⟩, rfl, hrest⟩

variable {updater : Updater.SelfUpdater} {name : String} {req : Updater.UpdateRequest}
  {result : Option (Option GoError)}

theorem looks_runs_of {α : Type} {p : Go α} {trace : Trace Calls World} {a : α}
    (h : openSystem.Runs p w trace a w') :
    ∃ outer, (openSystem.layered Service.run).Runs (Daemon.ofGo p) w outer a w' := by
  apply Machine.runs_expand.mp
  rw [Daemon.expand_ofGo]
  exact ⟨trace, h⟩

/-- The single update asks for a target of the row its name leads to. -/
theorem postYields_asks (hunique : w.store.UniqueIDs)
    (h : PostYields updater ctx opCtx name actorID w req result w') :
    ∃ row target, Table.lookup ContainerRecord.name name w.store.containers = some row ∧
      MayTarget w.store row target ∧ req = ⟨opCtx, row.id, target, ⟨.user, actorID⟩⟩ ∧
      Yields opCtx actorID row target w result w' := by
  obtain ⟨trace, hrun, hasked⟩ := h
  rcases handleUpdateContainer_runs hunique hrun with hnone |
    ⟨row, target, met, looks, update, outcome, hrow, hmay, -, hlooks, hdrift, hupdate, rfl, hanswer⟩
  · rw [hnone] at hasked
    cases hasked
  · rw [asked_append, hlooks, List.nil_append, asked_updateAlone hupdate] at hasked
    obtain rfl : result = outcome := Option.map_injective (fun _ _ h => Answer.action.inj h) hanswer
    exact ⟨row, target, hrow, hmay, List.mem_singleton.mp hasked,
      yields_of_drifts hdrift ⟨update, hupdate⟩⟩

/-- A statement that only reads can answer. -/
theorem step_answered {call : StoreCall} {answer : call.Result}
    (h : w.store.perform w.clock call = .ok (answer, w.store)) :
    openSystem.step w (.store .background call) (.ok answer) w := by
  refine ⟨{}, ?_⟩
  simp only [World.exec, World.refusal, World.contextEnded, Bool.false_eq_true, if_false, h]

theorem step_failed (w : World) (call : StoreCall) (err : GoError) :
    openSystem.step w (.store .background call) (.error err) w := ⟨{ fault := some err }, rfl⟩

theorem getContainerByName_found (hunique : w.store.UniqueIDs) {row : ContainerRecord}
    (hrow : Table.lookup ContainerRecord.name name w.store.containers = some row) :
    ∃ trace, openSystem.Runs (Monitor.getContainerByName .background name) w trace (.ok row) w := by
  have hid : w.store.perform w.clock (.containerIDByName name) = .ok (row.id, w.store) := by
    simp only [Store.perform, hrow]
  have hrec : w.store.perform w.clock (.getContainer row.id) = .ok (row, w.store) := by
    have hfetched : w.store.getContainer row.id = some row :=
      Table.lookup_of_mem hunique (Table.lookup_mem hrow)
    simp only [Store.perform, hfetched]
  exact ⟨_, w, _, w, _, .refl, step_answered hid, rfl, w, _, w, [], .refl, step_answered hrec, rfl, rfl,
    rfl, rfl⟩

theorem resolveUpdateTarget_found {row : ContainerRecord} {target : String}
    (hmay : MayTarget w.store row target) :
    ∃ trace version,
      openSystem.Runs (resolveUpdateTarget .background row "major") w trace (target, version) w := by
  rcases hmay with rfl | ⟨candidate, hfound, rfl⟩
  · exact ⟨_, _, w, _, w, [], .refl, step_failed w (.getUpdateCandidate row.id "major") .notFound, rfl, rfl,
      rfl, rfl⟩
  · have hread : w.store.perform w.clock (.getUpdateCandidate row.id "major") =
        .ok (candidate, w.store) := by
      simp only [Store.perform, hfound]
    exact ⟨_, _, w, _, w, [], .refl, step_answered hread, rfl, rfl, rfl, rfl⟩

/-- A daemon that Docker does not answer takes no container for itself. -/
theorem isSelf_denied (updater : Updater.SelfUpdater) (w : World) (id : String) :
    ∃ trace, openSystem.Runs (Updater.isSelf updater .background id) w trace false w :=
  ⟨_, w, _, w, [], .refl, ⟨{ fault := some .notFound }, rfl⟩, rfl, rfl, rfl, rfl⟩

/-- Every target of the row is asked for by some single update. -/
theorem postYields_of (updater : Updater.SelfUpdater) (hunique : w.store.UniqueIDs)
    {row : ContainerRecord} {target : String}
    (hrow : Table.lookup ContainerRecord.name name w.store.containers = some row)
    (hmay : MayTarget w.store row target) (h : Yields opCtx actorID row target w result w') :
    ∃ ctx, PostYields updater ctx opCtx name actorID w ⟨opCtx, row.id, target, ⟨.user, actorID⟩⟩
      result w' := by
  obtain ⟨_, hfound⟩ := getContainerByName_found hunique hrow
  obtain ⟨_, version, htarget⟩ := resolveUpdateTarget_found hmay
  obtain ⟨_, hself⟩ := isSelf_denied updater w row.id
  obtain ⟨first, hfirst⟩ := looks_runs_of hfound
  obtain ⟨second, hsecond⟩ := looks_runs_of htarget
  obtain ⟨third, hthird⟩ := looks_runs_of hself
  obtain ⟨update, hupdate⟩ := h
  refine ⟨.background, first ++ (second ++ (third ++ (update ++ []))), ?_, ?_⟩
  · rw [handleUpdateContainer_eq]
    refine Machine.runs_bind.mpr ⟨first, .ok row, w, _, hfirst, ?_, rfl⟩
    refine Machine.runs_bind.mpr ⟨second, (target, version), w, _, hsecond, ?_, rfl⟩
    refine Machine.runs_bind.mpr ⟨third, false, w, _, hthird, ?_, rfl⟩
    exact Machine.runs_bind.mpr ⟨update, result, w', [], hupdate, ⟨rfl, rfl, rfl⟩, rfl⟩
  · rw [asked_append, asked_append, asked_append, asked_append, asked_updateAlone hupdate]
    simp

/-- An update can be carried out from every world. -/
theorem exists_yields (ctx : Context) (actorID : String) (rec : ContainerRecord) (target : String)
    (w : World) : ∃ result w', Yields ctx actorID rec target w result w' :=
  ⟨_, _, _, Daemon.play_runs (updateAlone ctx actorID rec target) w fun _ _ => .undisturbed⟩

/-- The single update agrees with a turn of update-all just when the stored candidate, if any,
names the image of the row. -/
theorem agreesWithPost_iff (hunique : w.store.UniqueIDs) {rec : ContainerRecord} :
    AgreesWithPost actorID rec w ↔ SameTarget w.store rec := by
  constructor
  · intro h
    obtain ⟨result, w', hturn⟩ := exists_yields .background actorID rec rec.currentImage w
    obtain ⟨ctx, hpost⟩ := (h {} .background _ result w').mpr ⟨rfl, hturn⟩
    obtain ⟨row, _, hrow, -, hreq, -⟩ := postYields_asks hunique hpost
    have hid : row.id = rec.id := (congrArg Updater.UpdateRequest.containerID hreq).symm
    have htarget : ∀ target, MayTarget w.store row target → target = rec.currentImage := by
      intro target hmay
      obtain ⟨result, w', hyields⟩ := exists_yields .background actorID row target w
      have hpost := postYields_of {} hunique hrow hmay hyields
      exact congrArg Updater.UpdateRequest.targetImage ((h {} .background _ result w').mp hpost).1
    refine ⟨⟨row, hrow, hid, htarget _ (.inl rfl)⟩, fun candidate hcandidate => ?_⟩
    exact htarget _ (.inr ⟨candidate, hid ▸ hcandidate, rfl⟩)
  · rintro ⟨⟨row, hrow, hid, himage⟩, hcandidate⟩ updater opCtx req result w'
    have hname : row.name = rec.name := Table.lookup_key hrow
    have hsame : ∀ target, updateAlone opCtx actorID row target =
        updateAlone opCtx actorID rec target := by
      intro target
      unfold updateAlone concludeUpdate
      rw [hid, hname]
    constructor
    · rintro ⟨ctx, hpost⟩
      obtain ⟨found, target, hfound, hmay, hreq, hyields⟩ := postYields_asks hunique hpost
      obtain rfl := Option.some.inj (hrow.symm.trans hfound)
      have htarget : target = rec.currentImage := by
        rcases hmay with htarget | ⟨candidate, hstored, htarget⟩
        · exact htarget.trans himage
        · exact htarget.trans (hcandidate candidate (hid ▸ hstored))
      subst htarget
      refine ⟨hreq.trans (by rw [hid]; rfl), ?_⟩
      unfold Yields at hyields ⊢
      rwa [← hsame]
    · rintro ⟨rfl, hyields⟩
      unfold Yields at hyields
      rw [← hsame] at hyields
      have hpost := postYields_of updater hunique hrow (.inl himage.symm) hyields
      rw [hid] at hpost
      exact hpost

/-! ### Every turn of update-all -/

theorem runs_uniqueIDs {α : Type} {p : Daemon α} {trace : Trace Services World} {a : α}
    (h : (openSystem.layered Service.run).Runs p w trace a w') (hunique : w.store.UniqueIDs) :
    w'.store.UniqueIDs := by
  obtain ⟨inner, hinner⟩ := Machine.runs_expand.mpr ⟨trace, h⟩
  refine Machine.path_invariant (I := fun w => w.store.UniqueIDs) (P := fun _ => True) ?_ ?_
    (Machine.runs_path hinner) (fun _ _ => trivial) hunique
  · intro w w' hw hrely
    rw [hrely.frame.store]
    exact hw
  · exact fun _ _ _ _ _ hw hstep => step_uniqueIDs hstep hw

theorem turns_agree {targets : List ContainerRecord} {turns : List BulkTurn}
    (h : TakesTurns ctx actorID targets w turns w') (hunique : w.store.UniqueIDs) :
    ∀ turn ∈ turns, AgreesWithPost actorID turn.container turn.met ↔
      SameTarget turn.met.store turn.container := by
  induction targets generalizing w turns with
  | nil =>
    obtain ⟨rfl, -⟩ := h
    simp
  | cons rec rest ih =>
    obtain ⟨result, left, later, ⟨trace, hturn⟩, rfl, hlater⟩ := h
    refine List.forall_mem_cons.mpr ⟨agreesWithPost_iff hunique, ?_⟩
    cases result with
    | none =>
      obtain ⟨rfl, -⟩ := hlater
      simp
    | some err => exact ih hlater (runs_uniqueIDs hturn hunique)

theorem excludeSelf_looks (updater : Updater.SelfUpdater) (ctx : Context)
    (targets : List ContainerRecord) : (excludeSelf updater ctx targets).Uses Looks := by
  induction targets with
  | nil => trivial
  | cons c rest ih =>
    refine Program.uses_bind (isSelf_looks updater ctx c.id) fun self => ?_
    exact Program.uses_bind ih fun others => trivial

theorem excludeSelf_sublist {targets kept : List ContainerRecord} {trace : Trace Calls World}
    (h : openSystem.Runs (excludeSelf updater ctx targets) w trace kept w') : kept.Sublist targets := by
  induction targets generalizing w w' trace kept with
  | nil =>
    obtain ⟨-, rfl, -⟩ := h
    exact .slnil
  | cons c rest ih =>
    obtain ⟨_, self, _, _, -, hrest, -⟩ := Machine.runs_bind.mp h
    obtain ⟨_, others, _, _, hothers, ⟨-, hkept, -⟩, -⟩ := Machine.runs_bind.mp hrest
    have hsublist := ih hothers
    rw [hkept]
    split
    · exact hsublist.cons c
    · exact hsublist.cons_cons c

theorem listContainers_found {trace : Trace Calls World} {found : Except GoError (List ContainerRecord)}
    (h : openSystem.Runs (Go.store ctx .listContainers) w trace found w') :
    ∀ records, found = .ok records → records = w.store.listContainers := by
  rintro records rfl
  obtain ⟨w₀, reply, w₁, rest, hdrift, hstep, -, -, hreply, -⟩ := h
  obtain rfl := hreply
  rcases step_store hstep with ⟨err, herr, -⟩ | ⟨result, store, -, hperform, hok, -⟩
  · cases herr
  · obtain rfl := Except.ok.inj hok
    rw [← hdrift.frame.store]
    exact (Prod.mk.inj (Except.ok.inj hperform)).1.symm

theorem emit_runs {event : LogEvent} {trace : Trace Services World} {reply : Unit}
    (h : (openSystem.layered Service.run).Runs (Daemon.ofGo (emit event)) w trace reply w') :
    World.Drifts (fun _ _ => True) w w' ∧ asked trace = [] := by
  obtain ⟨inner, hinner⟩ := Machine.runs_expand.mpr ⟨trace, h⟩
  rw [Daemon.expand_ofGo] at hinner
  have huses : (emit event).Uses fun call => call = Call.emit event := ⟨rfl, fun _ => trivial⟩
  refine ⟨drifts_of_uses ?_ huses hinner, asked_ofGo h⟩
  rintro w w' call reply rfl hstep
  exact step_emit hstep

/-- What follows the turns of update-all asks for no update. -/
theorem runBulkUpdate_turns {targets : List ContainerRecord} {trace : Trace Services World}
    {out : Option Unit}
    (h : (openSystem.layered Service.run).Runs (runBulkUpdate ctx targets actorID) w trace out w') :
    ∃ turns left, TakesTurns ctx actorID targets w turns left ∧
      World.Drifts (fun _ _ => True) left w' ∧
      asked trace = turns.map fun turn => bulkUpdateRequest ctx actorID turn.container := by
  obtain ⟨first, counts, left, rest, hfirst, hrest, rfl⟩ := Machine.runs_bind.mp h
  obtain ⟨turns, hturns, hasked⟩ := bulkUpdates_turns hfirst
  refine ⟨turns, left, hturns, ?_⟩
  rw [asked_append, hasked]
  cases counts with
  | none =>
    obtain ⟨rfl, -, rfl⟩ := hrest
    exact ⟨.refl, List.append_nil _⟩
  | some counts =>
    obtain ⟨second, _, w₁, last, hsecond, ⟨rfl, -, rfl⟩, rfl⟩ := Machine.runs_bind.mp hrest
    obtain ⟨hdrift, hquiet⟩ := emit_runs hsecond
    refine ⟨hdrift, ?_⟩
    rw [asked_append, hquiet]
    exact List.append_nil _

/-- Update-all gives a turn to the containers it selected, its own aside. -/
theorem updateAll_turns {stack : String} {trace : Trace Services World} {answer : Option Answer}
    (hrun : (openSystem.layered Service.run).Runs
      (handleUpdateAllContainers updater ctx opCtx stack actorID) w trace answer w') :
    ∃ kept met turns left,
      kept.Sublist (selectBulkUpdateTargets w.store.listContainers stack) ∧
      (∀ count, answer = some (.queued count) → count = kept.length) ∧
      World.Drifts (fun _ _ => True) w met ∧ TakesTurns opCtx actorID kept met turns left ∧
      World.Drifts (fun _ _ => True) left w' ∧
      asked trace = turns.map fun turn => bulkUpdateRequest opCtx actorID turn.container := by
  obtain ⟨first, found, w₁, rest, hfound, hselect, rfl⟩ := Machine.runs_bind.mp hrun
  have hlists : (Go.store ctx .listContainers).Uses Looks := ⟨trivial, fun _ => trivial⟩
  obtain ⟨hdrift₁, hquiet₁, inner, hinner⟩ := looks_runs hlists hfound
  cases found with
  | error err =>
    obtain ⟨rfl, rfl, rfl⟩ := hselect
    refine ⟨[], w', [], w', List.nil_sublist _, (fun count h => by cases h), hdrift₁, ⟨rfl, rfl⟩, .refl,
      ?_⟩
    rw [asked_append, hquiet₁]
    rfl
  | ok records =>
    obtain rfl := listContainers_found hinner records rfl
    obtain ⟨second, kept, w₂, rest, hkept, hqueue, rfl⟩ := Machine.runs_bind.mp hselect
    obtain ⟨hdrift₂, hquiet₂, inner, hinner⟩ := looks_runs (excludeSelf_looks updater ctx _) hkept
    have hsublist := excludeSelf_sublist hinner
    by_cases hempty : kept = []
    · subst hempty
      obtain ⟨rfl, rfl, rfl⟩ := hqueue
      refine ⟨[], w', [], w', hsublist, (fun count h => by cases h; rfl), hdrift₁.trans hdrift₂,
        ⟨rfl, rfl⟩, .refl, ?_⟩
      rw [asked_append, asked_append, hquiet₁, hquiet₂]
      rfl
    · rw [if_neg hempty] at hqueue
      obtain ⟨third, _, w₃, rest, hthird, hloop, rfl⟩ := Machine.runs_bind.mp hqueue
      obtain ⟨hdrift₃, hquiet₃⟩ := emit_runs hthird
      obtain ⟨bulk, out, w₄, last, hbulk, hanswer, rfl⟩ := Machine.runs_bind.mp hloop
      obtain ⟨turns, left, hturns, hleft, hasked⟩ := runBulkUpdate_turns hbulk
      have hlast : last = [] ∧ w' = w₄ ∧ ∀ count, answer = some (.queued count) → count = kept.length := by
        cases out with
        | none =>
          obtain ⟨rfl, rfl, rfl⟩ := hanswer
          exact ⟨rfl, rfl, fun count h => by cases h⟩
        | some _ =>
          obtain ⟨rfl, rfl, rfl⟩ := hanswer
          exact ⟨rfl, rfl, fun count h => (Answer.queued.inj (Option.some.inj h)).symm⟩
      obtain ⟨rfl, rfl, hcount⟩ := hlast
      refine ⟨kept, w₃, turns, left, hsublist, hcount, (hdrift₁.trans hdrift₂).trans hdrift₃, hturns, hleft,
        ?_⟩
      rw [asked_append, asked_append, asked_append, asked_append, hquiet₁, hquiet₂, hquiet₃, hasked]
      simp [asked]

def pendingRow : ContainerRecord := { webRecord with updateAvailable := true }

/-- The check found `web:2` for a container that runs `web:1`. -/
def pendingWorld : World :=
  { webWorld with
    store :=
      { containers := [pendingRow]
        candidates := [⟨"c0", "major", "web:2", "2", 0⟩] } }

def bulkRun : Trace Services World × Option Answer × World :=
  (handleUpdateAllContainers {} .background .background "" "user").play pendingWorld
    fun _ _ => .creating "c1"

def postRun : Trace Services World × Option Answer × World :=
  (handleUpdateContainer {} .background .background "web" "" "user").play pendingWorld
    fun _ _ => .creating "c1"

end Doupro.Api
