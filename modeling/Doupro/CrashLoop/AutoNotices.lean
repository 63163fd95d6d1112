import Doupro.CrashLoop.Monitor
import Doupro.Updater.FailureNotices

/-!
# Who hears of an automatic rollback

The rollback a triggered watch starts can end in many ways. Its channels hear of it if it got past
the removal of the container; a rollback that ends before is silent.
-/

namespace Doupro

open Interaction Notifier

/-- An inspect response with all the parts the code dereferences. -/
def InspectResponse.Whole (info : InspectResponse) : Prop :=
  info.state.isSome ∧ ∀ networks, info.networkSettings = some networks → ∀ entry ∈ networks,
    entry.2.isSome

/-- Docker answers an inspect in full. -/
def AnswersInFull (e : Event Calls World) : Prop := ∀ info, inspectedBy e = some info → info.Whole

namespace Updater

open Go

/-- Docker's answers are taken for granted to be in full. -/
def wholesome : Contract Calls World Unit where
  allowed _ _ := True
  expects _ e := AnswersInFull e
  next _ _ := ()

variable {M : Machine Calls World} {ctx : Context}

theorem validateNetworks_whole {actual : Endpoints} (h : ∀ entry ∈ actual, entry.2.isSome)
    (expected : Endpoints) : validateNetworks actual expected ≠ some .nilDereference := by
  induction expected with
  | nil => simp [validateNetworks]
  | cons entry rest ih =>
    obtain ⟨name, expected⟩ := entry
    unfold validateNetworks
    split
    · simp
    · next got hgot =>
      have hwhole := h (name, got) (Table.mem_of_lookup hgot)
      cases expected with
      | none => exact ih
      | some expected =>
        obtain ⟨got, rfl⟩ := Option.isSome_iff_exists.mp hwhole
        dsimp only
        unfold validateEndpoint
        split
        · simp
        · split
          · simp
          · simpa using ih

theorem validateRecreation_whole (plan : RecreationPlan) {actual : InspectResponse} (h : actual.Whole) :
    validateRecreation plan actual ≠ some .nilDereference := by
  have hsubset : ∀ expected got path, jsonSubset expected got path ≠ some .nilDereference := by
    intro expected got path
    unfold jsonSubset
    cases Json.compareSubset expected got path <;> simp
  unfold validateRecreation
  split
  · dsimp only
    rw [Ne, Option.or_eq_some_iff, Option.or_eq_some_iff]
    rintro ((hconfig | ⟨-, hhost⟩) | ⟨-, hnet⟩)
    · exact hsubset _ _ _ hconfig
    · exact hsubset _ _ _ hhost
    · split at hnet
      · cases hnet
      · split at hnet
        · simp at hnet
        · next networks hnetworks => exact validateNetworks_whole (h.2 networks hnetworks) _ hnet
  · simp

theorem wrap_ne (context : String) (cause : GoError) :
    some (GoError.wrap context cause) ≠ some .nilDereference := by
  simp

theorem startRecreated_wholesome (result : RecreationResult) :
    M.obeys wholesome (startRecreated ctx result) () fun _ r => r.2 ≠ some .nilDereference := by
  refine ⟨trivial, fun w reply w' _ _ => ?_⟩
  cases reply with
  | error err => exact wrap_ne _ _
  | ok _ =>
    change M.obeys wholesome (Client.waitHealthy ctx _ _ _ >>= _) () _
    refine Machine.obeys_bind.mpr (Machine.obeys_mono (Machine.obeys_of_uses (P := fun _ => True)
      (fun _ _ _ => trivial) (fun _ _ _ => rfl) (Program.uses_of_forall (fun _ => trivial) _) ()) ?_)
    intro _ verdict _
    cases verdict with
    | some err => exact wrap_ne _ _
    | none =>
      refine ⟨trivial, fun w reply w' _ hfull => ?_⟩
      cases reply with
      | error err => exact wrap_ne _ _
      | ok created =>
        obtain ⟨state, hstate⟩ := Option.isSome_iff_exists.mp (hfull created rfl).1
        dsimp only [Program.bind]
        rw [hstate]
        exact Option.some_ne_none _ ∘ Eq.symm

theorem createReplacement_wholesome (plan : RecreationPlan) (result : RecreationResult) :
    M.obeys wholesome (createReplacement ctx plan result) () fun _ r => r.2 ≠ some .nilDereference := by
  refine ⟨trivial, fun w reply w' _ _ => ?_⟩
  cases reply with
  | error err => exact wrap_ne _ _
  | ok newID =>
    refine ⟨trivial, fun w reply w' _ hfull => ?_⟩
    cases reply with
    | error err => exact wrap_ne _ _
    | ok created =>
      have hvalid := validateRecreation_whole plan (hfull created rfl)
      dsimp only [Program.bind]
      split
      · next hnil => exact absurd hnil hvalid
      · exact wrap_ne _ _
      · split
        · exact startRecreated_wholesome _
        · exact Option.some_ne_none _ ∘ Eq.symm

theorem recreate_wholesome (oldID : String) (before : InspectResponse) (targetImage : String) :
    M.obeys wholesome (recreate ctx oldID before targetImage) () fun _ r =>
      r.2 ≠ some .nilDereference := by
  have hremove : ∀ plan, M.obeys wholesome (removeOriginal ctx oldID plan) () fun _ r =>
      r.2 ≠ some .nilDereference := by
    intro plan
    refine ⟨trivial, fun w reply w' _ _ => ?_⟩
    cases reply with
    | error err => exact wrap_ne _ _
    | ok _ => exact createReplacement_wholesome plan _
  have hreplace : ∀ plan, M.obeys wholesome (replaceOriginal ctx oldID plan) () fun _ r =>
      r.2 ≠ some .nilDereference := by
    intro plan
    unfold replaceOriginal
    split
    · exact createReplacement_wholesome plan _
    split
    · refine ⟨trivial, fun w reply w' _ _ => ?_⟩
      cases reply with
      | error err => exact wrap_ne _ _
      | ok _ => exact hremove plan
    · exact hremove plan
  unfold recreate
  split
  · next err hplan =>
    simp only [Machine.obeys_pure, ne_eq, Option.some.injEq]
    rintro rfl
    unfold buildRecreationPlan at hplan
    split at hplan
    · split at hplan <;> cases hplan
    · cases hplan
  · split
    · exact hreplace _
    · refine ⟨trivial, fun w reply w' _ _ => ?_⟩
      cases reply with
      | error err => exact wrap_ne _ _
      | ok _ => exact hreplace _

theorem revert_wholesome (op : FailedOperation) (liveID : String) :
    M.obeys wholesome (revert ctx op liveID) () fun _ out => out ≠ some .nilDereference := by
  refine Machine.obeys_bind.mpr (Machine.obeys_mono (recreate_wholesome _ _ _) ?_)
  rintro _ ⟨result, revertErr⟩ hrecreated
  cases revertErr with
  | some err =>
    dsimp only
    rw [if_neg fun herr => hrecreated (congrArg some herr)]
    exact ⟨trivial, fun _ _ _ _ _ => ⟨trivial, fun _ _ _ _ _ => fun h => by cases h⟩⟩
  | none =>
    refine ⟨trivial, fun w known w' _ _ => ⟨trivial, fun w replaced w' _ _ => ?_⟩⟩
    cases replaced with
    | error err => exact wrap_ne _ _
    | ok _ => exact ⟨trivial, fun _ _ _ _ _ => fun h => by cases h⟩

theorem recover_wholesome (op : FailedOperation) (result : RecreationResult) :
    M.obeys wholesome (recover ctx op result) () fun _ out => out ≠ some .nilDereference := by
  unfold recover failBeforeRemoval
  split
  · split
    · refine ⟨trivial, fun w reply w' _ _ => ?_⟩
      cases reply with
      | error err => exact ⟨trivial, fun _ _ _ _ _ => fun h => by cases h⟩
      | ok _ => exact fun h => by cases h
    · exact fun h => by cases h
  · exact revert_wholesome op _

theorem commitRollback_wholesome (req : RollbackRequest) (rec : ContainerRecord)
    (before : InspectResponse) (result : RecreationResult) :
    M.obeys wholesome (commitRollback req rec before result) () fun _ out =>
      out ≠ some .nilDereference := by
  refine ⟨trivial, fun w committed w' _ _ => ?_⟩
  cases committed with
  | error err => exact ⟨trivial, fun _ _ _ _ _ => revert_wholesome _ _⟩
  | ok _ =>
    refine ⟨trivial, fun w marked w' _ _ => ?_⟩
    cases marked with
    | error err => exact ⟨trivial, fun _ _ _ _ _ => ⟨trivial, fun _ _ _ _ _ => ⟨trivial,
        fun _ _ _ _ _ => fun h => by cases h⟩⟩⟩
    | ok _ => exact ⟨trivial, fun _ _ _ _ _ => ⟨trivial, fun _ _ _ _ _ => fun h => by cases h⟩⟩

variable {allows : World → EnvEvent → Prop}

theorem settledBefore_wholesome (req : RollbackRequest) (before : InspectResponse) :
    (system allows).obeys wholesome (settledBefore req before) () fun _ settled =>
      settled ≠ .error .nilDereference := by
  have hawait : ∀ deadline turns before,
      (system allows).obeys wholesome (awaitSettled req.ctx req.containerID deadline turns before) ()
        fun _ settled => settled ≠ .error .nilDereference := by
    intro deadline turns before
    induction turns generalizing before with
    | zero => exact fun h => by cases h
    | succ turns ih =>
      unfold awaitSettled
      split
      · exact fun h => by cases h
      refine ⟨trivial, fun w now w' _ _ => ?_⟩
      change (system allows).obeys wholesome (if deadline ≤ now then _ else _) () _
      split
      · exact fun h => by cases h
      refine ⟨trivial, fun w now w' _ _ => ⟨trivial, fun w slept w' hslept _ => ?_⟩⟩
      cases slept with
      | some err =>
        rcases step_sleepUntil hslept with ⟨herr, -, -⟩ | ⟨hnone, -⟩
        · cases herr
          exact fun h => by cases h
        · cases hnone
      | none =>
        refine ⟨trivial, fun w reply w' _ _ => ?_⟩
        cases reply with
        | error err => exact fun h => by cases h
        | ok later => exact ih later
  unfold settledBefore
  split
  · exact ⟨trivial, fun _ _ _ _ _ => hawait _ _ _⟩
  · exact fun h => by cases h

/-- As long as Docker answers in full a rollback does not panic. -/
theorem rollback_wholesome (req : RollbackRequest) :
    (system allows).obeys wholesome (rollback req) () fun _ out => out ≠ some .nilDereference := by
  have hinspected : ∀ rec before, (system allows).obeys wholesome (rollbackInspected req rec before) ()
      fun _ out => out ≠ some .nilDereference := by
    intro rec before
    refine ⟨trivial, fun _ _ _ _ _ => ?_⟩
    change (system allows).obeys wholesome (recreate req.ctx req.containerID before rec.previousImage >>= _)
      () _
    refine Machine.obeys_bind.mpr (Machine.obeys_mono (recreate_wholesome _ _ _) ?_)
    rintro _ ⟨result, err⟩ hrecreated
    cases err with
    | none => exact commitRollback_wholesome _ _ _ _
    | some err =>
      cases err with
      | nilDereference => exact absurd rfl hrecreated
      | _ => exact ⟨trivial, fun _ _ _ _ _ => recover_wholesome _ _⟩
  have hguarded : ∀ rec, (system allows).obeys wholesome (rollbackGuarded req rec) ()
      fun _ out => out ≠ some .nilDereference := by
    intro rec
    refine ⟨trivial, fun w reply w' _ _ => ?_⟩
    cases reply with
    | error err => exact wrap_ne _ _
    | ok before =>
      change (system allows).obeys wholesome (settledBefore req before >>= _) () _
      refine Machine.obeys_bind.mpr (Machine.obeys_mono (settledBefore_wholesome req before) ?_)
      intro _ settled hsettled
      cases settled with
      | error err => exact fun h => hsettled (congrArg Except.error (Option.some.inj h))
      | ok before => exact hinspected rec before
  refine ⟨trivial, fun w reply w' _ _ => ?_⟩
  cases reply with
  | error err => exact wrap_ne _ _
  | ok rec =>
    change (system allows).obeys wholesome (if rec.previousImage = "" then _ else _) () _
    split
    · exact fun h => by cases h
    refine ⟨trivial, fun w current w' _ _ => ?_⟩
    cases current with
    | some current =>
      refine ⟨trivial, fun w _ w' _ _ => ?_⟩
      change (system allows).obeys wholesome ((if current.kind = "self-update" then _ else _) >>= _) () _
      split <;> exact fun h => by cases h
    | none =>
      change (system allows).obeys wholesome (rollbackGuarded req rec >>= _) () _
      refine Machine.obeys_bind.mpr (Machine.obeys_mono (hguarded rec) ?_)
      exact fun _ out hout => ⟨trivial, fun _ _ _ _ _ => hout⟩

end Updater

namespace Monitor

open Updater

variable {allows : World → EnvEvent → Prop} {w w' : World}

/-- Two courses that differ in log entries only. -/
structure SaysTheSame (k k' : Course) : Prop where
  before : k'.before = k.before
  replacing : k'.replacing = k.replacing
  unrecorded : k'.unrecorded = k.unrecorded
  notices : k'.notices = k.notices

theorem concludeRollback_conducts (watch : RollbackWatch) (out : Option GoError) (k : Course) :
    (system allows).obeys (conduct.prod wholesome) (concludeRollback watch out) (k, ())
      fun ks _ => SaysTheSame k ks.1 := by
  have hsame : SaysTheSame k k := ⟨rfl, rfl, rfl, rfl⟩
  unfold concludeRollback
  split
  · exact hsame
  · exact hsame
  · split
    · exact hsame
    · exact ⟨⟨fun hstarts => hstarts.elim, trivial⟩, fun _ _ _ _ _ =>
        ⟨⟨fun hstarts => hstarts.elim, trivial⟩, fun _ _ _ _ _ => ⟨rfl, rfl, rfl, rfl⟩⟩⟩

/-- The monitor adds log entries to what its rollback says. -/
theorem rollback_conducts (watch : RollbackWatch) :
    (system allows).obeys (conduct.prod wholesome) (rollback watch) ({}, ()) fun ks _ => ∃ k out,
      Ends "rollback.auto" "rollback.auto.succeeded" k out ∧ out ≠ some .nilDereference ∧
        SaysTheSame k ks.1 := by
  have hlost : ∀ err : GoError, (system allows).obeys (conduct.prod wholesome)
      (concludeRollback watch (some err)) ({}, ()) fun ks _ => ∃ k out,
        Ends "rollback.auto" "rollback.auto.succeeded" k out ∧ out ≠ some .nilDereference ∧
          SaysTheSame k ks.1 := fun err =>
    Machine.obeys_mono (concludeRollback_conducts watch (some err) {}) fun ks _ hsame =>
      ⟨{}, some .notFound, ⟨by simp, rfl, rfl⟩, by simp, hsame⟩
  refine ⟨⟨fun hstarts => hstarts.elim, trivial⟩, fun w id w' _ _ => ?_⟩
  cases id with
  | error err => exact hlost err
  | ok id =>
    refine ⟨⟨fun hstarts => hstarts.elim, trivial⟩, fun w found w' _ _ => ?_⟩
    cases found with
    | error err => exact hlost err
    | ok rec =>
      change (system allows).obeys (conduct.prod wholesome) (Updater.rollback (rollbackRequest rec.id) >>= _)
        ({}, ()) _
      refine Machine.obeys_bind.mpr (Machine.obeys_mono (Machine.obeys_prod
        (Updater.rollback_conducts (rollbackRequest rec.id))
        (Updater.rollback_wholesome (rollbackRequest rec.id))) ?_)
      rintro ⟨k, _⟩ out ⟨hends, hreturned⟩
      exact Machine.obeys_mono (concludeRollback_conducts watch out k) fun ks _ hsame =>
        ⟨k, out, hends, hreturned, hsame⟩

/-- Every run of the rollback of a triggered watch. As long as Docker answers in full, every channel
with the container in its scope gets a job exactly when the container was replaced and the row of
what the rollback left was recorded. -/
theorem automatic_rollback_announced {watch : RollbackWatch} {trace : Trace Calls World} {out : Unit}
    (hrun : (system allows).Runs (rollback watch) w trace out w') (hfull : ∀ e ∈ trace, AnswersInFull e)
    {name stack : String} (hcontainer : ∀ before, snapshotOf trace = some before →
      name = trimSlash before.name ∧ stack = stackOf before) (channels : List Channel) :
    (∀ ch ∈ channels, ch.inScope name stack = true → ∃ job ∈ enqueued channels trace,
      job.channel = ch.name ∧ job.channelURL = ch.url ∧ categorize job.event = .rollbackAuto) ↔
    (course trace).Replaced ∨ ∀ ch ∈ channels, ch.inScope name stack = false := by
  obtain ⟨k, result, hends, hreturned, hsame⟩ := (Machine.obeys_runs (rollback_conducts watch) hrun
    (Contract.expected_of_forall (C := conduct.prod wholesome) (fun e he _ => ⟨trivial, hfull e he⟩) _))
  rw [Contract.learned_prod] at hsame
  change SaysTheSame k (course trace) at hsame
  have hsaid : if (course trace).Replaced then ∃ notice : Notification, (categorize notice.eventType =
      .rollbackAuto ∧ notice.target = name ∧ notice.stack = stack) ∧ (course trace).notices = [notice]
      else (course trace).notices = [] := by
    have hreplaced : (course trace).Replaced = k.Replaced := by
      unfold Course.Replaced
      rw [hsame.replacing, hsame.unrecorded]
    simp only [hreplaced, hsame.notices]
    unfold Ends at hends
    rw [← hsame.before, course_before] at hends
    cases hbefore : snapshotOf trace with
    | none =>
      rw [hbefore] at hends
      obtain ⟨-, hreplacing, hnotices⟩ := hends
      rw [if_neg (by simp [hreplacing])]
      exact hnotices
    | some before =>
      rw [hbefore] at hends
      obtain ⟨rfl, rfl⟩ := hcontainer before hbefore
      cases result with
      | none =>
        obtain ⟨hreplaced, message, hnotices⟩ := hends
        rw [if_pos hreplaced]
        have hsucceeded : categorize "rollback.auto.succeeded" = .rollbackAuto := by decide
        exact ⟨_, ⟨hsucceeded, rfl, rfl⟩, hnotices⟩
      | some err =>
        exact Announces.failure hends (fun herr => hreturned (congrArg some herr)) (by decide) (by decide)
  have hreceives : ∀ ch : Channel, ch.receives .rollbackAuto = true := by
    intro ch
    simp [Channel.receives]
  have htold : Told channels _ _ _ (List.flatMap (jobsOf channels) _) ↔ _ := told_iff hsaid
  unfold Told Unwanted at htold
  simp only [hreceives, forall_const] at htold
  exact htold

/-! ### A stop that fails -/

/-- Docker does not stop the container. -/
def stopFails : Nat → Turn :=
  script [(7, { choice := { fault := some (.external "cannot stop container") } })]

def stuckRollback : Played Unit := (rollback triggeredWatch).play triggeredWorld stopFails

/-- The rollback fails before the container is removed, the watch ends as failed, and nobody is told. -/
theorem stuck_rollback_silent :
    openSystem.Runs (rollback triggeredWatch) triggeredWorld stuckRollback.trace stuckRollback.value
      stuckRollback.world ∧
    (∀ e ∈ stuckRollback.trace, ¬ StoreFailed e) ∧
    (stuckRollback.world.store.getRollbackWatch "web").map RollbackWatch.status = some .rollbackFailed ∧
    everything.inScope "web" "" = true ∧ enqueued [everything] stuckRollback.trace = [] :=
  ⟨Go.play_runs _ _ _, by decide +kernel, by decide +kernel, by decide, by decide +kernel⟩

instance (info : InspectResponse) : Decidable info.Whole :=
  match h : info.networkSettings with
  | none => decidable_of_iff (info.state.isSome) (by simp [InspectResponse.Whole, h])
  | some networks => decidable_of_iff (info.state.isSome ∧ ∀ entry ∈ networks, entry.2.isSome)
      (by simp [InspectResponse.Whole, h])

instance (e : Event Calls World) : Decidable (AnswersInFull e) :=
  match h : inspectedBy e with
  | none => decidable_of_iff True (by simp [AnswersInFull, h])
  | some info => decidable_of_iff info.Whole (by simp [AnswersInFull, h])

def quietRollback : Played Unit := (rollback triggeredWatch).play triggeredWorld
  (script [(9, .creating "c1")])

/-- The rollback that goes through is announced, whatever events the channel asks for. -/
theorem automatic_rollback_announced_web :
    ∃ job ∈ enqueued [{ everything with events := ["update.applied"] }] quietRollback.trace,
      job.channel = "ops" ∧ job.channelURL = "ntfy://ntfy.example.com/doupro" ∧
        categorize job.event = .rollbackAuto := by
  have hfound : (snapshotOf quietRollback.trace).map
      (fun before => (trimSlash before.name, stackOf before)) = some ("web", "") := by decide +kernel
  have hcontainer : ∀ before, snapshotOf quietRollback.trace = some before →
      "web" = trimSlash before.name ∧ "" = stackOf before := by
    intro before hbefore
    rw [hbefore] at hfound
    obtain ⟨hname, hstack⟩ := Prod.mk.inj (Option.some.inj hfound)
    exact ⟨hname.symm, hstack.symm⟩
  exact (automatic_rollback_announced (Go.play_runs (rollback triggeredWatch) triggeredWorld
    (script [(9, .creating "c1")])) (by decide +kernel) hcontainer _).mpr (.inl (by decide +kernel)) _
    (List.mem_singleton_self _) (by decide)

end Monitor
end Doupro
