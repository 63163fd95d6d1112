import Doupro.Api.Containers
import Doupro.Scheduler.ExcludedTargets

/-!
# Every run of the single update

A handler looks before it acts: it finds the row under the name, resolves the target and asks
whether the container is its own. What follows is one call of the updater.
-/

namespace Doupro.Api

open Go Interaction

/-- What `handleUpdateContainer` and `runBulkUpdate` do once they have a target. -/
def updateAlone (ctx : Context) (actorID : String) (rec : ContainerRecord) (target : String) :
    Daemon (Option (Option GoError)) := do
  match ← Daemon.update ⟨ctx, rec.id, target, ⟨.user, actorID⟩⟩ with
  | some .nilDereference => return none
  | some err => return some (some err)
  | none =>
    concludeUpdate ctx rec
    return some none

/-- The updates a goroutine asked for, in order. -/
def asked (trace : Trace Services World) : List Updater.UpdateRequest :=
  trace.filterMap fun e => match e.op with
    | .update req => some req
    | _ => none

@[simp] theorem asked_append (first rest : Trace Services World) :
    asked (first ++ rest) = asked first ++ asked rest := List.filterMap_append

variable {allows : World → EnvEvent → Prop} {ctx opCtx : Context} {actorID : String} {w w' : World}

theorem asked_ofGo {α : Type} {p : Go α} {trace : Trace Services World} {a : α}
    (h : ((system allows).layered Service.run).Runs (Daemon.ofGo p) w trace a w') : asked trace = [] := by
  have hcalls : (Daemon.ofGo p).Uses fun service : Service => ∃ call, service = .call call :=
    Daemon.uses_ofGo (Program.uses_of_forall (fun call => ⟨call, rfl⟩) p)
  apply List.filterMap_eq_nil_iff.mpr
  intro e he
  obtain ⟨call, hcall⟩ := Machine.runs_uses hcalls h e he
  rw [hcall]

/-- An update asks once. -/
theorem asked_updateAlone {rec : ContainerRecord} {target : String} {trace : Trace Services World}
    {result : Option (Option GoError)}
    (h : ((system allows).layered Service.run).Runs (updateAlone ctx actorID rec target) w trace result w') :
    asked trace = [⟨ctx, rec.id, target, ⟨.user, actorID⟩⟩] := by
  obtain ⟨w₀, err, w₁, rest, -, -, rfl, hrest⟩ := Machine.runs_request_bind.mp h
  suffices hquiet : asked rest = [] by
    change _ :: asked rest = _
    rw [hquiet]
  cases err with
  | none =>
    obtain ⟨first, _, w₂, last, hfirst, ⟨rfl, -, -⟩, rfl⟩ := Machine.runs_bind.mp hrest
    rw [asked_append, asked_ofGo hfirst]
    rfl
  | some err =>
    have hnone : rest = [] := by cases err <;> exact hrest.1
    rw [hnone]
    rfl

/-! ### Looking -/

/-- A call by which a handler looks before it acts. -/
def Looks : Call → Prop
  | .docker _ .list => True
  | call => Scheduler.Reads call

theorem looks_of_reads {call : Call} (h : Scheduler.Reads call) : Looks call := by
  unfold Looks
  split
  · trivial
  · exact h

theorem step_looks {call : Call} {reply : call.Reply} (hcall : Looks call)
    (h : (system allows).step w call reply w') : w' = w := by
  unfold Looks at hcall
  split at hcall
  · exact (step_list h).1
  · exact Scheduler.step_reads hcall h

theorem isSelf_looks (updater : Updater.SelfUpdater) (ctx : Context) (id : String) :
    (Updater.isSelf updater ctx id).Uses Looks := by
  refine ⟨trivial, fun items => ?_⟩
  cases items with
  | error err => trivial
  | ok items =>
    refine Program.uses_bind (Program.uses_pure _) fun self => ?_
    cases self <;> trivial

theorem resolveUpdateTarget_looks (ctx : Context) (rec : ContainerRecord) (scope : String) :
    (resolveUpdateTarget ctx rec scope).Uses Looks := by
  refine ⟨trivial, fun candidate => ?_⟩
  cases candidate <;> trivial

/-- A goroutine that looks before it acts. -/
theorem looks_runs {α : Type} {p : Go α} (hp : p.Uses Looks) {trace : Trace Services World} {a : α}
    (h : ((system allows).layered Service.run).Runs (Daemon.ofGo p) w trace a w') :
    World.Drifts allows w w' ∧ asked trace = [] ∧
      ∃ inner, (system allows).Runs p w inner a w' := by
  obtain ⟨inner, hinner⟩ := Machine.runs_expand.mpr ⟨trace, h⟩
  rw [Daemon.expand_ofGo] at hinner
  exact ⟨drifts_of_uses step_looks hp hinner, asked_ofGo h, inner, hinner⟩

/-- The row that a name leads to. -/
theorem getContainerByName_finds (hunique : w.store.UniqueIDs) {name : String}
    {trace : Trace Calls World} {found : Except GoError ContainerRecord}
    (h : (system allows).Runs (Monitor.getContainerByName ctx name) w trace found w') :
    ∀ row, found = .ok row → Table.lookup ContainerRecord.name name w.store.containers = some row := by
  rintro row rfl
  obtain ⟨w₀, id, w₁, rest, hdrift, hid, rfl, hrest⟩ := Machine.runs_request_bind.mp h
  rcases step_store hid with ⟨err, rfl, -⟩ | ⟨id, store, -, hperform, rfl, rfl⟩
  · cases hrest.2.1
  · simp only [Store.perform, hdrift.frame.store] at hperform
    cases hnamed : Table.lookup ContainerRecord.name name w.store.containers with
    | none =>
      rw [hnamed] at hperform
      cases hperform
    | some named =>
      rw [hnamed] at hperform
      obtain ⟨rfl, rfl⟩ := Prod.mk.inj (Except.ok.inj hperform)
      have hfetched : w.store.getContainer named.id = some named :=
        Table.lookup_of_mem hunique (Table.lookup_mem hnamed)
      obtain ⟨w₂, reply, w₃, last, hdrift', hfetch, rfl, -, hreply, -⟩ := hrest
      obtain rfl := hreply
      rcases step_store hfetch with ⟨err, herr, -⟩ | ⟨result, store, -, hperform, hok, -⟩
      · cases herr
      · simp only [Store.perform, hdrift'.frame.store, hfetched] at hperform
        obtain ⟨rfl, -⟩ := Prod.mk.inj (Except.ok.inj hperform)
        rw [Except.ok.inj hok]

/-- The targets the single update may have: the stored candidate's image, or that of the row where
there is none or it cannot be read. -/
def MayTarget (s : Store) (rec : ContainerRecord) (target : String) : Prop :=
  target = rec.currentImage ∨
    ∃ candidate, s.getUpdateCandidate rec.id "major" = some candidate ∧ target = candidate.image

theorem resolveUpdateTarget_finds {rec : ContainerRecord} {trace : Trace Calls World}
    {found : String × String}
    (h : (system allows).Runs (resolveUpdateTarget ctx rec "major") w trace found w') :
    MayTarget w.store rec found.1 := by
  obtain ⟨w₀, reply, w₁, rest, hdrift, hstep, rfl, hrest⟩ := Machine.runs_request_bind.mp h
  rcases step_store hstep with ⟨err, rfl, -⟩ | ⟨candidate, store, -, hperform, rfl, -⟩
  · obtain ⟨-, rfl, -⟩ := hrest
    exact .inl rfl
  · obtain ⟨-, rfl, -⟩ := hrest
    simp only [Store.perform, hdrift.frame.store] at hperform
    cases hfound : w.store.getUpdateCandidate rec.id "major" with
    | none =>
      rw [hfound] at hperform
      cases hperform
    | some row =>
      rw [hfound] at hperform
      obtain ⟨rfl, -⟩ := Prod.mk.inj (Except.ok.inj hperform)
      exact .inr ⟨_, hfound, rfl⟩

/-- `handleUpdateContainer` from its target on. -/
def updateChosen (updater : Updater.SelfUpdater) (ctx opCtx : Context) (actorID : String)
    (rec : ContainerRecord) (target : String × String) : Daemon (Option Answer) := do
  if ← Updater.isSelf updater ctx rec.id then
    return some (.selfUpdate (← Daemon.startSelfUpdate updater ctx rec.id target.1 actorID))
  return (← updateAlone opCtx actorID rec target.1).map .action

/-- `handleUpdateContainer` at the default scope. -/
def updateByName (updater : Updater.SelfUpdater) (ctx opCtx : Context) (name actorID : String) :
    Daemon (Option Answer) := do
  match ← Monitor.getContainerByName ctx name with
  | .error err => return some (lookupRefused err)
  | .ok rec => updateChosen updater ctx opCtx actorID rec (← resolveUpdateTarget ctx rec "major")

theorem handleUpdateContainer_eq (updater : Updater.SelfUpdater) (ctx opCtx : Context)
    (name actorID : String) :
    handleUpdateContainer updater ctx opCtx name "" actorID =
      updateByName updater ctx opCtx name actorID := by
  change Daemon.ofGo _ >>= _ = Daemon.ofGo _ >>= _
  congr 1
  funext found
  cases found with
  | error err => rfl
  | ok rec =>
    change Daemon.ofGo _ >>= _ = Daemon.ofGo _ >>= _
    congr 1
    funext target
    change Daemon.ofGo _ >>= _ = Daemon.ofGo _ >>= _
    congr 1
    funext self
    cases self with
    | true => rfl
    | false =>
      change (Daemon.update _ >>= _) = (Daemon.update _ >>= _) >>= fun _ => _
      rw [Program.bind_assoc_eq]
      congr 1
      funext err
      cases err with
      | none =>
        change (Daemon.ofGo (concludeUpdate opCtx rec) >>= fun _ => _) =
          (Daemon.ofGo (concludeUpdate opCtx rec) >>= fun _ => pure (some none)) >>= _
        rw [Program.bind_assoc_eq]
        rfl
      | some err => cases err <;> rfl

/-- The read of a candidate that is stored failed. -/
def CandidateUnread : Event Services World → Prop
  | ⟨w, .call (.store _ (.getUpdateCandidate id scope)), .error _⟩ =>
    (w.store.getUpdateCandidate id scope).isSome
  | _ => False

instance : DecidablePred CandidateUnread := fun e => by
  unfold CandidateUnread
  split <;> infer_instance

/-- A candidate that is stored and read is the target. -/
theorem resolveUpdateTarget_read {rec : ContainerRecord} {trace : Trace Services World}
    {found : String × String}
    (h : ((system allows).layered Service.run).Runs
      (Daemon.ofGo (resolveUpdateTarget ctx rec "major")) w trace found w')
    (hread : ∀ e ∈ trace, ¬ CandidateUnread e) (candidate : UpdateCandidate)
    (hstored : w.store.getUpdateCandidate rec.id "major" = some candidate) :
    found.1 = candidate.image := by
  obtain ⟨w₀, reply, w₁, rest, hmet, hstep, rfl, hrest⟩ := Machine.runs_request_bind.mp h
  obtain rfl : w₀ = w := hmet
  cases reply with
  | error err =>
    refine absurd ?_ (hread _ List.mem_cons_self)
    change (w₀.store.getUpdateCandidate rec.id "major").isSome
    rw [hstored]
    rfl
  | ok answer =>
    obtain ⟨-, rfl, -⟩ := hrest
    obtain ⟨inner, w₂, result, w₃, last, hdrift, hcall, -, -, hreply, -⟩ := hstep
    obtain rfl := hreply
    rcases step_store hcall with ⟨err, herr, -⟩ | ⟨_, store, -, hperform, hok, -⟩
    · cases herr
    · obtain rfl := Except.ok.inj hok
      simp only [Store.perform, hdrift.frame.store, hstored] at hperform
      rw [← (Prod.mk.inj (Except.ok.inj hperform)).1]

/-- What a single update does that gets as far as asking for one. -/
theorem handleUpdateContainer_runs {updater : Updater.SelfUpdater} {name : String}
    {trace : Trace Services World} {out : Option Answer} (hunique : w.store.UniqueIDs)
    (h : ((system allows).layered Service.run).Runs
      (handleUpdateContainer updater ctx opCtx name "" actorID) w trace out w') :
    asked trace = [] ∨ ∃ row target met looks update result,
      Table.lookup ContainerRecord.name name w.store.containers = some row ∧
      MayTarget w.store row target ∧
      ((∀ e ∈ looks, ¬ CandidateUnread e) → ∀ candidate,
        w.store.getUpdateCandidate row.id "major" = some candidate → target = candidate.image) ∧
      asked looks = [] ∧ World.Drifts allows w met ∧
      ((system allows).layered Service.run).Runs (updateAlone opCtx actorID row target) met update
        result w' ∧
      trace = looks ++ update ∧ out = result.map .action := by
  rw [handleUpdateContainer_eq] at h
  obtain ⟨first, found, w₁, rest, hfound, hread, rfl⟩ := Machine.runs_bind.mp h
  obtain ⟨hdrift₁, hquiet₁, inner, hinner⟩ := looks_runs
    (Program.uses_mono (fun _ => looks_of_reads) (Scheduler.getContainerByName_reads ctx name)) hfound
  cases found with
  | error err =>
    obtain ⟨rfl, -⟩ := hread
    rw [List.append_nil]
    exact .inl hquiet₁
  | ok row =>
    have hrow := getContainerByName_finds hunique hinner row rfl
    obtain ⟨second, target, w₂, rest, htarget, hchosen, rfl⟩ := Machine.runs_bind.mp hread
    obtain ⟨hdrift₂, hquiet₂, inner, hinner⟩ :=
      looks_runs (resolveUpdateTarget_looks ctx row "major") htarget
    have hmay := resolveUpdateTarget_finds hinner
    rw [hdrift₁.frame.store] at hmay
    obtain ⟨third, self, w₃, rest, hself, hrest, rfl⟩ := Machine.runs_bind.mp hchosen
    obtain ⟨hdrift₃, hquiet₃, -⟩ := looks_runs (isSelf_looks updater ctx row.id) hself
    have hlooks : asked (first ++ (second ++ third)) = [] := by
      rw [asked_append, asked_append, hquiet₁, hquiet₂, hquiet₃]
      rfl
    cases self with
    | true =>
      obtain ⟨w₄, err, w₅, last, -, -, rfl, rfl, -⟩ := Machine.runs_request_bind.mp hrest
      rw [← List.append_assoc, ← List.append_assoc, List.append_assoc first, asked_append, hlooks]
      exact .inl rfl
    | false =>
      obtain ⟨update, outcome, w₄, last, hupdate, ⟨rfl, hanswer, rfl⟩, rfl⟩ := Machine.runs_bind.mp hrest
      refine .inr ⟨row, target.1, w₃, first ++ (second ++ third), update, outcome, hrow, hmay, ?_, hlooks,
        (hdrift₁.trans hdrift₂).trans hdrift₃, hupdate, by simp, hanswer⟩
      intro hunread candidate hstored
      refine resolveUpdateTarget_read htarget (fun e he => hunread e ?_) candidate ?_
      · exact List.mem_append_right _ (List.mem_append_left _ he)
      · rw [hdrift₁.frame.store]
        exact hstored

end Doupro.Api
