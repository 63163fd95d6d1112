import Doupro.Interaction.Contracts
import Doupro.Scheduler.Executors
import Doupro.System.World

/-!
# The books of a tick

A tick keeps the books on the updates it asked for: it writes the row of a schedule only while
none of the updates of that schedule was refused, and asks for none after it wrote the row.
-/

namespace Doupro

open Go Interaction

namespace Scheduler

/-- The schedules whose updates were refused and those whose rows were written, by the actor
IDs of their updates. -/
structure Books where
  refused : List String := []
  written : List String := []

namespace Books

def after (k : Books) (e : Event Services World) : Books :=
  match e with
  | ⟨_, .update req, reply⟩ =>
    if Scheduler.refused reply then { k with refused := req.requester.actorID :: k.refused } else k
  | ⟨_, .call (.store _ (.markScheduleRun id _)), _⟩
  | ⟨_, .call (.store _ (.touchScheduleLastRun id)), _⟩ =>
    { k with written := actorIDOf id :: k.written }
  | _ => k

def Mentions (k : Books) (actorID : String) : Prop := actorID ∈ k.refused ∨ actorID ∈ k.written

/-- New entries are about schedules that meet a condition. -/
def Adds (k k' : Books) (P : Nat → Prop) : Prop :=
  ∀ actorID, k'.Mentions actorID → k.Mentions actorID ∨ ∃ id, P id ∧ actorID = actorIDOf id

theorem Adds.refl (k : Books) (P : Nat → Prop) : k.Adds k P := fun _ h => .inl h

theorem Adds.trans {k k₁ k₂ : Books} {P Q : Nat → Prop} (h : k.Adds k₁ P) (h' : k₁.Adds k₂ Q)
    (hP : ∀ id, P id → Q id) : k.Adds k₂ Q := by
  intro actorID hmem
  rcases h' actorID hmem with hmem | hnew
  · rcases h actorID hmem with hold | ⟨id, hid, rfl⟩
    · exact .inl hold
    · exact .inr ⟨id, hP id hid, rfl⟩
  · exact .inr hnew

theorem Adds.mono {k k' : Books} {P Q : Nat → Prop} (h : k.Adds k' P) (hP : ∀ id, P id → Q id) :
    k.Adds k' Q := (Adds.refl k P).trans (fun actorID hmem => (h actorID hmem).imp id
      fun ⟨id, hid, heq⟩ => ⟨id, hP id hid, heq⟩) hP

theorem adds_refusal (k : Books) (id : Nat) :
    k.Adds { k with refused := actorIDOf id :: k.refused } (· = id) := by
  rintro actorID (hrefused | hwritten)
  · rcases List.mem_cons.mp hrefused with rfl | hold
    · exact .inr ⟨id, rfl, rfl⟩
    · exact .inl (.inl hold)
  · exact .inl (.inr hwritten)

theorem adds_write (k : Books) (id : Nat) :
    k.Adds { k with written := actorIDOf id :: k.written } (· = id) := by
  rintro actorID (hrefused | hwritten)
  · exact .inl (.inl hrefused)
  · rcases List.mem_cons.mp hwritten with rfl | hold
    · exact .inr ⟨id, rfl, rfl⟩
    · exact .inl (.inr hold)

end Books

theorem actorIDOf_injective : Function.Injective actorIDOf := by
  intro a b h
  have hdigits : Nat.toDigits 10 a = Nat.toDigits 10 b := by
    rw [← Nat.toList_repr, ← Nat.toList_repr]
    exact congrArg String.toList ((String.append_right_inj _).mp h)
  rw [← Nat.ofDigitChars_ten_toDigits (n := a), hdigits, Nat.ofDigitChars_ten_toDigits]

/-- Rows with an ID of their own, each of its kind. -/
structure Keyed (kinds : Nat → ScheduleKind) (rows : List Schedule) : Prop where
  distinct : (rows.map Schedule.id).Nodup
  kind : ∀ sc ∈ rows, kinds sc.id = sc.kind

/-- A row is written only while no update of its schedule was refused, and no update of a
schedule is asked for after its row was written. -/
def bookkeeping (kinds : Nat → ScheduleKind) : Contract Services World Books where
  allowed k op := match op with
    | .update req => req.requester.actorID ∉ k.written
    | .call (.store _ (.markScheduleRun id _)) | .call (.store _ (.touchScheduleLastRun id)) =>
      actorIDOf id ∉ k.refused
    | .rollback _ | .startSelfUpdate _ _ _ _ _ | .call (.store _ (.createSchedule _))
    | .call (.store _ (.setScheduleEnabled _ _)) | .call (.store _ (.deleteSchedule _)) => False
    | _ => True
  expects _ e := match e with
    | ⟨_, .call (.store _ (.dueSchedules _)), reply⟩ => ∀ rows, reply = .ok rows → Keyed kinds rows
    | ⟨_, .call (.store _ .listSchedules), reply⟩ => ∀ rows, reply = .ok rows → Keyed kinds rows
    | _ => True
  next := Books.after

/-- A call that leaves the books as they are. -/
def Unbooked : Service → Prop
  | .update _ | .rollback _ | .startSelfUpdate _ _ _ _ _ | .call (.store _ (.markScheduleRun _ _))
  | .call (.store _ (.touchScheduleLastRun _)) | .call (.store _ (.createSchedule _))
  | .call (.store _ (.setScheduleEnabled _ _)) | .call (.store _ (.deleteSchedule _)) => False
  | _ => True

section Obeys

variable {M : Machine Services World} {kinds : Nat → ScheduleKind} {k : Books} {α β : Type}
  {Q : Books → α → Prop}

theorem unbooked_bind {p : Daemon β} {f : β → Daemon α} (hp : p.Uses Unbooked)
    (h : ∀ a, M.obeys (bookkeeping kinds) (f a) k Q) :
    M.obeys (bookkeeping kinds) (p >>= f) k Q := by
  refine Machine.obeys_bind.mpr (Machine.obeys_mono
    (Machine.obeys_of_uses (P := Unbooked) (fun k op hop => ?_) (fun k e he => ?_) hp k) ?_)
  · dsimp only [bookkeeping]
    split <;> first | exact hop.elim | trivial
  · dsimp only [bookkeeping, Books.after]
    split <;> first | exact he.elim | rfl
  · rintro _ a rfl
    exact h a

theorem unbooked_ofGo {p : Go β} {P : Call → Prop} (hP : ∀ call, P call → Unbooked (.call call))
    (hp : p.Uses P) : (Daemon.ofGo p).Uses Unbooked :=
  Daemon.uses_ofGo (Program.uses_mono hP hp)

theorem unbooked_of_reads (call : Call) (h : Reads call) : Unbooked (.call call) := by
  unfold Reads at h
  split at h <;> trivial

theorem logExecuted_unbooked (sc : Schedule) (err : Option GoError) :
    (Daemon.ofGo (logExecuted sc err)).Uses Unbooked := by
  refine Daemon.uses_ofGo ⟨trivial, fun _ => ?_⟩
  dsimp only
  split
  · exact ⟨trivial, fun _ => trivial⟩
  · trivial

theorem mark_bind {ctx : Context} {id : Nat} {next : Option Time} {f : Except GoError Unit → Daemon α}
    (hk : actorIDOf id ∉ k.refused)
    (h : ∀ r, M.obeys (bookkeeping kinds) (f r) { k with written := actorIDOf id :: k.written } Q) :
    M.obeys (bookkeeping kinds) (liftM (store ctx (.markScheduleRun id next)) >>= f) k Q :=
  ⟨hk, fun _ r _ _ _ => h r⟩

theorem touch_bind {ctx : Context} {id : Nat} {f : Except GoError Unit → Daemon α}
    (hk : actorIDOf id ∉ k.refused)
    (h : ∀ r, M.obeys (bookkeeping kinds) (f r) { k with written := actorIDOf id :: k.written } Q) :
    M.obeys (bookkeeping kinds) (liftM (store ctx (.touchScheduleLastRun id)) >>= f) k Q :=
  ⟨hk, fun _ r _ _ _ => h r⟩

/-- An update is noted if it was refused. -/
theorem update_bind {req : Updater.UpdateRequest} {f : Option GoError → Daemon α}
    (hk : req.requester.actorID ∉ k.written)
    (hrefused : ∀ err, refused err = true → M.obeys (bookkeeping kinds) (f err)
      { k with refused := req.requester.actorID :: k.refused } Q)
    (haccepted : ∀ err, refused err = false → M.obeys (bookkeeping kinds) (f err) k Q) :
    M.obeys (bookkeeping kinds) (Daemon.update req >>= f) k Q := by
  refine ⟨hk, fun _ err _ _ _ => ?_⟩
  dsimp only [bookkeeping, Books.after]
  cases herr : refused err with
  | true => exact hrefused err herr
  | false => exact haccepted err herr

/-! ### The executors keep the books -/

theorem executeOnce_books (ctx : Context) (sc : Schedule) (hk : ¬ k.Mentions (actorIDOf sc.id)) :
    M.obeys (bookkeeping kinds) (executeOnce ctx sc) k fun k' _ => k.Adds k' (· = sc.id) := by
  obtain ⟨hrefused, hwritten⟩ := not_or.mp hk
  refine unbooked_bind (unbooked_ofGo unbooked_of_reads (getContainerByName_reads _ _)) fun found => ?_
  cases found with
  | error err =>
    refine unbooked_bind (logExecuted_unbooked _ _) fun _ => ?_
    exact mark_bind hrefused fun _ => k.adds_write sc.id
  | ok rec =>
    refine update_bind hwritten (fun err herr => ?_) fun err herr => ?_
    · split
      · exact k.adds_refusal sc.id
      · rw [if_pos herr]
        exact k.adds_refusal sc.id
    · split
      · exact .refl k _
      · rw [if_neg (by simp [herr])]
        refine unbooked_bind (logExecuted_unbooked _ _) fun _ => ?_
        exact mark_bind hrefused fun _ => k.adds_write sc.id

/-- What the books of a schedule are after its targets: untouched unless one was refused. -/
def Applied (sc : Schedule) (k k' : Books) (result : Option (Nat × Bool)) : Prop :=
  (∀ applied, result = some (applied, false) → k' = k) ∧ k.Adds k' (· = sc.id)

theorem Applied.refl (sc : Schedule) (k : Books) (result : Option (Nat × Bool)) :
    Applied sc k k result := ⟨fun _ _ => rfl, .refl k _⟩

theorem applyEach_books (ctx : Context) (sc : Schedule) (delay : Duration)
    (hk : actorIDOf sc.id ∉ k.written) (targets : List ContainerRecord) (applied : Nat) :
    M.obeys (bookkeeping kinds) (applyEach ctx sc delay targets applied) k (Applied sc k) := by
  induction targets generalizing applied with
  | nil => exact .refl sc k _
  | cons rec rest ih =>
    unfold applyEach
    split
    · exact ih applied
    refine unbooked_bind (p := liftM _) ⟨trivial, fun _ => trivial⟩ fun candidate => ?_
    cases candidate with
    | error err => exact ih applied
    | ok candidate =>
      refine unbooked_bind (p := liftM (waits delay candidate)) ?_ fun waiting => ?_
      · refine Daemon.uses_ofGo ?_
        unfold waits
        split
        · trivial
        · exact ⟨trivial, fun _ => trivial⟩
      split
      · exact ih applied
      refine update_bind hk (fun err herr => ?_) fun err herr => ?_
      · split
        · exact ⟨fun _ h => absurd h (by simp), k.adds_refusal sc.id⟩
        · rw [if_pos herr]
          exact ⟨fun _ h => absurd h (by simp), k.adds_refusal sc.id⟩
      · split
        · exact .refl sc k _
        · rw [if_neg (by simp [herr])]
          refine unbooked_bind (logExecuted_unbooked _ _) fun _ => ?_
          split
          · exact unbooked_bind (p := liftM _) ⟨trivial, fun _ => trivial⟩ fun _ => ih _
          · exact ih _

theorem applyToTargets_books (ctx : Context) (sc : Schedule) (delay : Duration)
    (hk : actorIDOf sc.id ∉ k.written) :
    M.obeys (bookkeeping kinds) (applyToTargets ctx sc delay) k (Applied sc k) := by
  refine unbooked_bind (unbooked_ofGo unbooked_of_reads (resolveTargets_reads _ _)) fun targets => ?_
  cases targets with
  | error err =>
    exact unbooked_bind (p := liftM _) ⟨trivial, fun _ => trivial⟩ fun _ => .refl sc k _
  | ok targets => exact applyEach_books ctx sc delay hk targets 0

variable (s : Scheduler)

theorem executeCron_books (ctx : Context) (sc : Schedule) (hk : ¬ k.Mentions (actorIDOf sc.id)) :
    M.obeys (bookkeeping kinds) (s.executeCron ctx sc) k fun k' _ => k.Adds k' (· = sc.id) := by
  obtain ⟨hrefused, hwritten⟩ := not_or.mp hk
  refine Machine.obeys_bind.mpr (Machine.obeys_mono (applyToTargets_books ctx sc 0 hwritten) ?_)
  rintro k' result ⟨hsame, hadds⟩
  match result with
  | none => exact hadds
  | some (_, true) => exact hadds
  | some (applied, false) =>
    obtain rfl := hsame applied rfl
    refine unbooked_bind (p := liftM (s.nextCronRun sc.cronExpr)) ?_ fun next => ?_
    · refine Daemon.uses_ofGo ?_
      unfold nextCronRun
      split
      · trivial
      · exact ⟨trivial, fun _ => trivial⟩
    refine mark_bind hrefused fun marked => ?_
    cases marked with
    | error err =>
      exact unbooked_bind (p := liftM _) ⟨trivial, fun _ => trivial⟩ fun _ => k'.adds_write sc.id
    | ok _ => exact k'.adds_write sc.id

/-- Schedules that are not relative policies. -/
def OnTime (kinds : Nat → ScheduleKind) (id : Nat) : Prop := kinds id ≠ .relative

theorem executeDue_books (ctx : Context) (sc : Schedule) (hkind : kinds sc.id = sc.kind)
    (hk : ¬ k.Mentions (actorIDOf sc.id)) :
    M.obeys (bookkeeping kinds) (s.executeDue ctx sc) k fun k' _ =>
      k.Adds k' fun id => id = sc.id ∧ OnTime kinds id := by
  have hon : sc.kind ≠ .relative → ∀ id, id = sc.id → id = sc.id ∧ OnTime kinds id := by
    rintro hrel id rfl
    exact ⟨rfl, fun h => hrel (hkind.symm.trans h)⟩
  unfold executeDue
  split
  · next h => exact Machine.obeys_mono (executeOnce_books ctx sc hk) fun _ _ hadds =>
      hadds.mono (hon (by simp [h]))
  · next h => exact Machine.obeys_mono (s.executeCron_books ctx sc hk) fun _ _ hadds =>
      hadds.mono (hon (by simp [h]))
  · exact .refl k _

/-- The due schedules one after another: none of the later ones is in the books yet. -/
theorem executeAll_books (ctx : Context) {rows : List Schedule} (hrows : Keyed kinds rows)
    (hk : ∀ sc ∈ rows, ¬ k.Mentions (actorIDOf sc.id)) :
    M.obeys (bookkeeping kinds) (s.executeAll ctx rows) k fun k' _ => k.Adds k' (OnTime kinds) := by
  induction rows generalizing k with
  | nil => exact .refl k _
  | cons sc rest ih =>
    obtain ⟨hkfirst, hkrest⟩ := List.forall_mem_cons.mp hk
    obtain ⟨hfresh, hdistinct⟩ := List.nodup_cons.mp hrows.distinct
    obtain ⟨hkind, hkinds⟩ := List.forall_mem_cons.mp hrows.kind
    refine Machine.obeys_bind.mpr (Machine.obeys_mono (s.executeDue_books ctx sc hkind hkfirst) ?_)
    intro k' result hadds
    cases result with
    | none => exact hadds.mono fun _ h => h.2
    | some _ =>
      refine Machine.obeys_mono (ih ⟨hdistinct, hkinds⟩ fun other hother hmentions => ?_) ?_
      · rcases hadds _ hmentions with hold | ⟨id, ⟨rfl, -⟩, hid⟩
        · exact hkrest other hother hold
        · exact hfresh (actorIDOf_injective hid ▸ List.mem_map_of_mem hother)
      · exact fun _ _ hlater => hadds.trans hlater fun _ h => h.2

theorem runDueSchedules_books (ctx : Context) :
    M.obeys (bookkeeping kinds) (s.runDueSchedules ctx) {} fun k' _ =>
      Books.Adds {} k' (OnTime kinds) := by
  refine unbooked_bind (p := liftM _) ⟨trivial, fun _ => trivial⟩ fun active => ?_
  split
  · exact .refl _ _
  refine unbooked_bind (p := liftM _) ⟨trivial, fun _ => trivial⟩ fun now => ?_
  refine ⟨trivial, fun _ due _ _ hexp => ?_⟩
  cases due with
  | error err =>
    exact unbooked_bind (p := liftM _) ⟨trivial, fun _ => trivial⟩ fun _ => .refl _ _
  | ok due =>
    refine s.executeAll_books ctx (hexp due rfl) fun sc _ hmentions => ?_
    rcases hmentions with h | h <;> cases h

/-- The policies one after another: none of the later ones is in the books yet. -/
theorem runPolicies_books (ctx : Context) {rows : List Schedule} (hrows : Keyed kinds rows)
    (hk : ∀ sc ∈ rows, sc.kind = .relative → ¬ k.Mentions (actorIDOf sc.id)) :
    M.obeys (bookkeeping kinds) (s.runPolicies ctx rows) k fun _ _ => True := by
  induction rows generalizing k with
  | nil => trivial
  | cons sc rest ih =>
    obtain ⟨hkfirst, hkrest⟩ := List.forall_mem_cons.mp hk
    obtain ⟨hfresh, hdistinct⟩ := List.nodup_cons.mp hrows.distinct
    have hlater : ∀ {k' : Books}, k.Adds k' (· = sc.id) →
        M.obeys (bookkeeping kinds) (s.runPolicies ctx rest) k' fun _ _ => True := by
      intro k' hadds
      refine ih ⟨hdistinct, (List.forall_mem_cons.mp hrows.kind).2⟩ fun other hother hrel hmentions => ?_
      rcases hadds _ hmentions with hold | ⟨id, rfl, hid⟩
      · exact hkrest other hother hrel hold
      · exact hfresh (actorIDOf_injective hid ▸ List.mem_map_of_mem hother)
    unfold runPolicies
    split
    · exact hlater (.refl k _)
    next hrel =>
    refine unbooked_bind (p := liftM (s.currentCheckInterval ctx)) ?_ fun interval => ?_
    · refine Daemon.uses_ofGo (Program.uses_bind ((Program.uses_request _).mpr trivial) fun minutes => ?_)
      split <;> trivial
    refine unbooked_bind (p := liftM _) ⟨trivial, fun _ => trivial⟩ fun now => ?_
    split
    · exact hlater (.refl k _)
    cases delayOf sc with
    | none => exact hlater (.refl k _)
    | some delay =>
      obtain ⟨hrefused, hwritten⟩ := not_or.mp (hkfirst (by simpa using (not_or.mp hrel).2))
      refine Machine.obeys_bind.mpr (Machine.obeys_mono (applyToTargets_books ctx sc delay hwritten) ?_)
      rintro k' result ⟨hsame, hadds⟩
      match result with
      | none => trivial
      | some (_, true) => trivial
      | some (applied, false) =>
        obtain rfl := hsame applied rfl
        dsimp only
        split
        · exact touch_bind hrefused fun _ => hlater (k'.adds_write sc.id)
        · exact hlater (.refl k' _)

theorem runRelativePolicies_books (ctx : Context)
    (hk : ∀ actorID, k.Mentions actorID → ∃ id, OnTime kinds id ∧ actorID = actorIDOf id) :
    M.obeys (bookkeeping kinds) (s.runRelativePolicies ctx) k fun _ _ => True := by
  refine unbooked_bind (p := liftM _) ⟨trivial, fun _ => trivial⟩ fun active => ?_
  split
  · trivial
  refine ⟨trivial, fun _ rows _ _ hexp => ?_⟩
  cases rows with
  | error err => exact unbooked_bind (p := liftM _) ⟨trivial, fun _ => trivial⟩ fun _ => trivial
  | ok rows =>
    refine s.runPolicies_books ctx (hexp rows rfl) fun sc hsc hrel hmentions => ?_
    obtain ⟨id, hid, heq⟩ := hk _ hmentions
    rw [← actorIDOf_injective heq] at hid
    exact hid (((hexp rows rfl).kind sc hsc).trans hrel)

theorem dueTick_books (ctx : Context) :
    M.obeys (bookkeeping kinds) (s.dueTick ctx) {} fun _ _ => True := by
  refine Machine.obeys_bind.mpr (Machine.obeys_mono (s.runDueSchedules_books ctx) ?_)
  intro k result hadds
  cases result with
  | none => trivial
  | some _ =>
    refine s.runRelativePolicies_books ctx fun actorID hmentions => ?_
    rcases hadds actorID hmentions with hold | hnew
    · rcases hold with h | h <;> cases h
    · exact hnew

end Obeys

end Scheduler
end Doupro
