import Doupro.Api.Schedules
import Doupro.Go.TimestampOrder
import Doupro.Scheduler.Books

/-!
# The next run of a cron policy

The instant a cron schedule runs next is written when it is made and each time it has run, and both
times it is what the cron library answers for the clock's last reading. The library answers the
zero time where an expression matches no instant for years.
-/

namespace Doupro

open Interaction

/-- `time.Time{}`, the first instant of the year 1. -/
def zeroTime : Time := -62135596800 * second

/-- What the cron library is relied on for: the first instant an expression matches after another,
or the zero time if there is none up to a limit. It matches full seconds. -/
structure CronNext (fires : Time → Prop) (limit : Time → Time) (next : Time → Time) : Prop where
  seconds : ∀ t, fires t → t % second = 0
  found : ∀ now, (∃ t, now < t ∧ t ≤ limit now ∧ fires t) →
    fires (next now) ∧ now < next now ∧ ∀ t, now < t → fires t → next now ≤ t
  missing : ∀ now, (¬ ∃ t, now < t ∧ t ≤ limit now ∧ fires t) → next now = zeroTime

/-- An expression matches an instant up to the limit, or the clock is before the year 1. -/
def MatchesSoon (fires : Time → Prop) (limit : Time → Time) (now : Time) : Prop :=
  (∃ t, now < t ∧ t ≤ limit now ∧ fires t) ∨ now < zeroTime

theorem CronNext.lt_iff {fires : Time → Prop} {limit next : Time → Time}
    (h : CronNext fires limit next) (now : Time) : now < next now ↔ MatchesSoon fires limit now := by
  unfold MatchesSoon
  by_cases hsoon : ∃ t, now < t ∧ t ≤ limit now ∧ fires t
  · exact iff_of_true (h.found now hsoon).2.1 (.inl hsoon)
  · rw [h.missing now hsoon]
    exact ⟨.inr, fun hor => hor.resolve_left hsoon⟩

theorem CronNext.fullSecond {fires : Time → Prop} {limit next : Time → Time}
    (h : CronNext fires limit next) (now : Time) : next now % second = 0 := by
  by_cases hsoon : ∃ t, now < t ∧ t ≤ limit now ∧ fires t
  · exact h.seconds _ (h.found now hsoon).1
  · rw [h.missing now hsoon]
    decide

/-- A full second is not due before it has come. -/
theorem not_due_before {n now : Int} (hsecond : n % second = 0) (hlt : now < n)
    (hnow : 0 ≤ Time.year now) (hn : Time.year n ≤ 9999) : Time.columnLE n now = false := by
  have hyears := Time.year_mono hlt.le
  rw [Bool.eq_false_iff, ne_eq, Time.columnLE_second ⟨by omega, by omega⟩ ⟨hnow, by omega⟩]
  have hseconds : now / second < n / second := by
    unfold second at *
    omega
  rintro (h | ⟨h, -⟩)
  · exact absurd h (not_lt.mpr hseconds.le)
  · exact absurd h hseconds.ne'

/-! ### Writes of a next run -/

/-- The next run of a cron schedule a call writes. -/
def Call.cronWrite : Call → Option Time
  | .store _ (.createSchedule sc) => if sc.kind = .cron then sc.nextRunAt else none
  | .store _ (.markScheduleRun _ nextRun) => nextRun
  | _ => none

/-- A reading of the clock, or a next run written. -/
inductive CronStep where
  | read (now : Time)
  | write (nextRun : Time)

def cronStep : Event Services World → Option CronStep
  | ⟨_, .call .now, now⟩ => some (.read now)
  | ⟨_, .call call, _⟩ => call.cronWrite.map .write
  | _ => none

/-- Each write compares in a way to the last reading before it. -/
def EachWrite (P : Option Time → Time → Prop) : Option Time → List CronStep → Prop
  | _, [] => True
  | _, .read now :: rest => EachWrite P (some now) rest
  | last, .write nextRun :: rest => P last nextRun ∧ EachWrite P last rest

theorem EachWrite.congr {P Q R : Option Time → Time → Prop} (h : ∀ last n, R last n → (P last n ↔ Q last n))
    {last : Option Time} {steps : List CronStep} (hR : EachWrite R last steps) :
    EachWrite P last steps ↔ EachWrite Q last steps := by
  induction steps generalizing last with
  | nil => exact Iff.rfl
  | cons step rest ih =>
    cases step with
    | read now => exact ih hR
    | write n => exact and_congr (h last n hR.1) (ih hR.2)

/-- What is written is the answer of the library for the last reading. -/
def Answers (next : Time → Time) (last : Option Time) (n : Time) : Prop :=
  ∃ now, last = some now ∧ n = next now

/-- What is written lies after the last reading, and is due at no instant up to it. -/
def Later (last : Option Time) (n : Time) : Prop :=
  ∃ now, last = some now ∧ now < n ∧
    ∀ t : Time, t ≤ now → 0 ≤ t.year → n.year ≤ 9999 → Time.columnLE n t = false

/-- The last reading is one after which the expression matches soon. -/
def ReadSoon (fires : Time → Prop) (limit : Time → Time) (last : Option Time) (_ : Time) : Prop :=
  ∀ now, last = some now → MatchesSoon fires limit now

theorem later_iff {fires : Time → Prop} {limit next : Time → Time} (h : CronNext fires limit next)
    {last : Option Time} {n : Time} (hanswers : Answers next last n) :
    Later last n ↔ ReadSoon fires limit last n := by
  obtain ⟨now, rfl, rfl⟩ := hanswers
  constructor
  · rintro ⟨now', hnow, hlt, -⟩ now'' hnow''
    obtain rfl := Option.some.inj hnow
    obtain rfl := Option.some.inj hnow''
    exact (h.lt_iff now).mp hlt
  · intro hsoon
    have hlt := (h.lt_iff now).mpr (hsoon now rfl)
    exact ⟨now, rfl, hlt, fun t ht hyear hyear' =>
      not_due_before (h.fullSecond now) (lt_of_le_of_lt ht hlt) hyear hyear'⟩

/-- A party that writes no next run of a cron schedule but the library's answer. -/
def rearming (next : Time → Time) : Contract Services World (Option Time) where
  allowed last op := match op with
    | .call call => ∀ n, call.cronWrite = some n → Answers next last n
    | _ => True
  expects _ _ := True
  next last e := match e with
    | ⟨_, .call .now, now⟩ => some now
    | _ => last

theorem respected_rearming {next : Time → Time} {last : Option Time} {trace : Trace Services World}
    (h : (rearming next).Respected last trace) :
    EachWrite (Answers next) last (trace.filterMap cronStep) := by
  induction trace generalizing last with
  | nil => trivial
  | cons e rest ih =>
    obtain ⟨hallowed, hrest⟩ := h
    have hrest := ih (hrest trivial)
    rw [List.filterMap_cons]
    obtain ⟨w, op, reply⟩ := e
    cases op with
    | call call =>
      cases hnow : cronStep ⟨w, .call call, reply⟩ with
      | none =>
        have hsame : (rearming next).next last ⟨w, .call call, reply⟩ = last := by
          cases call with
          | now => exact nomatch hnow
          | _ => rfl
        rwa [hsame] at hrest
      | some step =>
        cases call with
        | now =>
          obtain rfl := Option.some.inj hnow
          exact hrest
        | store ctx call =>
          obtain ⟨n, hn, rfl⟩ := Option.map_eq_some_iff.mp hnow
          exact ⟨hallowed n hn, hrest⟩
        | _ => exact nomatch hnow
    | _ => exact hrest

/-! ### The programs -/

/-- A service that writes no next run. -/
def Unarmed : Service → Prop
  | .call call => call.cronWrite = none
  | _ => True

variable {M : Machine Services World} {next : Time → Time} {last : Option Time} {α β : Type}

theorem unarmed_obeys {p : Daemon α} (hp : p.Uses Unarmed) (last : Option Time) :
    M.obeys (rearming next) p last fun _ _ => True := by
  refine Machine.obeys_of_uses_always (P := Unarmed) ?_ hp last
  intro k op hop
  cases op with
  | call call =>
    intro n hn
    rw [hop] at hn
    exact nomatch hn
  | _ => trivial

theorem unarmed_bind {p : Daemon α} {f : α → Daemon β} (hp : p.Uses Unarmed)
    (hf : ∀ a last', M.obeys (rearming next) (f a) last' fun _ _ => True) :
    M.obeys (rearming next) (p >>= f) last fun _ _ => True :=
  Machine.obeys_bind.mpr (Machine.obeys_mono (unarmed_obeys hp last) fun last' a _ => hf a last')

theorem unarmed_ofGo {p : Go α} (hp : p.Uses fun call : Call => call.cronWrite = none) :
    (Daemon.ofGo p).Uses Unarmed := Daemon.uses_ofGo hp

theorem cronWrite_of_reads (call : Call) (h : Scheduler.Reads call) : call.cronWrite = none := by
  unfold Scheduler.Reads at h
  split at h
  all_goals first
    | rfl
    | exact h.elim

namespace Scheduler

open Go

variable (s : Scheduler)

theorem applyToTargets_unarmed (ctx : Context) (sc : Schedule) (delay : Duration) :
    (applyToTargets ctx sc delay).Uses Unarmed := by
  refine Program.uses_bind (unarmed_ofGo (Program.uses_mono cronWrite_of_reads
    (resolveTargets_reads ctx sc))) fun found => ?_
  cases found with
  | error err => exact ⟨rfl, fun _ => trivial⟩
  | ok targets =>
    dsimp only
    generalize 0 = applied
    induction targets generalizing applied with
    | nil => trivial
    | cons rec rest ih =>
      unfold applyEach
      split
      · exact ih applied
      refine Program.uses_bind (p := liftM _) ⟨rfl, fun _ => trivial⟩ fun candidate => ?_
      cases candidate with
      | error err => exact ih applied
      | ok candidate =>
        refine Program.uses_bind (p := liftM _) (unarmed_ofGo (p := waits delay candidate) ?_)
          fun waiting => ?_
        · unfold waits
          split
          · trivial
          · exact ⟨rfl, fun _ => trivial⟩
        split
        · exact ih applied
        refine Program.uses_bind (p := Daemon.update _) ⟨trivial, fun _ => trivial⟩ fun err => ?_
        split
        · trivial
        split
        · trivial
        refine Program.uses_bind (p := liftM _) (unarmed_ofGo (p := logExecuted sc err) ⟨rfl, fun _ => ?_⟩)
          fun _ => ?_
        · dsimp only
          split
          · exact ⟨rfl, fun _ => trivial⟩
          · trivial
        · split
          · exact Program.uses_bind (p := liftM _) ⟨rfl, fun _ => trivial⟩ fun _ => ih _
          · exact ih _

theorem markScheduleRun_rearms (ctx : Context) (sc : Schedule) (n last : Option Time)
    (hn : ∀ t, n = some t → Answers next last t) : M.obeys (rearming next)
      (do if let .error err ← liftM (store ctx (.markScheduleRun sc.id n)) then
            liftM (emit (failedEvent "schedule.update_failed"
              ("could not record next run for schedule #" ++ toString sc.id) err))
          return some ()) last fun _ _ => True := by
  refine ⟨hn, fun w marked w' _ _ => ?_⟩
  cases marked with
  | error err => exact ⟨fun _ h => (by cases h), fun _ _ _ _ _ => trivial⟩
  | ok _ => trivial

/-- A re-arm writes the library's answer for the clock it has just read. -/
theorem executeCron_rearms (ctx : Context) (sc : Schedule)
    (hnext : ∀ f, s.cronSchedule sc.cronExpr = some f → f = next) (last : Option Time) :
    M.obeys (rearming next) (s.executeCron ctx sc) last fun _ _ => True := by
  refine unarmed_bind (applyToTargets_unarmed ctx sc 0) fun result last => ?_
  rcases result with _ | ⟨applied, _ | _⟩
  · trivial
  · dsimp only
    change M.obeys (rearming next) (Daemon.ofGo (s.nextCronRun sc.cronExpr) >>= _) last _
    unfold nextCronRun
    cases hparse : s.cronSchedule sc.cronExpr with
    | none => exact markScheduleRun_rearms ctx sc none last fun _ h => by cases h
    | some f =>
      obtain rfl := hnext f hparse
      refine ⟨fun _ h => (by cases h), fun w now w' _ _ => ?_⟩
      exact markScheduleRun_rearms ctx sc (some (f now)) (some now) fun t ht =>
        ⟨now, rfl, (Option.some.inj ht).symm⟩
  · trivial

end Scheduler

namespace Api

open Go

/-- A contract on a handler, seen as a goroutine of the daemon. -/
theorem rearming_ofGo {p : Go α} (h : ∀ N : Machine Calls World,
    N.obeys (Daemon.onCalls (rearming next)) p last fun _ _ => True) :
    M.obeys (rearming next) (Daemon.ofGo p) last fun _ _ => True :=
  Daemon.obeys_ofGo (N := ⟨fun _ _ => True, fun w call r w' => M.step w (.call call) r w'⟩)
    (fun _ _ _ _ h => h) (h _)

variable {N : Machine Calls World}

theorem idle_obeys {p : Go α} (hp : p.Uses fun call : Call => call.cronWrite = none)
    (last : Option Time) : N.obeys (Daemon.onCalls (rearming next)) p last fun _ _ => True := by
  refine Machine.obeys_of_uses_always (P := fun call : Call => call.cronWrite = none) ?_ hp last
  intro k call hcall n hn
  rw [hcall] at hn
  exact nomatch hn

theorem insertSchedule_idle (ctx : Context) {sc : Schedule} (h : sc.kind ≠ .cron) :
    (insertSchedule ctx sc).Uses fun call : Call => call.cronWrite = none := by
  refine ⟨if_neg h, fun inserted => ?_⟩
  cases inserted with
  | error err => trivial
  | ok id =>
    dsimp only
    split
    · exact ⟨rfl, fun _ => trivial⟩
    · trivial

theorem pinImage_idle (ctx : Context) (image : String) :
    (pinImage ctx image).Uses fun call : Call => call.cronWrite = none := by
  unfold pinImage
  split
  · trivial
  · refine ⟨rfl, fun digest => ?_⟩
    cases digest <;> trivial

theorem createMembers_idle (ctx : Context) (stack : String) (notify : Bool) (runAt : Time)
    (rows : List ContainerRecord) (made : List Schedule) :
    (createMembers ctx stack notify runAt rows made).Uses
      fun call : Call => call.cronWrite = none := by
  induction rows generalizing made with
  | nil => trivial
  | cons rec rest ih =>
    unfold createMembers
    split
    · exact ih made
    · refine Program.uses_bind (pinImage_idle ctx _) fun pinned => ⟨rfl, fun created => ?_⟩
      cases created with
      | error err => trivial
      | ok id => exact ih _

theorem createStackSchedules_idle (ctx : Context) (req : ScheduleRequest) (notify : Bool)
    (runAt : Time) : (createStackSchedules ctx req notify runAt).Uses
      fun call : Call => call.cronWrite = none := by
  unfold createStackSchedules
  refine Program.uses_request_bind (S := Calls) rfl fun containers => ?_
  cases containers with
  | error err => trivial
  | ok containers =>
    refine Program.uses_bind (createMembers_idle ctx _ _ _ containers []) fun made => ?_
    cases made with
    | error answer => trivial
    | ok made =>
      dsimp only
      split
      · trivial
      · split
        · exact ⟨rfl, fun _ => trivial⟩
        · trivial

theorem onceSchedule_once (ctx : Context) (req : ScheduleRequest) (notify : Bool) (runAt : Time)
    (last : Option Time) : N.obeys (Daemon.onCalls (rearming next)) (onceSchedule ctx req notify runAt)
      last fun _ made => ∀ sc, made = .ok sc → sc.kind ≠ .cron := by
  have hfind := Program.uses_mono cronWrite_of_reads
    (Scheduler.getContainerByName_reads ctx req.container)
  refine Machine.obeys_bind.mpr (Machine.obeys_mono (idle_obeys hfind last) fun last found _ => ?_)
  cases found with
  | error err => exact fun _ h => nomatch h
  | ok rec =>
    refine Machine.obeys_bind.mpr (Machine.obeys_mono (idle_obeys (pinImage_idle ctx _) last)
      fun last pinned _ => ?_)
    intro sc h
    rw [← Except.ok.inj h]
    exact fun hkind => nomatch hkind

theorem createOnce_idle (parsers : Parsers) (ctx : Context) (req : ScheduleRequest) (notify : Bool)
    (last : Option Time) : N.obeys (Daemon.onCalls (rearming next)) (createOnce parsers ctx req notify)
      last fun _ _ => True := by
  have hparse : (parseRunAt parsers req).Uses fun call : Call => call.cronWrite = none := by
    unfold parseRunAt
    split
    · trivial
    · split
      · trivial
      · refine Program.uses_request_bind (S := Calls) rfl fun instant => ?_
        exact Program.uses_ite trivial trivial
  refine Machine.obeys_bind.mpr (Machine.obeys_mono (idle_obeys hparse last) fun last runAt _ => ?_)
  cases runAt with
  | error answer => trivial
  | ok runAt =>
    dsimp only
    split
    · exact idle_obeys (createStackSchedules_idle ctx req notify runAt) last
    · refine Machine.obeys_bind.mpr (Machine.obeys_mono (onceSchedule_once ctx req notify runAt last)
        fun last made hmade => ?_)
      cases made with
      | error answer => trivial
      | ok sc => exact idle_obeys (insertSchedule_idle ctx (hmade sc rfl)) last

/-- The row of a cron schedule has the library's answer for the clock just read. -/
theorem cronSchedule_answers (parsers : Parsers) (req : ScheduleRequest) (notify : Bool)
    (hnext : ∀ f, parsers.cron req.cron = .ok f → f = next) (last : Option Time) :
    N.obeys (Daemon.onCalls (rearming next)) (cronSchedule parsers req notify) last
      fun last' made => ∀ sc n, made = .ok sc → sc.nextRunAt = some n → Answers next last' n := by
  unfold cronSchedule
  split
  · exact fun _ _ h => nomatch h
  · cases hparse : parsers.cron req.cron with
    | error message => exact fun _ _ h => nomatch h
    | ok f =>
      obtain rfl := hnext f hparse
      refine ⟨(fun _ h => nomatch h), fun w now w' _ _ sc n hmade hn => ?_⟩
      obtain rfl := Except.ok.inj hmade
      exact ⟨now, rfl, (Option.some.inj hn).symm⟩

theorem handleCreateSchedule_arms (parsers : Parsers) (ctx : Context) (req : ScheduleRequest)
    (hnext : ∀ f, parsers.cron req.cron = .ok f → f = next) (last : Option Time) :
    N.obeys (Daemon.onCalls (rearming next)) (handleCreateSchedule parsers ctx (some req)) last
      fun _ _ => True := by
  unfold handleCreateSchedule
  dsimp only
  split
  · trivial
  split
  · exact createOnce_idle parsers ctx req _ last
  split
  · refine Machine.obeys_bind.mpr (Machine.obeys_mono
      (cronSchedule_answers parsers req _ hnext last) fun last made hmade => ?_)
    cases made with
    | error answer => trivial
    | ok sc =>
      have hwrite : ∀ n, (Call.store ctx (.createSchedule sc)).cronWrite = some n →
          Answers next last n := by
        intro n hn
        unfold Call.cronWrite at hn
        dsimp only at hn
        split at hn
        · exact hmade sc n rfl hn
        · exact nomatch hn
      refine ⟨hwrite, fun w inserted w' _ _ => ?_⟩
      cases inserted with
      | error err => trivial
      | ok id =>
        dsimp only
        split
        · exact ⟨(fun _ h => nomatch h), fun _ _ _ _ _ => trivial⟩
        · trivial
  split
  · cases hrow : relativeSchedule req (req.notify.getD true) with
    | error answer => trivial
    | ok sc =>
      have hkind : sc.kind ≠ .cron := by
        unfold relativeSchedule at hrow
        split at hrow
        · exact nomatch hrow
        · split at hrow
          · exact nomatch hrow
          · split at hrow
            · exact nomatch hrow
            · rw [← Except.ok.inj hrow]
              exact fun h => nomatch h
      exact idle_obeys (insertSchedule_idle ctx hkind) last
  · trivial

end Api

/-! ### Every next run -/

/-- A cron library: the instants an expression matches, if it parses, and how far `Next` looks. -/
structure CronLibrary where
  fires : String → Time → Prop
  limit : Time → Time

/-- The next runs a creation and a re-arm compute are those of the library. -/
structure CronLibrary.UsedBy (library : CronLibrary) (parsers : Api.Parsers) (s : Scheduler) :
    Prop where
  creation : ∀ expr next, parsers.cron expr = .ok next → CronNext (library.fires expr) library.limit next
  rearm : ∀ expr next, s.cronSchedule expr = some next →
    CronNext (library.fires expr) library.limit next

/-- What goroutines that make or run a schedule may do, in whatever order and however far. -/
theorem eachWrite_iff {fires : Time → Prop} {limit next : Time → Time}
    (hnext : CronNext fires limit next) {p : Daemon α}
    (hp : M.obeys (rearming next) p none fun _ _ => True) {trace : Trace Services World}
    (hadmits : M.Admits p trace) :
    EachWrite Later none (trace.filterMap cronStep) ↔
      EachWrite (ReadSoon fires limit) none (trace.filterMap cronStep) :=
  EachWrite.congr (fun _ _ hanswers => later_iff hnext hanswers)
    (respected_rearming (Machine.respected_of_obeys hp hadmits))

/-- Every next run of a cron schedule that is written lies after the clock's reading it was computed
for, and is due at no instant up to it. -/
def MovesForward (trace : Trace Services World) : Prop :=
  EachWrite Later none (trace.filterMap cronStep)

/-- Each of those readings is one after which the expression matches within the library's limit. -/
def MatchesInTime (library : CronLibrary) (expr : String) (trace : Trace Services World) : Prop :=
  EachWrite (ReadSoon (library.fires expr) library.limit) none (trace.filterMap cronStep)

/-- The next full minute. -/
def nextMinute (now : Time) : Time := (now / minute + 1) * minute

theorem nextMinute_eq (now : Int) :
    nextMinute now = (now / 60000000000 + 1) * 60000000000 := rfl

theorem nextMinute_fires (now : Int) : nextMinute now % minute = 0 := Int.mul_emod_left _ _

theorem lt_nextMinute (now : Int) : now < nextMinute now ∧ nextMinute now ≤ now + minute := by
  rw [nextMinute_eq]
  change now < _ ∧ _ ≤ now + (60000000000 : Int)
  omega

theorem nextMinute_le {now t : Int} (hlt : now < t) (hfires : t % minute = 0) : nextMinute now ≤ t := by
  change t % (60000000000 : Int) = 0 at hfires
  change (now / 60000000000 + 1) * 60000000000 ≤ (t : Int)
  omega

theorem fullSecond_of_minute {t : Int} (h : t % minute = 0) : t % second = 0 := by
  change t % (60000000000 : Int) = 0 at h
  change t % (1000000000 : Int) = 0
  omega

theorem cronNext_nextMinute :
    CronNext (fun t => t % minute = 0) (fun now => now + minute) nextMinute where
  seconds _ h := fullSecond_of_minute h
  found now _ := ⟨nextMinute_fires now, (lt_nextMinute now).1, fun _ hlt hfires =>
    nextMinute_le hlt hfires⟩
  missing now h := absurd ⟨nextMinute now, (lt_nextMinute now).1, (lt_nextMinute now).2,
    nextMinute_fires now⟩ h

/-- A library that knows `* * * * *` and the thirtieth of February. -/
def smallLibrary : CronLibrary where
  fires expr t := expr = "* * * * *" ∧ t % minute = 0
  limit now := now + minute

def smallNext (expr : String) : Option (Time → Time) :=
  if expr = "* * * * *" then some nextMinute
  else if expr = "0 0 30 2 *" then some fun _ => zeroTime
  else none

def smallParsers : Api.Parsers where
  rfc3339 _ := none
  cron expr := match smallNext expr with
    | some next => .ok next
    | none => .error "invalid cron expression"

theorem cronNext_smallNext {expr : String} {next : Time → Time} (h : smallNext expr = some next) :
    CronNext (smallLibrary.fires expr) smallLibrary.limit next := by
  unfold smallNext at h
  split at h
  · next hexpr =>
    obtain rfl := Option.some.inj h
    have hfires : smallLibrary.fires expr = fun t => t % minute = 0 := by
      funext t
      simp [smallLibrary, hexpr]
    rw [hfires]
    exact cronNext_nextMinute
  · next hexpr =>
    split at h
    · obtain rfl := Option.some.inj h
      exact
        { seconds := fun t ht => absurd ht.1 hexpr
          found := fun now ⟨t, _, _, ht⟩ => absurd ht.1 hexpr
          missing := fun _ _ => rfl }
    · exact nomatch h

theorem smallLibrary_usedBy :
    smallLibrary.UsedBy smallParsers { checkInterval := minute, cronSchedule := smallNext } where
  creation expr next h := by
    apply cronNext_smallNext
    unfold smallParsers at h
    dsimp only at h
    split at h
    · next found hfound =>
      rw [hfound, Except.ok.inj h]
    · exact nomatch h
  rearm _ _ h := cronNext_smallNext h

/-! ### Two creations -/

def cronRequest (expr : String) : Api.ScheduleRequest where
  type := "cron"
  container := "web"
  cron := expr

/-- What a request for a cron schedule does, in the middle of November 2023. -/
def creationTrace (expr : String) : Trace Services World :=
  (Daemon.play (Daemon.ofGo (Api.handleCreateSchedule smallParsers .background
    (some (cronRequest expr)))) { webWorld with clock := 1700000000 * second }
    fun _ _ => {}).1

theorem creationTrace_admits (expr : String) : (openSystem.layered Service.run).Admits
    (Daemon.ofGo (Api.handleCreateSchedule smallParsers .background (some (cronRequest expr))))
    (creationTrace expr) :=
  Machine.runs_admits (Daemon.play_runs _ _ _)

end Doupro
