import Doupro.Notifier.Channels
import Doupro.Updater.Course

/-!
# Who hears of an update

The jobs an operation leaves for the channels. A success reaches every channel that wants it once. A
failure reaches them only if it came after the original was removed.
-/

namespace Doupro

open Interaction Notifier

/-- The jobs that the notices of a trace leave. -/
def enqueued (channels : List Channel) (trace : Trace Calls World) : List NewJob :=
  (course trace).notices.flatMap (jobsOf channels)

/-- Every channel that wants a category and has the container in its scope got a job. -/
def Told (channels : List Channel) (category : Category) (name stack : String) (jobs : List NewJob) :
    Prop :=
  ∀ ch ∈ channels, ch.receives category = true → ch.inScope name stack = true →
    ∃ job ∈ jobs, job.channel = ch.name ∧ job.channelURL = ch.url ∧ categorize job.event = category

/-- No channel wants the category and has the container in its scope. -/
def Unwanted (channels : List Channel) (category : Category) (name stack : String) : Prop :=
  ∀ ch ∈ channels, ch.receives category = true → ch.inScope name stack = false

variable {channels : List Channel} {category : Category} {name stack : String}

/-- The jobs of a notice go to the channels that want its category. -/
theorem jobsOf_eq {notice : Notification} (hcategory : categorize notice.eventType = category)
    (htarget : notice.target = name) (hstack : notice.stack = stack) :
    jobsOf channels notice = (channels.filter fun ch =>
      ch.receives category && ch.inScope name stack).map (jobFor notice) := by
  unfold jobsOf Channel.accepts
  rw [hcategory, htarget, hstack]

theorem told_jobsOf {notice : Notification} (hcategory : categorize notice.eventType = category)
    (htarget : notice.target = name) (hstack : notice.stack = stack) :
    Told channels category name stack (jobsOf channels notice) := by
  intro ch hch hreceives hscope
  rw [jobsOf_eq hcategory htarget hstack]
  refine ⟨jobFor notice ch, List.mem_map.mpr ⟨ch, List.mem_filter.mpr ⟨hch, ?_⟩, rfl⟩, rfl, rfl, hcategory⟩
  rw [hreceives, hscope]
  rfl

/-- Everybody was told if there was something said, or nobody to tell. -/
theorem told_iff {loud : Prop} [Decidable loud] {notices : List Notification}
    (h : if loud then ∃ notice : Notification, (categorize notice.eventType = category ∧
      notice.target = name ∧ notice.stack = stack) ∧ notices = [notice] else notices = []) :
    Told channels category name stack (notices.flatMap (jobsOf channels)) ↔
      loud ∨ Unwanted channels category name stack := by
  by_cases hloud : loud
  · rw [if_pos hloud] at h
    obtain ⟨notice, ⟨hcategory, htarget, hstack⟩, rfl⟩ := h
    rw [List.flatMap_singleton]
    exact iff_of_true (told_jobsOf hcategory htarget hstack) (.inl hloud)
  · rw [if_neg hloud] at h
    rw [h]
    constructor
    · intro htold
      refine .inr fun ch hch hreceives => ?_
      by_contra hscope
      obtain ⟨job, hjob, -⟩ := htold ch hch hreceives (by simpa using hscope)
      exact absurd hjob List.not_mem_nil
    · rintro (hloud' | hunwanted)
      · exact absurd hloud' hloud
      · intro ch hch hreceives hscope
        rw [hunwanted ch hch hreceives] at hscope
        exact absurd hscope Bool.false_ne_true

namespace Updater

variable {M : Machine Calls World}

/-- What a failed operation has said, by category. -/
theorem Announces.failure {kind succeeded : String} {category : Category} {before : InspectResponse}
    {k : Course} {err : GoError} (h : Announces kind before succeeded k (some err)) (herr : err ≠ .nilDereference)
    (hfailed : categorize (kind ++ ".failed") = category)
    (hrevert : categorize (kind ++ ".revert_failed") = category) :
    if k.Replaced then ∃ notice : Notification, (categorize notice.eventType = category ∧
        notice.target = trimSlash before.name ∧ notice.stack = stackOf before) ∧ k.notices = [notice]
    else k.notices = [] := by
  have hsaid := h herr
  by_cases hreplaced : k.Replaced
  · rw [if_pos hreplaced] at hsaid ⊢
    obtain ⟨notice, hreports, hnotices⟩ := hsaid
    refine ⟨notice, ⟨?_, hreports.target, hreports.stack⟩, hnotices⟩
    rcases hreports.eventType with htype | htype
    · rw [htype, hfailed]
    · rw [htype, hrevert]
  · rw [if_neg hreplaced] at hsaid ⊢
    exact hsaid

/-- A channel without filters. -/
def everything : Channel := { name := "ops", url := "ntfy://ntfy.example.com/doupro" }

/-- An update to a tag that no registry has. -/
def updateMissing : UpdateRequest := ⟨.request 0, "c0", "web:9", ⟨.user, "admin"⟩⟩

def missingRun : Played (Option GoError) := (update updateMissing).play webWorld fun _ => .undisturbed

/-- Some store call of the trace failed. -/
def StoreFailed (e : Event Calls World) : Prop :=
  match e with
  | ⟨_, .store _ _, .error _⟩ => True
  | _ => False

instance (e : Event Calls World) : Decidable (StoreFailed e) :=
  decidable_of_iff ((match e with
    | ⟨_, .store _ _, .error _⟩ => true
    | _ => false : Bool) = true) (by unfold StoreFailed; split <;> simp)

def revertedRun : Played (Option GoError) := (update updateWeb).play webWorld createFailsOnce

end Updater
end Doupro
