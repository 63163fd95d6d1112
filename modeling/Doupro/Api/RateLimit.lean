import Doupro.Accounts.Sessions
import Doupro.Go.Url
import Doupro.Table.Families

/-!
# The rate limiter of the sign-in

`rateLimiter`: windows of a fixed length for each client IP. A window opens with the first call
after the last one has ended, so the windows of a client lie anywhere, and an interval as long
as a window may meet two of them.
-/

namespace Doupro.Api

open Accounts Table

structure Bucket where
  /-- An `int`; as many calls as overflow it do not fit into a window. -/
  count : Int := 0
  windowEnds : Time
  deriving DecidableEq

structure RateLimiter where
  limit : Int
  window : Duration
  buckets : Text → Option Bucket

/-- `newRateLimiter`. -/
def newRateLimiter (limit : Int) (window : Duration) : RateLimiter where
  limit := limit
  window := window
  buckets := fun _ => none

/-- Whether a call opens a window: `!ok || now.After(b.windowEnds)`. -/
def opensWindow (now : Time) : Option Bucket → Bool
  | none => true
  | some b => b.windowEnds < now

/-- The bucket a call is counted in. -/
def countedIn (window : Duration) (now : Time) (bucket : Option Bucket) : Bucket :=
  match bucket with
  | none => { windowEnds := now + window }
  | some b => if opensWindow now (some b) then { windowEnds := now + window } else b

/-- `rateLimiter.allow`, called at `now`. -/
def RateLimiter.allow (l : RateLimiter) (now : Time) (key : Text) : RateLimiter × Bool :=
  let b := countedIn l.window now (l.buckets key)
  let b := { b with count := b.count + 1 }
  ({ l with buckets := Function.update l.buckets key (some b) }, b.count ≤ l.limit)

/-- The host of `net.SplitHostPort`, unless that fails. -/
def splitHost (hostport : Text) : Option Text :=
  match hostport with
  | '[' :: rest => match Text.cut ']' rest with
    | (host, some (':' :: port)) =>
      if ':' ∈ port ∨ '[' ∈ host ++ port ∨ ']' ∈ port then none else some host
    | _ => none
  | _ => match Text.cutLast ':' hostport with
    | none => none
    | some (host, port) =>
      if ':' ∈ host ∨ '[' ∈ host ++ port ∨ ']' ∈ host ++ port then none else some host

/-- `clientIP`. -/
def clientIP (remoteAddr : Text) : Text := (splitHost remoteAddr).getD remoteAddr

example : (["192.0.2.7:4711", "[2001:db8::1]:443", "@"].map fun addr =>
    String.ofList (clientIP addr.toList)) = ["192.0.2.7", "2001:db8::1", "@"] := by decide

/-- `rateLimiter.wrap`. -/
def RateLimiter.wrap (l : RateLimiter) (now : Time) (remoteAddr : Text)
    (next : SessionSQL AuthResponse) : RateLimiter × SessionSQL AuthResponse :=
  let (l, allowed) := l.allow now (clientIP remoteAddr)
  (l, if allowed then next
    else return .error 429 "rate_limited" "too many attempts, try again later")

/-- The `loginLimiter` of `RegisterRoutes`. -/
def loginLimiter : RateLimiter := newRateLimiter 5 (5 * minute)

/-! ### Runs -/

/-- How a call at some time went: whether it opened a window and what it was answered. -/
structure Verdict where
  time : Time
  opened : Bool
  allowed : Bool
  deriving DecidableEq

/-- A call of `allow`. -/
def RateLimiter.call (l : RateLimiter) (call : Text × Time) : RateLimiter × (Text × Verdict) :=
  let (next, allowed) := l.allow call.2 call.1
  (next, (call.1, ⟨call.2, opensWindow call.2 (l.buckets call.1), allowed⟩))

/-- How the calls of a run went, each under its key. -/
def RateLimiter.trace (l : RateLimiter) (calls : List (Text × Time)) : List (Text × Verdict) :=
  answers RateLimiter.call l calls

/-- How many calls were allowed from `a` to `b`. -/
def allowedWithin (a b : Time) (verdicts : List Verdict) : Nat :=
  verdicts.countP fun v => v.allowed && (a ≤ v.time && v.time ≤ b)

/-! ### The windows of one key -/

/-- A call, as the bucket of its key sees it. -/
def visit (limit : Int) (window : Duration) (bucket : Option Bucket) (now : Time) :
    Option Bucket × Verdict :=
  let b := countedIn window now bucket
  (some { b with count := b.count + 1 }, ⟨now, opensWindow now bucket, b.count + 1 ≤ limit⟩)

/-- The limiter is a family of buckets. -/
theorem trace_eq (l : RateLimiter) (calls : List (Text × Time)) :
    l.trace calls = answers (familyStep (visit l.limit l.window)) l.buckets calls := by
  apply answers_simulation (R := fun l' buckets =>
    l'.limit = l.limit ∧ l'.window = l.window ∧ l'.buckets = buckets)
  · rintro l' buckets ⟨hlimit, hwindow, rfl⟩ call
    rw [← hlimit, ← hwindow]
    exact ⟨⟨rfl, rfl, rfl⟩, rfl⟩
  · exact ⟨rfl, rfl, rfl⟩

theorem under_trace (l : RateLimiter) (calls : List (Text × Time)) (key : Text) :
    under key (l.trace calls) =
      answers (visit l.limit l.window) (l.buckets key) (under key calls) := by
  rw [trace_eq, under_answers]

section Windows

variable {limit : Int} {window : Duration} {bucket : Option Bucket} {a b now : Time}

/-- How many more calls a bucket allows before the next window. -/
def remaining (limit : Int) : Option Bucket → Nat
  | none => 0
  | some b => (limit - b.count).toNat

theorem countedIn_of_opens (h : opensWindow now bucket = true) :
    countedIn window now bucket = { windowEnds := now + window } := by
  cases bucket with
  | none => rfl
  | some b => simp [countedIn, h]

theorem countedIn_of_open {b : Bucket} (h : opensWindow now (some b) = false) :
    countedIn window now (some b) = b := by
  simp [countedIn, h]

/-- An allowed call takes one from what the limit leaves, from all of it where a window opens. -/
theorem visit_budget (limit : Int) (window : Duration) (bucket : Option Bucket) (now : Time) :
    (if (visit limit window bucket now).2.allowed then 1 else 0) +
        remaining limit (visit limit window bucket now).1 ≤
      if opensWindow now bucket then limit.toNat else remaining limit bucket := by
  by_cases h : opensWindow now bucket = true
  · simp only [visit, countedIn_of_opens h, remaining, h, if_true, decide_eq_true_eq]
    split <;> omega
  · rw [Bool.not_eq_true] at h
    cases bucket with
    | none => cases h
    | some b =>
      simp only [visit, countedIn_of_open h, remaining, h, decide_eq_true_eq, Bool.false_eq_true,
        if_false]
      split <;> omega

/-- A call that opens no window leaves its end. -/
theorem visit_of_open (limit : Int) (window : Duration) {b : Bucket}
    (h : opensWindow now (some b) = false) :
    ∃ count, (visit limit window (some b) now).1 = some ⟨count, b.windowEnds⟩ := by
  refine ⟨b.count + 1, ?_⟩
  simp [visit, countedIn_of_open h]

theorem visit_of_opens (limit : Int) (window : Duration) (h : opensWindow now bucket = true) :
    ∃ count, (visit limit window bucket now).1 = some ⟨count, now + window⟩ := by
  refine ⟨1, ?_⟩
  simp [visit, countedIn_of_opens h]

theorem time_answers (limit : Int) (window : Duration) (bucket : Option Bucket)
    (times : List Time) :
    (answers (visit limit window) bucket times).map Verdict.time = times := by
  induction times generalizing bucket with
  | nil => rfl
  | cons now times ih => rw [answers_cons, List.map_cons, ih]; rfl

/-- Nothing is allowed in an interval that ends before the calls. -/
theorem allowedWithin_eq_zero {times : List Time} (hlate : ∀ t ∈ times, b < t) :
    allowedWithin a b (answers (visit limit window) bucket times) = 0 := by
  refine List.countP_eq_zero.mpr fun v hv => ?_
  have htime : v.time ∈ times := by
    rw [← time_answers limit window bucket times]
    exact List.mem_map_of_mem hv
  have hb := hlate v.time htime
  simp only [Bool.and_eq_true, decide_eq_true_eq]
  rintro ⟨-, -, hle⟩
  exact not_le.mpr hb hle

/-- A call adds to what is allowed in an interval at most itself. -/
theorem allowedWithin_cons_le (limit : Int) (window : Duration) (bucket : Option Bucket)
    (a b now : Time) (times : List Time) :
    allowedWithin a b (answers (visit limit window) bucket (now :: times)) ≤
      allowedWithin a b (answers (visit limit window) (visit limit window bucket now).1 times) +
        if (visit limit window bucket now).2.allowed then 1 else 0 := by
  rw [answers_cons, allowedWithin, List.countP_cons]
  refine Nat.add_le_add_left ?_ _
  by_cases h : (visit limit window bucket now).2.allowed = true
  · rw [if_pos h]
    split <;> simp
  · simp [h]

/-- A call out of an interval adds nothing. -/
theorem allowedWithin_cons_of_before {times : List Time} (h : now < a) :
    allowedWithin a b (answers (visit limit window) bucket (now :: times)) =
      allowedWithin a b (answers (visit limit window) (visit limit window bucket now).1 times) := by
  have hout : ¬ a ≤ (visit limit window bucket now).2.time := not_le.mpr h
  rw [answers_cons, allowedWithin, List.countP_cons, if_neg (by simp [hout])]
  rfl

/-- In an interval that ends no later than the window, a key has the rest of its limit. -/
theorem allowedWithin_of_window {times : List Time} (hsorted : times.Pairwise (· ≤ ·)) {c : Bucket}
    (hends : b ≤ c.windowEnds) :
    allowedWithin a b (answers (visit limit window) (some c) times) ≤ remaining limit (some c) := by
  induction times generalizing c with
  | nil => exact Nat.zero_le _
  | cons now times ih =>
    obtain ⟨hfirst, hsorted⟩ := List.pairwise_cons.mp hsorted
    by_cases hnow : now ≤ b
    · have hopen : opensWindow now (some c) = false := by
        simp only [opensWindow, decide_eq_false_iff_not, not_lt]
        exact hnow.trans hends
      obtain ⟨count, hnext⟩ := visit_of_open limit window hopen
      have hrest := ih hsorted (c := ⟨count, c.windowEnds⟩) hends
      have hcons := allowedWithin_cons_le limit window (some c) a b now times
      have hbudget := visit_budget limit window (some c) now
      rw [hnext] at hcons hbudget
      rw [if_neg (Bool.eq_false_iff.mp hopen)] at hbudget
      omega
    · rw [not_le] at hnow
      have hlate : ∀ t ∈ now :: times, b < t := by
        intro t ht
        rcases List.mem_cons.mp ht with rfl | ht
        · exact hnow
        · exact hnow.trans_le (hfirst t ht)
      rw [allowedWithin_eq_zero hlate]
      exact Nat.zero_le _

/-- In an interval no longer than a window, a key has the rest of its limit and, where a window
opens in the interval, the limit once more: that window does not end before the interval. -/
theorem allowedWithin_of_start {times : List Time} (hsorted : times.Pairwise (· ≤ ·))
    (hstart : ∀ t ∈ times, a ≤ t) (hlength : b - a ≤ window) :
    allowedWithin a b (answers (visit limit window) bucket times) ≤
      remaining limit bucket + limit.toNat := by
  induction times generalizing bucket with
  | nil => exact Nat.zero_le _
  | cons now times ih =>
    obtain ⟨hfirst, hsorted'⟩ := List.pairwise_cons.mp hsorted
    have hcons := allowedWithin_cons_le limit window bucket a b now times
    have hbudget := visit_budget limit window bucket now
    by_cases hopens : opensWindow now bucket = true
    · obtain ⟨count, hnext⟩ := visit_of_opens limit window hopens
      have hends : b ≤ now + window := by
        calc b ≤ a + window := Int.le_add_of_sub_left_le hlength
          _ ≤ now + window := Int.add_le_add_right (hstart now List.mem_cons_self) window
      rw [hnext] at hcons hbudget
      have hrest : allowedWithin a b
          (answers (visit limit window) (some ⟨count, now + window⟩) times) ≤
            remaining limit (some ⟨count, now + window⟩) :=
        allowedWithin_of_window hsorted' hends
      rw [if_pos hopens] at hbudget
      omega
    · have hrest : allowedWithin a b
          (answers (visit limit window) (visit limit window bucket now).1 times) ≤
            remaining limit (visit limit window bucket now).1 + limit.toNat :=
        ih hsorted' fun t ht => hstart t (List.mem_cons_of_mem now ht)
      rw [if_neg hopens] at hbudget
      omega

/-- The call that opens a window is one of those that its limit allows. -/
theorem remaining_visit_le (now : Time) :
    remaining limit (visit limit window bucket now).1 ≤
      max (remaining limit bucket) (limit.toNat - 1) := by
  by_cases h : opensWindow now bucket = true
  · simp only [visit, countedIn_of_opens h, remaining]
    omega
  · have hbudget := visit_budget limit window bucket now
    rw [if_neg h] at hbudget
    omega

/-- An interval no longer than a window does not hold both the opening of a window and calls of the
next one. -/
theorem allowedWithin_le {times : List Time} (hsorted : times.Pairwise (· ≤ ·))
    (hlength : b - a ≤ window) (hbucket : remaining limit bucket ≤ limit.toNat - 1) :
    allowedWithin a b (answers (visit limit window) bucket times) ≤ 2 * limit.toNat - 1 := by
  induction times generalizing bucket with
  | nil => exact Nat.zero_le _
  | cons now times ih =>
    obtain ⟨hfirst, hsorted'⟩ := List.pairwise_cons.mp hsorted
    by_cases hnow : now < a
    · rw [allowedWithin_cons_of_before hnow]
      refine ih hsorted' ((remaining_visit_le now).trans ?_)
      exact max_le hbucket le_rfl
    · rw [not_lt] at hnow
      have hstart : ∀ t ∈ now :: times, a ≤ t := by
        intro t ht
        rcases List.mem_cons.mp ht with rfl | ht
        · exact hnow
        · exact hnow.trans (hfirst t ht)
      have hle : allowedWithin a b (answers (visit limit window) bucket (now :: times)) ≤
          remaining limit bucket + limit.toNat := allowedWithin_of_start hsorted hstart hlength
      omega

/-- While no window opens, a key has the rest of its limit. -/
theorem allowed_of_open {times : List Time}
    (hopen : ∀ v ∈ answers (visit limit window) bucket times, v.opened = false) :
    (answers (visit limit window) bucket times).countP Verdict.allowed ≤
      remaining limit bucket := by
  induction times generalizing bucket with
  | nil => exact Nat.zero_le _
  | cons now times ih =>
    rw [answers_cons] at hopen ⊢
    have hfirst : opensWindow now bucket = false := hopen _ List.mem_cons_self
    have hrest : (answers (visit limit window) (visit limit window bucket now).1 times).countP
        Verdict.allowed ≤ remaining limit (visit limit window bucket now).1 :=
      ih fun v hv => hopen v (List.mem_cons_of_mem _ hv)
    have hbudget := visit_budget limit window bucket now
    rw [if_neg (Bool.eq_false_iff.mp hfirst)] at hbudget
    rw [List.countP_cons]
    omega

/-- From a window's opening to the next one a key has its limit. -/
theorem allowed_of_opening {times : List Time} {opening : Verdict} {between later : List Verdict}
    (h : answers (visit limit window) bucket times = opening :: (between ++ later))
    (hopening : opening.opened = true) (hbetween : ∀ v ∈ between, v.opened = false) :
    (opening :: between).countP Verdict.allowed ≤ limit.toNat := by
  cases times with
  | nil => cases h
  | cons now times =>
    rw [answers_cons] at h
    obtain ⟨rfl, hrest⟩ := List.cons.inj h
    obtain ⟨before, rest, -, rfl, -⟩ := answers_eq_append hrest
    have hopens : opensWindow now bucket = true := hopening
    have hcount := allowed_of_open hbetween
    have hbudget := visit_budget limit window bucket now
    rw [if_pos hopens] at hbudget
    rw [List.countP_cons]
    omega

end Windows

/-! ### Runs of the limiter -/

/-- The calls come at non-decreasing times. -/
def InOrder (calls : List (Text × Time)) : Prop := calls.Pairwise fun c d => c.2 ≤ d.2

instance (calls : List (Text × Time)) : Decidable (InOrder calls) :=
  inferInstanceAs (Decidable (calls.Pairwise _))

theorem InOrder.under {calls : List (Text × Time)} (h : InOrder calls) (key : Text) :
    (under key calls).Pairwise (· ≤ ·) :=
  (List.pairwise_map.mpr h).sublist (under_sublist_map key calls)

/-- In a closed interval no longer than a window a key is allowed less than twice its limit. -/
theorem newRateLimiter_allowedWithin (limit : Int) {window : Duration} {calls : List (Text × Time)}
    (h : InOrder calls) (key : Text) {a b : Time} (hlength : b - a ≤ window) :
    allowedWithin a b (under key ((newRateLimiter limit window).trace calls)) ≤
      2 * limit.toNat - 1 := by
  rw [under_trace]
  exact allowedWithin_le (h.under key) hlength (Nat.zero_le _)

/-- What a new limiter does with calls in order of time, from any clients: a key is allowed at
most twice the limit in a closed interval no longer than a window, and the limit between two
openings of its windows, and its answers are the same whatever calls the other keys make. A limit
below zero allows nothing, like a limit of zero. -/
theorem rateLimiter_bounds (limit : Int) (window : Duration) {calls : List (Text × Time)}
    (h : InOrder calls) (key : Text) :
    (∀ a b, b - a ≤ window →
      allowedWithin a b (under key ((newRateLimiter limit window).trace calls)) ≤
        2 * limit.toNat) ∧
    (∀ before opening between later,
      (newRateLimiter limit window).trace calls = before ++ (key, opening) :: (between ++ later) →
      opening.opened = true → (∀ v ∈ under key between, v.opened = false) →
      (opening :: under key between).countP Verdict.allowed ≤ limit.toNat) ∧
    (∀ others, under key others = under key calls →
      under key ((newRateLimiter limit window).trace others) =
        under key ((newRateLimiter limit window).trace calls)) := by
  refine ⟨?_, ?_, ?_⟩
  · intro a b hlength
    have hle := newRateLimiter_allowedWithin limit h key hlength
    omega
  · intro before opening between later htrace hopening hbetween
    have hkey := congrArg (under key) htrace
    rw [under_trace, under_append, under_cons, if_pos rfl, under_append] at hkey
    obtain ⟨earlier, times, -, -, htimes⟩ := answers_eq_append hkey
    exact allowed_of_opening htimes.symm hopening hbetween
  · intro others hothers
    rw [under_trace, under_trace, hothers]

/-- A client that calls late in one window and early in the next, and another one. -/
def straddling : List (Text × Time) :=
  [("a".toList, 0), ("b".toList, 3), ("a".toList, 10), ("a".toList, 11), ("a".toList, 12),
    ("a".toList, 13)]

theorem rateLimiter_bounds_straddling :
    InOrder straddling ∧
    allowedWithin 3 13 (under "a".toList ((newRateLimiter 2 10).trace straddling)) ≤ 4 := by
  have horder : InOrder straddling := by decide
  exact ⟨horder, (rateLimiter_bounds 2 10 horder "a".toList).1 3 13 (by decide)⟩

example : allowedWithin 3 13 (under "a".toList ((newRateLimiter 2 10).trace straddling)) = 3 := by
  decide

end Doupro.Api
