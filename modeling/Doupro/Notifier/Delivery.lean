import Doupro.Interaction.Threads
import Doupro.Notifier.Channels
import Doupro.Store.NotificationQueue
import Mathlib.Algebra.Group.Int.Defs
import Mathlib.Algebra.Group.Nat.Defs

/-!
# Delivery of notifications

The functions that put jobs into the queue, deliver them and bring dead ones back, statement by
statement. A process may end between any two calls; what it leased stays leased until the lease ends.
-/

namespace Doupro.Notifier

open Interaction Secrets

/-- `store.NotificationRecord`. -/
structure NotificationRecord where
  event : String
  target : String
  channel : String
  status : String
  error : String
  message : String
  deriving DecidableEq

inductive QueueCall where
  | now
  | channels
  | enqueue (now : Time) (job : NotificationJob)
  | claim (now : Time) (lease : Duration)
  | complete (id : Nat) (sentAt : Time)
  | fail (id : Nat) (retryAt : Time) (lastError : String) (dead : Bool)
  | retry (id : Nat) (now : Time)
  /-- `sendWithTimeout`. -/
  | send (channelURL : Bytes) (message : String)
  | insertNotification (record : NotificationRecord)
  | emit (event : LogEvent)

@[reducible] def QueueCall.Reply : QueueCall → Type
  | .now => Time
  | .channels => Except GoError (List Channel)
  | .enqueue _ _ => Except GoError Nat
  | .claim _ _ => Except GoError (Option NotificationJob)
  | .complete _ _ | .fail _ _ _ _ | .retry _ _ | .insertNotification _ => Except GoError Unit
  | .send _ _ => Option GoError
  | .emit _ => Unit

abbrev QueueCalls : Signature := ⟨QueueCall, QueueCall.Reply⟩

/-- A function over the queue. -/
abbrev Delivery (α : Type) := Program QueueCalls α

/-! ### Store functions -/

/-- `EnqueueNotification`. -/
def enqueueNotification (job : NotificationJob) : Delivery (Except GoError Nat) := do
  let now ← .request (S := QueueCalls) .now
  .request (S := QueueCalls) (.enqueue now job)

/-- `RetryNotification`. -/
def retryNotification (id : Nat) : Delivery (Except GoError Unit) := do
  let now ← .request (S := QueueCalls) .now
  .request (S := QueueCalls) (.retry id now)

/-! ### The notifier -/

/-- The durations of a `Notifier`, as `New` sets them. -/
structure Timing where
  lease : Duration := 2 * minute
  baseBackoff : Duration := minute
  maxBackoff : Duration := 60 * minute
  /-- What a float beyond the range of `int64` is converted to; it depends on the platform. -/
  outOfRange : Duration := -2 ^ 63

/-- `backoff`: a power of two times the base is exact in a float. -/
def Timing.backoff (n : Timing) (attempt : Nat) : Duration :=
  let nanos := n.baseBackoff * 2 ^ (attempt - 1)
  let d := if nanos < 2 ^ 63 then nanos else n.outOfRange
  if n.maxBackoff < d then n.maxBackoff else d

def queueEvent (level : Level) (kind target stack channel : String) (id : Nat) (message : String) :
    LogEvent where
  level
  type := kind
  container := target
  stack
  actor := .system
  message
  metadata := [("channel", .string channel), ("queue_id", .number id)]

/-- `Notifier.emit`. -/
def emitQueue (level : Level) (kind target stack channel : String) (id : Nat) (message : String) :
    Delivery Unit :=
  .request (S := QueueCalls) (.emit (queueEvent level kind target stack channel id message))

/-- The job `Notify` enqueues. -/
def NewJob.request (job : NewJob) : NotificationJob where
  event := job.event
  target := job.target
  stack := job.stack
  channel := job.channel
  channelURL := bytesOf job.channelURL
  message := job.message

/-- The loop of `Notify`. -/
def notifyChannels (notice : Notification) : List Channel → Delivery Unit
  | [] => return ()
  | ch :: rest => do
    if ch.accepts notice.eventType notice.target notice.stack then
      match ← enqueueNotification (jobFor notice ch).request with
      | .error err =>
        emitQueue .error "notification.enqueue_failed" notice.target notice.stack ch.name 0 err.message
        notifyChannels notice rest
      | .ok id =>
        emitQueue .info "notification.queued" notice.target notice.stack ch.name id "notification queued"
        notifyChannels notice rest
    else notifyChannels notice rest

/-- `Notifier.Notify`. -/
def notifyAll (notice : Notification) : Delivery Unit := do
  match ← .request (S := QueueCalls) .channels with
  | .error _ => return ()
  | .ok channels => notifyChannels notice channels

/-- The jobs a trace asks to enqueue. -/
def asked {W : Type} (trace : Trace QueueCalls W) : List NotificationJob :=
  trace.filterMap fun e => match e.op with
    | .enqueue _ job => some job
    | _ => none

theorem notifyChannels_asks {W : Type} {M : Machine QueueCalls W} {notice : Notification}
    {channels : List Channel} {trace : Trace QueueCalls W} {w w' : W}
    (h : M.Runs (notifyChannels notice channels) w trace () w') :
    asked trace = (jobsOf channels notice).map NewJob.request := by
  induction channels generalizing trace w with
  | nil =>
    obtain ⟨rfl, -, -⟩ := h
    rfl
  | cons ch rest ih =>
    unfold notifyChannels at h
    by_cases haccepts : ch.accepts notice.eventType notice.target notice.stack = true
    · rw [if_pos haccepts] at h
      obtain ⟨w₀, now, w₁, trace, -, -, rfl, h⟩ := h
      obtain ⟨w₂, r, w₃, trace, -, -, rfl, h⟩ := h
      have hrest : ∃ e tail w₄, trace = e :: tail ∧ asked (e :: tail) = asked tail ∧
          M.Runs (notifyChannels notice rest) w₄ tail () w' := by
        cases r with
        | error err =>
          obtain ⟨w₄, _, w₅, tail, -, -, rfl, h⟩ := h
          exact ⟨_, tail, w₅, rfl, rfl, h⟩
        | ok id =>
          obtain ⟨w₄, _, w₅, tail, -, -, rfl, h⟩ := h
          exact ⟨_, tail, w₅, rfl, rfl, h⟩
      obtain ⟨e, tail, w₄, rfl, hasked, hrun⟩ := hrest
      have hjobs : jobsOf (ch :: rest) notice = jobFor notice ch :: jobsOf rest notice := by
        simp [jobsOf, haccepts]
      have hfirst : asked (⟨w₀, .now, now⟩ :: ⟨w₂, .enqueue now (jobFor notice ch).request, r⟩ :: e :: tail) =
          (jobFor notice ch).request :: asked (e :: tail) := rfl
      rw [hfirst, hasked, ih hrun, hjobs, List.map_cons]
    · rw [if_neg haccepts] at h
      have hjobs : jobsOf (ch :: rest) notice = jobsOf rest notice := by
        simp [jobsOf, haccepts]
      rw [ih h, hjobs]

/-- `Notify` asks for the jobs of the notice, for the channels it has read. -/
theorem notify_enqueues {W : Type} {M : Machine QueueCalls W} {notice : Notification}
    {trace : Trace QueueCalls W} {w w' : W} (h : M.Runs (notifyAll notice) w trace () w') :
    ∃ w₀ channels rest, trace = ⟨w₀, .channels, channels⟩ :: rest ∧ asked rest =
      match channels with
      | .ok channels => (jobsOf channels notice).map NewJob.request
      | .error _ => [] := by
  obtain ⟨w₀, r, w₁, rest, -, -, rfl, h⟩ := h
  refine ⟨w₀, r, rest, rfl, ?_⟩
  cases r with
  | error err =>
    obtain ⟨rfl, -, -⟩ := h
    rfl
  | ok channels => exact notifyChannels_asks h

/-- The event and the entry of the delivery log that end a delivery. -/
def conclude (job : NotificationJob) (level : Level) (kind message status errText : String) :
    Delivery (Option GoError) := do
  emitQueue level kind job.target job.stack job.channel job.id message
  let _ ← .request (S := QueueCalls) (.insertNotification {
    event := job.event, target := job.target, channel := job.channel, status
    error := errText, message := job.message })
  return none

/-- What `deliverOne` does when the send has returned. -/
def settle (n : Timing) (job : NotificationJob) (sendErr : Option GoError) :
    Delivery (Option GoError) := do
  let now ← .request (S := QueueCalls) .now
  match sendErr with
  | none =>
    match ← .request (S := QueueCalls) (.complete job.id now) with
    | .error err => return some err
    | .ok () => conclude job .info "notification.sent" "notification delivered" "sent" ""
  | some err =>
    let errText := err.message
    let dead : Bool := job.maxAttempts ≤ job.attempts
    match ← .request (S := QueueCalls) (.fail job.id (now + n.backoff job.attempts) errText dead) with
    | .error err => return some err
    | .ok () =>
      if dead then conclude job .error "notification.dead_lettered" errText "failed" errText
      else conclude job .warn "notification.retry_scheduled" errText "failed" errText

/-- `Notifier.deliverOne`. -/
def deliverOne (n : Timing) : Delivery (Bool × Option GoError) := do
  let now ← .request (S := QueueCalls) .now
  match ← .request (S := QueueCalls) (.claim now n.lease) with
  | .error err => return (false, some err)
  | .ok none => return (false, none)
  | .ok (some job) =>
    let sendErr ← .request (S := QueueCalls) (.send job.channelURL job.message)
    let err ← settle n job sendErr
    return (true, err)

/-- What a goroutine does to the queue. The loop of `Run` is one delivery after another. -/
inductive Task where
  | enqueue (job : NotificationJob)
  | notify (notice : Notification)
  | deliver (n : Timing)
  | retry (id : Nat)

def Task.program : Task → Delivery Unit
  | .enqueue job => do
    let _ ← enqueueNotification job
    return ()
  | .notify notice => notifyAll notice
  | .deliver n => do
    let _ ← deliverOne n
    return ()
  | .retry id => do
    let _ ← retryNotification id
    return ()

/-! ### The machine -/

/-- The world's share of a call: what the clock shows, what the settings hold, which nonce is read,
whether the statement fails and how a send goes. -/
structure Share where
  now : Time := 0
  channels : Except GoError (List Channel) := .ok []
  random : Random := zeroNonces
  fault : Option String := none
  sent : Option GoError := none

/-- A statement that fails changes nothing. -/
def guarded {α : Type} (label : String) (fault : Option String) (q : NotificationQueue)
    (out : Except GoError α × NotificationQueue) : Except GoError α × NotificationQueue :=
  match fault with
  | some text => (.error (.wrap label (.external text)), q)
  | none => out

/-- A call, given the world's share. -/
def exec (A : AEAD) (q : NotificationQueue) (share : Share) : (op : QueueCall) → op.Reply × NotificationQueue
  | .now => (share.now, q)
  | .channels => (share.channels, q)
  | .enqueue now job =>
    guarded "enqueue notification" share.fault q (q.enqueue (some A) share.random now job)
  | .claim now lease => guarded "claim notification" share.fault q (q.claim (some A) now lease)
  | .complete id sentAt => guarded "complete notification" share.fault q (q.complete id sentAt)
  | .fail id retryAt lastError dead =>
    guarded "fail notification" share.fault q (q.fail id retryAt lastError dead)
  | .retry id now => guarded "retry dead-letter notification" share.fault q (q.retry id now)
  | .send _ _ => (share.sent, q)
  | .insertNotification _ =>
    (match share.fault with
      | some text => .error (.wrap "insert notification" (.external text))
      | none => .ok (), q)
  | .emit _ => ((), q)

/-- The database under one key. Between two calls nobody else writes to the queue. -/
def database (A : AEAD) : Machine QueueCalls NotificationQueue where
  rely q q' := q' = q
  step q op r q' := ∃ share, exec A q share op = (r, q')

/-! ### What a call does -/

/-- The row a claim has leased: the one it returned, or the one whose destination it could not read. -/
def leasedID (q : NotificationQueue) (now : Time) : Except GoError (Option NotificationJob) → Option Nat
  | .ok (some job) => some job.id
  | .error (.wrap _ (.wrap _ _)) => (q.next now).map NotificationJob.id
  | _ => none

/-- A reply after which the queue is as it was. -/
def Idle (q : NotificationQueue) : (op : QueueCall) → op.Reply → Prop
  | .enqueue _ _, r => ∀ id, r ≠ .ok id
  | .claim now _, r => leasedID q now r = none
  | .complete _ _, r | .fail _ _ _ _, r | .retry _ _, r => r ≠ .ok ()
  | .now, _ | .channels, _ | .send _ _, _ | .insertNotification _, _ | .emit _, _ => True

inductive Effect (A : AEAD) (q : NotificationQueue) : (op : QueueCall) → op.Reply → NotificationQueue → Prop
  | idle {op : QueueCall} {r : op.Reply} (h : Idle q op r) : Effect A q op r q
  | inserted {random : Random} {now : Time} {job : NotificationJob} {stored : Bytes}
    (h : encryptSecret (some A) random job.channelURL = .ok stored) :
    Effect A q (.enqueue now job) (.ok (q.seq + 1))
      { rows := q.rows ++ [job.inserted (q.seq + 1) stored now], seq := q.seq + 1 }
  | leased {now : Time} {lease : Duration} {row : NotificationJob}
    {r : Except GoError (Option NotificationJob)} (hnext : q.next now = some row)
    (hread : ∀ job, r = .ok (some job) → ∃ url, decryptSecret (some A) row.channelURL = .ok url ∧
      job = { row.leased (now + lease) with channelURL := url })
    (hid : leasedID q now r = some row.id) :
    Effect A q (.claim now lease) r { q with
      rows := Table.updateWhere (fun job => decide (job.id = row.id))
        (NotificationJob.leased (now + lease)) q.rows }
  | completed {id : Nat} {sentAt : Time} (h : q.inState id .processing = true) :
    Effect A q (.complete id sentAt) (.ok ()) (q.update id .processing (NotificationJob.completed sentAt))
  | failed {id : Nat} {retryAt : Time} {lastError : String} {dead : Bool}
    (h : q.inState id .processing = true) : Effect A q (.fail id retryAt lastError dead) (.ok ())
      (q.update id .processing (NotificationJob.failed retryAt lastError dead))
  | retried {id : Nat} {now : Time} (h : q.inState id .deadLetter = true) :
    Effect A q (.retry id now) (.ok ()) (q.update id .deadLetter (NotificationJob.retried now))

theorem transition_effect {q q' : NotificationQueue} (h : q.Numbered) {action : String} {id : Nat}
    {status : JobStatus} {f : NotificationJob → NotificationJob} {r : Except GoError Unit}
    {fault : Option String} {label : String}
    (hstep : guarded label fault q (q.transition action id status f) = (r, q')) :
    (r ≠ .ok () ∧ q' = q) ∨ (q.inState id status = true ∧ r = .ok () ∧ q' = q.update id status f) := by
  cases fault with
  | some text =>
    obtain ⟨rfl, rfl⟩ := Prod.mk.inj hstep
    exact .inl ⟨nofun, rfl⟩
  | none =>
    obtain ⟨hr, rfl⟩ := Prod.mk.inj hstep
    cases hstate : q.inState id status with
    | false =>
      rw [hstate] at hr
      subst hr
      exact .inl ⟨nofun, h.update_of_not_inState f hstate⟩
    | true =>
      rw [hstate] at hr
      exact .inr ⟨rfl, hr.symm, rfl⟩

theorem claim_effect {A : AEAD} {q q' : NotificationQueue} {now : Time} {lease : Duration}
    {r : Except GoError (Option NotificationJob)} (h : q.claim (some A) now lease = (r, q')) :
    Effect A q (.claim now lease) r q' := by
  unfold NotificationQueue.claim at h
  cases hnext : q.next now with
  | none =>
    rw [hnext] at h
    obtain ⟨rfl, rfl⟩ := Prod.mk.inj h
    exact .idle rfl
  | some row =>
    simp only [hnext, NotificationQueue.scan] at h
    cases hplain : decryptSecret (some A) (row.leased (now + lease)).channelURL with
    | error err =>
      simp only [hplain] at h
      obtain ⟨rfl, rfl⟩ := Prod.mk.inj h
      exact .leased hnext (fun _ h => by cases h) (by simp [leasedID, hnext])
    | ok url =>
      simp only [hplain] at h
      obtain ⟨rfl, rfl⟩ := Prod.mk.inj h
      refine .leased hnext (fun job h => ?_) rfl
      cases h
      exact ⟨url, hplain, rfl⟩

/-- Every call has one of the effects. -/
theorem database_effect {A : AEAD} {q q' : NotificationQueue} (hq : q.Numbered) {op : QueueCall}
    {r : op.Reply} (h : (database A).step q op r q') : Effect A q op r q' := by
  obtain ⟨share, hexec⟩ := h
  cases op with
  | now | channels | send _ _ | insertNotification _ | emit _ =>
    obtain ⟨rfl, rfl⟩ := Prod.mk.inj hexec
    exact .idle trivial
  | enqueue now job =>
    cases hfault : share.fault with
    | some text =>
      simp only [exec, guarded, hfault] at hexec
      obtain ⟨rfl, rfl⟩ := Prod.mk.inj hexec
      exact .idle nofun
    | none =>
      simp only [exec, guarded, hfault, NotificationQueue.enqueue] at hexec
      cases hstored : encryptSecret (some A) share.random job.channelURL with
      | error err =>
        simp only [hstored] at hexec
        obtain ⟨rfl, rfl⟩ := Prod.mk.inj hexec
        exact .idle nofun
      | ok stored =>
        simp only [hstored] at hexec
        obtain ⟨rfl, rfl⟩ := Prod.mk.inj hexec
        exact .inserted hstored
  | claim now lease =>
    cases hfault : share.fault with
    | some text =>
      simp only [exec, guarded, hfault] at hexec
      obtain ⟨rfl, rfl⟩ := Prod.mk.inj hexec
      exact .idle rfl
    | none =>
      simp only [exec, guarded, hfault] at hexec
      exact claim_effect hexec
  | complete id sentAt =>
    rcases transition_effect hq hexec with ⟨hr, rfl⟩ | ⟨hstate, rfl, rfl⟩
    · exact .idle hr
    · exact .completed hstate
  | fail id retryAt lastError dead =>
    rcases transition_effect hq hexec with ⟨hr, rfl⟩ | ⟨hstate, rfl, rfl⟩
    · exact .idle hr
    · exact .failed hstate
  | retry id now =>
    rcases transition_effect hq hexec with ⟨hr, rfl⟩ | ⟨hstate, rfl, rfl⟩
    · exact .idle hr
    · exact .retried hstate

theorem Effect.numbered {A : AEAD} {q q' : NotificationQueue} {op : QueueCall} {r : op.Reply}
    (h : Effect A q op r q') (hq : q.Numbered) : q'.Numbered := by
  cases h with
  | idle => exact hq
  | inserted => exact hq.insert _ rfl
  | leased | completed | failed | retried => exact hq.updateWhere _ fun _ => rfl

end Doupro.Notifier
