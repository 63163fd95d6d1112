import Doupro.Events.Redaction
import Doupro.System.Calls

/-!
# The event logger

`Logger.Emit` hands the event to the sink and writes one line of JSON to stdout. What the
two outputs tell about a redacted value is settled at the end.
-/

namespace Doupro

namespace Level

/-- `slog.Level.String`. -/
def text : Level → String
  | .debug => "DEBUG"
  | .info => "INFO"
  | .warn => "WARN"
  | .error => "ERROR"

def rank : Level → Nat
  | .debug => 0
  | .info => 1
  | .warn => 2
  | .error => 3

end Level

def Actor.text : Actor → String
  | .system => "system"
  | .user => "user"
  | .schedule => "schedule"

/-- A row of `events`. -/
structure EventRow where
  timestamp : Time
  level : String
  event : String
  container : String
  stack : String
  fromVersion : String
  toVersion : String
  actor : String
  actorID : String
  requestID : String
  message : String
  metadata : String
  deriving DecidableEq

namespace Store

/-- `json.Marshal(e.Metadata)`. The empty list is the nil map. -/
def metadataJSON (metadata : List (String × Json)) : List Char :=
  if metadata = [] then ['n', 'u', 'l', 'l'] else Json.text .marshal (.object metadata)

/-- `Store.InsertEvent`: the row it writes, unless the statement fails. -/
def insertEvent (now : Time) (exec : Option GoError) (e : LogEvent) : Except GoError EventRow :=
  match exec with
  | some err => .error (.wrap "insert event" err)
  | none => .ok {
      timestamp := now
      level := e.level.text
      event := e.type
      container := e.container
      stack := e.stack
      fromVersion := e.fromVersion
      toVersion := e.toVersion
      actor := e.actor.text
      actorID := e.actorID
      requestID := e.requestID
      message := e.message
      metadata := String.ofList (metadataJSON e.metadata) }

end Store

namespace Events

/-- The order in which a `range` loop visits a map. -/
structure MapRange where
  visit : List (String × Json) → List (String × Json)
  perm : ∀ m, (visit m).Perm m

structure Logger where
  /-- The handler's minimum level. -/
  level : Level
  /-- Whether `SetSink` was called. -/
  sink : Bool

/-- `Handler.Enabled`. -/
def Logger.enabled (l : Logger) (level : Level) : Bool := l.level.rank ≤ level.rank

/-- The value of an attribute in the handler's output. -/
def slogValue : Json → List Char
  | .string s => quote .slog s
  | value => Json.text .encoder value

def slogAttr (key : String) (value : Json) : List Char := quote .slog key ++ ':' :: slogValue value

/-- A string attribute that is left out at its zero value. -/
def optional (key value : String) : List (List Char) :=
  if value ≠ "" then [slogAttr key (.string value)] else []

/-- A line of `slog.JSONHandler`, in a process whose zone is UTC. -/
def slogLine (now : Time) (level : Level) (message : String) (attrs : List (List Char)) : List Char :=
  let time := quote .slog "time" ++ ':' :: '"' :: (now.rfc3339Nano ++ ['"'])
  '{' :: ([','].intercalate (time :: slogAttr "level" (.string level.text) ::
    slogAttr "msg" (.string message) :: attrs) ++ ['}'])

/-- The attributes of `Emit`. -/
def attrs (range : MapRange) (e : LogEvent) : List (List Char) :=
  slogAttr "event" (.string e.type) :: (optional "container" e.container ++
    optional "stack" e.stack ++ optional "from_version" e.fromVersion ++
    optional "to_version" e.toVersion ++ optional "actor" e.actor.text ++
    optional "actor_id" e.actorID ++ optional "request_id" e.requestID ++
    (range.visit (redact e.metadata)).map fun (key, value) => slogAttr ("metadata." ++ key) value)

/-- What one `Emit` leaves on stdout and in the events table. -/
structure Output where
  lines : List (List Char)
  rows : List EventRow
  deriving DecidableEq

/-- `Logger.Emit`. The sink reads the clock at `inserted`, the handler at `logged`. -/
def emit (l : Logger) (range : MapRange) (inserted logged : Time) (exec : Option GoError)
    (e : LogEvent) : Output :=
  let line := if l.enabled e.level then [slogLine logged e.level e.message (attrs range e)] else []
  if l.sink then
    match Store.insertEvent inserted exec e with
    | .ok row => ⟨line, [row]⟩
    | .error err => ⟨slogLine logged .error "failed to persist event"
        [slogAttr "error" (.string err.message)] :: line, []⟩
  else ⟨line, []⟩

/-- Two events that differ only in metadata values under redacted keys. -/
structure SameButRedacted (e e' : LogEvent) : Prop where
  rest : e' = { e with metadata := e'.metadata }
  metadata : Agree e.metadata e'.metadata

/-- The outputs tell nothing about the values the event holds under redacted keys: any
values there give the same line and the same row. -/
def Confines (l : Logger) (e : LogEvent) : Prop :=
  ∀ e', SameButRedacted e e' → ∀ range inserted logged exec,
    emit l range inserted logged exec e' = emit l range inserted logged exec e

/-- The event with one text under every redacted key. -/
def overwriteEvent (filler : String) (e : LogEvent) : LogEvent :=
  { e with metadata := overwriteFields (.string filler) e.metadata }

theorem sameButRedacted_overwriteEvent (filler : String) (e : LogEvent) :
    SameButRedacted e (overwriteEvent filler e) := ⟨rfl, agree_overwriteFields _ _⟩

/-- A text longer than a given one. -/
def longer (text : List Char) : String := String.ofList (text ++ [' '])

theorem longer_length (text : List Char) : (longer text).toList.length = text.length + 1 := by
  simp [longer]

/-- A filler longer than the stored metadata cannot be in it. -/
theorem insertEvent_shows {e : LogEvent} (now : Time) (h : clearFields e.metadata = false) :
    ∃ filler, Store.insertEvent now none (overwriteEvent filler e) ≠
      Store.insertEvent now none e := by
  refine ⟨longer (Store.metadataJSON e.metadata), fun heq => ?_⟩
  simp only [Store.insertEvent, Except.ok.injEq, EventRow.mk.injEq, overwriteEvent, true_and,
    String.ofList_inj] at heq
  obtain ⟨key, value, hmem, hlen⟩ :=
    length_overwriteFields .marshal (longer (Store.metadataJSON e.metadata)) h
  rw [← heq, Store.metadataJSON, if_neg (List.ne_nil_of_mem hmem)] at hlen
  have hfield := Json.length_field_le (q := .marshal) hmem
  have hlonger := longer_length (Json.text .marshal
    (.object (overwriteFields (.string (longer (Store.metadataJSON e.metadata))) e.metadata)))
  omega

theorem slogValue_of_not_clear {value : Json} (h : clear value = false) :
    slogValue value = Json.text .encoder value := by
  cases value with
  | string s => simp [clear] at h
  | null | bool _ | number _ | array _ | object _ => rfl

/-- An attribute is no longer than its line. -/
theorem slogLine_length (now : Time) (level : Level) (message : String) {texts : List (List Char)}
    {text : List Char} (h : text ∈ texts) :
    text.length ≤ (slogLine now level message texts).length := by
  have hmem : text ∈ (quote .slog "time" ++ ':' :: '"' :: (now.rfc3339Nano ++ ['"'])) ::
      slogAttr "level" (.string level.text) :: slogAttr "msg" (.string message) :: texts := by
    simp [h]
  have hjoin := length_le_intercalate [','] hmem
  rw [slogLine, List.length_cons, List.length_append]
  omega

/-- A filler that `redact` does not reach and longer than the line cannot be in it. -/
theorem slogLine_shows {e : LogEvent} (range : MapRange) (now : Time)
    (h : shallow e.metadata = false) : ∃ filler,
    slogLine now e.level e.message (attrs range (overwriteEvent filler e)) ≠
      slogLine now e.level e.message (attrs range e) := by
  refine ⟨longer (slogLine now e.level e.message (attrs range e)), fun heq => ?_⟩
  obtain ⟨key, value, hmem, -, hclear, hlen⟩ := length_redact_overwrite .encoder
    (longer (slogLine now e.level e.message (attrs range e))) h
  have hattr : slogAttr ("metadata." ++ key) value ∈ attrs range
      (overwriteEvent (longer (slogLine now e.level e.message (attrs range e))) e) := by
    refine List.mem_cons_of_mem _ (List.mem_append_right _ ?_)
    exact List.mem_map.mpr ⟨(key, value), (range.perm _).mem_iff.mpr hmem, rfl⟩
  have hline := slogLine_length now e.level e.message hattr
  rw [heq] at hline
  have hvalue : (Json.text .encoder value).length ≤ (slogAttr ("metadata." ++ key) value).length := by
    rw [slogAttr, slogValue_of_not_clear hclear, List.length_append, List.length_cons]
    omega
  have hlonger := longer_length (slogLine now e.level e.message (attrs range e))
  omega

/-- The order of the listed entries. -/
def MapRange.listed : MapRange := ⟨id, fun _ => List.Perm.refl _⟩

/-- An event's redacted values stay hidden exactly when it has none that the sink stores and
none that `redact` does not reach on the line. -/
theorem emit_confines_iff (l : Logger) (e : LogEvent) :
    Confines l e ↔ (l.sink = true → clearFields e.metadata = true) ∧
      (l.enabled e.level = true → shallow e.metadata = true) := by
  constructor
  · intro h
    constructor
    · intro hsink
      by_contra hclear
      rw [Bool.not_eq_true] at hclear
      obtain ⟨filler, hne⟩ := insertEvent_shows 0 hclear
      have heq := h _ (sameButRedacted_overwriteEvent filler e) .listed 0 0 none
      simp only [emit, hsink, if_true, Store.insertEvent, Output.mk.injEq, List.cons.injEq] at heq
      exact hne (by simpa only [Store.insertEvent, Except.ok.injEq] using heq.2.1)
    · intro henabled
      by_contra hshallow
      rw [Bool.not_eq_true] at hshallow
      obtain ⟨filler, hne⟩ := slogLine_shows .listed 0 hshallow
      have heq := h _ (sameButRedacted_overwriteEvent filler e) .listed 0 0 none
      have hlevel : (overwriteEvent filler e).level = e.level := rfl
      have hmessage : (overwriteEvent filler e).message = e.message := rfl
      simp only [emit, Store.insertEvent, hlevel, hmessage, henabled, if_true] at heq
      refine hne ?_
      split at heq <;> simpa using congrArg Output.lines heq
  · rintro ⟨hsink, hline⟩ e' ⟨hrest, hagree⟩ range inserted logged exec
    have hlevel : e'.level = e.level := by rw [hrest]
    have hfields : l.enabled e.level = true → attrs range e' = attrs range e := by
      intro henabled
      rw [attrs, attrs, ← hagree.redact_eq (hline henabled), hrest]
    have hinsert : l.sink = true →
        Store.insertEvent inserted exec e' = Store.insertEvent inserted exec e := by
      intro h
      have hmetadata := hagree.eq_of_clear (hsink h)
      rw [hrest, ← hmetadata]
    have hmessage : e'.message = e.message := by rw [hrest]
    unfold emit
    rw [hlevel, hmessage]
    by_cases henabled : l.enabled e.level = true
    · rw [hfields henabled]
      by_cases h : l.sink = true
      · rw [hinsert h]
      · simp only [h, Bool.false_eq_true, if_false]
    · by_cases h : l.sink = true
      · rw [hinsert h]
        simp only [henabled, Bool.false_eq_true, if_false]
      · simp only [h, henabled, Bool.false_eq_true, if_false]

/-- A failed sign-in whose call site forgot to scrub the password. -/
def signIn (password : String) : LogEvent where
  level := .warn
  type := "auth.login_failed"
  actor := .user
  message := "sign-in failed"
  metadata := [("password", .string password)]

/-- The events page stores the password, while the line hides it. -/
theorem emit_persists_password :
    SameButRedacted (signIn "hunter2") (signIn "correct horse") ∧
    (emit ⟨.info, true⟩ .listed 0 0 none (signIn "correct horse")).rows ≠
      (emit ⟨.info, true⟩ .listed 0 0 none (signIn "hunter2")).rows ∧
    ¬ Confines ⟨.info, true⟩ (signIn "hunter2") := by
  have hsame : SameButRedacted (signIn "hunter2") (signIn "correct horse") :=
    ⟨rfl, agree_overwriteFields (.string "correct horse") _⟩
  have hrows : (emit ⟨.info, true⟩ .listed 0 0 none (signIn "correct horse")).rows ≠
      (emit ⟨.info, true⟩ .listed 0 0 none (signIn "hunter2")).rows := by decide +kernel
  exact ⟨hsame, hrows, fun h => hrows (congrArg Output.rows (h _ hsame .listed 0 0 none))⟩

end Events
end Doupro
