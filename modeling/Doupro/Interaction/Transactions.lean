import Doupro.Interaction.Layers

/-!
# Statements that may fail, and transactions

A transaction runs its statements on a copy of the data. A statement may fail and then does nothing;
a commit puts the copy in the place of the data, or fails and leaves them alone.
-/

namespace Doupro.Interaction

variable {Op : Type} {Answer : Op → Type} {ε W α : Type}

/-- Calls each of which may fail. -/
abbrev Fallible (Answer : Op → Type) (ε : Type) : Signature := ⟨Op, fun op => Except ε (Answer op)⟩

/-- Calls that do what a relation says, or fail. Nothing happens between two of them. -/
def Machine.fallible (ε : Type) (effect : W → (op : Op) → Answer op → W → Prop)
    (failed : W → Op → W := fun w _ => w) : Machine (Fallible Answer ε) W where
  rely w w' := w' = w
  step w op r w' := (∃ err, r = .error err ∧ w' = failed w op) ∨ ∃ a, r = .ok a ∧ effect w op a w'

/-- Every call of a trace succeeds. -/
def AllOk (trace : Trace (Fallible Answer ε) W) : Prop := ∀ e ∈ trace, ∃ a, e.reply = .ok a

theorem not_allOk {trace : Trace (Fallible Answer ε) W} {e : Event (Fallible Answer ε) W} {err : ε}
    (he : e ∈ trace) (herror : e.reply = .error err) : ¬ AllOk trace := by
  intro hok
  obtain ⟨a, ha⟩ := hok e he
  rw [herror] at ha
  cases ha

namespace Machine

variable {effect : W → (op : Op) → Answer op → W → Prop} {failed : W → Op → W} {w w' : W}

theorem fallible_request {op : Op} {f : Except ε (Answer op) → Program (Fallible Answer ε) α}
    {trace : Trace (Fallible Answer ε) W} {a : α} :
    (fallible ε effect failed).Runs (.request op >>= f) w trace a w' ↔
      (∃ err rest, trace = ⟨w, op, .error err⟩ :: rest ∧
        (fallible ε effect failed).Runs (f (.error err)) (failed w op) rest a w') ∨
      ∃ b w₁ rest, trace = ⟨w, op, .ok b⟩ :: rest ∧ effect w op b w₁ ∧
        (fallible ε effect failed).Runs (f (.ok b)) w₁ rest a w' := by
  rw [runs_request_bind]
  constructor
  · rintro ⟨w₀, r, w₁, rest, hworld, hstep, rfl, hrest⟩
    obtain rfl : w₀ = w := hworld
    rcases hstep with ⟨err, rfl, rfl⟩ | ⟨b, rfl, heffect⟩
    · exact .inl ⟨err, rest, rfl, hrest⟩
    · exact .inr ⟨b, w₁, rest, rfl, heffect, hrest⟩
  · rintro (⟨err, rest, rfl, hrest⟩ | ⟨b, w₁, rest, rfl, heffect, hrest⟩)
    · exact ⟨w, .error err, failed w op, rest, rfl, .inl ⟨err, rfl, rfl⟩, rfl, hrest⟩
    · exact ⟨w, .ok b, w₁, rest, rfl, .inr ⟨b, rfl, heffect⟩, rfl, hrest⟩

/-- A call that succeeds at the start of a run. -/
theorem fallible_succeeds {op : Op} {f : Except ε (Answer op) → Program (Fallible Answer ε) α} {a : α}
    {b : Answer op} {w₁ : W} (heffect : effect w op b w₁)
    (h : ∃ rest, (fallible ε effect failed).Runs (f (.ok b)) w₁ rest a w') :
    ∃ trace, (fallible ε effect failed).Runs (.request op >>= f) w trace a w' :=
  ⟨_, fallible_request.mpr (.inr ⟨b, w₁, h.choose, rfl, heffect, h.choose_spec⟩)⟩

end Machine

/-! ### Transactions -/

inductive TransactionOp (Op : Type) where
  | begin
  | statement (op : Op)
  | commit
  | rollback

@[reducible] def TransactionOp.Result (Answer : Op → Type) : TransactionOp Op → Type
  | .begin | .commit | .rollback => Unit
  | .statement op => Answer op

abbrev Transactional (Answer : Op → Type) (ε : Type) : Signature :=
  Fallible (TransactionOp.Result Answer) ε

/-- The data, and the copy of the transaction that is under way. -/
structure Session (W : Type) where
  committed : W
  working : Option W := none

/-- What the calls of a transaction do if they succeed. -/
inductive SessionEffect (effect : W → (op : Op) → Answer op → W → Prop) : Session W →
    (op : TransactionOp Op) → op.Result Answer → Session W → Prop
  | begin (w : W) : SessionEffect effect ⟨w, none⟩ .begin () ⟨w, some w⟩
  | statement {w v v' : W} {op : Op} {a : Answer op} (h : effect v op a v') :
    SessionEffect effect ⟨w, some v⟩ (.statement op) a ⟨w, some v'⟩
  | commit (w v : W) : SessionEffect effect ⟨w, some v⟩ .commit () ⟨v, none⟩
  | rollback (s : Session W) : SessionEffect effect s .rollback () ⟨s.committed, none⟩

/-- A call that fails leaves the data, and a commit or a rollback ends the transaction either way. -/
def Session.failed (s : Session W) : TransactionOp Op → Session W
  | .begin | .statement _ => s
  | .commit | .rollback => ⟨s.committed, none⟩

/-- Data that one transaction at a time works on. -/
def Machine.transactional (ε : Type) (effect : W → (op : Op) → Answer op → W → Prop) :
    Machine (Transactional Answer ε) (Session W) :=
  .fallible ε (SessionEffect effect) Session.failed

/-- One statement of a transaction. -/
def statement (op : Op) : Program (Transactional Answer ε) (Except ε (Answer op)) :=
  .request (S := Transactional Answer ε) (.statement op)

/-- The rollback that a function defers, where it returns an error. -/
def rollback (err : ε) : Program (Transactional Answer ε) (Except ε α) := do
  let _ ← .request (S := Transactional Answer ε) .rollback
  return .error err

/-- A function that begins a transaction, defers its rollback and commits it at its end. -/
def transaction (beginError : ε → ε) (body : Program (Fallible Answer ε) (Except ε α)) :
    Program (Transactional Answer ε) (Except ε α) := do
  match ← .request (S := Transactional Answer ε) .begin with
  | .error err => return .error (beginError err)
  | .ok () => match ← body.expand statement with
    | .error err => rollback err
    | .ok a => match ← .request (S := Transactional Answer ε) .commit with
      | .error err => rollback err
      | .ok () => return .ok a

namespace Machine

variable {effect : W → (op : Op) → Answer op → W → Prop} {w v : W}
  {trace : Trace (Transactional Answer ε) (Session W)} {s s' : Session W}

/-- An event of a transaction. -/
def inTransaction (w : W) (e : Event (Fallible Answer ε) W) :
    Event (Transactional Answer ε) (Session W) :=
  ⟨⟨w, some e.world⟩, .statement e.op, e.reply⟩

theorem allOk_inTransaction {inner : Trace (Fallible Answer ε) W}
    (h : AllOk (inner.map (inTransaction w))) : AllOk inner :=
  fun _ he => h _ (List.mem_map_of_mem he)

/-- The statements of a transaction run on its copy as they would run on the data. -/
theorem runs_statements {p : Program (Fallible Answer ε) α} {a : α} :
    (transactional ε effect).Runs (p.expand statement) ⟨w, some v⟩ trace a s ↔
      ∃ inner v', (fallible ε effect).Runs p v inner a v' ∧ s = ⟨w, some v'⟩ ∧
        trace = inner.map (inTransaction w) := by
  induction p generalizing v trace with
  | ret b =>
    constructor
    · rintro ⟨rfl, rfl, rfl⟩
      exact ⟨[], v, ⟨rfl, rfl, rfl⟩, rfl, rfl⟩
    · rintro ⟨_, _, ⟨rfl, rfl, rfl⟩, rfl, rfl⟩
      exact ⟨rfl, rfl, rfl⟩
  | call op next ih =>
    constructor
    · intro h
      rcases fallible_request.mp h with ⟨err, rest, rfl, hrest⟩ | ⟨b, s₁, rest, rfl, heffect, hrest⟩
      · obtain ⟨inner, v', hinner, rfl, rfl⟩ := (ih (.error err)).mp hrest
        exact ⟨_, v', fallible_request.mpr (.inl ⟨err, inner, rfl, hinner⟩), rfl, rfl⟩
      · cases heffect with
        | statement heffect =>
          obtain ⟨inner, v', hinner, rfl, rfl⟩ := (ih (.ok b)).mp hrest
          exact ⟨_, v', fallible_request.mpr (.inr ⟨b, _, inner, rfl, heffect, hinner⟩), rfl, rfl⟩
    · rintro ⟨inner, v', h, rfl, rfl⟩
      rcases fallible_request.mp h with ⟨err, rest, rfl, hrest⟩ | ⟨b, v₁, rest, rfl, heffect, hrest⟩
      · exact fallible_request.mpr (.inl ⟨err, _, rfl, (ih (.error err)).mpr ⟨rest, v', hrest, rfl, rfl⟩⟩)
      · exact fallible_request.mpr (.inr ⟨b, _, _, rfl, .statement heffect,
          (ih (.ok b)).mpr ⟨rest, v', hrest, rfl, rfl⟩⟩)

theorem runs_rollback {err : ε} {out : Except ε α}
    (h : (transactional ε effect).Runs (rollback err) s trace out s') :
    out = .error err ∧ s' = ⟨s.committed, none⟩ := by
  rcases fallible_request.mp h with ⟨_, rest, rfl, -, rfl, rfl⟩ | ⟨_, _, rest, rfl, heffect, -, rfl, rfl⟩
  · exact ⟨rfl, rfl⟩
  · cases heffect
    exact ⟨rfl, rfl⟩

variable {beginError : ε → ε} {body : Program (Fallible Answer ε) (Except ε α)}

/-- A transaction ends with an error and the data it found, or with all it did. -/
theorem transaction_cases {out : Except ε α}
    (h : (transactional ε effect).Runs (transaction beginError body) ⟨w, none⟩ trace out s) :
    (∃ err, out = .error err ∧ s = ⟨w, none⟩ ∧ (AllOk trace → ∃ inner w',
      (fallible ε effect).Runs body w inner (.error err) w' ∧ AllOk inner)) ∨
    ∃ a w' inner, out = .ok a ∧ s = ⟨w', none⟩ ∧ (fallible ε effect).Runs body w inner (.ok a) w' := by
  rcases fallible_request.mp h with ⟨err, rest, rfl, -, rfl, rfl⟩ | ⟨_, _, rest, rfl, heffect, hrest⟩
  · exact .inl ⟨_, rfl, rfl, fun hok => absurd hok (not_allOk List.mem_cons_self rfl)⟩
  cases heffect
  obtain ⟨_, ended, _, last, hbody, hlast, rfl⟩ := runs_bind.mp hrest
  obtain ⟨inner, w', hinner, rfl, rfl⟩ := runs_statements.mp hbody
  cases ended with
  | error err =>
    obtain ⟨rfl, rfl⟩ := runs_rollback hlast
    refine .inl ⟨err, rfl, rfl, fun hok => ⟨inner, w', hinner, allOk_inTransaction (w := w) ?_⟩⟩
    exact fun e he => hok e (List.mem_cons_of_mem _ (List.mem_append_left _ he))
  | ok a =>
    rcases fallible_request.mp hlast with ⟨err, tail, rfl, htail⟩ | ⟨_, _, tail, rfl, heffect, -, rfl, rfl⟩
    · obtain ⟨rfl, rfl⟩ := runs_rollback htail
      refine .inl ⟨err, rfl, rfl, fun hok => absurd hok (not_allOk (List.mem_cons_of_mem _
        (List.mem_append_right _ List.mem_cons_self)) rfl)⟩
    · cases heffect
      exact .inr ⟨a, w', inner, rfl, rfl, hinner⟩

/-- A transaction whose statements all do their work can be committed. -/
theorem transaction_commits {a : α} {w' : W} {inner : Trace (Fallible Answer ε) W}
    (h : (fallible ε effect).Runs body w inner (.ok a) w') :
    ∃ trace, (transactional ε effect).Runs (transaction beginError body) ⟨w, none⟩ trace (.ok a)
      ⟨w', none⟩ := by
  let committed : Trace (Transactional Answer ε) (Session W) := [⟨⟨w, some w'⟩, .commit, .ok ()⟩]
  refine ⟨⟨⟨w, none⟩, .begin, .ok ()⟩ :: (inner.map (inTransaction w) ++ committed),
    fallible_request.mpr (.inr ⟨(), ⟨w, some w⟩, _, rfl, .begin w, runs_bind.mpr ⟨_, .ok a, _, committed,
      runs_statements.mpr ⟨inner, w', h, rfl, rfl⟩, ?_, rfl⟩⟩)⟩
  exact fallible_request.mpr (.inr ⟨(), ⟨w', none⟩, [], rfl, .commit w w', rfl, rfl, rfl⟩)

end Machine
end Doupro.Interaction
