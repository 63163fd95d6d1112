import Doupro.Interaction.Transactions
import Doupro.Scheduler.FailedLookups
import Mathlib.Data.List.DropRight

/-!
# First detections

`ReplaceUpdateCandidates` is one transaction. Over any history of its calls the stored candidates of a
container are those of the last call, and each was detected when the calls began to agree on its image.
-/

namespace Doupro.Store.Candidates

open Interaction

inductive Statement where
  | upsert (containerID : String) (candidate : UpdateCandidate) (now : Time)
  | delete (containerID scope : String)

abbrev Statements : Signature := Fallible (fun _ : Statement => Unit) GoError

abbrev SQL (α : Type) := Program Statements α

/-- The loop over the candidates. -/
def upsertAll (containerID : String) (now : Time) : List UpdateCandidate → SQL (Except GoError Unit)
  | [] => return .ok ()
  | candidate :: rest => do
    match ← .request (S := Statements) (.upsert containerID candidate now) with
    | .error err => return .error (.wrap ("upsert " ++ candidate.scope ++ " update candidate") err)
    | .ok () => upsertAll containerID now rest

/-- The loop over the scopes. -/
def deleteUnwanted (containerID : String) (wanted : List String) :
    List String → SQL (Except GoError Unit)
  | [] => return .ok ()
  | scope :: rest =>
    if wanted.contains scope then deleteUnwanted containerID wanted rest
    else do
      match ← .request (S := Statements) (.delete containerID scope) with
      | .error err => return .error err
      | .ok () => deleteUnwanted containerID wanted rest

/-- What the transaction does before its commit. -/
def replace (containerID : String) (candidates : List UpdateCandidate) (now : Time) :
    SQL (Except GoError Unit) := do
  match ← upsertAll containerID now candidates with
  | .error err => return .error err
  | .ok () => deleteUnwanted containerID (candidates.map UpdateCandidate.scope) scopes

/-- `Store.ReplaceUpdateCandidates`. -/
def replaceUpdateCandidates (containerID : String) (candidates : List UpdateCandidate) (now : Time) :
    Program (Transactional (fun _ : Statement => Unit) GoError) (Except GoError Unit) :=
  transaction id (replace containerID candidates now)

/-- What a statement does where it succeeds. -/
inductive Effect : Store → Statement → Unit → Store → Prop
  | upsert (s : Store) (containerID : String) (candidate : UpdateCandidate) (now : Time) :
    Effect s (.upsert containerID candidate now) ()
      { s with candidates := upsertCandidate containerID now s.candidates candidate }
  | delete (s : Store) (containerID scope : String) :
    Effect s (.delete containerID scope) () { s with
      candidates := Table.deleteWhere
        (fun c => decide (c.containerID = containerID) && decide (c.scope = scope)) s.candidates }

abbrev tables : Machine Statements Store := .fallible GoError Effect

/-- The database of the store. -/
def database : Machine (Transactional (fun _ : Statement => Unit) GoError) (Session Store) :=
  .transactional GoError Effect

/-! ### One call -/

section Call

variable {s s' : Store} {containerID : String} {now : Time} {trace : Trace Statements Store}

theorem upsertAll_ok {candidates : List UpdateCandidate}
    (hrun : tables.Runs (upsertAll containerID now candidates) s trace (.ok ()) s') :
    s' = { s with candidates := candidates.foldl (upsertCandidate containerID now) s.candidates } := by
  induction candidates generalizing s trace with
  | nil => exact hrun.2.2
  | cons candidate rest ih =>
    rcases Machine.fallible_request.mp hrun with
      ⟨err, last, rfl, -, h, -⟩ | ⟨_, _, last, rfl, heffect, hrest⟩
    · cases h
    · cases heffect
      exact ih hrest

variable (containerID now) in
theorem upsertAll_run (s : Store) (candidates : List UpdateCandidate) :
    ∃ trace, tables.Runs (upsertAll containerID now candidates) s trace (.ok ())
      { s with candidates := candidates.foldl (upsertCandidate containerID now) s.candidates } := by
  induction candidates generalizing s with
  | nil => exact ⟨[], rfl, rfl, rfl⟩
  | cons candidate rest ih =>
    exact Machine.fallible_succeeds (.upsert s containerID candidate now) (ih _)

/-- The rows of a container left by the loop over some scopes. -/
def withoutScopes (containerID : String) (wanted scopes : List String) (rows : List UpdateCandidate) :
    List UpdateCandidate :=
  Table.deleteWhere (fun c => decide (c.containerID = containerID) &&
    (scopes.filter fun scope => !wanted.contains scope).contains c.scope) rows

theorem withoutScopes_cons {wanted rest : List String} {scope : String} (rows : List UpdateCandidate) :
    withoutScopes containerID wanted (scope :: rest) rows =
      withoutScopes containerID wanted rest (if wanted.contains scope then rows
        else Table.deleteWhere
          (fun c => decide (c.containerID = containerID) && decide (c.scope = scope)) rows) := by
  unfold withoutScopes Table.deleteWhere
  by_cases hwanted : wanted.contains scope = true
  · rw [if_pos hwanted, List.filter_cons_of_neg (by simpa using hwanted)]
  · rw [if_neg hwanted, List.filter_cons_of_pos (by simpa using hwanted), List.filter_filter]
    refine List.filter_congr fun c _ => ?_
    dsimp only
    rw [List.contains_cons]
    by_cases hid : c.containerID = containerID <;> by_cases hc : c.scope = scope <;>
      simp [hid, hc, beq_eq_decide]

theorem deleteUnwanted_ok {wanted scopes : List String}
    (hrun : tables.Runs (deleteUnwanted containerID wanted scopes) s trace (.ok ()) s') :
    s' = { s with candidates := withoutScopes containerID wanted scopes s.candidates } := by
  induction scopes generalizing s trace with
  | nil =>
    obtain rfl := hrun.2.2
    simp [withoutScopes, Table.deleteWhere]
  | cons scope rest ih =>
    rw [withoutScopes_cons]
    unfold deleteUnwanted at hrun
    split at hrun
    · next hwanted =>
      rw [if_pos hwanted]
      exact ih hrun
    · next hwanted =>
      rw [if_neg hwanted]
      rcases Machine.fallible_request.mp hrun with
        ⟨err, last, rfl, -, h, -⟩ | ⟨_, _, last, rfl, heffect, hrest⟩
      · cases h
      · cases heffect
        exact ih hrest

variable (containerID) in
theorem deleteUnwanted_run (s : Store) (wanted scopes : List String) :
    ∃ trace, tables.Runs (deleteUnwanted containerID wanted scopes) s trace (.ok ())
      { s with candidates := withoutScopes containerID wanted scopes s.candidates } := by
  induction scopes generalizing s with
  | nil => exact ⟨[], rfl, rfl, by simp [withoutScopes, Table.deleteWhere]⟩
  | cons scope rest ih =>
    rw [withoutScopes_cons]
    unfold deleteUnwanted
    split
    · exact ih s
    · exact Machine.fallible_succeeds (.delete s containerID scope) (ih _)

/-- The transaction does what the one statement on the store does. -/
theorem replace_ok {candidates : List UpdateCandidate}
    (hrun : tables.Runs (replace containerID candidates now) s trace (.ok ()) s') :
    s' = s.replaceUpdateCandidates containerID candidates now := by
  obtain ⟨_, upserted, s₁, rest, hupsert, hrest, rfl⟩ := Machine.runs_bind.mp hrun
  cases upserted with
  | error err => cases hrest.2.1
  | ok done =>
    obtain rfl := upsertAll_ok hupsert
    exact deleteUnwanted_ok hrest

variable (containerID now) in
theorem replace_run (s : Store) (candidates : List UpdateCandidate) :
    ∃ trace, tables.Runs (replace containerID candidates now) s trace (.ok ())
      (s.replaceUpdateCandidates containerID candidates now) := by
  obtain ⟨first, hfirst⟩ := upsertAll_run containerID now s candidates
  obtain ⟨rest, hrest⟩ := deleteUnwanted_run containerID
    { s with candidates := candidates.foldl (upsertCandidate containerID now) s.candidates }
    (candidates.map UpdateCandidate.scope) scopes
  exact ⟨first ++ rest, Machine.runs_bind.mpr ⟨first, .ok (), _, rest, hfirst, hrest, rfl⟩⟩

/-- The rows of a container. -/
def rowsOf (containerID : String) (s : Store) : List UpdateCandidate :=
  s.candidates.filter fun r => r.containerID = containerID

/-- Storing the candidates of a container leaves the rows of every other. -/
theorem rowsOf_replace {other : String} (hother : other ≠ containerID) (s : Store)
    (candidates : List UpdateCandidate) :
    rowsOf other (s.replaceUpdateCandidates containerID candidates now) = rowsOf other s := by
  have hmine : ∀ r : UpdateCandidate, r.containerID = containerID → ¬ r.containerID = other :=
    fun r hr heq => hother (heq.symm.trans hr)
  have hupserts (rows : List UpdateCandidate) :
      (candidates.foldl (upsertCandidate containerID now) rows).filter
        (fun r => r.containerID = other) = rows.filter fun r => r.containerID = other := by
    induction candidates generalizing rows with
    | nil => rfl
    | cons candidate rest ih =>
      rw [List.foldl_cons, ih]
      refine Table.filter_upsert (by simp [detectedRow, hother.symm]) (fun r hr => ?_) rows
      have hid : r.containerID = containerID := (Prod.mk.inj hr).1
      exact ⟨decide_eq_false (hmine r hid), by simp [redetectedRow, hother.symm]⟩
  refine (Table.filter_deleteWhere (fun r hr => ?_) _).trans (hupserts _)
  have hid : r.containerID = containerID := by
    simp only [Bool.and_eq_true, decide_eq_true_eq] at hr
    exact hr.1
  exact decide_eq_false (hmine r hid)

/-- A lookup reads the rows of its container. -/
theorem getUpdateCandidate_rowsOf (s : Store) (scope : String) :
    s.getUpdateCandidate containerID scope =
      (rowsOf containerID s).find? fun r => candidateKey r = (containerID, scope) := by
  unfold rowsOf
  rw [List.find?_filter]
  refine congrArg (fun p => List.find? p s.candidates) (funext fun r => ?_)
  unfold candidateKey
  by_cases hid : r.containerID = containerID <;> simp [hid]

end Call

/-! ### Histories of calls -/

structure Call where
  containerID : String
  candidates : List UpdateCandidate
  now : Time

namespace Call

def run (c : Call) : Program (Transactional (fun _ : Statement => Unit) GoError) (Except GoError Unit) :=
  replaceUpdateCandidates c.containerID c.candidates c.now

/-- What a call that succeeds makes of the store. -/
def apply (s : Store) (c : Call) : Store := s.replaceUpdateCandidates c.containerID c.candidates c.now

/-- The candidates have distinct scopes among patch, minor and major. -/
structure WellFormed (c : Call) : Prop where
  distinct : (c.candidates.map UpdateCandidate.scope).Nodup
  known : ∀ x ∈ c.candidates, x.scope ∈ scopes

/-- The call has a candidate of the scope with the image. -/
def offers (scope image : String) (c : Call) : Bool :=
  (candidateIn scope c.candidates).any fun x => x.image = image

end Call

/-- Calls in their order and what each of them returned. -/
inductive History (s₀ : Store) : List (Call × Except GoError Unit) → Session Store → Prop
  | start : History s₀ [] ⟨s₀, none⟩
  | call {history : List (Call × Except GoError Unit)} {before after : Session Store}
      (h : History s₀ history before) (c : Call) {trace} {out : Except GoError Unit}
      (hrun : database.Runs c.run before trace out after) : History s₀ (history ++ [(c, out)]) after

/-- The calls of a history that succeeded. -/
def succeeded (history : List (Call × Except GoError Unit)) : List Call :=
  (history.filter fun a => a.2.isOk).map Prod.fst

/-- What calls for one container leave of a scope: the candidate of the last, with the time of the
first of the last calls in a row to have it with the same image. -/
def recorded (calls : List Call) (scope : String) : Option UpdateCandidate := do
  let last ← calls.getLast?
  let candidate ← candidateIn scope last.candidates
  let first ← (calls.rtakeWhile (Call.offers scope candidate.image)).head?
  return { candidate with containerID := last.containerID, detectedAt := first.now }

theorem run_cases {s : Store} {c : Call} {trace} {out : Except GoError Unit} {after : Session Store}
    (hrun : database.Runs c.run ⟨s, none⟩ trace out after) :
    (∃ err, out = .error err ∧ after = ⟨s, none⟩) ∨ (out = .ok () ∧ after = ⟨c.apply s, none⟩) := by
  rcases Machine.transaction_cases hrun with ⟨err, rfl, rfl, -⟩ | ⟨_, s', inner, rfl, rfl, hbody⟩
  · exact .inl ⟨err, rfl, rfl⟩
  · obtain rfl := replace_ok hbody
    exact .inr ⟨rfl, rfl⟩

theorem run_succeeds (s : Store) (c : Call) :
    ∃ trace, database.Runs c.run ⟨s, none⟩ trace (.ok ()) ⟨c.apply s, none⟩ := by
  obtain ⟨inner, hinner⟩ := replace_run c.containerID c.now s c.candidates
  exact Machine.transaction_commits hinner

/-- A history ends where its calls that succeeded lead to. -/
theorem History.replay {s₀ : Store} {history : List (Call × Except GoError Unit)} {after : Session Store}
    (h : History s₀ history after) : after = ⟨(succeeded history).foldl Call.apply s₀, none⟩ := by
  induction h with
  | start => rfl
  | call h c hrun ih =>
    subst ih
    rcases run_cases hrun with ⟨err, rfl, rfl⟩ | ⟨rfl, rfl⟩
    · simp [succeeded, Except.isOk, Except.toBool]
    · simp [succeeded, Except.isOk, Except.toBool]

theorem recorded_concat (calls : List Call) (c : Call) (scope : String) :
    recorded (calls ++ [c]) scope = (candidateIn scope c.candidates).map fun x => { x with
      containerID := c.containerID
      detectedAt := ((calls.rtakeWhile (Call.offers scope x.image)).head?.map Call.now).getD c.now } := by
  unfold recorded
  cases hcandidate : candidateIn scope c.candidates with
  | none => simp [hcandidate]
  | some x =>
    have hoffers : Call.offers scope x.image c = true := by simp [Call.offers, hcandidate]
    simp [hcandidate, List.rtakeWhile_concat_pos _ calls c hoffers, List.head?_append]

/-- The row an upsert leaves of a scope goes on with what the calls before recorded. -/
theorem recorded_upsert (calls : List Call) (containerID scope : String) (now : Time)
    (x : UpdateCandidate) :
    (recorded calls scope).elim (detectedRow containerID now x) (redetectedRow containerID now x) =
      { x with
        containerID
        detectedAt := ((calls.rtakeWhile (Call.offers scope x.image)).head?.map Call.now).getD now } := by
  induction calls using List.reverseRecOn with
  | nil => rfl
  | append_singleton front last _ =>
    rw [recorded_concat, List.rtakeWhile_concat]
    cases hlast : candidateIn scope last.candidates with
    | none =>
      have hoffers : ¬ Call.offers scope x.image last = true := by simp [Call.offers, hlast]
      rw [if_neg hoffers]
      rfl
    | some y =>
      by_cases himage : y.image = x.image
      · have hoffers : Call.offers scope x.image last = true := by simp [Call.offers, hlast, himage]
        rw [if_pos hoffers]
        simp only [Option.map_some, Option.elim_some, redetectedRow, himage, if_true,
          List.head?_append, List.head?_cons]
        cases (front.rtakeWhile (Call.offers scope x.image)).head? <;> rfl
      · have hoffers : ¬ Call.offers scope x.image last = true := by simp [Call.offers, hlast, himage]
        rw [if_neg hoffers]
        simp [redetectedRow, himage]

theorem recorded_unknown {calls : List Call} (hwf : ∀ c ∈ calls, c.WellFormed) {scope : String}
    (hscope : scope ∉ scopes) : recorded calls scope = none := by
  cases hlast : calls.getLast? with
  | none => simp [recorded, hlast]
  | some last =>
    have hnone : candidateIn scope last.candidates = none := by
      rw [candidateIn, List.find?_eq_none]
      intro x hx heq
      exact hscope (of_decide_eq_true heq ▸
        (hwf last (List.mem_of_getLast? hlast)).known x hx)
    simp [recorded, hlast, hnone]

/-- Calls leave of a container what they are to record. -/
theorem getUpdateCandidate_replay {s₀ : Store} {containerID : String}
    (hnew : ∀ r ∈ s₀.candidates, r.containerID ≠ containerID) {calls : List Call}
    (hwf : ∀ c ∈ calls, c.WellFormed) (scope : String) :
    (calls.foldl Call.apply s₀).getUpdateCandidate containerID scope =
      recorded (calls.filter fun c => c.containerID = containerID) scope := by
  induction calls using List.reverseRecOn with
  | nil =>
    refine Table.lookup_eq_none.mpr fun r hr heq => hnew r hr ?_
    exact (Prod.mk.inj heq).1
  | append_singleton calls c ih =>
    have hcalls : ∀ c ∈ calls, c.WellFormed := fun c hc => hwf c (List.mem_append_left _ hc)
    have hc : c.WellFormed := hwf c (List.mem_append_right _ List.mem_cons_self)
    rw [List.foldl_append, List.filter_append]
    change (Call.apply (calls.foldl Call.apply s₀) c).getUpdateCandidate containerID scope = _
    by_cases hid : c.containerID = containerID
    · subst hid
      have hmine : [c].filter (fun other => other.containerID = c.containerID) = [c] := by simp
      have hbefore : ∀ other ∈ calls.filter fun other => other.containerID = c.containerID,
          other.WellFormed := fun other hother => hcalls other (List.mem_of_mem_filter hother)
      rw [hmine, recorded_concat, Call.apply, getUpdateCandidate_replace _ _ hc.distinct, ih hcalls]
      cases hx : candidateIn scope c.candidates with
      | none =>
        dsimp only
        split
        · rfl
        · next hscope => rw [recorded_unknown hbefore hscope]; rfl
      | some x =>
        dsimp only
        rw [recorded_upsert]
        rfl
    · have hother : [c].filter (fun other => other.containerID = containerID) = [] := by simp [hid]
      rw [hother, List.append_nil, ← ih hcalls, getUpdateCandidate_rowsOf, getUpdateCandidate_rowsOf,
        Call.apply, rowsOf_replace (Ne.symm hid)]

/-- After any history of calls the stored candidates of a container are those of the last that
succeeded, each detected when the calls began to agree on it; a call that fails changes nothing; and
no call changes the rows of another container. -/
theorem replaceUpdateCandidates_history {s₀ : Store} {history : List (Call × Except GoError Unit)}
    {after : Session Store} (h : History s₀ history after) (hwf : ∀ a ∈ history, a.1.WellFormed)
    {containerID : String} (hnew : ∀ r ∈ s₀.candidates, r.containerID ≠ containerID) :
    (∀ scope, after.committed.getUpdateCandidate containerID scope =
      recorded ((succeeded history).filter fun c => c.containerID = containerID) scope) ∧
    (∀ (c : Call) trace err last, database.Runs c.run after trace (.error err) last → last = after) ∧
    ∀ (c : Call) trace out last, database.Runs c.run after trace out last →
      ∀ other ≠ c.containerID, rowsOf other last.committed = rowsOf other after.committed := by
  obtain rfl := h.replay
  refine ⟨?_, fun c trace err last hrun => ?_, fun c trace out last hrun other hother => ?_⟩
  · refine getUpdateCandidate_replay hnew fun c hc => ?_
    obtain ⟨a, ha, rfl⟩ := List.mem_map.mp hc
    exact hwf a (List.mem_of_mem_filter ha)
  · rcases run_cases hrun with ⟨err, -, rfl⟩ | ⟨hok, -⟩
    · rfl
    · cases hok
  · rcases run_cases hrun with ⟨err, -, rfl⟩ | ⟨-, rfl⟩
    · rfl
    · exact rowsOf_replace hother _ _

/-- A check that finds a patch release. -/
def detection (now : Time) : Call where
  containerID := "id"
  candidates := [{
    containerID := ""
    scope := "patch"
    image := "app:1.2.4"
    version := "1.2.4"
    detectedAt := 0 }]
  now

theorem detection_wellFormed (now : Time) : (detection now).WellFormed :=
  ⟨by simp [detection], by simp [detection, scopes]⟩

/-- Two checks find the same release: it was detected by the first. -/
theorem replaceUpdateCandidates_history_twice : ∃ after : Session Store,
    History {} [(detection 1, .ok ()), (detection 2, .ok ())] after ∧
      (after.committed.getUpdateCandidate "id" "patch").map UpdateCandidate.detectedAt = some 1 := by
  obtain ⟨_, hfirst⟩ := run_succeeds {} (detection 1)
  obtain ⟨_, hsecond⟩ := run_succeeds ((detection 1).apply {}) (detection 2)
  have hhistory : History {} [(detection 1, .ok ()), (detection 2, .ok ())] _ :=
    .call (.call .start _ hfirst) _ hsecond
  refine ⟨_, hhistory, ?_⟩
  have hnew : ∀ r ∈ ({} : Store).candidates, r.containerID ≠ "id" := by simp
  have hrecorded := (replaceUpdateCandidates_history hhistory (by simp [detection_wellFormed]) hnew).1
    "patch"
  rw [hrecorded]
  rfl

end Doupro.Store.Candidates
