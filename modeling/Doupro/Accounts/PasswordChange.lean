import Doupro.Accounts.Sessions

/-!
# What a changed password revokes

Requests about sessions run beside each other in any number. A login that read the user before a
password change and inserts its session after the deletion of that change outlives it.
-/

namespace Doupro.Accounts

open Interaction

variable {ι : Type} [DecidableEq ι]

/-- An event of the session statements. -/
abbrev SessionEvent := Event SessionStatements Database

/-- Statements that insert no session. -/
def Sessionless : Statement → Prop
  | .insertSession _ => False
  | _ => True

/-- A request about sessions, or anything else that the daemon does with the account tables. -/
inductive SessionTask where
  | login (wantsJSON : Bool) (body : Option LoginRequest) (token csrfToken : Except GoError String)
    (now : Time)
  | oidcCallback (subject username : String) (token csrfToken : Except GoError String) (now : Time)
  | changePassword (sender : Sender) (body : Option ChangePasswordRequest)
    (hash : Except GoError String) (now : Time)
  | logout (wantsJSON : Bool) (cookie : Option String) (now : Time)
  | other (p : SQL Unit) (h : p.Uses Sessionless)

def SessionTask.run (auth : AuthPrimitives) : SessionTask → SessionSQL AuthResponse
  | .login wantsJSON body token csrfToken now => handleLogin auth wantsJSON body token csrfToken now
  | .oidcCallback subject username token csrfToken now =>
    handleOIDCCallback auth subject username token csrfToken now
  | .changePassword sender body hash now =>
    requireAuth auth sender now (handleChangePassword auth sender.cookie body hash)
  | .logout wantsJSON cookie now => handleLogout auth wantsJSON cookie now
  | .other p _ => account p >>= fun _ => pure .ok

/-! ### Marks of a run -/

/-- What a run is about: a user is read or provisioned, a password is written, the sessions of a
user but one are deleted, and a session is inserted. -/
inductive Mark where
  | found (userID : Nat)
  | changed (userID : Nat)
  | cleared (userID : Nat) (keep : String) (succeeded : Bool)
  | opened (userID : Nat) (token : String)
  deriving DecidableEq

def mark : SessionEvent → Option Mark
  | ⟨_, .account (.selectUser _), .ok (some row)⟩ => some (.found row.id)
  | ⟨_, .account (.insertUser _ _ _ _ _ _), .ok id⟩ => some (.found id)
  | ⟨_, .account (.insertSession session), .ok ()⟩ => some (.opened session.userID session.token)
  | ⟨_, .updatePassword userID _, .ok _⟩ => some (.changed userID)
  | ⟨_, .deleteOtherSessions userID keep, .ok ()⟩ => some (.cleared userID keep true)
  | ⟨_, .deleteOtherSessions userID keep, .error _⟩ => some (.cleared userID keep false)
  | _ => none

def marks (history : List (ι × SessionEvent)) : List (ι × Mark) :=
  history.filterMap fun entry => (mark entry.2).map fun m => (entry.1, m)

omit [DecidableEq ι] in
theorem marks_append (past later : List (ι × SessionEvent)) :
    marks (past ++ later) = marks past ++ marks later :=
  List.filterMap_append ..

/-- The marks of one member, in the order in which the run has them. -/
theorem memberMarks_sublist (i : ι) (history : List (ι × SessionEvent)) :
    (((memberTrace i history).filterMap mark).map fun m => (i, m)).Sublist (marks history) := by
  induction history with
  | nil => exact .slnil
  | cons entry rest ih =>
    obtain ⟨j, e⟩ := entry
    have hmarks : marks ((j, e) :: rest) = ((mark e).map fun m => (j, m)).toList ++ marks rest := by
      unfold marks
      rw [List.filterMap_cons]
      cases mark e <;> rfl
    rw [hmarks]
    by_cases hij : j = i
    · subst hij
      rw [memberTrace_cons_self, List.filterMap_cons]
      cases mark e with
      | none => exact ih
      | some m => exact ih.cons_cons _
    · rw [memberTrace_cons_ne hij]
      exact ih.trans (List.sublist_append_right _ _)

/-- A mark that a run has, seen from two others in order. -/
theorem before_or_between {α : Type} {a b x : α} {l : List α} (h : [a, b].Sublist l) (hx : x ∈ l)
    (hne : x ≠ a) : [x, a, b].Sublist l ∨ [a, x].Sublist l := by
  induction l with
  | nil => cases hx
  | cons first rest ih =>
    rcases List.mem_cons.mp hx with rfl | hrest
    · cases h with
      | cons _ hboth => exact .inl (hboth.cons_cons x)
      | cons_cons => exact absurd rfl hne
    · cases h with
      | cons _ hboth =>
        rcases ih hboth hrest with hbefore | hbetween
        · exact .inl (hbefore.cons first)
        · exact .inr (hbetween.cons first)
      | cons_cons => exact .inr ((List.singleton_sublist.mpr hrest).cons_cons a)

/-- Two marks in order, the second the last of a run or neither of them. -/
theorem sublist_concat {α : Type} {a b m : α} {l : List α} (h : [a, b].Sublist (l ++ [m])) :
    b = m ∨ [a, b].Sublist l := by
  obtain ⟨first, last, hsplit, hfirst, hlast⟩ := List.sublist_append_iff.mp h
  cases last with
  | nil =>
    rw [List.append_nil] at hsplit
    exact .inr (hsplit ▸ hfirst)
  | cons x last =>
    obtain ⟨rfl, rfl⟩ : x = m ∧ last = [] := by simpa using hlast
    have hpair : [a] ++ [b] = first ++ [x] := hsplit
    exact .inl (List.singleton_inj.mp (List.append_inj_right' hpair rfl))

/-! ### The contract -/

/-- A session is inserted for a user that its request has read or provisioned. -/
def informed (past : Trace SessionStatements Database) : SessionStatement → Prop
  | .account (.insertSession session) => .found session.userID ∈ past.filterMap mark
  | _ => True

abbrev sessionContract : Contract SessionStatements Database (Trace SessionStatements Database) :=
  .ofHistory informed

/-- Calls of an account function that inserts no session. -/
def Quiet : SessionStatement → Prop
  | .account s => Sessionless s
  | _ => True

theorem informed_of_quiet (past : Trace SessionStatements Database) (s : SessionStatement)
    (h : Quiet s) : informed past s := by
  cases s with
  | account s =>
    cases s with
    | insertSession session => exact h.elim
    | _ => trivial
  | _ => trivial

theorem account_quiet {α : Type} {p : SQL α} (h : p.Uses Sessionless) : (account p).Uses Quiet :=
  Program.uses_expand (fun s hs => (Program.uses_request (S := SessionStatements) (.account s)).mpr hs) h

/-- What a quiet account function leaves of the past. -/
theorem account_grows {α : Type} {p : SQL α} (h : p.Uses Sessionless)
    (past : Trace SessionStatements Database) :
    sessionConnection.obeys sessionContract (account p) past fun past' _ => past <+: past' :=
  Machine.obeys_grows informed_of_quiet (account_quiet h) past

/-- The access functions insert no session. -/
theorem accesses_sessionless (p : Principal) : Accesses Sessionless p :=
  ⟨trivial, trivial, fun _ => trivial⟩

theorem authenticateAPIKey_uses (keyHash : String) (now : Time) :
    (authenticateAPIKey keyHash now).Uses Sessionless := by
  refine Program.uses_request_bind trivial fun r => ?_
  rcases r with err | _ | row
  · trivial
  · trivial
  · refine Program.uses_bind (accessFor_uses (accesses_sessionless (.apiKey, row.id))) fun r => ?_
    cases r with
    | error err => trivial
    | ok access => exact Program.uses_request_bind trivial fun _ => trivial

variable {past : Trace SessionStatements Database}

theorem found_of_prefix {past' : Trace SessionStatements Database} {m : Mark}
    (h : past <+: past') (hm : m ∈ past.filterMap mark) : m ∈ past'.filterMap mark :=
  (h.filterMap mark).subset hm

theorem mem_marked {e : SessionEvent} {m : Mark} (h : mark e = some m) :
    m ∈ (past ++ [e]).filterMap mark := by
  rw [List.filterMap_append]
  exact List.mem_append_right _ (List.mem_filterMap.mpr ⟨e, List.mem_singleton_self e, h⟩)

/-- The user that a row resolves to was found if the row was. -/
theorem withAccess_finds {row : UserRow} {created : Bool} (h : .found row.id ∈ past.filterMap mark) :
    sessionConnection.obeys sessionContract (account (withAccess row created)) past fun past' r =>
      ∀ user, r = .ok user → .found user.id ∈ past'.filterMap mark := by
  unfold account withAccess
  rw [Program.expand_bind]
  refine Machine.obeys_bind.mpr ?_
  have hgrows := account_grows (accessFor_uses (accesses_sessionless (.user, row.id))) past
  refine Machine.obeys_mono hgrows fun past' r hmore => ?_
  cases r with
  | error err => exact fun _ hok => nomatch hok
  | ok access =>
    intro user huser
    cases huser
    exact found_of_prefix hmore h

/-- A user that a lookup returns was found by it. -/
theorem lookupUser_finds (key : UserKey) (label : String) (created : Bool) :
    sessionConnection.obeys sessionContract (account (lookupUser key label created)) past
      fun past' r => ∀ user, r = .ok user → .found user.id ∈ past'.filterMap mark := by
  refine ⟨trivial, fun db r db' _ _ => ?_⟩
  rcases r with err | _ | row
  · exact fun _ hok => nomatch hok
  · exact fun _ hok => nomatch hok
  · refine withAccess_finds ?_
    exact mem_marked rfl

theorem provisionOIDCUser_finds {username subject : String} {r : Except SQLError Nat}
    (h : ∀ id, r = .ok id → .found id ∈ past.filterMap mark) :
    sessionConnection.obeys sessionContract (account (provisionOIDCUser username subject r)) past
      fun past' r => ∀ user, r = .ok user → .found user.id ∈ past'.filterMap mark := by
  cases r with
  | error err => exact fun _ hok => nomatch hok
  | ok id =>
    unfold account provisionOIDCUser
    rw [Program.expand_bind]
    refine Machine.obeys_bind.mpr ?_
    have hgrows := account_grows (setAccess_uses (accesses_sessionless (.user, id)) { role := .read }) past
    refine Machine.obeys_mono hgrows fun past' r hmore => ?_
    cases r with
    | error err => exact fun _ hok => nomatch hok
    | ok done =>
      intro user huser
      cases huser
      exact found_of_prefix hmore (h id rfl)

/-- The id that an insertion gives is found by it. -/
theorem insertOIDCUser_finds (past : Trace SessionStatements Database) (username subject : String)
    (now : Time) :
    sessionConnection.obeys sessionContract (account (insertOIDCUser username subject now)) past
      fun past' r => ∀ id, r = .ok id → .found id ∈ past'.filterMap mark := by
  refine ⟨trivial, fun db r db' _ _ => ?_⟩
  cases r with
  | error err => exact fun _ hok => nomatch hok
  | ok id =>
    intro id' hid
    cases hid
    exact mem_marked rfl

theorem getOrCreateOIDCUser_finds (subject username : String) (now : Time) :
    sessionConnection.obeys sessionContract (account (getOrCreateOIDCUser subject username now)) past
      fun past' r => ∀ user, r = .ok user → .found user.id ∈ past'.filterMap mark := by
  refine ⟨trivial, fun db r db' _ _ => ?_⟩
  rcases r with err | _ | row
  · exact fun _ hok => nomatch hok
  · have hinsert (name : String) (past : Trace SessionStatements Database) :=
      insertOIDCUser_finds past name subject now
    change sessionConnection.obeys sessionContract
      (account (insertOIDCUser username subject now >>= _)) _ _
    unfold account
    rw [Program.expand_bind]
    refine Machine.obeys_bind.mpr (Machine.obeys_mono (hinsert username _) fun past₁ r hfound => ?_)
    cases r with
    | ok id => exact provisionOIDCUser_finds hfound
    | error err =>
      cases err with
      | uniqueConstraint =>
        rw [Program.expand_bind]
        refine Machine.obeys_bind.mpr (Machine.obeys_mono (hinsert _ _) fun past₂ r hfound => ?_)
        exact provisionOIDCUser_finds hfound
      | duplicateColumn | other text => exact provisionOIDCUser_finds hfound
  · exact withAccess_finds (mem_marked rfl)

/-- A request may insert a session for a user that it has found. -/
theorem createSession_informed {tokenHash : String} {userID : Nat} {ttl : Duration} {now : Time}
    (h : .found userID ∈ past.filterMap mark) :
    sessionConnection.obeys sessionContract (account (createSession tokenHash userID ttl now)) past
      fun _ _ => True := by
  refine ⟨h, fun db r db' _ _ => ?_⟩
  cases r <;> trivial

variable {auth : AuthPrimitives}

theorem handleLogin_obeys (wantsJSON : Bool) (body : Option LoginRequest)
    (token csrfToken : Except GoError String) (now : Time) :
    sessionConnection.obeys sessionContract (handleLogin auth wantsJSON body token csrfToken now) past
      fun _ _ => True := by
  cases body with
  | none => trivial
  | some req =>
    unfold handleLogin
    refine Machine.obeys_bind.mpr (Machine.obeys_mono (lookupUser_finds _ _ _) fun past₁ r hfound => ?_)
    cases r with
    | error err => trivial
    | ok user =>
      dsimp only
      split
      · cases token with
        | error err => trivial
        | ok token =>
          refine Machine.obeys_bind.mpr ?_
          refine Machine.obeys_mono (createSession_informed (hfound user rfl)) fun past₂ r _ => ?_
          cases r with
          | error err => trivial
          | ok done => cases csrfToken <;> trivial
      · trivial

theorem handleOIDCCallback_obeys (subject username : String)
    (token csrfToken : Except GoError String) (now : Time) :
    sessionConnection.obeys sessionContract
      (handleOIDCCallback auth subject username token csrfToken now) past fun _ _ => True := by
  unfold handleOIDCCallback
  refine Machine.obeys_bind.mpr ?_
  refine Machine.obeys_mono (getOrCreateOIDCUser_finds _ _ _) fun past₁ r hfound => ?_
  cases r with
  | error err => trivial
  | ok user =>
    cases token with
    | error err => trivial
    | ok token =>
      refine Machine.obeys_bind.mpr ?_
      refine Machine.obeys_mono (createSession_informed (hfound user rfl)) fun past₂ r _ => ?_
      cases r with
      | error err => trivial
      | ok done => cases csrfToken <;> trivial

/-- The request has written the password of a user and then asked for the deletion of its sessions
but the one of a token. -/
def Revokes (auth : AuthPrimitives) (cookie : Option String) (trace : List Mark) : Prop :=
  ∃ token userID succeeded, cookie = some token ∧
    [.changed userID, .cleared userID (auth.hashToken token) succeeded].Sublist trace

theorem revokeOthers_obeys {cookie : Option String} {user : User} {token : String}
    (hcookie : cookie = some token) (h : .changed user.id ∈ past.filterMap mark) :
    sessionConnection.obeys sessionContract (revokeOthers auth cookie user) past
      fun past' _ => Revokes auth cookie (past'.filterMap mark) := by
  subst hcookie
  refine ⟨trivial, fun db r db' _ _ => ?_⟩
  have hrevokes (succeeded : Bool) (e : SessionEvent)
      (he : mark e = some (.cleared user.id (auth.hashToken token) succeeded)) :
      Revokes auth (some token) ((past ++ [e]).filterMap mark) := by
    refine ⟨token, user.id, succeeded, rfl, ?_⟩
    rw [List.filterMap_append, List.filterMap_cons, he]
    exact (List.singleton_sublist.mpr h).append (List.Sublist.refl [_])
  cases r with
  | error err => exact hrevokes false _ rfl
  | ok done => exact hrevokes true _ rfl

/-- A password change that answers with success has revoked. -/
theorem handleChangePassword_obeys {cookie : Option String} (body : Option ChangePasswordRequest)
    (hash : Except GoError String) {user : Option User} (hcookie : user.isSome → cookie.isSome) :
    sessionConnection.obeys sessionContract (handleChangePassword auth cookie body hash user) past
      fun past' r => r = .ok → Revokes auth cookie (past'.filterMap mark) := by
  unfold handleChangePassword
  split
  · exact nofun
  · exact nofun
  · rename_i user req
    obtain ⟨token, rfl⟩ := Option.isSome_iff_exists.mp (hcookie rfl)
    split
    · split
      · exact nofun
      · cases hash with
        | error err => exact nofun
        | ok hash =>
          refine ⟨trivial, fun db r db' _ _ => ?_⟩
          cases r with
          | error err => exact nofun
          | ok n =>
            change sessionConnection.obeys sessionContract ((ite (n = 0) _ _) >>= _) _ _
            split
            · exact nofun
            · change sessionConnection.obeys sessionContract (revokeOthers auth _ user >>= _) _ _
              refine Machine.obeys_bind.mpr ?_
              refine Machine.obeys_mono (revokeOthers_obeys rfl (mem_marked rfl)) ?_
              exact fun past' _ hrevokes _ => hrevokes
    · exact nofun

/-- What a request has done when it answers. -/
def SessionTask.Answered (auth : AuthPrimitives) (trace : List Mark) (r : AuthResponse) :
    SessionTask → Prop
  | .changePassword sender _ _ _ => r = .ok → Revokes auth sender.cookie trace
  | _ => True

theorem requireAuth_obeys {sender : Sender} {now : Time} (body : Option ChangePasswordRequest)
    (hash : Except GoError String) :
    sessionConnection.obeys sessionContract
      (requireAuth auth sender now (handleChangePassword auth sender.cookie body hash)) past
      fun past' r => r = .ok → Revokes auth sender.cookie (past'.filterMap mark) := by
  unfold requireAuth
  split
  · exact handleChangePassword_obeys body hash nofun
  · split
    · rename_i key _
      have hgrows := account_grows (authenticateAPIKey_uses (auth.hashToken key) now) past
      refine Machine.obeys_bind.mpr (Machine.obeys_mono hgrows fun past₁ r _ => ?_)
      cases r with
      | error err => exact nofun
      | ok apiKey => exact handleChangePassword_obeys body hash nofun
    · exact nofun
    · rename_i token _ hcookie
      refine Machine.obeys_bind.mpr (Machine.obeys_mono (lookupUser_finds _ _ _) fun past₁ r _ => ?_)
      cases r with
      | error err => exact nofun
      | ok user =>
        dsimp only
        split
        · exact handleChangePassword_obeys body hash fun _ => by rw [hcookie]; rfl
        · exact nofun

theorem handleLogout_obeys (wantsJSON : Bool) (cookie : Option String) (now : Time) :
    sessionConnection.obeys sessionContract (handleLogout auth wantsJSON cookie now) past
      fun _ _ => True := by
  cases cookie with
  | none => trivial
  | some token =>
    unfold handleLogout
    refine Machine.obeys_bind.mpr (Machine.obeys_mono (lookupUser_finds _ _ _) fun past₁ r _ => ?_)
    refine ⟨trivial, fun db r db' _ _ => ?_⟩
    cases r <;> trivial

/-- Every request keeps to the contract. -/
theorem task_obeys (task : SessionTask) : sessionConnection.obeys sessionContract (task.run auth) []
    fun past r => task.Answered auth (past.filterMap mark) r := by
  cases task with
  | login wantsJSON body token csrfToken now => exact handleLogin_obeys wantsJSON body token csrfToken now
  | oidcCallback subject username token csrfToken now =>
    exact handleOIDCCallback_obeys subject username token csrfToken now
  | changePassword sender body hash now => exact requireAuth_obeys body hash
  | logout wantsJSON cookie now => exact handleLogout_obeys wantsJSON cookie now
  | other p h =>
    refine Machine.obeys_bind.mpr ?_
    exact Machine.obeys_mono (account_grows h []) fun _ _ _ => trivial

/-! ### Runs -/

/-- The sessions of a user were deleted, but one. -/
def Mark.clears (userID : Nat) : Mark → Bool
  | .cleared u _ true => u = userID
  | _ => false

/-- A whole password change, the password written and the sessions deleted, came between the moment
a request found the user and now. -/
def Overtaken (past : List (ι × Mark)) (i : ι) (userID : Nat) : Prop :=
  ∃ entry ∈ past, entry.2.clears userID = true ∧
    [(i, .found userID), (entry.1, .changed userID), entry].Sublist past

instance (past : List (ι × Mark)) (i : ι) (userID : Nat) : Decidable (Overtaken past i userID) :=
  inferInstanceAs (Decidable (∃ entry ∈ past, _))

/-- The deletion of a password change succeeds, and no session is inserted for a user whose password
was changed since it was found. -/
def Prompt (past : List (ι × SessionEvent)) (entry : ι × SessionEvent) : Prop :=
  match mark entry.2 with
  | some (.cleared _ _ succeeded) => succeeded = true
  | some (.opened userID _) => ¬ Overtaken (marks past) entry.1 userID
  | _ => True

instance (past : List (ι × SessionEvent)) (entry : ι × SessionEvent) :
    Decidable (Prompt past entry) := by
  unfold Prompt
  split <;> infer_instance

/-- A session of a request that found the user after a password change wrote the password. -/
def OpenedSince (past : List (ι × Mark)) (c : ι) (userID : Nat) (token : String) : Prop :=
  ∃ entry ∈ past, entry.2 = .opened userID token ∧
    [(c, .changed userID), (entry.1, .found userID), entry].Sublist past

instance (past : List (ι × Mark)) (c : ι) (userID : Nat) (token : String) :
    Decidable (OpenedSince past c userID token) :=
  inferInstanceAs (Decidable (∃ entry ∈ past, _))

/-- The sessions of a user, after every finished change of its password. -/
def Revoked (db : Database) (past : List (ι × Mark)) : Prop :=
  ∀ c userID keep, [(c, .changed userID), (c, .cleared userID keep true)].Sublist past →
    ∀ row ∈ db.sessions, row.userID = userID → row.token ≠ keep → OpenedSince past c userID row.token

omit [DecidableEq ι] in
theorem OpenedSince.append {past : List (ι × Mark)} {c : ι} {userID : Nat} {token : String}
    (h : OpenedSince past c userID token) (later : List (ι × Mark)) :
    OpenedSince (past ++ later) c userID token := by
  obtain ⟨entry, hmem, hopened, hsub⟩ := h
  exact ⟨entry, List.mem_append_left _ hmem, hopened, hsub.trans (List.sublist_append_left _ _)⟩

omit [DecidableEq ι] in
/-- A session inserted in time is of a request that found the user after every finished change. -/
theorem openedSince_of_prompt {past : List (ι × Mark)} {c i : ι} {userID : Nat} {keep token : String}
    (hchange : [(c, .changed userID), (c, .cleared userID keep true)].Sublist past)
    (hfound : (i, .found userID) ∈ past) (hprompt : ¬ Overtaken past i userID) :
    OpenedSince (past ++ [(i, .opened userID token)]) c userID token := by
  rcases before_or_between hchange hfound (by simp) with hbefore | hbetween
  · have hcleared : (c, .cleared userID keep true) ∈ past := hchange.subset (by simp)
    exact absurd ⟨_, hcleared, by simp [Mark.clears], hbefore⟩ hprompt
  · exact ⟨_, List.mem_append_right _ (List.mem_singleton_self _), rfl,
      hbetween.append (List.Sublist.refl [_])⟩

/-- No session that a finished change deletes is there after it. -/
theorem cleared_sessions {db db' : Database} {s : SessionStatement} {r : Except SQLError s.Result}
    {userID : Nat} {keep : String} (h : sessionConnection.step db s r db')
    (hmark : mark ⟨db, s, r⟩ = some (.cleared userID keep true)) :
    ∀ row ∈ db'.sessions, row.userID = userID → row.token = keep := by
  have hs : s = .deleteOtherSessions userID keep ∧ ∀ err, r ≠ .error err := by
    unfold mark at hmark
    split at hmark
    case h_5 heq =>
      cases hmark
      cases heq
      exact ⟨rfl, nofun⟩
    all_goals cases hmark
  obtain ⟨rfl, hok⟩ := hs
  rcases sessionConnection_step h with ⟨err, rfl, -⟩ | ⟨result, -, hperform⟩
  · exact absurd rfl (hok err)
  · cases hperform
    intro row hrow huser
    by_contra hkeep
    have hleft := (Table.mem_deleteWhere.mp hrow).2
    simp [huser, hkeep] at hleft

/-- A session that is there after a statement was there before it, or is marked. -/
theorem kept_or_opened {db db' : Database} {s : SessionStatement} {r : Except SQLError s.Result}
    (h : sessionConnection.step db s r db') {row : SessionRow} (hrow : row ∈ db'.sessions) :
    row ∈ db.sessions ∨ s = .account (.insertSession row) ∧
      mark ⟨db, s, r⟩ = some (.opened row.userID row.token) := by
  rcases sessionConnection_step h with ⟨err, -, rfl⟩ | ⟨result, rfl, hperform⟩
  · exact .inl hrow
  · rcases Database.performSession_sessions hperform hrow with hold | rfl
    · exact .inl hold
    · exact .inr ⟨rfl, rfl⟩

theorem Revoked.step {db db' : Database} {past : List (ι × SessionEvent)} (h : Revoked db (marks past))
    (i : ι) {s : SessionStatement} {r : Except SQLError s.Result}
    (hstep : sessionConnection.step db s r db') (hprompt : Prompt past (i, ⟨db, s, r⟩))
    (hinformed : informed (memberTrace i past) s) :
    Revoked db' (marks (past ++ [(i, ⟨db, s, r⟩)])) := by
  intro c userID keep hchange row hrow huser hkeep
  have hconcat : marks (past ++ [(i, ⟨db, s, r⟩)]) =
      marks past ++ ((mark ⟨db, s, r⟩).map fun m => (i, m)).toList := by
    rw [marks_append]
    unfold marks
    rw [List.filterMap_cons]
    cases mark ⟨db, s, r⟩ <;> rfl
  rw [hconcat] at hchange ⊢
  have hpast : [(c, .changed userID), (c, .cleared userID keep true)].Sublist (marks past) := by
    cases hmark : mark ⟨db, s, r⟩ with
    | none => simpa [hmark] using hchange
    | some m =>
      rw [hmark] at hchange
      rcases sublist_concat hchange with hlast | hpast
      · obtain ⟨-, rfl⟩ := Prod.mk.inj hlast
        exact absurd (cleared_sessions hstep hmark row hrow huser) hkeep
      · exact hpast
  rcases kept_or_opened hstep hrow with hold | ⟨rfl, hmark⟩
  · exact (h c userID keep hpast row hold huser hkeep).append _
  · subst huser
    have hfound : (i, .found row.userID) ∈ marks past :=
      (memberMarks_sublist i past).subset (List.mem_map_of_mem hinformed)
    rw [Prompt, hmark] at hprompt
    rw [hmark]
    exact openedSince_of_prompt hpast hfound hprompt

theorem withAccess_id {db db' : Database} {row : UserRow} {created : Bool}
    {trace : Trace SessionStatements Database} {user : User}
    (h : sessionConnection.Runs (account (withAccess row created)) db trace (.ok user) db') :
    user.id = row.id := by
  unfold account withAccess at h
  rw [Program.expand_bind] at h
  obtain ⟨first, access, db₁, last, -, hlast, -⟩ := Machine.runs_bind.mp h
  cases access with
  | error err => cases hlast.2.1
  | ok access =>
    cases hlast.2.1
    rfl

/-- A session that resolves is one of the table. -/
theorem sessionUser_session {db db' : Database} {tokenHash : String} {now : Time}
    {trace : Trace SessionStatements Database} {user : User}
    (h : sessionConnection.Runs (account (sessionUser tokenHash now)) db trace (.ok user) db') :
    ∃ row ∈ db.sessions, row.token = tokenHash ∧ row.userID = user.id := by
  obtain ⟨db₀, r, db₁, rest, rfl, hstep, -, hrest⟩ := h
  rcases r with err | _ | found
  · cases hrest.2.1
  · cases hrest.2.1
  · have hid : user.id = found.id := withAccess_id hrest
    rcases sessionConnection_step hstep with ⟨err, hr, -⟩ | ⟨result, hr, hperform⟩
    · cases hr
    · cases hr
      have hfind : db₀.findUser (.session tokenHash now) = some found :=
        (Prod.mk.inj (Except.ok.inj hperform)).1
      obtain ⟨row, hrow, huser⟩ := Option.bind_eq_some_iff.mp hfind
      have htoken := List.find?_some hrow
      have hsame := List.find?_some huser
      simp only [decide_eq_true_eq] at htoken hsame
      exact ⟨row, List.mem_of_find?_eq_some hrow, htoken.1, hsame.symm.trans hid.symm⟩

/-- No session of the user but the caller's own resolves, unless it is of a login that read the user
after the change. -/
def OthersRevoked (auth : AuthPrimitives) (history : List (ι × SessionEvent)) (db : Database) (c : ι)
    (sender : Sender) : Prop :=
  ∃ own userID, sender.cookie = some own ∧ (c, .changed userID) ∈ marks history ∧
    ∀ tokenHash now trace user db',
      sessionConnection.Runs (account (sessionUser tokenHash now)) db trace (.ok user) db' →
        user.id = userID → tokenHash ≠ auth.hashToken own →
          OpenedSince (marks history) c userID tokenHash

/-- In every run of any number of requests, if deletions succeed and no login is overtaken, a password
change that has answered with success has revoked the other sessions of the user. -/
theorem change_revokes {auth : AuthPrimitives} {tasks : ι → SessionTask}
    {pool' : ι → SessionSQL AuthResponse} {db₀ db : Database} {history : List (ι × SessionEvent)}
    (h : sessionConnection.PoolRuns (fun i => (tasks i).run auth) db₀ history pool' db)
    (hok : Machine.Throughout Prompt [] history) {c : ι} {sender : Sender}
    {body : Option ChangePasswordRequest} {hash : Except GoError String} {now : Time}
    (htask : tasks c = .changePassword sender body hash now) (hanswer : pool' c = pure .ok) :
    OthersRevoked auth history db c sender := by
  obtain ⟨hrevoked, hleft⟩ := h.informed_members (A := Prompt)
    (J := fun db past => Revoked db (marks past))
    (Q := fun i past r => (tasks i).Answered auth (past.filterMap mark) r)
    (fun i _ _ hinv hrely hcall hprompt hinformed => by
      subst hrely
      exact hinv.step i hcall hprompt hinformed)
    hok (fun i => task_obeys (tasks i)) (fun _ _ _ hsub => by simp [marks] at hsub)
  have hrevokes := hleft c
  rw [hanswer, htask] at hrevokes
  obtain ⟨own, userID, succeeded, hcookie, hown⟩ := hrevokes rfl
  have hchange : [(c, .changed userID), (c, .cleared userID (auth.hashToken own) succeeded)].Sublist
      (marks history) := (hown.map _).trans (memberMarks_sublist c history)
  have hsucceeded : succeeded = true := by
    obtain ⟨entry, hentry, hmark⟩ := List.mem_filterMap.mp (hchange.subset (List.mem_of_mem_tail
      (List.mem_singleton_self _)))
    obtain ⟨past, hprompt⟩ := Machine.throughout_mem hok entry hentry
    obtain ⟨m, hm, hpair⟩ := Option.map_eq_some_iff.mp hmark
    obtain ⟨-, rfl⟩ := Prod.mk.inj hpair
    rw [Prompt, hm] at hprompt
    exact hprompt
  subst hsucceeded
  refine ⟨own, userID, hcookie, hchange.subset List.mem_cons_self, ?_⟩
  intro tokenHash now' trace user db' hresolve huser hother
  obtain ⟨row, hrow, htoken, hid⟩ := sessionUser_session hresolve
  exact htoken ▸ hrevoked c userID _ hchange row hrow (hid.trans huser) (htoken ▸ hother)

/-- Passwords and tokens behind a mark, in place of bcrypt and SHA-256. -/
def plainAuth : AuthPrimitives where
  verifyPassword hash password := hash = "hash of " ++ password
  hashToken token := "digest of " ++ token

/-- One account, with a session of its own. -/
def oneAccount : Database where
  users := [⟨1, "admin", "hash of letmein!", false, "local", none, 0⟩]
  sessions := [⟨"digest of mine", 1, 0, sessionTTL⟩]
  assignments := [((.user, 1), { role := .admin, isProtected := true })]
  userSeq := 1
  protectedColumn := true

/-- The owner changes the password; a login uses the one that was stolen, another the new one. -/
def stolenTasks : Nat → SessionTask
  | 0 => .changePassword { cookie := some "mine" } (some ⟨"letmein!", "something else"⟩)
      (.ok "hash of something else") 1
  | 1 => .login true (some ⟨"admin", "letmein!"⟩) (.ok "stolen") (.ok "csrf") 1
  | _ => .login true (some ⟨"admin", "something else"⟩) (.ok "fresh") (.ok "csrf") 1

def stolenRun (turns : List (Nat × Option String)) :
    List (Nat × SessionEvent) × (Nat → SessionSQL AuthResponse) × Database :=
  Machine.replay Database.execSession turns (fun i => (stolenTasks i).run plainAuth) oneAccount

theorem stolenRun_runs (turns : List (Nat × Option String)) :
    sessionConnection.PoolRuns (fun i => (stolenTasks i).run plainAuth) oneAccount
      (stolenRun turns).1 (stolenRun turns).2.1 (stolenRun turns).2.2 :=
  Machine.replay_runs (M := sessionConnection) (fun _ => rfl) (fun _ fault _ => ⟨fault, rfl⟩) turns _ _

/-- The login with the stolen password is through before the change, the other comes after it. -/
def promptTurns : List (Nat × Option String) :=
  List.replicate 3 (1, none) ++ List.replicate 4 (0, none) ++ List.replicate 3 (2, none)

theorem change_revokes_stolen :
    (stolenRun promptTurns).2.2.sessions.map SessionRow.token = ["digest of mine", "digest of fresh"] ∧
      OthersRevoked plainAuth (stolenRun promptTurns).1 (stolenRun promptTurns).2.2 0
        { cookie := some "mine" } :=
  ⟨by decide +kernel, change_revokes (stolenRun_runs _) (by decide +kernel) rfl rfl⟩

/-- The login reads the user, the whole change happens, and the login inserts its session. -/
def overtakenTurns : List (Nat × Option String) :=
  List.replicate 2 (1, none) ++ List.replicate 4 (0, none) ++ [(1, none)]

/-- The login is through before the change, whose deletion fails. -/
def undeletedTurns : List (Nat × Option String) :=
  List.replicate 3 (1, none) ++ List.replicate 3 (0, none) ++ [(0, some "database is locked")]

/-- A session of the table resolves, if the user has an assignment. -/
theorem session_resolves {db : Database} {tokenHash : String} {now : Time} {row : UserRow}
    (hfind : db.findUser (.session tokenHash now) = some row)
    (haccess : (db.assignment (.user, row.id)).isSome) (hcolumn : db.protectedColumn = true) :
    ∃ trace user, user.id = row.id ∧
      sessionConnection.Runs (account (sessionUser tokenHash now)) db trace (.ok user) db := by
  obtain ⟨access, haccess⟩ := Option.isSome_iff_exists.mp haccess
  have hselect : sessionConnection.step db (.account (.selectUser (.session tokenHash now)))
      (.ok (some row)) db :=
    ⟨none, by simp [Database.execSession, Database.performSession, Database.perform, hfind]⟩
  have hresolve : sessionConnection.step db (.account (.selectAccess (.user, row.id)))
      (.ok (some access)) db :=
    ⟨none, by simp [Database.execSession, Database.performSession, Database.perform, haccess, hcolumn]⟩
  exact ⟨_, _, rfl, db, _, db, _, rfl, hselect, rfl, db, _, db, _, rfl, hresolve, rfl, rfl, rfl, rfl⟩

/-- The session of the stolen login is there after the change. -/
theorem stolen_survives {turns : List (Nat × Option String)} (past : List (Nat × Mark)) (row : UserRow)
    (hmarks : marks (stolenRun turns).1 = past)
    (hchanged : ∀ userID, (0, .changed userID) ∈ past → userID = row.id)
    (hlate : ¬ OpenedSince past 0 row.id "digest of stolen")
    (hfind : (stolenRun turns).2.2.findUser (.session "digest of stolen" 2) = some row)
    (haccess : ((stolenRun turns).2.2.assignment (.user, row.id)).isSome)
    (hcolumn : (stolenRun turns).2.2.protectedColumn = true) :
    ¬ OthersRevoked plainAuth (stolenRun turns).1 (stolenRun turns).2.2 0 { cookie := some "mine" } := by
  rintro ⟨own, userID, hcookie, hmem, hrevoked⟩
  rw [hmarks] at hmem hrevoked
  obtain rfl := hchanged userID hmem
  obtain rfl : "mine" = own := Option.some.inj hcookie
  obtain ⟨trace, user, huser, hrun⟩ := session_resolves hfind haccess hcolumn
  exact hlate (hrevoked _ _ trace user _ hrun huser (by decide))

theorem overtaken_survives : ¬ OthersRevoked plainAuth (stolenRun overtakenTurns).1
    (stolenRun overtakenTurns).2.2 0 { cookie := some "mine" } :=
  stolen_survives [(1, .found 1), (0, .found 1), (0, .changed 1), (0, .cleared 1 "digest of mine" true),
      (1, .opened 1 "digest of stolen")]
    ⟨1, "admin", "hash of something else", false, "local", none, 0⟩
    (by decide +kernel) (fun userID h => by simpa using h) (by decide) (by decide +kernel)
    (by decide +kernel) rfl

theorem undeleted_survives : ¬ OthersRevoked plainAuth (stolenRun undeletedTurns).1
    (stolenRun undeletedTurns).2.2 0 { cookie := some "mine" } :=
  stolen_survives [(1, .found 1), (1, .opened 1 "digest of stolen"), (0, .found 1), (0, .changed 1),
      (0, .cleared 1 "digest of mine" false)]
    ⟨1, "admin", "hash of something else", false, "local", none, 0⟩
    (by decide +kernel) (fun userID h => by simpa using h) (by decide) (by decide +kernel)
    (by decide +kernel) rfl

/-- A stolen session survives a change that comes while its login is under way, though every statement
succeeds; and it survives a change whose deletion fails. -/
theorem stolen_session_survives :
    (¬ ∀ (auth : AuthPrimitives) (tasks : Nat → SessionTask) (pool' : Nat → SessionSQL AuthResponse)
      (db₀ db : Database) (history : List (Nat × SessionEvent)),
      sessionConnection.PoolRuns (fun i => (tasks i).run auth) db₀ history pool' db →
        ∀ c sender body hash now, tasks c = .changePassword sender body hash now → pool' c = pure .ok →
          OthersRevoked auth history db c sender) ∧
      (stolenRun undeletedTurns).2.1 0 = pure .ok ∧
      ¬ OthersRevoked plainAuth (stolenRun undeletedTurns).1 (stolenRun undeletedTurns).2.2 0
        { cookie := some "mine" } := by
  refine ⟨fun h => ?_, rfl, undeleted_survives⟩
  exact overtaken_survives (h plainAuth stolenTasks _ oneAccount _ _ (stolenRun_runs overtakenTurns)
    0 _ _ _ _ rfl rfl)

end Doupro.Accounts
