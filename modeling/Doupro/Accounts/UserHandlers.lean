import Doupro.Accounts.Roles
import Doupro.Registry.Reference

/-!
# The user handlers

The requests of Settings about users, as the statements they run and the response they send.
Each checks the assignment it is about to change in a statement of its own, before the
statements of the store function check it again.
-/

namespace Doupro.Accounts

open Interaction

/-- What a handler writes: an error, or a status with the users it names. -/
inductive Response where
  | error (status : Nat) (code message : String)
  | listed (users : List User)
  | created (user : User)
  | updated (user : User)
  | deleted
  deriving DecidableEq

/-- `accessResponse.model`: the protected flag of a request is not read. -/
def AccessControl.model (a : AccessControl) : AccessControl := { a with isProtected := false }

/-- The body of a request that creates a user. -/
structure CreateUserBody where
  username : String
  password : String
  access : AccessControl

/-- `handleListUsers`. -/
def handleListUsers : SQL Response := do
  match ← listUsers with
  | .error _ => return .error 500 "internal_error" "failed to list users"
  | .ok users => return .listed users

/-- `handleCreateUser`, given the decoded body and how hashing its password goes. -/
def handleCreateUser (body : Option CreateUserBody) (hash : Except GoError String) (now : Time) :
    SQL Response := do
  match body with
  | none => return .error 400 "invalid_request" "invalid JSON body"
  | some req =>
    let username := String.ofList (Registry.trimSpace req.username.toList)
    if username = "" ∨ req.password.utf8ByteSize < 8 ∨ ¬ req.access.model.valid then
      return .error 400 "invalid_request"
        "username, password of at least 8 characters, and a valid role are required"
    match hash with
    | .error _ => return .error 500 "internal_error" "failed to hash password"
    | .ok hash =>
      match ← createUserWithAccess username hash false req.access.model now with
      | .error err => return .error 409 "user_create_failed" err.message
      | .ok user => return .created user

/-- Whether an update takes the role admin from the last user who has it. -/
def demotesLast (user : User) (access : AccessControl) : SQL (Except GoError Bool) := do
  if user.access.role = .admin ∧ access.role ≠ .admin then
    match ← adminCount with
    | .error err => return .error err
    | .ok count => return .ok (count = 1)
  else return .ok false

/-- `handleUpdateUserAccess`, given the parsed id of the path and the decoded body. -/
def handleUpdateUserAccess (id : Option Nat) (body : Option AccessControl) : SQL Response := do
  match id, body.filter fun access => access.model.valid with
  | none, _ => return .error 400 "invalid_request" "invalid user id"
  | some _, none => return .error 400 "invalid_request" "valid access assignment required"
  | some id, some access =>
    match ← getUserByID id with
    | .error err =>
      if err.isNotFound then return .error 404 "not_found" "user not found"
      else return .error 500 "internal_error" "failed to load user"
    | .ok user =>
      if user.access.isProtected then
        return .error 409 "protected_admin"
          "the bootstrap administrator always has full access and cannot be reconfigured"
      match ← demotesLast user access with
      | .error _ => return .error 500 "internal_error" "failed to validate administrators"
      | .ok true => return .error 409 "last_admin" "the last administrator cannot be demoted"
      | .ok false =>
        match ← setAccess (.user, id) access.model with
        | .error _ => return .error 500 "internal_error" "failed to update user access"
        | .ok () => return .updated { user with access := access.model }

/-- Whether a deletion removes the last user with the role admin; a failed count says it does. -/
def deletesLast (user : User) : SQL Bool := do
  if user.access.role = .admin then
    match ← adminCount with
    | .error _ => return true
    | .ok count => return count = 1
  else return false

/-- `handleDeleteUser`, given the parsed id of the path and the user who asks. -/
def handleDeleteUser (id current : Option Nat) : SQL Response := do
  match id with
  | none => return .error 400 "invalid_request" "invalid user id"
  | some id =>
    match ← getUserByID id with
    | .error err =>
      if err.isNotFound then return .error 404 "not_found" "user not found"
      else return .error 500 "internal_error" "failed to load user"
    | .ok user =>
      if current = some id then
        return .error 409 "self_delete" "you cannot delete your own account"
      if user.access.isProtected then
        return .error 409 "protected_admin" "the bootstrap administrator cannot be deleted"
      if ← deletesLast user then
        return .error 409 "last_admin" "the last administrator cannot be deleted"
      match ← deleteUser id with
      | .error _ => return .error 500 "internal_error" "failed to delete user"
      | .ok () => return .deleted

/-- A request about users, or one use of an account function by the rest of the daemon. -/
inductive Request where
  | listUsers
  | createUser (body : Option CreateUserBody) (hash : Except GoError String) (now : Time)
  | updateUserAccess (id : Option Nat) (body : Option AccessControl)
  | deleteUser (id current : Option Nat)
  | account (op : AccountOp)

/-- The program of a request; what it answers is left out. -/
def Request.run : Request → SQL Unit
  | .listUsers => (fun _ => ()) <$> handleListUsers
  | .createUser body hash now => (fun _ => ()) <$> handleCreateUser body hash now
  | .updateUserAccess id body => (fun _ => ()) <$> handleUpdateUserAccess id body
  | .deleteUser id current => (fun _ => ()) <$> handleDeleteUser id current
  | .account op => (fun _ => ()) <$> op.run

end Doupro.Accounts
