import Doupro.Go.Timestamp
import Doupro.Table.Keyed

/-!
# The operation guard

At most one destructive operation per container name, and none during maintenance.
Every method runs under the guard's mutex.
-/

namespace Doupro

structure Operation where
  kind : String
  startedAt : Time
  deriving DecidableEq

structure OperationGuard where
  active : List (String × Operation) := []
  maintenance : Bool := false
  deriving DecidableEq

namespace OperationGuard

/-- `begin`: the operation in the way, if there is one, and the guard after the call. -/
def begin (g : OperationGuard) (name kind : String) (now : Time) :
    Option Operation × OperationGuard :=
  if g.maintenance then (some { kind := "self-update", startedAt := now }, g)
  else match g.active.lookup name with
    | some current => (some current, g)
    | none => (none, { g with active := (name, { kind, startedAt := now }) :: g.active })

/-- `end`. -/
def release (g : OperationGuard) (name : String) : OperationGuard :=
  { g with active := Table.deleteWhere (fun entry => decide (entry.1 = name)) g.active }

/-- `beginMaintenance`: the operations in the way, or the guard in maintenance. -/
def beginMaintenance (g : OperationGuard) : Except (List String) OperationGuard :=
  if g.maintenance ∨ g.active ≠ [] then
    .error (g.active.map fun (name, op) => name ++ ":" ++ op.kind)
  else .ok { g with maintenance := true }

/-- `endMaintenance`. -/
def endMaintenance (g : OperationGuard) : OperationGuard := { g with maintenance := false }

end OperationGuard
end Doupro
