import Concord.Refusal
import Concord.Precedence.Search

/-!
# Schedules

Either there is a schedule, in which every store stands behind its prerequisites, or some stores
wait for themselves; then all of those are reported.
-/

namespace Concord.Precedence

/-- Every store that waits for itself, directly or through others, ascending; `none` when there is
no such store. -/
def circular? (p : Precedence) : Option (List StoreName) :=
  match p.stores.filter fun s => s ∈ p.downstream s with
  | [] => none
  | members => some (NameSet.ofList members).toList

/-- The first store of the list that has a prerequisite at or behind its own place. -/
def misplaced? (p : Precedence) : List StoreName → Option StoreName
  | [] => none
  | s :: rest =>
    if (p.prerequisites s).any (· ∈ s :: rest) then some s else p.misplaced? rest

/-- The line-up of the search, if every store stands behind its prerequisites there, and otherwise
the first store that does not. -/
def arrangement (p : Precedence) : Except StoreName (List StoreName) :=
  match p.misplaced? p.lineUp with
  | none => .ok p.lineUp
  | some s => .error s

/-- The order in which the stores take their turns, or all stores that wait for themselves. -/
def schedule (p : Precedence) : Except Refusal (List StoreName) :=
  match p.circular? with
  | some stores => .error (.circular stores)
  | none => p.arrangement.mapError fun s => .circular [s]

end Concord.Precedence
