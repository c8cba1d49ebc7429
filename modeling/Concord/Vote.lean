import Concord.StoreName

/-!
# Votes

What one store says about one action: it stays out, or it takes part after a set of other stores.
A store that stays out names no prerequisites, so there is nothing to ignore in its vote.
-/

namespace Concord

inductive Vote where
  | declines
  /-- The store takes part once every named store has processed the action. -/
  | approves (prerequisites : NameSet)
deriving DecidableEq, Repr

namespace Vote

instance : Inhabited Vote := ⟨declines⟩

def unconditional : Vote := approves .empty

def after (names : List StoreName) : Vote := approves (.ofList names)

def isApproval : Vote → Bool
  | declines => false
  | approves _ => true

/-- The stores that have to come first. -/
def prerequisites : Vote → NameSet
  | declines => .empty
  | approves names => names

@[simp] theorem mem_prerequisites_after {s : StoreName} {names : List StoreName} :
    s ∈ (after names).prerequisites ↔ s ∈ names := NameSet.mem_ofList

end Vote

structure Ballot where
  store : StoreName
  vote : Vote
deriving DecidableEq, Repr

end Concord
