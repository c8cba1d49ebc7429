import Concord.Precedence.Basic

/-!
# Depth-first search

The search keeps the stores it has not met and an explicit list of things to do: enter a store, or
leave one whose followers are all done. A store is put in front of the result when it is left, so
everything that waits for it stands behind it. Among the followers of a store the one mentioned
last is entered first.
-/

namespace Concord.Precedence

inductive Visit where
  | enter (s : StoreName)
  | leave (s : StoreName)
deriving DecidableEq

/-- Carries out the visits in turn. Entering a store that has been met already does nothing. -/
def search (p : Precedence) (unseen : List StoreName) :
    (todo : List Visit) → (order : List StoreName) → List StoreName
  | [], order => order
  | .leave s :: todo, order => p.search unseen todo (s :: order)
  | .enter s :: todo, order =>
    if s ∈ unseen then
      p.search (unseen.erase s) ((p.followers s).reverse.map .enter ++ .leave s :: todo) order
    else p.search unseen todo order
termination_by todo => (unseen.length, todo.length)
decreasing_by
  · exact Prod.Lex.right _ (Nat.lt_succ_self _)
  · rename_i h
    refine Prod.Lex.left _ _ ?_
    have := List.length_pos_of_mem h
    rw [List.length_erase_of_mem h]
    omega
  · exact Prod.Lex.right _ (Nat.lt_succ_self _)

/-- All stores, each in front of those that wait for it unless a cycle prevents that. -/
def lineUp (p : Precedence) : List StoreName :=
  p.search p.stores (p.stores.map .enter) []

/-- The stores that wait for the given one, directly or through others. -/
def downstream (p : Precedence) (s : StoreName) : List StoreName :=
  p.search p.stores ((p.followers s).map .enter) []

end Concord.Precedence
