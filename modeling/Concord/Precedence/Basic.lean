import Concord.Vote

/-!
# Precedence among the stores of one action

The stores that approve an action and the stores that they wait for, with a link from each
prerequisite to the store that waits for it. Both are listed in the order in which the ballots
first mention them; that order decides how ties between independent stores are broken.
-/

namespace Concord

structure Precedence where
  /-- The stores, by first mention. -/
  stores : List StoreName
  /-- The pairs of a prerequisite and a store that waits for it, by first mention. -/
  links : List (StoreName × StoreName)
  approving : List StoreName

namespace Precedence

/-- The approving ballots, each with the set of stores it waits for. -/
def approvals (ballots : List Ballot) : List (StoreName × NameSet) :=
  ballots.filterMap fun ballot =>
    match ballot.vote with
    | .declines => none
    | .approves prerequisites => some (ballot.store, prerequisites)

/-- The precedence that a list of ballots asks for. Ballots that decline leave no mark. -/
def ofBallots (ballots : List Ballot) : Precedence :=
  let approving := approvals ballots
  { stores := (approving.flatMap fun (store, before) => store :: before.toList).eraseDups
    links := (approving.flatMap fun (store, before) => before.toList.map (·, store)).eraseDups
    approving := approving.map Prod.fst }

def followers (p : Precedence) (s : StoreName) : List StoreName :=
  p.links.filterMap fun (before, after) => if before = s then some after else none

def prerequisites (p : Precedence) (s : StoreName) : List StoreName :=
  p.links.filterMap fun (before, after) => if after = s then some before else none

/-- The stores that some approving store waits for and that do not approve themselves. -/
def drafted (p : Precedence) : List StoreName :=
  p.stores.filter (· ∉ p.approving)

@[simp] theorem mem_followers {p : Precedence} {s t : StoreName} :
    t ∈ p.followers s ↔ (s, t) ∈ p.links := by
  simp [followers, List.mem_filterMap]

@[simp] theorem mem_prerequisites {p : Precedence} {s t : StoreName} :
    t ∈ p.prerequisites s ↔ (t, s) ∈ p.links := by
  simp only [prerequisites, List.mem_filterMap, Prod.exists, Option.ite_none_right_eq_some,
    Option.some.injEq]
  exact ⟨fun ⟨_, _, mem, hs, ht⟩ => ht ▸ hs ▸ mem, fun mem => ⟨t, s, mem, rfl, rfl⟩⟩

end Precedence

end Concord
