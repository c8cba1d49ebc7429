import Concord.Precedence.Schedule

/-!
# Plans

What the ballots on an action amount to: the order in which stores take their turns, or the reason
why there is none. A prerequisite that is not registered is found before the order is looked for.
-/

namespace Concord

/-- The result of a canvass of all stores. -/
structure Plan where
  /-- The stores that take a turn without having approved, by first mention. -/
  drafted : List StoreName
  /-- The schedule; empty when no store approved. -/
  verdict : Except Refusal (List StoreName)

namespace Plan

/-- The first prerequisite that is not registered, with the store that named it: the ballots are
searched in their order, the prerequisites of a vote in ascending order. -/
def unregistered? (isRegistered : StoreName → Bool) (ballots : List Ballot) :
    Option (StoreName × StoreName) :=
  ballots.findSome? fun ballot =>
    (ballot.vote.prerequisites.toList.find? (!isRegistered ·)).map (·, ballot.store)

def ofBallots (isRegistered : StoreName → Bool) (ballots : List Ballot) : Plan :=
  match unregistered? isRegistered ballots with
  | some (store, dependent) => ⟨[], .error (.unregistered store dependent)⟩
  | none =>
    let precedence := Precedence.ofBallots ballots
    ⟨precedence.drafted, precedence.schedule⟩

end Plan

end Concord
