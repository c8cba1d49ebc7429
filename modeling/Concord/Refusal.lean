import Concord.StoreName

/-!
# Refusals

The four reasons for which a registration, an action or a setting is refused, with the one message
that each of them has.
-/

namespace Concord

inductive Refusal where
  | nameTaken (store : StoreName)
  /-- The stores wait for themselves, directly or through others. -/
  | circular (stores : List StoreName)
  /-- An approving store waits for a name that is not registered. -/
  | unregistered (store dependent : StoreName)
  | setting (reason : String)
deriving DecidableEq, Inhabited, Repr

namespace Refusal

/-- The message shown to the operator. -/
def message : Refusal → String
  | nameTaken store => String.join ["Store ", store.name, " already registered"]
  | circular stores =>
    String.join ["Cycle detected in store dependencies: ",
      String.intercalate " > " (stores.map StoreName.name)]
  | unregistered store dependent =>
    String.join ["Store ", dependent.name, " depends on unregistered store ", store.name]
  | setting reason => String.join ["Configuration error: ", reason]

end Refusal

end Concord
