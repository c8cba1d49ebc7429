import Concord.Event

/-!
# Notices

What the engine itself puts into the log, each notice with the severity, wording and values it
is logged with.
-/

namespace Concord

inductive Notice (α : Type) where
  | started (stores capacity : Nat)
  | stopped (processed dropped aborted : Nat)
  /-- An action was handed to an inbox that takes no more. -/
  | refused (action : α)
  /-- A shutdown was taken from the inbox while this many actions were waiting. -/
  | shuttingDown (waiting : Nat)
  /-- An action finds no place in the backlog. -/
  | backlogFull (action : α) (capacity : Nat)
  | nobodyApproved (action : α)
  | executing (action : α) (stores : Nat)
  | aborting (action : α) (error : Refusal)
  /-- The store takes its turn although it did not approve. -/
  | drafted (store : StoreName) (action : α)
  | storeFailed (store : StoreName) (action : α) (why : Failure)
  | complete (action : α) (acked failed : Nat)
  | observerFailed (observer : ObserverName) (event : EventKind) (why : Failure)
deriving DecidableEq, Repr

namespace Notice

def logTarget : String := "circuit_dispatch::dispatcher"

variable {α : Type} [Labelled α]

def line : Notice α → LogLine
  | started stores capacity =>
    ⟨.info, logTarget, "Dispatcher started",
      [("stores", .count stores), ("queue_capacity", .count capacity)]⟩
  | stopped processed dropped aborted =>
    ⟨.info, logTarget, "Dispatcher stopped",
      [("processed", .count processed), ("dropped", .count dropped),
       ("aborted", .count aborted)]⟩
  | refused action =>
    ⟨.warn, logTarget, "Dispatcher stopped, dropping action",
      [("action", .label (Labelled.kind action))]⟩
  | shuttingDown 0 => ⟨.debug, logTarget, "Dispatcher shutting down", []⟩
  | shuttingDown waiting =>
    ⟨.debug, logTarget, "Dispatcher shutting down, draining queue", [("queued", .count waiting)]⟩
  | backlogFull action capacity =>
    ⟨.warn, logTarget, "Dispatcher is dropping action, queue is full",
      [("action", .label (Labelled.kind action)), ("capacity", .count capacity)]⟩
  | nobodyApproved action =>
    ⟨.debug, logTarget, "No store approved action", [("action", .label (Labelled.kind action))]⟩
  | executing action stores =>
    ⟨.debug, logTarget, "Executing action",
      [("action", .label (Labelled.kind action)), ("stores", .count stores)]⟩
  | aborting action error =>
    ⟨.error, logTarget, "Aborting action",
      [("action", .label (Labelled.kind action)), ("error", .words error.message)]⟩
  | drafted store action =>
    ⟨.warn, logTarget, "Store executes as a dependency without approving the action",
      [("store", .label store.name), ("action", .label (Labelled.kind action))]⟩
  | storeFailed store action why =>
    ⟨.debug, logTarget, "Store failed to process action",
      [("store", .label store.name), ("action", .label (Labelled.kind action)),
       ("error", .words why.message)]⟩
  | complete action acked failed =>
    ⟨.debug, logTarget, "Action complete",
      [("action", .label (Labelled.kind action)), ("acked", .count acked),
       ("failed", .count failed)]⟩
  | observerFailed _ event why =>
    ⟨.warn, Event.logTarget, "Diagnostics observer failed",
      [("event", .label event.name), ("error", .words why.message)]⟩

end Notice

end Concord
