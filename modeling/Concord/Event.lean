import Concord.Inspect
import Concord.LogLine
import Concord.Outcome

/-!
# Lifecycle events

What the engine tells its observers while it takes an action from hand-over to unlock, and the
forms in which an event is written down.
-/

namespace Concord

/-- What is asked of the actions that an engine carries: a stable name of the kind of action for
logs, and a text of the action itself for records. The engine looks no further. -/
class Labelled (α : Type) where
  kind : α → String
  text : α → String

structure ObserverName where
  name : String
deriving DecidableEq, Hashable, Inhabited, Repr

inductive EventKind where
  | dispatch
  | lock
  | execute
  | ack
  | nack
  | unlock
  | drop
  | abort
deriving DecidableEq, Inhabited, Repr

def EventKind.name : EventKind → String
  | dispatch => "dispatch"
  | lock => "lock"
  | execute => "execute"
  | ack => "ack"
  | nack => "nack"
  | unlock => "unlock"
  | drop => "drop"
  | abort => "abort"

inductive Event (α : Type) where
  /-- An action was taken from the inbox. -/
  | dispatch (action : α)
  | lock
  | execute (store : StoreName) (action : α)
  | ack (store : StoreName) (action : α)
  | nack (store : StoreName) (action : α) (why : Failure)
  /-- An action has ended, in whatever way. -/
  | unlock
  /-- The action arrived while the backlog was full and is discarded. -/
  | drop (action : α)
  /-- The ballots on the action admit no execution order. -/
  | abort (action : α) (error : Refusal)
deriving DecidableEq, Inhabited, Repr

namespace Event

variable {α : Type}

def kind : Event α → EventKind
  | dispatch _ => .dispatch
  | lock => .lock
  | execute .. => .execute
  | ack .. => .ack
  | nack .. => .nack
  | unlock => .unlock
  | drop _ => .drop
  | abort .. => .abort

def store? : Event α → Option StoreName
  | execute store _ | ack store _ | nack store _ _ => some store
  | _ => none

def action? : Event α → Option α
  | lock | unlock => none
  | dispatch action | execute _ action | ack _ action | nack _ action _ | drop action
  | abort action _ => some action

def reason? : Event α → Option String
  | nack _ _ why => some why.message
  | abort _ error => some error.message
  | _ => none

variable [Labelled α]

/-- The structural text of the event as it stands in a record. -/
def inspect (e : Event α) : String :=
  let name := match e with
    | dispatch _ => "Dispatch"
    | lock => "Lock"
    | execute .. => "Execute"
    | ack .. => "Ack"
    | nack .. => "Nack"
    | unlock => "Unlock"
    | drop _ => "Drop"
    | abort .. => "Abort"
  let fields :=
    (e.store?.map fun store => ("store", store.inspect)).toList ++
    (e.action?.map fun action => ("action", Text.quote (Labelled.text action))).toList ++
    (e.reason?.map fun reason => ("error", Text.quote reason)).toList
  if fields.isEmpty then name else inspectRecord name fields

/-- Where the lines about observers and their records go. -/
def logTarget : String := "circuit_dispatch::diagnostics"

/-- The log line that a tracing observer writes for an event: trouble is a warning and all else is
for debugging. -/
def line (e : Event α) : LogLine :=
  let (level, message) := match e with
    | dispatch _ => (Level.debug, "Dispatch")
    | lock => (.debug, "Dispatcher locked")
    | execute .. => (.debug, "Execute")
    | ack .. => (.debug, "Ack")
    | nack .. => (.warn, "Nack")
    | unlock => (.debug, "Dispatcher unlocked")
    | drop _ => (.warn, "Dropped")
    | abort .. => (.warn, "Aborted")
  { level, target := logTarget, message
    fields :=
      (e.store?.map fun store => ("store", .label store.name)).toList ++
      (e.action?.map fun action => ("action", .label (Labelled.kind action))).toList ++
      (e.reason?.map fun reason => ("error", .words reason)).toList }

end Event

def executedStores {α : Type} (events : List (Event α)) : List StoreName :=
  events.filterMap fun
    | .execute store _ => some store
    | _ => none

def droppedActions {α : Type} (events : List (Event α)) : List α :=
  events.filterMap fun
    | .drop action => some action
    | _ => none

end Concord
