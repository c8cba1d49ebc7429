import Concord.Engine.Course

/-!
# The loop of an engine

`turn?` is one turn of the loop. It has no result exactly when the engine can do nothing by itself:
it waits for a message or for a channel, or it has ended. While the inbox is read, it goes before an
answer on the channel.
-/

namespace Concord.Engine

variable {σ α : Type} (setup : Setup σ α)

/-- Accepts an action: it is undertaken at once, waits behind the one at work, or is dropped. -/
def accept (action : α) (e : Engine σ α) : Engine σ α :=
  let e := e.announce setup (.dispatch action)
  if e.isBusy then
    match e.backlog.put action with
    | .ok backlog => { e with backlog }
    | .error action =>
      (e.note (.backlogFull action e.backlog.capacity)).countDropped.announce setup (.drop action)
  else (e.undertake setup action).undertakeWaiting setup

/-- Does what a message from the inbox says. A shutdown closes the inbox; what is still in it is not
read any more. -/
def obey (message : Message α) (e : Engine σ α) : Engine σ α :=
  match message with
  | .dispatch action => e.accept setup action
  | .status inquiry => { e with world := e.world.record (.answered inquiry (some e.status)) }
  | .shutdown =>
    let e := e.note (.shuttingDown e.backlog.length)
    { e with listening := false, world := { e.world with isOpen := false } }

/-- Takes the next message from the inbox. When there is none and no handle is left, the inbox is
not read any more. -/
def read? (e : Engine σ α) : Option (Engine σ α) :=
  match e.world.inbox with
  | message :: inbox =>
    some ({ e with world := { e.world with inbox }.record (.took message) }.obey setup message)
  | [] => if e.world.handles = 0 then some { e with listening := false } else none

/-- Deals with the channel that the engine waits for, if it is settled, goes on with the walk and
then with the backlog. -/
def proceed? (walk : Walk α) (store : StoreName) (e : Engine σ α) : Option (Engine σ α) :=
  e.world.channel.outcome.map fun outcome =>
    (e.carryOn setup walk store outcome).undertakeWaiting setup

def stop (e : Engine σ α) : Engine σ α :=
  let e := e.note (.stopped e.tally.processed e.tally.dropped e.tally.aborted)
  { e with life := .stopped, world := e.world.discardInbox }

/-- One turn of the loop, if there is anything to do. -/
def turn? (e : Engine σ α) : Option (Engine σ α) :=
  match e.life with
  | .fresh =>
    some { e.note (.started setup.stores.size e.backlog.capacity) with life := .running }
  | .running =>
    match e.phase, e.listening with
    | .idle, true => e.read? setup
    | .idle, false => some e.stop
    | .waiting walk store _, true => e.read? setup <|> e.proceed? setup walk store
    | .waiting walk store _, false => e.proceed? setup walk store
  | .stopped | .killed => none

/-- Takes turns while there is anything to do, at most the given number. -/
def takeTurns : Nat → Engine σ α → Engine σ α
  | 0, e => e
  | n + 1, e =>
    match e.turn? setup with
    | none => e
    | some e => takeTurns n e

end Concord.Engine
