import Concord.Notice

/-!
# The shared world

The part of an engine's state that reaches beyond it: the inbox with its handles, the list of
observers, the channel of the store at work, and the state that the callbacks keep among
themselves. Whatever a store, an observer or the outside asks for goes through `perform`, so a
request means the same from wherever it comes. Every observable step is put on record, newest
first, in `past`.
-/

namespace Concord

/-- Numbers the channels in the order in which they are opened, from one. -/
abbrev Ticket := Nat

abbrev Inquiry := Nat

structure Status where
  locked : Bool
  /-- Actions that wait for the current one to end. -/
  queued : Nat
  /-- Actions that ran to their end, also those that no store approved. -/
  processed : Nat
  /-- Actions discarded because the backlog was full. -/
  dropped : Nat
  /-- Actions whose ballots admitted no execution order. -/
  aborted : Nat
deriving DecidableEq, Inhabited, Repr

inductive Message (α : Type) where
  | dispatch (action : α)
  | status (inquiry : Inquiry)
  | shutdown
deriving DecidableEq, Repr

/-- Everything that can be asked for through a handle or a channel. -/
inductive Request (α : Type) where
  | send (message : Message α)
  | clone
  | release
  | watch (observer : ObserverName)
  | unwatch (observer : ObserverName)
  /-- Answers on a channel, or lets go of it. -/
  | resolve (ticket : Ticket) (outcome : Outcome)
  | write (line : LogLine)
deriving DecidableEq, Repr

inductive Speaker where
  | store (store : StoreName)
  | observer (observer : ObserverName)
  | outside
deriving DecidableEq, Repr

inductive Callback (α : Type) where
  | vote (store : StoreName) (action : α)
  | complete (store : StoreName) (action : α) (ticket : Ticket)
  | signal (store : StoreName) (action : α)
deriving DecidableEq, Repr

/-- One observable step. -/
inductive Entry (α : Type) where
  | sent (message : Message α)
  | took (message : Message α)
  | called (callback : Callback α)
  | voted (ballot : Ballot)
  | settled (ticket : Ticket) (outcome : Outcome)
  | announced (event : Event α) (observers : List ObserverName)
  | delivered (observer : ObserverName) (event : Event α)
  | noted (notice : Notice α)
  | wrote (speaker : Speaker) (line : LogLine)
  /-- A request for a status is answered; `none` says that the engine is gone. -/
  | answered (inquiry : Inquiry) (status : Option Status)
deriving DecidableEq, Repr

namespace Entry

variable {α : Type}

def received? (observer : ObserverName) : Entry α → Option (Event α)
  | delivered receiver event => if receiver = observer then some event else none
  | _ => none

def answer? : Entry α → Option (Inquiry × Option Status)
  | answered inquiry status => some (inquiry, status)
  | _ => none

def logLine? [Labelled α] : Entry α → Option LogLine
  | noted notice => some notice.line
  | wrote _ line => some line
  | _ => none

end Entry

/-- The channel opened last. Channels opened earlier are settled, so nobody listens to them. -/
structure Channel where
  ticket : Ticket
  outcome : Option Outcome
deriving DecidableEq, Inhabited, Repr

/-- What callbacks and handles can reach. -/
structure World (σ α : Type) where
  /-- The state that stores, observers and the outside keep among themselves. -/
  host : σ
  /-- Messages that wait to be taken, the oldest first. -/
  inbox : List (Message α)
  isOpen : Bool
  handles : Nat
  /-- The observers, in the order in which they receive events. -/
  observers : List ObserverName
  channel : Channel
  /-- All observable steps, the newest first. -/
  past : List (Entry α)

/-- How a callback answers: the state it leaves, what it asks for meanwhile, and its result. -/
structure Reaction (σ α β : Type) where
  host : σ
  requests : List (Request α)
  answer : β

namespace World

variable {σ α β : Type}

def initial (host : σ) (handles : Nat) (observers : List ObserverName) : World σ α :=
  { host, inbox := [], isOpen := true, handles, observers, channel := ⟨0, none⟩, past := [] }

/-- All observable steps, the oldest first. -/
def history (w : World σ α) : List (Entry α) := w.past.reverse

/-- The steps taken since the past had the given length, the oldest first. -/
def since (w : World σ α) (mark : Nat) : List (Entry α) :=
  (w.past.take (w.past.length - mark)).reverse

/-- The events that an observer has received, the oldest first. -/
def received (w : World σ α) (observer : ObserverName) : List (Event α) :=
  w.history.filterMap (Entry.received? observer)

/-- The answers given since the past had the given length, in order. -/
def answersSince (w : World σ α) (mark : Nat) : List (Inquiry × Option Status) :=
  (w.since mark).filterMap Entry.answer?

def record (w : World σ α) (entry : Entry α) : World σ α := { w with past := entry :: w.past }

def note (w : World σ α) (notice : Notice α) : World σ α := w.record (.noted notice)

/-- Puts a message into the inbox. A closed inbox takes none: an action is then lost with a notice
and a request for a status is answered with nothing. Without a handle there is nothing to send
through. -/
def send (w : World σ α) (message : Message α) : World σ α :=
  if w.handles = 0 then w
  else if w.isOpen then { w with inbox := w.inbox ++ [message] }.record (.sent message)
  else match message with
    | .dispatch action => w.note (.refused action)
    | .status inquiry => w.record (.answered inquiry none)
    | .shutdown => w

/-- Puts an observer behind the others; one that is there already keeps its place. -/
def watch (w : World σ α) (observer : ObserverName) : World σ α :=
  if observer ∈ w.observers then w else { w with observers := w.observers ++ [observer] }

def unwatch (w : World σ α) (observer : ObserverName) : World σ α :=
  { w with observers := w.observers.filter (· ≠ observer) }

/-- Settles a channel. Only the channel opened last is listened to, and its first answer holds. -/
def resolve (w : World σ α) (ticket : Ticket) (outcome : Outcome) : World σ α :=
  if w.channel.ticket = ticket ∧ w.channel.outcome = none then
    { w with channel := ⟨ticket, some outcome⟩ }.record (.settled ticket outcome)
  else w

def perform (speaker : Speaker) (w : World σ α) : Request α → World σ α
  | .send message => w.send message
  | .clone => if w.handles = 0 then w else { w with handles := w.handles + 1 }
  | .release => { w with handles := w.handles - 1 }
  | .watch observer => w.watch observer
  | .unwatch observer => w.unwatch observer
  | .resolve ticket outcome => w.resolve ticket outcome
  | .write line => w.record (.wrote speaker line)

/-- Takes over the state that a callback leaves and does what it asked for, in order. -/
def absorb (speaker : Speaker) (reaction : Reaction σ α β) (w : World σ α) : World σ α :=
  reaction.requests.foldl (perform speaker) { w with host := reaction.host }

/-- Closes the inbox for good. Requests for a status that wait in it are answered with nothing, and
all else in it is lost. -/
def discardInbox (w : World σ α) : World σ α :=
  w.inbox.foldl
    (fun w message => match message with
      | .status inquiry => w.record (.answered inquiry none)
      | _ => w)
    { w with inbox := [], isOpen := false }

end World

end Concord
