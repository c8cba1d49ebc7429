import Concord.Backlog
import Concord.Setup

/-!
# The engine

An engine takes one action at a time through the stores. The types below separate what only the
engine changes from the world that callbacks reach, so no callback can touch the backlog, the phase
or the counters.
-/

namespace Concord

structure Walk (α : Type) where
  action : α
  order : List StoreName
  /-- How many stores of the order are done with. -/
  cursor : Nat
  /-- The stores that acknowledged, in the order in which they did. -/
  acked : List StoreName
deriving DecidableEq, Repr

namespace Walk

variable {α : Type}

def start (action : α) (order : List StoreName) : Walk α := ⟨action, order, 0, []⟩

def ahead (walk : Walk α) : List StoreName := walk.order.drop walk.cursor

def skip (walk : Walk α) : Walk α := { walk with cursor := walk.cursor + 1 }

def pass (walk : Walk α) (store : StoreName) (outcome : Outcome) : Walk α :=
  { walk with
    cursor := walk.cursor + 1
    acked := if outcome = .ack then walk.acked ++ [store] else walk.acked }

end Walk

/-- What an engine is doing between two turns of its loop. -/
inductive Phase (α : Type) where
  | idle
  /-- Waits for the answer of a store on the channel with the given ticket. -/
  | waiting (walk : Walk α) (store : StoreName) (ticket : Ticket)
deriving DecidableEq, Repr

/-- Counts of the actions that are done with. -/
structure Tally where
  processed : Nat := 0
  dropped : Nat := 0
  aborted : Nat := 0
deriving DecidableEq, Inhabited, Repr

inductive Life where
  | fresh
  | running
  /-- Ended by itself. -/
  | stopped
  /-- Taken away before its end. -/
  | killed
deriving DecidableEq, Inhabited, Repr

structure Engine (σ α : Type) where
  world : World σ α
  /-- The actions that wait for the one at work to end. -/
  backlog : Backlog α
  phase : Phase α
  listening : Bool
  tally : Tally
  life : Life

namespace Engine

variable {σ α : Type}

def initial (capacity : Nat) (world : World σ α) : Engine σ α :=
  { world, backlog := .empty capacity, phase := .idle, listening := true, tally := {},
    life := .fresh }

def isBusy (e : Engine σ α) : Bool :=
  match e.phase with
  | .idle => false
  | .waiting .. => true

def status (e : Engine σ α) : Status :=
  { locked := e.isBusy
    queued := e.backlog.length
    processed := e.tally.processed
    dropped := e.tally.dropped
    aborted := e.tally.aborted }

def note (e : Engine σ α) (notice : Notice α) : Engine σ α :=
  { e with world := e.world.note notice }

def announce (setup : Setup σ α) (e : Engine σ α) (event : Event α) : Engine σ α :=
  { e with world := e.world.announce setup event }

def countProcessed (e : Engine σ α) : Engine σ α :=
  { e with tally.processed := e.tally.processed + 1 }

def countDropped (e : Engine σ α) : Engine σ α :=
  { e with tally.dropped := e.tally.dropped + 1 }

def countAborted (e : Engine σ α) : Engine σ α :=
  { e with tally.aborted := e.tally.aborted + 1 }

def interact (reaction : Reaction σ α Unit) (e : Engine σ α) : Engine σ α :=
  { e with world := e.world.absorb .outside reaction }

/-- Takes the engine away before its end; nothing is said about it. -/
def kill (e : Engine σ α) : Engine σ α :=
  match e.life with
  | .fresh | .running => { e with life := .killed, world := e.world.discardInbox }
  | .stopped | .killed => e

end Engine

end Concord
