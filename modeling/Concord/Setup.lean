import Concord.Plan
import Concord.Roster
import Concord.World

/-!
# Stores and observers

What is registered with an engine. Stores and observers are functions from the state that they
share to their reactions. How a call is made is fixed here: it is put on record, the callback runs,
and its requests are carried out before anything else happens.
-/

namespace Concord

structure Store (σ α : Type) where
  vote : α → σ → Reaction σ α Vote
  /-- Carries an action out; the answer is due on the channel with the given ticket. -/
  complete : α → Ticket → σ → Reaction σ α Unit
  /-- Tells that the action has ended, which only stores that acknowledged hear. -/
  signal : α → σ → Reaction σ α Unit

/-- The stores of an engine, and what each observer does with an event. An observer that fails says
why. -/
structure Setup (σ α : Type) where
  stores : Roster (Store σ α)
  observe : ObserverName → Event α → σ → Reaction σ α (Option Failure)

namespace World

variable {σ α : Type} (setup : Setup σ α)

/-- Hands an event to one observer. Its failure is noted and has no other effect. -/
def hand (event : Event α) (w : World σ α) (observer : ObserverName) : World σ α :=
  let reaction := setup.observe observer event w.host
  let w := (w.record (.delivered observer event)).absorb (.observer observer) reaction
  match reaction.answer with
  | none => w
  | some why => w.note (.observerFailed observer event.kind why)

/-- Hands an event to all observers on the list, in order. The list is the one that stands when the
announcement begins, whatever observers do to it meanwhile. -/
def announce (w : World σ α) (event : Event α) : World σ α :=
  w.observers.foldl (hand setup event) (w.record (.announced event w.observers))

def canvass (action : α) : List (StoreName × Store σ α) → World σ α → List Ballot × World σ α
  | [], w => ([], w)
  | (store, callbacks) :: rest, w =>
    let reaction := callbacks.vote action w.host
    let ballot : Ballot := ⟨store, reaction.answer⟩
    let w := (w.record (.called (.vote store action))).absorb (.store store) reaction
    let (ballots, w) := canvass action rest (w.record (.voted ballot))
    (ballot :: ballots, w)

/-- Opens a new channel and has a store carry the action out. -/
def assign (store : StoreName) (callbacks : Store σ α) (action : α) (w : World σ α) : World σ α :=
  let ticket := w.channel.ticket + 1
  ({ w with channel := ⟨ticket, none⟩ }.record (.called (.complete store action ticket))).absorb
    (.store store) (callbacks.complete action ticket w.host)

def signal (action : α) (w : World σ α) (store : StoreName) : World σ α :=
  match setup.stores.find? store with
  | none => w
  | some callbacks =>
    (w.record (.called (.signal store action))).absorb (.store store)
      (callbacks.signal action w.host)

def announceOutcome (store : StoreName) (action : α) (outcome : Outcome) (w : World σ α) :
    World σ α :=
  match outcome.failure? with
  | none => w.announce setup (.ack store action)
  | some why => (w.note (.storeFailed store action why)).announce setup (.nack store action why)

end World

end Concord
