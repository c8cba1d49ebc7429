import Concord.Engine.Basic

/-!
# The course of an action

An action is locked in, the stores are canvassed, the ballots are weighed, the stores of the
schedule are visited one after the other, those that acknowledged are told of the end, and the lock
is lifted. A store may keep its channel; the course then stops at that store, to be carried on when
the channel is settled.
-/

namespace Concord.Engine

variable {σ α : Type} (setup : Setup σ α)

def release (e : Engine σ α) : Engine σ α :=
  { e with phase := .idle }.announce setup .unlock

/-- Signals the stores that acknowledged and ends the action. -/
def conclude (walk : Walk α) (e : Engine σ α) : Engine σ α :=
  let acked := walk.acked.length
  let e := { e with world := walk.acked.foldl (World.signal setup walk.action) e.world }
  (e.note (.complete walk.action acked (walk.order.length - acked))).countProcessed.release setup

/-- Visits the given stores in turn and then ends the action. A channel that is settled before its
store returns is dealt with on the spot; at the first one that is not, the engine waits. -/
def visit : List StoreName → Walk α → Engine σ α → Engine σ α
  | [], walk, e => e.conclude setup walk
  | store :: rest, walk, e =>
    match setup.stores.find? store with
    | none => visit rest walk.skip e
    | some callbacks =>
      let world := (e.world.announce setup (.execute store walk.action)).assign store callbacks
        walk.action
      match world.channel.outcome with
      | none => { e with world, phase := .waiting walk store world.channel.ticket }
      | some outcome =>
        visit rest (walk.pass store outcome)
          { e with world := world.announceOutcome setup store walk.action outcome }

/-- Goes past the store that the engine waited for, whose channel has the given outcome, and on
through the rest of the walk. -/
def carryOn (walk : Walk α) (store : StoreName) (outcome : Outcome) (e : Engine σ α) : Engine σ α :=
  let passed := walk.pass store outcome
  visit setup passed.ahead passed
    { e with
      phase := .idle
      world := e.world.announceOutcome setup store walk.action outcome }

/-- Canvasses all stores and weighs their ballots. Stores that are to take a turn without having
approved are noted. -/
def weigh (action : α) (e : Engine σ α) : Except Refusal (List StoreName) × Engine σ α :=
  let (ballots, world) := World.canvass action setup.stores.entries e.world
  let plan := Plan.ofBallots setup.stores.contains ballots
  (plan.verdict,
    { e with
      world := plan.drafted.foldl (fun world store => world.note (.drafted store action)) world })

/-- Undertakes an action: it is walked through its schedule, ended at once when no store takes part,
or aborted when the ballots admit no schedule. -/
def undertake (action : α) (e : Engine σ α) : Engine σ α :=
  let (verdict, e) := (e.announce setup .lock).weigh setup action
  match verdict with
  | .ok [] => (e.note (.nobodyApproved action)).countProcessed.release setup
  | .ok order => visit setup order (.start action order) (e.note (.executing action order.length))
  | .error error =>
    ((e.note (.aborting action error)).countAborted.announce setup (.abort action error)).release
      setup

/-- Undertakes waiting actions, the oldest first, at most the given number of them, while none
waits for a channel. -/
def undertakeUpTo : Nat → Engine σ α → Engine σ α
  | 0, e => e
  | n + 1, e =>
    if e.isBusy then e
    else match e.backlog.oldest? with
      | none => e
      | some (action, backlog) => undertakeUpTo n ({ e with backlog }.undertake setup action)

/-- Undertakes waiting actions until one waits for a channel or none is left. To undertake an action
adds none to the backlog, so as many attempts as there are waiting actions are enough. -/
def undertakeWaiting (e : Engine σ α) : Engine σ α := e.undertakeUpTo setup e.backlog.length

end Concord.Engine
