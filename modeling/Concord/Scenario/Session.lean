import Concord.Engine.Loop
import Concord.Scenario.Trace

/-!
# Sessions with an engine

A session drives one engine with scripted stores and observers from the outside. After each step
the engine runs as far as it can by itself, unless the step holds it back, and the session reports
what has become visible.
-/

namespace Concord.Scenario

structure StoreCard where
  id : StoreName
  script : StoreScript

/-- An observer as a scenario declares it. -/
structure ObserverCard where
  id : ObserverName
  kind : ObserverKind
  /-- How often it is registered before the start. -/
  registrations : Nat
  cues : List (Cue EventKind)

inductive Step where
  | dispatch (actions : List SampleAction)
  | status
  | shutdown
  | clone (name : String)
  | drop
  | watch (observer : ObserverName)
  | unwatch (observer : ObserverName)
  | resolve (outcome : Outcome)
  | read (observer : ObserverName)
  | pump
  | kill

def Step.needsHandle : Step → Bool
  | resolve _ | read _ | pump | kill => false
  | _ => true

/-- A step, the name of the handle it is taken through, and whether the engine is held back after
it. -/
structure StepCard where
  step : Step
  via : String
  hold : Bool

structure Declaration where
  capacity : Nat
  threshold : Option Level
  /-- Whether a handle is taken before the engine is built. -/
  early : Bool
  stores : List StoreCard
  observers : List ObserverCard

inductive StepResult where
  | ok
  | sent
  | noHandle
  | status (status : Option Status)
  /-- The status is not answered yet. -/
  | pending
  /-- The store whose channel was settled, if one was aside. -/
  | resolved (store : Option StoreName)
  | record (events : List (Event SampleAction))

inductive Visible where
  | running
  | stopped
  | killed
  /-- It was never built. -/
  | absent
deriving DecidableEq, Repr

structure StepReport where
  result : StepResult
  trace : List TraceLine
  visible : Visible
  /-- The answers to earlier requests for a status that came during the step. -/
  late : List (Inquiry × Option Status)

namespace Declaration

/-- The name of the handle that building an engine gives out. -/
def mainHandle : String := "main"

/-- The name of the handle that is taken before. -/
def earlyHandle : String := "early"

def lens (declared : Declaration) : Lens :=
  { kinds := declared.observers.map fun card => (card.id, card.kind)
    threshold := declared.threshold }

def roster (declared : Declaration) : Except Refusal (Roster (Store Stage SampleAction)) :=
  Roster.ofBindings (declared.stores.map fun card => (card.id, Stage.store card.id))

def setup (declared : Declaration) (stores : Roster (Store Stage SampleAction)) :
    Setup Stage SampleAction :=
  { stores
    observe := fun observer event stage =>
      ((declared.lens.kind? observer).getD .silent).react observer event stage }

def stage (declared : Declaration) : Stage :=
  { stores := declared.stores.map fun card => (card.id, card.script)
    probes := declared.observers.map fun card => (card.id, card.cues)
    parked := [] }

/-- The handles that scripts keep: one for each store and observer with any cue. -/
def scriptHandles (declared : Declaration) : Nat :=
  declared.stores.countP (fun card => !card.script.cues.isEmpty) +
    declared.observers.countP (fun card => !card.cues.isEmpty)

end Declaration

structure Session where
  lens : Lens
  setup : Setup Stage SampleAction
  built : Bool
  engine : Engine Stage SampleAction
  /-- The names of the handles that the outside holds. -/
  handles : List String
  /-- The requests for a status that are not answered; each keeps a handle. -/
  waiting : List Inquiry

namespace Session

/-- A session whose engine is built and has not run. -/
def opened (declared : Declaration) (stores : Roster (Store Stage SampleAction)) : Session :=
  let handles :=
    Declaration.mainHandle :: (if declared.early then [Declaration.earlyHandle] else [])
  let registered := declared.observers.flatMap fun card => List.replicate card.registrations card.id
  let world := World.initial declared.stage (handles.length + declared.scriptHandles) []
  { lens := declared.lens
    setup := declared.setup stores
    built := true
    engine := .initial declared.capacity (registered.foldl World.watch world)
    handles
    waiting := [] }

/-- A session whose engine could not be built: only a handle taken before can be used, and nobody
reads what is sent through it. -/
def unbuilt (declared : Declaration) : Session :=
  let handles := if declared.early then [Declaration.earlyHandle] else []
  let engine := Engine.initial declared.capacity
    (World.initial declared.stage handles.length [])
  { lens := declared.lens
    setup := declared.setup .empty
    built := false
    engine := engine.kill
    handles
    waiting := [] }

def world (s : Session) : World Stage SampleAction := s.engine.world

def request (s : Session) (requests : List (Request SampleAction)) : Session :=
  { s with engine := s.engine.interact ⟨s.world.host, requests, ()⟩ }

/-- Runs the engine as far as it gets by itself. Each turn takes a message, of which there are
those in the inbox and at most one for each deed left; or goes on after an answer on a channel,
which is there already or is given by a deed; or is one of the first turn, the end of reading and
the last turn. -/
def pump (s : Session) : Session :=
  let turns := s.world.inbox.length + s.world.host.usesLeft + 4
  { s with engine := s.engine.takeTurns s.setup turns }

/-- Gives up the handles of the requests that have been answered; `none` if there are none. -/
def freeAnswered? (s : Session) (mark : Nat) : Option Session :=
  let answers := s.world.answersSince mark
  let (answered, waiting) := s.waiting.partition fun inquiry => answers.any (·.1 = inquiry)
  if answered.isEmpty then none
  else some ({ s with waiting }.request (answered.map fun _ => .release))

/-- Runs the engine, unless it is held back, and gives up the handles of answered requests, until
nothing changes any more. Each round but the last answers a request, so one round more than there
are requests is enough. -/
def quiesce (hold : Bool) (mark : Nat) : Nat → Session → Session
  | 0, s => s
  | rounds + 1, s =>
    let s := if hold then s else s.pump
    match s.freeAnswered? mark with
    | none => s
    | some s => quiesce hold mark rounds s

/-- Takes a step through a handle or from the outside, before the engine runs. -/
def act (s : Session) (inquiry : Inquiry) (via : String) : Step → StepResult × Session
  | .dispatch actions => (.sent, s.request (actions.map fun action => .send (.dispatch action)))
  | .status =>
    (.pending,
      { s with waiting := s.waiting ++ [inquiry] }.request [.clone, .send (.status inquiry)])
  | .shutdown => (.sent, s.request [.send .shutdown])
  | .clone name =>
    if name ∈ s.handles then (.ok, s)
    else (.ok, { s with handles := s.handles ++ [name] }.request [.clone])
  | .drop => (.ok, { s with handles := s.handles.filter (· ≠ via) }.request [.release])
  | .watch observer => (.ok, s.request [.watch observer])
  | .unwatch observer => (.ok, s.request [.unwatch observer])
  | .resolve outcome =>
    let stage := s.world.host
    match stage.parked with
    | [] => (.resolved none, s)
    | (store, ticket) :: parked =>
      (.resolved (some store),
        { s with
          engine := s.engine.interact
            ⟨{ stage with parked }, [.resolve ticket outcome], ()⟩ })
  | .read observer => (.record (s.lens.record s.world observer), s)
  | .pump => (.ok, s)
  | .kill => (.ok, { s with engine := s.engine.kill })

def visible (s : Session) : Visible :=
  if s.built then
    match s.engine.life with
    | .fresh | .running => .running
    | .stopped => .stopped
    | .killed => .killed
  else .absent

/-- Takes one step, whose number also names the request for a status that it may make, and reports
on it. -/
def step (s : Session) (number : Nat) (card : StepCard) : StepReport × Session :=
  let mark := s.world.past.length
  let (result, s) :=
    if card.step.needsHandle ∧ card.via ∉ s.handles then (.noHandle, s)
    else s.act number card.via card.step
  let s := s.quiesce card.hold mark (s.waiting.length + 1)
  let answers := s.world.answersSince mark
  let result := match result with
    | .pending =>
      match answers.find? (·.1 = number) with
      | some (_, status) => .status status
      | none => .pending
    | result => result
  ({ result
     trace := s.lens.traceSince s.world mark
     visible := s.visible
     late := answers.filter (·.1 ≠ number) },
   s)

def run : Nat → List StepCard → Session → List StepReport
  | _, [], _ => []
  | number, card :: cards, s =>
    let (report, s) := s.step number card
    report :: run (number + 1) cards s

end Session

/-- Carries a scenario out. The steps are taken even if the engine cannot be built; why it cannot is
the first part of the result. -/
def Declaration.play (declared : Declaration) (steps : List StepCard) :
    Option Refusal × List StepReport :=
  match declared.roster with
  | .ok stores => (none, (Session.opened declared stores).run 0 steps)
  | .error error => (some error, (Session.unbuilt declared).run 0 steps)

end Concord.Scenario
