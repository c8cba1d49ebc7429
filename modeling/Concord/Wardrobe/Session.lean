import Concord.Engine.Loop
import Concord.Wardrobe.Garments

/-!
# Sessions with the wardrobe

A session hands actions to the wardrobe's engine and moves its clock. Everything else runs as far as
it can without time passing: the engine until it waits, then the coat's errands that are due, and
again.
-/

namespace Concord.Wardrobe

def recorder : ObserverName := ⟨"recorder"⟩

def tracer : ObserverName := ⟨"tracer"⟩

def setup (stores : Roster (Store Closet Chore)) : Setup Closet Chore :=
  { stores
    observe := fun observer event closet =>
      ⟨closet, if observer = tracer then [.write event.line] else [], none⟩ }

structure Session where
  setup : Setup Closet Chore
  engine : Engine Closet Chore
  /-- The names of the extra garments, as they were given. -/
  extras : List StoreName

namespace Session

/-- A session with a wardrobe that has not run. One handle is the socks' and the other the
outside's. -/
def opened (capacity : Nat) (observers : List ObserverName) (extras : List Garment) :
    Except Refusal Session := do
  let stores ← Roster.ofBindings (bindings extras)
  return {
    setup := Wardrobe.setup stores
    engine := .initial capacity (.initial .initial 2 observers)
    extras := extras.map Garment.id }

def world (s : Session) : World Closet Chore := s.engine.world

def closet (s : Session) : Closet := s.world.host

/-- An upper bound on the actions that are under way: in the inbox, in the backlog or at work. -/
def underWay (s : Session) : Nat := s.world.inbox.length + s.engine.backlog.length + 1

def request (s : Session) (requests : List (Request Chore)) : Session :=
  { s with engine := s.engine.interact ⟨s.closet, requests, ()⟩ }

/-- Runs the engine as far as it gets by itself. Each action under way takes at most one turn
and may bring about one more, its laundering. -/
def pump (s : Session) : Session :=
  { s with engine := s.engine.takeTurns s.setup (2 * s.underWay + 4) }

def runErrand? (s : Session) : Option Session :=
  let isDue (errand : Errand) : Bool := errand.due ≤ s.closet.clock
  (s.closet.errands.find? isDue).map fun errand =>
    let closet := { s.closet with errands := s.closet.errands.eraseP isDue }
    { s with engine := s.engine.interact (errand.run closet) }

/-- Runs the engine and the errands that are due in turns, at most the given number. -/
def settleTurns : Nat → Session → Session
  | 0, s => s.pump
  | n + 1, s =>
    let s := s.pump
    match s.runErrand? with
    | none => s
    | some s => settleTurns n s

/-- Runs everything as far as it gets without time passing. An action has one errand at most. -/
def settle (s : Session) : Session := s.settleTurns s.underWay

def advance (ms : Nat) (s : Session) : Session :=
  let closet := { s.closet with clock := s.closet.clock + ms }
  { s with engine := s.engine.interact ⟨closet, [], ()⟩ }.settle

def dispatch (actions : List Chore) (s : Session) : Session :=
  (s.request (actions.map fun action => .send (.dispatch action))).settle

/-- The status, as the answer to a request; nothing once the engine takes no more. -/
def status (s : Session) : Option Status × Session :=
  let mark := s.world.past.length
  let s := (s.request [.send (.status 0)]).settle
  (((s.world.answersSince mark).head?.map Prod.snd).join, s)

/-- How far the clock is moved at a time to see whether the wardrobe has come to rest: more than
the coat takes. -/
def patience : Nat := 60

/-- Asks for the status and moves the clock in turns, at most the given number, while an action is
executing or queued. The last status is the result. -/
def idleTurns : Nat → Session → Option Status × Session
  | 0, s => s.status
  | n + 1, s =>
    let (status, s) := s.status
    match status with
    | none => (none, s)
    | some status =>
      if status.locked ∨ 0 < status.queued then idleTurns n (s.advance patience)
      else (some status, s)

/-- Lets time pass until nothing is executing or queued, or until the status is not answered any
more. Each time one action at least comes to its end. -/
def idle (s : Session) : Option Status × Session := s.idleTurns (2 * s.underWay)

def shutdown (s : Session) : Session := (s.request [.send .shutdown]).settle

/-- Which garments are worn: the wardrobe's own first, then the extra ones. -/
def worn (s : Session) : List (StoreName × Bool) :=
  ([trousersId, socksId, shoesId, coatId] ++ s.extras).map fun id => (id, s.closet.isWorn id)

end Session

inductive Step where
  | dispatch (actions : List Chore)
  | advance (ms : Nat)
  | idle
  | status
  | shutdown

inductive StepResult where
  | ok
  | status (status : Option Status)

structure StepReport where
  result : StepResult
  worn : List (StoreName × Bool)
  washes : UInt32
  events : List (Event Chore)
  /-- The log lines written during the step that are at least as grave as asked for. -/
  lines : List LogLine
  stopped : Bool

namespace Session

def act (s : Session) : Step → StepResult × Session
  | .dispatch actions => (.ok, s.dispatch actions)
  | .advance ms => (.ok, s.advance ms)
  | .idle => (.ok, s.idle.2)
  | .status =>
    let (status, s) := s.status
    (.status status, s)
  | .shutdown => (.ok, s.shutdown)

def step (threshold : Option Level) (s : Session) (step : Step) : StepReport × Session :=
  let mark := s.world.past.length
  let (result, s) := s.act step
  let entries := s.world.since mark
  ({ result
     worn := s.worn
     washes := s.closet.washes
     events := entries.filterMap (Entry.received? recorder)
     lines := (entries.filterMap Entry.logLine?).filter fun line => line.passes threshold
     stopped := s.engine.life = .stopped },
   s)

def run (threshold : Option Level) : List Step → Session → List StepReport
  | [], _ => []
  | next :: steps, s =>
    let (report, s) := s.step threshold next
    report :: run threshold steps s

end Session

end Concord.Wardrobe
