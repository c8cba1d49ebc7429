import Concord.Scenario.Trace

/-!
# Sessions with a roster

Scripted stores are put on a roster, looked up and called without an engine.
-/

namespace Concord.Scenario

inductive RosterStep where
  | enroll (store : StoreName) (script : StoreScript)
  | contains (store : StoreName)
  | list
  | vote (store : StoreName) (action : SampleAction)
  | signal (store : StoreName) (action : SampleAction)
  | canvass (action : SampleAction)

inductive RosterResult where
  | ok
  | refused (error : Refusal)
  | contained (answer : Bool)
  | names (names : List StoreName)
  | vote (vote : Option Vote)
  /-- The store that should have been called is not registered. -/
  | absent
  | ballots (ballots : List Ballot)

structure RosterReport where
  result : RosterResult
  size : Nat
  isEmpty : Bool
  trace : List TraceLine

structure RosterSession where
  stores : Roster (Store Stage SampleAction)
  world : World Stage SampleAction

namespace RosterSession

def empty : RosterSession := ⟨.empty, .initial ⟨[], [], []⟩ 0 []⟩

/-- The stores under observers that do nothing. -/
def setup (s : RosterSession) : Setup Stage SampleAction :=
  ⟨s.stores, fun _ _ stage => ⟨stage, [], none⟩⟩

def act (s : RosterSession) : RosterStep → RosterResult × RosterSession
  | .enroll store script =>
    match s.stores.enroll store (Stage.store store) with
    | .error error => (.refused error, s)
    | .ok stores =>
      let stage := s.world.host
      (.ok, ⟨stores,
        { s.world with host := { stage with stores := stage.stores ++ [(store, script)] } }⟩)
  | .contains store => (.contained (s.stores.contains store), s)
  | .list => (.names s.stores.names, s)
  | .vote store action =>
    match s.stores.find? store with
    | none => (.vote none, s)
    | some callbacks =>
      let (ballots, world) := World.canvass action [(store, callbacks)] s.world
      (.vote (ballots.head?.map Ballot.vote), { s with world })
  | .signal store action =>
    if s.stores.contains store then
      (.ok, { s with world := s.world.signal s.setup action store })
    else (.absent, s)
  | .canvass action =>
    let (ballots, world) := World.canvass action s.stores.entries s.world
    (.ballots ballots, { s with world })

def step (s : RosterSession) (step : RosterStep) : RosterReport × RosterSession :=
  let mark := s.world.past.length
  let (result, s) := s.act step
  ({ result
     size := s.stores.size
     isEmpty := s.stores.isEmpty
     trace := (⟨[], none⟩ : Lens).traceSince s.world mark },
   s)

def run : List RosterStep → RosterSession → List RosterReport
  | [], _ => []
  | next :: steps, s =>
    let (report, s) := s.step next
    report :: run steps s

end RosterSession

end Concord.Scenario
