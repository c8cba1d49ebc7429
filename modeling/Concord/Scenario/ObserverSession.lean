import Concord.Scenario.Trace

/-!
# Sessions with one observer

Events are handed to a single observer without an engine.
-/

namespace Concord.Scenario

/-- What has come of handing events to an observer. -/
structure ObserverReport where
  traces : List (List TraceLine)
  record : List (Event SampleAction)

namespace ObserverSession

/-- The name under which the observer of a session is registered. -/
def observer : ObserverName := ⟨"observer"⟩

def lens (kind : ObserverKind) (threshold : Option Level) : Lens := ⟨[(observer, kind)], threshold⟩

def setup (kind : ObserverKind) : Setup Stage SampleAction := ⟨.empty, kind.react⟩

/-- Hands the events over in turn; the trace of each one, and the world that is left. -/
def handAll (kind : ObserverKind) (threshold : Option Level) :
    List (Event SampleAction) → World Stage SampleAction →
      List (List TraceLine) × World Stage SampleAction
  | [], w => ([], w)
  | event :: events, w =>
    let mark := w.past.length
    let w := w.hand (setup kind) event observer
    let trace := (lens kind threshold).traceSince w mark
    let (traces, w) := handAll kind threshold events w
    (trace :: traces, w)

def run (kind : ObserverKind) (threshold : Option Level) (events : List (Event SampleAction)) :
    ObserverReport :=
  let (traces, w) := handAll kind threshold events (.initial ⟨[], [], []⟩ 0 [])
  ⟨traces, (lens kind threshold).record w observer⟩

end ObserverSession

end Concord.Scenario
