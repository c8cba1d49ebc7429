import Concord.Scenario.Script

/-!
# Traces

What a scenario shows of the history of a world: the calls of the stores, the events that probes
receive, and the log lines that pass a threshold.
-/

namespace Concord.Scenario

inductive TraceLine where
  | called (hook : StoreHook) (store : StoreName) (action : SampleAction)
  | observed (observer : ObserverName) (event : Event SampleAction)
  | logged (line : LogLine)

/-- How a scenario looks at a history. -/
structure Lens where
  kinds : List (ObserverName × ObserverKind)
  /-- The least severity of the log lines shown; `none` shows no log. -/
  threshold : Option Level

namespace Lens

def kind? (lens : Lens) (observer : ObserverName) : Option ObserverKind :=
  (lens.kinds.find? (·.1 = observer)).map Prod.snd

def isProbe (lens : Lens) (observer : ObserverName) : Bool :=
  match lens.kind? observer with
  | some (.probe _) => true
  | _ => false

def isRecorder (lens : Lens) (observer : ObserverName) : Bool :=
  match lens.kind? observer with
  | some .recording => true
  | _ => false

/-- The line for one observable step, if it is shown. -/
def show? (lens : Lens) : Entry SampleAction → Option TraceLine
  | .called (.vote store action) => some (.called .vote store action)
  | .called (.complete store action _) => some (.called .complete store action)
  | .called (.signal store action) => some (.called .signal store action)
  | .delivered observer event =>
    if lens.isProbe observer then some (.observed observer event) else none
  | entry =>
    (entry.logLine?.filter fun line => line.passes lens.threshold).map TraceLine.logged

/-- The trace of the steps that a world has taken since its past had the given length. -/
def traceSince {σ : Type} (lens : Lens) (w : World σ SampleAction) (mark : Nat) :
    List TraceLine :=
  (w.since mark).filterMap lens.show?

def record {σ : Type} (lens : Lens) (w : World σ SampleAction) (observer : ObserverName) :
    List (Event SampleAction) :=
  if lens.isRecorder observer then w.received observer else []

end Lens

end Concord.Scenario
