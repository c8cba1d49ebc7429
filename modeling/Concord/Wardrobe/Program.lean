import Concord.Settings
import Concord.Wardrobe.Session

/-!
# The wardrobe program

A run of the wardrobe from start to end: dress, undress and dress again, wait until everything is
at rest, say how things stand, and shut down. What the run prints is a function of the one
environment variable that it reads.
-/

namespace Concord.Wardrobe

/-- What a run prints, and the code it exits with. -/
structure Transcript where
  exitCode : UInt8
  output : List String
  errors : String
deriving DecidableEq, Repr

def programTarget : String := "wardrobe"

def announcement (message : String) (fields : List (String × FieldValue)) : LogLine :=
  ⟨.info, programTarget, message, fields⟩

def greeting : LogLine := announcement "Wardrobe starting..." []

namespace Session

def say (s : Session) (lines : List LogLine) : Session := s.request (lines.map .write)

/-- The lines that sum up a wardrobe at rest. -/
def summary (s : Session) : List LogLine :=
  s.worn.map (fun (id, worn) =>
    announcement "Final state" [("store", .words id.name), ("worn", .flag worn)]) ++
  [announcement "Socks laundered" [("washes", .count s.closet.washes.toNat)]]

/-- The line that tells that the wardrobe has come to rest. -/
def restLine (status : Status) : LogLine :=
  announcement "Dispatcher idle"
    [("processed", .count status.processed), ("dropped", .count status.dropped),
     ("aborted", .count status.aborted)]

def perform (settings : Settings) (s : Session) : Session :=
  let s := s.say [announcement "Loaded config" [("queue_capacity", .count settings.capacity)]]
  let (status, s) := (s.dispatch [.dress, .undress, .dress]).idle
  let s := s.say (status.toList.map restLine)
  (s.say s.summary).shutdown

/-- The text of the session's log, from severity info on. -/
def printedLog (s : Session) : List String :=
  ((s.world.history.filterMap Entry.logLine?).filter fun line => line.passes (some .info)).map
    LogLine.print

end Session

/-- The transcript of a run that ends with an error before anything is dispatched. -/
def failedRun (error : Refusal) : Transcript :=
  ⟨1, [greeting.print], "Error: " ++ error.message ++ "\n"⟩

/-- What the program prints when the capacity variable has the given value. -/
def transcript (value : Option ByteArray) : Transcript :=
  match Settings.ofVariable value with
  | .error error => failedRun error
  | .ok settings =>
    match Session.opened settings.capacity [tracer] [] with
    | .error error => failedRun error
    | .ok s => ⟨0, greeting.print :: (s.perform settings).printedLog, ""⟩

end Concord.Wardrobe
