import Concord.Text.Quoted

/-!
# Log lines

A log line is a message of some severity with named values, written for a target. It is data here:
what is shown of it, and in which form, is decided by whoever reads it.
-/

namespace Concord

/-- Severities, the gravest first. -/
inductive Level where
  | error
  | warn
  | info
  | debug
deriving DecidableEq, Inhabited, Repr

namespace Level

def name : Level → String
  | error => "ERROR"
  | warn => "WARN"
  | info => "INFO"
  | debug => "DEBUG"

/-- The place in the order of severities, the gravest first. -/
def rank : Level → Nat
  | error => 0
  | warn => 1
  | info => 2
  | debug => 3

end Level

inductive FieldValue where
  /-- A name or label, quoted in print. -/
  | label (s : String)
  /-- A text in its own words, printed as it is. -/
  | words (s : String)
  | count (n : Nat)
  | flag (b : Bool)
deriving DecidableEq, Inhabited, Repr

def FieldValue.print : FieldValue → String
  | label s => Text.quote s
  | words s => s
  | count n => toString n
  | flag b => toString b

structure LogLine where
  level : Level
  target : String
  message : String
  fields : List (String × FieldValue)
deriving DecidableEq, Inhabited, Repr

namespace LogLine

/-- Whether the line is at least as grave as the threshold; without a threshold nothing is. -/
def passes (threshold : Option Level) (line : LogLine) : Bool :=
  threshold.any fun level => line.level.rank ≤ level.rank

/-- The line as one line of text: severity, target, message, then the values in order. -/
def print (line : LogLine) : String :=
  line.level.name ++ " " ++ line.target ++ ": " ++ line.message ++
    String.join (line.fields.map fun (name, value) => " " ++ name ++ "=" ++ value.print)

end LogLine

end Concord
