import Concord.Vote
import Concord.Settings
import Concord.Text.Quoted

/-!
# Structural text

The form in which names, votes, refusals and settings are shown to a developer: a label and field
names around quoted text.
-/

namespace Concord

/-- Joins the parts with a comma and a blank. -/
def commaSeparated (parts : List String) : String := String.intercalate ", " parts

/-- A constructor with named fields, such as `Point { x: 1, y: 2 }`. -/
def inspectRecord (name : String) (fields : List (String × String)) : String :=
  name ++ " \x7b " ++ commaSeparated (fields.map fun (field, shown) => field ++ ": " ++ shown) ++
    " \x7d"

def StoreName.inspect (s : StoreName) : String := "StoreId(" ++ Text.quote s.name ++ ")"

def Vote.inspect (v : Vote) : String :=
  inspectRecord "Agreement"
    [("approved", toString v.isApproval),
     ("dependencies",
      "\x7b" ++ commaSeparated (v.prerequisites.toList.map StoreName.inspect) ++ "\x7d")]

def Refusal.inspect : Refusal → String
  | nameTaken store => "DuplicateStore(" ++ store.inspect ++ ")"
  | circular stores =>
    inspectRecord "CycleDetected"
      [("stores", "[" ++ commaSeparated (stores.map StoreName.inspect) ++ "]")]
  | unregistered store dependent =>
    inspectRecord "UnknownStore" [("store", store.inspect), ("dependent", dependent.inspect)]
  | setting reason => "Config(" ++ Text.quote reason ++ ")"

def Settings.inspect (c : Settings) : String :=
  inspectRecord "DispatcherConfig" [("queue_capacity", toString c.capacity)]

end Concord
