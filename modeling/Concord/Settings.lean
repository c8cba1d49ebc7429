import Concord.Refusal
import Concord.Text.Blank
import Concord.Text.Quoted

/-!
# Settings

The one setting is the capacity of the backlog. It is read from the environment as a decimal
number: an optional plus sign and ASCII digits, with blanks allowed around them, greater than zero
and below 2 ^ 64.
-/

namespace Concord

structure Settings where
  capacity : Nat
deriving DecidableEq, Inhabited, Repr

namespace Settings

def default : Settings := ⟨50⟩

/-- The environment variable that holds the capacity. -/
def capacityVariable : String := "CIRCUIT_QUEUE_CAPACITY"

/-- Capacities are counted in 64 bits. -/
def largestCapacity : UInt64 := 0xffffffffffffffff

/-- The number with one more digit behind it; `none` if the character is not an ASCII digit or the
number does not fit. -/
def appendDigit? (n : UInt64) (d : Char) : Option UInt64 :=
  let digit := (d.toNat - '0'.toNat).toUInt64
  if d.isDigit ∧ n ≤ largestCapacity / 10 ∧ 10 * n ≤ largestCapacity - digit then
    some (10 * n + digit)
  else none

/-- The characters without a plus sign in front of them. -/
def unsigned : List Char → List Char
  | '+' :: rest => rest
  | cs => cs

/-- The number written by an optional plus sign and at least one ASCII digit, however many leading
zeros it has; `none` for any other text and for a number that does not fit. -/
def readNumber (cs : List Char) : Option UInt64 :=
  if unsigned cs = [] then none else (unsigned cs).foldlM appendDigit? 0

def readCapacity (raw : String) : Except Refusal Nat :=
  match readNumber (Text.trimBlanks raw.toList) with
  | none => .error (.setting (capacityVariable ++ " must be a number, got " ++ Text.quote raw))
  | some 0 => .error (.setting (capacityVariable ++ " must be greater than zero"))
  | some n => .ok n.toNat

/-- The settings for a value of the variable, given as its bytes: a variable that is not set leaves
the default, and so do bytes that are not the UTF-8 form of any text. -/
def ofVariable (value : Option ByteArray) : Except Refusal Settings :=
  match value.bind String.fromUTF8? with
  | none => .ok default
  | some raw => (readCapacity raw).map Settings.mk

end Settings

end Concord
