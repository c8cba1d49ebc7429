import Concord.Refusal

/-!
# Outcomes of a store's work

A store answers for an action through a channel: it acknowledges, refuses with a reason, or lets
go of the channel without an answer, which counts as a refusal with a fixed reason.
-/

namespace Concord

inductive Failure where
  /-- A cause in words, wrapped in layers of context, the innermost first. -/
  | reported (cause : String) (context : List String)
  | refused (error : Refusal)
  /-- The channel was let go without an answer. -/
  | abandoned
deriving DecidableEq, Inhabited, Repr

/-- The text of a failure: only its outermost layer is shown. -/
def Failure.message : Failure → String
  | reported cause context => context.getLastD cause
  | refused error => error.message
  | abandoned => "channel dropped without ack or nack"

inductive Outcome where
  | ack
  | nack (why : Failure)
  | abandoned
deriving DecidableEq, Inhabited, Repr

/-- The failure that an outcome stands for; `none` for an acknowledgement. -/
def Outcome.failure? : Outcome → Option Failure
  | ack => none
  | nack why => some why
  | abandoned => some .abandoned

end Concord
