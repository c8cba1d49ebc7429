import Concord.Setup

/-!
# Scripted stores and observers

Stores and observers whose behaviour is written down beforehand: which votes are cast, how each
call is answered, and what is done meanwhile. Whatever is done on cue is done a limited number of
times, so a script comes to an end.
-/

namespace Concord.Scenario

/-- Actions for scripts: a few plain ones, and any pair of a kind and a text. -/
inductive SampleAction where
  | dress
  | undress
  | numbered (n : Nat)
  | custom (kind text : String)
deriving DecidableEq, Inhabited, Repr

instance : Labelled SampleAction where
  kind
    | .dress => "test:dress"
    | .undress => "test:undress"
    | .numbered _ => "test:numbered"
    | .custom kind _ => kind
  text
    | .dress => "Dress"
    | .undress => "Undress"
    | .numbered n => "Numbered(" ++ toString n ++ ")"
    | .custom _ text => text

inductive Deed where
  | dispatch (action : SampleAction)
  | shutdown
  | watch (observer : ObserverName)
  | unwatch (observer : ObserverName)
  /-- Settles the channel that was put aside first. -/
  | resolve (outcome : Outcome)
deriving DecidableEq, Repr

/-- A deed that waits for its cue: a hook, and perhaps one particular action. -/
structure Cue (κ : Type) where
  hook : κ
  only : Option SampleAction
  uses : Nat
  deed : Deed

/-- Whether a restriction to one action, if there is one, admits the action at hand. -/
def admits (only at? : Option SampleAction) : Bool := only.isNone || only == at?

/-- The deeds that are due at a hook, in order, and the cues with those uses taken off. -/
def playCues {κ : Type} [DecidableEq κ] (hook : κ) (at? : Option SampleAction) :
    List (Cue κ) → List Deed × List (Cue κ)
  | [] => ([], [])
  | cue :: rest =>
    let (deeds, rest) := playCues hook at? rest
    if cue.hook = hook ∧ 0 < cue.uses ∧ admits cue.only at? then
      (cue.deed :: deeds, { cue with uses := cue.uses - 1 } :: rest)
    else (deeds, cue :: rest)

def usesLeft {κ : Type} (cues : List (Cue κ)) : Nat :=
  cues.foldr (fun cue total => cue.uses + total) 0

/-- A vote for one action, or for any; perhaps only a number of times. -/
structure VoteRule where
  only : Option SampleAction
  uses : Option Nat
  vote : Vote

/-- The vote of the first rule that admits the action and has uses left, and the rules with
that use taken off. Without such a rule the store declines. -/
def castVote (action : SampleAction) : List VoteRule → Vote × List VoteRule
  | [] => (.declines, [])
  | rule :: rest =>
    if admits rule.only (some action) ∧ rule.uses ≠ some 0 then
      (rule.vote, { rule with uses := rule.uses.map (· - 1) } :: rest)
    else
      let (vote, rest) := castVote action rest
      (vote, rule :: rest)

inductive Reply where
  | settle (outcome : Outcome)
  /-- The channel is put aside. -/
  | park
deriving DecidableEq, Repr

/-- The reply to the next call, and the replies to the ones after it: the last reply is repeated,
and without any the store acknowledges. -/
def nextReply : List Reply → Reply × List Reply
  | [] => (.settle .ack, [])
  | [reply] => (reply, [reply])
  | reply :: rest => (reply, rest)

inductive StoreHook where
  | vote
  | complete
  | signal
deriving DecidableEq, Repr

structure StoreScript where
  rules : List VoteRule
  replies : List Reply
  cues : List (Cue StoreHook)

structure Stage where
  stores : List (StoreName × StoreScript)
  probes : List (ObserverName × List (Cue EventKind))
  /-- The channels that were put aside, the first one first, with their stores. -/
  parked : List (StoreName × Ticket)

/-- The requests that carry out some deeds, and the channels that stay aside. -/
def carryOut : List Deed → List (StoreName × Ticket) →
    List (Request SampleAction) × List (StoreName × Ticket)
  | [], parked => ([], parked)
  | .resolve outcome :: deeds, (_, ticket) :: parked =>
    let (requests, parked) := carryOut deeds parked
    (.resolve ticket outcome :: requests, parked)
  | .resolve _ :: deeds, [] => carryOut deeds []
  | .dispatch action :: deeds, parked =>
    let (requests, parked) := carryOut deeds parked
    (.send (.dispatch action) :: requests, parked)
  | .shutdown :: deeds, parked =>
    let (requests, parked) := carryOut deeds parked
    (.send .shutdown :: requests, parked)
  | .watch observer :: deeds, parked =>
    let (requests, parked) := carryOut deeds parked
    (.watch observer :: requests, parked)
  | .unwatch observer :: deeds, parked =>
    let (requests, parked) := carryOut deeds parked
    (.unwatch observer :: requests, parked)

namespace Stage

/-- The script of a store; a store without one declines and acknowledges. -/
def script (stage : Stage) (store : StoreName) : StoreScript :=
  ((stage.stores.find? (·.1 = store)).map Prod.snd).getD ⟨[], [], []⟩

def setScript (stage : Stage) (store : StoreName) (script : StoreScript) : Stage :=
  { stage with
    stores := stage.stores.map fun entry => if entry.1 = store then (store, script) else entry }

/-- Plays a store's cues at a hook: the script that is left, the requests, and the stage. -/
def playStore (stage : Stage) (store : StoreName) (hook : StoreHook) (action : SampleAction) :
    StoreScript × List (Request SampleAction) × Stage :=
  let script := stage.script store
  let (deeds, cues) := playCues hook (some action) script.cues
  let (requests, parked) := carryOut deeds stage.parked
  let script := { script with cues }
  (script, requests, { stage with parked }.setScript store script)

def vote (store : StoreName) (action : SampleAction) (stage : Stage) :
    Reaction Stage SampleAction Vote :=
  let (script, requests, stage) := stage.playStore store .vote action
  let (vote, rules) := castVote action script.rules
  ⟨stage.setScript store { script with rules }, requests, vote⟩

def complete (store : StoreName) (action : SampleAction) (ticket : Ticket) (stage : Stage) :
    Reaction Stage SampleAction Unit :=
  let (script, requests, stage) := stage.playStore store .complete action
  let (reply, replies) := nextReply script.replies
  let stage := stage.setScript store { script with replies }
  match reply with
  | .settle outcome => ⟨stage, requests ++ [.resolve ticket outcome], ()⟩
  | .park => ⟨{ stage with parked := stage.parked ++ [(store, ticket)] }, requests, ()⟩

def signal (store : StoreName) (action : SampleAction) (stage : Stage) :
    Reaction Stage SampleAction Unit :=
  let (_, requests, stage) := stage.playStore store .signal action
  ⟨stage, requests, ()⟩

/-- The store that follows its script on the stage. -/
def store (id : StoreName) : Store Stage SampleAction :=
  { vote := vote id, complete := complete id, signal := signal id }

def usesLeft (stage : Stage) : Nat :=
  stage.stores.foldr (fun entry total => Scenario.usesLeft entry.2.cues + total) 0 +
    stage.probes.foldr (fun entry total => Scenario.usesLeft entry.2 + total) 0

end Stage

inductive ObserverKind where
  | recording
  | tracing
  | silent
  /-- Plays its cues, and then fails at the hooks for which a failure is given. -/
  | probe (failures : List (EventKind × Failure))

def ObserverKind.react (kind : ObserverKind) (observer : ObserverName) (event : Event SampleAction)
    (stage : Stage) : Reaction Stage SampleAction (Option Failure) :=
  match kind with
  | recording | silent => ⟨stage, [], none⟩
  | tracing => ⟨stage, [.write event.line], none⟩
  | probe failures =>
    let cues := ((stage.probes.find? (·.1 = observer)).map Prod.snd).getD []
    let (deeds, cues) := playCues event.kind event.action? cues
    let (requests, parked) := carryOut deeds stage.parked
    let probes := stage.probes.map fun entry =>
      if entry.1 = observer then (observer, cues) else entry
    ⟨{ stage with probes, parked }, requests, (failures.find? (·.1 = event.kind)).map Prod.snd⟩

end Concord.Scenario
