import Concord.Proofs.Engine.Comparison
import Concord.Proofs.Engine.Pipeline
import Concord.Proofs.Engine.Serialization

/-!
# Stores that fail

The channels are numbered in the order in which they are opened, so what is on record of a channel
is about one call. A store has failed if its channel was settled with a failure and the engine does
not wait for it any more. Each failure is announced once, whether the channel was settled on the
spot or later.
-/
namespace Concord

variable {σ α : Type}

/-- A store is asked to carry an action out. -/
structure Assignment (α : Type) where
  store : StoreName
  action : α
  ticket : Ticket
deriving DecidableEq

/-- A store has failed on an action. -/
structure Setback (α : Type) where
  store : StoreName
  action : α
  why : Failure
deriving DecidableEq

def Callback.assignment? : Callback α → Option (Assignment α)
  | complete store action ticket => some ⟨store, action, ticket⟩
  | _ => none

/-- The assignments among the steps, in order. -/
def assignmentsOf (ms : List (Milestone α)) : List (Assignment α) :=
  (ms.filterMap Milestone.callback?).filterMap Callback.assignment?

theorem assignmentsOf_append (ms more : List (Milestone α)) :
    assignmentsOf (ms ++ more) = assignmentsOf ms ++ assignmentsOf more := by
  simp [assignmentsOf]

/-- A channel is opened for each assignment. -/
theorem length_assignmentsOf (ms : List (Milestone α)) :
    (assignmentsOf ms).length = ms.countP Milestone.isOpening := by
  induction ms with
  | nil => rfl
  | cons m rest ih =>
    have hsplit := congrArg List.length (assignmentsOf_append [m] rest)
    rw [List.length_append, ih] at hsplit
    rw [List.countP_cons, Nat.add_comm]
    refine hsplit.trans (congrArg (· + _) ?_)
    cases m with
    | called callback => cases callback <;> rfl
    | _ => rfl

/-- The failure that is announced in this step. -/
def Milestone.setback? : Milestone α → Option (Setback α)
  | announced (.nack store action why) => some ⟨store, action, why⟩
  | _ => none

theorem Milestone.setback?_eq_none {m : Milestone α} (h : m.inCourse = false) :
    m.setback? = none := by
  unfold setback?
  split
  · cases h
  · rfl

namespace Turn

def assignment (action : α) (turn : Turn) : Assignment α := ⟨turn.store, action, turn.ticket⟩

def setback? (action : α) (turn : Turn) : Option (Setback α) :=
  turn.outcome.failure?.map (⟨turn.store, action, ·⟩)

theorem setback_milestones (action : α) (turn : Turn) :
    (turn.milestones action).filterMap Milestone.setback? = (turn.setback? action).toList := by
  unfold milestones Milestone.settlement setback?
  cases turn.outcome.failure? <;> rfl

end Turn

theorem setbacks_visits (action : α) (turns : List Turn) (atWork : Option (StoreName × Ticket))
    (acked : List StoreName) (stores : Nat) :
    (visits action turns atWork acked stores).filterMap Milestone.setback? =
      turns.filterMap (Turn.setback? action) := by
  have hturns : (turns.flatMap (Turn.milestones action)).filterMap Milestone.setback? =
      turns.filterMap (Turn.setback? action) := by
    rw [List.filterMap_flatMap, List.filterMap_eq_flatMap_toList]
    exact List.flatMap_congr fun turn _ => turn.setback_milestones action
  unfold visits
  rw [List.filterMap_append, hturns]
  cases atWork with
  | some work => exact List.append_nil _
  | none =>
    have hsignals : (acked.map fun store => Milestone.called (.signal store action)).filterMap
        Milestone.setback? = [] := by
      rw [List.filterMap_map]
      exact List.filterMap_eq_nil_iff.mpr fun _ _ => rfl
    dsimp only
    rw [closing, List.filterMap_append, hsignals]
    exact List.append_nil _

namespace Course

variable {setup : Setup σ α} {c : Course α}

/-- The assignments that are answered and dealt with. -/
def answered (c : Course α) : List (Assignment α) := c.turns.map (Turn.assignment c.action)

/-- The assignment of the store that is at work. -/
def unanswered? (c : Course α) : Option (Assignment α) :=
  c.atWork.map fun (store, ticket) => ⟨store, c.action, ticket⟩

def setbacks (c : Course α) : List (Setback α) := c.turns.filterMap (Turn.setback? c.action)

theorem setbacks_opening (setup : Setup σ α) (c : Course α) :
    (c.opening setup).filterMap Milestone.setback? = [] := by
  have hvotes : (c.ballots.flatMap (Milestone.voting c.action)).filterMap Milestone.setback? =
      [] := by
    rw [List.filterMap_flatMap]
    exact List.flatMap_eq_nil_iff.mpr fun _ _ => rfl
  unfold opening
  rw [List.filterMap_cons, List.filterMap_append, hvotes, List.filterMap_map]
  exact List.filterMap_eq_nil_iff.mpr fun _ _ => rfl

namespace Follows

theorem assignments (hc : c.Follows setup) :
    assignmentsOf (c.milestones setup) = c.answered ++ c.unanswered?.toList := by
  have hvotes : (setup.stores.names.map (Callback.vote · c.action)).filterMap
      Callback.assignment? = [] := by
    rw [List.filterMap_map]
    exact List.filterMap_eq_nil_iff.mpr fun _ _ => rfl
  have hturns : (c.turns.map fun turn => Callback.complete turn.store c.action turn.ticket).filterMap
      Callback.assignment? = c.answered := by
    rw [List.filterMap_map, answered]
    exact congrFun List.filterMap_eq_map c.turns
  rw [assignmentsOf, hc.milestones_callbacks, Course.calls, List.filterMap_append, List.filterMap_append,
    hvotes, hturns, List.nil_append, unanswered?]
  congr 1
  cases c.atWork with
  | some work => rfl
  | none =>
    dsimp only
    rw [List.filterMap_map]
    exact List.filterMap_eq_nil_iff.mpr fun _ _ => rfl

theorem tickets (hc : c.Follows setup) :
    (assignmentsOf (c.milestones setup)).map Assignment.ticket = ticketsOf c.turns c.atWork := by
  rw [hc.assignments, List.map_append, answered, List.map_map, unanswered?, ticketsOf]
  congr 1
  cases c.atWork <;> rfl

/-- A course announces the failures of its turns. -/
theorem setbacks_announced (hc : c.Follows setup) :
    (c.milestones setup).filterMap Milestone.setback? = c.setbacks := by
  unfold milestones
  rw [List.filterMap_append, setbacks_opening, List.nil_append, Course.setbacks]
  cases hv : (c.plan setup).verdict with
  | error error =>
    rw [hc.turns_eq_nil (order_of_error hv)]
    rfl
  | ok order =>
    cases order with
    | nil =>
      rw [hc.turns_eq_nil (order_of_ok hv)]
      rfl
    | cons first others => exact setbacks_visits ..

end Follows

end Course

namespace World

variable {w w' : World σ α} {ms : List (Milestone α)}

theorem calls_eq (w : World σ α) : w.calls = w.milestones.filterMap Milestone.callback? := by
  rw [calls, milestones, List.filterMap_filterMap]
  refine List.filterMap_congr fun entry _ => ?_
  cases entry with
  | noted notice => cases notice <;> rfl
  | answered _ status => cases status <;> rfl
  | _ => rfl

/-- What stores were asked to carry out, in order. -/
def assignments (w : World σ α) : List (Assignment α) := w.calls.filterMap Callback.assignment?

theorem assignments_eq (w : World σ α) : w.assignments = assignmentsOf w.milestones := by
  rw [assignments, calls_eq, assignmentsOf]

/-- The channels are numbered in the order in which they were opened. -/
def Numbers (w : World σ α) : Prop :=
  w.assignments.map Assignment.ticket = List.range' 1 w.channel.ticket

/-- The channels that are opened meanwhile are numbered on. -/
theorem Numbers.adds (h : w.Numbers) (hw : w.Adds ms w')
    (hms : (assignmentsOf ms).map Assignment.ticket =
      List.range' (w.channel.ticket + 1) (assignmentsOf ms).length) : w'.Numbers := by
  have hbefore : (assignmentsOf w.milestones).map Assignment.ticket =
      List.range' 1 w.channel.ticket := by
    rw [← assignments_eq]
    exact h
  rw [Numbers, assignments_eq, hw.milestones, assignmentsOf_append, List.map_append, hbefore, hms,
    hw.ticket, length_assignmentsOf, Nat.add_comm w.channel.ticket 1, List.range'_append_1]

theorem Numbers.aside (h : w.Numbers) (hw : w.Adds ms w') (hms : assignmentsOf ms = []) :
    w'.Numbers := h.adds hw (by rw [hms]; rfl)

end World

namespace Engine

variable {setup : Setup σ α} {capacity : Nat} {e e' : Engine σ α} {c c' : Course α}

theorem Undertaken.numbers (hu : Undertaken setup c e e') (h : e.world.Numbers) :
    e'.world.Numbers := by
  refine h.adds hu.world.toAdds ?_
  have htickets := hu.follows.tickets
  rw [← List.length_map (f := Assignment.ticket), htickets]
  exact hu.tickets

theorem Continued.numbers (hf : c.Follows setup) (hc : Continued setup c c' e e')
    (h : e.world.Numbers) : e'.world.Numbers := by
  obtain ⟨ms, hms, hgrows⟩ := hc.world
  obtain ⟨turn, more, hwork, -, hturns, hmore⟩ := hc.turns
  have hsplit : ticketsOf c'.turns c'.atWork =
      ticketsOf c.turns c.atWork ++ ticketsOf more c'.atWork := by
    rw [hturns, hwork]
    simp [ticketsOf]
  have hall := hc.follows.tickets
  rw [hms, assignmentsOf_append, List.map_append, hf.tickets, hsplit] at hall
  have hfresh := List.append_cancel_left hall
  refine h.adds hgrows.toAdds ?_
  rw [← List.length_map (f := Assignment.ticket), hfresh]
  exact hmore

theorem Act.numbers (ha : Act setup e e') (h : e.world.Numbers) : e'.world.Numbers := by
  cases ha with
  | started hlife => exact h.aside (World.Grows.note e.world (.started ..) rfl).toAdds rfl
  | begun hh hidle hempty hc hu => exact hu.numbers (h.aside (hearing_adds setup _ _ e) rfl)
  | queued hh hbusy hput => exact h.aside (hearing_adds setup _ _ e) rfl
  | dropped hh hbusy hfull =>
    exact h.aside ((hearing_adds setup _ _ e).trans (dropping_grows setup _ _ _).toAdds) rfl
  | replied hh => exact h.aside (replying_adds setup _ _ e) rfl
  | shut hh => exact h.aside (shutting_adds setup _ e) rfl
  | deafened hlife hl hi hh => exact h
  | continued hlife hl hf hp hw ho hc => exact hc.numbers hf h
  | resumed hlife hidle ho hc hu => exact hu.numbers h
  | stopped hlife hp hl => exact h.aside (stop_adds e) rfl

theorem Reachable.numbers (h : Reachable setup capacity e) : e.world.Numbers :=
  h.preserves (J := fun e => e.world.Numbers) (fun _ _ _ => rfl) (fun ha h => ha.numbers h)
    (fun reaction h => h.aside (World.absorb_grows .outside reaction _).toAdds rfl)
    fun h => h.aside (kill_adds _) rfl

/-- The channel that the engine waits for. -/
def awaited? (e : Engine σ α) : Option Ticket :=
  match e.phase with
  | .idle => none
  | .waiting _ _ ticket => some ticket

/-- The failure of the store on the assignment, unless the engine still waits for its channel. -/
def setback? (e : Engine σ α) (a : Assignment α) : Option (Setback α) :=
  if e.awaited? = some a.ticket then none
  else ((e.world.outcomeOf a.ticket).bind Outcome.failure?).map (⟨a.store, a.action, ·⟩)

/-- The failures of stores, in the order in which these were called. -/
def setbacks (e : Engine σ α) : List (Setback α) := e.world.assignments.filterMap e.setback?

namespace Chronicle

variable {pending : List α} {intakes : List (Intake α)} {ended : List (Course α)}
  {underway : Option (Course α)}

/-- All assignments are answered but the last one of an engine that waits. -/
theorem assignments (h : Chronicle setup e pending intakes ended underway) :
    e.world.assignments = (ended ++ underway.toList).flatMap Course.answered ++
        (underway.bind Course.unanswered?).toList ∧
      (underway.bind Course.unanswered?).map Assignment.ticket = e.awaited? := by
  have hall : e.world.assignments = (ended ++ underway.toList).flatMap fun c =>
      c.answered ++ c.unanswered?.toList := by
    rw [World.assignments, World.calls_eq,
      h.annals.filterMap Milestone.callback? fun _ => Milestone.callback?_eq_none,
      List.filterMap_flatMap]
    exact List.flatMap_congr fun c hc => (h.annals.follows c hc).assignments
  have hended : (ended.flatMap fun c => c.answered ++ c.unanswered?.toList) =
      ended.flatMap Course.answered := by
    refine List.flatMap_congr fun c hc => ?_
    rw [Course.unanswered?, h.finished c hc]
    exact List.append_nil _
  rw [hall, awaited?, h.phase]
  cases underway with
  | none => simpa using hended
  | some c =>
    obtain ⟨store, hwork⟩ := h.working c rfl
    refine ⟨by simp [hended], ?_⟩
    rw [Option.elim_some, Course.phase, hwork, Option.bind_some, Course.unanswered?, hwork]
    rfl

end Chronicle

theorem Annals.setbacks {w : World σ α} {courses : List (Course α)}
    (h : Annals setup w courses) :
    w.milestones.filterMap Milestone.setback? = courses.flatMap Course.setbacks := by
  rw [h.filterMap Milestone.setback? fun _ => Milestone.setback?_eq_none]
  exact List.flatMap_congr fun c hc => (h.follows c hc).setbacks_announced

/-- Each failure of a store is announced once, and nothing else is announced as one. -/
theorem Reachable.setbacks_announced (h : Reachable setup capacity e) :
    e.world.milestones.filterMap Milestone.setback? = e.setbacks := by
  obtain ⟨intakes, ended, underway, hc⟩ := h.sound.chronicled
  obtain ⟨hall, hawaited⟩ := hc.assignments
  rw [hc.annals.setbacks, setbacks, hall, List.filterMap_append, List.filterMap_flatMap]
  have hlast : (underway.bind Course.unanswered?).toList.filterMap e.setback? = [] := by
    cases hnow : underway.bind Course.unanswered? with
    | none => rfl
    | some a =>
      rw [hnow] at hawaited
      have hnone : e.setback? a = none := if_pos hawaited.symm
      rw [Option.toList_some, List.filterMap_cons_none hnone, List.filterMap_nil]
  have hnodup : (e.world.assignments.map Assignment.ticket).Nodup := by
    rw [h.numbers]
    exact List.nodup_range'
  have hother : ∀ c ∈ ended ++ underway.toList, ∀ a ∈ c.answered,
      e.awaited? ≠ some a.ticket := by
    intro c hmem a ha heq
    rw [hall, List.map_append, List.nodup_append] at hnodup
    obtain ⟨last, hnow, hticket⟩ := Option.map_eq_some_iff.mp (hawaited.trans heq)
    refine hnodup.2.2 a.ticket ?_ last.ticket ?_ hticket.symm
    · exact List.mem_map_of_mem (List.mem_flatMap.mpr ⟨c, hmem, ha⟩)
    · rw [hnow]
      exact List.mem_singleton.mpr rfl
  rw [hlast, List.append_nil]
  refine List.flatMap_congr fun c hmem => ?_
  rw [Course.setbacks, Course.answered, List.filterMap_map]
  refine List.filterMap_congr fun turn hturn => ?_
  have hdone := hother c hmem _ (List.mem_map_of_mem hturn)
  rw [Function.comp_apply, setback?, if_neg hdone]
  change _ = ((e.world.outcomeOf turn.ticket).bind _).map _
  rw [hc.annals.outcomes c hmem turn hturn]
  rfl

end Engine

end Concord
