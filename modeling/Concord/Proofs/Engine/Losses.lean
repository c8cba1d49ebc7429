import Concord.Proofs.Engine.Canvasses
import Concord.Proofs.Engine.Overflow

/-!
# Actions that come to nothing

An action is lost when it finds no place in the backlog, and it is given up when its ballots admit
no schedule. Each time the engine says so in two steps, and it takes no such steps otherwise.
-/
namespace Concord

variable {σ α β γ : Type}

/-- The action is given up for this reason. -/
structure Fault (α : Type) where
  action : α
  error : Refusal
deriving DecidableEq

def Fault.milestones (f : Fault α) : List (Milestone α) :=
  [.noted (.aborting f.action f.error), .announced (.abort f.action f.error)]

/-- The fault that the ballots of a canvass amount to, if they admit no schedule. -/
def Canvass.fault? (setup : Setup σ α) (c : Canvass α) : Option (Fault α) :=
  match (Plan.ofBallots setup.stores.contains c.ballots).verdict with
  | .ok _ => none
  | .error error => some ⟨c.action, error⟩

/-- What is said of an action for which there is no place. -/
def overflowing (capacity : Nat) (action : α) : List (Milestone α) :=
  [.noted (.backlogFull action capacity), .announced (.drop action)]

/-- The actions that were dropped. -/
def lost (intakes : List (Intake α)) : List α :=
  (intakes.filter (·.dropped)).map Intake.action

def Receipt.dropped? : Receipt α → Option α
  | dropped action => some action
  | _ => none

namespace Milestone

/-- Whether an action is given up in this step. -/
def isAbortion : Milestone α → Bool
  | noted (.aborting ..) | announced (.abort ..) => true
  | _ => false

/-- Whether an action is dropped in this step. -/
def isOverflow : Milestone α → Bool
  | noted (.backlogFull ..) | announced (.drop _) => true
  | _ => false

/-- Whether the step may belong to a visit of the stores of a schedule. -/
def inVisit : Milestone α → Bool
  | announced (.execute ..) | announced (.ack ..) | announced (.nack ..) | announced .unlock
  | called (.complete ..) | called (.signal ..) | noted (.storeFailed ..)
  | noted (.complete ..) => true
  | _ => false

theorem inCourse_of_isAbortion {m : Milestone α} (h : m.isAbortion = true) :
    m.inCourse = true := by
  unfold isAbortion at h
  split at h <;> first | rfl | cases h

theorem isAbortion_of_inCanvass {m : Milestone α} (h : m.inCanvass = true) :
    m.isAbortion = false := by
  unfold inCanvass at h
  split at h <;> first | rfl | cases h

theorem isAbortion_of_inVisit {m : Milestone α} (h : m.inVisit = true) : m.isAbortion = false := by
  unfold inVisit at h
  split at h <;> first | rfl | cases h

theorem isOverflow_of_inCourse {m : Milestone α} (h : m.inCourse = true) :
    m.isOverflow = false := by
  unfold isOverflow
  split <;> first | rfl | cases h

end Milestone

theorem Turn.inVisit (action : α) (turn : Turn) :
    ∀ m ∈ turn.milestones action, m.inVisit = true := by
  intro m hm
  unfold milestones Milestone.invocation Milestone.settlement at hm
  cases hf : turn.outcome.failure? with
  | none =>
    simp only [hf, List.mem_append, List.mem_cons, List.not_mem_nil, or_false] at hm
    rcases hm with (rfl | rfl) | rfl <;> rfl
  | some why =>
    simp only [hf, List.mem_append, List.mem_cons, List.not_mem_nil, or_false] at hm
    rcases hm with (rfl | rfl) | rfl | rfl <;> rfl

theorem visits_inVisit {action : α} {turns : List Turn} {atWork : Option (StoreName × Ticket)}
    {acked : List StoreName} {stores : Nat} {m : Milestone α}
    (h : m ∈ visits action turns atWork acked stores) : m.inVisit = true := by
  rcases List.mem_append.mp h with hm | hm
  · obtain ⟨turn, -, hm⟩ := List.mem_flatMap.mp hm
    exact turn.inVisit action m hm
  · cases atWork with
    | some work =>
      simp only [Milestone.invocation, List.mem_cons, List.not_mem_nil, or_false] at hm
      rcases hm with rfl | rfl <;> rfl
    | none =>
      simp only [closing, List.mem_append, List.mem_map, List.mem_cons, List.not_mem_nil,
        or_false] at hm
      rcases hm with ⟨store, -, rfl⟩ | rfl | rfl <;> rfl

/-- An action is given up if its ballots admit no schedule, and otherwise not. -/
theorem Course.filter_isAbortion (setup : Setup σ α) (c : Course α) :
    (c.milestones setup).filter Milestone.isAbortion =
      ((c.canvass setup).fault? setup).toList.flatMap Fault.milestones := by
  have hopening : (c.opening setup).filter Milestone.isAbortion = [] := by
    rw [show c.opening setup = (c.canvass setup).milestones from rfl, ← Canvass.filter_inCanvass,
      List.filter_filter]
    refine List.filter_eq_nil_iff.mpr fun m _ => ?_
    cases hm : m.inCanvass with
    | false => simp
    | true => simp [Milestone.isAbortion_of_inCanvass hm]
  have hvisits : ∀ order : List StoreName,
      (visits c.action c.turns c.atWork (ackedBy c.turns) order.length).filter
        Milestone.isAbortion = [] :=
    fun _ => List.filter_eq_nil_iff.mpr fun m hm => by
      simp [Milestone.isAbortion_of_inVisit (visits_inVisit hm)]
  unfold milestones
  rw [List.filter_append, hopening, List.nil_append, Canvass.fault?,
    show Plan.ofBallots setup.stores.contains (c.canvass setup).ballots = c.plan setup from rfl]
  cases hv : (c.plan setup).verdict with
  | error error => rfl
  | ok order =>
    cases order with
    | nil => rfl
    | cons first others =>
      rw [List.filter_cons_of_neg (by simp [Milestone.isAbortion])]
      exact hvisits _

namespace Engine

variable {setup : Setup σ α} {capacity : Nat} {e e' : Engine σ α} {c c' : Course α}

/-- An engine gives up an action for each faulty canvass. -/
theorem Annals.faults {w : World σ α} {courses : List (Course α)} (h : Annals setup w courses) :
    w.milestones.filter Milestone.isAbortion =
      ((courses.map (Course.canvass setup)).filterMap (Canvass.fault? setup)).flatMap
        Fault.milestones := by
  rw [h.filter fun _ => Milestone.inCourse_of_isAbortion, List.filterMap_eq_flatMap_toList,
    List.flatMap_map, List.flatMap_assoc]
  exact List.flatMap_congr fun c _ => c.filter_isAbortion setup

/-- The actions announced as dropped are those that were dropped when they were taken. -/
theorem Chronicle.dropped_eq {pending : List α} {intakes : List (Intake α)} {ended : List (Course α)}
    {underway : Option (Course α)} (h : Chronicle setup e pending intakes ended underway) :
    e.world.dropped = lost intakes := by
  have hdropped : e.world.dropped =
      (e.world.milestones.filterMap Milestone.receipt?).filterMap Receipt.dropped? := by
    rw [World.dropped, List.filterMap_filterMap]
    refine List.filterMap_congr fun m _ => ?_
    cases m with
    | took message => cases message <;> rfl
    | announced event => cases event <;> rfl
    | _ => rfl
  rw [hdropped, h.receipts]
  clear h hdropped
  induction intakes with
  | nil => rfl
  | cons intake rest ih =>
    obtain ⟨action, dropped⟩ := intake
    rw [List.flatMap_cons, List.filterMap_append, ih]
    cases dropped <;> rfl

/-- The backlog has its capacity, and for each action that was dropped it was said that it was
full. -/
structure Overflows (capacity : Nat) (e : Engine σ α) : Prop where
  room : e.backlog.capacity = capacity
  said : e.world.milestones.filter Milestone.isOverflow =
    e.world.dropped.flatMap (overflowing capacity)

namespace Overflows

/-- Steps in which nothing is dropped. -/
theorem still (h : Overflows capacity e) {ms : List (Milestone α)} (hw : e.world.Adds ms e'.world)
    (hms : ms.filter Milestone.isOverflow = []) (hb : e'.backlog.capacity = e.backlog.capacity) :
    Overflows capacity e' := by
  have hnone : ms.filterMap Milestone.dropped? = [] := by
    refine List.filterMap_eq_nil_iff.mpr fun m hm => ?_
    unfold Milestone.dropped?
    split
    · exact absurd rfl (List.filter_eq_nil_iff.mp hms _ hm)
    · rfl
  refine ⟨hb.trans h.room, ?_⟩
  rw [hw.milestones, List.filter_append, hms, hw.dropped, hnone, List.append_nil, List.append_nil]
  exact h.said

theorem onward (h : Overflows capacity e) {ms : List (Milestone α)} (hw : e.world.Adds ms e'.world)
    (hms : ∀ m ∈ ms, m.inCourse = true) (hb : e'.backlog = e.backlog) : Overflows capacity e' :=
  h.still hw (List.filter_eq_nil_iff.mpr fun m hm => by
    simp [Milestone.isOverflow_of_inCourse (hms m hm)]) (by rw [hb])

theorem act (h : Overflows capacity e) (ha : Act setup e e') : Overflows capacity e' := by
  cases ha with
  | started hlife => exact h.still (World.Grows.note e.world (.started ..) rfl).toAdds rfl rfl
  | @begun action inbox c hh hidle hempty hc hu =>
    have hheard := h.still (hearing_adds setup action inbox e) rfl rfl
    exact hheard.onward hu.world.toAdds hu.follows.inCourse (by rw [hu.result])
  | queued hh hbusy hput =>
    exact h.still (hearing_adds setup _ _ e) rfl (Backlog.items_of_put_eq_ok hput).2
  | @dropped action inbox hh hbusy hfull =>
    have hadds := (hearing_adds setup action inbox e).trans
      (dropping_grows setup action e.backlog.capacity _).toAdds
    refine ⟨h.room, ?_⟩
    rw [hadds.milestones, hadds.dropped, List.filter_append, h.said, h.room,
      List.flatMap_append]
    rfl
  | replied hh => exact h.still (replying_adds setup _ _ e) rfl rfl
  | shut hh => exact h.still (shutting_adds setup _ e) rfl rfl
  | deafened hlife hl hi hh => exact ⟨h.room, h.said⟩
  | continued hlife hl hf hp hw ho hc =>
    obtain ⟨ms, -, hgrows, hcourse⟩ := hc.inCourse
    exact h.onward hgrows.toAdds hcourse (by rw [hc.result])
  | @resumed hlife hidle action backlog ho c hc hu =>
    have htaken : Overflows capacity { e with backlog } :=
      ⟨(Backlog.items_of_oldest?_eq_some ho).2.trans h.room, h.said⟩
    exact htaken.onward hu.world.toAdds hu.follows.inCourse (by rw [hu.result])
  | stopped hlife hp hl => exact h.still (stop_adds e) rfl rfl

end Overflows

theorem Reachable.overflows (h : Reachable setup capacity e) : Overflows capacity e := by
  refine h.preserves (fun _ _ _ => ⟨rfl, rfl⟩) (fun ha h => h.act ha) ?_ ?_
  · exact fun reaction h => h.still (World.absorb_grows .outside reaction _).toAdds rfl rfl
  · intro e h
    exact h.still (kill_adds e) rfl (by rw [(kill_same e).2.1])

end Engine

end Concord
