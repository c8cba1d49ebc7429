import Concord.Proofs.Engine.Courses

/-!
# What lies between a lock and its unlock

A course begins with the lock and ends with the unlock, and every step in between serves its action.
An engine takes other steps as well, when it reads its inbox, starts or stops; those are in no
course.
-/
namespace Concord

variable {σ α : Type}

def Callback.action : Callback α → α
  | vote _ action | complete _ action _ | signal _ action => action

namespace Milestone

/-- Whether the step is one of the course of an action. -/
def inCourse : Milestone α → Bool
  | took _ | answered .. | announced (.dispatch _) | announced (.drop _) => false
  | noted (.started ..) | noted (.stopped ..) | noted (.shuttingDown _) | noted (.backlogFull ..) =>
    false
  | _ => true

/-- Whether the step is one that an engine takes between the lock and the unlock of the action. -/
def Serves (action : α) : Milestone α → Prop
  | called callback => callback.action = action
  | voted _ => True
  | announced event =>
    match event with
    | .execute _ a | .ack _ a | .nack _ a _ | .abort a _ => a = action
    | .dispatch _ | .lock | .unlock | .drop _ => False
  | noted notice =>
    match notice with
    | .nobodyApproved a | .executing a _ | .aborting a _ | .drafted _ a | .storeFailed _ a _
    | .complete a _ _ => a = action
    | .started .. | .stopped .. | .refused _ | .shuttingDown _ | .backlogFull ..
    | .observerFailed .. => False
  | took _ | answered .. => False

theorem Serves.inCourse {action : α} {m : Milestone α} (h : m.Serves action) :
    m.inCourse = true := by
  cases m with
  | took _ | answered _ _ => exact h.elim
  | called _ | voted _ => rfl
  | announced event => cases event <;> first | rfl | exact h.elim
  | noted notice => cases notice <;> first | rfl | exact h.elim

def callback? : Milestone α → Option (Callback α)
  | called callback => some callback
  | _ => none

theorem countP_isOpening {ms : List (Milestone α)} (h : ms.filter inCourse = []) :
    ms.countP isOpening = 0 := by
  rw [List.countP_eq_zero]
  intro m hm ho
  unfold isOpening at ho
  split at ho
  · exact List.filter_eq_nil_iff.mp h _ hm rfl
  · cases ho

end Milestone

/-- The unlock of an action, when it has ended. -/
def unlocking (ended : Bool) : List (Milestone α) := if ended then [.announced .unlock] else []

theorem mem_unlocking {m : Milestone α} {ended : Bool} :
    m ∈ unlocking ended ↔ ended = true ∧ m = .announced .unlock := by
  cases ended <;> simp [unlocking]

theorem Turn.serves (action : α) (turn : Turn) : ∀ m ∈ turn.milestones action, m.Serves action := by
  intro m hm
  unfold milestones Milestone.invocation Milestone.settlement at hm
  cases hf : turn.outcome.failure? with
  | none =>
    simp only [hf, List.mem_append, List.mem_cons, List.not_mem_nil, or_false] at hm
    rcases hm with (rfl | rfl) | rfl <;> rfl
  | some why =>
    simp only [hf, List.mem_append, List.mem_cons, List.not_mem_nil, or_false] at hm
    rcases hm with (rfl | rfl) | rfl | rfl <;> rfl

theorem visits_between (action : α) (turns : List Turn) (atWork : Option (StoreName × Ticket))
    (acked : List StoreName) (stores : Nat) :
    ∃ inner, visits action turns atWork acked stores = inner ++ unlocking atWork.isNone ∧
      ∀ m ∈ inner, m.Serves action := by
  have hturns : ∀ m ∈ turns.flatMap (Turn.milestones action), m.Serves action := by
    intro m hm
    obtain ⟨turn, -, hm⟩ := List.mem_flatMap.mp hm
    exact turn.serves action m hm
  cases atWork with
  | some work =>
    refine ⟨_, (List.append_nil _).symm, ?_⟩
    intro m hm
    rcases List.mem_append.mp hm with hm | hm
    · exact hturns m hm
    · simp only [Milestone.invocation, List.mem_cons, List.not_mem_nil, or_false] at hm
      rcases hm with rfl | rfl <;> rfl
  | none =>
    refine ⟨turns.flatMap (Turn.milestones action) ++
      (acked.map (fun store => .called (.signal store action)) ++
        [.noted (.complete action acked.length (stores - acked.length))]), ?_, ?_⟩
    · rw [visits, closing, List.append_assoc, List.append_assoc]
      rfl
    · intro m hm
      rcases List.mem_append.mp hm with hm | hm
      · exact hturns m hm
      rcases List.mem_append.mp hm with hm | hm
      · obtain ⟨store, -, rfl⟩ := List.mem_map.mp hm
        rfl
      · obtain rfl := List.mem_singleton.mp hm
        rfl

namespace Course

variable {setup : Setup σ α} {c : Course α}

theorem opening_between (setup : Setup σ α) (c : Course α) :
    ∃ inner, c.opening setup = .announced .lock :: inner ∧ ∀ m ∈ inner, m.Serves c.action := by
  refine ⟨_, rfl, ?_⟩
  intro m hm
  rcases List.mem_append.mp hm with hm | hm
  · obtain ⟨ballot, -, hm⟩ := List.mem_flatMap.mp hm
    simp only [Milestone.voting, List.mem_cons, List.not_mem_nil, or_false] at hm
    rcases hm with rfl | rfl
    · rfl
    · trivial
  · obtain ⟨store, -, rfl⟩ := List.mem_map.mp hm
    rfl

/-- A course begins with the lock and, if it has ended, ends with the unlock. What is in between
serves its action. -/
theorem Follows.between (hc : c.Follows setup) :
    ∃ inner, c.milestones setup = .announced .lock :: (inner ++ unlocking c.atWork.isNone) ∧
      ∀ m ∈ inner, m.Serves c.action := by
  obtain ⟨opening, ho, hopening⟩ := opening_between setup c
  have hjoin : ∀ rest : List (Milestone α), (∀ m ∈ rest, m.Serves c.action) →
      ∀ m ∈ opening ++ rest, m.Serves c.action := by
    intro rest hrest m hm
    exact (List.mem_append.mp hm).elim (hopening m) (hrest m)
  unfold milestones
  rw [ho]
  cases hv : (c.plan setup).verdict with
  | error error =>
    rw [hc.atWork_eq_none (order_of_error hv)]
    refine ⟨opening ++ [.noted (.aborting c.action error), .announced (.abort c.action error)], ?_,
      hjoin _ ?_⟩
    · rw [List.append_assoc]
      rfl
    · intro m hm
      simp only [List.mem_cons, List.not_mem_nil, or_false] at hm
      rcases hm with rfl | rfl <;> rfl
  | ok order =>
    cases order with
    | nil =>
      rw [hc.atWork_eq_none (order_of_ok hv)]
      refine ⟨opening ++ [.noted (.nobodyApproved c.action)], ?_, hjoin _ ?_⟩
      · rw [List.append_assoc]
        rfl
      · intro m hm
        obtain rfl := List.mem_singleton.mp hm
        rfl
    | cons first others =>
      obtain ⟨inner, hi, hinner⟩ := visits_between c.action c.turns c.atWork (ackedBy c.turns)
        (first :: others).length
      refine ⟨opening ++ .noted (.executing c.action (first :: others).length) :: inner, ?_,
        hjoin _ ?_⟩
      · dsimp only
        rw [hi, List.append_assoc]
        rfl
      · intro m hm
        rcases List.mem_cons.mp hm with rfl | hm
        · rfl
        · exact hinner m hm

theorem Follows.inCourse (hc : c.Follows setup) :
    ∀ m ∈ c.milestones setup, m.inCourse = true := by
  obtain ⟨inner, hm, hinner⟩ := hc.between
  rw [hm]
  intro m hm
  rcases List.mem_cons.mp hm with rfl | hm
  · rfl
  rcases List.mem_append.mp hm with hm | hm
  · exact (hinner m hm).inCourse
  · obtain ⟨-, rfl⟩ := mem_unlocking.mp hm
    rfl

/-- A course that has ended counts once, as processed or as aborted. -/
theorem count_of_ended (h : c.atWork = none) (tally : Tally) :
    (c.count setup tally).processed + (c.count setup tally).aborted =
      tally.processed + tally.aborted + 1 := by
  unfold count
  rw [h]
  split
  · change tally.processed + 1 + tally.aborted = _
    omega
  · rfl

theorem count_dropped (tally : Tally) : (c.count setup tally).dropped = tally.dropped := by
  unfold count Tally.after
  split
  · split <;> rfl
  · rfl

theorem count_of_atWork (hc : c.Follows setup) {work : StoreName × Ticket}
    (h : c.atWork = some work) (tally : Tally) : c.count setup tally = tally := by
  unfold count
  cases hv : (c.plan setup).verdict with
  | ok order =>
    rw [h]
    rfl
  | error error =>
    rw [hc.atWork_eq_none (order_of_error hv)] at h
    cases h

end Course

end Concord
