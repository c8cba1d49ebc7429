import Concord.Proofs.Engine.Setbacks
import Mathlib.Data.List.DropRight

/-!
# The walk through a schedule

A walk goes along its schedule store by store, and each store that it has passed has acknowledged or
failed. `Walk.OnCourse` is what holds whenever its loop comes round: a call for work keeps it, and
the end of a turn keeps it with the next store. `Waits` is what holds while a walk waits for a
channel. The failures of the action at hand are read off the record, as those announced since the
last lock.
-/
namespace Concord

variable {σ α : Type}

namespace Milestone

def isLock : Milestone α → Bool
  | announced .lock => true
  | _ => false

theorem inCourse_of_isLock {m : Milestone α} (h : m.isLock = true) : m.inCourse = true := by
  unfold isLock at h
  split at h
  · rfl
  · cases h

theorem Serves.isLock {action : α} {m : Milestone α} (h : m.Serves action) : m.isLock = false := by
  unfold Milestone.isLock
  split
  · exact h.elim
  · rfl

theorem isLock_invocation {action : α} {store : StoreName} {ticket : Ticket} :
    ∀ m ∈ invocation action store ticket, m.isLock = false := by
  simp [invocation, isLock]

theorem isLock_settlement {action : α} {store : StoreName} {outcome : Outcome} :
    ∀ m ∈ settlement action store outcome, m.isLock = false := by
  unfold settlement
  cases outcome.failure? <;> simp [isLock]

theorem setbacks_settlement (action : α) (store : StoreName) (outcome : Outcome) :
    (settlement action store outcome).filterMap setback? =
      (outcome.failure?.map (⟨store, action, ·⟩)).toList := by
  unfold settlement
  cases outcome.failure? <;> rfl

end Milestone

/-- The steps since the last lock. -/
def sinceLock (ms : List (Milestone α)) : List (Milestone α) := ms.rtakeWhile (!·.isLock)

theorem sinceLock_concat (ms : List (Milestone α)) (m : Milestone α) :
    sinceLock (ms ++ [m]) = if m.isLock then [] else sinceLock ms ++ [m] := by
  rw [sinceLock, List.rtakeWhile_concat]
  cases m.isLock <;> rfl

theorem sinceLock_append (ms : List (Milestone α)) {more : List (Milestone α)}
    (h : ∀ m ∈ more, m.isLock = false) : sinceLock (ms ++ more) = sinceLock ms ++ more := by
  induction more using List.reverseRecOn with
  | nil => rw [List.append_nil, List.append_nil]
  | append_singleton more m ih =>
    obtain ⟨hmore, hm⟩ := List.forall_mem_append.mp h
    rw [← List.append_assoc, sinceLock_concat, hm m (List.mem_singleton.mpr rfl), ih hmore,
      if_neg Bool.false_ne_true, List.append_assoc]

theorem sinceLock_lock (ms : List (Milestone α)) {more : List (Milestone α)}
    (h : ∀ m ∈ more, m.isLock = false) :
    sinceLock (ms ++ .announced .lock :: more) = more := by
  rw [← List.singleton_append, ← List.append_assoc, sinceLock_append _ h, sinceLock_concat]
  rfl

/-- A lock is in a course, so steps in no course may be left out. -/
theorem sinceLock_filter (ms : List (Milestone α)) :
    sinceLock (ms.filter Milestone.inCourse) = (sinceLock ms).filter Milestone.inCourse := by
  induction ms using List.reverseRecOn with
  | nil => rfl
  | append_singleton ms m ih =>
    rw [List.filter_append, List.filter_singleton, sinceLock_concat]
    cases hlock : m.isLock with
    | true =>
      rw [Milestone.inCourse_of_isLock hlock, if_pos rfl, cond_true, sinceLock_concat, hlock]
      rfl
    | false =>
      rw [if_neg Bool.false_ne_true, List.filter_append, List.filter_singleton, ← ih]
      cases m.inCourse with
      | true => rw [cond_true, sinceLock_concat, hlock, if_neg Bool.false_ne_true]
      | false => rw [cond_false, List.append_nil, List.append_nil]

namespace World

variable {w w' : World σ α} {ms : List (Milestone α)}

/-- The failures that have been announced for the action at hand, that is since the last lock. -/
def setbacksAtHand (w : World σ α) : List (Setback α) :=
  (sinceLock w.milestones).filterMap Milestone.setback?

theorem Adds.setbacksAtHand (hw : w.Adds ms w') (h : ∀ m ∈ ms, m.isLock = false) :
    w'.setbacksAtHand = w.setbacksAtHand ++ ms.filterMap Milestone.setback? := by
  rw [World.setbacksAtHand, hw.milestones, sinceLock_append _ h, List.filterMap_append]
  rfl

theorem Adds.setbacksAtHand_lock (hw : w.Adds (.announced .lock :: ms) w')
    (h : ∀ m ∈ ms, m.isLock = false) :
    w'.setbacksAtHand = ms.filterMap Milestone.setback? := by
  rw [World.setbacksAtHand, hw.milestones, sinceLock_lock _ h]

end World

theorem Walk.ahead_cons {walk : Walk α} {store : StoreName} {rest : List StoreName}
    (h : store :: rest = walk.ahead) :
    walk.order[walk.cursor]? = some store ∧ rest = walk.order.drop (walk.cursor + 1) := by
  unfold ahead at h
  constructor
  · rw [← List.head?_drop, ← h]
    rfl
  · rw [← List.tail_drop, ← h]
    rfl

/-- What holds of a walk whenever its loop comes round. -/
structure Walk.OnCourse (setup : Setup σ α) (w : World σ α) (walk : Walk α) : Prop where
  nodup : walk.order.Nodup
  registered : ∀ s ∈ walk.order, setup.stores.contains s = true
  inside : walk.cursor ≤ walk.order.length
  /-- Those that acknowledged are among the stores that are done with, in the same order. -/
  acked : walk.acked.Sublist (walk.order.take walk.cursor)
  own : ∀ setback ∈ w.setbacksAtHand, setback.action = walk.action
  /-- Every store that is done with has acknowledged, or its failure has been announced. -/
  settled : walk.acked.length + w.setbacksAtHand.length = walk.cursor

namespace Walk.OnCourse

variable {setup : Setup σ α} {w w' : World σ α} {walk : Walk α} {store : StoreName}

theorem start {action : α} {order : List StoreName} (hnodup : order.Nodup)
    (hregistered : ∀ s ∈ order, setup.stores.contains s = true) (hnone : w.setbacksAtHand = []) :
    (Walk.start action order).OnCourse setup w where
  nodup := hnodup
  registered := hregistered
  inside := Nat.zero_le _
  acked := List.nil_sublist _
  own := by simp [hnone]
  settled := by rw [hnone]; rfl

theorem asked (h : walk.OnCourse setup w) {action : α} {ticket : Ticket}
    (hw : w.Adds (Milestone.invocation action store ticket) w') : walk.OnCourse setup w' := by
  have hsame : w'.setbacksAtHand = w.setbacksAtHand := by
    rw [hw.setbacksAtHand Milestone.isLock_invocation]
    exact List.append_nil _
  refine ⟨h.nodup, h.registered, h.inside, h.acked, ?_, ?_⟩
  · rw [hsame]
    exact h.own
  · rw [hsame]
    exact h.settled

/-- The next store's turn is over, and it is announced what became of its channel. -/
theorem pass (h : walk.OnCourse setup w) (hs : walk.order[walk.cursor]? = some store)
    {outcome : Outcome} (hw : w.Adds (Milestone.settlement walk.action store outcome) w') :
    (walk.pass store outcome).OnCourse setup w' := by
  replace hw := hw.setbacksAtHand Milestone.isLock_settlement
  rw [Milestone.setbacks_settlement] at hw
  have htake : walk.order.take (walk.cursor + 1) = walk.order.take walk.cursor ++ [store] := by
    rw [List.take_add_one, hs, Option.toList_some]
  have hinside : walk.cursor + 1 ≤ walk.order.length := (List.getElem?_eq_some_iff.mp hs).1
  have hsettled := h.settled
  have hlonger : walk.acked.Sublist (walk.order.take (walk.cursor + 1)) := by
    rw [htake]
    exact h.acked.trans (List.sublist_append_left _ _)
  have hfailed : ∀ why, outcome.failure? = some why → outcome ≠ .ack →
      (walk.pass store outcome).OnCourse setup w' := by
    intro why hfailure hne
    rw [hfailure] at hw
    refine ⟨h.nodup, h.registered, hinside, ?_, ?_, ?_⟩
    · rw [Walk.pass, if_neg hne]
      exact hlonger
    · rw [hw]
      refine List.forall_mem_append.mpr ⟨h.own, ?_⟩
      exact List.forall_mem_singleton.mpr rfl
    · rw [Walk.pass, if_neg hne, hw, List.length_append]
      change walk.acked.length + (w.setbacksAtHand.length + 1) = walk.cursor + 1
      omega
  cases outcome with
  | ack =>
    have hsame : w'.setbacksAtHand = w.setbacksAtHand := hw.trans (List.append_nil _)
    refine ⟨h.nodup, h.registered, hinside, ?_, by rw [hsame]; exact h.own, ?_⟩
    · rw [Walk.pass, if_pos rfl, htake]
      exact h.acked.append (List.Sublist.refl [store])
    · rw [Walk.pass, if_pos rfl, hsame, List.length_append, List.length_singleton]
      change walk.acked.length + 1 + w.setbacksAtHand.length = walk.cursor + 1
      omega
  | nack why => exact hfailed why rfl (by simp)
  | abandoned => exact hfailed .abandoned rfl (by simp)

end Walk.OnCourse

/-- A turn ends with an acknowledgement or with a failure. -/
theorem length_ackedBy_add (action : α) (turns : List Turn) :
    (ackedBy turns).length + (turns.filterMap (Turn.setback? action)).length = turns.length := by
  rw [ackedBy, List.length_map]
  induction turns with
  | nil => rfl
  | cons turn rest ih =>
    rw [List.length_cons, ← ih]
    cases ho : turn.outcome with
    | ack =>
      simp [Turn.setback?, ho, Outcome.failure?]
      omega
    | nack why => simp [Turn.setback?, ho, Outcome.failure?, Nat.add_assoc]
    | abandoned => simp [Turn.setback?, ho, Outcome.failure?, Nat.add_assoc]

namespace Engine

variable {setup : Setup σ α} {capacity : Nat} {e : Engine σ α} {pending : List α}
  {intakes : List (Intake α)} {ended : List (Course α)} {c : Course α}

/-- The failures announced since the last lock are those of the course underway. -/
theorem Chronicle.setbacksAtHand (h : Chronicle setup e pending intakes ended (some c)) :
    e.world.setbacksAtHand = c.setbacks := by
  have hfollows := h.annals.follows c (by simp)
  obtain ⟨store, hw⟩ := h.working c rfl
  obtain ⟨inner, hinner, hserves⟩ := hfollows.between
  have htrace := h.annals.trace
  rw [Option.toList_some, List.flatMap_append, List.flatMap_singleton, hinner, hw] at htrace
  have hsince : (sinceLock e.world.milestones).filter Milestone.inCourse = inner := by
    rw [← sinceLock_filter, htrace, sinceLock_lock]
    · exact List.append_nil _
    · intro m hm
      rcases List.mem_append.mp hm with hm | hm
      · exact (hserves m hm).isLock
      · cases hm
  have hown : inner.filterMap Milestone.setback? = c.setbacks := by
    rw [← hfollows.setbacks_announced, hinner, hw, List.filterMap_cons_none rfl]
    exact congrArg (List.filterMap Milestone.setback?) (List.append_nil inner).symm
  rw [World.setbacksAtHand, ← Milestone.filterMap_filter_inCourse
    fun _ => Milestone.setback?_eq_none, hsince, hown]

/-- A course underway keeps its walk on course. -/
theorem Chronicle.onCourse (h : Chronicle setup e pending intakes ended (some c)) :
    (Walk.after c.action (c.order setup) c.turns).OnCourse setup e.world := by
  have hfollows := h.annals.follows c (by simp)
  obtain ⟨store, hw⟩ := h.working c rfl
  obtain ⟨rest, horder, -⟩ := hfollows.split hw
  have hlength : (c.turns.map Turn.store).length = c.turns.length := List.length_map _
  have htake : (c.order setup).take c.turns.length = c.turns.map Turn.store := by
    rw [← horder, ← hlength, List.take_left]
  refine ⟨hfollows.nodup, hfollows.registered, ?_, ?_, ?_, ?_⟩
  · change c.turns.length ≤ (c.order setup).length
    rw [← horder, List.length_append, hlength]
    exact Nat.le_add_right _ _
  · change (ackedBy c.turns).Sublist ((c.order setup).take c.turns.length)
    rw [htake]
    exact List.filter_sublist.map _
  · intro setback hmem
    rw [h.setbacksAtHand] at hmem
    obtain ⟨turn, -, hturn⟩ := List.mem_filterMap.mp hmem
    obtain ⟨why, -, rfl⟩ := Option.map_eq_some_iff.mp hturn
    rfl
  · rw [h.setbacksAtHand]
    exact length_ackedBy_add c.action c.turns

variable (setup) in
/-- What holds while a walk waits for a store to answer on the channel with the ticket. -/
structure Waits (e : Engine σ α) (walk : Walk α) (store : StoreName) (ticket : Ticket) : Prop
    extends walk.OnCourse setup e.world where
  nonempty : walk.order ≠ []
  ahead : walk.cursor < walk.order.length
  current : walk.order[walk.cursor]? = some store
  /-- The engine listens to the channel that it handed to the store in its latest call for work. -/
  channel : e.world.channel.ticket = ticket
  assigned : e.world.assignments.getLast? = some ⟨store, walk.action, ticket⟩

theorem Reachable.waits (h : Reachable setup capacity e) {walk : Walk α} {store : StoreName}
    {ticket : Ticket} (hp : e.phase = .waiting walk store ticket) :
    Waits setup e walk store ticket := by
  obtain ⟨intakes, ended, underway, hc⟩ := h.sound.chronicled
  obtain ⟨c, rfl, hw, rfl, rfl⟩ := hc.awaited hp
  obtain ⟨rest, horder, -⟩ := (hc.annals.follows c (by simp)).split hw
  have hlength : (c.turns.map Turn.store).length = c.turns.length := List.length_map _
  have hcurrent : (c.order setup)[c.turns.length]? = some store := by
    rw [← horder, ← hlength, List.getElem?_append_right (Nat.le_refl _), Nat.sub_self]
    rfl
  refine ⟨hc.onCourse, ?_, (List.getElem?_eq_some_iff.mp hcurrent).1, hcurrent, rfl, ?_⟩
  · change c.order setup ≠ []
    rw [← horder]
    exact List.append_ne_nil_of_right_ne_nil _ (List.cons_ne_nil _ _)
  · rw [hc.assignments.1, Option.bind_some, Course.unanswered?, hw]
    exact List.getLast?_concat

end Engine

end Concord
