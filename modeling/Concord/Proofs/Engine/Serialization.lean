import Concord.Proofs.Engine.Conservation

/-!
# One action at a time

The calls that stores receive come in blocks, one for each action from its lock to its unlock, and
the blocks follow the order of the inbox.
-/
namespace Concord

variable {σ α : Type}

/-- The locks, the unlocks and the calls of stores. -/
inductive Beat (α : Type) where
  | lock
  | call (callback : Callback α)
  | unlock
deriving DecidableEq

namespace Milestone

def beat? : Milestone α → Option (Beat α)
  | announced .lock => some .lock
  | announced .unlock => some .unlock
  | called callback => some (.call callback)
  | _ => none

theorem Serves.beat? {action : α} {m : Milestone α} (h : m.Serves action) :
    m.beat? = m.callback?.map .call := by
  cases m with
  | announced event => cases event <;> first | rfl | exact h.elim
  | _ => rfl

theorem callback?_eq_none {m : Milestone α} (h : m.inCourse = false) : m.callback? = none := by
  cases m <;> first | rfl | cases h

theorem beat?_eq_none {m : Milestone α} (h : m.inCourse = false) : m.beat? = none := by
  unfold Milestone.beat?
  split <;> first | rfl | cases h

end Milestone

/-- The calls for one action. -/
structure Block (α : Type) where
  action : α
  calls : List (Callback α)
  ended : Bool
deriving DecidableEq

def Block.beats (b : Block α) : List (Beat α) :=
  .lock :: (b.calls.map .call ++ if b.ended then [.unlock] else [])

def Course.block (setup : Setup σ α) (c : Course α) : Block α :=
  ⟨c.action, (c.milestones setup).filterMap Milestone.callback?, c.atWork.isNone⟩

namespace Course.Follows

variable {setup : Setup σ α} {c : Course α}

theorem callbacks (hc : c.Follows setup) :
    ∃ inner, c.milestones setup = .announced .lock :: (inner ++ unlocking c.atWork.isNone) ∧
      (∀ m ∈ inner, m.Serves c.action) ∧
      (c.block setup).calls = inner.filterMap Milestone.callback? := by
  obtain ⟨inner, hm, hinner⟩ := hc.between
  refine ⟨inner, hm, hinner, ?_⟩
  change (c.milestones setup).filterMap Milestone.callback? = _
  rw [hm]
  change (inner ++ unlocking c.atWork.isNone).filterMap Milestone.callback? = _
  rw [List.filterMap_append]
  cases c.atWork <;> exact List.append_nil _

theorem beats (hc : c.Follows setup) :
    (c.milestones setup).filterMap Milestone.beat? = (c.block setup).beats := by
  obtain ⟨inner, hm, hinner, hcalls⟩ := hc.callbacks
  have hbeats : inner.filterMap Milestone.beat? =
      (inner.filterMap Milestone.callback?).map .call := by
    rw [List.map_filterMap]
    exact List.filterMap_congr fun m hm => (hinner m hm).beat?
  rw [Block.beats, hcalls, ← hbeats, hm]
  change .lock :: (inner ++ unlocking c.atWork.isNone).filterMap Milestone.beat? = _
  rw [List.filterMap_append, Course.block]
  cases c.atWork <;> rfl

theorem calls (hc : c.Follows setup) : ∀ call ∈ (c.block setup).calls, call.action = c.action := by
  obtain ⟨inner, -, hinner, hcalls⟩ := hc.callbacks
  rw [hcalls]
  intro call hcall
  obtain ⟨m, hm, hm'⟩ := List.mem_filterMap.mp hcall
  have hserves := hinner m hm
  cases m with
  | called callback =>
    obtain rfl := Option.some.inj hm'
    exact hserves
  | _ => cases hm'

end Course.Follows

/-- The calls of a run fall into blocks: one for each action that has ended, and one for the action
underway. The blocks and then the backlog hold the actions taken from the inbox, in its order,
without those that were dropped. -/
structure Serialized (e : Engine σ α) (ended : List (Block α)) (underway : Option (Block α))
    (intakes : List (Intake α)) : Prop where
  beats : e.world.milestones.filterMap Milestone.beat? =
    (ended ++ underway.toList).flatMap Block.beats
  calls : e.world.milestones.filterMap Milestone.callback? =
    (ended ++ underway.toList).flatMap Block.calls
  own : ∀ b ∈ ended ++ underway.toList, ∀ call ∈ b.calls, call.action = b.action
  finished : ∀ b ∈ ended, b.ended = true
  working : ∀ b ∈ underway, b.ended = false
  locked : underway.isSome = e.isBusy
  receipts : e.world.milestones.filterMap Milestone.receipt? = intakes.flatMap Intake.receipts
  taken : e.world.takenActions = intakes.map Intake.action
  inOrder : e.world.taken <+: e.world.sent
  fifo : (ended ++ underway.toList).map Block.action ++ e.backlog.items = kept intakes
  rested : e.isBusy = false → e.backlog.items = []

namespace Engine

variable {setup : Setup σ α} {capacity : Nat} {e : Engine σ α}

/-- One action at a time, in the order of the inbox: at the head of the loop no calls of two actions
have been interleaved, and an idle engine has no action waiting that the next one could overtake. -/
theorem calls_serialized (h : Reachable setup capacity e) :
    ∃ ended underway intakes, Serialized e ended underway intakes := by
  obtain ⟨intakes, ended, underway, hc⟩ := h.sound.chronicled
  have hblocks : ended.map (Course.block setup) ++ (underway.map (Course.block setup)).toList =
      (ended ++ underway.toList).map (Course.block setup) := by
    rw [List.map_append]
    cases underway <;> rfl
  have hactions : ((ended ++ underway.toList).map (Course.block setup)).map Block.action =
      (ended ++ underway.toList).map Course.action := by
    rw [List.map_map]
    rfl
  refine ⟨ended.map (Course.block setup), underway.map (Course.block setup), intakes, ?_, ?_, ?_,
    ?_, ?_, ?_, hc.receipts, hc.takenActions, ?_, ?_, h.sound.rested⟩
  · rw [hblocks, hc.annals.filterMap Milestone.beat? fun _ => Milestone.beat?_eq_none,
      List.flatMap_map]
    exact List.flatMap_congr fun c hmem => (hc.annals.follows c hmem).beats
  · rw [hblocks, hc.annals.filterMap Milestone.callback? fun _ => Milestone.callback?_eq_none,
      List.flatMap_map]
    rfl
  · rw [hblocks]
    intro b hb
    obtain ⟨c, hmem, rfl⟩ := List.mem_map.mp hb
    exact (hc.annals.follows c hmem).calls
  · intro b hb
    obtain ⟨c, hmem, rfl⟩ := List.mem_map.mp hb
    rw [Course.block, hc.finished c hmem]
    rfl
  · intro b hb
    obtain ⟨c, hmem, rfl⟩ := Option.map_eq_some_iff.mp hb
    obtain ⟨store, hw⟩ := hc.working c hmem
    rw [Course.block, hw]
    rfl
  · rw [Option.isSome_map, hc.isBusy]
  · obtain ⟨lost, hsent, -⟩ := h.accounted.mail
    rw [hsent, List.append_assoc]
    exact List.prefix_append _ _
  · rw [hblocks, hactions, hc.accepted]

theorem relayRun_serialized :
    Reachable relay 2 relayRun ∧ relayRun.backlog.items = [9] ∧
      relayRun.world.milestones.filterMap Milestone.callback? =
        [.vote ⟨"a"⟩ 7, .vote ⟨"b"⟩ 7, .complete ⟨"b"⟩ 7 1, .complete ⟨"a"⟩ 7 2,
          .signal ⟨"b"⟩ 7,
          .vote ⟨"a"⟩ 8, .vote ⟨"b"⟩ 8, .complete ⟨"b"⟩ 8 3, .complete ⟨"a"⟩ 8 4] ∧
      ∃ ended underway intakes, Serialized relayRun ended underway intakes :=
  ⟨relayRun_reachable, by cbv, by cbv, calls_serialized relayRun_reachable⟩

end Engine

end Concord
