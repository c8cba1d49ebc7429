import Concord.Proofs.Engine.Soundness
import Concord.Proofs.Engine.Verdicts
import Concord.Proofs.Precedence.Drafts

/-!
# The canvasses of a run

Each action that an engine goes about begins with a canvass: the lock, the votes of all stores, and
a notice for each store that is to take a turn without having approved. `Canvasses` says that a run
consists of such canvasses and which stores the notices of each of them name; what comes later in
the course of an action, a cycle for instance, makes no difference.
-/
namespace Concord

variable {σ α : Type}

/-- The stores are asked about an action, and some of them are noted as drafted. -/
structure Canvass (α : Type) where
  action : α
  ballots : List Ballot
  drafted : List StoreName

namespace Canvass

def milestones (c : Canvass α) : List (Milestone α) :=
  .announced .lock :: (c.ballots.flatMap (Milestone.voting c.action) ++
    c.drafted.map fun store => .noted (.drafted store c.action))

/-- Every registered store has voted once, in ascending order. The drafted stores are noted, unless
a name is not registered. -/
structure Reported (setup : Setup σ α) (c : Canvass α) : Prop where
  ballots : c.ballots.map Ballot.store = setup.stores.names
  drafted : (∀ s d, ¬ Lacking setup.stores.contains c.ballots s d) → Drafts c.ballots c.drafted
  silent : ∀ s d, Lacking setup.stores.contains c.ballots s d → c.drafted = []

end Canvass

def Milestone.notice? : Milestone α → Option (Notice α)
  | noted notice => some notice
  | _ => none

/-- Whether the step belongs to a canvass. -/
def Milestone.inCanvass : Milestone α → Bool
  | announced .lock | called (.vote ..) | voted _ | noted (.drafted ..) => true
  | _ => false

theorem Milestone.inCourse_of_inCanvass {m : Milestone α} (h : m.inCanvass = true) :
    m.inCourse = true := by
  unfold inCanvass at h
  split at h <;> first | rfl | cases h

namespace Canvass

theorem filter_inCanvass (c : Canvass α) :
    c.milestones.filter Milestone.inCanvass = c.milestones := by
  refine List.filter_eq_self.mpr fun m hm => ?_
  rcases List.mem_cons.mp hm with rfl | hm
  · rfl
  rcases List.mem_append.mp hm with hm | hm
  · obtain ⟨ballot, -, hm⟩ := List.mem_flatMap.mp hm
    simp only [Milestone.voting, List.mem_cons, List.not_mem_nil, or_false] at hm
    rcases hm with rfl | rfl <;> rfl
  · obtain ⟨store, -, rfl⟩ := List.mem_map.mp hm
    rfl

end Canvass

/-- The world has seen these canvasses, one after the other, and no other votes or notices of
drafted stores. -/
structure Canvasses (setup : Setup σ α) (w : World σ α) (canvasses : List (Canvass α)) : Prop where
  reported : ∀ c ∈ canvasses, c.Reported setup
  trace : w.milestones.filter Milestone.inCanvass = canvasses.flatMap Canvass.milestones

namespace Plan

theorem drafted_of_lacking {isRegistered : StoreName → Bool} {ballots : List Ballot}
    {s d : StoreName} (h : Lacking isRegistered ballots s d) :
    (ofBallots isRegistered ballots).drafted = [] := by
  cases hu : unregistered? isRegistered ballots with
  | none => exact absurd h (unregistered?_eq_none_iff_lacking.mp hu s d)
  | some found => rw [ofBallots, hu]

end Plan

theorem Turn.filter_inCanvass (action : α) (turn : Turn) :
    (turn.milestones action).filter Milestone.inCanvass = [] := by
  unfold milestones Milestone.settlement
  cases turn.outcome.failure? <;> rfl

theorem visits_filter_inCanvass (action : α) (turns : List Turn)
    (atWork : Option (StoreName × Ticket)) (acked : List StoreName) (stores : Nat) :
    (visits action turns atWork acked stores).filter Milestone.inCanvass = [] := by
  have hturns : (turns.flatMap (Turn.milestones action)).filter Milestone.inCanvass = [] := by
    rw [List.filter_flatMap]
    exact List.flatMap_eq_nil_iff.mpr fun turn _ => turn.filter_inCanvass action
  unfold visits
  rw [List.filter_append, hturns, List.nil_append]
  cases atWork with
  | some work => rfl
  | none =>
    have hsignals : (acked.map fun store => Milestone.called (.signal store action)).filter
        Milestone.inCanvass = [] := by
      rw [List.filter_map]
      exact List.map_eq_nil_iff.mpr (List.filter_eq_nil_iff.mpr fun _ _ => Bool.false_ne_true)
    rw [closing, List.filter_append, hsignals]
    rfl

namespace Course

variable (setup : Setup σ α) (c : Course α)

def canvass : Canvass α := ⟨c.action, c.ballots, (c.plan setup).drafted⟩

variable {setup c}

/-- A course has one canvass, with which it begins. -/
theorem filter_inCanvass (setup : Setup σ α) (c : Course α) :
    (c.milestones setup).filter Milestone.inCanvass = (c.canvass setup).milestones := by
  unfold Course.milestones
  rw [List.filter_append, show c.opening setup = (c.canvass setup).milestones from rfl,
    Canvass.filter_inCanvass]
  have hrest : ∀ rest : List (Milestone α), rest.filter Milestone.inCanvass = [] →
      (c.canvass setup).milestones ++ rest.filter Milestone.inCanvass =
        (c.canvass setup).milestones := by
    intro rest h
    rw [h, List.append_nil]
  apply hrest
  split
  · rfl
  · exact visits_filter_inCanvass ..
  · rfl

theorem Follows.reported (h : c.Follows setup) : (c.canvass setup).Reported setup where
  ballots := h.ballots
  drafted hcomplete := by
    have hplan : c.plan setup = _ := Plan.ofBallots_of_complete hcomplete
    change Drafts c.ballots (c.plan setup).drafted
    rw [hplan]
    exact Precedence.drafts_drafted c.ballots
  silent _ _ hlack := Plan.drafted_of_lacking hlack

end Course

namespace Engine

variable {setup : Setup σ α} {capacity : Nat} {e : Engine σ α}

/-- Steps that are taken in courses only are those of the courses. -/
theorem Annals.filter {w : World σ α} {courses : List (Course α)} (h : Annals setup w courses)
    {p : Milestone α → Bool} (hp : ∀ m, p m = true → m.inCourse = true) :
    w.milestones.filter p = courses.flatMap fun c => (c.milestones setup).filter p := by
  have hboth : w.milestones.filter p = (w.milestones.filter Milestone.inCourse).filter p := by
    rw [List.filter_filter]
    refine List.filter_congr fun m _ => ?_
    cases hm : p m with
    | false => rfl
    | true => rw [hp m hm]; rfl
  rw [hboth, h.trace, List.filter_flatMap]

theorem Annals.canvasses {w : World σ α} {courses : List (Course α)}
    (h : Annals setup w courses) : Canvasses setup w (courses.map (Course.canvass setup)) where
  reported := List.forall_mem_map.mpr fun c hc => (h.follows c hc).reported
  trace := by
    rw [h.filter fun _ => Milestone.inCourse_of_inCanvass, List.flatMap_map]
    exact List.flatMap_congr fun c _ => c.filter_inCanvass setup

/-- The drafted stores are those that approving ballots wait for and that do not approve, once each
and by first mention; ballots that decline leave no mark. In a run they are noted once for each
canvass in which every name is registered, whether there is a cycle or not, and nothing is noted in
the others. -/
theorem drafted_stores_reported (h : Reachable setup capacity e) :
    (∀ ballots, Drafts ballots (Precedence.ofBallots ballots).drafted ∧
      (∀ s, s ∈ (Precedence.ofBallots ballots).stores ↔ Involved ballots s) ∧
      Precedence.ofBallots (ballots.filter (·.vote.isApproval)) = Precedence.ofBallots ballots) ∧
    ∃ canvasses, Canvasses setup e.world canvasses := by
  constructor
  · intro ballots
    exact ⟨Precedence.drafts_drafted ballots, fun s => Precedence.mem_stores_ofBallots,
      Precedence.ofBallots_filter ballots⟩
  · obtain ⟨intakes, ended, underway, hchronicle⟩ := h.sound.chronicled
    exact ⟨_, hchronicle.annals.canvasses⟩

end Engine

/-- Three stores of which the first goes after the others, the second goes after the first, and the
third declines. For the action 8 the first goes after a store that is not there as well. -/
def tangled : Setup Unit Nat where
  stores :=
    { entries :=
        [(⟨"a"⟩,
          { vote := fun action _ =>
              ⟨(), [], .after (if action = 8 then [⟨"b"⟩, ⟨"c"⟩, ⟨"d"⟩] else [⟨"b"⟩, ⟨"c"⟩])⟩
            complete := fun _ _ _ => ⟨(), [], ()⟩
            signal := fun _ _ => ⟨(), [], ()⟩ }),
         (⟨"b"⟩,
          { vote := fun _ _ => ⟨(), [], .after [⟨"a"⟩]⟩
            complete := fun _ _ _ => ⟨(), [], ()⟩
            signal := fun _ _ => ⟨(), [], ()⟩ }),
         (⟨"c"⟩,
          { vote := fun _ _ => ⟨(), [], .declines⟩
            complete := fun _ _ _ => ⟨(), [], ()⟩
            signal := fun _ _ => ⟨(), [], ()⟩ })]
      ascending := by decide }
  observe := fun _ _ _ => ⟨(), [], none⟩

def tangledRun : Engine Unit Nat :=
  ((Engine.initial 1 (.initial () 1 [])).interact
    ⟨(), [.send (.dispatch 7), .send (.dispatch 8)], ()⟩).takeTurns tangled 3

namespace Engine

/-- The third store is noted for the action 7, which is then found to be circular; nothing is noted
for the action 8. -/
theorem tangledRun_reported :
    Reachable tangled 1 tangledRun ∧
      tangledRun.world.milestones.filterMap Milestone.notice? =
        [.started 3 1, .drafted ⟨"c"⟩ 7, .aborting 7 (.circular [⟨"a"⟩, ⟨"b"⟩]),
          .aborting 8 (.unregistered ⟨"d"⟩ ⟨"a"⟩)] ∧
      ∃ canvasses, Canvasses tangled tangledRun.world canvasses := by
  have hreachable : Reachable tangled 1 tangledRun :=
    .takeTurns (.step (.initial () 1 []) (.outside _ _)) 3
  exact ⟨hreachable, by cbv, (drafted_stores_reported hreachable).2⟩

end Engine

end Concord
