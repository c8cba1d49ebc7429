import Concord.Proofs.Engine.Comparison
import Concord.Proofs.Engine.Conservation

/-!
# The capacity of the backlog

A backlog of a greater capacity makes a difference only where the smaller one has no place for an
action. As long as nothing is dropped, runs with the two capacities are the same, except that each
says at its start which capacity it has.
-/
namespace Concord

variable {σ α : Type}

/-- The step without the capacity that it mentions. -/
def Entry.uncapped : Entry α → Entry α
  | noted (.started stores _) => noted (.started stores 0)
  | entry => entry

theorem Entry.bind_uncapped {β : Type} {f : Entry α → Option β} {entry : Entry α}
    (hf : ∀ stores capacity capacity',
      f (.noted (.started stores capacity)) = f (.noted (.started stores capacity'))) :
    (some entry.uncapped).bind f = f entry := by
  unfold Entry.uncapped
  split
  · exact hf ..
  · rfl

/-- All is seen but the capacity. -/
def Comparison.uncapped (σ α : Type) : Comparison σ σ α where
  alike := Eq
  minds _ := true
  excuses _ := false
  view entry := some entry.uncapped
  calls _ := Entry.bind_uncapped fun _ _ _ => rfl
  events _ := Entry.bind_uncapped fun _ _ _ => rfl
  replies _ := Entry.bind_uncapped fun _ _ _ => rfl
  announced _ _ _ h := by rw [eq_of_filter_true h]
  delivered _ h := by cases h
  wrote _ h := by cases h
  failed _ _ h := by rcases h with h | h <;> cases h

namespace Engine

variable {setup : Setup σ α} {capacity : Nat} {e e' : Engine σ α}

theorem Act.dropped_le (h : Act setup e e') : e.tally.dropped ≤ e'.tally.dropped := by
  cases h with
  | begun hh hidle hempty hc hu =>
    rw [hu.result]
    exact Nat.le_of_eq (Course.count_dropped ..).symm
  | resumed hlife hidle ho hc hu =>
    rw [hu.result]
    exact Nat.le_of_eq (Course.count_dropped ..).symm
  | continued hlife hl hf hp hw ho hc =>
    rw [hc.result]
    exact Nat.le_of_eq (Course.count_dropped ..).symm
  | dropped hh hbusy hfull => exact Nat.le_succ _
  | started | queued | replied | shut | deafened | stopped => exact Nat.le_refl _

theorem Reachable.move_dropped_le (h : Reachable setup capacity e) (m : Move σ α) :
    e.tally.dropped ≤ (e.move setup m).tally.dropped := by
  cases m with
  | turn =>
    unfold Engine.move
    cases ht : e.turn? setup with
    | none => exact Nat.le_refl _
    | some e' =>
      exact (h.sound.acts (turn_turned ht)).preserves
        (fun ha hle => Nat.le_trans hle ha.dropped_le) (Nat.le_refl _)
  | outside act => exact Nat.le_refl _
  | kill =>
    change e.tally.dropped ≤ e.kill.tally.dropped
    unfold Engine.kill
    split <;> exact Nat.le_refl _

/-- What has been dropped stays dropped. -/
theorem Reachable.play_dropped_le (h : Reachable setup capacity e) (moves : List (Move σ α)) :
    e.tally.dropped ≤ (e.play setup moves).tally.dropped := by
  induction moves generalizing e with
  | nil => exact Nat.le_refl _
  | cons m moves ih => exact Nat.le_trans (h.move_dropped_le m) (ih (h.move m))

/-- The count of dropped actions is that of the announcements. -/
theorem Reachable.dropped_eq_zero (h : Reachable setup capacity e)
    (hnone : droppedActions e.world.events = []) : e.tally.dropped = 0 := by
  obtain ⟨intakes, ended, underway, hc⟩ := h.sound.chronicled
  rw [hc.dropped, List.countP_eq_zero]
  intro intake hintake hdropped
  have hreceipt :
      Receipt.dropped intake.action ∈ e.world.milestones.filterMap Milestone.receipt? := by
    rw [hc.receipts]
    refine List.mem_flatMap.mpr ⟨intake, hintake, ?_⟩
    rw [Intake.receipts, if_pos hdropped]
    exact List.mem_cons_of_mem _ List.mem_cons_self
  obtain ⟨m, hm, hmr⟩ := List.mem_filterMap.mp hreceipt
  have hm' : m = .announced (.drop intake.action) := by
    unfold Milestone.receipt? at hmr
    split at hmr <;> cases hmr
    rfl
  have hevent : .drop intake.action ∈ e.world.events :=
    List.mem_filterMap.mpr ⟨m, hm, by rw [hm']; rfl⟩
  have haction : intake.action ∈ droppedActions e.world.events :=
    List.mem_filterMap.mpr ⟨_, hevent, rfl⟩
  rw [hnone] at haction
  cases haction

variable (setup) {host : σ} {handles : Nat} {observers : List ObserverName}
  {moves : List (Move σ α)}

theorem played_dropped_eq_zero {before : List (Move σ α)} (hbefore : before <+: moves)
    (hnone : droppedActions (played setup capacity host handles observers moves).world.events =
      []) :
    (played setup capacity host handles observers before).tally.dropped = 0 := by
  have hbegin := played_reachable setup capacity host handles observers before
  have hend := (played_reachable setup capacity host handles observers moves).dropped_eq_zero hnone
  obtain ⟨rest, rfl⟩ := hbefore
  rw [played, play_append] at hend
  exact Nat.le_zero.mp (hend ▸ hbegin.play_dropped_le rest)

/-- Two runs with the same moves do the same at every point, whatever their capacities, unless the
one with the smaller capacity has dropped an action by the end. -/
theorem capacity_matters_by_drops {capacity' : Nat} (hle : capacity ≤ capacity')
    (hnone : droppedActions (played setup capacity host handles observers moves).world.events = [])
    {before : List (Move σ α)} (hbefore : before <+: moves) :
    let e := played setup capacity host handles observers before
    let d := played setup capacity' host handles observers before
    e.SameConduct setup setup d ∧ e.world.host = d.world.host ∧
      (∀ observer, e.world.received observer = d.world.received observer) ∧
      e.world.history.map Entry.uncapped = d.world.history.map Entry.uncapped := by
  have hc : ∀ {h h'}, (Comparison.uncapped σ α).alike h h' ↔ h = h' := .rfl
  have hstarted : ∀ stores, (Comparison.uncapped σ α).view (.noted (.started stores capacity)) =
      (Comparison.uncapped σ α).view (.noted (.started stores capacity')) := fun _ => rfl
  have hroom : ∀ early, early <+: before →
      (played setup capacity host handles observers early).Room capacity capacity' :=
    fun early hearly => .inr ⟨hle, played_dropped_eq_zero setup (hearly.trans hbefore) hnone⟩
  have hconcur := (Comparison.Relates.itself hc (fun _ => rfl) setup).concur_of_room hstarted
    (Comparison.MovesAlike.themselves hc before) rfl handles rfl hroom
  have hseen : List.filterMap (some ∘ Entry.uncapped) _ =
      List.filterMap (some ∘ Entry.uncapped) _ := hconcur.world.seen
  rw [List.filterMap_eq_map] at hseen
  exact ⟨hconcur.toSameConduct, hconcur.world.host,
    fun _ => hconcur.world.filterMap fun _ => Entry.bind_uncapped fun _ _ _ => rfl, hseen⟩

/-- One action waits behind another when the engine is shut down. -/
def waitingMoves : List (Move Unit Nat) :=
  [.outside fun _ => ⟨(), [.send (.dispatch 7), .send (.dispatch 8), .send (.status 1),
      .send .shutdown], ()⟩,
    .turn, .turn, .turn, .turn, .turn, .outside fun _ => ⟨(), [.resolve 2 .ack], ()⟩, .turn,
    .outside fun _ => ⟨(), [.resolve 4 .ack], ()⟩, .turn, .turn]

theorem waitingRun_regardless :
    let e := played relay 1 () 1 [⟨"keen"⟩] waitingMoves
    let d := played relay 4 () 1 [⟨"keen"⟩] waitingMoves
    e.life = .stopped ∧ e.status = ⟨false, 0, 2, 0, 0⟩ ∧
      e.world.replies = [(1, some ⟨true, 1, 0, 0, 0⟩)] ∧
      e.SameConduct relay relay d ∧ e.world.host = d.world.host ∧
      (∀ observer, e.world.received observer = d.world.received observer) ∧
      e.world.history.map Entry.uncapped = d.world.history.map Entry.uncapped :=
  ⟨by cbv, by cbv, by cbv,
    capacity_matters_by_drops relay (by decide) (by cbv) (List.prefix_refl waitingMoves)⟩

end Engine

end Concord
