import Concord.Proofs.Wardrobe.Chores

/-!
# Runs of a wardrobe

`Happens` collects everything that can happen to a wardrobe, in any order and at any time. A session
is such a run: it settles when the outside acts and when the coat's tasks end.
-/
namespace Concord.Wardrobe

/-- What can happen to a wardrobe: its engine takes a turn, the outside asks for something, time
passes, the coat's task comes to its end, or the engine is taken away. -/
inductive Happens (setup : Setup Closet Chore) : Engine Closet Chore → Engine Closet Chore → Prop
  where
  | turn {e e' : Engine Closet Chore} (h : e.turn? setup = some e') : Happens setup e e'
  | ask (e : Engine Closet Chore) {requests : List (Request Chore)}
      (h : ∀ request ∈ requests, Discreet False request) :
      Happens setup e (e.interact ⟨e.world.host, requests, ()⟩)
  | wait (e : Engine Closet Chore) (ms : Nat) :
      Happens setup e
        (e.interact ⟨{ e.world.host with clock := e.world.host.clock + ms }, [], ()⟩)
  | errand {e : Engine Closet Chore} {errand : Errand} (h : errand ∈ e.world.host.errands) :
      Happens setup e (e.interact
        (errand.run { e.world.host with errands := e.world.host.errands.erase errand }))
  | kill (e : Engine Closet Chore) : Happens setup e e.kill

/-- One thing after the other. -/
abbrev Run (setup : Setup Closet Chore) : Engine Closet Chore → Engine Closet Chore → Prop :=
  Relation.ReflTransGen (Happens setup)

/-- A state that a wardrobe comes to. At the start nothing is worn, and nothing is dirty. -/
def Reached (setup : Setup Closet Chore) (capacity : Nat) (e : Engine Closet Chore) : Prop :=
  ∃ handles observers,
    Run setup (.initial capacity (.initial Closet.initial handles observers)) e

variable {quiet : Prop} {quick : Ticket → Bool} {setup : Setup Closet Chore} {capacity : Nat}
  {e e' e'' : Engine Closet Chore}

theorem Happens.step (h : Happens setup e e') : Engine.Step setup e e' := by
  cases h with
  | turn h => exact .turn h
  | ask => exact .outside _ e
  | wait => exact .outside _ e
  | errand h => exact .outside _ e
  | kill => exact .kill e

theorem Run.reachable (h : Run setup e e') (he : Engine.Reachable setup capacity e) :
    Engine.Reachable setup capacity e' := by
  induction h with
  | refl => exact he
  | tail _ h ih => exact ih.step h.step

theorem Reached.reachable (h : Reached setup capacity e) : Engine.Reachable setup capacity e := by
  obtain ⟨handles, observers, hrun⟩ := h
  exact hrun.reachable (.initial Closet.initial handles observers)

theorem Reached.run (h : Reached setup capacity e) (hrun : Run setup e e') :
    Reached setup capacity e' := by
  obtain ⟨handles, observers, hbefore⟩ := h
  exact ⟨handles, observers, hbefore.trans hrun⟩

theorem Reached.tail (h : Reached setup capacity e) (hh : Happens setup e e') :
    Reached setup capacity e' := h.run (.single hh)

namespace Run

theorem takeTurns (n : Nat) (e : Engine Closet Chore) : Run setup e (e.takeTurns setup n) := by
  induction n generalizing e with
  | zero => exact .refl
  | succ n ih =>
    unfold Engine.takeTurns
    cases ht : e.turn? setup with
    | none => exact .refl
    | some e' => exact .head (.turn ht) (ih e')

end Run

/-! ## Sessions -/

theorem eraseP_of_find? {β : Type} [DecidableEq β] {p : β → Bool} {l : List β} {x : β}
    (h : l.find? p = some x) : l.eraseP p = l.erase x := by
  obtain ⟨hx, before, after, rfl, hbefore⟩ := List.find?_eq_some_iff_append.mp h
  have hnotMem : x ∉ before := fun hmem => by simpa [hx] using hbefore x hmem
  rw [List.eraseP_append_right _ (fun y hy => by simpa using hbefore y hy),
    List.eraseP_cons_of_pos hx, List.erase_append_right _ hnotMem, List.erase_cons_head]

namespace Session

/-- A session has gone on with what can happen to a wardrobe. -/
structure Continues (s s' : Session) : Prop where
  setup : s'.setup = s.setup
  run : Run s.setup s.engine s'.engine

namespace Continues

variable {s s' s'' : Session}

theorem trans (h : Continues s s') (h' : Continues s' s'') : Continues s s'' where
  setup := h'.setup.trans h.setup
  run := by
    have hrun := h'.run
    rw [h.setup] at hrun
    exact h.run.trans hrun

theorem pump (s : Session) : Continues s s.pump := ⟨rfl, .takeTurns _ s.engine⟩

theorem request (s : Session) {requests : List (Request Chore)}
    (h : ∀ request ∈ requests, Discreet False request) : Continues s (s.request requests) :=
  ⟨rfl, .single (.ask s.engine h)⟩

/-- The errand that is run is the first one that is due, and it is taken off the list. -/
theorem runErrand (h : s.runErrand? = some s') : Continues s s' := by
  obtain ⟨errand, hfind, rfl⟩ := Option.map_eq_some_iff.mp h
  have herase := eraseP_of_find? hfind
  refine ⟨rfl, .single ?_⟩
  dsimp only
  rw [herase]
  exact .errand (List.mem_of_find?_eq_some hfind)

theorem settleTurns (n : Nat) (s : Session) : Continues s (s.settleTurns n) := by
  induction n generalizing s with
  | zero => exact .pump s
  | succ n ih =>
    unfold Session.settleTurns
    dsimp only
    cases hr : s.pump.runErrand? with
    | none => exact .pump s
    | some s' => exact ((Continues.pump s).trans (.runErrand hr)).trans (ih s')

theorem settle (s : Session) : Continues s s.settle := settleTurns _ s

theorem asked (s : Session) {requests : List (Request Chore)}
    (h : ∀ request ∈ requests, Discreet False request) : Continues s (s.request requests).settle :=
  (Continues.request s h).trans (.settle _)

theorem status (s : Session) : Continues s s.status.2 := .asked s (by simp [Discreet])

theorem advance (ms : Nat) (s : Session) : Continues s (s.advance ms) := by
  let closet := { s.closet with clock := s.closet.clock + ms }
  have hwaited : Continues s { s with engine := s.engine.interact ⟨closet, [], ()⟩ } :=
    ⟨rfl, .single (.wait s.engine ms)⟩
  exact hwaited.trans (.settle _)

theorem idleTurns (n : Nat) (s : Session) : Continues s (s.idleTurns n).2 := by
  induction n generalizing s with
  | zero => exact .status s
  | succ n ih =>
    have hstatus := Continues.status s
    unfold Session.idleTurns
    generalize s.status = answered at hstatus
    obtain ⟨status, s'⟩ := answered
    cases status with
    | none => exact hstatus
    | some status =>
      dsimp only
      split
      · exact (hstatus.trans (.advance patience s')).trans (ih _)
      · exact hstatus

/-- Every step of a session is a run of its wardrobe. -/
theorem act (s : Session) (step : Step) : Continues s (s.act step).2 := by
  cases step with
  | dispatch actions =>
    refine .asked s fun request hrequest => ?_
    obtain ⟨action, -, rfl⟩ := List.mem_map.mp hrequest
    exact not_false
  | advance ms => exact .advance ms s
  | idle => exact .idleTurns _ s
  | status => exact .status s
  | shutdown => exact .asked s (by simp [Discreet])

end Continues

/-- What a session without extra garments comes to, a wardrobe comes to. -/
theorem reached {observers : List ObserverName} {s s' : Session}
    (h : Session.opened capacity observers [] = .ok s) (hs : Continues s s') :
    Reached (Wardrobe.setup (outfit fun _ => false)) capacity s'.engine := by
  unfold Session.opened at h
  rw [ofBindings_bindings] at h
  cases h
  exact ⟨2, observers, hs.run⟩

end Session

end Concord.Wardrobe
