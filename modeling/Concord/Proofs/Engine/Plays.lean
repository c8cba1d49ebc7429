import Concord.Proofs.Engine.Runs

/-!
# Runs move by move

What happens to an engine is a list of moves: it takes a turn, the outside does something, or the
engine is taken away. The moves determine the run, so that two engines can be put through the same
moves and compared.
-/
namespace Concord

variable {σ α : Type}

/-- What the outside does may depend on the host that it finds. -/
inductive Move (σ α : Type) where
  | turn
  | outside (act : σ → Reaction σ α Unit)
  | kill

namespace Engine

variable (setup : Setup σ α)

/-- A turn in which there is nothing to do changes nothing. -/
def move (e : Engine σ α) : Move σ α → Engine σ α
  | .turn => (e.turn? setup).getD e
  | .outside act => e.interact (act e.world.host)
  | .kill => e.kill

def play (e : Engine σ α) (moves : List (Move σ α)) : Engine σ α := moves.foldl (move setup) e

/-- The moves put an engine that has never run before through a run. -/
def played (capacity : Nat) (host : σ) (handles : Nat) (observers : List ObserverName)
    (moves : List (Move σ α)) : Engine σ α :=
  (initial capacity (.initial host handles observers)).play setup moves

variable {setup} {capacity : Nat} {e : Engine σ α}

theorem play_append (e : Engine σ α) (moves moves' : List (Move σ α)) :
    e.play setup (moves ++ moves') = (e.play setup moves).play setup moves' := List.foldl_append

theorem Reachable.move (h : Reachable setup capacity e) (m : Move σ α) :
    Reachable setup capacity (e.move setup m) := by
  cases m with
  | turn =>
    unfold Engine.move
    cases ht : e.turn? setup with
    | none => exact h
    | some e' => exact h.step (.turn ht)
  | outside act => exact h.step (.outside _ _)
  | kill => exact h.step (.kill _)

theorem Reachable.play (h : Reachable setup capacity e) (moves : List (Move σ α)) :
    Reachable setup capacity (e.play setup moves) := by
  induction moves generalizing e with
  | nil => exact h
  | cons m moves ih => exact ih (h.move m)

theorem played_reachable (setup : Setup σ α) (capacity : Nat) (host : σ) (handles : Nat)
    (observers : List ObserverName) (moves : List (Move σ α)) :
    Reachable setup capacity (played setup capacity host handles observers moves) :=
  (Reachable.initial host handles observers).play moves

/-- Every run can be told by its moves. -/
theorem Reachable.played (h : Reachable setup capacity e) :
    ∃ host handles observers moves, e = played setup capacity host handles observers moves := by
  induction h with
  | initial host handles observers => exact ⟨host, handles, observers, [], rfl⟩
  | @step e e' h hs ih =>
    have hmove : ∃ m, e' = e.move setup m := by
      cases hs with
      | turn ht => exact ⟨.turn, by rw [Engine.move, ht, Option.getD_some]⟩
      | outside reaction => exact ⟨.outside fun _ => reaction, rfl⟩
      | kill => exact ⟨.kill, rfl⟩
    obtain ⟨m, hm⟩ := hmove
    obtain ⟨host, handles, observers, moves, rfl⟩ := ih
    exact ⟨host, handles, observers, moves ++ [m], hm.trans (play_append _ moves [m]).symm⟩

end Engine

end Concord
