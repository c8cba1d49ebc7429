import Concord.Engine.Loop

/-!
# Runs of an engine

Between two turns the outside may ask for anything, and it may take the engine away. `Reachable`
collects the states at the head of the loop, for every order of these steps.
-/
namespace Concord

variable {σ α : Type}

namespace Engine

variable (setup : Setup σ α)

inductive Step : Engine σ α → Engine σ α → Prop where
  | turn {e e' : Engine σ α} (h : e.turn? setup = some e') : Step e e'
  | outside (reaction : Reaction σ α Unit) (e : Engine σ α) : Step e (e.interact reaction)
  | kill (e : Engine σ α) : Step e e.kill

/-- A run leads from an engine that has never run to this one. -/
inductive Reachable (capacity : Nat) : Engine σ α → Prop where
  | initial (host : σ) (handles : Nat) (observers : List ObserverName) :
      Reachable capacity (.initial capacity (.initial host handles observers))
  | step {e e' : Engine σ α} (h : Reachable capacity e) (hs : Step setup e e') :
      Reachable capacity e'

/-- The engine after it has taken a message from its inbox. -/
def taking (message : Message α) (inbox : List (Message α)) (e : Engine σ α) : Engine σ α :=
  { e with world := { e.world with inbox }.record (.took message) }

/-- The engine after it has taken an action from its inbox and announced it. -/
def hearing (action : α) (inbox : List (Message α)) (e : Engine σ α) : Engine σ α :=
  (e.taking (.dispatch action) inbox).announce setup (.dispatch action)

/-- What a turn does, and when. -/
inductive Turned (e : Engine σ α) : Engine σ α → Prop where
  | started (hlife : e.life = .fresh) :
      Turned e { e.note (.started setup.stores.size e.backlog.capacity) with life := .running }
  | read (hlife : e.life = .running) (hl : e.listening = true) {message : Message α}
      {inbox : List (Message α)} (hi : e.world.inbox = message :: inbox) :
      Turned e ((e.taking message inbox).obey setup message)
  | deafened (hlife : e.life = .running) (hl : e.listening = true) (hi : e.world.inbox = [])
      (hh : e.world.handles = 0) : Turned e { e with listening := false }
  | proceeded (hlife : e.life = .running) {walk : Walk α} {store : StoreName} {ticket : Ticket}
      (hp : e.phase = .waiting walk store ticket)
      (hl : e.listening = true → e.world.inbox = [] ∧ e.world.handles ≠ 0) {outcome : Outcome}
      (ho : e.world.channel.outcome = some outcome) :
      Turned e ((e.carryOn setup walk store outcome).undertakeWaiting setup)
  | stopped (hlife : e.life = .running) (hp : e.phase = .idle) (hl : e.listening = false) :
      Turned e e.stop

variable {setup} {e e' : Engine σ α}

theorem isBusy_eq_false_iff : e.isBusy = false ↔ e.phase = .idle := by
  unfold isBusy
  cases e.phase <;> simp

theorem isBusy_of_waiting {walk : Walk α} {store : StoreName} {ticket : Ticket}
    (h : e.phase = .waiting walk store ticket) : e.isBusy = true := by
  rw [isBusy, h]

theorem read?_turned (hlife : e.life = .running) (hl : e.listening = true)
    (h : e.read? setup = some e') : Turned setup e e' := by
  unfold read? at h
  cases hi : e.world.inbox with
  | nil =>
    simp only [hi] at h
    split at h
    · cases h
      exact .deafened hlife hl hi ‹_›
    · cases h
  | cons message inbox =>
    simp only [hi] at h
    cases h
    exact .read hlife hl hi

theorem proceed?_turned (hlife : e.life = .running) {walk : Walk α} {store : StoreName}
    {ticket : Ticket} (hp : e.phase = .waiting walk store ticket)
    (hl : e.listening = true → e.world.inbox = [] ∧ e.world.handles ≠ 0)
    (h : e.proceed? setup walk store = some e') : Turned setup e e' := by
  obtain ⟨outcome, ho, rfl⟩ := Option.map_eq_some_iff.mp h
  exact .proceeded hlife hp hl ho

theorem read?_eq_none (h : e.read? setup = none) : e.world.inbox = [] ∧ e.world.handles ≠ 0 := by
  unfold read? at h
  cases hi : e.world.inbox with
  | nil =>
    simp only [hi] at h
    split at h
    · cases h
    · exact ⟨rfl, ‹_›⟩
  | cons message inbox => simp [hi] at h

theorem turn_turned (h : e.turn? setup = some e') : Turned setup e e' := by
  unfold turn? at h
  split at h
  · cases h
    exact .started ‹_›
  · rename_i hlife
    split at h
    · exact read?_turned hlife ‹_› h
    · cases h
      exact .stopped hlife ‹_› ‹_›
    · -- The inbox goes first; only when nothing can be read is the channel looked at.
      rename_i hp hl
      cases hr : e.read? setup with
      | some e'' =>
        rw [hr] at h
        cases h
        exact read?_turned hlife hl hr
      | none =>
        rw [hr] at h
        exact proceed?_turned hlife hp (fun _ => read?_eq_none hr) h
    · rename_i hp hl
      exact proceed?_turned hlife hp (fun hl' => by rw [hl] at hl'; cases hl') h
  · cases h
  · cases h

/-- An action is undertaken when none is at work; otherwise it waits, or is dropped when every
place is taken. -/
theorem accept_cases (setup : Setup σ α) (action : α) (e : Engine σ α) :
    (e.isBusy = false ∧ e.accept setup action =
      ((e.announce setup (.dispatch action)).undertake setup action).undertakeWaiting setup) ∨
    (e.isBusy = true ∧ ∃ backlog, e.backlog.put action = .ok backlog ∧
      e.accept setup action = { e.announce setup (.dispatch action) with backlog }) ∨
    (e.isBusy = true ∧ e.backlog.length = e.backlog.capacity ∧ e.accept setup action =
      (((e.announce setup (.dispatch action)).note
        (.backlogFull action e.backlog.capacity)).countDropped).announce setup (.drop action)) := by
  have hbusy : (e.announce setup (.dispatch action)).isBusy = e.isBusy := rfl
  have hbacklog : (e.announce setup (.dispatch action)).backlog = e.backlog := rfl
  unfold accept
  dsimp only
  rw [hbusy, hbacklog]
  cases e.isBusy with
  | false => exact .inl ⟨rfl, rfl⟩
  | true =>
    right
    rw [if_pos rfl]
    cases hput : e.backlog.put action with
    | ok backlog => exact .inl ⟨rfl, backlog, rfl, rfl⟩
    | error back =>
      obtain ⟨hfull, rfl⟩ := Backlog.put_eq_error_iff.mp hput
      exact .inr ⟨rfl, hfull, rfl⟩

theorem Reachable.takeTurns {capacity : Nat} (h : Reachable setup capacity e) (n : Nat) :
    Reachable setup capacity (e.takeTurns setup n) := by
  induction n generalizing e with
  | zero => exact h
  | succ n ih =>
    unfold Engine.takeTurns
    cases ht : e.turn? setup with
    | none => exact h
    | some e' => exact ih (h.step (.turn ht))

end Engine

/-- Two stores of which the first goes after the second. The second acknowledges at once, and the
first keeps its channel. -/
def relay : Setup Unit Nat where
  stores :=
    { entries :=
        [(⟨"a"⟩,
          { vote := fun _ _ => ⟨(), [], .after [⟨"b"⟩]⟩
            complete := fun _ _ _ => ⟨(), [], ()⟩
            signal := fun _ _ => ⟨(), [], ()⟩ }),
         (⟨"b"⟩,
          { vote := fun _ _ => ⟨(), [], .unconditional⟩
            complete := fun _ ticket _ => ⟨(), [.resolve ticket .ack], ()⟩
            signal := fun _ _ => ⟨(), [], ()⟩ })]
      ascending := by decide }
  observe := fun _ _ _ => ⟨(), [], none⟩

/-- Of four actions the first has ended, the second waits for a channel, the third waits for the
second, and the fourth has found no place. -/
def relayRun : Engine Unit Nat :=
  let sent := (Engine.initial 2 (.initial () 1 [])).interact ⟨(),
    [.send (.dispatch 7), .send (.dispatch 8), .send (.dispatch 9), .send (.dispatch 10),
      .send (.status 1)], ()⟩
  ((sent.takeTurns relay 6).interact ⟨(), [.resolve 2 .abandoned], ()⟩).takeTurns relay 1

theorem relayRun_reachable : Engine.Reachable relay 2 relayRun :=
  .takeTurns (.step (.takeTurns (.step (.initial () 1 []) (.outside _ _)) 6) (.outside _ _)) 1

end Concord
