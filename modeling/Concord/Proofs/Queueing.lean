import Concord.Backlog

/-!
# First in, first out

A backlog is used again and again: an item is handed in, or the oldest one is asked for. `InLine`
says what a backlog holds and what it does next in terms of its past dealings alone: what was let in
comes out again once and in the same order, and an item is handed back only when every place is
taken.
-/
namespace Concord.Backlog

variable {α : Type}

/-- What is asked of a backlog. -/
inductive Use (α : Type) where
  | put (item : α)
  | take
deriving DecidableEq

inductive Answer (α : Type) where
  | stored
  | returned (item : α)
  | taken (item : α)
  /-- Nothing waits. -/
  | nothing
deriving DecidableEq

/-- Makes one use of a backlog. One that is in vain leaves it as it is. -/
def serve (b : Backlog α) : Use α → Answer α × Backlog α
  | .put item =>
    match b.put item with
    | .ok c => (.stored, c)
    | .error back => (.returned back, b)
  | .take =>
    match b.oldest? with
    | some (item, c) => (.taken item, c)
    | none => (.nothing, b)

/-- Makes the uses one after the other: each of them with its answer, and the backlog that is
left. -/
def serveAll (b : Backlog α) : List (Use α) → List (Use α × Answer α) × Backlog α
  | [] => ([], b)
  | use :: rest =>
    let (answer, c) := b.serve use
    let (dealings, d) := c.serveAll rest
    ((use, answer) :: dealings, d)

/-- The items that were let in, in order. -/
def letIn (dealings : List (Use α × Answer α)) : List α :=
  dealings.filterMap fun
    | (.put item, .stored) => some item
    | _ => none

/-- The items that were given out, in order. -/
def givenOut (dealings : List (Use α × Answer α)) : List α :=
  dealings.filterMap fun
    | (_, .taken item) => some item
    | _ => none

/-- What dealings with a backlog that was empty at first say about what it holds and what it does
next. -/
structure InLine (capacity : Nat) (dealings : List (Use α × Answer α)) (b : Backlog α) : Prop where
  /-- What came out is what went in first, and the rest is still there, in the same order. -/
  order : letIn dealings = givenOut dealings ++ b.items
  length : b.length = (letIn dealings).length - (givenOut dealings).length
  bounded : b.length ≤ capacity
  /-- The next item is handed back exactly if every place is taken. -/
  full : ∀ item, (∃ back, (b.serve (.put item)).1 = .returned back) ↔
    (letIn dealings).length - (givenOut dealings).length = capacity
  /-- It is that very item, and the backlog stays as it is. -/
  returned : ∀ item back c, b.serve (.put item) = (.returned back, c) → back = item ∧ c = b
  /-- Nothing comes out exactly if all that was let in has been given out. -/
  drained : (b.serve .take).1 = .nothing ↔ (letIn dealings).length = (givenOut dealings).length

variable {b : Backlog α} {item : α}

theorem serve_put_of_full (h : b.length = b.capacity) (item : α) :
    b.serve (.put item) = (.returned item, b) := by
  have hput : b.put item = .error item := put_eq_error_iff.mpr ⟨h, rfl⟩
  rw [serve, hput]

theorem exists_put_of_room (h : b.length ≠ b.capacity) (item : α) :
    ∃ c, b.put item = .ok c ∧ b.serve (.put item) = (.stored, c) := by
  cases hput : b.put item with
  | ok c => exact ⟨c, rfl, by rw [serve, hput]⟩
  | error back => exact absurd (put_eq_error_iff.mp hput).1 h

theorem serve_take_eq_nothing_iff : (b.serve .take).1 = .nothing ↔ b.items = [] := by
  rw [← oldest?_eq_none_iff, serve]
  cases b.oldest? with
  | none => simp
  | some next => simp

/-- Nothing is lost or added by one use. -/
theorem serve_order (b : Backlog α) (use : Use α) :
    b.items ++ letIn [(use, (b.serve use).1)] =
        givenOut [(use, (b.serve use).1)] ++ (b.serve use).2.items ∧
      (b.serve use).2.capacity = b.capacity := by
  cases use with
  | put item =>
    by_cases hfull : b.length = b.capacity
    · rw [serve_put_of_full hfull]
      exact ⟨List.append_nil _, rfl⟩
    · obtain ⟨c, hput, hserve⟩ := exists_put_of_room hfull item
      obtain ⟨hitems, hcapacity⟩ := items_of_put_eq_ok hput
      rw [hserve]
      exact ⟨hitems.symm, hcapacity⟩
  | take =>
    rw [serve]
    cases ho : b.oldest? with
    | none => exact ⟨List.append_nil _, rfl⟩
    | some next =>
      obtain ⟨hitems, hcapacity⟩ := items_of_oldest?_eq_some ho
      exact ⟨(List.append_nil _).trans hitems, hcapacity⟩

/-- Nor by many. -/
theorem serveAll_order (uses : List (Use α)) (b : Backlog α) :
    b.items ++ letIn (b.serveAll uses).1 = givenOut (b.serveAll uses).1 ++ (b.serveAll uses).2.items ∧
      (b.serveAll uses).2.capacity = b.capacity := by
  induction uses generalizing b with
  | nil => exact ⟨List.append_nil _, rfl⟩
  | cons use rest ih =>
    obtain ⟨hone, hcapacity⟩ := serve_order b use
    obtain ⟨hrest, hsame⟩ := ih (b.serve use).2
    refine ⟨?_, hsame.trans hcapacity⟩
    have hin : letIn (b.serveAll (use :: rest)).1 =
        letIn [(use, (b.serve use).1)] ++ letIn ((b.serve use).2.serveAll rest).1 :=
      List.filterMap_append (l := [(use, (b.serve use).1)])
    have hout : givenOut (b.serveAll (use :: rest)).1 =
        givenOut [(use, (b.serve use).1)] ++ givenOut ((b.serve use).2.serveAll rest).1 :=
      List.filterMap_append (l := [(use, (b.serve use).1)])
    calc b.items ++ letIn (b.serveAll (use :: rest)).1
        = (b.items ++ letIn [(use, (b.serve use).1)]) ++
            letIn ((b.serve use).2.serveAll rest).1 := by rw [hin, List.append_assoc]
      _ = givenOut [(use, (b.serve use).1)] ++
            ((b.serve use).2.items ++ letIn ((b.serve use).2.serveAll rest).1) := by
          rw [hone, List.append_assoc]
      _ = givenOut (b.serveAll (use :: rest)).1 ++ (b.serveAll (use :: rest)).2.items := by
          rw [hrest, hout, List.append_assoc]
          rfl

/-- However items are handed in and asked for, a backlog of any capacity is a line: first in, first
out, with nothing lost and no item turned away while there is a place for it. -/
theorem served_in_line (capacity : Nat) (uses : List (Use α)) :
    InLine capacity ((empty capacity).serveAll uses).1 ((empty capacity).serveAll uses).2 := by
  obtain ⟨horder, hcapacity⟩ := serveAll_order uses (empty (α := α) capacity)
  generalize ((empty capacity).serveAll uses).1 = dealings at horder ⊢
  generalize ((empty capacity).serveAll uses).2 = b at horder hcapacity ⊢
  have hlength : (letIn dealings).length = (givenOut dealings).length + b.length := by
    rw [← List.nil_append (letIn dealings), show [] ++ letIn dealings = _ from horder,
      List.length_append]
    rfl
  have hcount : (letIn dealings).length - (givenOut dealings).length = b.length := by omega
  have hcap : b.capacity = capacity := hcapacity
  refine ⟨horder, hcount.symm, ?_, ?_, ?_, ?_⟩
  · rw [← hcap]
    exact b.length_le_capacity
  · intro item
    rw [hcount, ← hcap]
    by_cases hfull : b.length = b.capacity
    · rw [serve_put_of_full hfull]
      exact ⟨fun _ => hfull, fun _ => ⟨item, rfl⟩⟩
    · obtain ⟨c, -, hserve⟩ := exists_put_of_room hfull item
      rw [hserve]
      refine ⟨?_, fun h => absurd h hfull⟩
      rintro ⟨back, hback⟩
      cases hback
  · intro item back c hserve
    by_cases hfull : b.length = b.capacity
    · rw [serve_put_of_full hfull] at hserve
      cases hserve
      exact ⟨rfl, rfl⟩
    · obtain ⟨d, -, hstored⟩ := exists_put_of_room hfull item
      rw [hstored] at hserve
      cases hserve
  · rw [serve_take_eq_nothing_iff, ← List.length_eq_zero_iff]
    change b.length = 0 ↔ _
    omega

/-- One place: the second item is handed back, and the place is free again after the first has been
given out. -/
example : ((empty 1).serveAll [.put 1, .put 2, .take, .put 3, .take, .take]).1.map Prod.snd =
    [.stored, .returned 2, .taken 1, .stored, .taken 3, .nothing] := by decide

end Concord.Backlog
