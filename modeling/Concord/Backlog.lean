/-!
# Backlogs

A backlog is a line of waiting items that has a fixed number of places and hands an item back when
all of them are taken. `put_eq_error_iff` says exactly when that happens, and the lemmas on `items`
say what each operation does to the line.
-/

namespace Concord

/-- At most `capacity` waiting items, the oldest first. -/
structure Backlog (α : Type) where
  capacity : Nat
  items : List α
  length_le : items.length ≤ capacity

namespace Backlog

variable {α : Type}

/-- Nothing waits. A capacity of zero is allowed: such a backlog accepts nothing. -/
def empty (capacity : Nat) : Backlog α := ⟨capacity, [], Nat.zero_le _⟩

instance : Inhabited (Backlog α) := ⟨empty 0⟩

def length (b : Backlog α) : Nat := b.items.length

def isEmpty (b : Backlog α) : Bool := b.items.isEmpty

/-- Puts an item behind the others, or hands it back when no place is left. -/
def put (b : Backlog α) (item : α) : Except α (Backlog α) :=
  if h : b.items.length < b.capacity then
    .ok ⟨b.capacity, b.items ++ [item], by rw [List.length_append]; exact h⟩
  else .error item

def oldest? (b : Backlog α) : Option (α × Backlog α) :=
  match h : b.items with
  | [] => none
  | item :: rest =>
    some (item, ⟨b.capacity, rest, by have := b.length_le; simp [h] at this; omega⟩)

theorem length_le_capacity (b : Backlog α) : b.length ≤ b.capacity := b.length_le

/-- An accepted item goes to the back and the capacity stays. -/
theorem items_of_put_eq_ok {b c : Backlog α} {item : α} (h : b.put item = .ok c) :
    c.items = b.items ++ [item] ∧ c.capacity = b.capacity := by
  unfold put at h
  split at h
  · cases h; exact ⟨rfl, rfl⟩
  · cases h

/-- An item is handed back exactly when every place is taken, and it is that item. -/
theorem put_eq_error_iff {b : Backlog α} {item back : α} :
    b.put item = .error back ↔ b.length = b.capacity ∧ back = item := by
  unfold put length
  have := b.length_le
  split
  · simp; omega
  · simp only [Except.error.injEq]
    exact ⟨fun h => ⟨by omega, h.symm⟩, fun h => h.2.symm⟩

theorem oldest?_eq_none_iff {b : Backlog α} : b.oldest? = none ↔ b.items = [] := by
  unfold oldest?
  split <;> simp_all

/-- The item that comes out is the one that has waited longest. -/
theorem items_of_oldest?_eq_some {b c : Backlog α} {item : α} (h : b.oldest? = some (item, c)) :
    b.items = item :: c.items ∧ c.capacity = b.capacity := by
  unfold oldest? at h
  split at h
  · cases h
  · rename_i hb
    cases h
    exact ⟨hb, rfl⟩

end Backlog

end Concord
