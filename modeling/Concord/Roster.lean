import Concord.Refusal

/-!
# Rosters

Bindings of store names, listed in ascending order of the names. The first binding of a name holds:
a second one is refused and changes nothing.
-/

namespace Concord

/-- Bindings of names to values, ascending by name. -/
structure Roster (β : Type) where
  entries : List (StoreName × β)
  ascending : (entries.map Prod.fst).Pairwise (· < ·)

namespace Roster

variable {β : Type}

theorem ascending_nil : (([] : List (StoreName × β)).map Prod.fst).Pairwise (· < ·) := .nil

def empty : Roster β := ⟨[], ascending_nil⟩

instance : Inhabited (Roster β) := ⟨empty⟩

def names (r : Roster β) : List StoreName := r.entries.map Prod.fst

def size (r : Roster β) : Nat := r.entries.length

def isEmpty (r : Roster β) : Bool := r.entries.isEmpty

def find? (r : Roster β) (s : StoreName) : Option β :=
  (r.entries.find? fun entry => entry.1 = s).map Prod.snd

def contains (r : Roster β) (s : StoreName) : Bool := r.entries.any fun entry => entry.1 = s

/-- Puts a binding in its place in an ascending list of bindings. -/
def insertBinding (s : StoreName) (value : β) : List (StoreName × β) → List (StoreName × β)
  | [] => [(s, value)]
  | entry :: rest =>
    if s < entry.1 then (s, value) :: entry :: rest else entry :: insertBinding s value rest

theorem map_fst_insertBinding (s : StoreName) (value : β) {entries : List (StoreName × β)}
    (fresh : s ∉ entries.map Prod.fst) :
    (insertBinding s value entries).map Prod.fst =
      insertAscending s (entries.map Prod.fst) := by
  induction entries with
  | nil => rfl
  | cons entry rest ih =>
    simp only [List.map_cons, List.mem_cons, not_or] at fresh
    unfold insertBinding
    simp only [List.map_cons, insertAscending]
    split
    · rfl
    · simp [fresh.1, ih fresh.2]

theorem contains_eq_false_iff {r : Roster β} {s : StoreName} :
    r.contains s = false ↔ s ∉ r.names := by
  simp only [contains, names, List.any_eq_false, List.mem_map, decide_eq_true_eq]
  exact ⟨fun h ⟨entry, mem, eq⟩ => h entry mem eq, fun h entry mem eq => h ⟨entry, mem, eq⟩⟩

theorem contains_eq_true_iff {r : Roster β} {s : StoreName} :
    r.contains s = true ↔ s ∈ r.names := by
  rw [← Bool.not_eq_false, contains_eq_false_iff, Decidable.not_not]

def enroll (r : Roster β) (s : StoreName) (value : β) : Except Refusal (Roster β) :=
  if h : r.contains s = false then
    .ok ⟨insertBinding s value r.entries, by
      rw [map_fst_insertBinding s value (contains_eq_false_iff.1 h)]
      exact insertAscending_ascending r.ascending⟩
  else .error (.nameTaken s)

/-- Binds the names of a list in turn; the first refusal ends it. -/
def ofBindings (bindings : List (StoreName × β)) : Except Refusal (Roster β) :=
  bindings.foldlM (fun r (s, value) => r.enroll s value) empty

theorem enroll_eq_error_iff {r : Roster β} {s : StoreName} {value : β} {e : Refusal} :
    r.enroll s value = .error e ↔ s ∈ r.names ∧ e = .nameTaken s := by
  unfold enroll
  split
  · rename_i h
    simp [contains_eq_false_iff.1 h]
  · rename_i h
    simp only [Except.error.injEq]
    rw [contains_eq_false_iff, Decidable.not_not] at h
    exact ⟨fun e => ⟨h, e.symm⟩, fun e => e.2.symm⟩

theorem nodup_names (r : Roster β) : r.names.Nodup := r.ascending.imp StoreName.ne_of_lt

end Roster

end Concord
