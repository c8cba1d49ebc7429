/-!
# Store identifiers

The names that stores are registered under, ordered by code point, and finite sets of them kept
as strictly ascending lists. A set has one representation, so equal sets are equal values.
-/

namespace Concord

/-- The name of a store. Any text is a name, the empty one included. -/
structure StoreName where
  name : String
deriving DecidableEq, Hashable, Inhabited, Repr

namespace StoreName

instance : LT StoreName := ⟨fun a b => a.name < b.name⟩

instance (a b : StoreName) : Decidable (a < b) := inferInstanceAs (Decidable (a.name < b.name))

theorem lt_irrefl (a : StoreName) : ¬ a < a := String.lt_irrefl a.name

theorem lt_asymm {a b : StoreName} (h : a < b) : ¬ b < a := String.lt_asymm h

theorem lt_trans {a b c : StoreName} (hab : a < b) (hbc : b < c) : a < c := String.lt_trans hab hbc

theorem ne_of_lt {a b : StoreName} (h : a < b) : a ≠ b := fun e => lt_irrefl b (e ▸ h)

/-- Two names that stand in no order are one name. -/
theorem eq_of_not_lt {a b : StoreName} (hab : ¬ a < b) (hba : ¬ b < a) : a = b := by
  cases a; cases b
  exact congrArg StoreName.mk (String.le_antisymm (String.not_lt.1 hba) (String.not_lt.1 hab))

theorem lt_of_not_lt_of_ne {a b : StoreName} (hab : ¬ a < b) (hne : a ≠ b) : b < a :=
  Decidable.byContradiction fun hba => hne (eq_of_not_lt hab hba)

end StoreName

/-- Puts a name in its place in an ascending list; a name already there is left alone. -/
def insertAscending (s : StoreName) : List StoreName → List StoreName
  | [] => [s]
  | t :: rest =>
    if s < t then s :: t :: rest
    else if s = t then t :: rest
    else t :: insertAscending s rest

@[simp] theorem mem_insertAscending {x s : StoreName} {l : List StoreName} :
    x ∈ insertAscending s l ↔ x = s ∨ x ∈ l := by
  induction l with
  | nil => simp [insertAscending]
  | cons t rest ih =>
    unfold insertAscending
    split
    · simp
    · split
      · rename_i h; subst h; simp
      · simp only [List.mem_cons, ih]
        exact or_left_comm

theorem insertAscending_ascending {s : StoreName} {l : List StoreName}
    (h : l.Pairwise (· < ·)) : (insertAscending s l).Pairwise (· < ·) := by
  induction l with
  | nil => simp [insertAscending]
  | cons t rest ih =>
    obtain ⟨hhead, htail⟩ := List.pairwise_cons.1 h
    unfold insertAscending
    split
    · rename_i hlt
      refine List.pairwise_cons.2 ⟨fun x hx => ?_, h⟩
      rcases List.mem_cons.1 hx with rfl | hx
      · exact hlt
      · exact StoreName.lt_trans hlt (hhead x hx)
    · split
      · exact h
      · rename_i hlt hne
        refine List.pairwise_cons.2 ⟨fun x hx => ?_, ih htail⟩
        rcases mem_insertAscending.1 hx with rfl | hx
        · exact StoreName.lt_of_not_lt_of_ne hlt hne
        · exact hhead x hx

/-- A finite set of store names, listed in strictly ascending order. -/
structure NameSet where
  toList : List StoreName
  ascending : toList.Pairwise (· < ·)
deriving DecidableEq, Repr

namespace NameSet

def empty : NameSet := ⟨[], .nil⟩

instance : Inhabited NameSet := ⟨empty⟩

/-- Adds a name; a name that is already in changes nothing. -/
def insert (s : StoreName) (set : NameSet) : NameSet :=
  ⟨insertAscending s set.toList, insertAscending_ascending set.ascending⟩

def erase (s : StoreName) (set : NameSet) : NameSet :=
  ⟨set.toList.filter (· ≠ s), set.ascending.filter _⟩

/-- The set of the names in a list: their order and repetitions do not matter. -/
def ofList (names : List StoreName) : NameSet := names.foldr insert empty

instance : Membership StoreName NameSet := ⟨fun set s => s ∈ set.toList⟩

instance (s : StoreName) (set : NameSet) : Decidable (s ∈ set) :=
  inferInstanceAs (Decidable (s ∈ set.toList))

@[simp] theorem mem_toList {s : StoreName} {set : NameSet} : s ∈ set.toList ↔ s ∈ set := Iff.rfl

@[simp] theorem not_mem_empty (s : StoreName) : s ∉ empty := List.not_mem_nil

@[simp] theorem mem_insert {x s : StoreName} {set : NameSet} : x ∈ set.insert s ↔ x = s ∨ x ∈ set :=
  mem_insertAscending

@[simp] theorem mem_erase {x s : StoreName} {set : NameSet} :
    x ∈ set.erase s ↔ x ≠ s ∧ x ∈ set := by
  change x ∈ set.toList.filter (· ≠ s) ↔ _
  simp [and_comm]

@[simp] theorem mem_ofList {s : StoreName} {names : List StoreName} :
    s ∈ ofList names ↔ s ∈ names := by
  induction names with
  | nil => simp [ofList]
  | cons t rest ih =>
    change s ∈ (ofList rest).insert t ↔ _
    simp [ih]

theorem nodup (set : NameSet) : set.toList.Nodup :=
  set.ascending.imp StoreName.ne_of_lt

/-- A set of names has no other representation. -/
theorem ext {a b : NameSet} (h : ∀ s, s ∈ a ↔ s ∈ b) : a = b := by
  have hperm : a.toList.Perm b.toList := (List.perm_ext_iff_of_nodup a.nodup b.nodup).mpr h
  have hlist := hperm.eq_of_pairwise
    (fun s t _ _ hst hts => absurd hts (StoreName.lt_asymm hst)) a.ascending b.ascending
  cases a
  cases b
  cases hlist
  rfl

end NameSet

end Concord
