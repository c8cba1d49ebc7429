import Concord.Precedence.Schedule
import Mathlib.Logic.Relation

/-!
# What the depth-first search finds

`Searching` relates the three lists of a search to the links of the precedence: stores not met yet,
visits still to be made, stores that are done with. Stores that have been entered and not left are
those with a pending `leave`; each of them leads to everything that stands in front of it. Cycles
are not excluded, except where a statement says so.
-/
namespace Concord.Precedence

open Relation

/-- The first store has to come before the second. -/
def Link (p : Precedence) (s t : StoreName) : Prop := (s, t) ∈ p.links

/-- No store is listed twice and the links stay among the listed stores. -/
structure WellFormed (p : Precedence) : Prop where
  nodup : p.stores.Nodup
  ends : ∀ {s t}, p.Link s t → s ∈ p.stores ∧ t ∈ p.stores

namespace Visit

def store : Visit → StoreName
  | enter s | leave s => s

def open? : Visit → Option StoreName
  | enter _ => none
  | leave s => some s

end Visit

/-- The stores that have been entered and are still to be left. -/
def opened (todo : List Visit) : List StoreName := todo.filterMap Visit.open?

@[simp] theorem opened_enters (names : List StoreName) : opened (names.map .enter) = [] := by
  simp [opened, List.filterMap_map, Function.comp_def, Visit.open?]

@[simp] theorem opened_append (a b : List Visit) : opened (a ++ b) = opened a ++ opened b := by
  simp [opened]

@[simp] theorem opened_leave (s : StoreName) (todo : List Visit) :
    opened (.leave s :: todo) = s :: opened todo := rfl

theorem mem_opened {s : StoreName} {todo : List Visit} : s ∈ opened todo ↔ .leave s ∈ todo := by
  constructor
  · intro h
    obtain ⟨v, hv, hs⟩ := List.mem_filterMap.mp h
    cases v with
    | enter t => simp [Visit.open?] at hs
    | leave t => obtain rfl := Option.some.inj hs; exact hv
  · intro h
    exact List.mem_filterMap.mpr ⟨.leave s, h, rfl⟩

variable {p : Precedence}

/-- What each kind of visit preserves holds when no visit is left. -/
theorem search_preserves {I : List StoreName → List Visit → List StoreName → Prop}
    (hleave : ∀ {unseen s todo order}, I unseen (.leave s :: todo) order →
      I unseen todo (s :: order))
    (henter : ∀ {unseen s todo order}, s ∈ unseen → I unseen (.enter s :: todo) order →
      I (unseen.erase s) ((p.followers s).reverse.map .enter ++ .leave s :: todo) order)
    (hskip : ∀ {unseen s todo order}, s ∉ unseen → I unseen (.enter s :: todo) order →
      I unseen todo order)
    {unseen : List StoreName} {todo : List Visit} {order : List StoreName}
    (h : I unseen todo order) : ∃ rest, I rest [] (p.search unseen todo order) := by
  induction unseen, todo, order using search.induct p with
  | case1 unseen order => rw [search]; exact ⟨unseen, h⟩
  | case2 unseen order s todo ih => rw [search]; exact ih (hleave h)
  | case3 unseen order s todo hs ih => rw [search, if_pos hs]; exact ih (henter hs h)
  | case4 unseen order s todo hs ih => rw [search, if_neg hs]; exact ih (hskip hs h)

/-- The state of a search, for stores `targets` that are to be met. -/
structure Searching (p : Precedence) (targets unseen : List StoreName) (todo : List Visit)
    (order : List StoreName) : Prop where
  split : (unseen ++ (opened todo ++ order)).Perm p.stores
  target : ∀ {t}, t ∈ targets → t ∈ unseen → .enter t ∈ todo
  tended : ∀ {s t}, .leave s ∈ todo → p.Link s t → t ∈ unseen → [.enter t, .leave s].Sublist todo
  finished : ∀ {s t}, s ∈ order → p.Link s t → t ∉ unseen
  path : todo.Pairwise fun v w => ∀ s, w = .leave s → TransGen p.Link s v.store

namespace Searching

variable {targets unseen : List StoreName} {s : StoreName} {todo : List Visit}
  {order : List StoreName}

theorem nodup (hp : p.WellFormed) (h : Searching p targets unseen todo order) :
    (unseen ++ (opened todo ++ order)).Nodup :=
  h.split.nodup_iff.mpr hp.nodup

theorem start (p : Precedence) (targets : List StoreName) :
    Searching p targets p.stores (targets.map .enter) [] := by
  constructor
  · simp
  · intro t ht _
    exact List.mem_map.mpr ⟨t, ht, rfl⟩
  · intro s t hs
    simp at hs
  · intro s t hs
    simp at hs
  · refine List.pairwise_map.mpr (List.pairwise_of_forall ?_)
    intro v w s hs
    cases hs

/-- When a store is left, none of its followers is still to be met. -/
theorem left_followers (hp : p.WellFormed) (h : Searching p targets unseen (.leave s :: todo) order)
    {t : StoreName} (hst : p.Link s t) : t ∉ unseen := by
  intro ht
  have hsub := h.tended List.mem_cons_self hst ht
  have hs : s ∈ opened todo := by
    rw [mem_opened, ← List.singleton_sublist]
    cases hsub with
    | cons _ hsub => exact (List.sublist_cons_self _ _).trans hsub
  have hn := (List.nodup_append.mp (h.nodup hp)).2.1
  rw [opened_leave, List.cons_append, List.nodup_cons] at hn
  exact hn.1 (List.mem_append_left _ hs)

theorem leave (hp : p.WellFormed) (h : Searching p targets unseen (.leave s :: todo) order) :
    Searching p targets unseen todo (s :: order) := by
  constructor
  · have hswap : (opened todo ++ s :: order).Perm (opened (.leave s :: todo) ++ order) :=
      List.perm_middle
    exact (hswap.append_left unseen).trans h.split
  · intro t ht hu
    simpa using h.target ht hu
  · intro g t hg hgt ht
    have hsub := h.tended (List.mem_cons_of_mem _ hg) hgt ht
    cases hsub with
    | cons _ hsub => exact hsub
  · intro g t hg hgt
    rcases List.mem_cons.mp hg with rfl | hg
    · exact h.left_followers hp hgt
    · exact h.finished hg hgt
  · exact (List.pairwise_cons.mp h.path).2

theorem enter (hp : p.WellFormed) (hs : s ∈ unseen)
    (h : Searching p targets unseen (.enter s :: todo) order) :
    Searching p targets (unseen.erase s) ((p.followers s).reverse.map .enter ++ .leave s :: todo)
      order := by
  have hnu : unseen.Nodup := (List.nodup_append.mp (h.nodup hp)).1
  -- A store that is still unseen now is not `s`, so its pending visit stands behind this one.
  have hne : ∀ {t}, t ∈ unseen.erase s → t ∈ unseen ∧ Visit.enter t ≠ .enter s := by
    intro t ht
    obtain ⟨hts, htu⟩ := (List.Nodup.mem_erase_iff hnu).mp ht
    exact ⟨htu, fun he => hts (Visit.enter.inj he)⟩
  constructor
  · rw [opened_append, opened_enters, opened_leave, List.nil_append, List.cons_append]
    have hmove : (unseen.erase s ++ s :: (opened todo ++ order)).Perm
        (unseen ++ (opened todo ++ order)) :=
      List.perm_middle.trans ((List.perm_cons_erase hs).symm.append_right _)
    exact hmove.trans h.split
  · intro t ht hu
    obtain ⟨hu, hts⟩ := hne hu
    have hmem := (List.mem_cons.mp (h.target ht hu)).resolve_left hts
    exact List.mem_append_right _ (List.mem_cons_of_mem _ hmem)
  · intro g t hg hgt ht
    obtain ⟨hu, hts⟩ := hne ht
    by_cases hgs : g = s
    · subst g
      have hmem : Visit.enter t ∈ (p.followers s).reverse.map Visit.enter :=
        List.mem_map.mpr ⟨t, List.mem_reverse.mpr (mem_followers.mpr hgt), rfl⟩
      exact (List.singleton_sublist.mpr hmem).append
        (List.singleton_sublist.mpr List.mem_cons_self)
    · have hg' : Visit.leave g ∈ todo := by simpa [hgs] using hg
      have hsub := h.tended (List.mem_cons_of_mem _ hg') hgt hu
      have hsub' : [Visit.enter t, .leave g].Sublist todo := by
        cases hsub with
        | cons _ hsub => exact hsub
        | cons_cons _ hsub => exact absurd rfl hts
      exact (hsub'.cons _).trans (List.sublist_append_right _ _)
  · intro g t hg hgt ht
    exact h.finished hg hgt (List.mem_of_mem_erase ht)
  · obtain ⟨hhead, htail⟩ := List.pairwise_cons.mp h.path
    refine List.pairwise_append.mpr ⟨?_, List.pairwise_cons.mpr ⟨?_, htail⟩, ?_⟩
    · refine List.pairwise_map.mpr (List.pairwise_of_forall ?_)
      intro v w g hg
      cases hg
    · intro w hw g hg
      exact hhead w hw g hg
    · intro v hv w hw g hg
      obtain ⟨t, ht, rfl⟩ := List.mem_map.mp hv
      have hst : p.Link s t := mem_followers.mp (List.mem_reverse.mp ht)
      rcases List.mem_cons.mp hw with rfl | hw
      · obtain rfl := Visit.leave.inj hg
        exact .single hst
      · exact (hhead w hw g hg).tail hst

theorem skip (hs : s ∉ unseen) (h : Searching p targets unseen (.enter s :: todo) order) :
    Searching p targets unseen todo order := by
  have hne : ∀ {t}, t ∈ unseen → Visit.enter t ≠ .enter s := by
    intro t ht he
    exact hs (Visit.enter.inj he ▸ ht)
  constructor
  · exact h.split
  · intro t ht hu
    exact (List.mem_cons.mp (h.target ht hu)).resolve_left (hne hu)
  · intro g t hg hgt ht
    have hsub := h.tended (List.mem_cons_of_mem _ hg) hgt ht
    cases hsub with
    | cons _ hsub => exact hsub
    | cons_cons _ hsub => exact absurd rfl (hne ht)
  · exact h.finished
  · exact (List.pairwise_cons.mp h.path).2

/-- In an acyclic precedence the followers of a store that is left are all done with: one that is
still open would lead back to the store. -/
theorem left_followers_done (hp : p.WellFormed) (hacyclic : ∀ s, ¬ TransGen p.Link s s)
    (h : Searching p targets unseen (.leave s :: todo) order) {t : StoreName}
    (hst : p.Link s t) : t ∈ order := by
  have ht := h.split.mem_iff.mpr (hp.ends hst).2
  rw [opened_leave, List.cons_append] at ht
  rcases List.mem_append.mp ht with hu | ht
  · exact absurd hu (h.left_followers hp hst)
  rcases List.mem_cons.mp ht with rfl | ht
  · exact absurd (.single hst) (hacyclic t)
  rcases List.mem_append.mp ht with ho | hd
  · have hts : TransGen p.Link t s :=
      (List.pairwise_cons.mp h.path).1 _ (mem_opened.mp ho) t rfl
    exact absurd (hts.tail hst) (hacyclic t)
  · exact hd

/-- At the end every target is done with, and so is whatever follows a store that is. -/
theorem done_of_target (hp : p.WellFormed) (h : Searching p targets unseen [] order)
    (hsub : ∀ t ∈ targets, t ∈ p.stores) {t : StoreName}
    (ht : t ∈ targets ∨ ∃ s ∈ order, p.Link s t) : t ∈ order := by
  have hsplit := h.split.mem_iff (a := t)
  have hstored : t ∈ p.stores ∧ t ∉ unseen := by
    rcases ht with ht | ⟨s, hs, hst⟩
    · exact ⟨hsub t ht, fun hu => List.not_mem_nil (h.target ht hu)⟩
    · exact ⟨(hp.ends hst).2, h.finished hs hst⟩
  have hmem := hsplit.mpr hstored.1
  exact (List.mem_append.mp hmem).resolve_left hstored.2

end Searching

/-- The line-up lists exactly the stores of the precedence, cyclic or not. -/
theorem perm_lineUp (hp : p.WellFormed) : p.lineUp.Perm p.stores := by
  obtain ⟨rest, h⟩ := search_preserves (fun h => h.leave hp) (fun hs h => h.enter hp hs)
    (fun hs h => h.skip hs) (Searching.start p p.stores)
  have hnil : rest = [] := by
    refine List.eq_nil_iff_forall_not_mem.mpr fun t ht => ?_
    have hstored : t ∈ p.stores := h.split.mem_iff.mp (List.mem_append_left _ ht)
    exact List.not_mem_nil (h.target hstored ht)
  have hsplit := h.split
  rw [hnil] at hsplit
  exact hsplit

/-- The stores that are done with so far hold all their followers, and none stands in front of a
store that it has to wait for. -/
structure Arranged (p : Precedence) (order : List StoreName) : Prop where
  closed : ∀ {s t}, s ∈ order → p.Link s t → t ∈ order
  sorted : order.Pairwise fun s t => ¬ p.Link t s

/-- Without a cycle, a store that is left goes in front of an arranged list. -/
theorem Arranged.leave (hp : p.WellFormed) (hacyclic : ∀ s, ¬ TransGen p.Link s s)
    {targets unseen order : List StoreName} {s : StoreName} {todo : List Visit}
    (h : Searching p targets unseen (.leave s :: todo) order) (ha : Arranged p order) :
    Arranged p (s :: order) := by
  have hs : s ∉ order := by
    have hn := (List.nodup_append.mp (h.nodup hp)).2.1
    rw [opened_leave, List.cons_append, List.nodup_cons] at hn
    exact fun hm => hn.1 (List.mem_append_right _ hm)
  constructor
  · intro g t hg hgt
    rcases List.mem_cons.mp hg with rfl | hg
    · exact List.mem_cons_of_mem _ (h.left_followers_done hp hacyclic hgt)
    · exact List.mem_cons_of_mem _ (ha.closed hg hgt)
  · refine List.pairwise_cons.mpr ⟨?_, ha.sorted⟩
    intro t ht hts
    exact hs (ha.closed ht hts)

/-- Without a cycle, no store of the line-up stands in front of one that it has to wait for. -/
theorem lineUp_sorted (hp : p.WellFormed) (hacyclic : ∀ s, ¬ TransGen p.Link s s) :
    p.lineUp.Pairwise fun s t => ¬ p.Link t s := by
  obtain ⟨_, _, h⟩ := search_preserves
    (I := fun unseen todo order =>
      Searching p p.stores unseen todo order ∧ Arranged p order)
    (fun h => ⟨h.1.leave hp, h.2.leave hp hacyclic h.1⟩)
    (fun hs h => ⟨h.1.enter hp hs, h.2⟩) (fun hs h => ⟨h.1.skip hs, h.2⟩)
    ⟨Searching.start p p.stores, ⟨by simp, .nil⟩⟩
  exact h.sorted

/-- All that a search is about to visit or is done with waits for one store. -/
structure Reached (p : Precedence) (s : StoreName) (todo : List Visit) (order : List StoreName) :
    Prop where
  pending : ∀ v ∈ todo, TransGen p.Link s v.store
  done : ∀ t ∈ order, TransGen p.Link s t

theorem Reached.tail {s : StoreName} {v : Visit} {todo : List Visit} {order : List StoreName}
    (h : Reached p s (v :: todo) order) : Reached p s todo order :=
  ⟨fun w hw => h.pending w (List.mem_cons_of_mem _ hw), h.done⟩

theorem Reached.enter {s g : StoreName} {todo : List Visit} {order : List StoreName}
    (h : Reached p s (.enter g :: todo) order) :
    Reached p s ((p.followers g).reverse.map .enter ++ .leave g :: todo) order := by
  have hg : TransGen p.Link s g := h.pending _ List.mem_cons_self
  refine ⟨fun v hv => ?_, h.done⟩
  rcases List.mem_append.mp hv with hv | hv
  · obtain ⟨t, ht, rfl⟩ := List.mem_map.mp hv
    exact hg.tail (mem_followers.mp (List.mem_reverse.mp ht))
  rcases List.mem_cons.mp hv with rfl | hv
  · exact hg
  · exact h.tail.pending v hv

/-- Everything that the search from a store meets waits for that store. -/
theorem downstream_sound {s t : StoreName} (h : t ∈ p.downstream s) : TransGen p.Link s t := by
  have hstart : Reached p s ((p.followers s).map .enter) [] := by
    refine ⟨fun v hv => ?_, by simp⟩
    obtain ⟨t, ht, rfl⟩ := List.mem_map.mp hv
    exact .single (mem_followers.mp ht)
  have hleave : ∀ {g todo order}, Reached p s (.leave g :: todo) order →
      Reached p s todo (g :: order) := by
    intro g todo order hr
    refine ⟨hr.tail.pending, fun t ht => ?_⟩
    rcases List.mem_cons.mp ht with rfl | ht
    · exact hr.pending _ List.mem_cons_self
    · exact hr.done t ht
  obtain ⟨_, hr⟩ := search_preserves (I := fun _ todo order => Reached p s todo order)
    hleave (fun _ hr => hr.enter) (fun _ hr => hr.tail) hstart
  exact hr.done t h

/-- The stores downstream of a store are those that wait for it, directly or through others. -/
theorem mem_downstream (hp : p.WellFormed) {s t : StoreName} :
    t ∈ p.downstream s ↔ TransGen p.Link s t := by
  refine ⟨downstream_sound, fun h => ?_⟩
  obtain ⟨_, hs⟩ := search_preserves (fun h => h.leave hp) (fun hs h => h.enter hp hs)
    (fun hs h => h.skip hs) (Searching.start p (p.followers s))
  have hsub : ∀ t ∈ p.followers s, t ∈ p.stores := fun t ht => (hp.ends (mem_followers.mp ht)).2
  induction h with
  | single hst => exact hs.done_of_target hp hsub (.inl (mem_followers.mpr hst))
  | tail _ hgt ih => exact hs.done_of_target hp hsub (.inr ⟨_, ih, hgt⟩)

end Concord.Precedence
