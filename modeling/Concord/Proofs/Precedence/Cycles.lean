import Concord.Proofs.Precedence.Schedules

/-!
# Stores on cycles

The stores that are reported when there is no schedule are exactly those that have to come before
themselves. They can also be read off the strongly connected components of the precedence, in
whatever order these are listed: a component holds a cycle if it has more than one store, or if its
only store waits for itself.
-/
namespace Concord.Precedence

open Relation

variable {p : Precedence} {ballots : List Ballot}

/-- The lists are the strongly connected components: every store is in one of them and in no other,
together with the stores that it leads to and that lead back to it. -/
structure Components (p : Precedence) (components : List (List StoreName)) : Prop where
  perm : components.flatten.Perm p.stores
  linked : ∀ component ∈ components, ∀ s ∈ component, ∀ t,
    t ∈ component ↔ ReflTransGen p.Link s t ∧ ReflTransGen p.Link t s

def isKnot (p : Precedence) (component : List StoreName) : Bool :=
  1 < component.length || component.head?.any fun s => (s, s) ∈ p.links

/-- The stores of the components that hold a cycle, sorted; `none` when no component does. -/
def knotted? (p : Precedence) (components : List (List StoreName)) : Option (List StoreName) :=
  match (components.filter p.isKnot).flatten with
  | [] => none
  | members => some (members.mergeSort fun s t => ¬ t < s)

theorem sorted_names (names : List StoreName) :
    (names.mergeSort fun s t => ¬ t < s).Pairwise fun s t => ¬ t < s := by
  have htrans : ∀ a b c : StoreName, decide (¬ b < a) = true → decide (¬ c < b) = true →
      decide (¬ c < a) = true := by
    intro a b c hab hbc
    simp only [decide_eq_true_eq] at hab hbc ⊢
    intro hca
    by_cases heq : a = b
    · exact hbc (heq ▸ hca)
    · exact hbc (StoreName.lt_trans hca (StoreName.lt_of_not_lt_of_ne hab (Ne.symm heq)))
  have htotal : ∀ a b : StoreName, (decide (¬ b < a) || decide (¬ a < b)) = true := by
    intro a b
    rw [Bool.or_eq_true, decide_eq_true_eq, decide_eq_true_eq]
    by_cases hab : a < b
    · exact .inl (StoreName.lt_asymm hab)
    · exact .inr hab
  have hsorted := List.pairwise_mergeSort htrans htotal names
  exact hsorted.imp of_decide_eq_true

theorem mem_circular? (hp : p.WellFormed) {stores : List StoreName}
    (h : p.circular? = some stores) :
    stores.Pairwise (· < ·) ∧ ∀ s, s ∈ stores ↔ TransGen p.Link s s := by
  unfold circular? at h
  split at h
  · cases h
  · rename_i members hmembers
    cases h
    refine ⟨(NameSet.ofList _).ascending, fun s => ?_⟩
    rw [NameSet.mem_toList, NameSet.mem_ofList, List.mem_filter, decide_eq_true_eq,
      mem_downstream hp]
    refine ⟨And.right, fun hs => ⟨?_, hs⟩⟩
    obtain ⟨t, hst, -⟩ := TransGen.head'_iff.mp hs
    exact (hp.ends hst).1

namespace Components

variable {components : List (List StoreName)}

/-- Two stores of a component lead to each other and so to themselves. -/
theorem transGen_self (h : p.Components components) {component : List StoreName}
    (hmem : component ∈ components) {s t : StoreName} (hs : s ∈ component) (ht : t ∈ component)
    (hne : t ≠ s) : TransGen p.Link s s := by
  obtain ⟨hst, hts⟩ := (h.linked component hmem s hs t).mp ht
  obtain heq | hst := reflTransGen_iff_eq_or_transGen.mp hst
  · exact absurd heq hne
  · exact hst.trans_left hts

/-- A store is in a component that holds a cycle exactly when it is on a cycle itself. -/
theorem mem_knots (hp : p.WellFormed) (h : p.Components components) {s : StoreName} :
    s ∈ (components.filter p.isKnot).flatten ↔ TransGen p.Link s s := by
  have hnodup : components.flatten.Nodup := h.perm.nodup_iff.mpr hp.nodup
  rw [List.mem_flatten]
  constructor
  · rintro ⟨component, hknot, hs⟩
    obtain ⟨hmem, hknot⟩ := List.mem_filter.mp hknot
    have hdistinct : component.Nodup := (List.nodup_flatten.mp hnodup).1 component hmem
    by_cases hother : ∃ t ∈ component, t ≠ s
    · obtain ⟨t, ht, hne⟩ := hother
      exact h.transGen_self hmem hs ht hne
    · -- The component has no other store, so it is its own link that makes it a knot.
      obtain rfl : component = [s] := by
        by_contra hne
        rcases (hdistinct.ne_singleton_iff s).mp hne with hnil | hmore
        · exact List.ne_nil_of_mem hs hnil
        · exact hother hmore
      have hself : (s, s) ∈ p.links := by simpa [isKnot] using hknot
      exact .single hself
  · intro hs
    obtain ⟨t, hst, hts⟩ := TransGen.head'_iff.mp hs
    have hstored : s ∈ components.flatten := h.perm.mem_iff.mpr (hp.ends hst).1
    obtain ⟨component, hmem, hcomponent⟩ := List.mem_flatten.mp hstored
    have ht : t ∈ component := (h.linked component hmem s hcomponent t).mpr ⟨.single hst, hts⟩
    refine ⟨component, List.mem_filter.mpr ⟨hmem, ?_⟩, hcomponent⟩
    match component, hcomponent, ht with
    | [a], hs', ht' =>
      obtain rfl := List.mem_singleton.mp hs'
      obtain rfl := List.mem_singleton.mp ht'
      have hlink : (t, t) ∈ p.links := hst
      simp [isKnot, hlink]
    | _ :: _ :: _, _, _ => simp [isKnot]

/-- The components give the same report, whichever way they are listed. -/
theorem knotted?_eq (hp : p.WellFormed) (h : p.Components components) :
    p.knotted? components = p.circular? := by
  have hnodup : (components.filter p.isKnot).flatten.Nodup := by
    have hall : components.flatten.Nodup := h.perm.nodup_iff.mpr hp.nodup
    obtain ⟨heach, hapart⟩ := List.nodup_flatten.mp hall
    exact List.nodup_flatten.mpr
      ⟨fun component hknot => heach component (List.mem_of_mem_filter hknot), hapart.filter _⟩
  have hmem := fun s => h.mem_knots hp (s := s)
  unfold knotted?
  generalize (components.filter p.isKnot).flatten = members at hnodup hmem
  cases members with
  | nil =>
    refine ((circular?_eq_none_iff hp).mpr fun s hs => ?_).symm
    exact List.not_mem_nil ((hmem s).mpr hs)
  | cons first others =>
    cases hc : p.circular? with
    | none => exact absurd ((hmem first).mp List.mem_cons_self) ((circular?_eq_none_iff hp).mp hc _)
    | some stores =>
      obtain ⟨hascending, hstores⟩ := mem_circular? hp hc
      refine congrArg some ?_
      have hsorted := sorted_names (first :: others)
      have hperm := (first :: others).mergeSort_perm fun s t => ¬ t < s
      refine List.Perm.eq_of_pairwise (fun s t _ _ hst hts => StoreName.eq_of_not_lt hts hst)
        hsorted (hascending.imp StoreName.lt_asymm) ?_
      refine hperm.trans ((List.perm_ext_iff_of_nodup hnodup ?_).mpr fun s => ?_)
      · exact hascending.imp StoreName.ne_of_lt
      · rw [hmem, hstores]

/-- Whether lists are the components can be computed by searches from the stores. -/
theorem of_downstream (hp : p.WellFormed) (hperm : components.flatten.Perm p.stores)
    (h : ∀ component ∈ components, ∀ s ∈ component, ∀ t ∈ p.stores,
      t ∈ component ↔ t = s ∨ t ∈ p.downstream s ∧ s ∈ p.downstream t) :
    p.Components components := by
  refine ⟨hperm, fun component hmem s hs t => ?_⟩
  have hstored : ∀ {x}, x ∈ component → x ∈ p.stores :=
    fun hx => hperm.mem_iff.mp (List.mem_flatten.mpr ⟨component, hmem, hx⟩)
  constructor
  · intro ht
    rcases (h component hmem s hs t (hstored ht)).mp ht with rfl | ⟨hst, hts⟩
    · exact ⟨.refl, .refl⟩
    · exact ⟨((mem_downstream hp).mp hst).to_reflTransGen,
        ((mem_downstream hp).mp hts).to_reflTransGen⟩
  · rintro ⟨hst, hts⟩
    rcases reflTransGen_iff_eq_or_transGen.mp hst with rfl | hst
    · exact hs
    rcases reflTransGen_iff_eq_or_transGen.mp hts with rfl | hts
    · exact hs
    obtain ⟨u, hlink, -⟩ := TransGen.head'_iff.mp hts
    exact (h component hmem s hs t (hp.ends hlink).1).mpr
      (.inr ⟨(mem_downstream hp).mpr hst, (mem_downstream hp).mpr hts⟩)

end Components

/-- For every list of ballots, a store voting any number of times: nothing is reported exactly when
no store has to come before itself, and otherwise exactly those that have to are reported, once
each and ascending. Stores that only lead into a cycle or are only led to by one are not among them.
The strongly connected components, however they are listed, give the same report. -/
theorem circular?_exact (ballots : List Ballot) :
    ((ofBallots ballots).circular? = none ↔ ∀ s, ¬ TransGen (Precedes ballots) s s) ∧
    (∀ stores, (ofBallots ballots).circular? = some stores →
      stores.Pairwise (· < ·) ∧ ∀ s, s ∈ stores ↔ TransGen (Precedes ballots) s s) ∧
    ∀ components, (ofBallots ballots).Components components →
      (ofBallots ballots).knotted? components = (ofBallots ballots).circular? := by
  have hp := wellFormed_ofBallots ballots
  have hrel : (ofBallots ballots).Link = Precedes ballots := by
    funext s t
    exact propext link_ofBallots
  rw [← hrel]
  exact ⟨circular?_eq_none_iff hp, fun stores => mem_circular? hp, fun components h =>
    h.knotted?_eq hp⟩

/-- Two stores wait for each other and one for itself. Another only waits for these, and yet another
is only waited for. -/
def entangled : List Ballot :=
  [⟨⟨"a"⟩, .after [⟨"b"⟩, ⟨"e"⟩]⟩, ⟨⟨"b"⟩, .after [⟨"a"⟩]⟩, ⟨⟨"c"⟩, .after [⟨"c"⟩]⟩,
    ⟨⟨"d"⟩, .after [⟨"a"⟩, ⟨"c"⟩]⟩, ⟨⟨"b"⟩, .unconditional⟩, ⟨⟨"e"⟩, .declines⟩]

theorem entangled_exact :
    (ofBallots entangled).Components [[⟨"d"⟩], [⟨"b"⟩, ⟨"a"⟩], [⟨"e"⟩], [⟨"c"⟩]] ∧
      (ofBallots entangled).knotted? [[⟨"d"⟩], [⟨"b"⟩, ⟨"a"⟩], [⟨"e"⟩], [⟨"c"⟩]] =
        some [⟨"a"⟩, ⟨"b"⟩, ⟨"c"⟩] ∧
      ∀ s, s ∈ [⟨"a"⟩, ⟨"b"⟩, (⟨"c"⟩ : StoreName)] ↔ TransGen (Precedes entangled) s s := by
  have hcomponents :
      (ofBallots entangled).Components [[⟨"d"⟩], [⟨"b"⟩, ⟨"a"⟩], [⟨"e"⟩], [⟨"c"⟩]] :=
    .of_downstream (wellFormed_ofBallots entangled) (by decide +kernel)
      (of_decide_eq_true (by cbv))
  have hreport : (ofBallots entangled).circular? = some [⟨"a"⟩, ⟨"b"⟩, ⟨"c"⟩] := by cbv
  obtain ⟨-, hexact, hknots⟩ := circular?_exact entangled
  exact ⟨hcomponents, (hknots _ hcomponents).trans hreport, (hexact _ hreport).2⟩

end Concord.Precedence
