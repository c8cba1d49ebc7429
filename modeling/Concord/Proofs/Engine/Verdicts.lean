import Concord.Proofs.Engine.Courses

/-!
# What becomes of the ballots

Three things can be wrong with the same ballots, and only one of them is reported: a name that is
not registered goes before a cycle, and among such names the one that the first store asks for
first. `Weighed` says what weighing an action does, and which verdict it comes to when.
-/
namespace Concord

open Relation

variable {σ α : Type}

/-- An approving ballot of the second store names the first, which is not registered. -/
def Lacking (isRegistered : StoreName → Bool) (ballots : List Ballot)
    (store dependent : StoreName) : Prop :=
  Precedes ballots store dependent ∧ isRegistered store = false

/-- The lack is that of the least store that lacks any, and the least one that this store lacks. -/
structure FirstLack (isRegistered : StoreName → Bool) (ballots : List Ballot)
    (store dependent : StoreName) : Prop where
  lacking : Lacking isRegistered ballots store dependent
  dependent_least : ∀ s d, Lacking isRegistered ballots s d → ¬ d < dependent
  store_least : ∀ s, Lacking isRegistered ballots s dependent → ¬ s < store

theorem FirstLack.unique {isRegistered : StoreName → Bool} {ballots : List Ballot}
    {s s' d d' : StoreName} (h : FirstLack isRegistered ballots s d)
    (h' : FirstLack isRegistered ballots s' d') : s = s' ∧ d = d' := by
  have hd : d = d' := StoreName.eq_of_not_lt (h'.dependent_least s d h.lacking)
    (h.dependent_least s' d' h'.lacking)
  subst hd
  exact ⟨StoreName.eq_of_not_lt (h'.store_least s h.lacking) (h.store_least s' h'.lacking), rfl⟩

/-- What is less than a member of an ascending list stands in front of it. -/
theorem mem_before_of_lt {β : Type} {f : β → StoreName} {before after : List β} {x y : β}
    (h : ((before ++ x :: after).map f).Pairwise (· < ·)) (hy : y ∈ before ++ x :: after)
    (hlt : f y < f x) : y ∈ before := by
  rw [List.map_append, List.map_cons, List.pairwise_append, List.pairwise_cons] at h
  rcases List.mem_append.mp hy with hbefore | hrest
  · exact hbefore
  rcases List.mem_cons.mp hrest with rfl | hafter
  · exact absurd hlt (StoreName.lt_irrefl _)
  · exact absurd hlt (StoreName.lt_asymm (h.2.1.1 _ (List.mem_map_of_mem hafter)))

theorem Vote.isApproval_of_mem {vote : Vote} {s : StoreName} (h : s ∈ vote.prerequisites) :
    vote.isApproval = true := by
  cases vote with
  | declines => exact absurd h (NameSet.not_mem_empty s)
  | approves names => rfl

namespace Plan

variable {isRegistered : StoreName → Bool} {ballots : List Ballot} {store dependent : StoreName}

theorem unregistered?_eq_none_iff_lacking :
    unregistered? isRegistered ballots = none ↔ ∀ s d, ¬ Lacking isRegistered ballots s d := by
  rw [unregistered?_eq_none_iff]
  constructor
  · rintro h s d ⟨⟨ballot, hmem, -, -, hs⟩, hlack⟩
    rw [h ballot hmem s hs] at hlack
    cases hlack
  · intro h ballot hmem s hs
    by_contra hlack
    exact h s ballot.store
      ⟨⟨ballot, hmem, rfl, Vote.isApproval_of_mem hs, hs⟩, Bool.eq_false_iff.mpr hlack⟩

/-- The search goes through stores and names in ascending order, so it stops at the first lack. -/
theorem firstLack_of_unregistered? (hasc : (ballots.map Ballot.store).Pairwise (· < ·))
    (h : unregistered? isRegistered ballots = some (store, dependent)) :
    FirstLack isRegistered ballots store dependent := by
  obtain ⟨before, ballot, after, rfl, hfound, hnone⟩ := List.findSome?_eq_some_iff.mp h
  obtain ⟨s, hfind, hpair⟩ := Option.map_eq_some_iff.mp hfound
  obtain ⟨rfl, rfl⟩ := Prod.mk.inj hpair
  obtain ⟨hlack, names, rest, hnames, hregistered⟩ := List.find?_eq_some_iff_append.mp hfind
  rw [Bool.not_eq_true'] at hlack
  have hmem : ballot ∈ before ++ ballot :: after := List.mem_append_right _ List.mem_cons_self
  have hs : s ∈ ballot.vote.prerequisites := by
    rw [← NameSet.mem_toList, hnames]
    exact List.mem_append_right _ List.mem_cons_self
  refine ⟨⟨⟨ballot, hmem, rfl, Vote.isApproval_of_mem hs, hs⟩, hlack⟩, ?_, ?_⟩
  · rintro t d ⟨⟨other, hother, rfl, -, ht⟩, hmissing⟩ hlt
    -- Nothing was found on the ballots in front.
    have hsearched := hnone other (mem_before_of_lt hasc hother hlt)
    rw [Option.map_eq_none_iff, List.find?_eq_none] at hsearched
    exact hsearched t ht (by rw [hmissing]; rfl)
  · rintro t ⟨⟨other, hother, hstore, -, ht⟩, hmissing⟩ hlt
    obtain rfl : other = ballot :=
      List.inj_on_of_nodup_map (hasc.imp StoreName.ne_of_lt) hother hmem hstore
    have hascending := other.vote.prerequisites.ascending
    rw [← NameSet.mem_toList, hnames] at ht
    rw [hnames] at hascending
    have hin := mem_before_of_lt (f := id) (by rw [List.map_id]; exact hascending) ht hlt
    have hsearched := hregistered t hin
    rw [hmissing] at hsearched
    cases hsearched

theorem unregistered?_eq_some_iff (hasc : (ballots.map Ballot.store).Pairwise (· < ·)) :
    unregistered? isRegistered ballots = some (store, dependent) ↔
      FirstLack isRegistered ballots store dependent := by
  refine ⟨firstLack_of_unregistered? hasc, fun h => ?_⟩
  cases hu : unregistered? isRegistered ballots with
  | none => exact absurd h.lacking (unregistered?_eq_none_iff_lacking.mp hu store dependent)
  | some found =>
    obtain ⟨rfl, rfl⟩ := h.unique (firstLack_of_unregistered? hasc hu)
    rfl

/-- With every name registered, the plan is what the ballots ask for. -/
theorem ofBallots_of_complete (h : ∀ s d, ¬ Lacking isRegistered ballots s d) :
    ofBallots isRegistered ballots =
      ⟨(Precedence.ofBallots ballots).drafted, (Precedence.ofBallots ballots).schedule⟩ := by
  rw [ofBallots, unregistered?_eq_none_iff_lacking.mpr h]

theorem ofBallots_of_firstLack (hasc : (ballots.map Ballot.store).Pairwise (· < ·))
    (h : FirstLack isRegistered ballots store dependent) :
    ofBallots isRegistered ballots = ⟨[], .error (.unregistered store dependent)⟩ := by
  rw [ofBallots, (unregistered?_eq_some_iff hasc).mpr h]

variable (isRegistered) in
/-- The three verdicts, each with what the ballots have to be like for it. -/
theorem verdict_cases (hasc : (ballots.map Ballot.store).Pairwise (· < ·)) :
    (∃ store dependent, FirstLack isRegistered ballots store dependent ∧
      (ofBallots isRegistered ballots).verdict = .error (.unregistered store dependent)) ∨
    ((∀ s d, ¬ Lacking isRegistered ballots s d) ∧ (∃ s, TransGen (Precedes ballots) s s) ∧
      ∃ stores, (ofBallots isRegistered ballots).verdict = .error (.circular stores)) ∨
    ((∀ s d, ¬ Lacking isRegistered ballots s d) ∧ (∀ s, ¬ TransGen (Precedes ballots) s s) ∧
      ∃ order, (ofBallots isRegistered ballots).verdict = .ok order) := by
  cases hu : unregistered? isRegistered ballots with
  | some found =>
    have hfirst := firstLack_of_unregistered? hasc hu
    exact .inl ⟨_, _, hfirst, by rw [ofBallots_of_firstLack hasc hfirst]⟩
  | none =>
    have hcomplete := unregistered?_eq_none_iff_lacking.mp hu
    have hrel : (Precedence.ofBallots ballots).Link = Precedes ballots := by
      funext s t
      exact propext Precedence.link_ofBallots
    have hcases := Precedence.schedule_cases (Precedence.wellFormed_ofBallots ballots)
    rw [hrel] at hcases
    rw [ofBallots_of_complete hcomplete]
    rcases hcases with ⟨hacyclic, -, hs⟩ | ⟨hcyclic, stores, -, hs⟩
    · exact .inr (.inr ⟨hcomplete, hacyclic, _, hs⟩)
    · rw [not_forall_not] at hcyclic
      exact .inr (.inl ⟨hcomplete, hcyclic, stores, hs⟩)

theorem verdict_eq_unregistered_iff (hasc : (ballots.map Ballot.store).Pairwise (· < ·)) :
    (ofBallots isRegistered ballots).verdict = .error (.unregistered store dependent) ↔
      FirstLack isRegistered ballots store dependent := by
  refine ⟨fun hv => ?_, fun h => by rw [ofBallots_of_firstLack hasc h]⟩
  rcases verdict_cases isRegistered hasc with
    ⟨s, d, hfirst, hv'⟩ | ⟨-, -, stores, hv'⟩ | ⟨-, -, order, hv'⟩
  · rw [hv'] at hv
    cases hv
    exact hfirst
  · rw [hv'] at hv
    cases hv
  · rw [hv'] at hv
    cases hv

theorem exists_unregistered_iff (hasc : (ballots.map Ballot.store).Pairwise (· < ·)) :
    (∃ store dependent, (ofBallots isRegistered ballots).verdict =
      .error (.unregistered store dependent)) ↔ ∃ s d, Lacking isRegistered ballots s d := by
  rcases verdict_cases isRegistered hasc with
    ⟨s, d, hfirst, hv⟩ | ⟨hcomplete, -, stores, hv⟩ | ⟨hcomplete, -, order, hv⟩
  · exact iff_of_true ⟨s, d, hv⟩ ⟨s, d, hfirst.lacking⟩
  · exact iff_of_false (by simp [hv]) (by simpa using hcomplete)
  · exact iff_of_false (by simp [hv]) (by simpa using hcomplete)

theorem exists_circular_iff (hasc : (ballots.map Ballot.store).Pairwise (· < ·)) :
    (∃ stores, (ofBallots isRegistered ballots).verdict = .error (.circular stores)) ↔
      (∀ s d, ¬ Lacking isRegistered ballots s d) ∧ ∃ s, TransGen (Precedes ballots) s s := by
  rcases verdict_cases isRegistered hasc with
    ⟨s, d, hfirst, hv⟩ | ⟨hcomplete, hcyclic, stores, hv⟩ | ⟨-, hacyclic, order, hv⟩
  · exact iff_of_false (by simp [hv]) fun h => h.1 s d hfirst.lacking
  · exact iff_of_true ⟨stores, hv⟩ ⟨hcomplete, hcyclic⟩
  · exact iff_of_false (by simp [hv]) fun ⟨_, s, hs⟩ => hacyclic s hs

theorem exists_order_iff (hasc : (ballots.map Ballot.store).Pairwise (· < ·)) :
    (∃ order, (ofBallots isRegistered ballots).verdict = .ok order) ↔
      (∀ s d, ¬ Lacking isRegistered ballots s d) ∧ ∀ s, ¬ TransGen (Precedes ballots) s s := by
  rcases verdict_cases isRegistered hasc with
    ⟨s, d, hfirst, hv⟩ | ⟨-, ⟨s, hs⟩, stores, hv⟩ | ⟨hcomplete, hacyclic, order, hv⟩
  · exact iff_of_false (by simp [hv]) fun h => h.1 s d hfirst.lacking
  · exact iff_of_false (by simp [hv]) fun h => h.2 s hs
  · exact iff_of_true ⟨order, hv⟩ ⟨hcomplete, hacyclic⟩

/-- A schedule has someone on it as soon as someone approves. -/
theorem order_eq_nil_iff {order : List StoreName}
    (h : (ofBallots isRegistered ballots).verdict = .ok order)
    (hb : ∀ ballot ∈ ballots, isRegistered ballot.store = true) :
    order = [] ↔ ∀ ballot ∈ ballots, ballot.vote.isApproval = false := by
  have hinvolved := (Precedence.schedule_ok (verdict_ok h hb).1).2.1
  rw [List.eq_nil_iff_forall_not_mem]
  constructor
  · intro hnone ballot hmem
    rw [Bool.eq_false_iff]
    intro hvote
    exact hnone ballot.store ((hinvolved _).mpr ⟨ballot, hmem, hvote, .inl rfl⟩)
  · intro hnone s hs
    obtain ⟨ballot, hmem, hvote, -⟩ := (hinvolved s).mp hs
    rw [hnone ballot hmem] at hvote
    cases hvote

/-- Without ballots there is nothing to do. -/
theorem verdict_nil : (ofBallots isRegistered []).verdict = .ok [] := by
  have hcomplete : ∀ s d, ¬ Lacking isRegistered [] s d := by simp [Lacking, Precedes]
  have hacyclic : ∀ s, ¬ TransGen (Precedes []) s s := by
    intro s hs
    obtain ⟨_, ⟨_, hmem, -⟩, -⟩ := TransGen.head'_iff.mp hs
    exact List.not_mem_nil hmem
  obtain ⟨order, hv⟩ := (exists_order_iff .nil).mpr ⟨hcomplete, hacyclic⟩
  rw [hv, (order_eq_nil_iff hv (by simp)).mpr (by simp)]

end Plan

/-- The ballots hold what the registered stores answered when they were asked about the action. -/
def Canvassed (setup : Setup σ α) (action : α) (ballots : List Ballot) : Prop :=
  List.Forall₂
    (fun entry ballot => ballot.store = entry.1 ∧
      ∃ host, ballot.vote = (entry.2.vote action host).answer)
    setup.stores.entries ballots

theorem World.canvass_answers (action : α) (entries : List (StoreName × Store σ α))
    (w : World σ α) :
    List.Forall₂
      (fun entry ballot => ballot.store = entry.1 ∧
        ∃ host, ballot.vote = (entry.2.vote action host).answer)
      entries (World.canvass action entries w).1 := by
  induction entries generalizing w with
  | nil => exact .nil
  | cons entry rest ih => exact .cons ⟨rfl, w.host, rfl⟩ (ih _)

namespace Engine

/-- The ballots on the action have been cast and weighed, with this verdict. -/
structure Weighed (setup : Setup σ α) (action : α) (e : Engine σ α) (ballots : List Ballot)
    (verdict : Except Refusal (List StoreName)) (e' : Engine σ α) : Prop where
  canvassed : Canvassed setup action ballots
  result : e' = { e with world := e'.world }
  /-- Every store is asked once, in ascending order, before anything is said about the ballots. What
  is said then is which stores take a turn without having approved, and nothing if a name is not
  registered. -/
  steps : ∃ drafted : List StoreName,
    e.world.Grows (ballots.flatMap (Milestone.voting action) ++
      drafted.map fun store => .noted (.drafted store action)) e'.world ∧
    ∀ s d, Lacking setup.stores.contains ballots s d → drafted = []
  lacking : (∃ store dependent, verdict = .error (.unregistered store dependent)) ↔
    ∃ s d, Lacking setup.stores.contains ballots s d
  unregistered : ∀ store dependent, verdict = .error (.unregistered store dependent) ↔
    FirstLack setup.stores.contains ballots store dependent
  circular : (∃ stores, verdict = .error (.circular stores)) ↔
    (∀ s d, ¬ Lacking setup.stores.contains ballots s d) ∧ ∃ s, TransGen (Precedes ballots) s s
  scheduled : (∃ order, verdict = .ok order) ↔
    (∀ s d, ¬ Lacking setup.stores.contains ballots s d) ∧ ∀ s, ¬ TransGen (Precedes ballots) s s
  order : ∀ order, verdict = .ok order →
    (∀ s ∈ order, setup.stores.contains s = true) ∧
      (order = [] ↔ ∀ ballot ∈ ballots, ballot.vote.isApproval = false)
  deserted : setup.stores.entries = [] → verdict = .ok []

/-- Whatever the stores vote, the verdict is fixed by the ballots alone: a name that is not
registered goes before a cycle, and the least one of the least store is reported; without either
there is a schedule, and it is empty only if no store approves. -/
theorem ballots_classified (setup : Setup σ α) (action : α) (e : Engine σ α) :
    ∃ ballots,
      Weighed setup action e ballots (e.weigh setup action).1 (e.weigh setup action).2 := by
  let ballots := (World.canvass action setup.stores.entries e.world).1
  have hstores : ballots.map Ballot.store = setup.stores.names :=
    World.canvass_stores action setup.stores.entries e.world
  have hasc : (ballots.map Ballot.store).Pairwise (· < ·) := by
    rw [hstores]
    exact setup.stores.ascending
  have hregistered := registered_of_names hstores
  refine ⟨ballots,
    { canvassed := World.canvass_answers action setup.stores.entries e.world
      result := rfl
      steps := ?_
      lacking := Plan.exists_unregistered_iff hasc
      unregistered := fun _ _ => Plan.verdict_eq_unregistered_iff hasc
      circular := Plan.exists_circular_iff hasc
      scheduled := Plan.exists_order_iff hasc
      order := fun order hv => ⟨(Plan.verdict_ok hv hregistered).2,
        Plan.order_eq_nil_iff hv hregistered⟩
      deserted := ?_ }⟩
  · refine ⟨(Plan.ofBallots setup.stores.contains ballots).drafted,
      (World.canvass_grows action setup.stores.entries e.world).trans (drafted_grows action _ _),
      fun s d hlack => ?_⟩
    have hsome : Plan.unregistered? setup.stores.contains ballots ≠ none :=
      fun hnone => Plan.unregistered?_eq_none_iff_lacking.mp hnone s d hlack
    obtain ⟨found, hfound⟩ := Option.ne_none_iff_exists'.mp hsome
    rw [Plan.ofBallots, hfound]
  · intro hnobody
    have hnil : ballots = [] := by
      change (World.canvass action setup.stores.entries e.world).1 = []
      rw [hnobody]
      rfl
    change (Plan.ofBallots setup.stores.contains ballots).verdict = .ok []
    rw [hnil, Plan.verdict_nil]

end Engine

end Concord
