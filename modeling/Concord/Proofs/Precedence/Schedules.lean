import Concord.Proofs.Precedence.DepthFirst
import Mathlib.Data.List.Permutation

/-!
# Schedules of ballots

The ballots fix two things without any search: which stores are involved and which of two stores
has to come first. A schedule exists exactly when the second relation has no cycle; it then lists
the involved stores once each, every store behind those it waits for. The check of the line-up that
`arrangement` makes cannot fail once `circular?` has found nothing.
-/
namespace Concord

open Relation

/-- An approving ballot of the second store names the first. -/
def Precedes (ballots : List Ballot) (s t : StoreName) : Prop :=
  ∃ ballot ∈ ballots, ballot.store = t ∧ ballot.vote.isApproval ∧ s ∈ ballot.vote.prerequisites

/-- The store approves in some ballot or is named by an approving one. -/
def Involved (ballots : List Ballot) (s : StoreName) : Prop :=
  ∃ ballot ∈ ballots, ballot.vote.isApproval ∧
    (s = ballot.store ∨ s ∈ ballot.vote.prerequisites)

namespace Precedence

theorem nodup_eraseDups {β : Type} [BEq β] [LawfulBEq β] (l : List β) : l.eraseDups.Nodup := by
  induction hn : l.length using Nat.strongRecOn generalizing l with
  | ind n ih =>
    cases l with
    | nil => simp
    | cons a l =>
      have hlt : (l.filter fun b => !b == a).length < n := by
        have := List.length_filter_le (fun b => !b == a) l
        rw [← hn, List.length_cons]
        omega
      rw [List.eraseDups_cons, List.nodup_cons]
      refine ⟨?_, ih _ hlt _ rfl⟩
      rw [List.mem_eraseDups, List.mem_filter]
      simp

theorem mem_approvals {ballots : List Ballot} {s : StoreName} {names : NameSet} :
    (s, names) ∈ approvals ballots ↔ ⟨s, .approves names⟩ ∈ ballots := by
  unfold approvals
  rw [List.mem_filterMap]
  constructor
  · rintro ⟨⟨store, vote⟩, hmem, hb⟩
    cases vote with
    | declines => simp at hb
    | approves names' =>
      obtain ⟨rfl, rfl⟩ := Prod.mk.inj (Option.some.inj hb)
      exact hmem
  · intro hmem
    exact ⟨_, hmem, rfl⟩

theorem link_ofBallots {ballots : List Ballot} {s t : StoreName} :
    (ofBallots ballots).Link s t ↔ Precedes ballots s t := by
  unfold Link ofBallots Precedes
  rw [List.mem_eraseDups, List.mem_flatMap]
  constructor
  · rintro ⟨⟨store, names⟩, hmem, hlink⟩
    obtain ⟨d, hd, he⟩ := List.mem_map.mp hlink
    obtain ⟨rfl, rfl⟩ := Prod.mk.inj he
    exact ⟨_, mem_approvals.mp hmem, rfl, rfl, hd⟩
  · rintro ⟨⟨store, vote⟩, hmem, rfl, hv, hs⟩
    cases vote with
    | declines => cases hv
    | approves names =>
      exact ⟨(store, names), mem_approvals.mpr hmem, List.mem_map.mpr ⟨s, hs, rfl⟩⟩

theorem mem_stores_ofBallots {ballots : List Ballot} {s : StoreName} :
    s ∈ (ofBallots ballots).stores ↔ Involved ballots s := by
  unfold ofBallots Involved
  rw [List.mem_eraseDups, List.mem_flatMap]
  constructor
  · rintro ⟨⟨store, names⟩, hmem, hs⟩
    exact ⟨_, mem_approvals.mp hmem, rfl, List.mem_cons.mp hs⟩
  · rintro ⟨⟨store, vote⟩, hmem, hv, hs⟩
    cases vote with
    | declines => cases hv
    | approves names => exact ⟨(store, names), mem_approvals.mpr hmem, List.mem_cons.mpr hs⟩

theorem wellFormed_ofBallots (ballots : List Ballot) : (ofBallots ballots).WellFormed := by
  refine ⟨nodup_eraseDups _, fun {s t} h => ?_⟩
  obtain ⟨ballot, hmem, ht, hv, hs⟩ := link_ofBallots.mp h
  exact ⟨mem_stores_ofBallots.mpr ⟨ballot, hmem, hv, .inr hs⟩,
    mem_stores_ofBallots.mpr ⟨ballot, hmem, hv, .inl ht.symm⟩⟩

variable {p : Precedence}

/-- No store is reported exactly when none waits for itself. -/
theorem circular?_eq_none_iff (hp : p.WellFormed) :
    p.circular? = none ↔ ∀ s, ¬ TransGen p.Link s s := by
  have hfilter : (p.stores.filter fun s => s ∈ p.downstream s) = [] ↔
      ∀ s, ¬ TransGen p.Link s s := by
    rw [List.filter_eq_nil_iff]
    constructor
    · intro h s hs
      obtain ⟨t, hst, -⟩ := TransGen.head'_iff.mp hs
      exact h s (hp.ends hst).1 (decide_eq_true ((mem_downstream hp).mpr hs))
    · intro h s _ hs
      exact h s ((mem_downstream hp).mp (of_decide_eq_true hs))
  rw [← hfilter]
  unfold circular?
  split
  · rename_i hnil
    exact ⟨fun _ => hnil, fun _ => rfl⟩
  · rename_i hne
    exact ⟨fun h => absurd h (Option.some_ne_none _), fun h => absurd h hne⟩

/-- Nothing is misplaced in a list that has every store behind those it waits for. -/
theorem misplaced?_eq_none (hself : ∀ s, ¬ p.Link s s) {l : List StoreName}
    (h : l.Pairwise fun s t => ¬ p.Link t s) : p.misplaced? l = none := by
  induction l with
  | nil => rfl
  | cons s rest ih =>
    obtain ⟨hhead, htail⟩ := List.pairwise_cons.mp h
    have hno : (p.prerequisites s).any (· ∈ s :: rest) = false := by
      rw [List.any_eq_false]
      intro t ht hmem
      have hts : p.Link t s := mem_prerequisites.mp ht
      rcases List.mem_cons.mp (of_decide_eq_true hmem) with rfl | hmem
      · exact hself _ hts
      · exact hhead t hmem hts
    rw [misplaced?, hno]
    exact ih htail

theorem arrangement_of_acyclic (hp : p.WellFormed) (hacyclic : ∀ s, ¬ TransGen p.Link s s) :
    p.arrangement = .ok p.lineUp := by
  have hself : ∀ s, ¬ p.Link s s := fun s hs => hacyclic s (.single hs)
  unfold arrangement
  rw [misplaced?_eq_none hself (lineUp_sorted hp hacyclic)]

/-- The two outcomes of scheduling: there is no cycle and the line-up is the schedule, or there is
one and the stores on cycles are reported. -/
theorem schedule_cases (hp : p.WellFormed) :
    ((∀ s, ¬ TransGen p.Link s s) ∧ p.circular? = none ∧ p.schedule = .ok p.lineUp) ∨
    (¬ (∀ s, ¬ TransGen p.Link s s) ∧
      ∃ stores, p.circular? = some stores ∧ p.schedule = .error (.circular stores)) := by
  cases hc : p.circular? with
  | none =>
    have hacyclic := (circular?_eq_none_iff hp).mp hc
    refine .inl ⟨hacyclic, rfl, ?_⟩
    rw [schedule, hc, arrangement_of_acyclic hp hacyclic]
    rfl
  | some stores =>
    refine .inr ⟨fun hacyclic => ?_, stores, rfl, by rw [schedule, hc]⟩
    rw [(circular?_eq_none_iff hp).mpr hacyclic] at hc
    cases hc

/-- In a list without repetitions that holds both ends of every link, the order of places is the
order of links. -/
theorem idxOf_lt_idxOf (hself : ∀ s, ¬ p.Link s s) {l : List StoreName}
    (h : l.Pairwise fun s t => ¬ p.Link t s) {s t : StoreName} (hs : s ∈ l) (ht : t ∈ l)
    (hst : p.Link s t) : l.idxOf s < l.idxOf t := by
  have hs' := List.idxOf_lt_length_of_mem hs
  have ht' := List.idxOf_lt_length_of_mem ht
  refine Nat.lt_of_not_le fun hle => ?_
  rcases Nat.lt_or_eq_of_le hle with hlt | heq
  · have hno := List.pairwise_iff_getElem.mp h _ _ ht' hs' hlt
    rw [List.getElem_idxOf, List.getElem_idxOf] at hno
    exact hno hst
  · have hsame : t = s := (List.idxOf_inj ht).mp heq
    exact hself s (hsame ▸ hst)

/-- What a schedule of ballots is worth: it lists the involved stores, none of them twice, and
every store behind those it waits for. -/
theorem schedule_ok {ballots : List Ballot} {order : List StoreName}
    (h : (ofBallots ballots).schedule = .ok order) :
    order.Nodup ∧ (∀ s, s ∈ order ↔ Involved ballots s) ∧
      ∀ s t, Precedes ballots s t → order.idxOf s < order.idxOf t := by
  have hp := wellFormed_ofBallots ballots
  rcases schedule_cases hp with ⟨hacyclic, -, hs⟩ | ⟨-, stores, -, hs⟩
  · obtain rfl : (ofBallots ballots).lineUp = order := Except.ok.inj (hs.symm.trans h)
    have hperm := perm_lineUp hp
    refine ⟨hperm.nodup_iff.mpr hp.nodup, fun s => hperm.mem_iff.trans mem_stores_ofBallots, ?_⟩
    intro s t hst
    have hlink := link_ofBallots.mpr hst
    obtain ⟨hs, ht⟩ := hp.ends hlink
    exact idxOf_lt_idxOf (fun s hs => hacyclic s (.single hs)) (lineUp_sorted hp hacyclic)
      (hperm.mem_iff.mpr hs) (hperm.mem_iff.mpr ht) hlink
  · rw [hs] at h
    cases h

/-- For every list of ballots, a store voting any number of times: there is a schedule exactly when
no store has to come before itself; a schedule is a topological order of the involved stores; and
otherwise the refusal names the stores that `circular?` reports. If `circular?` reports none, the
line-up of the search passes its check, so the refusal that names a single misplaced store is never
given. -/
theorem schedule_topological (ballots : List Ballot) :
    ((∃ order, (ofBallots ballots).schedule = .ok order) ↔
      ∀ s, ¬ TransGen (Precedes ballots) s s) ∧
    (∀ order, (ofBallots ballots).schedule = .ok order →
      order.Nodup ∧ (∀ s, s ∈ order ↔ Involved ballots s) ∧
        ∀ s t, Precedes ballots s t → order.idxOf s < order.idxOf t) ∧
    (∀ refusal, (ofBallots ballots).schedule = .error refusal ↔
      ∃ stores, (ofBallots ballots).circular? = some stores ∧ refusal = .circular stores) ∧
    ((ofBallots ballots).circular? = none →
      (ofBallots ballots).arrangement = .ok (ofBallots ballots).lineUp) := by
  have hp := wellFormed_ofBallots ballots
  have hrel : (ofBallots ballots).Link = Precedes ballots := by
    funext s t
    exact propext link_ofBallots
  have hcases := schedule_cases hp
  rw [hrel] at hcases
  refine ⟨?_, fun order h => schedule_ok h, ?_, ?_⟩
  · rcases hcases with ⟨hacyclic, -, hs⟩ | ⟨hcyclic, stores, -, hs⟩
    · exact ⟨fun _ => hacyclic, fun _ => ⟨_, hs⟩⟩
    · refine ⟨fun ⟨order, ho⟩ => ?_, fun h => absurd h hcyclic⟩
      rw [hs] at ho
      cases ho
  · intro refusal
    rcases hcases with ⟨-, hnone, hs⟩ | ⟨-, stores, hsome, hs⟩
    · rw [hs, hnone]
      simp
    · rw [hs, hsome]
      simp [eq_comm]
  · intro hnone
    exact arrangement_of_acyclic hp ((circular?_eq_none_iff hp).mp hnone)

end Precedence

end Concord
