import Concord.Proofs.Precedence.Schedules

/-!
# Drafted stores

A store is drafted when an approving ballot waits for it and no ballot approves for it. The stores
of a precedence are listed by first mention, and the drafted ones among them keep that order.
`Drafts` says which list that is, from the ballots alone.
-/
namespace Concord

/-- The stores as the approving ballots mention them: each voter, and then in ascending order those
it waits for. -/
def mentions (ballots : List Ballot) : List StoreName :=
  (ballots.filter (·.vote.isApproval)).flatMap fun ballot =>
    ballot.store :: ballot.vote.prerequisites.toList

/-- The names are those that some approving ballot waits for and no ballot approves for, once each,
in the order of their first mention. -/
structure Drafts (ballots : List Ballot) (names : List StoreName) : Prop where
  mem_iff : ∀ s, s ∈ names ↔ (∃ t, Precedes ballots s t) ∧
    ∀ ballot ∈ ballots, ballot.store = s → ballot.vote.isApproval = false
  once : names.Nodup
  ordered : names.Pairwise fun s t => (mentions ballots).idxOf s < (mentions ballots).idxOf t

namespace Precedence

/-- To leave other elements out changes no order. -/
theorem idxOf_lt_of_filter {β : Type} [DecidableEq β] {p : β → Bool} {l : List β} {a b : β}
    (ha : p a = true) (hb : p b = true) (h : (l.filter p).idxOf a < (l.filter p).idxOf b) :
    l.idxOf a < l.idxOf b := by
  induction l with
  | nil => exact h
  | cons c l ih =>
    by_cases hca : c = a
    · subst hca
      have hne : c ≠ b := by
        rintro rfl
        exact Nat.lt_irrefl _ h
      rw [List.idxOf_cons_self, List.idxOf_cons_ne l hne]
      exact Nat.succ_pos _
    by_cases hcb : c = b
    · subst hcb
      rw [List.filter_cons_of_pos hb, List.idxOf_cons_self] at h
      exact absurd h (Nat.not_lt_zero _)
    rw [List.idxOf_cons_ne l hca, List.idxOf_cons_ne l hcb]
    refine Nat.succ_lt_succ (ih ?_)
    by_cases hc : p c = true
    · rw [List.filter_cons_of_pos hc, List.idxOf_cons_ne _ hca, List.idxOf_cons_ne _ hcb] at h
      exact Nat.lt_of_succ_lt_succ h
    · rwa [List.filter_cons_of_neg hc] at h

/-- Without its repetitions a list is in the order of first occurrence. -/
theorem eraseDups_ordered {β : Type} [DecidableEq β] (l : List β) :
    l.eraseDups.Pairwise fun a b => l.idxOf a < l.idxOf b := by
  induction hn : l.length using Nat.strongRecOn generalizing l with
  | ind n ih =>
    cases l with
    | nil => simp
    | cons a l =>
      have hlt : (l.filter fun b => !b == a).length < n := by
        have := List.length_filter_le (fun b => !b == a) l
        rw [← hn, List.length_cons]
        omega
      have hother : ∀ b ∈ (l.filter fun b => !b == a).eraseDups, (!b == a) = true :=
        fun b hb => (List.mem_filter.mp (List.mem_eraseDups.mp hb)).2
      have hne : ∀ b ∈ (l.filter fun b => !b == a).eraseDups, a ≠ b := by
        intro b hb heq
        have := hother b hb
        simp [heq] at this
      rw [List.eraseDups_cons, List.pairwise_cons]
      refine ⟨fun b hb => ?_, (ih _ hlt _ rfl).imp_of_mem fun {b c} hb hc hbc => ?_⟩
      · rw [List.idxOf_cons_self, List.idxOf_cons_ne l (hne b hb)]
        exact Nat.succ_pos _
      · rw [List.idxOf_cons_ne l (hne b hb), List.idxOf_cons_ne l (hne c hc)]
        exact Nat.succ_lt_succ (idxOf_lt_of_filter (hother b hb) (hother c hc) hbc)

theorem approvals_filter (ballots : List Ballot) :
    approvals (ballots.filter (·.vote.isApproval)) = approvals ballots := by
  unfold approvals
  rw [List.filterMap_filter]
  refine List.filterMap_congr fun ballot _ => ?_
  cases ballot.vote <;> rfl

/-- Ballots that decline contribute nothing. -/
theorem ofBallots_filter (ballots : List Ballot) :
    ofBallots (ballots.filter (·.vote.isApproval)) = ofBallots ballots := by
  unfold ofBallots
  rw [approvals_filter]

theorem flatMap_approvals (ballots : List Ballot) :
    ((approvals ballots).flatMap fun (store, before) => store :: before.toList) =
      mentions ballots := by
  induction ballots with
  | nil => rfl
  | cons ballot rest ih =>
    obtain ⟨store, vote⟩ := ballot
    cases vote with
    | declines => exact ih
    | approves names => exact congrArg (store :: names.toList ++ ·) ih

theorem stores_ofBallots (ballots : List Ballot) :
    (ofBallots ballots).stores = (mentions ballots).eraseDups :=
  congrArg List.eraseDups (flatMap_approvals ballots)

theorem mem_approving {ballots : List Ballot} {s : StoreName} :
    s ∈ (ofBallots ballots).approving ↔
      ∃ ballot ∈ ballots, ballot.store = s ∧ ballot.vote.isApproval = true := by
  unfold ofBallots
  rw [List.mem_map]
  constructor
  · rintro ⟨⟨store, names⟩, hmem, rfl⟩
    exact ⟨_, mem_approvals.mp hmem, rfl, rfl⟩
  · rintro ⟨⟨store, vote⟩, hmem, rfl, hv⟩
    cases vote with
    | declines => cases hv
    | approves names => exact ⟨(store, names), mem_approvals.mpr hmem, rfl⟩

theorem mem_drafted {ballots : List Ballot} {s : StoreName} :
    s ∈ (ofBallots ballots).drafted ↔ (∃ t, Precedes ballots s t) ∧
      ∀ ballot ∈ ballots, ballot.store = s → ballot.vote.isApproval = false := by
  unfold drafted
  rw [List.mem_filter, decide_eq_true_eq, mem_approving, mem_stores_ofBallots]
  constructor
  · rintro ⟨⟨ballot, hmem, hv, hs⟩, hnone⟩
    rcases hs with rfl | hs
    · exact absurd ⟨ballot, hmem, rfl, hv⟩ hnone
    · exact ⟨⟨ballot.store, ballot, hmem, rfl, hv, hs⟩, fun b hb hbs =>
        Bool.eq_false_iff.mpr fun hbv => hnone ⟨b, hb, hbs, hbv⟩⟩
  · rintro ⟨⟨t, ballot, hmem, -, hv, hs⟩, hnone⟩
    refine ⟨⟨ballot, hmem, hv, .inr hs⟩, ?_⟩
    rintro ⟨b, hb, hbs, hbv⟩
    rw [hnone b hb hbs] at hbv
    cases hbv

theorem drafts_drafted (ballots : List Ballot) : Drafts ballots (ofBallots ballots).drafted where
  mem_iff _ := mem_drafted
  once := (nodup_eraseDups _).filter _
  ordered := by
    unfold drafted
    rw [stores_ofBallots]
    exact (eraseDups_ordered _).filter _

end Precedence

end Concord
