import Concord.World
import Mathlib.Data.List.Nodup
import Mathlib.Data.List.Induction

/-!
# Who is on the list of observers

Whoever asks, an observer that is added joins the list behind the others unless it is there already,
and one that is removed leaves it. `Ranked` says what the list comes to after any requests in terms
of the requests alone: who is on it, and in which order.
-/
namespace Concord

variable {α : Type}

namespace Request

/-- Whether the request adds or removes the observer. -/
def concerns (observer : ObserverName) : Request α → Bool
  | watch other | unwatch other => other = observer
  | _ => false

/-- What a request does to the list of observers. -/
def enlist (observers : List ObserverName) : Request α → List ObserverName
  | watch observer => if observer ∈ observers then observers else observers ++ [observer]
  | unwatch observer => observers.filter (· ≠ observer)
  | _ => observers

theorem eq_of_concerns {observer : ObserverName} {request : Request α}
    (h : request.concerns observer = true) :
    request = .watch observer ∨ request = .unwatch observer := by
  cases request with
  | watch other =>
    left
    rw [of_decide_eq_true h]
  | unwatch other =>
    right
    rw [of_decide_eq_true h]
  | _ => cases h

end Request

/-- The list of observers that the requests leave, nobody being on it before them. -/
def roll (requests : List (Request α)) : List ObserverName := requests.foldl Request.enlist []

/-- The latest request that adds or removes the observer. -/
def latest? (observer : ObserverName) (requests : List (Request α)) : Option (Request α) :=
  requests.reverse.find? (Request.concerns observer)

/-- The observer is there since it was added behind the given requests: it was not there before, and
nobody has removed it since. -/
structure JoinedAfter (requests before : List (Request α)) (observer : ObserverName) : Prop where
  adds : ∃ after, requests = before ++ .watch observer :: after ∧ .unwatch observer ∉ after
  absent : latest? observer before ≠ some (.watch observer)

/-- What the requests say about the list of observers. -/
structure Ranked (requests : List (Request α)) (observers : List ObserverName) : Prop where
  nodup : observers.Nodup
  /-- An observer is on the list exactly if the latest request about it adds it. -/
  mem : ∀ observer, observer ∈ observers ↔ latest? observer requests = some (.watch observer)
  joined : ∀ observer ∈ observers, ∃! before, JoinedAfter requests before observer
  /-- The observers stand in the order in which they joined. -/
  order : observers.Pairwise fun observer next => ∃ before later,
    JoinedAfter requests before observer ∧ JoinedAfter requests later next ∧
      before.length < later.length

theorem roll_concat (requests : List (Request α)) (request : Request α) :
    roll (requests ++ [request]) = request.enlist (roll requests) := List.foldl_concat ..

theorem latest?_concat (observer : ObserverName) (requests : List (Request α))
    (request : Request α) : latest? observer (requests ++ [request]) =
      if request.concerns observer then some request else latest? observer requests := by
  rw [latest?, List.reverse_append, List.reverse_singleton, List.singleton_append, List.find?_cons]
  cases request.concerns observer <;> rfl

/-- An observer that was added and has not been removed since was added at last. -/
theorem latest?_of_notMem {observer : ObserverName} {after : List (Request α)}
    (h : .unwatch observer ∉ after) (before : List (Request α)) :
    latest? observer (before ++ .watch observer :: after) = some (.watch observer) := by
  induction after using List.reverseRecOn with
  | nil =>
    rw [latest?_concat]
    exact if_pos (decide_eq_true rfl)
  | append_singleton after request ih =>
    rw [List.mem_append, List.mem_singleton, not_or] at h
    rw [← List.cons_append, ← List.append_assoc, latest?_concat]
    split
    · rename_i hconcerns
      rcases Request.eq_of_concerns hconcerns with rfl | rfl
      · rfl
      · exact absurd rfl h.2
    · exact ih h.1

namespace JoinedAfter

variable {requests before later : List (Request α)} {observer : ObserverName}

theorem le (h : JoinedAfter requests before observer) (h' : JoinedAfter requests later observer) :
    later.length ≤ before.length := by
  obtain ⟨after, hsplit, hafter⟩ := h.adds
  obtain ⟨after', hsplit', -⟩ := h'.adds
  rw [hsplit, List.append_eq_append_iff] at hsplit'
  rcases hsplit' with ⟨between, hlater, hrest⟩ | ⟨between, hbefore, -⟩
  · rcases List.cons_eq_append_iff.mp hrest with ⟨rfl, -⟩ | ⟨between, rfl, rfl⟩
    · exact Nat.le_of_eq (by rw [hlater, List.append_nil])
    -- Otherwise the observer was there when it was added for the second time.
    · rw [List.mem_append, not_or] at hafter
      exact absurd (hlater ▸ latest?_of_notMem hafter.1 before) h'.absent
  · rw [hbefore, List.length_append]
    exact Nat.le_add_right _ _

theorem unique (h : JoinedAfter requests before observer)
    (h' : JoinedAfter requests later observer) : before = later := by
  have hlength := Nat.le_antisymm (h'.le h) (h.le h')
  obtain ⟨after, hsplit, -⟩ := h.adds
  obtain ⟨after', hsplit', -⟩ := h'.adds
  exact (List.append_inj (hsplit.symm.trans hsplit') hlength).1

theorem concat (h : JoinedAfter requests before observer) {request : Request α}
    (hr : request ≠ .unwatch observer) : JoinedAfter (requests ++ [request]) before observer := by
  obtain ⟨after, rfl, hafter⟩ := h.adds
  refine ⟨⟨after ++ [request], by simp, ?_⟩, h.absent⟩
  rw [List.mem_append, List.mem_singleton, not_or]
  exact ⟨hafter, hr.symm⟩

end JoinedAfter

namespace Ranked

variable {requests : List (Request α)} {observers staying : List ObserverName}
  {request : Request α}

theorem joinedBefore (h : Ranked requests observers) {observer : ObserverName}
    (hmem : observer ∈ observers) (hr : request ≠ .unwatch observer) :
    ∃ before, JoinedAfter (requests ++ [request]) before observer ∧
      before.length < requests.length := by
  obtain ⟨before, hjoined, -⟩ := h.joined observer hmem
  obtain ⟨after, hsplit, -⟩ := hjoined.adds
  refine ⟨before, hjoined.concat hr, ?_⟩
  rw [hsplit, List.length_append, List.length_cons]
  omega

/-- Nobody joins with the request. Those who stay on the list keep their order. -/
theorem stay (h : Ranked requests observers) (hsub : staying.Sublist observers)
    (hr : ∀ observer ∈ staying, request ≠ .unwatch observer)
    (hmem : ∀ observer, observer ∈ staying ↔
      latest? observer (requests ++ [request]) = some (.watch observer)) :
    Ranked (requests ++ [request]) staying := by
  refine ⟨h.nodup.sublist hsub, hmem, ?_, ?_⟩
  · intro observer hstays
    obtain ⟨before, hjoined, -⟩ := h.joinedBefore (hsub.subset hstays) (hr observer hstays)
    exact ⟨before, hjoined, fun _ hother => hother.unique hjoined⟩
  · refine (h.order.sublist hsub).imp_of_mem fun hstays hstays' => ?_
    rintro ⟨before, later, hbefore, hlater, hlt⟩
    exact ⟨before, later, hbefore.concat (hr _ hstays), hlater.concat (hr _ hstays'), hlt⟩

/-- An observer that was not on the list joins behind the others. -/
theorem join (h : Ranked requests observers) {observer : ObserverName}
    (habsent : observer ∉ observers) :
    Ranked (requests ++ [.watch observer]) (observers ++ [observer]) := by
  have hkeep : ∀ o ∈ observers, Request.watch observer ≠ (.unwatch o : Request α) := by simp
  have hlast : JoinedAfter (requests ++ [.watch observer]) requests observer :=
    ⟨⟨[], rfl, List.not_mem_nil⟩, mt (h.mem observer).mpr habsent⟩
  refine ⟨?_, ?_, ?_, ?_⟩
  · rw [← List.concat_eq_append]
    exact h.nodup.concat habsent
  · intro o
    rw [latest?_concat, List.mem_append, List.mem_singleton]
    by_cases ho : observer = o
    · subst ho
      simp [Request.concerns]
    · simp [Request.concerns, ho, Ne.symm ho, h.mem o]
  · intro o hmem
    rcases List.mem_append.mp hmem with hmem | hmem
    · obtain ⟨before, hjoined, -⟩ := h.joinedBefore hmem (hkeep o hmem)
      exact ⟨before, hjoined, fun _ hother => hother.unique hjoined⟩
    · obtain rfl := List.mem_singleton.mp hmem
      exact ⟨requests, hlast, fun _ hother => hother.unique hlast⟩
  · refine List.pairwise_append.mpr ⟨?_, List.pairwise_singleton _ _, ?_⟩
    · refine h.order.imp_of_mem fun hmem hmem' => ?_
      rintro ⟨before, later, hbefore, hlater, hlt⟩
      exact ⟨before, later, hbefore.concat (hkeep _ hmem), hlater.concat (hkeep _ hmem'), hlt⟩
    · intro o hmem next hnext
      obtain rfl := List.mem_singleton.mp hnext
      obtain ⟨before, hjoined, hlt⟩ := h.joinedBefore hmem (hkeep o hmem)
      exact ⟨before, requests, hjoined, hlast, hlt⟩

/-- A request that neither adds nor removes an observer changes nothing. -/
theorem indifferent (h : Ranked requests observers)
    (hr : ∀ observer, request.concerns observer = false) :
    Ranked (requests ++ [request]) observers := by
  refine h.stay (List.Sublist.refl _) ?_ fun o => ?_
  · rintro o - rfl
    have hconcerns := hr o
    rw [Request.concerns, decide_eq_false_iff_not] at hconcerns
    exact hconcerns rfl
  · rw [latest?_concat, hr o]
    exact h.mem o

end Ranked

/-- After any requests, whoever has made them, the list is what they say. -/
theorem ranked_roll (requests : List (Request α)) : Ranked requests (roll requests) := by
  induction requests using List.reverseRecOn with
  | nil => exact ⟨.nil, by simp [roll, latest?], by simp [roll], .nil⟩
  | append_singleton requests request ih =>
    rw [roll_concat]
    cases request with
    | watch observer =>
      unfold Request.enlist
      dsimp only
      split
      · rename_i hmem
        refine ih.stay (List.Sublist.refl _) (by simp) fun o => ?_
        rw [latest?_concat]
        by_cases ho : observer = o
        · subst ho
          simp [Request.concerns, hmem]
        · simp [Request.concerns, ho, ih.mem o]
      · exact ih.join ‹_›
    | unwatch observer =>
      unfold Request.enlist
      refine ih.stay List.filter_sublist ?_ fun o => ?_
      · intro o hstays heq
        cases heq
        simpa using (List.mem_filter.mp hstays).2
      · rw [latest?_concat, List.mem_filter]
        by_cases ho : observer = o
        · subst ho
          simp [Request.concerns]
        · simp [Request.concerns, ho, Ne.symm ho, ih.mem o]
    | send message => exact ih.indifferent fun _ => rfl
    | clone => exact ih.indifferent fun _ => rfl
    | release => exact ih.indifferent fun _ => rfl
    | resolve ticket outcome => exact ih.indifferent fun _ => rfl
    | write line => exact ih.indifferent fun _ => rfl

end Concord
