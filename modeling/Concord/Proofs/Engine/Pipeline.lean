import Concord.Proofs.Engine.Soundness

/-!
# The calls for one action

All stores vote, those on the schedule carry the action out one after the other, and those that
acknowledged are told of its end. A store is not called before it has been announced what became
of the stores ahead of it, so its prerequisites are behind it whatever their outcomes.
-/
namespace Concord

variable {σ α : Type}

/-- Whether it is announced in this step what became of the store's channel. -/
def Milestone.settles (action : α) (store : StoreName) : Milestone α → Prop
  | announced (.ack s a) | announced (.nack s a _) => s = store ∧ a = action
  | _ => False

/-- The calls of a course: of the end only those that acknowledged hear, and only when there is
one. -/
def Course.calls (setup : Setup σ α) (c : Course α) : List (Callback α) :=
  setup.stores.names.map (.vote · c.action) ++
    (c.turns.map (fun turn => .complete turn.store c.action turn.ticket) ++
      match c.atWork with
      | some (store, ticket) => [.complete store c.action ticket]
      | none => (ackedBy c.turns).map (.signal · c.action))

theorem append_split {β : Type} {l l' before after : List β} {x : β}
    (h : l ++ l' = before ++ x :: after) :
    x ∈ l ∨ ∃ rest, before = l ++ rest ∧ l' = rest ++ x :: after := by
  rcases List.append_eq_append_iff.mp h with ⟨rest, hb, hl⟩ | ⟨rest, hl, hx⟩
  · exact .inr ⟨rest, hb, hl⟩
  · cases rest with
    | nil => exact .inr ⟨[], by rw [List.append_nil] at hl ⊢; exact hl.symm, hx.symm⟩
    | cons y rest =>
      rw [List.cons_append] at hx
      obtain ⟨rfl, -⟩ := List.cons.inj hx
      exact .inl (by rw [hl]; simp)

namespace Turn

theorem settled (action : α) (turn : Turn) :
    ∃ m ∈ turn.milestones action, m.settles action turn.store := by
  unfold milestones Milestone.settlement
  cases turn.outcome.failure? with
  | none =>
    refine ⟨.announced (.ack turn.store action), ?_, rfl, rfl⟩
    exact List.mem_append_right _ (List.mem_singleton.mpr rfl)
  | some why =>
    refine ⟨.announced (.nack turn.store action why), ?_, rfl, rfl⟩
    exact List.mem_append_right _ (List.mem_cons_of_mem _ (List.mem_singleton.mpr rfl))

theorem called {action : α} {turn : Turn} {callback : Callback α}
    (h : .called callback ∈ turn.milestones action) :
    callback = .complete turn.store action turn.ticket := by
  rcases List.mem_append.mp h with h | h
  · simpa [Milestone.invocation] using h
  · unfold Milestone.settlement at h
    cases hf : turn.outcome.failure? <;> simp [hf] at h

theorem callbacks (action : α) (turns : List Turn) :
    (turns.flatMap (Turn.milestones action)).filterMap Milestone.callback? =
      turns.map fun turn => .complete turn.store action turn.ticket := by
  have hturn : ∀ turn : Turn, (turn.milestones action).filterMap Milestone.callback? =
      [.complete turn.store action turn.ticket] := by
    intro turn
    unfold milestones Milestone.settlement
    cases turn.outcome.failure? <;> rfl
  rw [List.filterMap_flatMap]
  simp only [hturn]
  exact List.flatMap_pure_eq_map _ turns

end Turn

/-- When a store of a visit is called, those ahead of it are settled. -/
theorem visits_split {action : α} {turns : List Turn} {atWork : Option (StoreName × Ticket)}
    {acked : List StoreName} {stores : Nat} {store : StoreName} {ticket : Ticket}
    {before after : List (Milestone α)}
    (h : visits action turns atWork acked stores =
      before ++ .called (.complete store action ticket) :: after) :
    ∃ done ahead, turns.map Turn.store ++ (atWork.map Prod.fst).toList = done ++ store :: ahead ∧
      ∀ s ∈ done, ∃ m ∈ before, m.settles action s := by
  induction turns generalizing before with
  | nil =>
    have hmem : .called (.complete store action ticket) ∈ visits action [] atWork acked stores := by
      rw [h]
      exact List.mem_append_right _ List.mem_cons_self
    cases atWork with
    | none => simp [visits, closing] at hmem
    | some work =>
      obtain ⟨rfl, -⟩ : store = work.1 ∧ ticket = work.2 := by
        simpa [visits, Milestone.invocation] using hmem
      exact ⟨[], [], rfl, by simp⟩
  | cons turn turns ih =>
    rw [visits_cons] at h
    rcases append_split h with hmem | ⟨rest, rfl, hrest⟩
    · obtain ⟨rfl, -⟩ : store = turn.store ∧ ticket = turn.ticket := by
        simpa using Turn.called hmem
      exact ⟨[], _, rfl, by simp⟩
    · obtain ⟨done, ahead, hd, hsettled⟩ := ih hrest
      refine ⟨turn.store :: done, ahead, ?_, ?_⟩
      · rw [List.map_cons, List.cons_append, hd]
        rfl
      · intro s hs
        rcases List.mem_cons.mp hs with rfl | hs
        · obtain ⟨m, hm, hset⟩ := turn.settled action
          exact ⟨m, List.mem_append_left _ hm, hset⟩
        · obtain ⟨m, hm, hset⟩ := hsettled s hs
          exact ⟨m, List.mem_append_right _ hm, hset⟩

theorem visits_callbacks (action : α) (turns : List Turn) (atWork : Option (StoreName × Ticket))
    (acked : List StoreName) (stores : Nat) :
    (visits action turns atWork acked stores).filterMap Milestone.callback? =
      turns.map (fun turn => .complete turn.store action turn.ticket) ++
        match atWork with
        | some (store, ticket) => [.complete store action ticket]
        | none => acked.map (.signal · action) := by
  unfold visits
  rw [List.filterMap_append, Turn.callbacks]
  cases atWork with
  | some work => rfl
  | none =>
    have hsignals : (acked.map fun store => Milestone.called (.signal store action)).filterMap
        Milestone.callback? = acked.map (.signal · action) := by
      rw [List.filterMap_map]
      exact congrFun List.filterMap_eq_map acked
    dsimp only
    rw [closing, List.filterMap_append, hsignals]
    exact congrArg _ (List.append_nil _)

namespace Course

variable {setup : Setup σ α} {c : Course α}

theorem opening_callbacks (hb : c.ballots.map Ballot.store = setup.stores.names) :
    (c.opening setup).filterMap Milestone.callback? =
      setup.stores.names.map (.vote · c.action) := by
  have hvotes : (c.ballots.flatMap (Milestone.voting c.action)).filterMap Milestone.callback? =
      setup.stores.names.map (.vote · c.action) := by
    rw [← hb, List.filterMap_flatMap, List.map_map]
    exact List.flatMap_pure_eq_map _ c.ballots
  have hdrafted : ((c.plan setup).drafted.map fun store =>
      Milestone.noted (.drafted store c.action)).filterMap Milestone.callback? = [] := by
    rw [List.filterMap_map]
    exact List.filterMap_eq_nil_iff.mpr fun _ _ => rfl
  rw [opening]
  change List.filterMap Milestone.callback? (_ ++ _) = _
  rw [List.filterMap_append, hvotes, hdrafted, List.append_nil]

namespace Follows

theorem turns_eq_nil (hc : c.Follows setup) (ho : c.order setup = []) : c.turns = [] := by
  have hturns := hc.ended (hc.atWork_eq_none ho)
  rw [ho] at hturns
  exact List.map_eq_nil_iff.mp hturns

theorem milestones_callbacks (hc : c.Follows setup) :
    (c.milestones setup).filterMap Milestone.callback? = c.calls setup := by
  rw [milestones, List.filterMap_append, opening_callbacks hc.ballots, calls]
  congr 1
  cases hv : (c.plan setup).verdict with
  | error error =>
    have ho := order_of_error hv
    rw [hc.turns_eq_nil ho, hc.atWork_eq_none ho]
    rfl
  | ok order =>
    cases order with
    | nil =>
      have ho := order_of_ok hv
      rw [hc.turns_eq_nil ho, hc.atWork_eq_none ho]
      rfl
    | cons first others => exact visits_callbacks _ _ _ _ _

variable {before after : List (Milestone α)}

/-- Calls other than for votes are made on a visit. -/
theorem split_visits (hc : c.Follows setup) {callback : Callback α}
    (hv : ∀ s, callback ≠ .vote s c.action)
    (h : c.milestones setup = before ++ .called callback :: after) :
    ∃ rest stores, (∀ m ∈ rest, m ∈ before) ∧
      visits c.action c.turns c.atWork (ackedBy c.turns) stores =
        rest ++ .called callback :: after ∧
      (c.plan setup).verdict = .ok (c.order setup) := by
  have hopening : .called callback ∉ c.opening setup := by
    intro hmem
    have hvote : callback ∈ (c.opening setup).filterMap Milestone.callback? :=
      List.mem_filterMap.mpr ⟨_, hmem, rfl⟩
    rw [opening_callbacks hc.ballots] at hvote
    obtain ⟨s, -, rfl⟩ := List.mem_map.mp hvote
    exact hv s rfl
  unfold milestones at h
  obtain ⟨rest, rfl, hrest⟩ := (append_split h).resolve_left hopening
  have hmem : ∀ l : List (Milestone α), l = rest ++ .called callback :: after →
      .called callback ∈ l := by
    rintro l rfl
    exact List.mem_append_right _ List.mem_cons_self
  cases hverdict : (c.plan setup).verdict with
  | error error =>
    rw [hverdict] at hrest
    simpa using hmem _ hrest
  | ok order =>
    rw [hverdict] at hrest
    rw [order_of_ok hverdict]
    cases order with
    | nil => simpa using hmem _ hrest
    | cons first others =>
      cases rest with
      | nil => cases hrest
      | cons m rest =>
        obtain ⟨-, hvisits⟩ := List.cons.inj hrest
        refine ⟨rest, _, ?_, hvisits, rfl⟩
        exact fun m hm => List.mem_append_right _ (List.mem_cons_of_mem _ hm)

/-- When a store is asked to carry the action out, all those ahead of it in the schedule are
settled. -/
theorem settled (hc : c.Follows setup) {store : StoreName} {ticket : Ticket}
    (h : c.milestones setup = before ++ .called (.complete store c.action ticket) :: after) :
    ∃ done ahead, c.order setup = done ++ store :: ahead ∧
      ∀ s ∈ done, ∃ m ∈ before, m.settles c.action s := by
  obtain ⟨rest, stores, hrest, hvisits, -⟩ := hc.split_visits (by simp) h
  obtain ⟨done, ahead, hd, hsettled⟩ := visits_split hvisits
  obtain ⟨others, ho⟩ := hc.turns
  refine ⟨done, ahead ++ others, ?_, ?_⟩
  · rw [← ho, hd, List.append_assoc]
    rfl
  · intro s hs
    obtain ⟨m, hm, hset⟩ := hsettled s hs
    exact ⟨m, hrest m hm, hset⟩

/-- When a store is told of the end, the whole schedule is settled. -/
theorem settled_of_signal (hc : c.Follows setup) {store : StoreName}
    (h : c.milestones setup = before ++ .called (.signal store c.action) :: after) :
    ∀ s ∈ c.order setup, ∃ m ∈ before, m.settles c.action s := by
  obtain ⟨rest, stores, hrest, hvisits, -⟩ := hc.split_visits (by simp) h
  unfold visits at hvisits
  have hturns : .called (.signal store c.action) ∉ c.turns.flatMap (Turn.milestones c.action) := by
    intro hmem
    obtain ⟨turn, -, hmem⟩ := List.mem_flatMap.mp hmem
    cases Turn.called hmem
  obtain ⟨last, rfl, hlast⟩ := (append_split hvisits).resolve_left hturns
  have hended : c.atWork = none := by
    cases hw : c.atWork with
    | none => rfl
    | some work =>
      rw [hw] at hlast
      have hmem : .called (.signal store c.action) ∈
          Milestone.invocation c.action work.1 work.2 := by
        rw [show Milestone.invocation c.action work.1 work.2 = _ from hlast]
        exact List.mem_append_right _ List.mem_cons_self
      simp [Milestone.invocation] at hmem
  intro s hs
  rw [← hc.ended hended] at hs
  obtain ⟨turn, hturn, rfl⟩ := List.mem_map.mp hs
  obtain ⟨m, hm, hset⟩ := turn.settled c.action
  exact ⟨m, hrest m (List.mem_append_left _ (List.mem_flatMap.mpr ⟨turn, hturn, hm⟩)), hset⟩

theorem schedule (hc : c.Follows setup)
    (hv : (c.plan setup).verdict = .ok (c.order setup)) :
    (Precedence.ofBallots c.ballots).schedule = .ok (c.order setup) :=
  (Plan.verdict_ok hv (registered_of_names hc.ballots)).1

theorem nodup (hc : c.Follows setup) : (c.order setup).Nodup := by
  cases hv : (c.plan setup).verdict with
  | error error =>
    rw [order_of_error hv]
    exact List.nodup_nil
  | ok order =>
    rw [← order_of_ok hv] at hv
    exact (Precedence.schedule_ok (hc.schedule hv)).1

theorem settled_of_idxOf (hc : c.Follows setup) {store : StoreName} {ticket : Ticket}
    (h : c.milestones setup = before ++ .called (.complete store c.action ticket) :: after)
    {s : StoreName} (hs : s ∈ c.order setup)
    (hlt : (c.order setup).idxOf s < (c.order setup).idxOf store) :
    ∃ m ∈ before, m.settles c.action s := by
  obtain ⟨done, ahead, ho, hsettled⟩ := hc.settled h
  have hnodup := hc.nodup
  rw [ho] at hnodup hs hlt
  have hstore : store ∉ done := fun hmem =>
    (List.nodup_append.mp hnodup).2.2 store hmem store List.mem_cons_self rfl
  rw [List.idxOf_append_of_notMem hstore, List.idxOf_cons_self, Nat.add_zero] at hlt
  apply hsettled
  have hmem := (List.mem_take_iff_idxOf_lt hs).mpr hlt
  rwa [List.take_left] at hmem

/-- The prerequisites of a store are settled when it is asked to carry the action out. -/
theorem prerequisites_settled (hc : c.Follows setup) {ballot : Ballot} (hb : ballot ∈ c.ballots)
    {ticket : Ticket}
    (h : c.milestones setup = before ++ .called (.complete ballot.store c.action ticket) :: after)
    {s : StoreName} (hs : s ∈ ballot.vote.prerequisites) : ∃ m ∈ before, m.settles c.action s := by
  obtain ⟨-, -, -, -, hv⟩ := hc.split_visits (by simp) h
  obtain ⟨-, hinvolved, hprecedes⟩ := Precedence.schedule_ok (hc.schedule hv)
  have happroves : ballot.vote.isApproval = true := by
    cases hvote : ballot.vote with
    | approves names => rfl
    | declines =>
      rw [hvote] at hs
      exact absurd hs (NameSet.not_mem_empty s)
  exact hc.settled_of_idxOf h ((hinvolved s).mpr ⟨ballot, hb, happroves, .inr hs⟩)
    (hprecedes s ballot.store ⟨ballot, hb, rfl, happroves, hs⟩)

end Follows

variable (setup c)

/-- How one action is carried out. -/
structure Orderly : Prop where
  calls : (c.milestones setup).filterMap Milestone.callback? = c.calls setup
  once : (c.order setup).Nodup
  unlocked : ∃ inner,
    c.milestones setup = .announced .lock :: (inner ++ unlocking c.atWork.isNone) ∧
    ∀ m ∈ inner, m.Serves c.action
  /-- A store is called after it has been announced what became of those ahead of it. -/
  settled : ∀ before after store ticket,
    c.milestones setup = before ++ .called (.complete store c.action ticket) :: after →
    ∀ s ∈ c.order setup, (c.order setup).idxOf s < (c.order setup).idxOf store →
      ∃ m ∈ before, m.settles c.action s
  /-- A store is told of the end after it has been announced what became of all. -/
  signalled : ∀ before after store,
    c.milestones setup = before ++ .called (.signal store c.action) :: after →
    ∀ s ∈ c.order setup, ∃ m ∈ before, m.settles c.action s
  prerequisites : ∀ before after ticket, ∀ ballot ∈ c.ballots,
    c.milestones setup = before ++ .called (.complete ballot.store c.action ticket) :: after →
    ∀ s ∈ ballot.vote.prerequisites, ∃ m ∈ before, m.settles c.action s

variable {setup c}

theorem Follows.orderly (hc : c.Follows setup) : c.Orderly setup where
  calls := hc.milestones_callbacks
  once := hc.nodup
  unlocked := hc.between
  settled _ _ _ _ h _ := hc.settled_of_idxOf h
  signalled _ _ _ h := hc.settled_of_signal h
  prerequisites _ _ _ _ hb h _ := hc.prerequisites_settled hb h

end Course

namespace Engine

variable {setup : Setup σ α} {capacity : Nat} {e : Engine σ α}

/-- Every action that was accepted has its course, unless it is still pending, and each course is
an orderly one, as far as it has come. -/
theorem courses_orderly (h : Reachable setup capacity e) :
    ∃ intakes ended underway, Chronicle setup e e.backlog.items intakes ended underway ∧
      ∀ c ∈ ended ++ underway.toList, c.Orderly setup := by
  obtain ⟨intakes, ended, underway, hc⟩ := h.sound.chronicled
  exact ⟨intakes, ended, underway, hc, fun c hmem => (hc.annals.follows c hmem).orderly⟩

theorem relayRun_orderly :
    Reachable relay 2 relayRun ∧
      relayRun.phase = .waiting ⟨8, [⟨"b"⟩, ⟨"a"⟩], 1, [⟨"b"⟩]⟩ ⟨"a"⟩ 4 ∧
      ∃ intakes ended underway,
        Chronicle relay relayRun relayRun.backlog.items intakes ended underway ∧
        ∀ c ∈ ended ++ underway.toList, c.Orderly relay :=
  ⟨relayRun_reachable, by cbv, courses_orderly relayRun_reachable⟩

end Engine

end Concord
