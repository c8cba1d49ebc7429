import Concord.Proofs.Engine.Soundness

/-!
# Conservation of actions

Messages are taken in the order in which they were put into the inbox. Every action among them is
counted in exactly one place of the status, at the head of the loop and in every reply.
-/
namespace Concord

variable {σ α : Type}

def Message.action? : Message α → Option α
  | dispatch action => some action
  | _ => none

def Receipt.taken? : Receipt α → Option α
  | taken action => some action
  | _ => none

namespace Milestone

def taken? : Milestone α → Option (Message α)
  | took message => some message
  | _ => none

/-- Whether no message is taken and no status given in this step. -/
def isQuiet : Milestone α → Bool
  | took _ | answered .. => false
  | _ => true

theorem isQuiet_of_inCourse {m : Milestone α} (h : m.inCourse = true) : m.isQuiet = true := by
  cases m <;> first | rfl | cases h

theorem taken_eq_nil {ms : List (Milestone α)} (h : ∀ m ∈ ms, m.isQuiet = true) :
    ms.filterMap taken? = [] := by
  rw [List.filterMap_eq_nil_iff]
  intro m hm
  cases m with
  | took message => cases h _ hm
  | _ => rfl

end Milestone

/-- The status accounts for this many actions. -/
structure Status.Balances (status : Status) (capacity actions : Nat) : Prop where
  total : actions = status.processed + status.aborted + status.dropped + status.queued +
    if status.locked then 1 else 0
  bounded : status.queued ≤ capacity
  rested : status.locked = false → status.queued = 0

namespace World

/-- The messages taken from the inbox, in order. -/
def taken (w : World σ α) : List (Message α) := w.milestones.filterMap Milestone.taken?

def takenActions (w : World σ α) : List α := w.taken.filterMap Message.action?

theorem Adds.taken {w w' : World σ α} {ms : List (Milestone α)} (h : w.Adds ms w') :
    w'.taken = w.taken ++ ms.filterMap Milestone.taken? := by
  rw [World.taken, h.milestones, List.filterMap_append]
  rfl

/-- Messages are taken in the order in which they were sent, and only a closed inbox has lost
any. -/
def InOrder (w : World σ α) : Prop :=
  ∃ lost, w.sent = w.taken ++ w.inbox ++ lost ∧ (w.isOpen = true → lost = [])

theorem InOrder.grows {w w' : World σ α} (h : w.InOrder) {ms : List (Milestone α)}
    (hw : w.Grows ms w') (hms : ms.filterMap Milestone.taken? = []) : w'.InOrder := by
  obtain ⟨lost, hs, hl⟩ := h
  obtain ⟨arrived, hi, hs', hc⟩ := hw.mail
  refine ⟨lost, ?_, by rw [hw.isOpen]; exact hl⟩
  rw [hw.taken, hms, hi, hs', hs, List.append_nil]
  -- An open inbox has lost nothing yet, and a closed one takes nothing more.
  cases ho : w.isOpen with
  | true => rw [hl ho, List.append_nil, List.append_nil, List.append_assoc]
  | false => rw [hc ho, List.append_nil, List.append_nil]

/-- Every reply balances with the actions that were sent before its request. -/
structure Accounted (capacity : Nat) (w : World σ α) : Prop where
  mail : w.InOrder
  replies : ∀ earlier inquiry status, earlier ++ [.answered inquiry status] <+: w.milestones →
    ∃ before, earlier.filterMap Milestone.taken? = before ++ [.status inquiry] ∧
      status.Balances capacity (before.filterMap Message.action?).length

namespace Accounted

variable {capacity : Nat} {w w' : World σ α}

theorem initial (host : σ) (handles : Nat) (observers : List ObserverName) :
    Accounted capacity (.initial host handles observers : World σ α) := by
  refine ⟨⟨[], rfl, fun _ => rfl⟩, ?_⟩
  intro earlier inquiry status h
  exact absurd (List.prefix_nil.mp h) (by simp)

theorem grows (h : Accounted capacity w) {ms : List (Milestone α)} (hw : w.Grows ms w')
    (hms : ∀ m ∈ ms, m.isQuiet = true) : Accounted capacity w' := by
  refine ⟨h.mail.grows hw (Milestone.taken_eq_nil hms), ?_⟩
  intro earlier inquiry status hp
  rw [hw.milestones] at hp
  exact h.replies earlier inquiry status (prefix_of_notMem_append hp fun hm => by cases hms _ hm)

/-- Closing the inbox loses at most what is in it. -/
theorem close (h : Accounted capacity w) : Accounted capacity w.discardInbox := by
  have hclosed : Accounted capacity { w with inbox := [], isOpen := false } := by
    obtain ⟨lost, hs, -⟩ := h.mail
    refine ⟨⟨w.inbox ++ lost, ?_, fun ho => by cases ho⟩, h.replies⟩
    rw [List.append_nil, ← List.append_assoc]
    exact hs
  exact hclosed.grows w.discardInbox_grows (by simp)

end Accounted

end World

namespace Engine

variable {setup : Setup σ α} {capacity : Nat} {e e' : Engine σ α}

theorem Chronicle.takenActions {pending : List α} {intakes : List (Intake α)}
    {ended : List (Course α)} {underway : Option (Course α)}
    (h : Chronicle setup e pending intakes ended underway) :
    e.world.takenActions = intakes.map Intake.action := by
  have htaken : e.world.takenActions =
      (e.world.milestones.filterMap Milestone.receipt?).filterMap Receipt.taken? := by
    rw [World.takenActions, World.taken, List.filterMap_filterMap, List.filterMap_filterMap]
    congr 1
    funext m
    cases m with
    | took message => cases message <;> rfl
    | announced event => cases event <;> rfl
    | _ => rfl
  rw [htaken, h.receipts]
  clear h htaken
  induction intakes with
  | nil => rfl
  | cons intake rest ih =>
    obtain ⟨action, dropped⟩ := intake
    rw [List.flatMap_cons, List.filterMap_append, ih]
    cases dropped <;> rfl

theorem length_kept (intakes : List (Intake α)) :
    intakes.length = intakes.countP Intake.dropped + (kept intakes).length := by
  rw [kept, List.length_map, ← List.countP_eq_length_filter, List.length_eq_countP_add_countP
    Intake.dropped]
  congr 2
  funext intake
  cases intake.dropped <;> rfl

/-- At the head of the loop the status balances with the actions taken so far. -/
theorem Sound.balances (h : Sound setup capacity e) :
    e.status.Balances capacity e.world.takenActions.length := by
  obtain ⟨intakes, ended, underway, hc⟩ := h.chronicled
  refine ⟨?_, ?_, ?_⟩
  · have haccepted := congrArg List.length hc.accepted
    rw [List.length_append, List.length_map, List.length_append] at haccepted
    have hbusy : underway.toList.length = if e.isBusy then 1 else 0 := by
      rw [hc.isBusy]
      cases underway <;> rfl
    have hdropped := hc.dropped
    have hcounted := hc.counted
    rw [hc.takenActions, List.length_map, length_kept, haccepted, hbusy]
    change _ = e.tally.processed + e.tally.aborted + e.tally.dropped + e.backlog.items.length +
      if e.isBusy then 1 else 0
    omega
  · change e.backlog.length ≤ capacity
    rw [← h.capacity]
    exact e.backlog.length_le_capacity
  · intro hidle
    change e.backlog.items.length = 0
    rw [h.rested hidle, List.length_nil]

theorem Onward.accounted (h : Onward e e') (ha : e.world.Accounted capacity) :
    e'.world.Accounted capacity := by
  obtain ⟨ms, hw, hms⟩ := h.world
  exact ha.grows hw fun m hm => Milestone.isQuiet_of_inCourse (hms m hm)

theorem announce_accounted (setup : Setup σ α) (ha : e.world.Accounted capacity) (event : Event α) :
    (e.announce setup event).world.Accounted capacity := by
  refine ha.grows (World.announce_grows setup e.world event) ?_
  intro m hm
  obtain rfl := List.mem_singleton.mp hm
  rfl

theorem note_accounted (ha : e.world.Accounted capacity) (notice : Notice α)
    (hn : notice.isOwn = true) : (e.note notice).world.Accounted capacity := by
  refine ha.grows (World.Grows.note e.world notice hn) ?_
  intro m hm
  obtain rfl := List.mem_singleton.mp hm
  rfl

theorem undertakeWaiting_accounted (ha : e.world.Accounted capacity)
    (hr : e.world.ChannelOnRecord) : (e.undertakeWaiting setup).world.Accounted capacity :=
  (undertakeUpTo_onward setup e.backlog.length e hr).accounted ha

theorem taking_accounted (ha : e.world.Accounted capacity) {message : Message α}
    {inbox : List (Message α)} (hi : e.world.inbox = message :: inbox) :
    (e.taking message inbox).world.Accounted capacity := by
  have hadds := taking_adds e message inbox
  obtain ⟨lost, hs, hl⟩ := ha.mail
  refine ⟨⟨lost, ?_, hl⟩, ?_⟩
  · have hsent : (e.taking message inbox).world.sent = e.world.sent :=
      (World.sent_record _ rfl).trans (List.append_nil _)
    have htaken : e.world.taken ++ [message] ++ inbox = e.world.taken ++ e.world.inbox := by
      rw [hi, List.append_assoc, List.singleton_append]
    rw [hsent, hs, hadds.taken, ← htaken]
    rfl
  · intro earlier inquiry status hp
    rw [hadds.milestones] at hp
    exact ha.replies earlier inquiry status (prefix_of_notMem_append hp (by simp))

theorem accept_accounted (ha : e.world.Accounted capacity) (hr : e.world.ChannelOnRecord)
    (action : α) : (e.accept setup action).world.Accounted capacity := by
  have hdispatch := announce_accounted setup ha (.dispatch action)
  rcases accept_cases setup action e with
    ⟨-, h⟩ | ⟨-, backlog, -, h⟩ | ⟨-, -, h⟩
  · rw [h]
    have hr' := (World.announce_grows setup e.world (.dispatch action)).onRecord hr
    obtain ⟨honward, -⟩ := undertake_onward setup action (e.announce setup (.dispatch action)) hr'
    exact undertakeWaiting_accounted (honward.accounted hdispatch) (honward.onRecord hr')
  · rw [h]
    exact hdispatch
  · rw [h]
    have hnote := note_accounted hdispatch (.backlogFull action e.backlog.capacity) rfl
    exact announce_accounted setup (e := Engine.countDropped _) hnote (.drop action)

/-- The reply to a request is the status at the head of the loop that took it. -/
theorem reply_accounted (h : Sound setup capacity e) {inquiry : Inquiry}
    {inbox : List (Message α)}
    (ha : (e.taking (.status inquiry) inbox).world.Accounted capacity) :
    ((e.taking (.status inquiry) inbox).obey setup (.status inquiry)).world.Accounted capacity := by
  let e₁ := e.taking (.status inquiry) inbox
  have htaken := (taking_adds e (.status inquiry) inbox).taken
  have hreply : e₁.world.Grows [.answered inquiry e.status]
      (e₁.obey setup (.status inquiry)).world := .record _ rfl (fun _ => rfl) rfl rfl
  refine ⟨ha.mail.grows hreply rfl, ?_⟩
  intro earlier i s hp
  rw [hreply.milestones, List.prefix_concat_iff] at hp
  rcases hp with hp | hp
  · obtain ⟨rfl, hm⟩ := List.append_inj' hp rfl
    cases hm
    exact ⟨e.world.taken, htaken, h.balances⟩
  · exact ha.replies earlier i s hp

theorem obey_accounted (h : Sound setup capacity e) (ha : e.world.Accounted capacity)
    {message : Message α} {inbox : List (Message α)} (hi : e.world.inbox = message :: inbox) :
    ((e.taking message inbox).obey setup message).world.Accounted capacity := by
  have htaking := taking_accounted ha hi
  cases message with
  | dispatch action =>
    exact accept_accounted htaking ((taking_adds e _ inbox).onRecord h.onRecord) action
  | status inquiry => exact reply_accounted h htaking
  | shutdown =>
    have hnote := note_accounted htaking (.shuttingDown e.backlog.length) rfl
    -- Only the sending end is closed; what is in the inbox stays there.
    obtain ⟨lost, hs, -⟩ := hnote.mail
    exact ⟨⟨lost, hs, fun ho => by cases ho⟩, hnote.replies⟩

theorem turned_accounted (h : Sound setup capacity e) (ha : e.world.Accounted capacity)
    (ht : Turned setup e e') : e'.world.Accounted capacity := by
  cases ht with
  | started hlife => exact note_accounted ha (.started setup.stores.size e.backlog.capacity) rfl
  | read hlife hl hi => exact obey_accounted h ha hi
  | deafened hlife hl hi hh => exact ha
  | proceeded hlife hp hl ho =>
    obtain ⟨intakes, hc⟩ := h.chronicled
    obtain ⟨-, honward, -⟩ := hc.carryOn hp ho
    exact undertakeWaiting_accounted (honward.accounted ha) (honward.onRecord h.onRecord)
  | stopped hlife hp hl => exact (note_accounted ha (.stopped _ _ _) rfl).close

theorem Reachable.accounted (h : Reachable setup capacity e) : e.world.Accounted capacity := by
  induction h with
  | initial host handles observers => exact .initial host handles observers
  | @step e e' h hs ih =>
    cases hs with
    | turn ht => exact turned_accounted h.sound ih (turn_turned ht)
    | outside reaction =>
      exact ih.grows (World.absorb_grows .outside reaction e.world) (by simp)
    | kill =>
      unfold kill
      split
      · exact ih.close
      · exact ih.close
      · exact ih
      · exact ih

/-- No action is lost or counted twice: not at the head of the loop, and not in any reply, which
accounts for exactly the actions sent before its request. -/
theorem actions_conserved (h : Reachable setup capacity e) :
    e.status.Balances capacity e.world.takenActions.length ∧
      ∀ earlier inquiry status later,
        e.world.milestones = earlier ++ .answered inquiry status :: later →
        ∃ before behind, e.world.sent = before ++ .status inquiry :: behind ∧
          earlier.filterMap Milestone.taken? = before ++ [.status inquiry] ∧
          status.Balances capacity (before.filterMap Message.action?).length := by
  refine ⟨h.sound.balances, ?_⟩
  intro earlier inquiry status later hsplit
  have hprefix : earlier ++ [.answered inquiry status] <+: e.world.milestones := by
    rw [hsplit]
    exact (List.prefix_append_right_inj _).mpr (List.cons_prefix_cons.mpr ⟨rfl, List.nil_prefix⟩)
  obtain ⟨before, htaken, hbalances⟩ := h.accounted.replies earlier inquiry status hprefix
  obtain ⟨lost, hsent, -⟩ := h.accounted.mail
  refine ⟨before, later.filterMap Milestone.taken? ++ e.world.inbox ++ lost, ?_, htaken, hbalances⟩
  have hall : e.world.taken = before ++ [.status inquiry] ++ later.filterMap Milestone.taken? := by
    rw [World.taken, hsplit, List.filterMap_append, htaken]
    rfl
  rw [hsent, hall]
  simp only [List.append_assoc, List.cons_append, List.nil_append]

theorem relayRun_conserved :
    Reachable relay 2 relayRun ∧ relayRun.world.takenActions = [7, 8, 9, 10] ∧
      relayRun.status = ⟨true, 1, 1, 1, 0⟩ ∧
      relayRun.status.Balances 2 relayRun.world.takenActions.length :=
  ⟨relayRun_reachable, by cbv, by cbv, (actions_conserved relayRun_reachable).1⟩

end Engine

end Concord
