import Concord.Proofs.Engine.Shutdown

/-!
# What overflows a backlog

An action is dropped in the step that takes it from the inbox or not at all. `Admits` says what a
run does with the actions that it takes, and that every action that once waits is undertaken in its
turn. While an engine waits for one and the same channel, the actions that arrive fill the free
places of the backlog, and all that come after them are dropped.
-/
namespace Concord

variable {σ α : Type}

namespace Milestone

/-- The action that an engine goes about: every course says so once. -/
def undertaken? : Milestone α → Option α
  | noted (.executing action _) | noted (.nobodyApproved action) | noted (.aborting action _) =>
    some action
  | _ => none

def dropped? : Milestone α → Option α
  | announced (.drop action) => some action
  | _ => none

end Milestone

namespace World

/-- The actions that were undertaken, in order. -/
def undertaken (w : World σ α) : List α := w.milestones.filterMap Milestone.undertaken?

/-- The actions that were announced as dropped, in order. -/
def dropped (w : World σ α) : List α := w.milestones.filterMap Milestone.dropped?

def receipts (w : World σ α) : List (Receipt α) := w.milestones.filterMap Milestone.receipt?

variable {w w' : World σ α} {ms : List (Milestone α)}

theorem Adds.undertaken (h : w.Adds ms w') :
    w'.undertaken = w.undertaken ++ ms.filterMap Milestone.undertaken? := by
  rw [World.undertaken, h.milestones, List.filterMap_append]
  rfl

theorem Adds.dropped (h : w.Adds ms w') :
    w'.dropped = w.dropped ++ ms.filterMap Milestone.dropped? := by
  rw [World.dropped, h.milestones, List.filterMap_append]
  rfl

theorem Adds.receipts (h : w.Adds ms w') :
    w'.receipts = w.receipts ++ ms.filterMap Milestone.receipt? := by
  rw [World.receipts, h.milestones, List.filterMap_append]
  rfl

theorem Adds.takenActions (h : w.Adds ms w') :
    w'.takenActions =
      w.takenActions ++ (ms.filterMap Milestone.taken?).filterMap Message.action? := by
  rw [World.takenActions, h.taken, List.filterMap_append]
  rfl

end World

theorem Turn.undertaken_milestones (action : α) (turn : Turn) :
    (turn.milestones action).filterMap Milestone.undertaken? = [] := by
  unfold Turn.milestones Milestone.settlement
  cases turn.outcome.failure? <;> rfl

theorem undertaken_closing (action : α) (acked : List StoreName) (stores : Nat) :
    (closing action acked stores).filterMap Milestone.undertaken? = [] := by
  have hsignals : (acked.map fun store => Milestone.called (.signal store action)).filterMap
      Milestone.undertaken? = [] := by
    rw [List.filterMap_map]
    exact List.filterMap_eq_nil_iff.mpr fun _ _ => rfl
  unfold closing
  rw [List.filterMap_append, hsignals]
  rfl

theorem undertaken_visits (action : α) (turns : List Turn) (atWork : Option (StoreName × Ticket))
    (acked : List StoreName) (stores : Nat) :
    (visits action turns atWork acked stores).filterMap Milestone.undertaken? = [] := by
  have hturns : (turns.flatMap (Turn.milestones action)).filterMap Milestone.undertaken? = [] := by
    rw [List.filterMap_flatMap]
    exact List.flatMap_eq_nil_iff.mpr fun turn _ => turn.undertaken_milestones action
  unfold visits
  rw [List.filterMap_append, hturns, List.nil_append]
  cases atWork with
  | some work => rfl
  | none => exact undertaken_closing action acked stores

namespace Course

variable {setup : Setup σ α} {c : Course α}

theorem undertaken_opening (setup : Setup σ α) (c : Course α) :
    (c.opening setup).filterMap Milestone.undertaken? = [] := by
  have hvotes : (c.ballots.flatMap (Milestone.voting c.action)).filterMap Milestone.undertaken? =
      [] := by
    rw [List.filterMap_flatMap]
    exact List.flatMap_eq_nil_iff.mpr fun _ _ => rfl
  unfold opening
  rw [List.filterMap_cons, List.filterMap_append, hvotes, List.filterMap_map]
  exact List.filterMap_eq_nil_iff.mpr fun _ _ => rfl

/-- A course is about its action and no other. -/
theorem undertaken_milestones (setup : Setup σ α) (c : Course α) :
    (c.milestones setup).filterMap Milestone.undertaken? = [c.action] := by
  unfold milestones
  rw [List.filterMap_append, undertaken_opening, List.nil_append]
  split
  · rfl
  · rw [List.filterMap_cons, undertaken_visits]
    rfl
  · rfl

end Course

namespace Engine

variable {setup : Setup σ α} {capacity : Nat} {e e' e'' : Engine σ α} {c c' : Course α}

theorem Undertaken.undertaken (hu : Undertaken setup c e e') :
    e'.world.undertaken = e.world.undertaken ++ [c.action] := by
  rw [hu.world.toAdds.undertaken, Course.undertaken_milestones]

/-- Both courses are about one action, and the longer one says so no second time. -/
theorem Continued.undertaken (hc : Continued setup c c' e e') :
    e'.world.undertaken = e.world.undertaken := by
  obtain ⟨ms, hms, hw⟩ := hc.world
  have hlonger := congrArg (List.filterMap Milestone.undertaken?) hms
  rw [List.filterMap_append, Course.undertaken_milestones, Course.undertaken_milestones,
    hc.action] at hlonger
  rw [hw.toAdds.undertaken, List.self_eq_append_right.mp hlonger, List.append_nil]

/-- An engine has taken these actions in. Each of them was dropped there and then or went behind
those that waited, and those that do not wait any more have been undertaken. -/
structure Admits (e : Engine σ α) (fresh : List (Intake α)) (e' : Engine σ α) : Prop where
  receipts : e'.world.receipts = e.world.receipts ++ fresh.flatMap Intake.receipts
  counted : e'.tally.dropped = e.tally.dropped + fresh.countP Intake.dropped
  queue : e'.world.undertaken ++ e'.backlog.items =
    e.world.undertaken ++ e.backlog.items ++ kept fresh

namespace Admits

variable {fresh fresh' : List (Intake α)}

theorem trans (h : Admits e fresh e') (h' : Admits e' fresh' e'') :
    Admits e (fresh ++ fresh') e'' where
  receipts := by rw [h'.receipts, h.receipts, List.flatMap_append, List.append_assoc]
  counted := by rw [h'.counted, h.counted, List.countP_append, Nat.add_assoc]
  queue := by
    rw [h'.queue, h.queue, kept, kept, kept, List.filter_append, List.map_append]
    simp only [List.append_assoc]

/-- Steps in which no action is taken and none undertaken. -/
theorem still {ms : List (Milestone α)} (hw : e.world.Adds ms e'.world)
    (hreceipts : ms.filterMap Milestone.receipt? = [])
    (hundertaken : ms.filterMap Milestone.undertaken? = []) (hb : e'.backlog = e.backlog)
    (ht : e'.tally = e.tally) : Admits e [] e' where
  receipts := by rw [hw.receipts, hreceipts]; rfl
  counted := by rw [ht]; rfl
  queue := by rw [hw.undertaken, hundertaken, hb, kept, List.append_nil]; simp

theorem refl (e : Engine σ α) : Admits e [] e := .still (.same rfl rfl) rfl rfl rfl rfl

theorem resumed {action : α} {backlog : Backlog α}
    (ho : e.backlog.oldest? = some (action, backlog)) (hc : c.action = action)
    (hu : Undertaken setup c { e with backlog } e') : Admits e [] e' where
  receipts := by
    have hreceipts := hu.world.toAdds.receipts
    rw [Milestone.receipts_eq_nil hu.follows.inCourse] at hreceipts
    exact hreceipts
  counted := by rw [hu.result]; exact Course.count_dropped ..
  queue := by
    have hitems := (Backlog.items_of_oldest?_eq_some ho).1
    have hbacklog : e'.backlog = backlog := by rw [hu.result]
    rw [hu.undertaken, hc, hbacklog, hitems]
    simp [kept]

theorem continued (hc : Continued setup c c' e e') : Admits e [] e' := by
  obtain ⟨ms, -, hw, hcourse⟩ := hc.inCourse
  have hbacklog : e'.backlog = e.backlog := by rw [hc.result]
  refine ⟨?_, ?_, ?_⟩
  · rw [hw.toAdds.receipts, Milestone.receipts_eq_nil hcourse]
    rfl
  · rw [hc.result]
    exact Course.count_dropped ..
  · rw [hc.undertaken, hbacklog]
    simp [kept]

theorem undertakeUpTo (n : Nat) (e : Engine σ α) (hr : e.world.ChannelOnRecord) :
    Admits e [] (e.undertakeUpTo setup n) := by
  induction n generalizing e with
  | zero => exact .refl e
  | succ n ih =>
    unfold Engine.undertakeUpTo
    split
    · exact .refl e
    cases ho : e.backlog.oldest? with
    | none => exact .refl e
    | some next =>
      obtain ⟨action, backlog⟩ := next
      obtain ⟨c, hc, hu⟩ := undertake_undertaken setup action { e with backlog } hr
      exact (Admits.resumed ho hc hu).trans (ih _ (hu.world.onRecord hr))

end Admits

/-- What becomes of an action that is taken now. -/
def intake (e : Engine σ α) (action : α) : Intake α :=
  ⟨action, e.isBusy && e.backlog.length = e.backlog.capacity⟩

theorem intake_of_idle (h : e.isBusy = false) (action : α) : e.intake action = ⟨action, false⟩ := by
  rw [intake, h, Bool.false_and]

theorem intake_of_room (h : e.backlog.length < e.backlog.capacity) (action : α) :
    e.intake action = ⟨action, false⟩ := by
  rw [intake, decide_eq_false (Nat.ne_of_lt h), Bool.and_false]

namespace Admits

variable {action : α} {inbox : List (Message α)} {backlog : Backlog α}

theorem begun (hidle : e.isBusy = false) (hempty : e.backlog.items = []) (hc : c.action = action)
    (hu : Undertaken setup c (e.hearing setup action inbox) e') :
    Admits e [e.intake action] e' := by
  have hadds := (hearing_adds setup action inbox e).trans hu.world.toAdds
  rw [intake_of_idle hidle]
  refine ⟨?_, ?_, ?_⟩
  · rw [hadds.receipts, List.filterMap_append, Milestone.receipts_eq_nil hu.follows.inCourse]
    rfl
  · rw [hu.result]
    exact Course.count_dropped ..
  · have hbacklog : e'.backlog = e.backlog := by
      rw [hu.result]
      rfl
    rw [hu.undertaken, (hearing_adds setup action inbox e).undertaken, hbacklog, hempty, hc]
    simp [Milestone.undertaken?, kept]

theorem queued (hput : e.backlog.put action = .ok backlog) :
    Admits e [e.intake action] { e.hearing setup action inbox with backlog } := by
  obtain ⟨hitems, hcapacity⟩ := Backlog.items_of_put_eq_ok hput
  have hroom : e.backlog.length < e.backlog.capacity := by
    have hle := backlog.length_le
    rw [hitems, hcapacity, List.length_append] at hle
    exact hle
  have hadds := hearing_adds setup action inbox e
  rw [intake_of_room hroom]
  refine ⟨hadds.receipts, rfl, ?_⟩
  change (e.hearing setup action inbox).world.undertaken ++ backlog.items = _
  rw [hadds.undertaken, hitems]
  simp [Milestone.undertaken?, kept]

theorem overflowed (hbusy : e.isBusy = true) (hfull : e.backlog.length = e.backlog.capacity) :
    Admits e [e.intake action] ((((e.hearing setup action inbox).note
      (.backlogFull action e.backlog.capacity)).countDropped).announce setup (.drop action)) := by
  have hadds := (hearing_adds setup action inbox e).trans
    (dropping_grows setup action e.backlog.capacity _).toAdds
  have hintake : e.intake action = ⟨action, true⟩ := by simp [intake, hbusy, hfull]
  rw [hintake]
  refine ⟨hadds.receipts, rfl, ?_⟩
  rw [hadds.undertaken]
  change _ ++ e.backlog.items = _
  simp [Milestone.undertaken?, kept]

/-- An action that comes out of the inbox is accepted, whatever becomes of it. -/
theorem accepted (h : Sound setup capacity e) (action : α) (inbox : List (Message α)) :
    Admits e [e.intake action] ((e.taking (.dispatch action) inbox).accept setup action) := by
  rcases accept_cases setup action (e.taking (.dispatch action) inbox) with
    ⟨hidle, haccept⟩ | ⟨hbusy, backlog, hput, haccept⟩ | ⟨hbusy, hfull, haccept⟩
  · rw [haccept]
    have hr := (hearing_adds setup action inbox e).onRecord h.onRecord
    obtain ⟨c, hc, hu⟩ := undertake_undertaken setup action (e.hearing setup action inbox) hr
    have hbegun : Admits e [e.intake action] _ := .begun hidle (h.rested hidle) hc hu
    exact hbegun.trans (.undertakeUpTo _ _ (hu.world.onRecord hr))
  · rw [haccept]
    exact .queued hput
  · rw [haccept]
    exact .overflowed hbusy hfull

end Admits

/-- A step takes at most one action from the inbox, and drops it if the engine is busy and every
place is taken, otherwise not. -/
inductive TakesIn (e e' : Engine σ α) : Prop where
  | nothing (admits : Admits e [] e')
  | one {action : α} {inbox : List (Message α)} (hears : e.Hears (.dispatch action) inbox)
      (admits : Admits e [e.intake action] e')

namespace TakesIn

theorem turned (h : Sound setup capacity e) (ht : Turned setup e e') : TakesIn e e' := by
  cases ht with
  | started hlife =>
    exact .nothing (.still (World.Grows.note e.world (.started ..) rfl).toAdds rfl rfl rfl rfl)
  | @read hlife hl message inbox hi =>
    cases message with
    | status inquiry =>
      exact .nothing (.still (replying_adds setup inquiry inbox e) rfl rfl rfl rfl)
    | shutdown => exact .nothing (.still (shutting_adds setup inbox e) rfl rfl rfl rfl)
    | dispatch action => exact .one ⟨hlife, hl, hi⟩ (.accepted h action inbox)
  | deafened hlife hl hi hh => exact .nothing (.still (.same rfl rfl) rfl rfl rfl rfl)
  | proceeded hlife hp hl ho =>
    obtain ⟨intakes, ended, underway, hchronicle⟩ := h.chronicled
    obtain ⟨c, c', -, hf, hphase, hw, rfl, hc⟩ := hchronicle.continued hp ho
    obtain ⟨ms, -, hgrows, -⟩ := hc.inCourse
    exact .nothing ((Admits.continued hc).trans
      (.undertakeUpTo _ _ (hgrows.onRecord h.onRecord)))
  | stopped hlife hp hl => exact .nothing (.still (stop_adds e) rfl rfl rfl rfl)

theorem step (h : Sound setup capacity e) (hs : Step setup e e') : TakesIn e e' := by
  cases hs with
  | turn ht => exact .turned h (turn_turned ht)
  | outside reaction =>
    exact .nothing (.still (World.absorb_grows .outside reaction e.world).toAdds rfl rfl rfl rfl)
  | kill =>
    obtain ⟨-, hb, ht, -⟩ := kill_same e
    exact .nothing (.still (kill_adds e) rfl rfl hb ht)

theorem admits (h : TakesIn e e') : ∃ fresh, Admits e fresh e' := by
  cases h with
  | nothing admits => exact ⟨[], admits⟩
  | one hears admits => exact ⟨_, admits⟩

end TakesIn

theorem Run.admits {Q : Request α → Prop} (h : Run setup Q e e') (he : Reachable setup capacity e) :
    ∃ fresh, Admits e fresh e' := by
  have hnext : ∀ {e' e''}, Reachable setup capacity e' → Step setup e' e'' →
      (∃ fresh, Admits e fresh e') → ∃ fresh, Admits e fresh e'' := by
    rintro e' e'' h' hs ⟨fresh, hadmits⟩
    obtain ⟨more, hmore⟩ := (TakesIn.step h'.sound hs).admits
    exact ⟨fresh ++ more, hadmits.trans hmore⟩
  induction h with
  | refl => exact ⟨[], .refl e⟩
  | turn h ht ih => exact hnext (h.reachable he) (.turn ht) ih
  | outside h reaction hr ih => exact hnext (h.reachable he) (.outside reaction _) ih
  | kill h ih => exact hnext (h.reachable he) (.kill _) ih

/-- Whatever the engine waits for is a channel that was opened after the given one. -/
structure Past (ticket : Ticket) (e : Engine σ α) : Prop where
  opened : ticket ≤ e.world.channel.ticket
  waiting : ∀ {walk store t}, e.phase = .waiting walk store t → ticket < t

namespace Past

variable {ticket : Ticket}

/-- The channels of a course were opened one after the other, the last of them for the store that
is at work. -/
theorem follow {opened : Ticket} {turns : List Turn} (hp : e.phase = c.phase setup)
    (hn : Numbered opened turns c.atWork) (hopened : ticket ≤ opened)
    (hle : opened ≤ e.world.channel.ticket) : Past ticket e where
  opened := Nat.le_trans hopened hle
  waiting := by
    intro walk store t hwaiting
    rw [hp] at hwaiting
    obtain ⟨action, ballots, done, atWork⟩ := c
    cases atWork with
    | none => cases hwaiting
    | some work =>
      cases hwaiting
      have hlast : work.2 = opened + 1 + turns.length := hn.last
      calc ticket ≤ opened := hopened
        _ < opened + 1 := Nat.lt_succ_self opened
        _ ≤ opened + 1 + turns.length := Nat.le_add_right _ _
        _ = work.2 := hlast.symm

theorem undertaken (h : ticket ≤ e.world.channel.ticket) (hu : Undertaken setup c e e') :
    Past ticket e' := by
  have hphase : e'.phase = c.phase setup := by rw [hu.result]
  refine follow hphase hu.tickets h ?_
  rw [hu.world.ticket]
  exact Nat.le_add_right _ _

theorem continued (h : ticket ≤ e.world.channel.ticket) (hc : Continued setup c c' e e') :
    Past ticket e' := by
  obtain ⟨turn, more, -, -, -, hn⟩ := hc.turns
  obtain ⟨ms, -, hw⟩ := hc.world
  have hphase : e'.phase = c'.phase setup := by rw [hc.result]
  refine follow hphase hn h ?_
  rw [hw.ticket]
  exact Nat.le_add_right _ _

theorem still {ms : List (Milestone α)} (h : Past ticket e) (hw : e.world.Adds ms e'.world)
    (hp : e'.phase = e.phase) : Past ticket e' where
  opened := by
    rw [hw.ticket]
    exact Nat.le_trans h.opened (Nat.le_add_right _ _)
  waiting hwaiting := h.waiting (hp.symm.trans hwaiting)

theorem act (h : Past ticket e) (ha : Act setup e e') : Past ticket e' := by
  cases ha with
  | started hlife => exact h.still (World.Grows.note e.world (.started ..) rfl).toAdds rfl
  | begun hh hidle hempty hc hu =>
    exact .undertaken (h.still (hearing_adds setup _ _ e) rfl).opened hu
  | queued hh hbusy hput => exact h.still (hearing_adds setup _ _ e) rfl
  | dropped hh hbusy hfull =>
    exact h.still ((hearing_adds setup _ _ e).trans (dropping_grows setup _ _ _).toAdds) rfl
  | replied hh => exact h.still (replying_adds setup _ _ e) rfl
  | shut hh => exact h.still (shutting_adds setup _ e) rfl
  | deafened hlife hl hi hh => exact h.still (.same rfl rfl) rfl
  | continued hlife hl hf hp hw ho hc => exact .continued h.opened hc
  | @resumed hlife hidle action backlog ho c hc hu =>
    have hopened : ticket ≤ { e with backlog }.world.channel.ticket := h.opened
    exact .undertaken hopened hu
  | stopped hlife hp hl => exact h.still (stop_adds e) rfl

end Past

/-- The second engine still waits for the channel that the first one waits for. Of the actions that
have arrived meanwhile the first went behind those that waited, as long as there were places, and
all others were dropped. -/
structure Banked (e : Engine σ α) (arrived : List α) (e' : Engine σ α) : Prop where
  phase : e'.phase = e.phase
  capacity : e'.backlog.capacity = e.backlog.capacity
  taken : e'.world.takenActions = e.world.takenActions ++ arrived
  queued : e'.backlog.items =
    e.backlog.items ++ arrived.take (e.backlog.capacity - e.backlog.length)
  dropped : e'.world.dropped =
    e.world.dropped ++ arrived.drop (e.backlog.capacity - e.backlog.length)
  counted : e'.tally.dropped =
    e.tally.dropped + (arrived.length - (e.backlog.capacity - e.backlog.length))

namespace Banked

variable {arrived : List α}

theorem refl (e : Engine σ α) : Banked e [] e := by
  constructor <;> simp

/-- Steps in which no action is taken. -/
theorem still {ms : List (Milestone α)} (h : Banked e arrived e') (hw : e'.world.Adds ms e''.world)
    (htaken : (ms.filterMap Milestone.taken?).filterMap Message.action? = [])
    (hdropped : ms.filterMap Milestone.dropped? = []) (hp : e''.phase = e'.phase)
    (hb : e''.backlog = e'.backlog) (ht : e''.tally = e'.tally) : Banked e arrived e'' where
  phase := hp.trans h.phase
  capacity := by rw [hb, h.capacity]
  taken := by rw [hw.takenActions, htaken, List.append_nil, h.taken]
  queued := by rw [hb, h.queued]
  dropped := by rw [hw.dropped, hdropped, List.append_nil, h.dropped]
  counted := by rw [ht, h.counted]

/-- How many wait: no more than there are places. -/
theorem length_queued (h : Banked e arrived e') : e'.backlog.length =
    e.backlog.length + min (e.backlog.capacity - e.backlog.length) arrived.length := by
  change e'.backlog.items.length = _
  rw [h.queued, List.length_append, List.length_take]
  rfl

theorem queue (h : Banked e arrived e') {action : α} {inbox : List (Message α)}
    {backlog : Backlog α} (hput : e'.backlog.put action = .ok backlog) :
    Banked e (arrived ++ [action]) { e'.hearing setup action inbox with backlog } := by
  obtain ⟨hitems, hcapacity⟩ := Backlog.items_of_put_eq_ok hput
  have hadds := hearing_adds setup action inbox e'
  have hroom : arrived.length < e.backlog.capacity - e.backlog.length := by
    have hle := backlog.length_le
    have hlength := h.length_queued
    rw [hitems, hcapacity, h.capacity, List.length_append, List.length_singleton] at hle
    change e'.backlog.items.length = _ at hlength
    omega
  have hlength : (arrived ++ [action]).length ≤ e.backlog.capacity - e.backlog.length := by
    rw [List.length_append]
    exact hroom
  have hbefore := Nat.le_of_lt hroom
  refine ⟨h.phase, hcapacity.trans h.capacity, ?_, ?_, ?_, ?_⟩
  · exact hadds.takenActions.trans (by rw [h.taken, List.append_assoc]; rfl)
  · change backlog.items = _
    rw [hitems, h.queued, List.take_of_length_le hlength, List.take_of_length_le hbefore,
      List.append_assoc]
  · refine hadds.dropped.trans ?_
    rw [h.dropped, List.drop_eq_nil_of_le hlength, List.drop_eq_nil_of_le hbefore,
      List.append_assoc]
    rfl
  · refine h.counted.trans ?_
    rw [Nat.sub_eq_zero_of_le hlength, Nat.sub_eq_zero_of_le hbefore]

theorem drop (h : Banked e arrived e') {action : α} {inbox : List (Message α)}
    (hfull : e'.backlog.length = e'.backlog.capacity) :
    Banked e (arrived ++ [action]) ((((e'.hearing setup action inbox).note
      (.backlogFull action e'.backlog.capacity)).countDropped).announce setup (.drop action)) := by
  have hadds := (hearing_adds setup action inbox e').trans
    (dropping_grows setup action e'.backlog.capacity _).toAdds
  have hroom : e.backlog.capacity - e.backlog.length ≤ arrived.length := by
    have hlength := h.length_queued
    rw [hfull, h.capacity] at hlength
    have hle := e.backlog.length_le_capacity
    omega
  refine ⟨h.phase, h.capacity, ?_, ?_, ?_, ?_⟩
  · rw [hadds.takenActions, h.taken, List.append_assoc]
    rfl
  · refine h.queued.trans ?_
    rw [List.take_append_of_le_length hroom]
  · rw [hadds.dropped, h.dropped, List.drop_append_of_le_length hroom, List.append_assoc]
    rfl
  · change e'.tally.dropped + 1 = _
    rw [h.counted, List.length_append, List.length_singleton]
    omega

theorem act {walk : Walk α} {store : StoreName} {ticket : Ticket}
    (hp : e.phase = .waiting walk store ticket) (h : Banked e arrived e') (ha : Act setup e' e'') :
    (∃ arrived, Banked e arrived e'') ∨ Past ticket e'' := by
  have hbusy : e'.isBusy = true := by rw [Engine.isBusy, h.phase, hp]
  have hcontra : ∀ {P : Prop}, e'.isBusy = false → P := fun hidle => by
    rw [hbusy] at hidle
    cases hidle
  cases ha with
  | started hlife =>
    exact .inl ⟨_, h.still (World.Grows.note e'.world (.started ..) rfl).toAdds rfl rfl rfl rfl rfl⟩
  | begun hh hidle hempty hc hu => exact hcontra hidle
  | queued hh hbusy hput => exact .inl ⟨_, h.queue hput⟩
  | dropped hh hbusy hfull => exact .inl ⟨_, h.drop hfull⟩
  | replied hh => exact .inl ⟨_, h.still (replying_adds setup _ _ e') rfl rfl rfl rfl rfl⟩
  | shut hh => exact .inl ⟨_, h.still (shutting_adds setup _ e') rfl rfl rfl rfl rfl⟩
  | deafened hlife hl hi hh =>
    exact .inl ⟨_, h.still (.same rfl rfl) rfl rfl rfl rfl rfl⟩
  | @continued hlife hl c c' hf hphase store' outcome hw ho hc =>
    -- The channel that is open is the one that the engine waits for, and the next one is another.
    have hticket : ticket ≤ e'.world.channel.ticket := by
      rw [h.phase, hp, Course.phase, hw] at hphase
      cases hphase
      exact Nat.le_refl _
    exact .inr (.continued hticket hc)
  | resumed hlife hidle ho hc hu => exact hcontra hidle
  | stopped hlife hidle hl => exact hcontra (by rw [Engine.isBusy, hidle])

end Banked

/-- As long as an engine waits for the same channel, its backlog fills up and then overflows. -/
theorem Run.banked {Q : Request α → Prop} {walk : Walk α} {store : StoreName} {ticket : Ticket}
    (he : Reachable setup capacity e) (hp : e.phase = .waiting walk store ticket)
    (h : Run setup Q e e') : (∃ arrived, Banked e arrived e') ∨ Past ticket e' := by
  have hact : ∀ {e' e''}, Act setup e' e'' →
      (∃ arrived, Banked e arrived e') ∨ Past ticket e' →
      (∃ arrived, Banked e arrived e'') ∨ Past ticket e'' := by
    rintro e' e'' ha (⟨arrived, hbanked⟩ | hpast)
    · exact hbanked.act hp ha
    · exact .inr (hpast.act ha)
  have hstill : ∀ {e' e''}, e'.world.Adds [] e''.world → e''.phase = e'.phase →
      e''.backlog = e'.backlog → e''.tally = e'.tally →
      (∃ arrived, Banked e arrived e') ∨ Past ticket e' →
      (∃ arrived, Banked e arrived e'') ∨ Past ticket e'' := by
    rintro e' e'' hw hphase hbacklog htally (⟨arrived, hbanked⟩ | hpast)
    · exact .inl ⟨arrived, hbanked.still hw rfl rfl hphase hbacklog htally⟩
    · exact .inr (hpast.still hw hphase)
  induction h with
  | refl => exact .inl ⟨[], .refl e⟩
  | turn h ht ih => exact ((h.reachable he).sound.acts (turn_turned ht)).preserves hact ih
  | outside h reaction hr ih =>
    exact hstill (World.absorb_grows .outside reaction _).toAdds rfl rfl rfl ih
  | @kill e' h ih =>
    obtain ⟨hphase, hbacklog, htally, -⟩ := kill_same e'
    exact hstill (kill_adds e') hphase hbacklog htally ih

/-- The actions that a waiting engine takes from its inbox fill the places that are free, in order,
and all later ones are dropped. No other action is ever dropped: one that finds the engine idle is
undertaken whatever the capacity, and one that waits is undertaken in its turn, by the end of the
engine at the latest. -/
theorem only_overflow_dropped (h : Reachable setup capacity e) :
    (∀ {e' walk store ticket}, e.phase = .waiting walk store ticket →
      Run setup (fun _ => True) e e' → e'.phase = e.phase → ∃ arrived, Banked e arrived e') ∧
    (∀ {e'}, Step setup e e' → TakesIn e e') ∧
    ∀ {e'}, Run setup (fun _ => True) e e' → ∃ fresh, Admits e fresh e' ∧
      (e'.life = .stopped →
        e'.world.undertaken = e.world.undertaken ++ e.backlog.items ++ kept fresh) := by
  refine ⟨?_, .step h.sound, ?_⟩
  · intro e' walk store ticket hp hrun hphase
    rcases hrun.banked h hp with hbanked | hpast
    · exact hbanked
    · exact absurd (hpast.waiting (hphase.trans hp)) (Nat.lt_irrefl _)
  · intro e' hrun
    obtain ⟨fresh, hadmits⟩ := hrun.admits h
    refine ⟨fresh, hadmits, fun hlife => ?_⟩
    have hdrained := ((hrun.reachable h).drained hlife).2
    rw [← hadmits.queue, hdrained, List.append_nil]

/-- Three more actions reach the engine of `relayRun`, which has one free place left. -/
def crowdedRun : Engine Unit Nat :=
  (relayRun.interact ⟨(), [.send (.dispatch 11), .send (.status 2), .send (.dispatch 12),
    .send (.dispatch 13)], ()⟩).takeTurns relay 4

theorem relayRun_crowded : Run relay (fun _ => True) relayRun crowdedRun :=
  .takeTurns (.outside .refl _ fun _ _ => trivial) 4

theorem crowdedRun_overflows :
    Reachable relay 2 relayRun ∧
    relayRun.phase = .waiting ⟨8, [⟨"b"⟩, ⟨"a"⟩], 1, [⟨"b"⟩]⟩ ⟨"a"⟩ 4 ∧
    crowdedRun.phase = relayRun.phase ∧ crowdedRun.backlog.items = [9, 11] ∧
    crowdedRun.world.dropped = [10, 12, 13] ∧ ∃ arrived, Banked relayRun arrived crowdedRun :=
  have hphase : relayRun.phase = .waiting ⟨8, [⟨"b"⟩, ⟨"a"⟩], 1, [⟨"b"⟩]⟩ ⟨"a"⟩ 4 := by cbv
  have hstill : crowdedRun.phase = relayRun.phase := by cbv
  ⟨relayRun_reachable, hphase, hstill, by cbv, by cbv,
    (only_overflow_dropped relayRun_reachable).1 hphase relayRun_crowded hstill⟩

end Engine

end Concord
