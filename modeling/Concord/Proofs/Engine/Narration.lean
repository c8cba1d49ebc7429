import Concord.Proofs.Engine.Delivery
import Concord.Proofs.Engine.Pipeline
import Concord.Proofs.Grammar

/-!
# What the events of a run tell

The events that an engine announces keep to the grammar, and every status can be counted off them.
Both are carried by one invariant, `Told`, which every act of an engine preserves; an observer that
is listed throughout receives the same events.
-/
namespace Concord

variable {σ α : Type}

/-- The status is what the events amount to. -/
structure Status.Recounts (status : Status) (events : List (Event α)) : Prop where
  locked : status.locked = true ↔ tells .lock events = tells .unlock events + 1
  aborted : status.aborted = tells .abort events
  dropped : status.dropped = tells .drop events
  processed : status.processed + tells .abort events = tells .unlock events
  queued : status.queued + tells .drop events + tells .lock events = tells .dispatch events

/-- The events account for the change of the counts. -/
structure Tally.Told (tally : Tally) (events : List (Event α)) (tally' : Tally) : Prop where
  dropped : tally'.dropped = tally.dropped + tells .drop events
  aborted : tally'.aborted = tally.aborted + tells .abort events
  ended : tally'.processed + tally'.aborted =
    tally.processed + tally.aborted + tells .unlock events

namespace Tally.Told

variable {tally tally' tally'' : Tally} {events more : List (Event α)}

theorem trans (h : tally.Told events tally') (h' : tally'.Told more tally'') :
    tally.Told (events ++ more) tally'' := by
  obtain ⟨hd, ha, he⟩ := h
  obtain ⟨hd', ha', he'⟩ := h'
  constructor <;> rw [tells_append] <;> omega

theorem cancel (h : tally.Told events tally) (h' : tally.Told (events ++ more) tally') :
    tally.Told more tally' := by
  obtain ⟨hd, ha, he⟩ := h
  obtain ⟨hd', ha', he'⟩ := h'
  rw [tells_append] at hd' ha' he'
  constructor <;> omega

end Tally.Told

def eventsOf (ms : List (Milestone α)) : List (Event α) := ms.filterMap Milestone.event?

theorem eventsOf_append (ms more : List (Milestone α)) :
    eventsOf (ms ++ more) = eventsOf ms ++ eventsOf more := List.filterMap_append

theorem eventsOf_inCourse {ms : List (Milestone α)} (h : ∀ m ∈ ms, m.inCourse = true) :
    ∀ event ∈ eventsOf ms, event.isMail = false := by
  intro event hmem
  obtain ⟨m, hm, hevent⟩ := List.mem_filterMap.mp hmem
  have hcourse := h m hm
  cases m with
  | announced told =>
    cases hevent
    cases event <;> first | rfl | cases hcourse
  | _ => cases hevent

/-- The store that is asked to carry an action out, and the action. -/
def Phase.asked? : Phase α → Option (StoreName × α)
  | idle => none
  | waiting walk store _ => some (store, walk.action)

def Turn.exchange (action : α) (turn : Turn) : Exchange α :=
  ⟨turn.store, action, turn.outcome.failure?⟩

theorem Turn.eventsOf_milestones (action : α) (turn : Turn) :
    eventsOf (turn.milestones action) = (turn.exchange action).events := by
  unfold Turn.milestones Milestone.settlement Exchange.events Turn.exchange
  cases turn.outcome.failure? <;> rfl

/-- What is told after the turns: the store at work is asked, or the action ends. -/
def ending (action : α) : Option (StoreName × Ticket) → Event α
  | none => .unlock
  | some (store, _) => .execute store action

/-- The stage that this leaves. -/
def stageOf (action : α) : Option (StoreName × Ticket) → Stage α
  | none => .outside none
  | some (store, _) => .asked store action none

theorem Stage.MayAsk.ending {s : Stage α} (h : s.MayAsk) (action : α)
    (atWork : Option (StoreName × Ticket)) :
    s.Next (Concord.ending action atWork) (stageOf action atWork) := by
  cases atWork with
  | none => exact h.unlock
  | some work => exact h.execute work.1 action

theorem eventsOf_visits (action : α) (turns : List Turn) (atWork : Option (StoreName × Ticket))
    (acked : List StoreName) (stores : Nat) :
    eventsOf (visits action turns atWork acked stores) =
      (turns.map (Turn.exchange action)).flatMap Exchange.events ++ [ending action atWork] := by
  have hturns : eventsOf (turns.flatMap (Turn.milestones action)) =
      (turns.map (Turn.exchange action)).flatMap Exchange.events := by
    rw [eventsOf, List.filterMap_flatMap, List.flatMap_map]
    exact List.flatMap_congr fun turn _ => turn.eventsOf_milestones action
  unfold visits
  rw [eventsOf_append, hturns]
  congr 1
  cases atWork with
  | some work => rfl
  | none =>
    have hsignals : eventsOf (acked.map fun store => Milestone.called (.signal store action)) =
        [] := by
      rw [eventsOf, List.filterMap_map]
      exact List.filterMap_eq_nil_iff.mpr fun _ _ => rfl
    dsimp only
    rw [closing, eventsOf_append, hsignals]
    rfl

namespace Course

variable {setup : Setup σ α} {c : Course α}

/-- The events of a course. -/
def story (setup : Setup σ α) (c : Course α) : List (Event α) :=
  match (c.plan setup).verdict with
  | .error error => [.lock, .abort c.action error, .unlock]
  | .ok _ => .lock :: ((c.turns.map (Turn.exchange c.action)).flatMap Exchange.events ++
      [ending c.action c.atWork])

theorem eventsOf_opening (setup : Setup σ α) (c : Course α) :
    eventsOf (c.opening setup) = [.lock] := by
  have hvotes : eventsOf (c.ballots.flatMap (Milestone.voting c.action)) = [] := by
    rw [eventsOf, List.filterMap_flatMap]
    exact List.flatMap_eq_nil_iff.mpr fun _ _ => rfl
  have hdrafted : eventsOf ((c.plan setup).drafted.map fun store =>
      Milestone.noted (.drafted store c.action)) = [] := by
    rw [eventsOf, List.filterMap_map]
    exact List.filterMap_eq_nil_iff.mpr fun _ _ => rfl
  rw [opening]
  change .lock :: eventsOf (_ ++ _) = _
  rw [eventsOf_append, hvotes, hdrafted]
  rfl

namespace Follows

theorem eventsOf_milestones (hc : c.Follows setup) :
    eventsOf (c.milestones setup) = c.story setup := by
  rw [milestones, eventsOf_append, eventsOf_opening, story]
  cases hv : (c.plan setup).verdict with
  | error error => rfl
  | ok order =>
    cases order with
    | nil =>
      rw [hc.turns_eq_nil (order_of_ok hv), hc.atWork_eq_none (order_of_ok hv)]
      rfl
    | cons first others =>
      have hvisits := eventsOf_visits c.action c.turns c.atWork (ackedBy c.turns)
        (first :: others).length
      exact congrArg (List.cons .lock) hvisits

theorem story_leads (hc : c.Follows setup) (summoned : Option α) :
    (Stage.outside summoned).Leads (c.story setup) (stageOf c.action c.atWork) := by
  unfold story
  cases hv : (c.plan setup).verdict with
  | error error =>
    rw [hc.atWork_eq_none (order_of_error hv)]
    exact .cons (.lock summoned) (.cons (.abort c.action error) (.cons .giveUp (.nil _)))
  | ok order =>
    obtain ⟨s, hs, hturns⟩ := Stage.MayAsk.exchanges (s := .locked) (.inl rfl)
      (c.turns.map (Turn.exchange c.action))
    exact .cons (.lock summoned) (hturns.append (.cons (hs.ending c.action c.atWork) (.nil _)))

end Follows

theorem tells_story {order : List StoreName} (hv : (c.plan setup).verdict = .ok order)
    {kind : EventKind} (he : kind ≠ .execute) (ha : kind ≠ .ack) (hn : kind ≠ .nack) :
    tells kind (c.story setup) = tells kind [.lock, ending c.action c.atWork] := by
  have hstory : c.story setup = [.lock] ++
      ((c.turns.map (Turn.exchange c.action)).flatMap Exchange.events ++
        [ending c.action c.atWork]) := by
    rw [story, hv]
    rfl
  rw [hstory, tells_append, tells_append, tells_exchanges he ha hn, Nat.zero_add, ← tells_append]
  rfl

/-- A course tells of one lock, and of no arrival. -/
theorem story_tells (setup : Setup σ α) (c : Course α) :
    tells .dispatch (c.story setup) = 0 ∧ tells .drop (c.story setup) = 0 ∧
      tells .lock (c.story setup) = 1 := by
  cases hv : (c.plan setup).verdict with
  | error error =>
    rw [story, hv]
    exact ⟨rfl, rfl, rfl⟩
  | ok order =>
    rw [tells_story hv, tells_story hv, tells_story hv]
    · cases c.atWork <;> exact ⟨rfl, rfl, rfl⟩
    all_goals decide

/-- The counts follow the events of a course. -/
theorem story_told (setup : Setup σ α) (c : Course α) (tally : Tally) :
    tally.Told (c.story setup) (c.count setup tally) := by
  refine ⟨?_, ?_, ?_⟩
  · rw [(story_tells setup c).2.1, count_dropped, Nat.add_zero]
  all_goals
    cases hv : (c.plan setup).verdict with
    | error error =>
      rw [story, count, hv]
      rfl
    | ok order =>
      rw [tells_story hv, count, hv]
      · cases c.atWork with
        | none => simp [Tally.after, tells, ending, Event.kind, Nat.add_right_comm]
        | some work => rfl
      all_goals decide

end Course

namespace Engine

variable {setup : Setup σ α} {capacity : Nat} {e e' : Engine σ α}

/-- What the events that were announced, and every reply among them, say of an engine. -/
structure Told (e : Engine σ α) : Prop where
  stage : ∃ s, (Stage.outside none).Leads e.world.events s ∧ s.Rests e.phase.asked?
  arrived : tells .dispatch e.world.events =
    tells .drop e.world.events + tells .lock e.world.events + e.backlog.items.length
  tally : ({} : Tally).Told e.world.events e.tally
  served : ∀ observer, World.Served observer e.world
  replies : ∀ earlier inquiry status,
    earlier ++ [.answered inquiry (some status)] <+: e.world.history →
    (∀ observer, ServedIn observer earlier) ∧
      status.Recounts (earlier.filterMap Entry.event?)

/-- The events bring the one engine to where the other is. -/
structure Relates (events : List (Event α)) (e e' : Engine σ α) : Prop where
  stage : ∀ s : Stage α, s.Rests e.phase.asked? →
    ∃ s' : Stage α, s.Leads events s' ∧ s'.Rests e'.phase.asked?
  arrived : tells .dispatch events + e.backlog.items.length =
    tells .drop events + tells .lock events + e'.backlog.items.length
  tally : e.tally.Told events e'.tally

theorem isSome_asked? (e : Engine σ α) : e.phase.asked?.isSome = e.isBusy := by
  unfold Engine.isBusy
  cases e.phase <;> rfl

theorem asked?_of_idle (h : e.isBusy = false) : e.phase.asked? = none := by
  rw [← isSome_asked?, Option.isSome_eq_false_iff, Option.isNone_iff_eq_none] at h
  exact h

theorem asked?_of_busy (h : e.isBusy = true) :
    ∃ store action, e.phase.asked? = some (store, action) := by
  rw [← isSome_asked?, Option.isSome_iff_exists] at h
  obtain ⟨⟨store, action⟩, hasked⟩ := h
  exact ⟨store, action, hasked⟩

theorem Relates.silent (hp : e'.phase = e.phase) (hb : e'.backlog = e.backlog)
    (ht : e'.tally = e.tally) : Relates [] e e' := by
  refine ⟨fun s hs => ⟨s, .nil s, by rw [hp]; exact hs⟩, ?_, ?_⟩
  · rw [hb]
    rfl
  · rw [ht]
    exact ⟨rfl, rfl, rfl⟩

namespace Told

theorem recounts (h : Told e) : e.status.Recounts e.world.events := by
  obtain ⟨s, hleads, hrests⟩ := h.stage
  have hdepth := hleads.depth
  have harrived := h.arrived
  have hended : e.tally.processed + e.tally.aborted = 0 + 0 + tells .unlock e.world.events :=
    h.tally.ended
  have haborted : e.tally.aborted = 0 + tells .abort e.world.events := h.tally.aborted
  have hdropped : e.tally.dropped = 0 + tells .drop e.world.events := h.tally.dropped
  constructor
  · change e.isBusy = true ↔ _
    rw [hrests.depth] at hdepth
    change _ + 0 = _ + _ at hdepth
    rw [isSome_asked?] at hdepth
    cases hbusy : e.isBusy <;> simp [hbusy] at hdepth ⊢ <;> omega
  · exact haborted.trans (Nat.zero_add _)
  · exact hdropped.trans (Nat.zero_add _)
  · change e.tally.processed + _ = _
    omega
  · change e.backlog.items.length + _ + _ = _
    omega

theorem adds (h : Told e) {ms : List (Milestone α)} (hw : e.world.Adds ms e'.world)
    (hms : ∀ inquiry status, .answered inquiry status ∉ ms) (hr : Relates (eventsOf ms) e e')
    (hserved : ∀ observer, World.Served observer e'.world) : Told e' := by
  have hevents : e'.world.events = e.world.events ++ eventsOf ms := by
    rw [World.events, hw.milestones, List.filterMap_append]
    rfl
  obtain ⟨s, hleads, hrests⟩ := h.stage
  obtain ⟨s', hleads', hrests'⟩ := hr.stage s hrests
  have harrived := h.arrived
  have harrived' := hr.arrived
  refine ⟨⟨s', ?_, hrests'⟩, ?_, ?_, hserved, ?_⟩
  · rw [hevents]
    exact hleads.append hleads'
  · rw [hevents, tells_append, tells_append, tells_append]
    omega
  · rw [hevents]
    exact h.tally.trans hr.tally
  · intro earlier inquiry status hprefix
    obtain ⟨fresh, hhistory, hfresh⟩ := hw.past
    rw [hhistory] at hprefix
    refine h.replies earlier inquiry status (prefix_of_notMem_append hprefix fun hmem => ?_)
    refine hms inquiry status ?_
    rw [← hfresh]
    exact List.mem_filterMap.mpr ⟨_, hmem, rfl⟩

end Told

theorem stageOf_rests (setup : Setup σ α) (c : Course α) :
    (stageOf c.action c.atWork).Rests (c.phase setup).asked? := by
  unfold Course.phase
  cases c.atWork with
  | none => exact ⟨rfl, rfl⟩
  | some work => exact rfl

/-- To undertake an action is to tell of one lock more. -/
theorem Relates.undertaken {e₁ : Engine σ α} {c : Course α} (hu : Undertaken setup c e₁ e')
    (ht : e₁.tally = e.tally) (hidle : e.isBusy = false) {summons : List (Event α)}
    {summoned : Option α}
    (hs : (Stage.outside none).Leads summons (.outside summoned))
    (harrived : tells .dispatch summons + e.backlog.items.length =
      tells .drop summons + tells .lock summons + (e₁.backlog.items.length + 1))
    (htold : e.tally.Told summons e.tally) :
    Relates (summons ++ eventsOf (c.milestones setup)) e e' := by
  have hstory := hu.follows.eventsOf_milestones
  obtain ⟨hdispatch, hdrop, hlock⟩ := c.story_tells setup
  refine ⟨fun s hrests => ?_, ?_, ?_⟩
  · rw [asked?_of_idle hidle] at hrests
    obtain rfl := hrests.outside
    refine ⟨stageOf c.action c.atWork, ?_, ?_⟩
    · rw [hstory]
      exact hs.append (hu.follows.story_leads summoned)
    · rw [hu.result]
      exact stageOf_rests setup c
  · have hbacklog : e'.backlog = e₁.backlog := by rw [hu.result]
    rw [hbacklog, hstory, tells_append, tells_append, tells_append]
    omega
  · have hcount : e'.tally = c.count setup e.tally := by
      rw [hu.result, ht]
    rw [hcount, hstory]
    exact htold.trans (c.story_told setup e.tally)

/-- To go on with an action adds what is told of it meanwhile. -/
theorem Relates.continued {c c' : Course α} (hf : c.Follows setup) (hp : e.phase = c.phase setup)
    {work : StoreName × Ticket} (hw : c.atWork = some work)
    (hc : Continued setup c c' e e') {ms : List (Milestone α)}
    (hms : c'.milestones setup = c.milestones setup ++ ms) (hcourse : ∀ m ∈ ms, m.inCourse = true) :
    Relates (eventsOf ms) e e' := by
  have hstory : c'.story setup = c.story setup ++ eventsOf ms := by
    rw [← hc.follows.eventsOf_milestones, hms, eventsOf_append, hf.eventsOf_milestones]
  have hleads := hc.follows.story_leads none
  rw [hstory] at hleads
  have hrest := (hf.story_leads none).cancel hleads
  rw [hw] at hrest
  refine ⟨fun s hrests => ?_, ?_, ?_⟩
  · have hasked : e.phase.asked? = some (work.1, c.action) := by
      rw [hp, Course.phase, hw]
      rfl
    have hgoal : e'.phase.asked? = (c'.phase setup).asked? := by
      rw [hc.result]
    rw [hasked] at hrests
    rw [hgoal]
    obtain ⟨overheard, rfl⟩ := hrests.asked
    exact hrest.recall (eventsOf_inCourse hcourse) overheard (stageOf_rests setup c')
  · obtain ⟨hdispatch, hdrop, hlock⟩ := c.story_tells setup
    obtain ⟨hdispatch', hdrop', hlock'⟩ := c'.story_tells setup
    have hbacklog : e'.backlog = e.backlog := by rw [hc.result]
    rw [hstory, tells_append] at hdispatch' hdrop' hlock'
    rw [hbacklog]
    omega
  · have hcount : e'.tally = c'.count setup e.tally := by rw [hc.result]
    have htold := c.story_told setup e.tally
    have htold' := c'.story_told setup e.tally
    rw [Course.count_of_atWork hf hw] at htold
    rw [hstory] at htold'
    rw [hcount]
    exact htold.cancel htold'

namespace Told

/-- A reply is the status of the engine, which the events so far amount to. -/
theorem reply (h : Told e) (inquiry : Inquiry) :
    Told { e with world := e.world.record (.answered inquiry (some e.status)) } := by
  have hreply : e.world.Adds [.answered inquiry e.status]
      (e.world.record (.answered inquiry (some e.status))) := .record _ (fun _ => rfl) rfl rfl
  have hevents : (e.world.record (.answered inquiry (some e.status))).events = e.world.events := by
    rw [World.events, hreply.milestones, List.filterMap_append]
    exact List.append_nil _
  refine ⟨?_, ?_, ?_, fun observer => (h.served observer).hands (.aside _ rfl rfl), ?_⟩
  · rw [hevents]
    exact h.stage
  · rw [hevents]
    exact h.arrived
  · rw [hevents]
    exact h.tally
  · intro earlier i status hprefix
    rw [World.history_record, List.prefix_concat_iff] at hprefix
    rcases hprefix with heq | hprefix
    · obtain ⟨rfl, hlast⟩ := List.append_inj' heq rfl
      cases hlast
      rw [← World.events_eq]
      exact ⟨h.served, h.recounts⟩
    · exact h.replies earlier i status hprefix

theorem act (h : Told e) (ha : Act setup e e') : Told e' := by
  have hserved : ∀ observer, World.Served observer e'.world :=
    fun observer => ha.preserves (World.served_preserved setup observer) (h.served observer)
  have hquiet : ∀ {ms : List (Milestone α)}, (∀ m ∈ ms, m.inCourse = true) →
      ∀ inquiry status, .answered inquiry status ∉ ms :=
    fun hcourse _ _ hmem => by cases hcourse _ hmem
  cases ha with
  | started hlife =>
    exact h.adds (World.Grows.note e.world (.started ..) rfl).toAdds (by simp) (.silent rfl rfl rfl)
      hserved
  | @begun action inbox c hh hidle hempty hc hu =>
    have hsummons : (Stage.outside none).Leads [.dispatch action] (.outside (some action)) :=
      .cons (.summon action) (.nil _)
    have harrived : 1 + e.backlog.items.length = 0 + 0 + (e.backlog.items.length + 1) := by omega
    have hrelates := Relates.undertaken (e := e) hu rfl hidle hsummons harrived ⟨rfl, rfl, rfl⟩
    refine h.adds ((hearing_adds setup action inbox e).trans hu.world.toAdds) ?_ hrelates hserved
    have hcourse := hquiet hu.follows.inCourse
    simp [hcourse]
  | @queued action inbox backlog hh hbusy hput =>
    obtain ⟨store, atWork, hasked⟩ := asked?_of_busy hbusy
    refine h.adds (hearing_adds setup action inbox e) (by simp) ⟨fun s hs => ?_, ?_, ?_⟩ hserved
    · rw [hasked] at hs
      obtain ⟨overheard, rfl⟩ := hs.asked
      exact ⟨_, .cons (.overhear overheard action) (.nil _), hasked⟩
    · change 1 + e.backlog.items.length = 0 + 0 + backlog.items.length
      rw [(Backlog.items_of_put_eq_ok hput).1, List.length_append, List.length_singleton]
      omega
    · exact ⟨rfl, rfl, rfl⟩
  | @dropped action inbox hh hbusy hfull =>
    obtain ⟨store, atWork, hasked⟩ := asked?_of_busy hbusy
    have hadds := (hearing_adds setup action inbox e).trans
      (dropping_grows setup action e.backlog.capacity (e.hearing setup action inbox)).toAdds
    refine h.adds hadds (by simp) ⟨fun s hs => ?_, ?_, ?_⟩ hserved
    · rw [hasked] at hs
      obtain ⟨overheard, rfl⟩ := hs.asked
      exact ⟨_, .cons (.overhear overheard action) (.cons (.drop action) (.nil _)), hasked⟩
    · change 1 + e.backlog.items.length = 1 + 0 + e.backlog.items.length
      omega
    · exact ⟨rfl, rfl, rfl⟩
  | @replied inquiry inbox hh =>
    have htaking : ∀ observer, World.Served observer (e.taking (.status inquiry) inbox).world :=
      fun observer => World.Served.hands (h.served observer) (.aside _ rfl rfl)
    have htaken := h.adds (taking_adds e (.status inquiry) inbox) (by simp) (.silent rfl rfl rfl)
      htaking
    exact htaken.reply inquiry
  | shut hh => exact h.adds (shutting_adds setup _ e) (by simp) (.silent rfl rfl rfl) hserved
  | deafened hlife hl hi hh => exact h.adds (.same rfl rfl) (by simp) (.silent rfl rfl rfl) hserved
  | continued hlife hl hf hp hw ho hc =>
    obtain ⟨ms, hms, hgrows, hcourse⟩ := hc.inCourse
    exact h.adds hgrows.toAdds (hquiet hcourse) (.continued hf hp hw hc hms hcourse) hserved
  | @resumed hlife hidle action backlog ho c hc hu =>
    have hitems := (Backlog.items_of_oldest?_eq_some ho).1
    have hrelates := Relates.undertaken (e := e) hu rfl hidle (.nil _)
      (by rw [hitems, List.length_cons]; rfl) ⟨rfl, rfl, rfl⟩
    exact h.adds hu.world.toAdds (hquiet hu.follows.inCourse) hrelates hserved
  | stopped hlife hp hl => exact h.adds (stop_adds e) (by simp) (.silent rfl rfl rfl) hserved

end Told

theorem Reachable.told (h : Reachable setup capacity e) : Told e := by
  refine h.preserves ?_ (fun ha h => h.act ha) ?_ ?_
  · intro host handles observers
    refine ⟨⟨_, .nil _, rfl, rfl⟩, rfl, ⟨rfl, rfl, rfl⟩, fun _ => rfl, ?_⟩
    intro earlier _ _ hprefix
    exact absurd (List.prefix_nil.mp hprefix) (by simp)
  · intro e reaction h
    refine h.adds (World.absorb_grows .outside reaction e.world).toAdds (by simp)
      (.silent rfl rfl rfl) fun observer => ?_
    exact (World.served_preserved setup observer).absorb .outside (fun _ _ => trivial)
      (h.served observer)
  · intro e h
    obtain ⟨hphase, hbacklog, htally, -⟩ := kill_same e
    exact h.adds (kill_adds e) (by simp) (.silent hphase hbacklog htally) fun observer =>
      kill_preserves (World.served_preserved setup observer) (h.served observer)

/-- What an observer that is listed throughout has received keeps to the grammar of events, and the
status of the engine can be counted off it: at the head of the loop, and in every reply. -/
theorem events_narrated (h : Reachable setup capacity e) {observer : ObserverName}
    (hlisted : ListedIn observer e.world.history) :
    Narrated (e.world.received observer) e.phase.asked? ∧
      e.status.Recounts (e.world.received observer) ∧
      ∀ earlier inquiry status later,
        e.world.history = earlier ++ .answered inquiry (some status) :: later →
        status.Recounts (earlier.filterMap (Entry.received? observer)) := by
  have htold := h.told
  have hreceived : e.world.received observer = e.world.events := by
    rw [World.events_eq]
    exact (htold.served observer).received hlisted
  obtain ⟨s, hleads, hrests⟩ := htold.stage
  rw [hreceived]
  refine ⟨hleads.narrated hrests, htold.recounts, ?_⟩
  intro earlier inquiry status later hsplit
  have hprefix : earlier ++ [.answered inquiry (some status)] <+: e.world.history := by
    rw [hsplit]
    exact (List.prefix_append_right_inj _).mpr (List.cons_prefix_cons.mpr ⟨rfl, List.nil_prefix⟩)
  obtain ⟨hserved, hrecounts⟩ := htold.replies earlier inquiry status hprefix
  rw [(hserved observer).received fun event observers hmem => hlisted event observers ?_]
  · exact hrecounts
  · rw [hsplit]
    exact List.mem_append_left _ hmem

end Engine

/-- All that the stores of `relay` ever ask for is to acknowledge. -/
theorem relay_asks {Q : Request Nat → Prop} (h : ∀ ticket, Q (.resolve ticket .ack)) :
    relay.Asks Q where
  stores := by
    intro entry hmem
    simp only [relay, List.mem_cons, List.not_mem_nil, or_false] at hmem
    rcases hmem with rfl | rfl
    · exact ⟨fun _ _ => by simp [Reaction.Asks], fun _ _ _ => by simp [Reaction.Asks],
        fun _ _ => by simp [Reaction.Asks]⟩
    · exact ⟨fun _ _ => by simp [Reaction.Asks],
        fun _ ticket _ => by simpa [Reaction.Asks] using h ticket,
        fun _ _ => by simp [Reaction.Asks]⟩
  observers _ _ _ := by simp [relay, Reaction.Asks]

/-- A run that one observer follows from the start. -/
def followedRun : Engine Unit Nat :=
  let sent := (Engine.initial 1 (.initial () 1 [⟨"r"⟩])).interact ⟨(),
    [.send (.dispatch 7), .send (.dispatch 8), .send (.dispatch 9), .send (.status 1)], ()⟩
  ((sent.takeTurns relay 5).interact ⟨(), [.resolve 2 .abandoned], ()⟩).takeTurns relay 1

theorem followedRun_run : Engine.Run relay (· ≠ .unwatch ⟨"r"⟩)
    (.initial 1 (.initial () 1 [⟨"r"⟩])) followedRun :=
  .takeTurns (.outside (.takeTurns (.outside .refl _ (by simp [Reaction.Asks])) 5) _
    (by simp [Reaction.Asks])) 1

namespace Engine

theorem followedRun_narrated :
    Reachable relay 1 followedRun ∧ ListedIn ⟨"r"⟩ followedRun.world.history ∧
      followedRun.phase.asked? = some (⟨"a"⟩, 8) ∧
      followedRun.world.received ⟨"r"⟩ =
        [.dispatch 7, .lock, .execute ⟨"b"⟩ 7, .ack ⟨"b"⟩ 7, .execute ⟨"a"⟩ 7, .dispatch 8,
          .dispatch 9, .drop 9, .nack ⟨"a"⟩ 7 .abandoned, .unlock,
          .lock, .execute ⟨"b"⟩ 8, .ack ⟨"b"⟩ 8, .execute ⟨"a"⟩ 8] ∧
      Narrated (followedRun.world.received ⟨"r"⟩) followedRun.phase.asked? ∧
      followedRun.status.Recounts (followedRun.world.received ⟨"r"⟩) := by
  have hreachable := followedRun_run.reachable (.initial () 1 [⟨"r"⟩])
  have hlisted : ListedIn ⟨"r"⟩ followedRun.world.history :=
    followedRun_run.listed (by simp) (by simp) (relay_asks (by simp))
  have hnarrated := events_narrated hreachable hlisted
  exact ⟨hreachable, hlisted, by cbv, by cbv, hnarrated.1, hnarrated.2.1⟩

end Engine

end Concord
