import Concord.Proofs.Engine.Journals
import Concord.Proofs.Engine.Shutdown

/-!
# Dispatches that find the inbox closed

An action that is dispatched is sent, or refused when the inbox takes no more. A journal tells which
actions were dispatched, by whomever: through a handle, of which there may be none left. Moves that
begin with an open inbox refuse nothing, and moves that begin with a closed one send nothing, so
what is refused is exactly what was dispatched too late.
-/
namespace Concord

variable {σ α : Type}

namespace Request

def action? : Request α → Option α
  | send message => message.action?
  | _ => none

/-- How many handles there are after the request. Where there is none, none can be cloned. -/
def hold (handles : Nat) : Request α → Nat
  | clone => if handles = 0 then 0 else handles + 1
  | release => handles - 1
  | _ => handles

end Request

/-- The actions that are dispatched by the requests, which takes a handle. -/
def dispatches : Nat → List (Request α) → List α
  | _, [] => []
  | handles, request :: rest =>
    (if handles = 0 then [] else request.action?.toList) ++ dispatches (request.hold handles) rest

theorem dispatches_append (handles : Nat) (requests more : List (Request α)) :
    dispatches handles (requests ++ more) =
      dispatches handles requests ++ dispatches (requests.foldl Request.hold handles) more := by
  induction requests generalizing handles with
  | nil => rfl
  | cons request rest ih =>
    rw [List.cons_append, dispatches, ih, dispatches, List.append_assoc]
    rfl

namespace Entry

def sentAction? : Entry α → Option α
  | sent message => message.action?
  | _ => none

def refused? : Entry α → Option α
  | noted (.refused action) => some action
  | _ => none

/-- The action that is dispatched in this step, whether it finds the inbox open or not. -/
def dispatched? (entry : Entry α) : Option α := entry.sentAction? <|> entry.refused?

theorem refused?_of_isOwn {entry : Entry α} (h : entry.isOwn = true) : entry.refused? = none := by
  cases entry with
  | noted notice => cases notice <;> first | rfl | cases h
  | _ => rfl

theorem sentAction?_of_isOwn {entry : Entry α} (h : entry.isOwn = true) :
    entry.sentAction? = none := by
  cases entry <;> first | rfl | cases h

end Entry

namespace World

/-- The actions that were put into the inbox, in order. -/
def sentActions (w : World σ α) : List α := w.history.filterMap Entry.sentAction?

/-- The actions that found the inbox closed, in order. -/
def refused (w : World σ α) : List α := w.history.filterMap Entry.refused?

/-- The actions that were dispatched, in order. -/
def dispatched (w : World σ α) : List α := w.history.filterMap Entry.dispatched?

theorem perform_handles (speaker : Speaker) (w : World σ α) (request : Request α) :
    (w.perform speaker request).handles = request.hold w.handles := by
  cases request with
  | send message =>
    change (w.send message).handles = w.handles
    unfold send
    split
    · rfl
    split
    · rfl
    · cases message <;> rfl
  | clone =>
    change World.handles (if w.handles = 0 then w else _) = if w.handles = 0 then 0 else _
    split
    · assumption
    · rfl
  | watch observer =>
    change (w.watch observer).handles = w.handles
    unfold watch
    split <;> rfl
  | resolve ticket outcome =>
    change (w.resolve ticket outcome).handles = w.handles
    unfold resolve
    split <;> rfl
  | release | unwatch | write => rfl

/-- Through a handle an action is sent to an open inbox, and refused by a closed one. -/
theorem filed?_dispatch (speaker : Speaker) (w : World σ α) (request : Request α) :
    (w.filed? speaker request).bind Entry.sentAction? =
        (if w.handles = 0 ∨ w.isOpen = false then none else request.action?) ∧
      (w.filed? speaker request).bind Entry.refused? =
        (if w.handles = 0 ∨ w.isOpen = true then none else request.action?) ∧
      (w.filed? speaker request).bind Entry.dispatched? =
        if w.handles = 0 then none else request.action? := by
  cases request with
  | send message =>
    by_cases hhandles : w.handles = 0
    · simp [filed?, hhandles]
    · cases hopen : w.isOpen <;> cases message <;>
        simp [filed?, hhandles, hopen, Entry.sentAction?, Entry.refused?, Entry.dispatched?,
          Request.action?, Message.action?]
  | resolve ticket outcome =>
    by_cases hsettles : w.channel.ticket = ticket ∧ w.channel.outcome = none <;>
      simp [filed?, hsettles, Entry.sentAction?, Entry.refused?, Entry.dispatched?,
        Request.action?]
  | _ =>
    simp [filed?, Entry.sentAction?, Entry.refused?, Entry.dispatched?, Request.action?]

variable (w : World σ α) (entry : Entry α)

theorem sentActions_record :
    (w.record entry).sentActions = w.sentActions ++ entry.sentAction?.toList :=
  filterMap_record ..

theorem refused_record : (w.record entry).refused = w.refused ++ entry.refused?.toList :=
  filterMap_record ..

theorem dispatched_record :
    (w.record entry).dispatched = w.dispatched ++ entry.dispatched?.toList :=
  filterMap_record ..

variable (speaker : Speaker) (request : Request α)

theorem sentActions_perform : (w.perform speaker request).sentActions = w.sentActions ++
    (if w.handles = 0 ∨ w.isOpen = false then none else request.action?).toList := by
  rw [← (filed?_dispatch speaker w request).1]
  exact filterMap_perform ..

theorem refused_perform : (w.perform speaker request).refused = w.refused ++
    (if w.handles = 0 ∨ w.isOpen = true then none else request.action?).toList := by
  rw [← (filed?_dispatch speaker w request).2.1]
  exact filterMap_perform ..

theorem dispatched_perform : (w.perform speaker request).dispatched = w.dispatched ++
    (if w.handles = 0 then none else request.action?).toList := by
  rw [← (filed?_dispatch speaker w request).2.2]
  exact filterMap_perform ..

/-- The requests in the journal account for the handles and for what was dispatched. -/
structure Dispatches (held : Nat) (w : World σ α) (journal : List (Line α)) : Prop where
  handles : w.handles = (journal.flatMap Line.requests).foldl Request.hold held
  dispatched : w.dispatched = dispatches held (journal.flatMap Line.requests)

namespace Dispatches

variable {held : Nat} {w : World σ α} {journal : List (Line α)}

theorem record (h : Dispatches held w journal) {entry : Entry α}
    (hentry : entry.dispatched? = none) : Dispatches held (w.record entry) journal := by
  refine ⟨h.handles, ?_⟩
  rw [dispatched_record, hentry, Option.toList_none, List.append_nil]
  exact h.dispatched

/-- What is asked for in a call is done request by request. -/
theorem performed (h : Dispatches held w journal) (entry : Option (Entry α)) (speaker : Speaker)
    (requests : List (Request α)) :
    Dispatches held (requests.foldl (perform speaker) w) (journal ++ [⟨entry, requests⟩]) := by
  have hall : ∀ w : World σ α,
      (requests.foldl (perform speaker) w).handles = requests.foldl Request.hold w.handles ∧
        (requests.foldl (perform speaker) w).dispatched =
          w.dispatched ++ dispatches w.handles requests := by
    induction requests with
    | nil => exact fun w => ⟨rfl, (List.append_nil _).symm⟩
    | cons request rest ih =>
      intro w
      obtain ⟨hrest, hmore⟩ := ih (w.perform speaker request)
      rw [perform_handles] at hrest hmore
      rw [dispatched_perform, List.append_assoc] at hmore
      refine ⟨hrest, hmore.trans ?_⟩
      rw [dispatches]
      by_cases hnone : w.handles = 0 <;> simp [hnone]
  obtain ⟨hhandles, hdispatched⟩ := hall w
  constructor
  · rw [hhandles, h.handles, List.flatMap_append, List.flatMap_singleton, List.foldl_append]
  · rw [hdispatched, h.dispatched, h.handles, List.flatMap_append, List.flatMap_singleton,
      dispatches_append]

end Dispatches

theorem journals_dispatches (setup : Setup σ α) (held : Nat) :
    Journals setup (Dispatches held) where
  speak {w journal entry speaker act} hs h := by
    have hrecorded : Dispatches held (entry.elim w w.record) journal := by
      cases hs with
      | outside => exact h
      | _ => exact h.record rfl
    have hhosted : Dispatches held { entry.elim w w.record with host := (act w.host).host }
        journal := ⟨hrecorded.handles, hrecorded.dispatched⟩
    exact hhosted.performed entry speaker (act w.host).requests
  announced _ h := h.record rfl
  record {w journal entry} hentry h := by
    apply h.record
    cases entry with
    | noted notice => cases notice <;> first | rfl | cases hentry
    | _ => first | rfl | cases hentry
  channel _ h := ⟨h.handles, h.dispatched⟩
  inbox _ h := ⟨h.handles, h.dispatched⟩
  close h := ⟨h.handles, h.dispatched⟩

/-- What was refused was dispatched after all that was sent, and not while the inbox is open. -/
structure InTime (w : World σ α) : Prop where
  dispatched : w.dispatched = w.sentActions ++ w.refused
  welcome : w.isOpen = true → w.refused = []

namespace InTime

variable {w : World σ α}

theorem record (h : w.InTime) {entry : Entry α} (hsent : entry.sentAction? = none)
    (hrefused : entry.refused? = none) : (w.record entry).InTime := by
  have hentry : entry.dispatched? = none := by rw [Entry.dispatched?, hsent, hrefused]; rfl
  constructor
  · rw [dispatched_record, sentActions_record, refused_record, hsent, hrefused, hentry]
    simpa using h.dispatched
  · intro hopen
    rw [refused_record, hrefused, h.welcome hopen]
    rfl

theorem perform (h : w.InTime) (speaker : Speaker) (request : Request α) :
    (w.perform speaker request).InTime := by
  constructor
  · rw [dispatched_perform, sentActions_perform, refused_perform, h.dispatched]
    -- An open inbox has refused nothing so far, so what is sent now comes last.
    cases hopen : w.isOpen with
    | true => simp [h.welcome hopen]
    | false => simp
  · intro hopen
    rw [(perform_grows speaker w request).isOpen] at hopen
    rw [refused_perform, h.welcome hopen, if_pos (.inr hopen)]
    rfl

end InTime

theorem inTime_preserved (setup : Setup σ α) :
    Preserved setup (fun _ => True) (InTime (σ := σ) (α := α)) :=
  have hperform : ∀ {w : World σ α} speaker request, True → w.InTime →
      (w.perform speaker request).InTime := fun speaker request _ h => h.perform speaker request
  { asks := setup.asks_anything
    announce := announce_preserves setup.asks_anything (fun _ h => h.record rfl rfl)
      (fun _ _ h => h.record rfl rfl) (fun _ _ _ h => h.record rfl rfl)
      (fun _ h => ⟨h.dispatched, h.welcome⟩) hperform
    record := fun _ hown h =>
      h.record (Entry.sentAction?_of_isOwn hown) (Entry.refused?_of_isOwn hown)
    host := fun _ h => ⟨h.dispatched, h.welcome⟩
    channel := fun _ h => ⟨h.dispatched, h.welcome⟩
    perform := hperform
    take := fun _ _ _ h => ⟨h.dispatched, h.welcome⟩
    close := fun h => ⟨h.dispatched, fun hopen => by cases hopen⟩
    discard := discardInbox_preserves (fun h => ⟨h.dispatched, fun hopen => by cases hopen⟩)
      fun _ h => h.record rfl rfl }

/-- The inbox is closed, and these actions have been put into it. -/
structure Shut (actions : List α) (w : World σ α) : Prop where
  isOpen : w.isOpen = false
  sent : w.sentActions = actions

theorem Shut.record {actions : List α} {w : World σ α} (h : Shut actions w) {entry : Entry α}
    (hsent : entry.sentAction? = none) : Shut actions (w.record entry) := by
  refine ⟨h.isOpen, ?_⟩
  rw [sentActions_record, hsent, Option.toList_none, List.append_nil]
  exact h.sent

theorem Shut.perform {actions : List α} {w : World σ α} (h : Shut actions w) (speaker : Speaker)
    (request : Request α) : Shut actions (w.perform speaker request) := by
  refine ⟨(perform_grows speaker w request).isOpen.trans h.isOpen, ?_⟩
  rw [sentActions_perform, if_pos (.inr h.isOpen), Option.toList_none, List.append_nil]
  exact h.sent

theorem shut_preserved (setup : Setup σ α) (actions : List α) :
    Preserved setup (fun _ => True) (Shut (σ := σ) actions) :=
  have hperform : ∀ {w : World σ α} speaker request, True → Shut actions w →
      Shut actions (w.perform speaker request) := fun speaker request _ h =>
    h.perform speaker request
  { asks := setup.asks_anything
    announce := announce_preserves setup.asks_anything (fun _ h => h.record rfl)
      (fun _ _ h => h.record rfl) (fun _ _ _ h => h.record rfl) (fun _ h => ⟨h.isOpen, h.sent⟩)
      hperform
    record := fun _ hown h => h.record (Entry.sentAction?_of_isOwn hown)
    host := fun _ h => ⟨h.isOpen, h.sent⟩
    channel := fun _ h => ⟨h.isOpen, h.sent⟩
    perform := hperform
    take := fun _ _ _ h => ⟨h.isOpen, h.sent⟩
    close := fun h => ⟨rfl, h.sent⟩
    discard := discardInbox_preserves (fun h => ⟨rfl, h.sent⟩) fun _ h => h.record rfl }

theorem refused_discardInbox (w : World σ α) : w.discardInbox.refused = w.refused := by
  refine discardInbox_preserves (P := fun v => v.refused = w.refused) (fun h => h) ?_ rfl
  intro v inquiry h
  rw [refused_record]
  exact (List.append_nil _).trans h

end World

namespace Engine

variable {setup : Setup σ α} {capacity : Nat} {e e' : Engine σ α}

theorem Onward.isOpen (h : Onward e e') : e'.world.isOpen = e.world.isOpen := by
  obtain ⟨ms, hgrows, -⟩ := h.world
  exact hgrows.isOpen

theorem undertakeWaiting_isOpen (setup : Setup σ α) (hr : e.world.ChannelOnRecord) :
    (e.undertakeWaiting setup).world.isOpen = e.world.isOpen :=
  (undertakeUpTo_onward setup _ e hr).isOpen

/-- To accept an action does not close the inbox. -/
theorem Sound.accept_isOpen (h : Sound setup capacity e) (action : α) (inbox : List (Message α)) :
    ((e.taking (.dispatch action) inbox).accept setup action).world.isOpen = e.world.isOpen := by
  have hheard : (e.hearing setup action inbox).world.isOpen = e.world.isOpen :=
    (World.announce_grows setup _ _).isOpen
  rcases accept_cases setup action (e.taking (.dispatch action) inbox) with
    ⟨-, haccept⟩ | ⟨-, backlog, -, haccept⟩ | ⟨-, -, haccept⟩
  · have hr := (hearing_adds setup action inbox e).onRecord h.onRecord
    have honward := (undertake_onward setup action (e.hearing setup action inbox) hr).1
    rw [haccept]
    exact ((undertakeWaiting_isOpen setup (honward.onRecord hr)).trans honward.isOpen).trans hheard
  · rw [haccept]
    exact hheard
  · rw [haccept]
    exact (dropping_grows setup action e.backlog.capacity _).isOpen.trans hheard

/-- A step that closes the inbox refuses nothing. -/
theorem Sound.turned_refused (h : Sound setup capacity e) (ht : Turned setup e e') :
    e'.world.isOpen = e.world.isOpen ∨ e'.world.refused = e.world.refused := by
  cases ht with
  | started hlife => exact .inl rfl
  | @read hlife hl message inbox hi =>
    cases message with
    | dispatch action => exact .inl (h.accept_isOpen action inbox)
    | status inquiry => exact .inl rfl
    | shutdown =>
      right
      have htaken : (e.taking .shutdown inbox).world.refused = e.world.refused :=
        (World.refused_record _ _).trans (List.append_nil _)
      exact ((World.refused_record _ _).trans (List.append_nil _)).trans htaken
  | deafened hlife hl hi hh => exact .inl rfl
  | proceeded hlife hp hl ho =>
    obtain ⟨intakes, hc⟩ := h.chronicled
    obtain ⟨-, honward, -⟩ := hc.carryOn hp ho
    exact .inl ((undertakeWaiting_isOpen setup (honward.onRecord h.onRecord)).trans honward.isOpen)
  | stopped hlife hp hl =>
    right
    exact (World.refused_discardInbox _).trans
      ((World.refused_record _ _).trans (List.append_nil _))

theorem Sound.move_refused (h : Sound setup capacity e) (m : Move σ α) :
    (e.move setup m).world.isOpen = e.world.isOpen ∨
      (e.move setup m).world.refused = e.world.refused := by
  cases m with
  | turn =>
    unfold move
    cases ht : e.turn? setup with
    | none => exact .inl rfl
    | some e' => exact h.turned_refused (turn_turned ht)
  | outside act => exact .inl (World.absorb_grows .outside (act e.world.host) e.world).isOpen
  | kill =>
    right
    change e.kill.world.refused = e.world.refused
    unfold kill
    split <;> first | rfl | exact World.refused_discardInbox e.world

theorem Reachable.inTime (h : Reachable setup capacity e) : e.world.InTime :=
  h.keeps (World.inTime_preserved setup) fun _ _ _ => ⟨rfl, fun _ => rfl⟩

/-- A move that begins with an open inbox refuses nothing. -/
theorem Reachable.refused_of_open (h : Reachable setup capacity e) (hopen : e.world.isOpen = true)
    (m : Move σ α) : (e.move setup m).world.refused = [] := by
  rcases h.sound.move_refused m with hstill | hsame
  · exact (h.move m).inTime.welcome (hstill.trans hopen)
  · exact hsame.trans (h.inTime.welcome hopen)

theorem move_run (setup : Setup σ α) (e : Engine σ α) (m : Move σ α) :
    Run setup (fun _ => True) e (e.move setup m) := by
  cases m with
  | turn =>
    unfold move
    cases ht : e.turn? setup with
    | none => exact .refl
    | some e' => exact .turn .refl ht
  | outside act => exact .outside .refl _ fun _ _ => trivial
  | kill => exact .kill .refl

/-- A move that begins with a closed inbox sends nothing. -/
theorem Reachable.sentActions_of_closed (h : Reachable setup capacity e)
    (hclosed : e.world.isOpen = false) (m : Move σ α) :
    (e.move setup m).world.sentActions = e.world.sentActions :=
  ((move_run setup e m).keeps (World.shut_preserved setup e.world.sentActions) h
    ⟨hclosed, rfl⟩).sent

variable (setup : Setup σ α) (capacity : Nat) (host : σ) (handles : Nat)
  (registered : List ObserverName) (moves : List (Move σ α))

/-- Whatever is dispatched in a run, by whomever, is on record. -/
theorem attended_dispatched :
    (attended setup capacity host handles registered moves).world.dispatched =
      dispatches handles (asked setup capacity host handles registered moves) := by
  have hbuilt : World.Dispatches handles
      (registered.foldl World.watch (.initial host handles []) : World σ α)
      [⟨none, registered.map .watch⟩] := by
    have hinitial : World.Dispatches handles (.initial host handles [] : World σ α) [] := ⟨rfl, rfl⟩
    have hwatched := hinitial.performed none .outside (registered.map .watch)
    rw [List.foldl_map] at hwatched
    exact hwatched
  exact (attended_attests moves (World.journals_dispatches setup handles) hbuilt).dispatched

/-- What becomes of the actions that are dispatched in a run: they are sent, one after the other,
and refused from the move on that finds the inbox closed. -/
structure SettlesDispatches : Prop where
  all : dispatches handles (asked setup capacity host handles registered moves) =
    (attended setup capacity host handles registered moves).world.sentActions ++
      (attended setup capacity host handles registered moves).world.refused
  whileOpen : ∀ before m, before ++ [m] <+: moves →
    (attended setup capacity host handles registered before).world.isOpen = true →
      (attended setup capacity host handles registered (before ++ [m])).world.refused = []
  onceClosed : ∀ before m, before ++ [m] <+: moves →
    (attended setup capacity host handles registered before).world.isOpen = false →
      (attended setup capacity host handles registered (before ++ [m])).world.sentActions =
        (attended setup capacity host handles registered before).world.sentActions

theorem attended_concat (m : Move σ α) :
    attended setup capacity host handles registered (moves ++ [m]) =
      (attended setup capacity host handles registered moves).move setup m :=
  play_append _ moves [m]

theorem attended_settlesDispatches :
    SettlesDispatches setup capacity host handles registered moves := by
  have hreachable := attended_reachable setup capacity host handles registered
  refine ⟨?_, fun before m _ hopen => ?_, fun before m _ hclosed => ?_⟩
  · rw [← attended_dispatched]
    exact (hreachable moves).inTime.dispatched
  · rw [attended_concat]
    exact (hreachable before).refused_of_open hopen m
  · rw [attended_concat]
    exact (hreachable before).sentActions_of_closed hclosed m

end Engine

end Concord
