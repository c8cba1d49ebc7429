import Concord.Proofs.Engine.Preservation

/-!
# What an observer receives

An event is handed to the observers that are listed when it is announced, as often as they are
listed. An observer that is listed once in every announcement has therefore received exactly the
events of the run, whatever other observers and stores ask for meanwhile.
-/
namespace Concord

variable {σ α : Type}

namespace Entry

/-- What the observer is to receive after this step. -/
def due (observer : ObserverName) : Entry α → List (Event α)
  | announced event observers => .replicate (observers.count observer) event
  | _ => []

def event? : Entry α → Option (Event α)
  | announced event _ => some event
  | _ => none

end Entry

def Milestone.event? : Milestone α → Option (Event α)
  | announced event => some event
  | _ => none

/-- The observer is listed once in every announcement. -/
def ListedIn (observer : ObserverName) (history : List (Entry α)) : Prop :=
  ∀ event observers, .announced event observers ∈ history → observers.count observer = 1

/-- The observer has received all that it was to receive. -/
def ServedIn (observer : ObserverName) (history : List (Entry α)) : Prop :=
  history.filterMap (Entry.received? observer) = history.flatMap (Entry.due observer)

/-- An observer that is listed once each time has received the events as they were announced. -/
theorem ServedIn.received {observer : ObserverName} {history : List (Entry α)}
    (h : ServedIn observer history) (hlisted : ListedIn observer history) :
    history.filterMap (Entry.received? observer) = history.filterMap Entry.event? := by
  rw [h, List.filterMap_eq_flatMap_toList]
  refine List.flatMap_congr fun entry hmem => ?_
  cases entry with
  | announced event observers =>
    rw [Entry.due, hlisted event observers hmem]
    rfl
  | _ => rfl

namespace World

/-- The events that were announced, in order. -/
def events (w : World σ α) : List (Event α) := w.milestones.filterMap Milestone.event?

theorem events_eq (w : World σ α) : w.events = w.history.filterMap Entry.event? := by
  rw [events, milestones, List.filterMap_filterMap]
  refine List.filterMap_congr fun entry _ => ?_
  cases entry with
  | noted notice =>
    change (if notice.isOwn then _ else none).bind _ = none
    split <;> rfl
  | answered inquiry status => cases status <;> rfl
  | _ => rfl

/-- Meanwhile the observer has received these events, and nothing has been announced. -/
def Hands (observer : ObserverName) (events : List (Event α)) (w w' : World σ α) : Prop :=
  ∃ fresh, w'.history = w.history ++ fresh ∧
    fresh.filterMap (Entry.received? observer) = events ∧ fresh.flatMap (Entry.due observer) = []

namespace Hands

variable {observer : ObserverName} {events more : List (Event α)} {w w' w'' : World σ α}

theorem refl (w : World σ α) : Hands observer [] w w := ⟨[], (List.append_nil _).symm, rfl, rfl⟩

theorem trans (h : Hands observer events w w') (h' : Hands observer more w' w'') :
    Hands observer (events ++ more) w w'' := by
  obtain ⟨fresh, hh, hr, hd⟩ := h
  obtain ⟨fresh', hh', hr', hd'⟩ := h'
  refine ⟨fresh ++ fresh', ?_, ?_, ?_⟩
  · rw [hh', hh, List.append_assoc]
  · rw [List.filterMap_append, hr, hr']
  · rw [List.flatMap_append, hd, hd', List.append_nil]

/-- A step that neither announces nor delivers anything. -/
theorem aside (w : World σ α) {entry : Entry α} (hr : entry.received? observer = none)
    (hd : entry.due observer = []) : Hands observer [] w (w.record entry) := by
  refine ⟨[entry], history_record w entry, ?_, ?_⟩
  · rw [List.filterMap_cons, hr]
    rfl
  · rw [List.flatMap_singleton, hd]

theorem noted (observer : ObserverName) (w : World σ α) (notice : Notice α) :
    Hands observer [] w (w.note notice) := aside w rfl rfl

theorem delivered (observer : ObserverName) (w : World σ α) (receiver : ObserverName)
    (event : Event α) :
    Hands observer (if receiver = observer then [event] else []) w
      (w.record (.delivered receiver event)) := by
  refine ⟨[.delivered receiver event], history_record w _, ?_, rfl⟩
  by_cases h : receiver = observer <;> simp [Entry.received?, h]

theorem perform (speaker : Speaker) (w : World σ α) (request : Request α) :
    Hands observer [] w (w.perform speaker request) := by
  rcases perform_past speaker w request with hp | ⟨entry, hp, hasked, -⟩
  · exact ⟨[], by rw [history, hp, List.append_nil, history], rfl, rfl⟩
  · have haside : Hands observer [] w (w.record entry) := by
      apply aside
      · cases entry <;> first | rfl | cases hasked
      · cases entry <;> first | rfl | cases hasked
    obtain ⟨fresh, hh, hrest⟩ := haside
    exact ⟨fresh, by rw [history, hp]; exact hh, hrest⟩

theorem absorb {β : Type} (speaker : Speaker) (reaction : Reaction σ α β) (w : World σ α) :
    Hands observer [] w (w.absorb speaker reaction) := by
  have hhost : Hands observer [] w { w with host := reaction.host } := refl w
  exact List.foldlRecOn (motive := Hands observer [] w) reaction.requests _ hhost
    fun _ h request _ => h.trans (perform speaker _ request)

theorem hand (setup : Setup σ α) (observer : ObserverName) (event : Event α) (w : World σ α)
    (receiver : ObserverName) :
    Hands observer (if receiver = observer then [event] else []) w
      (World.hand setup event w receiver) := by
  have habsorbed := (delivered observer w receiver event).trans
    (absorb (.observer receiver) (setup.observe receiver event w.host) _)
  rw [List.append_nil] at habsorbed
  unfold World.hand
  dsimp only
  cases (setup.observe receiver event w.host).answer with
  | none => exact habsorbed
  | some why =>
    have hnoted := habsorbed.trans (noted observer _ (.observerFailed receiver event.kind why))
    rw [List.append_nil] at hnoted
    exact hnoted

theorem hands (setup : Setup σ α) (observer : ObserverName) (event : Event α)
    (observers : List ObserverName) (w : World σ α) :
    Hands observer (.replicate (observers.count observer) event) w
      (observers.foldl (World.hand setup event) w) := by
  induction observers generalizing w with
  | nil => exact refl w
  | cons receiver rest ih =>
    have hrest := (hand setup observer event w receiver).trans (ih _)
    by_cases h : receiver = observer
    · subst h
      rw [if_pos rfl, List.singleton_append, ← List.replicate_succ] at hrest
      rw [List.count_cons_self]
      exact hrest
    · rw [if_neg h, List.nil_append] at hrest
      rw [List.count_cons_of_ne h]
      exact hrest

end Hands

/-- The observer has received all that it was to receive. -/
def Served (observer : ObserverName) (w : World σ α) : Prop := ServedIn observer w.history

namespace Served

variable {observer : ObserverName} {w w' : World σ α}

theorem hands (h : Served observer w) (hh : Hands observer [] w w') : Served observer w' := by
  obtain ⟨fresh, hhistory, hr, hd⟩ := hh
  rw [Served, ServedIn, hhistory, List.filterMap_append, List.flatMap_append, hr, hd,
    List.append_nil, List.append_nil]
  exact h

/-- The announcement of an event and its deliveries even out. -/
theorem announce (setup : Setup σ α) (h : Served observer w) (event : Event α) :
    Served observer (w.announce setup event) := by
  obtain ⟨fresh, hhistory, hr, hd⟩ :=
    Hands.hands setup observer event w.observers (w.record (.announced event w.observers))
  have hwhole : (w.announce setup event).history =
      w.history ++ .announced event w.observers :: fresh := by
    rw [World.announce, hhistory, history_record, List.append_assoc]
    rfl
  rw [Served, ServedIn, hwhole, List.filterMap_append, List.flatMap_append, List.flatMap_cons, hd,
    List.append_nil, h]
  exact congrArg _ hr

end Served

theorem served_preserved (setup : Setup σ α) (observer : ObserverName) :
    Preserved setup (fun _ => True) (Served (σ := σ) (α := α) observer) := by
  have hanswer : ∀ {w : World σ α} inquiry, Served observer w →
      Served observer (w.record (.answered inquiry none)) :=
    fun _ h => h.hands (.aside _ rfl rfl)
  exact
    { asks := setup.asks_anything
      announce := fun event h => h.announce setup event
      record := fun entry howned h => h.hands (.aside _
        (by cases entry <;> first | rfl | cases howned)
        (by cases entry <;> first | rfl | cases howned))
      host := fun _ h => h
      channel := fun _ h => h
      perform := fun speaker request _ h => h.hands (.perform speaker _ request)
      take := fun _ _ _ h => h
      close := fun h => h
      discard := discardInbox_preserves (fun h => h) hanswer }

/-- The observer is on the list, once, and has been in every announcement. -/
structure Enrolled (observer : ObserverName) (w : World σ α) : Prop where
  mem : observer ∈ w.observers
  nodup : w.observers.Nodup
  listed : ListedIn observer w.history

namespace Enrolled

variable {observer : ObserverName} {w : World σ α}

theorem record (h : Enrolled observer w) {entry : Entry α}
    (he : ∀ event observers, entry = .announced event observers → observers.count observer = 1) :
    Enrolled observer (w.record entry) := by
  refine ⟨h.mem, h.nodup, fun event observers hmem => ?_⟩
  rw [history_record, List.mem_append, List.mem_singleton] at hmem
  rcases hmem with hold | hnew
  · exact h.listed event observers hold
  · exact he event observers hnew.symm

theorem announced (h : Enrolled observer w) (event : Event α) :
    Enrolled observer (w.record (.announced event w.observers)) := by
  refine h.record ?_
  rintro _ _ ⟨⟩
  exact List.count_eq_one_of_mem h.nodup h.mem

/-- Only a request to remove the observer itself takes it off the list. -/
theorem perform (h : Enrolled observer w) (speaker : Speaker) {request : Request α}
    (hr : request ≠ .unwatch observer) : Enrolled observer (w.perform speaker request) := by
  have hlist : observer ∈ (w.perform speaker request).observers ∧
      (w.perform speaker request).observers.Nodup := by
    cases request with
    | send message =>
      have hsame : (w.send message).observers = w.observers := by
        unfold send
        split
        · rfl
        split
        · rfl
        · cases message <;> rfl
      rw [World.perform, hsame]
      exact ⟨h.mem, h.nodup⟩
    | clone =>
      change observer ∈ World.observers (if w.handles = 0 then w else _) ∧
        (World.observers (if w.handles = 0 then w else _)).Nodup
      split <;> exact ⟨h.mem, h.nodup⟩
    | release => exact ⟨h.mem, h.nodup⟩
    | watch other =>
      change observer ∈ (w.watch other).observers ∧ (w.watch other).observers.Nodup
      unfold watch
      split
      · exact ⟨h.mem, h.nodup⟩
      · rename_i hother
        refine ⟨List.mem_append_left _ h.mem, ?_⟩
        rw [← List.concat_eq_append]
        exact h.nodup.concat hother
    | unwatch other =>
      have hother : observer ≠ other := fun heq => hr (by rw [heq])
      exact ⟨List.mem_filter.mpr ⟨h.mem, by simpa using hother⟩, h.nodup.filter _⟩
    | resolve ticket outcome =>
      have hsame : (w.resolve ticket outcome).observers = w.observers := by
        unfold resolve
        split <;> rfl
      rw [World.perform, hsame]
      exact ⟨h.mem, h.nodup⟩
    | write line => exact ⟨h.mem, h.nodup⟩
  refine ⟨hlist.1, hlist.2, ?_⟩
  rcases perform_past speaker w request with hp | ⟨entry, hp, hasked, -⟩
  · rw [history, hp]
    exact h.listed
  · have hrecord : Enrolled observer (w.record entry) := by
      refine h.record ?_
      rintro _ _ rfl
      cases hasked
    rw [history, hp]
    exact hrecord.listed

end Enrolled

theorem enrolled_preserved {setup : Setup σ α} {observer : ObserverName}
    (hasks : setup.Asks (· ≠ .unwatch observer)) :
    Preserved setup (· ≠ .unwatch observer) (Enrolled (σ := σ) observer) := by
  have hperform : ∀ {w : World σ α} speaker request, request ≠ .unwatch observer →
      Enrolled observer w → Enrolled observer (w.perform speaker request) :=
    fun speaker _ hr h => h.perform speaker hr
  have hunlisted : ∀ {w : World σ α} {entry : Entry α},
      (∀ event observers, entry ≠ .announced event observers) → Enrolled observer w →
      Enrolled observer (w.record entry) :=
    fun he h => h.record fun event observers heq => absurd heq (he event observers)
  exact
    { asks := hasks
      announce := announce_preserves hasks (fun event h => h.announced event)
        (fun _ _ => hunlisted (by simp)) (fun _ _ _ => hunlisted (by simp))
        (fun _ h => ⟨h.mem, h.nodup, h.listed⟩) hperform
      record := fun entry howned => hunlisted fun _ _ heq => by
        rw [heq] at howned
        cases howned
      host := fun _ h => ⟨h.mem, h.nodup, h.listed⟩
      channel := fun _ h => ⟨h.mem, h.nodup, h.listed⟩
      perform := hperform
      take := fun _ _ _ h => ⟨h.mem, h.nodup, h.listed⟩
      close := fun h => ⟨h.mem, h.nodup, h.listed⟩
      discard := discardInbox_preserves (fun h => ⟨h.mem, h.nodup, h.listed⟩)
        fun _ => hunlisted (by simp) }

end World

namespace Engine

variable {setup : Setup σ α} {capacity : Nat} {e : Engine σ α}

theorem Reachable.served (h : Reachable setup capacity e) (observer : ObserverName) :
    World.Served observer e.world :=
  h.keeps (World.served_preserved setup observer) fun _ _ _ => rfl

/-- An observer that is registered from the start and that nobody asks to remove is in every
announcement of the run. -/
theorem Run.listed {host : σ} {handles : Nat} {observers : List ObserverName}
    {observer : ObserverName} (hmem : observer ∈ observers) (hnodup : observers.Nodup)
    (hasks : setup.Asks (· ≠ .unwatch observer))
    (h : Run setup (· ≠ .unwatch observer)
      (.initial capacity (.initial host handles observers)) e) :
    ListedIn observer e.world.history :=
  (h.keeps (World.enrolled_preserved hasks) (.initial host handles observers)
    ⟨hmem, hnodup, fun _ _ h => absurd h List.not_mem_nil⟩).listed

end Engine

end Concord
