import Concord.Event
import Mathlib.Data.List.Basic

/-!
# The grammar of lifecycle events

`Stage` is what the events so far commit a narration to, and `Stage.Next` says which event may come
next. A narration that keeps to these rules falls into scenes, one for each action from its lock to
its unlock, and the arrivals of actions stand only where `Narrated` says. Nothing here refers to an
engine.
-/
namespace Concord

variable {α : Type}

/-- Whether the event is about an arrival, and not about an action that is undertaken. -/
def Event.isMail : Event α → Bool
  | dispatch _ | drop _ => true
  | _ => false

/-- The events that are not about arrivals. -/
def plot (events : List (Event α)) : List (Event α) := events.filter (!·.isMail)

/-- How many events of the kind there are. -/
def tells (kind : EventKind) (events : List (Event α)) : Nat := events.countP (·.kind = kind)

theorem tells_append (kind : EventKind) (events more : List (Event α)) :
    tells kind (events ++ more) = tells kind events + tells kind more := List.countP_append

/-- A store is asked to carry an action out, and it is announced what became of that. -/
structure Exchange (α : Type) where
  store : StoreName
  action : α
  why? : Option Failure

def Exchange.events (x : Exchange α) : List (Event α) :=
  [.execute x.store x.action, match x.why? with
    | none => .ack x.store x.action
    | some why => .nack x.store x.action why]

theorem Exchange.kind {x : Exchange α} {event : Event α} (h : event ∈ x.events) :
    event.kind = .execute ∨ event.kind = .ack ∨ event.kind = .nack := by
  obtain ⟨store, action, why?⟩ := x
  cases why? with
  | none =>
    simp only [events, List.mem_cons, List.not_mem_nil, or_false] at h
    rcases h with rfl | rfl <;> simp [Event.kind]
  | some why =>
    simp only [events, List.mem_cons, List.not_mem_nil, or_false] at h
    rcases h with rfl | rfl <;> simp [Event.kind]

theorem tells_exchanges {kind : EventKind} (he : kind ≠ .execute) (ha : kind ≠ .ack)
    (hn : kind ≠ .nack) (exchanges : List (Exchange α)) :
    tells kind (exchanges.flatMap Exchange.events) = 0 := by
  refine List.countP_eq_zero.mpr fun event hmem hkind => ?_
  obtain ⟨x, -, hevent⟩ := List.mem_flatMap.mp hmem
  rw [decide_eq_true_eq] at hkind
  subst hkind
  exact (Exchange.kind hevent).elim he fun h => h.elim ha hn

/-- What is told of one action between its lock and its unlock. -/
inductive Scene (α : Type) where
  | aborted (action : α) (error : Refusal)
  | played (exchanges : List (Exchange α))

def Scene.events : Scene α → List (Event α)
  | aborted action error => [.lock, .abort action error, .unlock]
  | played exchanges => .lock :: (exchanges.flatMap Exchange.events ++ [.unlock])

/-- What a narration has come to. -/
inductive Stage (α : Type) where
  /-- No action is undertaken. One may have arrived with the last event. -/
  | outside (summoned : Option α)
  | locked
  | between
  | doomed
  /-- A store is asked to carry the action out. Another one may have arrived with the last event. -/
  | asked (store : StoreName) (action : α) (overheard : Option α)

namespace Stage

/-- Which event may come next. -/
inductive Next : Stage α → Event α → Stage α → Prop where
  | summon (action : α) : Next (outside none) (.dispatch action) (outside (some action))
  | lock (summoned : Option α) : Next (outside summoned) .lock locked
  | abort (action : α) (error : Refusal) : Next locked (.abort action error) doomed
  | begin (store : StoreName) (action : α) :
      Next locked (.execute store action) (asked store action none)
  | proceed (store : StoreName) (action : α) :
      Next between (.execute store action) (asked store action none)
  | overhear {store : StoreName} {action : α} (overheard : Option α) (other : α) :
      Next (asked store action overheard) (.dispatch other) (asked store action (some other))
  | drop {store : StoreName} {action : α} (other : α) :
      Next (asked store action (some other)) (.drop other) (asked store action none)
  | ack {store : StoreName} {action : α} (overheard : Option α) :
      Next (asked store action overheard) (.ack store action) between
  | nack {store : StoreName} {action : α} (overheard : Option α) (why : Failure) :
      Next (asked store action overheard) (.nack store action why) between
  | pass : Next locked .unlock (outside none)
  | finish : Next between .unlock (outside none)
  | giveUp : Next doomed .unlock (outside none)

/-- The events lead from one stage to the other. -/
inductive Leads : Stage α → List (Event α) → Stage α → Prop where
  | nil (s : Stage α) : Leads s [] s
  | cons {s t u : Stage α} {event : Event α} {events : List (Event α)} (hn : s.Next event t)
      (h : Leads t events u) : Leads s (event :: events) u

theorem Next.unique {s t u : Stage α} {event : Event α} (h : s.Next event t)
    (h' : s.Next event u) : t = u := by
  cases h <;> cases h' <;> rfl

namespace Leads

variable {s t u : Stage α} {events more : List (Event α)}

theorem append (h : s.Leads events t) (h' : t.Leads more u) : s.Leads (events ++ more) u := by
  induction h with
  | nil s => exact h'
  | cons hn h ih => exact .cons hn (ih h')

theorem unique (h : s.Leads events t) (h' : s.Leads events u) : t = u := by
  induction h with
  | nil s =>
    cases h'
    rfl
  | cons hn h ih =>
    cases h' with
    | cons hn' h' =>
      obtain rfl := hn.unique hn'
      exact ih h'

theorem split (h : s.Leads (events ++ more) u) : ∃ t, s.Leads events t ∧ t.Leads more u := by
  induction events generalizing s with
  | nil => exact ⟨s, .nil s, h⟩
  | cons event rest ih =>
    cases h with
    | cons hn h =>
      obtain ⟨t, hrest, hmore⟩ := ih h
      exact ⟨t, .cons hn hrest, hmore⟩

/-- What comes after events that lead to a stage leads on from there. -/
theorem cancel (h : s.Leads events t) (h' : s.Leads (events ++ more) u) : t.Leads more u := by
  obtain ⟨t', hevents, hmore⟩ := h'.split
  obtain rfl := h.unique hevents
  exact hmore

theorem split_cons {event : Event α} (h : s.Leads (events ++ event :: more) u) :
    ∃ t t', s.Leads events t ∧ t.Next event t' ∧ t'.Leads more u := by
  obtain ⟨t, hevents, hmore⟩ := h.split
  cases hmore with
  | cons hn hmore => exact ⟨t, _, hevents, hn, hmore⟩

end Leads

/-- Whether a store may be asked next, or the action end. -/
def MayAsk (s : Stage α) : Prop := s = locked ∨ s = between

namespace MayAsk

variable {s : Stage α}

theorem execute (h : s.MayAsk) (store : StoreName) (action : α) :
    s.Next (.execute store action) (asked store action none) := by
  rcases h with rfl | rfl
  · exact .begin store action
  · exact .proceed store action

theorem unlock (h : s.MayAsk) : s.Next .unlock (outside none) := by
  rcases h with rfl | rfl
  · exact .pass
  · exact .finish

theorem exchange (h : s.MayAsk) (x : Exchange α) : s.Leads x.events between := by
  refine .cons (h.execute x.store x.action) ?_
  cases x.why? with
  | none => exact .cons (.ack none) (.nil between)
  | some why => exact .cons (.nack none why) (.nil between)

theorem exchanges (h : s.MayAsk) (xs : List (Exchange α)) :
    ∃ t : Stage α, t.MayAsk ∧ s.Leads (xs.flatMap Exchange.events) t := by
  induction xs generalizing s with
  | nil => exact ⟨s, h, .nil s⟩
  | cons x rest ih =>
    obtain ⟨t, ht, hrest⟩ := ih (s := between) (.inr rfl)
    exact ⟨t, ht, (h.exchange x).append hrest⟩

end MayAsk

/-- How many actions are undertaken: at most one. -/
def depth : Stage α → Nat
  | outside _ => 0
  | _ => 1

theorem Next.depth {s t : Stage α} {event : Event α} (h : s.Next event t) :
    tells .lock [event] + s.depth = tells .unlock [event] + t.depth := by
  cases h <;> rfl

/-- Locks and unlocks differ by the action that is undertaken. -/
theorem Leads.depth {s t : Stage α} {events : List (Event α)} (h : s.Leads events t) :
    tells .lock events + s.depth = tells .unlock events + t.depth := by
  induction h with
  | nil s => rfl
  | @cons s t u event events hn h ih =>
    have hnext := hn.depth
    rw [← List.singleton_append, tells_append, tells_append]
    omega

/-- What is told of the scene that is underway. -/
def Tells : Stage α → List (Event α) → Prop
  | outside _, tail => tail = []
  | locked, tail => tail = [.lock]
  | between, tail => ∃ exchanges : List (Exchange α),
      tail = .lock :: exchanges.flatMap Exchange.events
  | doomed, tail => ∃ action error, tail = [.lock, .abort action error]
  | asked store action _, tail => ∃ exchanges : List (Exchange α),
      tail = .lock :: (exchanges.flatMap Exchange.events ++ [.execute store action])

/-- One more event adds to the scene that is underway, or completes it. -/
theorem Next.tells {s t : Stage α} {event : Event α} (h : s.Next event t) {tail : List (Event α)}
    (ht : s.Tells tail) :
    t.Tells (tail ++ plot [event]) ∨
      t.Tells [] ∧ ∃ scene : Scene α, tail ++ plot [event] = scene.events := by
  cases h with
  | summon action =>
    obtain rfl := ht
    exact .inl rfl
  | lock summoned =>
    obtain rfl := ht
    exact .inl rfl
  | abort action error =>
    obtain rfl := ht
    exact .inl ⟨action, error, rfl⟩
  | begin store action =>
    obtain rfl := ht
    exact .inl ⟨[], rfl⟩
  | proceed store action =>
    obtain ⟨exchanges, rfl⟩ := ht
    exact .inl ⟨exchanges, rfl⟩
  | overhear overheard other =>
    left
    rw [show plot [.dispatch other] = [] from rfl, List.append_nil]
    exact ht
  | drop other =>
    left
    rw [show plot [.drop other] = [] from rfl, List.append_nil]
    exact ht
  | @ack store action overheard =>
    obtain ⟨exchanges, rfl⟩ := ht
    refine .inl ⟨exchanges ++ [⟨store, action, none⟩], ?_⟩
    simp [plot, Event.isMail, Exchange.events]
  | @nack store action overheard why =>
    obtain ⟨exchanges, rfl⟩ := ht
    refine .inl ⟨exchanges ++ [⟨store, action, some why⟩], ?_⟩
    simp [plot, Event.isMail, Exchange.events]
  | pass =>
    obtain rfl := ht
    exact .inr ⟨rfl, .played [], rfl⟩
  | finish =>
    obtain ⟨exchanges, rfl⟩ := ht
    exact .inr ⟨rfl, .played exchanges, rfl⟩
  | giveUp =>
    obtain ⟨action, error, rfl⟩ := ht
    exact .inr ⟨rfl, .aborted action error, rfl⟩

/-- Leaving arrivals aside, a narration is a sequence of scenes of which the last may be cut off. -/
theorem Leads.scenes {s t : Stage α} {events : List (Event α)} (h : s.Leads events t)
    (tail : List (Event α)) (ht : s.Tells tail) :
    ∃ (scenes : List (Scene α)) (rest : List (Event α)),
      tail ++ plot events = scenes.flatMap Scene.events ++ rest ∧ t.Tells rest := by
  induction h generalizing tail with
  | nil s => exact ⟨[], tail, List.append_nil _, ht⟩
  | @cons s t u event events hn h ih =>
    have hplot : tail ++ plot (event :: events) = tail ++ plot [event] ++ plot events := by
      rw [List.append_assoc, ← List.singleton_append, plot, List.filter_append]
      rfl
    rw [hplot]
    rcases hn.tells ht with hmore | ⟨hend, scene, hscene⟩
    · exact ih _ hmore
    · obtain ⟨scenes, rest, hrest, htells⟩ := ih [] hend
      refine ⟨scene :: scenes, rest, ?_, htells⟩
      rw [hscene, List.flatMap_cons, List.append_assoc, ← hrest, List.nil_append]

/-- An action that has arrived outside is locked in before anything else is told. -/
theorem Leads.locks {action : α} {t : Stage α} {events : List (Event α)}
    (h : (outside (some action)).Leads events t) (ht : ∀ last, t ≠ outside (some last)) :
    ∃ rest, events = .lock :: rest := by
  cases h with
  | nil => exact absurd rfl (ht action)
  | cons hn h =>
    cases hn
    exact ⟨_, rfl⟩

/-- Once a store is asked, it is told what became of that before anything else but arrivals. -/
theorem Leads.answers {store : StoreName} {action : α} {overheard : Option α} {t : Stage α}
    {events : List (Event α)} (h : (asked store action overheard).Leads events t) :
    ∀ event ∈ (plot events).head?,
      event = .ack store action ∨ ∃ why, event = .nack store action why := by
  induction events generalizing overheard with
  | nil => simp [plot]
  | cons event rest ih =>
    cases h with
    | cons hn h =>
      cases hn with
      | overhear _ other => exact ih h
      | drop other => exact ih h
      | ack _ =>
        rintro event ⟨⟩
        exact .inl rfl
      | nack _ why =>
        rintro event ⟨⟩
        exact .inr ⟨why, rfl⟩

theorem Leads.asks {store : StoreName} {action : α} {overheard : Option α}
    {events : List (Event α)} (h : (outside none).Leads events (asked store action overheard)) :
    (plot events).getLast? = some (.execute store action) := by
  obtain ⟨scenes, rest, hrest, exchanges, rfl⟩ := h.scenes [] rfl
  rw [List.nil_append, ← List.cons_append, ← List.append_assoc] at hrest
  rw [hrest, List.getLast?_concat]

/-- What arrives while a store is at work has just arrived when it is dropped. -/
theorem Leads.overhears {store : StoreName} {action other : α} {events : List (Event α)}
    (h : (outside none).Leads events (asked store action (some other))) :
    ∃ before, events = before ++ [.dispatch other] := by
  rcases List.eq_nil_or_concat events with rfl | ⟨before, event, rfl⟩
  · cases h
  · rw [List.concat_eq_append] at h ⊢
    obtain ⟨t, t', -, hn, hlast⟩ := h.split_cons
    cases hlast
    cases hn
    exact ⟨before, rfl⟩

end Stage

/-- How the events of a run are told, when `atWork` is the store that is asked at the end and the
action it is asked to carry out. -/
structure Narrated (events : List (Event α)) (atWork : Option (StoreName × α)) : Prop where
  /-- Arrivals aside, there is one scene after the other. Only the last is cut off, and that where a
  store is at work. -/
  scenes : ∃ (scenes : List (Scene α)) (tail : List (Event α)),
    plot events = scenes.flatMap Scene.events ++ tail ∧
    match atWork with
    | none => tail = []
    | some (store, action) => ∃ exchanges : List (Exchange α),
        tail = .lock :: (exchanges.flatMap Exchange.events ++ [.execute store action])
  /-- What arrives outside a scene begins one at once. -/
  summons : ∀ earlier action later, events = earlier ++ .dispatch action :: later →
    tells .lock earlier = tells .unlock earlier → ∃ rest, later = .lock :: rest
  /-- Within a scene, actions arrive and are dropped only while a store is at work. -/
  arrivals : ∀ earlier event later, events = earlier ++ event :: later → event.isMail = true →
    tells .lock earlier ≠ tells .unlock earlier →
    ∃ store action, (plot earlier).getLast? = some (.execute store action) ∧
      ∀ next ∈ (plot later).head?, next = .ack store action ∨ ∃ why, next = .nack store action why
  drops : ∀ earlier action later, events = earlier ++ .drop action :: later →
    ∃ before, earlier = before ++ [.dispatch action]

namespace Stage

/-- The stage that a narration has come to when it pauses: nothing has just arrived outside. -/
def Rests : Stage α → Option (StoreName × α) → Prop
  | outside summoned, atWork => summoned = none ∧ atWork = none
  | asked store action _, atWork => atWork = some (store, action)
  | _, _ => False

theorem Rests.outside {s : Stage α} (h : s.Rests none) : s = .outside none := by
  cases s with
  | outside summoned => rw [h.1]
  | asked store action overheard => cases h
  | _ => exact h.elim

theorem Rests.asked {s : Stage α} {store : StoreName} {action : α}
    (h : s.Rests (some (store, action))) : ∃ overheard, s = .asked store action overheard := by
  cases s with
  | outside summoned => cases h.2
  | asked store action overheard =>
    cases h
    exact ⟨overheard, rfl⟩
  | _ => exact h.elim

theorem Rests.depth {s : Stage α} {atWork : Option (StoreName × α)} (h : s.Rests atWork) :
    s.depth = if atWork.isSome then 1 else 0 := by
  cases atWork with
  | none =>
    obtain rfl := h.outside
    rfl
  | some work =>
    obtain ⟨overheard, rfl⟩ := h.asked
    rfl

/-- What has arrived meanwhile makes no difference to what becomes of the store at work. -/
theorem Leads.recall {store : StoreName} {action : α} {t : Stage α} {events : List (Event α)}
    (h : (asked store action none).Leads events t) (hmail : ∀ event ∈ events, event.isMail = false)
    (overheard : Option α) {atWork : Option (StoreName × α)} (ht : t.Rests atWork) :
    ∃ t', (asked store action overheard).Leads events t' ∧ t'.Rests atWork := by
  cases h with
  | nil => exact ⟨_, .nil _, ht⟩
  | cons hn h =>
    cases hn with
    | overhear _ other => cases hmail _ List.mem_cons_self
    | ack _ => exact ⟨t, .cons (.ack overheard) h, ht⟩
    | nack _ why => exact ⟨t, .cons (.nack overheard why) h, ht⟩

theorem Leads.narrated {events : List (Event α)} {t : Stage α}
    (h : (outside none).Leads events t) {atWork : Option (StoreName × α)} (ht : t.Rests atWork) :
    Narrated events atWork := by
  constructor
  · obtain ⟨scenes, tail, hplot, htail⟩ := h.scenes [] rfl
    refine ⟨scenes, tail, hplot, ?_⟩
    cases t with
    | outside summoned =>
      obtain ⟨-, rfl⟩ := ht
      exact htail
    | asked store action overheard =>
      obtain rfl := ht
      exact htail
    | _ => exact ht.elim
  · rintro earlier action later rfl hcount
    obtain ⟨s, s', hearlier, hn, hlater⟩ := h.split_cons
    have hdepth := hearlier.depth
    cases hn with
    | summon _ =>
      refine hlater.locks fun last hlast => ?_
      subst hlast
      cases ht.1
    | overhear _ _ =>
      change _ + 0 = _ + 1 at hdepth
      omega
  · rintro earlier event later rfl hmail hcount
    obtain ⟨s, s', hearlier, hn, hlater⟩ := h.split_cons
    have hdepth := hearlier.depth
    cases hn with
    | summon _ => exact absurd hdepth (by simpa [depth] using hcount)
    | @overhear store action _ other => exact ⟨store, action, hearlier.asks, hlater.answers⟩
    | @drop store action _ => exact ⟨store, action, hearlier.asks, hlater.answers⟩
    | _ => cases hmail
  · rintro earlier action later rfl
    obtain ⟨s, s', hearlier, hn, -⟩ := h.split_cons
    cases hn
    exact hearlier.overhears

end Stage

end Concord
