import Concord.Proofs.Engine.Acts

/-!
# What the world keeps throughout a run

Stores and observers may ask for anything at any time. A property of the world therefore lasts
through a run when neither a step of the engine's own nor a request that is carried out ends it.
`World.Preserved` says this of a property, for callbacks that keep to certain requests.
-/
namespace Concord

variable {σ α : Type}

/-- Everything that the callback asks for is of the given kind. -/
def Reaction.Asks {β : Type} (reaction : Reaction σ α β) (Q : Request α → Prop) : Prop :=
  ∀ request ∈ reaction.requests, Q request

structure Store.Asks (store : Store σ α) (Q : Request α → Prop) : Prop where
  vote : ∀ action host, (store.vote action host).Asks Q
  complete : ∀ action ticket host, (store.complete action ticket host).Asks Q
  signal : ∀ action host, (store.signal action host).Asks Q

/-- Nothing that is registered ever asks for anything of another kind. -/
structure Setup.Asks (setup : Setup σ α) (Q : Request α → Prop) : Prop where
  stores : ∀ entry ∈ setup.stores.entries, entry.2.Asks Q
  observers : ∀ observer event host, (setup.observe observer event host).Asks Q

theorem Setup.asks_anything (setup : Setup σ α) : setup.Asks fun _ => True where
  stores _ _ := ⟨fun _ _ _ _ => trivial, fun _ _ _ _ _ => trivial, fun _ _ _ _ => trivial⟩
  observers _ _ _ _ _ := trivial

/-- Whether an engine puts the step on record for itself, announcements apart. -/
def Entry.isOwn : Entry α → Bool
  | took _ | called _ | voted _ | answered _ (some _) => true
  | noted notice => notice.isOwn
  | _ => false

/-- Whether the step is one that only a request brings about. -/
def Entry.isAsked : Entry α → Bool
  | sent _ | settled .. | wrote .. | noted (.refused _) | answered _ none => true
  | _ => false

/-- Whether something is turned away in this step since the inbox takes no more. -/
def Entry.isRefusal : Entry α → Bool
  | noted (.refused _) | answered _ none => true
  | _ => false

namespace World

/-- A request leaves no more than a record of itself, and is turned away only where it could be
sent to a closed inbox. -/
theorem perform_past (speaker : Speaker) (w : World σ α) (request : Request α) :
    (w.perform speaker request).past = w.past ∨
      ∃ entry, (w.perform speaker request).past = entry :: w.past ∧ entry.isAsked = true ∧
        (entry.isRefusal = true → w.isOpen = false ∧ w.handles ≠ 0) := by
  cases request with
  | send message =>
    change (w.send message).past = w.past ∨ ∃ entry, (w.send message).past = entry :: w.past ∧ _
    unfold send
    split
    · exact .inl rfl
    rename_i hhandles
    split
    · exact .inr ⟨.sent message, rfl, rfl, fun h => by cases h⟩
    rename_i hopen
    rw [Bool.not_eq_true] at hopen
    cases message with
    | dispatch action => exact .inr ⟨.noted (.refused action), rfl, rfl, fun _ => ⟨hopen, hhandles⟩⟩
    | status inquiry => exact .inr ⟨.answered inquiry none, rfl, rfl, fun _ => ⟨hopen, hhandles⟩⟩
    | shutdown => exact .inl rfl
  | clone =>
    left
    change World.past (if w.handles = 0 then w else _) = w.past
    split <;> rfl
  | release => exact .inl rfl
  | watch observer =>
    left
    change (w.watch observer).past = w.past
    unfold watch
    split <;> rfl
  | unwatch observer => exact .inl rfl
  | resolve ticket outcome =>
    change (w.resolve ticket outcome).past = w.past ∨
      ∃ entry, (w.resolve ticket outcome).past = entry :: w.past ∧ _
    unfold resolve
    split
    · exact .inr ⟨.settled ticket outcome, rfl, rfl, fun h => by cases h⟩
    · exact .inl rfl
  | write line => exact .inr ⟨.wrote speaker line, rfl, rfl, fun h => by cases h⟩

/-- A request does not touch the host, and it touches the channel only to settle it. -/
theorem perform_frame (speaker : Speaker) (w : World σ α) (request : Request α) :
    (w.perform speaker request).host = w.host ∧
      ((w.perform speaker request).channel = w.channel ∨
        (w.perform speaker request).channel.outcome ≠ none) := by
  cases request with
  | send message =>
    change (w.send message).host = w.host ∧ ((w.send message).channel = w.channel ∨ _)
    unfold send
    split
    · exact ⟨rfl, .inl rfl⟩
    · split
      · exact ⟨rfl, .inl rfl⟩
      · cases message <;> exact ⟨rfl, .inl rfl⟩
  | clone =>
    change World.host (if w.handles = 0 then w else _) = w.host ∧
      (World.channel (if w.handles = 0 then w else _) = w.channel ∨ _)
    split <;> exact ⟨rfl, .inl rfl⟩
  | watch observer =>
    change (w.watch observer).host = w.host ∧ ((w.watch observer).channel = w.channel ∨ _)
    unfold watch
    split <;> exact ⟨rfl, .inl rfl⟩
  | resolve ticket outcome =>
    change (w.resolve ticket outcome).host = w.host ∧
      ((w.resolve ticket outcome).channel = w.channel ∨
        (w.resolve ticket outcome).channel.outcome ≠ none)
    unfold resolve
    split
    · exact ⟨rfl, .inr (Option.some_ne_none outcome)⟩
    · exact ⟨rfl, .inl rfl⟩
  | release | unwatch | write => exact ⟨rfl, .inl rfl⟩

theorem absorb_host {β : Type} (speaker : Speaker) (w : World σ α) (reaction : Reaction σ α β) :
    (w.absorb speaker reaction).host = reaction.host :=
  List.foldlRecOn (motive := (World.host · = reaction.host)) reaction.requests _ rfl
    fun _ h request _ => (perform_frame speaker _ request).1.trans h

/-- No step ends the property, if callbacks ask for nothing but requests of the given kind. -/
structure Preserved (setup : Setup σ α) (Q : Request α → Prop) (P : World σ α → Prop) : Prop where
  asks : setup.Asks Q
  announce : ∀ {w} event, P w → P (w.announce setup event)
  record : ∀ {w} entry, entry.isOwn = true → P w → P (w.record entry)
  host : ∀ {w} host, P w → P { w with host }
  channel : ∀ {w} channel, P w → P { w with channel }
  perform : ∀ {w} speaker request, Q request → P w → P (w.perform speaker request)
  take : ∀ {w} message inbox, w.inbox = message :: inbox → P w → P { w with inbox }
  close : ∀ {w}, P w → P { w with isOpen := false }
  discard : ∀ {w}, P w → P w.discardInbox

/-- What the single steps of an announcement preserve outlasts the announcement. -/
theorem announce_preserves {setup : Setup σ α} {Q : Request α → Prop} {P : World σ α → Prop}
    (hasks : setup.Asks Q)
    (hrecord : ∀ {w} event, P w → P (w.record (.announced event w.observers)))
    (hdeliver : ∀ {w} observer event, P w → P (w.record (.delivered observer event)))
    (hfail : ∀ {w} observer event why, P w → P (w.note (.observerFailed observer event why)))
    (hhost : ∀ {w} host, P w → P { w with host })
    (hperform : ∀ {w} speaker request, Q request → P w → P (w.perform speaker request))
    {w : World σ α} (event : Event α) (h : P w) : P (w.announce setup event) := by
  have hhand : ∀ (observers : List ObserverName) {w : World σ α}, P w →
      P (observers.foldl (hand setup event) w) := by
    intro observers
    induction observers with
    | nil => exact id
    | cons observer rest ih =>
      intro w h
      have habsorbed : P ((w.record (.delivered observer event)).absorb (.observer observer)
          (setup.observe observer event w.host)) :=
        List.foldlRecOn _ _ (hhost _ (hdeliver _ _ h)) fun w h request hrequest =>
          hperform _ request (hasks.observers observer event _ request hrequest) h
      apply ih
      unfold hand
      dsimp only
      split
      · exact habsorbed
      · exact hfail _ _ _ habsorbed
  exact hhand _ (hrecord _ h)

/-- What the single steps of closing the inbox preserve outlasts the closing. -/
theorem discardInbox_preserves {P : World σ α → Prop}
    (hclose : ∀ {w}, P w → P { w with inbox := [], isOpen := false })
    (hanswer : ∀ {w} inquiry, P w → P (w.record (.answered inquiry none))) {w : World σ α}
    (h : P w) : P w.discardInbox := by
  refine List.foldlRecOn w.inbox _ (hclose h) fun w h message _ => ?_
  cases message with
  | status inquiry => exact hanswer inquiry h
  | dispatch action => exact h
  | shutdown => exact h

namespace Preserved

variable {setup : Setup σ α} {Q : Request α → Prop} {P : World σ α → Prop} {w : World σ α}
  (hP : Preserved setup Q P)

include hP

theorem absorb {β : Type} (speaker : Speaker) {reaction : Reaction σ α β} (hr : reaction.Asks Q)
    (h : P w) : P (w.absorb speaker reaction) :=
  List.foldlRecOn _ _ (hP.host _ h) fun _ h request hrequest =>
    hP.perform _ request (hr request hrequest) h

theorem canvass (action : α) {entries : List (StoreName × Store σ α)}
    (hentries : ∀ entry ∈ entries, entry.2.Asks Q) (h : P w) :
    P (World.canvass action entries w).2 := by
  induction entries generalizing w with
  | nil => exact h
  | cons entry rest ih =>
    have hasked := hP.absorb (.store entry.1)
      ((hentries entry List.mem_cons_self).vote action w.host)
      (hP.record (.called (.vote entry.1 action)) rfl h)
    exact ih (fun entry hmem => hentries entry (List.mem_cons_of_mem _ hmem))
      (hP.record (.voted _) rfl hasked)

theorem assign (store : StoreName) {callbacks : Store σ α} (hc : callbacks.Asks Q) (action : α)
    (h : P w) : P (w.assign store callbacks action) :=
  hP.absorb (.store store) (hc.complete action _ _) (hP.record (.called _) rfl (hP.channel _ h))

theorem signal (action : α) (store : StoreName) (h : P w) : P (w.signal setup action store) := by
  unfold World.signal
  cases hf : setup.stores.find? store with
  | none => exact h
  | some callbacks =>
    exact hP.absorb (.store store)
      ((hP.asks.stores _ (Roster.mem_of_find? hf)).signal action _) (hP.record _ rfl h)

theorem announceOutcome (store : StoreName) (action : α) (outcome : Outcome) (h : P w) :
    P (w.announceOutcome setup store action outcome) := by
  unfold World.announceOutcome
  cases outcome.failure? with
  | none => exact hP.announce _ h
  | some why => exact hP.announce _ (hP.record (.noted _) rfl h)

end Preserved

end World

namespace Engine

open World (Preserved)

variable {setup : Setup σ α} {Q : Request α → Prop} {P : World σ α → Prop} {e e' : Engine σ α}
  (hP : Preserved setup Q P)

include hP

theorem conclude_preserves (walk : Walk α) (h : P e.world) : P (e.conclude setup walk).world := by
  have hsignals : P (walk.acked.foldl (World.signal setup walk.action) e.world) :=
    List.foldlRecOn _ _ h fun _ h store _ => hP.signal walk.action store h
  exact hP.announce .unlock (hP.record (.noted (.complete ..)) rfl hsignals)

theorem visit_preserves (stores : List StoreName) (walk : Walk α) (h : P e.world) :
    P (visit setup stores walk e).world := by
  induction stores generalizing walk e with
  | nil => exact conclude_preserves hP walk h
  | cons store rest ih =>
    unfold visit
    cases hf : setup.stores.find? store with
    | none => exact ih _ h
    | some callbacks =>
      have hassigned := hP.assign store (hP.asks.stores _ (Roster.mem_of_find? hf))
        walk.action (hP.announce (.execute store walk.action) h)
      dsimp only
      split
      · exact hassigned
      · exact ih _ (hP.announceOutcome store walk.action _ hassigned)

theorem carryOn_preserves (walk : Walk α) (store : StoreName) (outcome : Outcome)
    (h : P e.world) : P (e.carryOn setup walk store outcome).world :=
  visit_preserves hP _ _ (hP.announceOutcome store walk.action outcome h)

theorem weigh_preserves (action : α) (h : P e.world) : P (e.weigh setup action).2.world :=
  List.foldlRecOn _ _ (hP.canvass action hP.asks.stores h) fun _ h store _ =>
    hP.record (.noted (.drafted store action)) rfl h

theorem undertake_preserves (action : α) (h : P e.world) : P (e.undertake setup action).world := by
  have hweighed : P ((e.announce setup .lock).weigh setup action).2.world :=
    weigh_preserves hP action (hP.announce .lock h)
  unfold undertake
  generalize (e.announce setup .lock).weigh setup action = weighed at hweighed
  obtain ⟨verdict, e₁⟩ := weighed
  cases verdict with
  | error error =>
    exact hP.announce .unlock (hP.announce _ (hP.record (.noted (.aborting ..)) rfl hweighed))
  | ok order =>
    cases order with
    | nil => exact hP.announce .unlock (hP.record (.noted (.nobodyApproved action)) rfl hweighed)
    | cons first others =>
      exact visit_preserves hP _ _ (hP.record (.noted (.executing ..)) rfl hweighed)

theorem Act.preserves (ha : Act setup e e') (h : P e.world) : P e'.world := by
  have htaking : ∀ {message inbox}, e.world.inbox = message :: inbox →
      P (e.taking message inbox).world :=
    fun hi => hP.record (.took _) rfl (hP.take _ _ hi h)
  have hhearing : ∀ {action inbox}, e.Hears (.dispatch action) inbox →
      P (e.hearing setup action inbox).world :=
    fun hh => hP.announce _ (htaking hh.inbox)
  cases ha with
  | started hlife => exact hP.record (.noted (.started ..)) rfl h
  | begun hh hidle hempty hc hu => exact undertake_preserves hP _ (hhearing hh)
  | queued hh hbusy hput => exact hhearing hh
  | dropped hh hbusy hfull =>
    exact hP.announce _ (hP.record (.noted (.backlogFull ..)) rfl (hhearing hh))
  | replied hh => exact hP.record (.answered _ (some _)) rfl (htaking hh.inbox)
  | shut hh => exact hP.close (hP.record (.noted (.shuttingDown _)) rfl (htaking hh.inbox))
  | deafened hlife hl hi hh => exact h
  | continued hlife hl hf hp hw ho hc => exact carryOn_preserves hP _ _ _ h
  | resumed hlife hidle ho hc hu => exact undertake_preserves hP _ h
  | stopped hlife hp hl => exact hP.discard (hP.record (.noted (.stopped ..)) rfl h)

theorem kill_preserves (h : P e.world) : P e.kill.world := by
  unfold kill
  split
  · exact hP.discard h
  · exact hP.discard h
  · exact h
  · exact h

omit hP

/-- A run in which the outside asks for requests of the given kind only. -/
inductive Run (setup : Setup σ α) (Q : Request α → Prop) (e : Engine σ α) : Engine σ α → Prop where
  | refl : Run setup Q e e
  | turn {e' e'' : Engine σ α} (h : Run setup Q e e') (ht : e'.turn? setup = some e'') :
      Run setup Q e e''
  | outside {e' : Engine σ α} (h : Run setup Q e e') (reaction : Reaction σ α Unit)
      (hr : reaction.Asks Q) : Run setup Q e (e'.interact reaction)
  | kill {e' : Engine σ α} (h : Run setup Q e e') : Run setup Q e e'.kill

namespace Run

theorem reachable {capacity : Nat} (h : Run setup Q e e') (he : Reachable setup capacity e) :
    Reachable setup capacity e' := by
  induction h with
  | refl => exact he
  | turn h ht ih => exact ih.step (.turn ht)
  | outside h reaction hr ih => exact ih.step (.outside reaction _)
  | kill h ih => exact ih.step (.kill _)

theorem takeTurns (h : Run setup Q e e') (n : Nat) : Run setup Q e (e'.takeTurns setup n) := by
  induction n generalizing e' with
  | zero => exact h
  | succ n ih =>
    unfold Engine.takeTurns
    cases ht : e'.turn? setup with
    | none => exact h
    | some e'' => exact ih (h.turn ht)

theorem keeps {capacity : Nat} (h : Run setup Q e e') (hP : Preserved setup Q P)
    (he : Reachable setup capacity e) (hinitial : P e.world) : P e'.world := by
  induction h with
  | refl => exact hinitial
  | turn h ht ih =>
    exact ((h.reachable he).sound.acts (turn_turned ht)).preserves (Act.preserves hP) ih
  | outside h reaction hr ih => exact hP.absorb .outside hr ih
  | kill h ih => exact kill_preserves hP ih

end Run

/-- What holds at the start and lasts, whatever is asked for, holds in every run. -/
theorem Reachable.keeps {capacity : Nat} (hP : Preserved setup (fun _ => True) P)
    (hinitial : ∀ host handles observers, P (.initial host handles observers))
    (h : Reachable setup capacity e) : P e.world :=
  Reachable.preserves hinitial (Act.preserves hP)
    (fun _ h => hP.absorb .outside (fun _ _ => trivial) h) (kill_preserves hP) h

end Engine

end Concord
