import Concord.Proofs.Engine.Delivery
import Concord.Proofs.Engine.Lockstep

/-!
# Comparing runs

A `Comparison` says in what two runs are to agree: which hosts pass for alike, which observers
count, and what is seen of a step on record. If stores, observers and the outside act alike on hosts
that are alike, the two runs concur: what is seen of the one is seen of the other, and both engines
end at the same point.
-/
namespace Concord

variable {σ τ α β : Type}

/-- Two runs over lists step by step, of which some members concern only one side. -/
theorem foldl_filtered {A B X : Type} {R : A → B → Prop} {f : A → X → A} {g : B → X → B}
    (p : X → Bool) (hboth : ∀ {a b} x, p x = true → R a b → R (f a x) (g b x))
    (hleft : ∀ {a b} x, p x = false → R a b → R (f a x) b)
    (hright : ∀ {a b} x, p x = false → R a b → R a (g b x)) {l l' : List X}
    (h : l.filter p = l'.filter p) {a : A} {b : B} (hab : R a b) :
    R (l.foldl f a) (l'.foldl g b) := by
  have hskip : ∀ (l : List X) {a : A} {b : B}, (∀ x ∈ l, p x = false) → R a b →
      R a (l.foldl g b) := by
    intro l
    induction l with
    | nil => exact fun _ hab => hab
    | cons x rest ih =>
      intro a b hx hab
      obtain ⟨hhead, htail⟩ := List.forall_mem_cons.mp hx
      exact ih htail (hright x hhead hab)
  induction l generalizing l' a b with
  | nil =>
    rw [List.filter_nil, eq_comm, List.filter_eq_nil_iff] at h
    exact hskip l' (fun x hx => Bool.eq_false_iff.mpr (h x hx)) hab
  | cons x rest ih =>
    cases hx : p x with
    | false =>
      rw [List.filter_cons_of_neg (Bool.eq_false_iff.mp hx)] at h
      exact ih h (hleft x hx hab)
    | true =>
      rw [List.filter_cons_of_pos hx, eq_comm, List.filter_eq_cons_iff] at h
      obtain ⟨before, after, rfl, hbefore, -, hafter⟩ := h
      rw [List.foldl_append, List.foldl_cons]
      exact ih hafter.symm
        (hboth x hx (hskip before (fun y hy => Bool.eq_false_iff.mpr (hbefore y hy)) hab))

theorem eq_of_filter_true {X : Type} {l l' : List X}
    (h : (l.filter fun _ => true) = l'.filter fun _ => true) : l = l' := by
  rwa [List.filter_true, List.filter_true] at h

/-- The callback of a store that is called in this step. -/
def Entry.callback? : Entry α → Option (Callback α)
  | called callback => some callback
  | _ => none

namespace World

/-- The calls of stores, in order. -/
def calls (w : World σ α) : List (Callback α) := w.history.filterMap Entry.callback?

/-- The replies to requests for a status, in order. -/
def replies (w : World σ α) : List (Inquiry × Option Status) := w.history.filterMap Entry.answer?

end World

/-- The two engines have done the same so far, and have come to the same point. -/
structure Engine.SameConduct (setup : Setup σ α) (setup' : Setup τ α) (e : Engine σ α)
    (d : Engine τ α) : Prop where
  calls : e.world.calls = d.world.calls
  events : e.world.events = d.world.events
  replies : e.world.replies = d.world.replies
  status : e.status = d.status
  life : e.life = d.life
  /-- A poll of the one ends here when a poll of the other does. -/
  stalled : (e.turn? setup).isNone = (d.turn? setup').isNone

/-- In what two runs are to agree. -/
structure Comparison (σ τ α : Type) where
  alike : σ → τ → Prop
  /-- The observers that count; what the others receive and write is not seen. -/
  minds : ObserverName → Bool
  /-- The observers whose failures are not seen. -/
  excuses : ObserverName → Bool
  /-- What is seen of a step. Calls, events and replies are always seen. -/
  view : Entry α → Option (Entry α)
  calls : ∀ entry, (view entry).bind Entry.callback? = entry.callback?
  events : ∀ entry, (view entry).bind Entry.event? = entry.event?
  replies : ∀ entry, (view entry).bind Entry.answer? = entry.answer?
  announced : ∀ event {l l' : List ObserverName}, l.filter minds = l'.filter minds →
    view (.announced event l) = view (.announced event l')
  delivered : ∀ {observer} event, minds observer = false → view (.delivered observer event) = none
  wrote : ∀ {observer} line, minds observer = false → view (.wrote (.observer observer) line) = none
  failed : ∀ {observer} kind why, minds observer = false ∨ excuses observer = true →
    view (.noted (.observerFailed observer kind why)) = none

namespace Comparison

variable (c : Comparison σ τ α)

/-- Whether the two runs have to agree in the request. -/
def counts : Request α → Bool
  | .watch observer | .unwatch observer => c.minds observer
  | _ => true

structure Alike (r : Reaction σ α β) (r' : Reaction τ α β) : Prop where
  host : c.alike r.host r'.host
  requests : r.requests.filter c.counts = r'.requests.filter c.counts

structure StoresAlike (s : Store σ α) (s' : Store τ α) : Prop where
  answer : ∀ action {h h'}, c.alike h h' → (s.vote action h).answer = (s'.vote action h').answer
  vote : ∀ action {h h'}, c.alike h h' → c.Alike (s.vote action h) (s'.vote action h')
  complete : ∀ action ticket {h h'}, c.alike h h' →
    c.Alike (s.complete action ticket h) (s'.complete action ticket h')
  signal : ∀ action {h h'}, c.alike h h' → c.Alike (s.signal action h) (s'.signal action h')

/-- What an observer does that has no effect: it may write, but it asks for nothing else. -/
def Harmless (r : Reaction σ α β) : Prop := ∀ request ∈ r.requests, ∃ line, request = .write line

/-- The two setups act alike on hosts that are alike. Observers that do not count do nothing that
could be noticed. -/
structure Relates (setup : Setup σ α) (setup' : Setup τ α) : Prop where
  stores : List.Forall₂ (fun entry entry' => entry.1 = entry'.1 ∧ c.StoresAlike entry.2 entry'.2)
    setup.stores.entries setup'.stores.entries
  heard : ∀ {observer} event {h h'}, c.minds observer = true → c.alike h h' →
    c.Alike (setup.observe observer event h) (setup'.observe observer event h')
  answer : ∀ {observer} event {h h'}, c.minds observer = true → c.excuses observer = false →
    c.alike h h' →
      (setup.observe observer event h).answer = (setup'.observe observer event h').answer
  unheard : ∀ {observer} event {h h'}, c.minds observer = false → c.alike h h' →
    c.alike (setup.observe observer event h).host h' ∧
      Harmless (setup.observe observer event h)
  unheard' : ∀ {observer} event {h h'}, c.minds observer = false → c.alike h h' →
    c.alike h (setup'.observe observer event h').host ∧
      Harmless (setup'.observe observer event h')

inductive MovesAlike : Move σ α → Move τ α → Prop where
  | turn : MovesAlike .turn .turn
  | outside {act : σ → Reaction σ α Unit} {act' : τ → Reaction τ α Unit}
      (h : ∀ {h h'}, c.alike h h' → c.Alike (act h) (act' h')) :
      MovesAlike (.outside act) (.outside act')
  | kill : MovesAlike .kill .kill

/-- Two worlds between which no difference is seen. -/
structure Matches (w : World σ α) (w' : World τ α) : Prop where
  host : c.alike w.host w'.host
  inbox : w.inbox = w'.inbox
  isOpen : w.isOpen = w'.isOpen
  handles : w.handles = w'.handles
  observers : w.observers.filter c.minds = w'.observers.filter c.minds
  channel : w.channel = w'.channel
  past : w.past.filterMap c.view = w'.past.filterMap c.view

/-- All is seen. -/
def exact (alike : σ → τ → Prop) : Comparison σ τ α where
  alike
  minds _ := true
  excuses _ := false
  view := some
  calls _ := rfl
  events _ := rfl
  replies _ := rfl
  announced _ _ _ h := by rw [eq_of_filter_true h]
  delivered _ h := by cases h
  wrote _ h := by cases h
  failed _ _ h := by rcases h with h | h <;> cases h

/-- The same comparison from the other side. -/
def flip : Comparison τ σ α where
  alike h' h := c.alike h h'
  minds := c.minds
  excuses := c.excuses
  view := c.view
  calls := c.calls
  events := c.events
  replies := c.replies
  announced := c.announced
  delivered := c.delivered
  wrote := c.wrote
  failed := c.failed

section Itself

variable {c : Comparison σ σ α} (hc : ∀ {h h'}, c.alike h h' ↔ h = h')

include hc

theorem Alike.itself (r : Reaction σ α β) : c.Alike r r := ⟨hc.mpr rfl, rfl⟩

theorem StoresAlike.itself (s : Store σ α) : c.StoresAlike s s where
  answer _ _ _ h := by rw [hc.mp h]
  vote _ _ _ h := by
    rw [hc.mp h]
    exact .itself hc _
  complete _ _ _ _ h := by
    rw [hc.mp h]
    exact .itself hc _
  signal _ _ _ h := by
    rw [hc.mp h]
    exact .itself hc _

theorem MovesAlike.itself (m : Move σ α) : c.MovesAlike m m := by
  cases m with
  | turn => exact .turn
  | outside act =>
    refine .outside fun h => ?_
    rw [hc.mp h]
    exact .itself hc _
  | kill => exact .kill

theorem MovesAlike.themselves (moves : List (Move σ α)) :
    List.Forall₂ c.MovesAlike moves moves := List.forall₂_same.mpr fun m _ => .itself hc m

theorem Relates.itself (hminds : ∀ observer, c.minds observer = true) (setup : Setup σ α) :
    c.Relates setup setup where
  stores := List.forall₂_same.mpr fun entry _ => ⟨rfl, .itself hc entry.2⟩
  heard _ _ _ _ h := by
    rw [hc.mp h]
    exact .itself hc _
  answer _ _ _ _ _ h := by rw [hc.mp h]
  unheard {observer} _ _ _ ho _ := by
    rw [hminds observer] at ho
    cases ho
  unheard' {observer} _ _ _ ho _ := by
    rw [hminds observer] at ho
    cases ho

end Itself

namespace Matches

variable {c} {w : World σ α} {w' : World τ α}

theorem flip (h : c.Matches w w') : c.flip.Matches w' w :=
  ⟨h.host, h.inbox.symm, h.isOpen.symm, h.handles.symm, h.observers.symm, h.channel.symm,
    h.past.symm⟩

theorem withHost (h : c.Matches w w') {host : σ} {host' : τ} (ha : c.alike host host') :
    c.Matches { w with host } { w' with host := host' } :=
  ⟨ha, h.inbox, h.isOpen, h.handles, h.observers, h.channel, h.past⟩

theorem record (h : c.Matches w w') {entry entry' : Entry α} (hv : c.view entry = c.view entry') :
    c.Matches (w.record entry) (w'.record entry') := by
  refine ⟨h.host, h.inbox, h.isOpen, h.handles, h.observers, h.channel, ?_⟩
  unfold World.record
  rw [List.filterMap_cons, List.filterMap_cons, hv, h.past]

/-- What is not seen may happen on one side alone. -/
theorem recordLeft (h : c.Matches w w') {entry : Entry α} (hv : c.view entry = none) :
    c.Matches (w.record entry) w' := by
  refine ⟨h.host, h.inbox, h.isOpen, h.handles, h.observers, h.channel, ?_⟩
  unfold World.record
  rw [List.filterMap_cons, hv, h.past]

theorem send (h : c.Matches w w') (message : Message α) :
    c.Matches (w.send message) (w'.send message) := by
  unfold World.send
  by_cases hhandles : w.handles = 0
  · have hhandles' : w'.handles = 0 := h.handles ▸ hhandles
    rw [if_pos hhandles, if_pos hhandles']
    exact h
  have hhandles' : ¬ w'.handles = 0 := h.handles ▸ hhandles
  rw [if_neg hhandles, if_neg hhandles']
  by_cases hopen : w.isOpen = true
  · have hopen' : w'.isOpen = true := h.isOpen ▸ hopen
    rw [if_pos hopen, if_pos hopen']
    have hput : c.Matches { w with inbox := w.inbox ++ [message] }
        { w' with inbox := w'.inbox ++ [message] } :=
      ⟨h.host, congrArg (· ++ [message]) h.inbox, h.isOpen, h.handles, h.observers, h.channel,
        h.past⟩
    exact hput.record rfl
  have hopen' : ¬ w'.isOpen = true := h.isOpen ▸ hopen
  rw [if_neg hopen, if_neg hopen']
  cases message with
  | dispatch action => exact h.record rfl
  | status inquiry => exact h.record rfl
  | shutdown => exact h

theorem mem_observers (h : c.Matches w w') {observer : ObserverName}
    (ho : c.minds observer = true) : observer ∈ w.observers ↔ observer ∈ w'.observers := by
  have hmem : observer ∈ w.observers.filter c.minds ↔ observer ∈ w'.observers.filter c.minds := by
    rw [h.observers]
  simpa [ho] using hmem

theorem watch (h : c.Matches w w') {observer : ObserverName} (ho : c.minds observer = true) :
    c.Matches (w.watch observer) (w'.watch observer) := by
  unfold World.watch
  by_cases hmem : observer ∈ w.observers
  · rw [if_pos hmem, if_pos ((h.mem_observers ho).mp hmem)]
    exact h
  · rw [if_neg hmem, if_neg (mt (h.mem_observers ho).mpr hmem)]
    refine ⟨h.host, h.inbox, h.isOpen, h.handles, ?_, h.channel, h.past⟩
    rw [List.filter_append, List.filter_append, h.observers]

theorem unwatch (h : c.Matches w w') (observer : ObserverName) :
    c.Matches (w.unwatch observer) (w'.unwatch observer) := by
  refine ⟨h.host, h.inbox, h.isOpen, h.handles, ?_, h.channel, h.past⟩
  have hcomm : ∀ l : List ObserverName,
      (l.filter (· ≠ observer)).filter c.minds = (l.filter c.minds).filter (· ≠ observer) := by
    intro l
    simp only [List.filter_filter, Bool.and_comm]
  exact (hcomm _).trans ((congrArg _ h.observers).trans (hcomm _).symm)

theorem resolve (h : c.Matches w w') (ticket : Ticket) (outcome : Outcome) :
    c.Matches (w.resolve ticket outcome) (w'.resolve ticket outcome) := by
  unfold World.resolve
  rw [← h.channel]
  split
  · have hset : c.Matches { w with channel := ⟨ticket, some outcome⟩ }
        { w' with channel := ⟨ticket, some outcome⟩ } :=
      ⟨h.host, h.inbox, h.isOpen, h.handles, h.observers, rfl, h.past⟩
    exact hset.record rfl
  · exact h

theorem perform (h : c.Matches w w') (speaker : Speaker) {request : Request α}
    (hr : c.counts request = true) :
    c.Matches (w.perform speaker request) (w'.perform speaker request) := by
  cases request with
  | send message => exact h.send message
  | clone =>
    unfold World.perform
    dsimp only
    rw [← h.handles]
    split
    · exact h
    · exact ⟨h.host, h.inbox, h.isOpen, rfl, h.observers, h.channel, h.past⟩
  | release =>
    exact ⟨h.host, h.inbox, h.isOpen, congrArg (· - 1) h.handles, h.observers, h.channel, h.past⟩
  | watch observer => exact h.watch hr
  | unwatch observer => exact h.unwatch observer
  | resolve ticket outcome => exact h.resolve ticket outcome
  | write line => exact h.record rfl

/-- A registration that does not count may be made on one side alone. -/
theorem performLeft (h : c.Matches w w') (speaker : Speaker) {request : Request α}
    (hr : c.counts request = false) : c.Matches (w.perform speaker request) w' := by
  cases request with
  | watch observer =>
    have hminds : c.minds observer = false := hr
    have ho : ([observer] : List ObserverName).filter c.minds = [] := by
      rw [List.filter_cons_of_neg (Bool.eq_false_iff.mp hminds), List.filter_nil]
    change c.Matches (w.watch observer) w'
    unfold World.watch
    split
    · exact h
    · refine ⟨h.host, h.inbox, h.isOpen, h.handles, ?_, h.channel, h.past⟩
      rw [List.filter_append, ho, List.append_nil, h.observers]
  | unwatch observer =>
    have hminds : c.minds observer = false := hr
    refine ⟨h.host, h.inbox, h.isOpen, h.handles, ?_, h.channel, h.past⟩
    change (w.observers.filter (· ≠ observer)).filter c.minds = _
    rw [List.filter_filter, ← h.observers]
    refine List.filter_congr fun o _ => ?_
    by_cases ho : o = observer
    · simp [ho, hminds]
    · simp [ho]
  | send | clone | release | resolve | write => cases hr

theorem absorb (h : c.Matches w w') (speaker : Speaker) {r : Reaction σ α β} {r' : Reaction τ α β}
    (hr : c.Alike r r') : c.Matches (w.absorb speaker r) (w'.absorb speaker r') :=
  foldl_filtered c.counts (fun _ hcounts h => h.perform speaker hcounts)
    (fun _ hcounts h => h.performLeft speaker hcounts)
    (fun _ hcounts h => (h.flip.performLeft speaker hcounts).flip) hr.requests (h.withHost hr.host)

variable {setup : Setup σ α} {setup' : Setup τ α}

/-- An observer that counts receives the event on both sides. -/
theorem hand (h : c.Matches w w') (hs : c.Relates setup setup') (event : Event α)
    {observer : ObserverName} (ho : c.minds observer = true) :
    c.Matches (w.hand setup event observer) (w'.hand setup' event observer) := by
  have hdelivered : c.Matches (w.record (.delivered observer event))
      (w'.record (.delivered observer event)) := h.record rfl
  have habsorbed := hdelivered.absorb (.observer observer) (hs.heard event ho h.host)
  unfold World.hand
  dsimp only
  cases hexcused : c.excuses observer with
  | false =>
    rw [← hs.answer event ho hexcused h.host]
    split
    · exact habsorbed
    · exact habsorbed.record rfl
  | true =>
    have hfailed : ∀ why, c.view (.noted (.observerFailed observer event.kind why)) = none :=
      fun why => c.failed event.kind why (.inr hexcused)
    split
    · split
      · exact habsorbed
      · exact (habsorbed.flip.recordLeft (hfailed _)).flip
    · split
      · exact habsorbed.recordLeft (hfailed _)
      · exact habsorbed.record ((hfailed _).trans (hfailed _).symm)

/-- That an observer that does not count receives an event is not noticed. -/
theorem handLeft (h : c.Matches w w') (event : Event α) {observer : ObserverName}
    (ho : c.minds observer = false)
    (hhost : c.alike (setup.observe observer event w.host).host w'.host)
    (hr : Harmless (setup.observe observer event w.host)) :
    c.Matches (w.hand setup event observer) w' := by
  have hdelivered := h.recordLeft (c.delivered event ho)
  have hhosted : c.Matches { w.record (.delivered observer event) with
      host := (setup.observe observer event w.host).host } w' :=
    ⟨hhost, hdelivered.inbox, hdelivered.isOpen, hdelivered.handles, hdelivered.observers,
      hdelivered.channel, hdelivered.past⟩
  have habsorbed : c.Matches ((w.record (.delivered observer event)).absorb (.observer observer)
      (setup.observe observer event w.host)) w' := by
    refine List.foldlRecOn (motive := (c.Matches · w')) _ _ hhosted fun w h request hrequest => ?_
    obtain ⟨line, rfl⟩ := hr request hrequest
    exact h.recordLeft (c.wrote line ho)
  unfold World.hand
  dsimp only
  split
  · exact habsorbed
  · exact habsorbed.recordLeft (c.failed _ _ (.inl ho))

theorem announce (h : c.Matches w w') (hs : c.Relates setup setup') (event : Event α) :
    c.Matches (w.announce setup event) (w'.announce setup' event) := by
  refine foldl_filtered c.minds (fun _ ho h => h.hand hs event ho) (fun _ ho h => ?_)
    (fun _ ho h => ?_) h.observers (h.record (c.announced event h.observers))
  · obtain ⟨hhost, hr⟩ := hs.unheard event ho h.host
    exact h.handLeft event ho hhost hr
  · obtain ⟨hhost, hr⟩ := hs.unheard' event ho h.host
    exact (h.flip.handLeft event ho hhost hr).flip

theorem discardInbox (h : c.Matches w w') : c.Matches w.discardInbox w'.discardInbox := by
  have hclosed : c.Matches { w with inbox := [], isOpen := false }
      { w' with inbox := [], isOpen := false } :=
    ⟨h.host, rfl, rfl, h.handles, h.observers, h.channel, h.past⟩
  unfold World.discardInbox
  rw [← h.inbox]
  refine List.foldl_rel hclosed fun message _ w w' h => ?_
  cases message with
  | status inquiry => exact h.record rfl
  | dispatch action => exact h
  | shutdown => exact h

theorem pairs (name : StoreName) {s : Store σ α} {s' : Store τ α} (hs : c.StoresAlike s s') :
    s.Pairs c.Matches name s' where
  answer action h := hs.answer action h.host
  vote action h := (h.record rfl).absorb (.store name) (hs.vote action h.host)
  complete action ticket h := (h.record rfl).absorb (.store name) (hs.complete action ticket h.host)
  signal action h := (h.record rfl).absorb (.store name) (hs.signal action h.host)

theorem seen (h : c.Matches w w') :
    w.history.filterMap c.view = w'.history.filterMap c.view := by
  unfold World.history
  rw [List.filterMap_reverse, List.filterMap_reverse, h.past]

/-- What can be told from what is seen of each step is the same. -/
theorem filterMap {f : Entry α → Option β} (h : c.Matches w w')
    (hf : ∀ entry, (c.view entry).bind f = f entry) :
    w.history.filterMap f = w'.history.filterMap f := by
  have hview : (fun entry => (c.view entry).bind f) = f := funext hf
  rw [← hview, ← List.filterMap_filterMap, ← List.filterMap_filterMap, h.seen]

theorem history {alike : σ → τ → Prop} (h : (exact alike).Matches w w') :
    w.history = w'.history := by
  have hseen : List.filterMap some _ = List.filterMap some _ := h.seen
  rwa [List.filterMap_some, List.filterMap_some] at hseen

end Matches

variable {c} {setup : Setup σ α} {setup' : Setup τ α} {capacity capacity' : Nat}

/-- Setups that act alike keep engines in step. The capacity is on record only in the notice of the
start. -/
theorem Relates.lockstep (hs : c.Relates setup setup')
    (hstarted : ∀ stores, c.view (.noted (.started stores capacity)) =
      c.view (.noted (.started stores capacity'))) :
    World.Lockstep setup setup' capacity capacity' c.Matches where
  stores := hs.stores.imp fun _ _ h => ⟨h.1, Matches.pairs _ h.2⟩
  sameInbox h := h.inbox
  sameHandles h := h.handles
  sameChannel h := h.channel
  announce event h := h.announce hs event
  record _ _ h := h.record rfl
  started stores h := h.record (hstarted stores)
  channel _ h := ⟨h.host, h.inbox, h.isOpen, h.handles, h.observers, rfl, h.past⟩
  take _ h := ⟨h.host, rfl, h.isOpen, h.handles, h.observers, h.channel, h.past⟩
  close h := ⟨h.host, h.inbox, rfl, h.handles, h.observers, h.channel, h.past⟩
  discard h := h.discardInbox

theorem MovesAlike.pairs {m : Move σ α} {m' : Move τ α} (h : c.MovesAlike m m') :
    m.Pairs c.Matches m' := by
  cases h with
  | turn => exact .turn
  | outside hact => exact .outside fun hw => hw.absorb .outside (hact hw.host)
  | kill => exact .kill

variable (c) in
/-- Nothing that is seen tells the two engines apart. -/
structure Concur (setup : Setup σ α) (setup' : Setup τ α) (e : Engine σ α) (d : Engine τ α) : Prop
    extends Engine.SameConduct setup setup' e d where
  world : c.Matches e.world d.world

theorem Concur.of_abreast {e : Engine σ α} {d : Engine τ α}
    (hR : World.Lockstep setup setup' capacity capacity' c.Matches)
    (h : Engine.Abreast capacity capacity' c.Matches e d) : c.Concur setup setup' e d where
  calls := h.world.filterMap c.calls
  events := by
    rw [World.events_eq, World.events_eq]
    exact h.world.filterMap c.events
  replies := h.world.filterMap c.replies
  status := h.status
  life := h.life
  stalled := h.stalled hR
  world := h.world

variable {moves : List (Move σ α)} {moves' : List (Move τ α)} {host : σ} {host' : τ}
  {observers observers' : List ObserverName}

/-- Runs from alike beginnings concur, as long as the second backlog has a place for whatever the
first has a place for. -/
theorem Relates.concur_of_room (hs : c.Relates setup setup')
    (hstarted : ∀ stores, c.view (.noted (.started stores capacity)) =
      c.view (.noted (.started stores capacity')))
    (hmoves : List.Forall₂ c.MovesAlike moves moves') (hhost : c.alike host host') (handles : Nat)
    (hobservers : observers.filter c.minds = observers'.filter c.minds)
    (hroom : ∀ before, before <+: moves →
      (Engine.played setup capacity host handles observers before).Room capacity capacity') :
    c.Concur setup setup' (.played setup capacity host handles observers moves)
      (.played setup' capacity' host' handles observers' moves') := by
  have hinitial : c.Matches (.initial host handles observers) (.initial host' handles observers') :=
    ⟨hhost, rfl, rfl, rfl, hobservers, rfl, rfl⟩
  have hplayed := (Engine.Abreast.initial hinitial).play (hs.lockstep hstarted)
    (hmoves.imp fun _ _ => MovesAlike.pairs) hroom
  exact .of_abreast (hs.lockstep hstarted) hplayed

theorem Relates.concur (hs : c.Relates setup setup')
    (hmoves : List.Forall₂ c.MovesAlike moves moves') (hhost : c.alike host host')
    (capacity handles : Nat) (hobservers : observers.filter c.minds = observers'.filter c.minds) :
    c.Concur setup setup' (.played setup capacity host handles observers moves)
      (.played setup' capacity host' handles observers' moves') :=
  hs.concur_of_room (fun _ => rfl) hmoves hhost handles hobservers fun _ _ => .inl rfl

end Comparison

end Concord
