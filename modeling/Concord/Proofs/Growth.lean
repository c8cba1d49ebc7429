import Concord.Setup
import Concord.Proofs.Bindings

/-!
# How a world grows

A world only adds to its past. `Milestone` is what an engine does itself; requests and deliveries
happen in between and leave no milestone. `World.Grows` says which milestones an operation adds and
what it may do to the inbox and the channel meanwhile; there is one lemma for each operation. The
requests of a callback are arbitrary throughout.
-/
namespace Concord

variable {σ α : Type}

/-- A step of an engine, as opposed to what is sent to it, delivered by it or logged by others. -/
inductive Milestone (α : Type) where
  | took (message : Message α)
  | called (callback : Callback α)
  | voted (ballot : Ballot)
  | announced (event : Event α)
  | noted (notice : Notice α)
  | answered (inquiry : Inquiry) (status : Status)
deriving DecidableEq

/-- Whether the notice is about an engine's own work: the other two come up when something is sent
or delivered. -/
def Notice.isOwn : Notice α → Bool
  | refused _ | observerFailed .. => false
  | _ => true

namespace Entry

def milestone? : Entry α → Option (Milestone α)
  | took message => some (.took message)
  | called callback => some (.called callback)
  | voted ballot => some (.voted ballot)
  | announced event _ => some (.announced event)
  | noted notice => if notice.isOwn then some (.noted notice) else none
  | answered inquiry status => status.map (.answered inquiry)
  | _ => none

def sent? : Entry α → Option (Message α)
  | sent message => some message
  | _ => none

/-- The answer that the channel with the ticket receives in this step. -/
def outcome? (ticket : Ticket) : Entry α → Option Outcome
  | settled t outcome => if t = ticket then some outcome else none
  | _ => none

end Entry

namespace Milestone

def isOpening : Milestone α → Bool
  | called (.complete ..) => true
  | _ => false

/-- A store is asked for its vote and casts it. -/
def voting (action : α) (ballot : Ballot) : List (Milestone α) :=
  [.called (.vote ballot.store action), .voted ballot]

def invocation (action : α) (store : StoreName) (ticket : Ticket) : List (Milestone α) :=
  [.announced (.execute store action), .called (.complete store action ticket)]

/-- It is announced what became of a store's channel. -/
def settlement (action : α) (store : StoreName) (outcome : Outcome) : List (Milestone α) :=
  match outcome.failure? with
  | none => [.announced (.ack store action)]
  | some why => [.noted (.storeFailed store action why), .announced (.nack store action why)]

theorem countP_settlement (action : α) (store : StoreName) (outcome : Outcome) :
    (settlement action store outcome).countP isOpening = 0 := by
  unfold settlement
  cases outcome.failure? <;> rfl

end Milestone

/-- What stands in front of a list and not in what follows stands in the list alone. -/
theorem prefix_of_notMem_append {β : Type} {before l fresh : List β} {x : β}
    (h : before ++ [x] <+: l ++ fresh) (hx : x ∉ fresh) : before ++ [x] <+: l := by
  induction fresh using List.reverseRecOn with
  | nil => rwa [List.append_nil] at h
  | append_singleton fresh y ih =>
    rw [List.mem_append, List.mem_singleton, not_or] at hx
    rw [← List.append_assoc, List.prefix_concat_iff] at h
    rcases h with h | h
    · obtain ⟨-, hxy⟩ := List.append_inj' h rfl
      exact absurd (List.singleton_inj.mp hxy) hx.2
    · exact ih h hx.1

namespace World

def milestones (w : World σ α) : List (Milestone α) := w.history.filterMap Entry.milestone?

/-- The messages that were put into the inbox, in their order. -/
def sent (w : World σ α) : List (Message α) := w.history.filterMap Entry.sent?

/-- The answer on record for a channel: its first one. -/
def outcomeOf (w : World σ α) (ticket : Ticket) : Option Outcome :=
  w.history.findSome? (Entry.outcome? ticket)

@[simp] theorem history_record (w : World σ α) (entry : Entry α) :
    (w.record entry).history = w.history ++ [entry] := List.reverse_cons

theorem sent_record (w : World σ α) {entry : Entry α} (h : entry.sent? = none) :
    (w.record entry).sent = w.sent ++ [] := by
  rw [sent, sent, history_record, List.filterMap_append, List.filterMap_cons, h]
  rfl

/-- The channel shows what is on record of it, and later channels have no record. -/
def ChannelOnRecord (w : World σ α) : Prop :=
  ∀ ticket, w.channel.ticket ≤ ticket →
    w.outcomeOf ticket = if ticket = w.channel.ticket then w.channel.outcome else none

/-- The second world comes from the first by steps with these milestones. -/
structure Adds (w : World σ α) (ms : List (Milestone α)) (w' : World σ α) : Prop where
  past : ∃ fresh, w'.history = w.history ++ fresh ∧ fresh.filterMap Entry.milestone? = ms
  ticket : w'.channel.ticket = w.channel.ticket + ms.countP Milestone.isOpening
  onRecord : w.ChannelOnRecord → w'.ChannelOnRecord

/-- Moreover no message has left the inbox, and a closed inbox has taken none. -/
structure Grows (w : World σ α) (ms : List (Milestone α)) (w' : World σ α) : Prop
    extends w.Adds ms w' where
  mail : ∃ arrived, w'.inbox = w.inbox ++ arrived ∧ w'.sent = w.sent ++ arrived ∧
    (w.isOpen = false → arrived = [])
  isOpen : w'.isOpen = w.isOpen

namespace Adds

variable {w w' w'' : World σ α} {ms ms' : List (Milestone α)}

theorem same (hp : w'.past = w.past) (hc : w'.channel = w.channel) : w.Adds [] w' := by
  have hh : w'.history = w.history := by rw [history, history, hp]
  refine ⟨⟨[], by rw [hh, List.append_nil], rfl⟩, by rw [hc]; rfl, ?_⟩
  intro h ticket hle
  rw [World.outcomeOf, hh, hc]
  exact h ticket (hc ▸ hle)

theorem trans (h : w.Adds ms w') (h' : w'.Adds ms' w'') : w.Adds (ms ++ ms') w'' := by
  obtain ⟨fresh, hh, hm⟩ := h.past
  obtain ⟨fresh', hh', hm'⟩ := h'.past
  refine ⟨⟨fresh ++ fresh', ?_, ?_⟩, ?_, fun hr => h'.onRecord (h.onRecord hr)⟩
  · rw [hh', hh, List.append_assoc]
  · rw [List.filterMap_append, hm, hm']
  · rw [h'.ticket, h.ticket, List.countP_append, Nat.add_assoc]

theorem milestones (h : w.Adds ms w') : w'.milestones = w.milestones ++ ms := by
  obtain ⟨fresh, hh, hm⟩ := h.past
  rw [World.milestones, World.milestones, hh, List.filterMap_append, hm]

/-- What is on record of a channel stays. -/
theorem outcomeOf (h : w.Adds ms w') {ticket : Ticket} {outcome : Outcome}
    (ho : w.outcomeOf ticket = some outcome) : w'.outcomeOf ticket = some outcome := by
  obtain ⟨fresh, hh, -⟩ := h.past
  unfold World.outcomeOf at ho ⊢
  rw [hh, List.findSome?_append, ho, Option.some_or]

/-- A step that settles no channel and opens none. -/
theorem record (w : World σ α) {entry : Entry α} (ho : ∀ ticket, entry.outcome? ticket = none)
    (hm : entry.milestone?.toList = ms) (hn : ms.countP Milestone.isOpening = 0) :
    w.Adds ms (w.record entry) := by
  refine ⟨⟨[entry], history_record w entry, ?_⟩, by rw [hn]; rfl, ?_⟩
  · rw [← hm]
    cases h : entry.milestone? <;> simp [h]
  · intro h ticket hle
    rw [World.outcomeOf, history_record, List.findSome?_append, List.findSome?_singleton, ho,
      Option.or_none]
    exact h ticket hle

end Adds

namespace Grows

variable {w w' w'' : World σ α} {ms ms' : List (Milestone α)}

theorem same (hp : w'.past = w.past) (hi : w'.inbox = w.inbox) (ho : w'.isOpen = w.isOpen)
    (hc : w'.channel = w.channel) : w.Grows [] w' := by
  refine ⟨.same hp hc, ⟨[], by rw [hi, List.append_nil], ?_, fun _ => rfl⟩, ho⟩
  rw [World.sent, World.sent, history, history, hp, List.append_nil]

theorem refl (w : World σ α) : w.Grows [] w := same rfl rfl rfl rfl

theorem trans (h : w.Grows ms w') (h' : w'.Grows ms' w'') : w.Grows (ms ++ ms') w'' := by
  obtain ⟨arrived, hi, hs, hc⟩ := h.mail
  obtain ⟨arrived', hi', hs', hc'⟩ := h'.mail
  refine ⟨h.toAdds.trans h'.toAdds, ⟨arrived ++ arrived', ?_, ?_, ?_⟩, h'.isOpen.trans h.isOpen⟩
  · rw [hi', hi, List.append_assoc]
  · rw [hs', hs, List.append_assoc]
  · intro ho
    rw [hc ho, hc' (h.isOpen.trans ho), List.append_nil]

theorem foldl {β : Type} {f : World σ α → β → World σ α}
    (hf : ∀ (w : World σ α) b, w.Grows [] (f w b)) (l : List β) (w : World σ α) :
    w.Grows [] (l.foldl f w) := by
  induction l generalizing w with
  | nil => exact .refl w
  | cons b rest ih => exact (hf w b).trans (ih _)

/-- A step that sends nothing, settles no channel and opens none. -/
theorem record (w : World σ α) {entry : Entry α} (hs : entry.sent? = none)
    (ho : ∀ ticket, entry.outcome? ticket = none) (hm : entry.milestone?.toList = ms)
    (hn : ms.countP Milestone.isOpening = 0) : w.Grows ms (w.record entry) :=
  ⟨.record w ho hm hn, ⟨[], (List.append_nil _).symm, sent_record w hs, fun _ => rfl⟩, rfl⟩

theorem vote (w : World σ α) (ballot : Ballot) :
    w.Grows [.voted ballot] (w.record (.voted ballot)) :=
  .record w rfl (fun _ => rfl) rfl rfl

theorem note (w : World σ α) (notice : Notice α) (h : notice.isOwn = true) :
    w.Grows [.noted notice] (w.note notice) := by
  have hm : (Entry.noted notice).milestone? = some (.noted notice) := if_pos h
  exact .record w rfl (fun _ => rfl) (by rw [hm]; rfl) rfl

end Grows

variable (setup : Setup σ α)

theorem send_grows (w : World σ α) (message : Message α) : w.Grows [] (w.send message) := by
  unfold send
  split
  · exact .refl w
  split
  · rename_i ho
    let v : World σ α := { w with inbox := w.inbox ++ [message] }
    have hput : w.Adds [] v := .same rfl rfl
    have hrec : v.Adds [] (v.record (.sent message)) := .record v (fun _ => rfl) rfl rfl
    refine ⟨hput.trans hrec, ⟨[message], rfl, ?_, fun hc => ?_⟩, rfl⟩
    · rw [sent, history_record, List.filterMap_append]
      rfl
    · rw [ho] at hc
      cases hc
  · cases message with
    | dispatch action => exact .record w rfl (fun _ => rfl) rfl rfl
    | status inquiry => exact .record w rfl (fun _ => rfl) rfl rfl
    | shutdown => exact .refl w

theorem resolve_grows (w : World σ α) (ticket : Ticket) (outcome : Outcome) :
    w.Grows [] (w.resolve ticket outcome) := by
  unfold resolve
  split
  · rename_i hcond
    obtain ⟨rfl, hnone⟩ := hcond
    refine ⟨⟨⟨[.settled w.channel.ticket outcome], history_record _ _, rfl⟩, rfl, ?_⟩,
      ⟨[], (List.append_nil _).symm, sent_record _ rfl, fun _ => rfl⟩, rfl⟩
    -- The channel had no answer on record, so this one is its first.
    intro h t hle
    have hold := h t hle
    rw [outcomeOf, history_record, List.findSome?_append]
    change (w.outcomeOf t).or _ = if t = w.channel.ticket then some outcome else none
    rw [hold, hnone]
    by_cases ht : t = w.channel.ticket
    · simp [ht, Entry.outcome?]
    · simp [ht, Ne.symm ht, Entry.outcome?]
  · exact .refl w

theorem perform_grows (speaker : Speaker) (w : World σ α) (request : Request α) :
    w.Grows [] (w.perform speaker request) := by
  cases request with
  | send message => exact send_grows w message
  | clone =>
    change w.Grows [] (if w.handles = 0 then w else _)
    split
    · exact .refl w
    · exact .same rfl rfl rfl rfl
  | release => exact .same rfl rfl rfl rfl
  | watch observer =>
    change w.Grows [] (w.watch observer)
    unfold watch
    split
    · exact .refl w
    · exact .same rfl rfl rfl rfl
  | unwatch observer => exact .same rfl rfl rfl rfl
  | resolve ticket outcome => exact resolve_grows w ticket outcome
  | write line => exact .record w rfl (fun _ => rfl) rfl rfl

theorem absorb_grows {β : Type} (speaker : Speaker) (reaction : Reaction σ α β) (w : World σ α) :
    w.Grows [] (w.absorb speaker reaction) := by
  have hhost : w.Grows [] { w with host := reaction.host } := .same rfl rfl rfl rfl
  exact hhost.trans (.foldl (perform_grows speaker) reaction.requests _)

theorem hand_grows (event : Event α) (w : World σ α) (observer : ObserverName) :
    w.Grows [] (hand setup event w observer) := by
  unfold hand
  have hrec : w.Grows [] (w.record (.delivered observer event)) :=
    .record w rfl (fun _ => rfl) rfl rfl
  have habs := hrec.trans
    (absorb_grows (.observer observer) (setup.observe observer event w.host) _)
  dsimp only
  split
  · exact habs
  · exact habs.trans (.record _ rfl (fun _ => rfl) rfl rfl)

theorem announce_grows (w : World σ α) (event : Event α) :
    w.Grows [.announced event] (w.announce setup event) := by
  have hrec : w.Grows [.announced event] (w.record (.announced event w.observers)) :=
    .record w rfl (fun _ => rfl) rfl rfl
  exact hrec.trans (.foldl (hand_grows setup event) w.observers _)

/-- Closing an inbox empties it, and no more than that. -/
theorem discardInbox_grows (w : World σ α) :
    Grows { w with inbox := [], isOpen := false } [] w.discardInbox := by
  refine Grows.foldl (fun w message => ?_) w.inbox _
  cases message with
  | status inquiry => exact .record w rfl (fun _ => rfl) rfl rfl
  | dispatch action => exact .refl w
  | shutdown => exact .refl w

theorem discardInbox_adds (w : World σ α) : w.Adds [] w.discardInbox := by
  have hclose : w.Adds [] { w with inbox := [], isOpen := false } := .same rfl rfl
  exact hclose.trans w.discardInbox_grows.toAdds

theorem canvass_stores (action : α) (entries : List (StoreName × Store σ α)) (w : World σ α) :
    (canvass action entries w).1.map Ballot.store = entries.map Prod.fst := by
  induction entries generalizing w with
  | nil => rfl
  | cons entry rest ih => exact congrArg (entry.1 :: ·) (ih _)

theorem canvass_grows (action : α) (entries : List (StoreName × Store σ α)) (w : World σ α) :
    w.Grows ((canvass action entries w).1.flatMap (Milestone.voting action))
      (canvass action entries w).2 := by
  induction entries generalizing w with
  | nil => exact .refl w
  | cons entry rest ih =>
    obtain ⟨store, callbacks⟩ := entry
    have hcall : w.Grows [.called (.vote store action)] (w.record (.called (.vote store action))) :=
      .record w rfl (fun _ => rfl) rfl rfl
    have habs := hcall.trans (absorb_grows (.store store) (callbacks.vote action w.host) _)
    exact (habs.trans (.vote _ ⟨store, _⟩)).trans (ih _)

theorem assign_grows (store : StoreName) (callbacks : Store σ α) (action : α) (w : World σ α) :
    w.Grows [.called (.complete store action (w.channel.ticket + 1))]
      (w.assign store callbacks action) := by
  have hopen : w.Grows [.called (.complete store action (w.channel.ticket + 1))]
      ({ w with channel := ⟨w.channel.ticket + 1, none⟩ }.record
        (.called (.complete store action (w.channel.ticket + 1)))) := by
    refine ⟨⟨⟨[_], history_record _ _, rfl⟩, rfl, ?_⟩,
      ⟨[], (List.append_nil _).symm, sent_record _ rfl, fun _ => rfl⟩, rfl⟩
    -- No channel after the current one has an answer on record, so neither has the new one.
    intro h ticket hle
    change w.channel.ticket + 1 ≤ ticket at hle
    have hold : w.outcomeOf ticket = none := by
      rw [h ticket (Nat.le_of_succ_le hle), if_neg (Nat.ne_of_gt hle)]
    rw [outcomeOf, history_record, List.findSome?_append]
    change (w.outcomeOf ticket).or none = if _ then none else none
    rw [hold, ite_self, Option.or_none]
  exact hopen.trans (absorb_grows (.store store) _ _)

theorem signal_grows (action : α) {store : StoreName} (h : setup.stores.contains store = true)
    (w : World σ α) : w.Grows [.called (.signal store action)] (w.signal setup action store) := by
  obtain ⟨callbacks, hf⟩ := Roster.exists_find? h
  unfold signal
  rw [hf]
  have hcall : w.Grows [.called (.signal store action)]
      (w.record (.called (.signal store action))) := .record w rfl (fun _ => rfl) rfl rfl
  exact hcall.trans (absorb_grows (.store store) _ _)

theorem signals_grow (action : α) {stores : List StoreName}
    (h : ∀ s ∈ stores, setup.stores.contains s = true) (w : World σ α) :
    w.Grows (stores.map fun s => .called (.signal s action))
      (stores.foldl (signal setup action) w) := by
  induction stores generalizing w with
  | nil => exact .refl w
  | cons store rest ih =>
    have hhead := signal_grows setup action (h store List.mem_cons_self) w
    exact hhead.trans (ih (fun s hs => h s (List.mem_cons_of_mem _ hs)) _)

theorem announceOutcome_grows (store : StoreName) (action : α) (outcome : Outcome)
    (w : World σ α) :
    w.Grows (Milestone.settlement action store outcome)
      (w.announceOutcome setup store action outcome) := by
  unfold announceOutcome Milestone.settlement
  cases outcome.failure? with
  | none => exact announce_grows setup w _
  | some why => exact (Grows.note w _ rfl).trans (announce_grows setup _ _)

end World

end Concord
