import Concord.Proofs.Engine.Observers

/-!
# What a journal bears out

The journal beside the host lists all calls, with what is asked for in each of them. Whatever is
said of a world and its journal holds throughout a run if no call ends it, nor any step that an
engine takes without a call. One thing that a journal bears out is that an observer that nobody has
asked to remove is in every announcement.
-/
namespace Concord

variable {σ α β : Type}

/-- The same reaction without its answer. -/
def Reaction.plain (reaction : Reaction σ α β) : Reaction σ α Unit :=
  ⟨reaction.host, reaction.requests, ()⟩

/-- Somebody is called, or the outside acts: what is on record of it, who speaks, and what they
do. -/
inductive Setup.Speaks (setup : Setup σ α) :
    Option (Entry α) → Speaker → (σ → Reaction σ α Unit) → Prop where
  | vote {name : StoreName} {store : Store σ α} (h : (name, store) ∈ setup.stores.entries)
      (action : α) :
      Speaks setup (some (.called (.vote name action))) (.store name) fun host =>
        (store.vote action host).plain
  | complete {name : StoreName} {store : Store σ α} (h : (name, store) ∈ setup.stores.entries)
      (action : α) (ticket : Ticket) :
      Speaks setup (some (.called (.complete name action ticket))) (.store name) fun host =>
        (store.complete action ticket host).plain
  | signal {name : StoreName} {store : Store σ α} (h : (name, store) ∈ setup.stores.entries)
      (action : α) :
      Speaks setup (some (.called (.signal name action))) (.store name) fun host =>
        (store.signal action host).plain
  | observe (observer : ObserverName) (event : Event α) :
      Speaks setup (some (.delivered observer event)) (.observer observer) fun host =>
        (setup.observe observer event host).plain
  | outside (act : σ → Reaction σ α Unit) : Speaks setup none .outside act

/-- Whether the step is put on record without a call, and is neither an announcement nor something
that was asked for. -/
def Entry.isComment : Entry α → Bool
  | sent _ | settled .. | wrote .. | noted (.refused _) => false
  | called _ | announced .. | delivered .. => false
  | _ => true

theorem Entry.isComment_of_isRemark {entry : Entry α} (h : entry.isRemark = true) :
    entry.isComment = true := by
  cases entry with
  | noted notice => cases notice <;> first | rfl | cases h
  | took | voted | answered => rfl
  | sent | called | settled | announced | delivered | wrote => cases h

namespace World

/-- The call is put on record, and then what is asked for in it is done. -/
def speak (w : World σ α) (entry : Option (Entry α)) (speaker : Speaker)
    (act : σ → Reaction σ α Unit) : World σ α :=
  (entry.elim w w.record).absorb speaker (act w.host)

/-- What is put on record when the request is carried out. -/
def filed? (speaker : Speaker) (w : World σ α) : Request α → Option (Entry α)
  | .send message =>
    if w.handles = 0 then none
    else if w.isOpen then some (.sent message)
    else match message with
      | .dispatch action => some (.noted (.refused action))
      | .status inquiry => some (.answered inquiry none)
      | .shutdown => none
  | .resolve ticket outcome =>
    if w.channel.ticket = ticket ∧ w.channel.outcome = none then some (.settled ticket outcome)
    else none
  | .write line => some (.wrote speaker line)
  | _ => none

theorem history_perform (speaker : Speaker) (w : World σ α) (request : Request α) :
    (w.perform speaker request).history = w.history ++ (w.filed? speaker request).toList := by
  cases request with
  | send message =>
    change (w.send message).history = _ ++ (World.filed? speaker w (.send message)).toList
    unfold send filed?
    split
    · exact (List.append_nil _).symm
    split
    · exact history_record _ _
    · cases message with
      | dispatch action => exact history_record _ _
      | status inquiry => exact history_record _ _
      | shutdown => exact (List.append_nil _).symm
  | clone =>
    change history (if w.handles = 0 then w else _) = w.history ++ []
    rw [List.append_nil]
    split <;> rfl
  | watch observer =>
    change (w.watch observer).history = w.history ++ []
    unfold watch
    rw [List.append_nil]
    split <;> rfl
  | resolve ticket outcome =>
    change (w.resolve ticket outcome).history = w.history ++
      (if w.channel.ticket = ticket ∧ w.channel.outcome = none then some (.settled ticket outcome)
        else none).toList
    unfold resolve
    split
    · exact history_record _ _
    · exact (List.append_nil _).symm
  | write line => exact history_record _ _
  | release | unwatch => exact (List.append_nil _).symm

/-- What is read off the steps on record when a request is carried out. -/
theorem filterMap_perform {γ : Type} (f : Entry α → Option γ) (speaker : Speaker) (w : World σ α)
    (request : Request α) :
    (w.perform speaker request).history.filterMap f =
      w.history.filterMap f ++ ((w.filed? speaker request).bind f).toList := by
  rw [history_perform, List.filterMap_append]
  congr 1
  cases hfiled : w.filed? speaker request with
  | none => rfl
  | some entry => cases h : f entry <;> simp [h]

theorem filterMap_record {γ : Type} (f : Entry α → Option γ) (w : World σ α) (entry : Entry α) :
    (w.record entry).history.filterMap f = w.history.filterMap f ++ (f entry).toList := by
  rw [history_record, List.filterMap_append]
  cases h : f entry <;> simp [h]

/-- What is said of a world and its journal is ended neither by a call nor by anything else. -/
structure Journals (setup : Setup σ α) (J : World σ α → List (Line α) → Prop) : Prop where
  speak : ∀ {w journal entry speaker act}, setup.Speaks entry speaker act → J w journal →
    J (w.speak entry speaker act) (journal ++ [⟨entry, (act w.host).requests⟩])
  announced : ∀ {w journal} event, J w journal →
    J (w.record (.announced event w.observers)) journal
  record : ∀ {w journal} {entry : Entry α}, entry.isComment = true → J w journal →
    J (w.record entry) journal
  channel : ∀ {w journal} channel, J w journal → J { w with channel } journal
  inbox : ∀ {w journal} inbox, J w journal → J { w with inbox } journal
  close : ∀ {w journal}, J w journal → J { w with isOpen := false } journal

/-- The second world is the first with a journal beside its host, which bears out what is said. -/
structure Attests (J : World σ α → List (Line α) → Prop) (w : World σ α)
    (w' : World (σ × List (Line α)) α) : Prop where
  same : (Comparison.beside σ (List (Line α)) α).Matches w w'
  said : J w w'.host.2

namespace Attests

variable {setup : Setup σ α} {J : World σ α → List (Line α) → Prop} {w : World σ α}
  {w' : World (σ × List (Line α)) α}

theorem record (hJ : Journals setup J) (h : Attests J w w') {entry : Entry α}
    (hentry : entry.isComment = true) : Attests J (w.record entry) (w'.record entry) :=
  ⟨h.same.record rfl, hJ.record hentry h.said⟩

/-- A call is entered in the journal when it is made. -/
theorem speak (hJ : Journals setup J) (h : Attests J w w') {entry : Option (Entry α)}
    {speaker : Speaker} {act : σ → Reaction σ α Unit} (hs : setup.Speaks entry speaker act) :
    Attests J (w.speak entry speaker act)
      ((entry.elim w' w'.record).absorb speaker ((act w'.host.1).entered entry w'.host.2)) := by
  have hhost : w.host = w'.host.1 := h.same.host
  have hrecorded : (Comparison.beside σ (List (Line α)) α).Matches (entry.elim w w.record)
      (entry.elim w' w'.record) := by
    cases entry with
    | none => exact h.same
    | some entry => exact h.same.record rfl
  have hsaid := hJ.speak hs h.said
  rw [hhost] at hsaid
  unfold World.speak
  rw [hhost]
  refine ⟨hrecorded.absorb speaker ⟨rfl, rfl⟩, ?_⟩
  rw [absorb_host]
  rw [World.speak, hhost] at hsaid
  exact hsaid

theorem hand (hJ : Journals setup J) (h : Attests J w w') (event : Event α)
    (observer : ObserverName) :
    Attests J (w.hand setup event observer) (w'.hand setup.journaled event observer) := by
  have hheard := h.speak hJ (.observe observer event)
  have hanswer : (setup.journaled.observe observer event w'.host).answer =
      (setup.observe observer event w.host).answer := by
    rw [show w.host = w'.host.1 from h.same.host]
    rfl
  unfold World.hand
  dsimp only
  rw [hanswer]
  split
  · exact hheard
  · exact hheard.record hJ rfl

theorem announce (hJ : Journals setup J) (h : Attests J w w') (event : Event α) :
    Attests J (w.announce setup event) (w'.announce setup.journaled event) := by
  have hobservers : w.observers = w'.observers := eq_of_filter_true h.same.observers
  unfold World.announce
  rw [← hobservers]
  have hannounced : Attests J (w.record (.announced event w.observers))
      (w'.record (.announced event w.observers)) :=
    ⟨h.same.record rfl, hJ.announced event h.said⟩
  exact List.foldl_rel hannounced fun observer _ _ _ h => h.hand hJ event observer

theorem discardInbox (hJ : Journals setup J) (h : Attests J w w') :
    Attests J w.discardInbox w'.discardInbox := by
  have hclosed : Attests J { w with inbox := [], isOpen := false }
      { w' with inbox := [], isOpen := false } :=
    ⟨⟨h.same.host, rfl, rfl, h.same.handles, h.same.observers, h.same.channel, h.same.past⟩,
      hJ.close (hJ.inbox [] h.said)⟩
  unfold World.discardInbox
  rw [← h.same.inbox]
  refine List.foldl_rel hclosed fun message _ w w' h => ?_
  cases message with
  | status inquiry => exact h.record hJ rfl
  | dispatch action => exact h
  | shutdown => exact h

theorem pairs (hJ : Journals setup J) {name : StoreName} {s : Store σ α}
    (hmem : (name, s) ∈ setup.stores.entries) :
    s.Pairs (Attests J) name (s.journaled name) where
  answer action h := by
    rw [h.same.host]
    rfl
  vote action h := h.speak hJ (.vote hmem action)
  complete action ticket h := h.speak hJ (.complete hmem action ticket)
  signal action h := h.speak hJ (.signal hmem action)

end Attests

theorem foldl_watch (registered : List ObserverName) (w : World σ α) :
    registered.foldl watch w =
      w.absorb .outside (⟨w.host, registered.map .watch, ()⟩ : Reaction σ α Unit) := by
  unfold absorb
  rw [List.foldl_map]
  rfl

theorem attests_lockstep {setup : Setup σ α} {J : World σ α → List (Line α) → Prop}
    (hJ : Journals setup J) (capacity : Nat) :
    Lockstep setup setup.journaled capacity capacity (Attests J) where
  stores := List.forall₂_map_right_iff.mpr
    (List.forall₂_same.mpr fun _ hmem => ⟨rfl, Attests.pairs hJ hmem⟩)
  sameInbox h := h.same.inbox
  sameHandles h := h.same.handles
  sameChannel h := h.same.channel
  announce event h := h.announce hJ event
  record _ hremark h := h.record hJ (Entry.isComment_of_isRemark hremark)
  started _ h := h.record hJ rfl
  channel channel h := ⟨⟨h.same.host, h.same.inbox, h.same.isOpen, h.same.handles,
    h.same.observers, rfl, h.same.past⟩, hJ.channel channel h.said⟩
  take inbox h := ⟨⟨h.same.host, rfl, h.same.isOpen, h.same.handles, h.same.observers,
    h.same.channel, h.same.past⟩, hJ.inbox inbox h.said⟩
  close h := ⟨⟨h.same.host, h.same.inbox, rfl, h.same.handles, h.same.observers, h.same.channel,
    h.same.past⟩, hJ.close h.said⟩
  discard h := h.discardInbox hJ

end World

namespace Engine

variable (setup : Setup σ α) (capacity : Nat) (host : σ) (handles : Nat)
  (registered : List ObserverName) (moves : List (Move σ α))

/-- All calls of a run, and what was asked for in them, from the building of the engine on. -/
def journal : List (Line α) :=
  (journaled setup capacity host handles registered moves).world.host.2

/-- All that was asked for in a run, in order. -/
def asked : List (Request α) :=
  (journal setup capacity host handles registered moves).flatMap Line.requests

variable {setup capacity host handles registered}

/-- What a journal bears out when an engine is built, the journal of every run bears out. -/
theorem attended_attests {J : World σ α → List (Line α) → Prop} (hJ : World.Journals setup J)
    (hinitial : J (registered.foldl World.watch (.initial host handles []))
      [⟨none, registered.map .watch⟩]) :
    J (attended setup capacity host handles registered moves).world
      (journal setup capacity host handles registered moves) := by
  have hbuilt : World.Attests J (registered.foldl World.watch (.initial host handles []))
      (registered.foldl World.watch
        (.initial (host, [⟨none, registered.map .watch⟩]) handles [])) := by
    refine ⟨(registered_tells host handles registered).same, ?_⟩
    rw [World.foldl_watch registered (.initial (host, _) handles []), World.absorb_host]
    exact hinitial
  have habreast : Abreast capacity capacity (World.Attests J)
      (attended setup capacity host handles registered moves)
      (journaled setup capacity host handles registered moves) := by
    refine (Abreast.initial hbuilt).play (World.attests_lockstep hJ capacity) ?_
      fun _ _ => .inl rfl
    refine List.forall₂_map_right_iff.mpr (List.forall₂_same.mpr fun m _ => ?_)
    cases m with
    | turn => exact .turn
    | outside act => exact .outside fun h => h.speak hJ (.outside act)
    | kill => exact .kill
  exact habreast.world.said

end Engine

namespace World

/-- The observer is on the list, once, and has been in every announcement, unless somebody has asked
to remove it. -/
def Stays (observer : ObserverName) (w : World σ α) (journal : List (Line α)) : Prop :=
  .unwatch observer ∉ journal.flatMap Line.requests → Enrolled observer w

theorem journals_stays (setup : Setup σ α) (observer : ObserverName) :
    Journals setup (Stays observer) where
  speak {w journal entry speaker act} hs h hnone := by
    rw [List.flatMap_append, List.flatMap_singleton, List.mem_append, not_or] at hnone
    have henrolled := h hnone.1
    have hrecorded : Enrolled observer (entry.elim w w.record) := by
      cases hs with
      | outside => exact henrolled
      | _ => exact henrolled.record fun _ _ heq => by cases heq
    refine List.foldlRecOn (act w.host).requests _
      ⟨hrecorded.mem, hrecorded.nodup, hrecorded.listed⟩ fun w h request hmem => ?_
    exact h.perform speaker fun heq => hnone.2 (heq ▸ hmem)
  announced event h hnone := (h hnone).announced event
  record {w journal entry} hentry h hnone := by
    refine (h hnone).record ?_
    rintro _ _ rfl
    cases hentry
  channel _ h hnone := ⟨(h hnone).mem, (h hnone).nodup, (h hnone).listed⟩
  inbox _ h hnone := ⟨(h hnone).mem, (h hnone).nodup, (h hnone).listed⟩
  close h hnone := ⟨(h hnone).mem, (h hnone).nodup, (h hnone).listed⟩

theorem enrolled_registered {observer : ObserverName} {registered : List ObserverName} (host : σ)
    (handles : Nat) (hmem : observer ∈ registered) :
    Enrolled observer (registered.foldl watch (.initial host handles []) : World σ α) := by
  let reaction : Reaction σ α Unit := ⟨host, registered.map .watch, ()⟩
  have hwatched : registered.foldl watch (.initial host handles []) =
      (World.initial host handles []).absorb .outside reaction := foldl_watch registered _
  obtain ⟨hobservers, fresh, hhistory, hasked⟩ :=
    absorb_asked .outside reaction (.initial host handles [])
  rw [← hwatched] at hobservers hhistory
  have hranked : Ranked reaction.requests (roll reaction.requests) := ranked_roll _
  refine ⟨?_, hobservers ▸ hranked.nodup, fun event observers hannounced => ?_⟩
  · rw [hobservers]
    refine (hranked.mem observer).mpr ?_
    obtain ⟨before, after, hsplit⟩ := List.append_of_mem hmem
    change latest? observer (registered.map .watch) = _
    rw [hsplit, List.map_append, List.map_cons]
    exact latest?_of_notMem (by simp) _
  · rw [hhistory] at hannounced
    cases hasked _ hannounced

end World

namespace Engine

variable (setup : Setup σ α) (capacity : Nat) (host : σ) (handles : Nat)
  (registered : List ObserverName) (moves : List (Move σ α))

/-- An observer that is registered when the engine is built and that nobody asks to remove is in
every announcement of the run. -/
theorem attended_listed {observer : ObserverName} (hmem : observer ∈ registered)
    (hstays : .unwatch observer ∉ asked setup capacity host handles registered moves) :
    ListedIn observer (attended setup capacity host handles registered moves).world.history :=
  (attended_attests moves (World.journals_stays setup observer)
    (fun _ => World.enrolled_registered host handles hmem) hstays).listed

end Engine

end Concord
