import Concord.Proofs.Engine.Ledger
import Concord.Proofs.Enrolment

/-!
# Observers that come and go

Stores, observers and the outside may add and remove observers at any time, also while an event is
being handed out. A journal beside the host takes down what each of them asks for. It makes no
difference to the run, and read together with the history it tells who was on the list of observers
when an event was announced: exactly those, in their order, receive it.
-/
namespace Concord

variable {σ α β : Type}

namespace Entry

def isEmission : Entry α → Bool
  | announced .. | delivered .. => true
  | _ => false

/-- What an announcement comes to: it is handed to everybody listed, in order. -/
def emission : Entry α → List (Entry α)
  | announced event observers => .announced event observers :: observers.map (.delivered · event)
  | _ => []

/-- Whether nobody is called in this step and nothing is announced. -/
def isPlain : Entry α → Bool
  | called _ | announced .. | delivered .. => false
  | _ => true

theorem isPlain_of_isAsked {entry : Entry α} (h : entry.isAsked = true) : entry.isPlain = true := by
  cases entry <;> first | rfl | cases h

theorem isPlain_of_isRemark {entry : Entry α} (h : entry.isRemark = true) :
    entry.isPlain = true := by
  cases entry <;> first | rfl | cases h

theorem isEmission_of_isPlain {entry : Entry α} (h : entry.isPlain = true) :
    entry.isEmission = false := by
  cases entry <;> first | rfl | cases h

end Entry

/-- Announcements and deliveries come in blocks: an event is handed to everybody who was listed when
it was announced, once and in order, before another one is announced. -/
def EmittedIn (history : List (Entry α)) : Prop :=
  history.filter Entry.isEmission = (history.filter Entry.isEmission).flatMap Entry.emission

namespace World

variable {w : World σ α}

theorem perform_observers (speaker : Speaker) (w : World σ α) (request : Request α) :
    (w.perform speaker request).observers = request.enlist w.observers := by
  cases request with
  | send message =>
    change (w.send message).observers = w.observers
    unfold send
    split
    · rfl
    split
    · rfl
    · cases message <;> rfl
  | clone =>
    change World.observers (if w.handles = 0 then w else _) = w.observers
    split <;> rfl
  | watch observer =>
    change (w.watch observer).observers = _
    unfold watch Request.enlist
    dsimp only
    split <;> rfl
  | resolve ticket outcome =>
    change (w.resolve ticket outcome).observers = w.observers
    unfold resolve
    split <;> rfl
  | release | unwatch observer | write line => rfl

/-- A callback adds and removes observers at once, request by request, and puts nothing on record
but what it asks for. -/
theorem absorb_asked (speaker : Speaker) (reaction : Reaction σ α β) (w : World σ α) :
    (w.absorb speaker reaction).observers = reaction.requests.foldl Request.enlist w.observers ∧
      ∃ fresh, (w.absorb speaker reaction).history = w.history ++ fresh ∧
        ∀ entry ∈ fresh, entry.isAsked = true := by
  unfold absorb
  have hhost : ({ w with host := reaction.host } : World σ α).history = w.history := rfl
  rw [← hhost]
  change (_ : World σ α).observers = List.foldl _ ({ w with host := reaction.host }).observers _ ∧ _
  generalize ({ w with host := reaction.host } : World σ α) = v
  induction reaction.requests generalizing v with
  | nil => exact ⟨rfl, [], (List.append_nil _).symm, by simp⟩
  | cons request rest ih =>
    obtain ⟨hobservers, fresh, hhistory, hasked⟩ := ih (v.perform speaker request)
    rw [perform_observers] at hobservers
    refine ⟨hobservers, ?_⟩
    rcases perform_past speaker v request with hpast | ⟨entry, hpast, hentry, -⟩
    · have hsame : (v.perform speaker request).history = v.history := by
        rw [history, hpast, history]
      exact ⟨fresh, by rw [List.foldl_cons, hhistory, hsame], hasked⟩
    · have hrecord : (v.perform speaker request).history = v.history ++ [entry] := by
        rw [history, hpast, ← history_record]
        rfl
      refine ⟨entry :: fresh, ?_, List.forall_mem_cons.mpr ⟨hentry, hasked⟩⟩
      rw [List.foldl_cons, hhistory, hrecord, List.append_assoc, List.singleton_append]

/-- The announcements and deliveries, in order. -/
def emissions (w : World σ α) : List (Entry α) := w.history.filter Entry.isEmission

theorem emissions_record (w : World σ α) (entry : Entry α) :
    (w.record entry).emissions = w.emissions ++ [entry].filter Entry.isEmission := by
  rw [emissions, history_record, List.filter_append, emissions]

theorem emissions_aside (w : World σ α) {entry : Entry α} (h : entry.isEmission = false) :
    (w.record entry).emissions = w.emissions := by
  rw [emissions_record, List.filter_singleton, h]
  exact List.append_nil _

theorem emissions_absorb (speaker : Speaker) (reaction : Reaction σ α β) (w : World σ α) :
    (w.absorb speaker reaction).emissions = w.emissions := by
  obtain ⟨-, fresh, hhistory, hasked⟩ := absorb_asked speaker reaction w
  have hnone : fresh.filter Entry.isEmission = [] := by
    refine List.filter_eq_nil_iff.mpr fun entry hmem => ?_
    rw [Entry.isEmission_of_isPlain (Entry.isPlain_of_isAsked (hasked entry hmem))]
    exact Bool.false_ne_true
  rw [emissions, hhistory, List.filter_append, hnone, List.append_nil, emissions]

theorem emissions_hand (setup : Setup σ α) (event : Event α) (w : World σ α)
    (observer : ObserverName) :
    (w.hand setup event observer).emissions = w.emissions ++ [.delivered observer event] := by
  have habsorbed : ((w.record (.delivered observer event)).absorb (.observer observer)
      (setup.observe observer event w.host)).emissions =
      w.emissions ++ [.delivered observer event] := by
    rw [emissions_absorb, emissions_record]
    rfl
  unfold hand
  dsimp only
  split
  · exact habsorbed
  · exact (emissions_aside _ rfl).trans habsorbed

theorem emissions_announce (setup : Setup σ α) (w : World σ α) (event : Event α) :
    (w.announce setup event).emissions =
      w.emissions ++ Entry.emission (.announced event w.observers) := by
  have hhands : ∀ (observers : List ObserverName) (v : World σ α),
      (observers.foldl (hand setup event) v).emissions =
        v.emissions ++ observers.map (.delivered · event) := by
    intro observers
    induction observers with
    | nil => exact fun v => (List.append_nil _).symm
    | cons observer rest ih =>
      intro v
      rw [List.foldl_cons, ih, emissions_hand, List.append_assoc]
      rfl
  rw [announce, hhands, emissions_record, List.append_assoc]
  rfl

/-- Everybody has received what was announced to them, and no announcement is underway. -/
def Emits (w : World σ α) : Prop := EmittedIn w.history

namespace Emits

variable {w' : World σ α}

theorem same (h : w.Emits) (he : w'.emissions = w.emissions) : w'.Emits := by
  change w'.emissions = w'.emissions.flatMap Entry.emission
  rw [he]
  exact h

theorem announce (setup : Setup σ α) (h : w.Emits) (event : Event α) :
    (w.announce setup event).Emits := by
  have hblock : (Entry.emission (.announced event w.observers)).flatMap Entry.emission =
      Entry.emission (.announced event w.observers) := by
    have hdelivered : (w.observers.map (Entry.delivered · event)).flatMap Entry.emission = [] := by
      rw [List.flatMap_map]
      exact List.flatMap_eq_nil_iff.mpr fun _ _ => rfl
    rw [Entry.emission, List.flatMap_cons, hdelivered, List.append_nil]
    rfl
  change (w.announce setup event).emissions = (w.announce setup event).emissions.flatMap _
  rw [emissions_announce, List.flatMap_append, hblock]
  exact congrArg (· ++ _) h

end Emits

theorem emits_preserved (setup : Setup σ α) :
    Preserved setup (fun _ => True) (Emits (σ := σ) (α := α)) := by
  have haside : ∀ {w : World σ α} {entry : Entry α}, entry.isEmission = false → w.Emits →
      (w.record entry).Emits := fun hentry h => h.same (emissions_aside _ hentry)
  have hperform : ∀ {w : World σ α} speaker request, w.Emits → (w.perform speaker request).Emits :=
    fun {w} speaker request h =>
      h.same (emissions_absorb speaker (⟨w.host, [request], ()⟩ : Reaction σ α Unit) w)
  exact
    { asks := setup.asks_anything
      announce := fun event h => h.announce setup event
      record := fun entry hown => haside (by cases entry <;> first | rfl | cases hown)
      host := fun _ h => h
      channel := fun _ h => h
      perform := fun speaker request _ => hperform speaker request
      take := fun _ _ _ h => h
      close := fun h => h
      discard := discardInbox_preserves (fun h => h) fun inquiry => haside rfl }

end World

/-- A line of a log: a step on record, or a move of the outside, which leaves no record of its own;
and what is asked for in it. -/
structure Line (α : Type) where
  entry : Option (Entry α)
  requests : List (Request α)

/-- Whether somebody is called in the line, or the outside acts; nobody else asks for anything. -/
def Line.isSpoken (line : Line α) : Bool :=
  match line.entry with
  | none | some (.called _) | some (.delivered ..) => true
  | _ => false

/-- The same reaction, entered in a journal beside the host. -/
def Reaction.entered (reaction : Reaction σ α β) (entry : Option (Entry α))
    (journal : List (Line α)) : Reaction (σ × List (Line α)) α β :=
  reaction.beside (journal ++ [⟨entry, reaction.requests⟩])

def Store.journaled (name : StoreName) (s : Store σ α) : Store (σ × List (Line α)) α where
  vote action host := (s.vote action host.1).entered (some (.called (.vote name action))) host.2
  complete action ticket host :=
    (s.complete action ticket host.1).entered (some (.called (.complete name action ticket))) host.2
  signal action host :=
    (s.signal action host.1).entered (some (.called (.signal name action))) host.2

/-- The setup with a journal of all calls and of what is asked for in them, the oldest first. -/
def Setup.journaled (setup : Setup σ α) : Setup (σ × List (Line α)) α where
  stores :=
    { entries := setup.stores.entries.map fun entry => (entry.1, entry.2.journaled entry.1)
      ascending := by
        rw [List.map_map]
        exact setup.stores.ascending }
  observe observer event host :=
    (setup.observe observer event host.1).entered (some (.delivered observer event)) host.2

def Move.journaled : Move σ α → Move (σ × List (Line α)) α
  | .turn => .turn
  | .outside act => .outside fun host => (act host.1).entered none host.2
  | .kill => .kill

/-- The log tells a run: the steps on record are its steps, the calls and moves in it are those of
the journal, and the requests in it account for the list of observers, now and at each
announcement. -/
structure Logged (history : List (Entry α)) (observers : List ObserverName)
    (journal log : List (Line α)) : Prop where
  steps : log.filterMap Line.entry = history
  journal : log.filter Line.isSpoken = journal
  silent : ∀ line ∈ log, line.isSpoken = false → line.requests = []
  observers : observers = roll (log.flatMap Line.requests)
  announced : ∀ before line, before ++ [line] <+: log → ∀ event listed,
    line.entry = some (.announced event listed) → listed = roll (before.flatMap Line.requests)

namespace Logged

variable {history fresh : List (Entry α)} {observers : List ObserverName}
  {journal log : List (Line α)}

theorem nil : Logged ([] : List (Entry α)) [] [] [] :=
  ⟨rfl, rfl, by simp, rfl, by simp⟩

theorem concat (h : Logged history observers journal log) (line : Line α)
    (hsilent : line.isSpoken = false → line.requests = [])
    (hannounced : ∀ event listed, line.entry = some (.announced event listed) →
      listed = observers) :
    Logged (history ++ line.entry.toList) (line.requests.foldl Request.enlist observers)
      (journal ++ [line].filter Line.isSpoken) (log ++ [line]) := by
  refine ⟨?_, ?_, ?_, ?_, ?_⟩
  · rw [List.filterMap_append, h.steps]
    cases hentry : line.entry <;> simp [hentry]
  · rw [List.filter_append, h.journal]
  · exact List.forall_mem_append.mpr ⟨h.silent, List.forall_mem_singleton.mpr hsilent⟩
  · rw [List.flatMap_append, List.flatMap_singleton, roll, List.foldl_append, h.observers]
    rfl
  · intro before last hprefix event listed hlast
    rcases List.prefix_concat_iff.mp hprefix with heq | hprefix
    · obtain ⟨rfl, hlines⟩ := List.append_inj' heq rfl
      obtain rfl := List.singleton_inj.mp hlines
      rw [hannounced event listed hlast, h.observers]
    · exact h.announced before last hprefix event listed hlast

theorem plain (h : Logged history observers journal log) {entry : Entry α}
    (hentry : entry.isPlain = true) :
    Logged (history ++ [entry]) observers journal (log ++ [⟨some entry, []⟩]) := by
  have hline : (⟨some entry, []⟩ : Line α).isSpoken = false := by
    cases entry <;> first | rfl | cases hentry
  have hnext := h.concat ⟨some entry, []⟩ (fun _ => rfl) fun event listed heq => by
    cases heq
    cases hentry
  rw [List.filter_singleton, hline] at hnext
  simpa using hnext

theorem plains (h : Logged history observers journal log)
    (hfresh : ∀ entry ∈ fresh, entry.isPlain = true) :
    ∃ lines, Logged (history ++ fresh) observers journal (log ++ lines) := by
  induction fresh generalizing history log with
  | nil => exact ⟨[], by simpa using h⟩
  | cons entry rest ih =>
    obtain ⟨hentry, hrest⟩ := List.forall_mem_cons.mp hfresh
    obtain ⟨lines, hlines⟩ := ih (h.plain hentry) hrest
    exact ⟨⟨some entry, []⟩ :: lines, by simpa using hlines⟩

theorem announcement (h : Logged history observers journal log) (event : Event α) :
    Logged (history ++ [.announced event observers]) observers journal
      (log ++ [⟨some (.announced event observers), []⟩]) := by
  have hnext := h.concat ⟨some (.announced event observers), []⟩ (fun _ => rfl)
    fun _ _ heq => by
      cases heq
      rfl
  simpa [Line.isSpoken] using hnext

/-- A callback is called, or the outside acts, and what is asked for is done. -/
theorem spoken {w : World σ α} (h : Logged history w.observers journal log)
    {entry : Option (Entry α)} (hhistory : w.history = history ++ entry.toList)
    (speaker : Speaker) (reaction : Reaction σ α β)
    (hspoken : (⟨entry, reaction.requests⟩ : Line α).isSpoken = true) :
    ∃ lines, Logged (w.absorb speaker reaction).history (w.absorb speaker reaction).observers
      (journal ++ [⟨entry, reaction.requests⟩]) (log ++ lines) := by
  obtain ⟨hobservers, fresh, hfresh, hasked⟩ := World.absorb_asked speaker reaction w
  have hcalled := h.concat ⟨entry, reaction.requests⟩
    (fun hsilent => absurd (hspoken.symm.trans hsilent) (by decide)) fun event listed heq => by
      cases heq
      cases hspoken
  rw [List.filter_singleton, hspoken, ← hhistory] at hcalled
  obtain ⟨lines, hlines⟩ := hcalled.plains fun entry hmem =>
    Entry.isPlain_of_isAsked (hasked entry hmem)
  rw [← hobservers, ← hfresh, List.append_assoc] at hlines
  exact ⟨_, hlines⟩

end Logged

namespace World

/-- The second world is the first with a journal beside its host, and the given lines can be
continued to a log of what has happened. -/
structure Tells (base : List (Line α)) (w : World σ α) (w' : World (σ × List (Line α)) α) :
    Prop where
  same : (Comparison.beside σ (List (Line α)) α).Matches w w'
  log : ∃ lines, Logged w.history w.observers w'.host.2 (base ++ lines)

namespace Tells

variable {base : List (Line α)} {w : World σ α} {w' : World (σ × List (Line α)) α}

theorem observers (h : Tells base w w') : w.observers = w'.observers :=
  eq_of_filter_true h.same.observers

theorem record (h : Tells base w w') {entry : Entry α} (hentry : entry.isPlain = true) :
    Tells base (w.record entry) (w'.record entry) := by
  obtain ⟨lines, hlog⟩ := h.log
  refine ⟨h.same.record rfl, lines ++ [⟨some entry, []⟩], ?_⟩
  rw [history_record, ← List.append_assoc]
  exact hlog.plain hentry

/-- What the outside does has no record of its own; any other call is put on record first. -/
theorem spoken (h : Tells base w w') {entry : Option (Entry α)} {v : World σ α}
    {v' : World (σ × List (Line α)) α}
    (hsame : (Comparison.beside σ (List (Line α)) α).Matches v v')
    (hhistory : v.history = w.history ++ entry.toList) (hobservers : v.observers = w.observers)
    (hhost : v'.host = w'.host) (speaker : Speaker) (act : σ → Reaction σ α β)
    (hspoken : ∀ requests, (⟨entry, requests⟩ : Line α).isSpoken = true) :
    Tells base (v.absorb speaker (act v.host))
      (v'.absorb speaker ((act v'.host.1).entered entry v'.host.2)) := by
  obtain ⟨lines, hlog⟩ := h.log
  have hact : v.host = v'.host.1 := hsame.host
  rw [← hact]
  rw [← hobservers] at hlog
  obtain ⟨more, hmore⟩ := hlog.spoken hhistory speaker (act v.host) (hspoken _)
  refine ⟨hsame.absorb speaker ⟨rfl, rfl⟩, lines ++ more, ?_⟩
  rw [absorb_host, ← List.append_assoc]
  change Logged _ _ (v'.host.2 ++ _) _
  rw [hhost]
  exact hmore

theorem call (h : Tells base w w') (entry : Entry α)
    (hspoken : ∀ requests, (⟨some entry, requests⟩ : Line α).isSpoken = true)
    (speaker : Speaker) (act : σ → Reaction σ α β) :
    Tells base ((w.record entry).absorb speaker (act w.host))
      ((w'.record entry).absorb speaker ((act w'.host.1).entered (some entry) w'.host.2)) :=
  h.spoken (h.same.record rfl) (history_record w entry) rfl rfl speaker act hspoken

theorem outside (h : Tells base w w') (act : σ → Reaction σ α β) :
    Tells base (w.absorb .outside (act w.host))
      (w'.absorb .outside ((act w'.host.1).entered none w'.host.2)) :=
  h.spoken h.same (List.append_nil _).symm rfl rfl .outside act fun _ => rfl

theorem hand (h : Tells base w w') (setup : Setup σ α) (event : Event α)
    (observer : ObserverName) :
    Tells base (w.hand setup event observer) (w'.hand setup.journaled event observer) := by
  have hcalled := h.call (.delivered observer event) (fun _ => rfl) (.observer observer)
    (setup.observe observer event)
  have hanswer : (setup.journaled.observe observer event w'.host).answer =
      (setup.observe observer event w.host).answer := by
    rw [show w.host = w'.host.1 from h.same.host]
    rfl
  unfold World.hand
  dsimp only
  rw [hanswer]
  split
  · exact hcalled
  · exact hcalled.record rfl

theorem announce (h : Tells base w w') (setup : Setup σ α) (event : Event α) :
    Tells base (w.announce setup event) (w'.announce setup.journaled event) := by
  obtain ⟨lines, hlog⟩ := h.log
  have hannounced : Tells base (w.record (.announced event w.observers))
      (w'.record (.announced event w.observers)) := by
    refine ⟨h.same.record rfl, lines ++ [⟨some (.announced event w.observers), []⟩], ?_⟩
    rw [history_record, ← List.append_assoc]
    exact hlog.announcement event
  unfold World.announce
  rw [← h.observers]
  exact List.foldl_rel hannounced fun observer _ _ _ h => h.hand setup event observer

theorem discardInbox (h : Tells base w w') : Tells base w.discardInbox w'.discardInbox := by
  have hclosed : Tells base { w with inbox := [], isOpen := false }
      { w' with inbox := [], isOpen := false } :=
    ⟨⟨h.same.host, rfl, rfl, h.same.handles, h.same.observers, h.same.channel, h.same.past⟩, h.log⟩
  unfold World.discardInbox
  rw [← h.same.inbox]
  refine List.foldl_rel hclosed fun message _ w w' h => ?_
  cases message with
  | status inquiry => exact h.record rfl
  | dispatch action => exact h
  | shutdown => exact h

theorem pairs (name : StoreName) (s : Store σ α) :
    s.Pairs (Tells base) name (s.journaled name) where
  answer action h := by
    rw [h.same.host]
    rfl
  vote action h := h.call _ (fun _ => rfl) _ (s.vote action)
  complete action ticket h := h.call _ (fun _ => rfl) _ (s.complete action ticket)
  signal action h := h.call _ (fun _ => rfl) _ (s.signal action)

end Tells

theorem tells_lockstep (setup : Setup σ α) (capacity : Nat) (base : List (Line α)) :
    Lockstep setup setup.journaled capacity capacity (Tells base) where
  stores := List.forall₂_map_right_iff.mpr
    (List.forall₂_same.mpr fun entry _ => ⟨rfl, Tells.pairs entry.1 entry.2⟩)
  sameInbox h := h.same.inbox
  sameHandles h := h.same.handles
  sameChannel h := h.same.channel
  announce event h := h.announce setup event
  record _ hremark h := h.record (Entry.isPlain_of_isRemark hremark)
  started _ h := h.record rfl
  channel _ h := ⟨⟨h.same.host, h.same.inbox, h.same.isOpen, h.same.handles, h.same.observers, rfl,
    h.same.past⟩, h.log⟩
  take _ h := ⟨⟨h.same.host, rfl, h.same.isOpen, h.same.handles, h.same.observers, h.same.channel,
    h.same.past⟩, h.log⟩
  close h := ⟨⟨h.same.host, h.same.inbox, rfl, h.same.handles, h.same.observers, h.same.channel,
    h.same.past⟩, h.log⟩
  discard h := h.discardInbox

end World

namespace Engine

/-- A run of an engine that is built with the given observers. -/
def attended (setup : Setup σ α) (capacity : Nat) (host : σ) (handles : Nat)
    (registered : List ObserverName) (moves : List (Move σ α)) : Engine σ α :=
  (initial capacity (registered.foldl World.watch (.initial host handles []))).play setup moves

/-- The same run with a journal of all calls, which begins with the building of the engine. -/
def journaled (setup : Setup σ α) (capacity : Nat) (host : σ) (handles : Nat)
    (registered : List ObserverName) (moves : List (Move σ α)) : Engine (σ × List (Line α)) α :=
  attended setup.journaled capacity (host, [⟨none, registered.map .watch⟩]) handles registered
    (moves.map Move.journaled)

variable (setup : Setup σ α) (capacity : Nat) (host : σ) (handles : Nat)
  (registered : List ObserverName)

theorem registered_tells :
    World.Tells [] (registered.foldl World.watch (.initial host handles []) : World σ α)
      (registered.foldl World.watch
        (.initial (host, [⟨none, registered.map .watch⟩]) handles [])) := by
  have hinitial : World.Tells [] (.initial host handles [] : World σ α)
      (.initial (host, []) handles []) := ⟨⟨rfl, rfl, rfl, rfl, rfl, rfl, rfl⟩, [], .nil⟩
  have hregistered := hinitial.outside fun host =>
    (⟨host, registered.map .watch, ()⟩ : Reaction σ α Unit)
  unfold World.absorb at hregistered
  dsimp only [Reaction.entered, Reaction.beside] at hregistered
  rw [List.foldl_map, List.foldl_map] at hregistered
  exact hregistered

variable {setup capacity host handles registered}

/-- Two engines that are abreast are so in whatever else holds of their worlds. -/
theorem Abreast.regard {τ : Type} {capacity' : Nat} {R R' : World σ α → World τ α → Prop}
    {e : Engine σ α} {d : Engine τ α} (h : Abreast capacity capacity' R e d)
    (hw : R' e.world d.world) : Abreast capacity capacity' R' e d :=
  ⟨hw, h.items, h.phase, h.listening, h.tally, h.life, h.capacity, h.capacity'⟩

variable (setup) in
theorem play_tells {base : List (Line α)} {e : Engine σ α} {d : Engine (σ × List (Line α)) α}
    (h : Abreast capacity capacity (World.Tells base) e d) (moves : List (Move σ α)) :
    Abreast capacity capacity (World.Tells base) (e.play setup moves)
      (d.play setup.journaled (moves.map Move.journaled)) := by
  refine h.play (World.tells_lockstep setup capacity base) ?_ fun _ _ => .inl rfl
  refine List.forall₂_map_right_iff.mpr (List.forall₂_same.mpr fun m _ => ?_)
  cases m with
  | turn => exact .turn
  | outside act => exact .outside fun h => h.outside act
  | kill => exact .kill

variable (setup capacity host handles registered)

theorem attended_tells (moves : List (Move σ α)) :
    Abreast capacity capacity (World.Tells [])
      (attended setup capacity host handles registered moves)
      (journaled setup capacity host handles registered moves) :=
  play_tells setup (.initial (registered_tells host handles registered)) moves

/-- A log of a run, told by the engine and the journal. -/
abbrev LogOf (moves : List (Move σ α)) (log : List (Line α)) : Prop :=
  Logged (attended setup capacity host handles registered moves).world.history
    (attended setup capacity host handles registered moves).world.observers
    (journaled setup capacity host handles registered moves).world.host.2 log

/-- A log goes on as the run goes on. -/
theorem LogOf.continues {moves : List (Move σ α)} {log : List (Line α)}
    (h : LogOf setup capacity host handles registered moves log) (more : List (Move σ α)) :
    ∃ lines, LogOf setup capacity host handles registered (moves ++ more) (log ++ lines) := by
  have hnow := attended_tells setup capacity host handles registered moves
  have hgoing : Abreast capacity capacity (World.Tells log)
      (attended setup capacity host handles registered moves)
      (journaled setup capacity host handles registered moves) :=
    hnow.regard ⟨hnow.world.same, [], (List.append_nil log).symm ▸ h⟩
  have hnext := (play_tells setup hgoing more).world.log
  unfold LogOf journaled attended at *
  rw [List.map_append, play_append, play_append]
  exact hnext

theorem attended_reachable (moves : List (Move σ α)) :
    Reachable setup capacity (attended setup capacity host handles registered moves) := by
  have hregistered : Reachable setup capacity
      ((initial capacity (.initial host handles [])).interact ⟨host, registered.map .watch, ()⟩) :=
    .step (.initial host handles []) (.outside _ _)
  unfold interact World.absorb at hregistered
  rw [List.foldl_map] at hregistered
  exact hregistered.play moves

theorem attended_emits (moves : List (Move σ α)) :
    EmittedIn (attended setup capacity host handles registered moves).world.history :=
  (attended_reachable setup capacity host handles registered moves).keeps
    (World.emits_preserved setup) fun _ _ _ => rfl

/-- The journal makes no difference to a run. In every run, whoever adds and removes observers and
whenever, the list is what was asked for: nobody is on it twice, those are on it that were added at
last, and they stand in the order in which they joined. Each event is handed to those, and only to
those, who were listed when its announcement began, once and in order, whatever hooks ask for
meanwhile and whether they fail or not. An announcement adds this block of deliveries to those on
record, and no other. -/
theorem observers_follow_requests (moves : List (Move σ α)) :
    Abreast capacity capacity (Comparison.beside σ (List (Line α)) α).Matches
      (attended setup capacity host handles registered moves)
      (journaled setup capacity host handles registered moves) ∧
    (∃ log, LogOf setup capacity host handles registered moves log ∧
      Ranked (log.flatMap Line.requests)
        (attended setup capacity host handles registered moves).world.observers) ∧
    EmittedIn (attended setup capacity host handles registered moves).world.history ∧
    (∀ (w : World σ α) (event : Event α), (w.announce setup event).emissions =
      w.emissions ++ Entry.emission (.announced event w.observers)) ∧
    ∀ log, LogOf setup capacity host handles registered moves log → ∀ more, ∃ lines,
      LogOf setup capacity host handles registered (moves ++ more) (log ++ lines) := by
  have htells := attended_tells setup capacity host handles registered moves
  obtain ⟨log, hlog⟩ := htells.world.log
  refine ⟨htells.regard htells.world.same, ⟨[] ++ log, hlog, ?_⟩,
    attended_emits setup capacity host handles registered moves, World.emissions_announce setup,
    fun log h => h.continues setup capacity host handles registered⟩
  rw [hlog.observers]
  exact ranked_roll _

/-- On the lock, the hook of the first observer removes the second, adds a third, and fails. -/
def usher : Setup Unit Nat where
  stores := .empty
  observe observer event _ :=
    if observer = ⟨"a"⟩ ∧ event = .lock then
      ⟨(), [.unwatch ⟨"b"⟩, .watch ⟨"c"⟩], some .abandoned⟩
    else ⟨(), [], none⟩

/-- The first observer is registered twice, and an action is dispatched and taken. -/
def usherMoves : List (Move Unit Nat) :=
  [.outside fun _ => ⟨(), [.send (.dispatch 7)], ()⟩, .turn, .turn]

def usherRun : Engine Unit Nat := attended usher 1 () 1 [⟨"a"⟩, ⟨"b"⟩, ⟨"a"⟩] usherMoves

/-- The second observer still receives the lock, and the third does not; from the unlock on it is the
other way round. The log of the run goes on as the outside adds the second one again. -/
theorem usherRun_follows_requests :
    usherRun.world.emissions =
        Entry.emission (.announced (.dispatch 7) [⟨"a"⟩, ⟨"b"⟩]) ++
          Entry.emission (.announced .lock [⟨"a"⟩, ⟨"b"⟩]) ++
          Entry.emission (.announced .unlock [⟨"a"⟩, ⟨"c"⟩]) ∧
      EmittedIn usherRun.world.history ∧
      ∃ log, LogOf usher 1 () 1 [⟨"a"⟩, ⟨"b"⟩, ⟨"a"⟩] usherMoves log ∧
        Ranked (log.flatMap Line.requests) [⟨"a"⟩, ⟨"c"⟩] ∧
        ∃ lines, LogOf usher 1 () 1 [⟨"a"⟩, ⟨"b"⟩, ⟨"a"⟩]
          (usherMoves ++ [.outside fun _ => ⟨(), [.watch ⟨"b"⟩], ()⟩]) (log ++ lines) := by
  have hlisted : usherRun.world.observers = [⟨"a"⟩, ⟨"c"⟩] := by cbv
  obtain ⟨-, ⟨log, hlog, hranked⟩, hemitted, -, hcontinues⟩ :=
    observers_follow_requests usher 1 () 1 [⟨"a"⟩, ⟨"b"⟩, ⟨"a"⟩] usherMoves
  refine ⟨by cbv, hemitted, log, hlog, ?_, hcontinues log hlog _⟩
  rw [← hlisted]
  exact hranked

end Engine

end Concord
