import Concord.Proofs.Engine.Canvasses
import Concord.Proofs.Engine.Refusals
import Mathlib.Data.List.Perm.Basic

/-!
# The lines of the log

The log holds what the engine notes, what a tracing observer writes of the events that it receives,
and what everybody else writes. When the tracer has been there all the time and no hook has failed,
the first two are a line for each milestone that has one, and a line for each dispatch that was
refused.
-/
namespace Concord

variable {σ α β γ : Type}

/-- What is read off a list can be read off it part by part, if each member has its place in the
parts. -/
theorem filterMap_perm_flatMap {f : β → Option γ} {parts : List (β → Option γ)} {l : List β}
    (hparts : ∀ b ∈ l, (f b).toList = parts.flatMap fun part => (part b).toList) :
    (l.filterMap f).Perm (parts.flatMap fun part => l.filterMap part) := by
  induction l with
  | nil =>
    have hnone : (parts.flatMap fun part => [].filterMap part) = [] :=
      List.flatMap_eq_nil_iff.mpr fun _ _ => rfl
    rw [hnone]
    exact .nil
  | cons b rest ih =>
    obtain ⟨hb, hrest⟩ := List.forall_mem_cons.mp hparts
    have hcons : ∀ g : β → Option γ,
        (b :: rest).filterMap g = (g b).toList ++ rest.filterMap g := by
      intro g
      cases h : g b <;> simp [h]
    simp only [hcons, hb]
    exact ((ih hrest).append_left _).trans (List.flatMap_append_perm ..)

theorem filterMap_perm_append {f g h : β → Option γ} {l : List β}
    (hparts : ∀ b ∈ l, (f b).toList = (g b).toList ++ (h b).toList) :
    (l.filterMap f).Perm (l.filterMap g ++ l.filterMap h) := by
  have hboth : (l.filterMap f).Perm ([g, h].flatMap fun part => l.filterMap part) :=
    filterMap_perm_flatMap fun b hb => by simpa using hparts b hb
  simpa using hboth

/-- The observer writes a line for every event that it receives, and does nothing else. -/
def Setup.TracedBy [Labelled α] (setup : Setup σ α) (tracer : ObserverName) : Prop :=
  ∀ event host, setup.observe tracer event host = ⟨host, [.write event.line], none⟩

namespace Entry

/-- The line that the observer writes in this step. -/
def traced? (tracer : ObserverName) : Entry α → Option LogLine
  | wrote speaker line => if speaker = .observer tracer then some line else none
  | _ => none

def notice? : Entry α → Option (Notice α)
  | noted notice => some notice
  | _ => none

/-- The line that is logged in this step by the engine itself or by its tracer. -/
def ownLine? [Labelled α] (tracer : ObserverName) (entry : Entry α) : Option LogLine :=
  entry.notice?.map Notice.line <|> entry.traced? tracer

/-- The line that somebody else logs in this step. -/
def strangeLine? (tracer : ObserverName) : Entry α → Option LogLine
  | wrote speaker line => if speaker = .observer tracer then none else some line
  | _ => none

end Entry

/-- The line that is logged about the milestone. -/
def Milestone.line? [Labelled α] (m : Milestone α) : Option LogLine :=
  m.notice?.map Notice.line <|> m.event?.map Event.line

namespace World

variable (tracer : ObserverName)

def tracedLines (w : World σ α) : List LogLine := w.history.filterMap (Entry.traced? tracer)

/-- The lines in the log that the engine or its tracer has put there. -/
def ownLines [Labelled α] (w : World σ α) : List LogLine :=
  w.history.filterMap (Entry.ownLine? tracer)

/-- All lines in the log. -/
def log [Labelled α] (w : World σ α) : List LogLine := w.history.filterMap Entry.logLine?

/-- The lines in the log that others have put there. -/
def strangeLines (w : World σ α) : List LogLine :=
  w.history.filterMap (Entry.strangeLine? tracer)

theorem log_perm [Labelled α] (w : World σ α) :
    w.log.Perm (w.ownLines tracer ++ w.strangeLines tracer) := by
  refine filterMap_perm_append fun entry _ => ?_
  cases entry with
  | wrote speaker line =>
    by_cases h : speaker = .observer tracer <;>
      simp [Entry.logLine?, Entry.ownLine?, Entry.notice?, Entry.traced?, Entry.strangeLine?, h]
  | _ =>
    simp [Entry.logLine?, Entry.ownLine?, Entry.notice?, Entry.traced?, Entry.strangeLine?]

theorem tracedLines_record (w : World σ α) (entry : Entry α) :
    (w.record entry).tracedLines tracer = w.tracedLines tracer ++ (entry.traced? tracer).toList :=
  filterMap_record ..

theorem received_record (w : World σ α) (entry : Entry α) :
    (w.record entry).received tracer = w.received tracer ++ (entry.received? tracer).toList :=
  filterMap_record ..

/-- Nothing that somebody else asks for is a line of the tracer, or handed to it. -/
theorem filed?_traced {speaker : Speaker} (hspeaker : speaker ≠ .observer tracer) (w : World σ α)
    (request : Request α) :
    (w.filed? speaker request).bind (Entry.traced? tracer) = none ∧
      (w.filed? speaker request).bind (Entry.received? tracer) = none := by
  cases request with
  | send message =>
    by_cases hhandles : w.handles = 0
    · simp [filed?, hhandles]
    · cases hopen : w.isOpen <;> cases message <;>
        simp [filed?, hhandles, hopen, Entry.traced?, Entry.received?]
  | resolve ticket outcome =>
    by_cases hsettles : w.channel.ticket = ticket ∧ w.channel.outcome = none <;>
      simp [filed?, hsettles, Entry.traced?, Entry.received?]
  | write line => simp [filed?, Entry.traced?, Entry.received?, hspeaker]
  | _ => exact ⟨rfl, rfl⟩

/-- The notices on record, those of refusals and failures among them. -/
def notices (w : World σ α) : List (Notice α) := w.history.filterMap Entry.notice?

/-- Where no observer has failed, the notices are the engine's own ones and the refusals. -/
theorem notices_perm {w : World σ α} (hfailures : w.failures = []) :
    w.notices.Perm (w.milestones.filterMap Milestone.notice? ++ w.refused.map .refused) := by
  have hnone := List.filterMap_eq_nil_iff.mp hfailures
  rw [milestones, List.filterMap_filterMap, refused, List.map_filterMap]
  refine filterMap_perm_append fun entry hentry => ?_
  cases entry with
  | noted notice =>
    cases notice with
    | observerFailed => cases hnone _ hentry
    | _ => rfl
  | answered _ status => cases status <;> rfl
  | _ => rfl

/-- The observer has written a line for each event that it has received. -/
def Traces [Labelled α] (w : World σ α) (_ : List (Line α)) : Prop :=
  w.tracedLines tracer = (w.received tracer).map Event.line

variable {tracer} [Labelled α] {w : World σ α} {journal : List (Line α)}

theorem Traces.record (h : w.Traces tracer journal) {entry : Entry α}
    (htraced : entry.traced? tracer = none) (hreceived : entry.received? tracer = none) :
    (w.record entry).Traces tracer journal := by
  rw [Traces, tracedLines_record, received_record, htraced, hreceived,
    Option.toList_none, Option.toList_none, List.append_nil, List.append_nil]
  exact h

theorem Traces.perform (h : w.Traces tracer journal) {speaker : Speaker}
    (hspeaker : speaker ≠ .observer tracer) (request : Request α) :
    (w.perform speaker request).Traces tracer journal := by
  obtain ⟨htraced, hreceived⟩ := filed?_traced tracer hspeaker w request
  rw [Traces, tracedLines, received, filterMap_perform, filterMap_perform, htraced, hreceived]
  rw [Option.toList_none, Option.toList_none, List.append_nil, List.append_nil]
  exact h

theorem Traces.absorb {β : Type} (h : w.Traces tracer journal) {speaker : Speaker}
    (hspeaker : speaker ≠ .observer tracer) (reaction : Reaction σ α β) :
    (w.absorb speaker reaction).Traces tracer journal :=
  List.foldlRecOn (motive := (World.Traces tracer · journal)) reaction.requests _ h
    fun _ h request _ => h.perform hspeaker request

/-- The tracer writes its line when it receives an event. -/
theorem Traces.traced {setup : Setup σ α} (htracer : setup.TracedBy tracer)
    (h : w.Traces tracer journal) (event : Event α) :
    (w.speak (some (.delivered tracer event)) (.observer tracer) fun host =>
      (setup.observe tracer event host).plain).Traces tracer journal := by
  have hspoken : (w.speak (some (.delivered tracer event)) (.observer tracer) fun host =>
        (setup.observe tracer event host).plain) =
      (w.record (.delivered tracer event)).record (.wrote (.observer tracer) event.line) := by
    have hwrites := htracer event w.host
    simp only [speak, hwrites]
    rfl
  rw [hspoken, Traces, tracedLines_record, received_record, tracedLines_record, received_record,
    Entry.traced?, if_pos rfl, show w.tracedLines tracer = _ from h]
  simp [Entry.traced?, Entry.received?]

theorem journals_traces {setup : Setup σ α} (htracer : setup.TracedBy tracer) :
    Journals setup (Traces (σ := σ) (α := α) tracer) where
  speak {w journal entry speaker act} hs h := by
    cases hs with
    | observe observer event =>
      by_cases hobserver : observer = tracer
      · rw [hobserver]
        exact h.traced htracer event
      · refine Traces.absorb (h.record rfl ?_) (by simpa using hobserver) _
        rw [Entry.received?, if_neg hobserver]
    | outside => exact h.absorb (by simp) _
    | vote | complete | signal => exact (h.record rfl rfl).absorb (by simp) _
  announced _ h := h.record rfl rfl
  record {w journal entry} hentry h := by
    apply h.record
    · cases entry <;> first | rfl | cases hentry
    · cases entry <;> first | rfl | cases hentry
  channel _ h := h
  inbox _ h := h
  close h := h

variable (tracer)

/-- What the tracer has written are the events of the run, if it has been in every announcement. -/
theorem tracedLines_eq (h : w.Traces tracer journal) (hserved : Served tracer w)
    (hlisted : ListedIn tracer w.history) : w.tracedLines tracer = w.events.map Event.line := by
  have hreceived : w.received tracer = w.events := by
    rw [events_eq]
    exact hserved.received hlisted
  rw [← hreceived]
  exact h

/-- The engine and its tracer have logged a line for each milestone that has one and for each action
that was refused. -/
def Logs (w : World σ α) : Prop :=
  (w.ownLines tracer).Perm (w.milestones.filterMap Milestone.line? ++
    w.refused.map fun action => (Notice.refused action).line)

theorem ownLines_perm (w : World σ α) :
    (w.ownLines tracer).Perm (w.notices.map Notice.line ++ w.tracedLines tracer) := by
  rw [notices, List.map_filterMap]
  refine filterMap_perm_append fun entry _ => ?_
  cases entry <;> simp [Entry.ownLine?, Entry.notice?, Entry.traced?]

theorem lines_perm (w : World σ α) : (w.milestones.filterMap Milestone.line?).Perm
    ((w.milestones.filterMap Milestone.notice?).map Notice.line ++ w.events.map Event.line) := by
  rw [List.map_filterMap, events, List.map_filterMap]
  refine filterMap_perm_append fun m _ => ?_
  cases m <;> rfl

theorem logs_of_traced (hfailures : w.failures = [])
    (htraced : w.tracedLines tracer = w.events.map Event.line) : w.Logs tracer := by
  have hnotices := (notices_perm hfailures).map Notice.line
  rw [List.map_append, List.map_map] at hnotices
  have hlines := ownLines_perm tracer w
  rw [htraced] at hlines
  refine (hlines.trans (hnotices.append_right _)).trans ?_
  -- The refusals change places with the events.
  rw [List.append_assoc]
  refine (List.perm_append_comm.append_left _).trans ?_
  rw [← List.append_assoc]
  exact (lines_perm w).symm.append_right _

end World

namespace Engine

variable (setup : Setup σ α) (capacity : Nat) (host : σ) (handles : Nat)
  (registered : List ObserverName) (moves : List (Move σ α))

/-- All hooks that fail in a run, from the building of the engine on. -/
def mishaps : List (Mishap α) :=
  (attended setup.audited capacity (host, []) handles registered
    (moves.map (Move.beside _))).world.host.2

/-- A hook that fails in a run is noted once. -/
theorem attended_failures :
    (attended setup capacity host handles registered moves).world.failures =
      (mishaps setup capacity host handles registered moves).map Mishap.notice := by
  let enlists : Reaction σ α Unit := ⟨host, registered.map .watch, ()⟩
  have hinitial : World.Audits (.initial host handles [] : World σ α)
      (.initial (host, []) handles []) := ⟨⟨rfl, rfl, rfl, rfl, rfl, rfl, rfl⟩, rfl⟩
  have hregistered := hinitial.absorb .outside fun _ => enlists
  have hbuilt : World.Audits (registered.foldl World.watch (.initial host handles []) : World σ α)
      (registered.foldl World.watch (.initial (host, []) handles [])) := by
    rw [World.foldl_watch, World.foldl_watch]
    exact hregistered
  have hworld := (play_audits setup capacity moves (.initial hbuilt)).world
  refine (congrArg (List.filterMap Entry.failure?) hworld.same.history).trans ?_
  exact hworld.booked

variable [Labelled α] {setup capacity host handles registered moves}

/-- The log is in order in a run with a tracer that nobody removes, if no hook fails. -/
theorem attended_logs {tracer : ObserverName} (htracer : setup.TracedBy tracer)
    (hmem : tracer ∈ registered)
    (hstays : .unwatch tracer ∉ asked setup capacity host handles registered moves)
    (hhooks : mishaps setup capacity host handles registered moves = []) :
    (attended setup capacity host handles registered moves).world.Logs tracer := by
  have hfailures := attended_failures setup capacity host handles registered moves
  rw [hhooks, List.map_nil] at hfailures
  have hbuilt : World.Traces tracer
      (registered.foldl World.watch (.initial host handles []) : World σ α)
      [⟨none, registered.map .watch⟩] := by
    rw [World.foldl_watch]
    exact World.Traces.absorb (w := .initial host handles []) rfl (by simp) _
  have htraces : World.Traces tracer
      (attended setup capacity host handles registered moves).world _ :=
    attended_attests moves (World.journals_traces htracer) hbuilt
  have hserved := (attended_reachable setup capacity host handles registered moves).served tracer
  have hlisted := attended_listed setup capacity host handles registered moves hmem hstays
  exact World.logs_of_traced tracer hfailures (World.tracedLines_eq tracer htraces hserved hlisted)

end Engine

end Concord
