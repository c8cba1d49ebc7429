import Concord.Proofs.Engine.Brackets

/-!
# The chronicle of a run

A run is a sequence of courses, of which the last may be underway. `Chronicle` relates it to the
engine: to its phase and counts, to the steps on record, and to the actions taken from the inbox
so far, each of which was dropped, has its course, or is still pending.
-/
namespace Concord

variable {σ α : Type}

/-- An action taken from the inbox, and whether it was dropped there and then. -/
structure Intake (α : Type) where
  action : α
  dropped : Bool
deriving DecidableEq

inductive Receipt (α : Type) where
  | taken (action : α)
  | dropped (action : α)
deriving DecidableEq

def Intake.receipts (intake : Intake α) : List (Receipt α) :=
  .taken intake.action :: if intake.dropped then [.dropped intake.action] else []

/-- The actions that were not dropped. -/
def kept (intakes : List (Intake α)) : List α :=
  (intakes.filter (!·.dropped)).map Intake.action

namespace Milestone

def receipt? : Milestone α → Option (Receipt α)
  | took (.dispatch action) => some (.taken action)
  | announced (.drop action) => some (.dropped action)
  | _ => none

theorem receipt?_eq_none {m : Milestone α} (h : m.inCourse = true) : m.receipt? = none := by
  unfold receipt?
  split
  · cases h
  · cases h
  · rfl

/-- Steps in no course may be left out where nothing is read off them. -/
theorem filterMap_filter_inCourse {β : Type} {f : Milestone α → Option β}
    (hf : ∀ m, m.inCourse = false → f m = none) (ms : List (Milestone α)) :
    (ms.filter inCourse).filterMap f = ms.filterMap f := by
  rw [List.filterMap_filter]
  refine List.filterMap_congr fun m _ => ?_
  cases hm : m.inCourse with
  | true => rfl
  | false => exact (hf m hm).symm

theorem receipts_eq_nil {ms : List (Milestone α)} (h : ∀ m ∈ ms, m.inCourse = true) :
    ms.filterMap receipt? = [] :=
  List.filterMap_eq_nil_iff.mpr fun m hm => receipt?_eq_none (h m hm)

end Milestone

namespace Engine

variable (setup : Setup σ α)

theorem Continued.inCourse {setup : Setup σ α} {c c' : Course α} {e e' : Engine σ α}
    (h : Continued setup c c' e e') :
    ∃ ms, c'.milestones setup = c.milestones setup ++ ms ∧ e.world.Grows ms e'.world ∧
      ∀ m ∈ ms, m.inCourse = true := by
  obtain ⟨ms, hms, hw⟩ := h.world
  refine ⟨ms, hms, hw, fun m hm => ?_⟩
  apply h.follows.inCourse
  rw [hms]
  exact List.mem_append_right _ hm

/-- The courses that a world has seen, one after the other. -/
structure Annals (w : World σ α) (courses : List (Course α)) : Prop where
  onRecord : w.ChannelOnRecord
  follows : ∀ c ∈ courses, c.Follows setup
  outcomes : ∀ c ∈ courses, ∀ turn ∈ c.turns, w.outcomeOf turn.ticket = some turn.outcome
  trace : w.milestones.filter Milestone.inCourse = courses.flatMap (Course.milestones setup)

namespace Annals

variable {setup} {w w' : World σ α} {courses : List (Course α)}

theorem aside (h : Annals setup w courses) {ms : List (Milestone α)} (hw : w.Adds ms w')
    (hms : ms.filter Milestone.inCourse = []) : Annals setup w' courses := by
  refine ⟨hw.onRecord h.onRecord, h.follows, ?_, ?_⟩
  · exact fun c hc turn ht => hw.outcomeOf (h.outcomes c hc turn ht)
  · rw [hw.milestones, List.filter_append, hms, List.append_nil]
    exact h.trace

theorem undertaken {e e' : Engine σ α} {c : Course α} (h : Annals setup e.world courses)
    (hu : Undertaken setup c e e') : Annals setup e'.world (courses ++ [c]) := by
  have hfollows := List.forall_mem_append.mpr ⟨h.follows, List.forall_mem_singleton.mpr hu.follows⟩
  have hold : ∀ d ∈ courses, ∀ turn ∈ d.turns,
      e'.world.outcomeOf turn.ticket = some turn.outcome :=
    fun d hd turn ht => hu.world.outcomeOf (h.outcomes d hd turn ht)
  have houtcomes := List.forall_mem_append.mpr ⟨hold, List.forall_mem_singleton.mpr hu.outcomes⟩
  refine ⟨hu.world.onRecord h.onRecord, hfollows, houtcomes, ?_⟩
  have hall : (c.milestones setup).filter Milestone.inCourse = c.milestones setup :=
    List.filter_eq_self.mpr hu.follows.inCourse
  rw [hu.world.milestones, List.filter_append, h.trace, hall, List.flatMap_append,
    List.flatMap_singleton]

theorem continued {e e' : Engine σ α} {c c' : Course α}
    (h : Annals setup e.world (courses ++ [c])) (hc : Continued setup c c' e e') :
    Annals setup e'.world (courses ++ [c']) := by
  obtain ⟨ms, hms, hw, hcourse⟩ := hc.inCourse
  obtain ⟨hbefore, -⟩ := List.forall_mem_append.mp h.follows
  obtain ⟨hturns, hlast⟩ := List.forall_mem_append.mp h.outcomes
  rw [List.forall_mem_singleton] at hlast
  have hold : ∀ d ∈ courses, ∀ turn ∈ d.turns,
      e'.world.outcomeOf turn.ticket = some turn.outcome :=
    fun d hd turn ht => hw.outcomeOf (hturns d hd turn ht)
  have hnew : ∀ turn ∈ c'.turns, e'.world.outcomeOf turn.ticket = some turn.outcome := by
    intro turn ht
    rcases hc.outcomes turn ht with ht | ho
    · exact hw.outcomeOf (hlast turn ht)
    · exact ho
  refine ⟨hw.onRecord h.onRecord,
    List.forall_mem_append.mpr ⟨hbefore, List.forall_mem_singleton.mpr hc.follows⟩,
    List.forall_mem_append.mpr ⟨hold, List.forall_mem_singleton.mpr hnew⟩, ?_⟩
  have hall : ms.filter Milestone.inCourse = ms := List.filter_eq_self.mpr hcourse
  have htrace := h.trace
  rw [List.flatMap_append, List.flatMap_singleton] at htrace
  rw [hw.milestones, List.filter_append, htrace, hall, List.flatMap_append,
    List.flatMap_singleton, hms, List.append_assoc]

/-- What is read off the courses alone. -/
theorem filterMap {β : Type} (h : Annals setup w courses) (f : Milestone α → Option β)
    (hf : ∀ m, m.inCourse = false → f m = none) :
    w.milestones.filterMap f = courses.flatMap fun c => (c.milestones setup).filterMap f := by
  rw [← Milestone.filterMap_filter_inCourse hf, h.trace, List.filterMap_flatMap]

end Annals

/-- A run so far: the courses that have ended, the one underway, what was taken from the inbox, and
the actions that are still to be undertaken. -/
structure Chronicle (e : Engine σ α) (pending : List α) (intakes : List (Intake α))
    (ended : List (Course α)) (underway : Option (Course α)) : Prop where
  annals : Annals setup e.world (ended ++ underway.toList)
  finished : ∀ c ∈ ended, c.atWork = none
  working : ∀ c ∈ underway, ∃ store, c.atWork = some (store, e.world.channel.ticket)
  phase : e.phase = underway.elim .idle (Course.phase setup)
  receipts : e.world.milestones.filterMap Milestone.receipt? = intakes.flatMap Intake.receipts
  accepted : kept intakes = (ended ++ underway.toList).map Course.action ++ pending
  dropped : e.tally.dropped = intakes.countP Intake.dropped
  counted : e.tally.processed + e.tally.aborted = ended.length

def Chronicled (e : Engine σ α) (pending : List α) (intakes : List (Intake α)) : Prop :=
  ∃ ended underway, Chronicle setup e pending intakes ended underway

variable {setup} {e e' : Engine σ α} {pending : List α} {intakes : List (Intake α)}

namespace Chronicle

variable {ended : List (Course α)} {underway : Option (Course α)}

theorem isBusy (h : Chronicle setup e pending intakes ended underway) :
    e.isBusy = underway.isSome := by
  unfold Engine.isBusy
  rw [h.phase]
  cases underway with
  | none => rfl
  | some c =>
    obtain ⟨store, hw⟩ := h.working c rfl
    have hphase : c.phase setup =
        .waiting (.after c.action (c.order setup) c.turns) store e.world.channel.ticket := by
      rw [Course.phase, hw]
      rfl
    rw [Option.elim_some, hphase]
    rfl

/-- Steps beside the courses, such as taking more actions from the inbox. -/
theorem aside (h : Chronicle setup e pending intakes ended underway) {ms : List (Milestone α)}
    (fresh : List (Intake α)) (hw : e.world.Adds ms e'.world)
    (hms : ms.filter Milestone.inCourse = [])
    (hr : ms.filterMap Milestone.receipt? = fresh.flatMap Intake.receipts)
    (hp : e'.phase = e.phase)
    (ht : e'.tally = { e.tally with
      dropped := e.tally.dropped + fresh.countP Intake.dropped }) :
    Chronicle setup e' (pending ++ kept fresh) (intakes ++ fresh) ended underway := by
  refine ⟨h.annals.aside hw hms, h.finished, ?_, hp.trans h.phase, ?_, ?_, ?_, ?_⟩
  · have hticket : e'.world.channel.ticket = e.world.channel.ticket := by
      rw [hw.ticket, Milestone.countP_isOpening hms, Nat.add_zero]
    rw [hticket]
    exact h.working
  · rw [hw.milestones, List.filterMap_append, h.receipts, hr, List.flatMap_append]
  · rw [kept, List.filter_append, List.map_append, ← List.append_assoc, ← h.accepted]
    rfl
  · rw [ht, List.countP_append, ← h.dropped]
  · rw [ht]
    exact h.counted

theorem still (h : Chronicle setup e pending intakes ended underway) {ms : List (Milestone α)}
    (hw : e.world.Adds ms e'.world) (hms : ms.filter Milestone.inCourse = [])
    (hr : ms.filterMap Milestone.receipt? = []) (hp : e'.phase = e.phase)
    (ht : e'.tally = e.tally) : Chronicle setup e' pending intakes ended underway := by
  have haside := h.aside [] hw hms hr hp ht
  rw [List.append_nil, kept, List.filter_nil, List.map_nil, List.append_nil] at haside
  exact haside

end Chronicle

/-- An engine that has followed a last course is chronicled, whether the course has ended or not. -/
theorem chronicled_last {ended : List (Course α)} {c : Course α} {tally : Tally}
    (hann : Annals setup e.world (ended ++ [c])) (hended : ∀ d ∈ ended, d.atWork = none)
    (hchannel : ∀ {store ticket}, c.atWork = some (store, ticket) → e.world.channel.ticket = ticket)
    (hp : e.phase = c.phase setup) (ht : e.tally = c.count setup tally)
    (hr : e.world.milestones.filterMap Milestone.receipt? = intakes.flatMap Intake.receipts)
    (hk : kept intakes = (ended ++ [c]).map Course.action ++ pending)
    (hd : tally.dropped = intakes.countP Intake.dropped)
    (hcounted : tally.processed + tally.aborted = ended.length) :
    Chronicled setup e pending intakes := by
  have hdropped : e.tally.dropped = intakes.countP Intake.dropped := by
    rw [ht, Course.count_dropped, hd]
  cases hw : c.atWork with
  | none =>
    have hidle : e.phase = .idle := by
      rw [hp, Course.phase, hw]
      rfl
    refine ⟨ended ++ [c], none, ?_, ?_, by simp, hidle, hr, ?_, hdropped, ?_⟩
    · rw [Option.toList_none, List.append_nil]
      exact hann
    · exact List.forall_mem_append.mpr ⟨hended, List.forall_mem_singleton.mpr hw⟩
    · rw [Option.toList_none, List.append_nil]
      exact hk
    · rw [ht, Course.count_of_ended hw, hcounted, List.length_append, List.length_singleton]
  | some work =>
    obtain ⟨store, ticket⟩ := work
    have hfollows := hann.follows c (List.mem_append_right _ (List.mem_singleton.mpr rfl))
    refine ⟨ended, some c, hann, hended, ?_, hp, hr, hk, hdropped, ?_⟩
    · rintro d ⟨⟩
      rw [hchannel hw]
      exact ⟨store, hw⟩
    · rw [ht, Course.count_of_atWork hfollows hw]
      exact hcounted

/-- An engine has only gone on with actions it had accepted. -/
structure Onward (e e' : Engine σ α) : Prop where
  world : ∃ ms, e.world.Grows ms e'.world ∧ ∀ m ∈ ms, m.inCourse = true
  capacity : e'.backlog.capacity = e.backlog.capacity
  listening : e'.listening = e.listening
  life : e'.life = e.life

namespace Onward

theorem refl (e : Engine σ α) : Onward e e := ⟨⟨[], .refl _, by simp⟩, rfl, rfl, rfl⟩

theorem trans {e'' : Engine σ α} (h : Onward e e') (h' : Onward e' e'') : Onward e e'' := by
  obtain ⟨ms, hw, hms⟩ := h.world
  obtain ⟨ms', hw', hms'⟩ := h'.world
  refine ⟨⟨ms ++ ms', hw.trans hw', ?_⟩, h'.capacity.trans h.capacity,
    h'.listening.trans h.listening, h'.life.trans h.life⟩
  intro m hm
  exact (List.mem_append.mp hm).elim (hms m) (hms' m)

theorem onRecord (h : Onward e e') (hr : e.world.ChannelOnRecord) : e'.world.ChannelOnRecord := by
  obtain ⟨ms, hw, -⟩ := h.world
  exact hw.onRecord hr

end Onward

/-- An idle engine undertakes the next pending action. -/
theorem Chronicled.undertake {action : α}
    (h : Chronicled setup e (action :: pending) intakes) (hidle : e.isBusy = false) :
    Chronicled setup (e.undertake setup action) pending intakes := by
  obtain ⟨ended, underway, h⟩ := h
  rw [h.isBusy, Option.isSome_eq_false_iff, Option.isNone_iff_eq_none] at hidle
  subst hidle
  have hann := h.annals
  have hk := h.accepted
  rw [Option.toList_none, List.append_nil] at hann hk
  obtain ⟨c, hc, hu⟩ := undertake_undertaken setup action e hann.onRecord
  refine chronicled_last (hann.undertaken hu) h.finished hu.channel ?_ ?_ ?_ ?_ h.dropped h.counted
  · rw [hu.result]
  · rw [hu.result]
  · rw [hu.world.milestones, List.filterMap_append, Milestone.receipts_eq_nil hu.follows.inCourse,
      List.append_nil]
    exact h.receipts
  · rw [hk, List.map_append, List.map_singleton, hc, List.append_assoc, List.singleton_append]

/-- An engine that waits has a course underway, and the store at work on it holds the channel that
was opened last. -/
theorem Chronicle.awaited {ended : List (Course α)} {underway : Option (Course α)}
    (h : Chronicle setup e pending intakes ended underway) {walk : Walk α} {store : StoreName}
    {ticket : Ticket} (hp : e.phase = .waiting walk store ticket) :
    ∃ c, underway = some c ∧ c.atWork = some (store, e.world.channel.ticket) ∧
      e.world.channel.ticket = ticket ∧ walk = .after c.action (c.order setup) c.turns := by
  have hphase := h.phase
  rw [hp] at hphase
  cases underway with
  | none => cases hphase
  | some c =>
    obtain ⟨s, hw⟩ := h.working c rfl
    rw [Option.elim_some, Course.phase, hw] at hphase
    cases hphase
    exact ⟨c, rfl, hw, rfl, rfl⟩

/-- The answer of the store at work continues the course underway. -/
theorem Chronicle.continued {ended : List (Course α)} {underway : Option (Course α)}
    (h : Chronicle setup e pending intakes ended underway) {walk : Walk α} {store : StoreName}
    {ticket : Ticket} (hp : e.phase = .waiting walk store ticket) {outcome : Outcome}
    (ho : e.world.channel.outcome = some outcome) :
    ∃ c c', underway = some c ∧ c.Follows setup ∧ e.phase = c.phase setup ∧
      c.atWork = some (store, e.world.channel.ticket) ∧
      walk = .after c.action (c.order setup) c.turns ∧
      Continued setup c c' e (e.carryOn setup walk store outcome) := by
  obtain ⟨c, rfl, hw, -, rfl⟩ := h.awaited hp
  have hfollows := h.annals.follows c (by simp)
  have hrecord : e.world.outcomeOf e.world.channel.ticket = some outcome := by
    rw [h.annals.onRecord _ (Nat.le_refl _), if_pos rfl, ho]
  obtain ⟨c', hc⟩ := carryOn_continued setup hfollows hw outcome e h.annals.onRecord hrecord
  exact ⟨c, c', rfl, hfollows, h.phase, hw, rfl, hc⟩

/-- A busy engine goes on when the store at work has answered. -/
theorem Chronicled.carryOn {walk : Walk α} {store : StoreName} {ticket : Ticket}
    {outcome : Outcome} (h : Chronicled setup e pending intakes)
    (hp : e.phase = .waiting walk store ticket) (ho : e.world.channel.outcome = some outcome) :
    Chronicled setup (e.carryOn setup walk store outcome) pending intakes ∧
      Onward e (e.carryOn setup walk store outcome) ∧
      (e.carryOn setup walk store outcome).backlog = e.backlog := by
  obtain ⟨ended, underway, h⟩ := h
  obtain ⟨c, c', rfl, -, -, -, -, hc⟩ := h.continued hp ho
  generalize e.carryOn setup walk store outcome = e' at hc ⊢
  obtain ⟨ms, -, hgrows, hcourse⟩ := hc.inCourse
  have hbacklog : e'.backlog = e.backlog := by rw [hc.result]
  refine ⟨?_, ⟨⟨ms, hgrows, hcourse⟩, by rw [hbacklog], ?_, ?_⟩, hbacklog⟩
  · refine chronicled_last (h.annals.continued hc) h.finished hc.channel ?_ ?_ ?_ ?_ h.dropped
      h.counted
    · rw [hc.result]
    · rw [hc.result]
    · rw [hgrows.milestones, List.filterMap_append, Milestone.receipts_eq_nil hcourse,
        List.append_nil]
      exact h.receipts
    · rw [h.accepted, Option.toList_some, List.map_append, List.map_append,
        List.map_singleton, List.map_singleton, hc.action]
  · rw [hc.result]
  · rw [hc.result]

end Engine

end Concord
