import Concord.Proofs.Engine.Failures
import Concord.Proofs.Engine.Losses
import Concord.Proofs.Engine.Narration
import Concord.Proofs.Engine.Setbacks
import Concord.Proofs.Engine.Tracing

/-!
# What there are warnings about

An engine and its tracer warn about each store that fails, each action that is dropped, given up or
refused, and each store that is drafted, and about nothing else. The only errors are the actions
that are given up.
-/
namespace Concord

variable {σ α β γ : Type}

/-- What is read off some members only can be read off those. -/
theorem filterMap_filter_of_none {f : β → Option γ} {p : β → Bool} (l : List β)
    (h : ∀ b, p b = false → f b = none) : (l.filter p).filterMap f = l.filterMap f := by
  rw [List.filterMap_filter]
  refine List.filterMap_congr fun b _ => ?_
  cases hb : p b with
  | true => rfl
  | false => exact (h b hb).symm

namespace Milestone

def overflow? : Milestone α → Option (α × Nat)
  | noted (.backlogFull action capacity) => some (action, capacity)
  | _ => none

def abort? : Milestone α → Option (Fault α)
  | announced (.abort action error) => some ⟨action, error⟩
  | _ => none

def drafted? : Milestone α → Option (StoreName × α)
  | noted (.drafted store action) => some (store, action)
  | _ => none

variable [Labelled α]

/-- The line of the given level that is logged about the milestone. -/
def lineAt? (level : Level) (m : Milestone α) : Option LogLine :=
  m.line?.filter (·.level = level)

/-- What the engine or its tracer warns about. -/
def concerns : List (Milestone α → Option LogLine) :=
  [fun m => m.setback?.map fun s => (Event.nack s.store s.action s.why).line,
    fun m => m.dropped?.map fun action => (Event.drop action).line,
    fun m => m.overflow?.map fun full => (Notice.backlogFull full.1 full.2).line,
    fun m => m.abort?.map fun fault => (Event.abort fault.action fault.error).line,
    fun m => m.drafted?.map fun draft => (Notice.drafted draft.1 draft.2).line]

theorem lineAt?_warn {m : Milestone α} (hown : ∀ notice, m = .noted notice → notice.isOwn = true) :
    (m.lineAt? .warn).toList = concerns.flatMap fun concern => (concern m).toList := by
  cases m with
  | announced event => cases event <;> rfl
  | noted notice =>
    cases notice with
    | shuttingDown waiting => cases waiting <;> rfl
    | refused | observerFailed => cases hown _ rfl
    | _ => rfl
  | _ => rfl

theorem lineAt?_error (m : Milestone α) (h : m.isAbortion = false) : m.lineAt? .error = none := by
  cases m with
  | announced event => cases event <;> rfl
  | noted notice =>
    cases notice with
    | shuttingDown waiting => cases waiting <;> rfl
    | aborting => cases h
    | _ => rfl
  | _ => rfl

/-- Lines that say that an action was dropped or aborted are about actions that were. -/
theorem line?_message (m : Milestone α) :
    (m.line?.map fun line => decide (line.message = "Dropped")).getD false = m.dropped?.isSome ∧
      (m.line?.map fun line => decide (line.message = "Aborted")).getD false = m.abort?.isSome := by
  cases m with
  | announced event =>
    cases event <;> simp [line?, notice?, event?, Event.line, dropped?, abort?]
  | noted notice =>
    cases notice with
    | shuttingDown waiting => cases waiting <;> simp [line?, notice?, Notice.line, dropped?, abort?]
    | _ => simp [line?, notice?, Notice.line, dropped?, abort?]
  | _ => exact ⟨rfl, rfl⟩

end Milestone

namespace World

variable {w : World σ α}

theorem isOwn_of_noted {notice : Notice α} (h : .noted notice ∈ w.milestones) :
    notice.isOwn = true := by
  obtain ⟨entry, -, hentry⟩ := List.mem_filterMap.mp h
  cases entry with
  | noted other =>
    simp only [Entry.milestone?, Option.ite_none_right_eq_some] at hentry
    obtain ⟨hown, heq⟩ := hentry
    cases heq
    exact hown
  | answered _ status => cases status <;> cases hentry
  | _ => cases hentry

variable [Labelled α]

theorem Logs.filter {tracer : ObserverName} (h : w.Logs tracer) (level : Level) :
    ((w.ownLines tracer).filter (·.level = level)).Perm
      (w.milestones.filterMap (Milestone.lineAt? level) ++
        (w.refused.map fun action => (Notice.refused action).line).filter (·.level = level)) := by
  have hfiltered := List.Perm.filter (·.level = level) h
  rw [List.filter_append, List.filter_filterMap] at hfiltered
  exact hfiltered

/-- How many lines there are of which something is said that is not said of refusals. -/
theorem Logs.countP {tracer : ObserverName} (h : w.Logs tracer) {p : LogLine → Bool}
    {f : Milestone α → Option γ} (hrefused : ∀ action : α, p (Notice.refused action).line = false)
    (hf : ∀ m : Milestone α, (m.line?.map p).getD false = (f m).isSome) :
    (w.ownLines tracer).countP p = (w.milestones.filterMap f).length := by
  have hnone : (w.refused.map fun action => (Notice.refused action).line).countP p = 0 :=
    List.countP_eq_zero.mpr (List.forall_mem_map.mpr fun action _ => by simp [hrefused action])
  rw [List.Perm.countP_eq p h, List.countP_append, hnone, Nat.add_zero, List.countP_filterMap,
    List.length_filterMap_eq_countP]
  exact List.countP_congr fun m _ => by rw [hf m]

theorem warnings_perm (w : World σ α) : (w.milestones.filterMap (Milestone.lineAt? .warn)).Perm
    (Milestone.concerns.flatMap fun concern => w.milestones.filterMap concern) := by
  refine filterMap_perm_flatMap fun m hm => Milestone.lineAt?_warn fun notice heq => ?_
  rw [heq] at hm
  exact isOwn_of_noted hm

end World

/-- The lines about the stores that are drafted. -/
def Canvass.lines [Labelled α] (c : Canvass α) : List LogLine :=
  c.drafted.map fun store => (Notice.drafted store c.action).line

theorem Canvass.filterMap_drafted? (c : Canvass α) :
    c.milestones.filterMap Milestone.drafted? = c.drafted.map (·, c.action) := by
  have hvotes : (c.ballots.flatMap (Milestone.voting c.action)).filterMap Milestone.drafted? =
      [] := by
    rw [List.filterMap_flatMap]
    exact List.flatMap_eq_nil_iff.mpr fun _ _ => rfl
  unfold milestones
  rw [List.filterMap_cons, List.filterMap_append, hvotes, List.filterMap_map]
  exact congrFun List.filterMap_eq_map c.drafted

namespace Canvasses

variable {setup : Setup σ α} {w : World σ α} {canvasses : List (Canvass α)}

theorem drafted (h : Canvasses setup w canvasses) :
    w.milestones.filterMap Milestone.drafted? =
      canvasses.flatMap fun c => c.drafted.map (·, c.action) := by
  rw [← filterMap_filter_of_none (p := Milestone.inCanvass), h.trace, List.filterMap_flatMap]
  · exact List.flatMap_congr fun c _ => c.filterMap_drafted?
  · intro m hm
    unfold Milestone.drafted?
    split
    · cases hm
    · rfl

end Canvasses

namespace Engine

variable {setup : Setup σ α} {capacity : Nat} {e : Engine σ α}

theorem Overflows.warned (h : Overflows capacity e) :
    e.world.milestones.filterMap Milestone.overflow? = e.world.dropped.map (·, capacity) := by
  rw [← filterMap_filter_of_none (p := Milestone.isOverflow), h.said, List.filterMap_flatMap]
  · exact List.flatMap_pure_eq_map _ _
  · intro m hm
    unfold Milestone.overflow?
    split
    · cases hm
    · rfl

/-- What is read off the steps in which actions are given up. -/
theorem Annals.filterMap_faults {w : World σ α} {courses : List (Course α)}
    (h : Annals setup w courses) {f : Milestone α → Option γ} {g : Fault α → γ}
    (hnone : ∀ m, m.isAbortion = false → f m = none)
    (hsome : ∀ fault : Fault α, fault.milestones.filterMap f = [g fault]) :
    w.milestones.filterMap f =
      ((courses.map (Course.canvass setup)).filterMap (Canvass.fault? setup)).map g := by
  rw [← filterMap_filter_of_none _ hnone, h.faults, List.filterMap_flatMap]
  simp only [hsome]
  exact List.flatMap_pure_eq_map g _

/-- The actions that are announced as given up are those with a faulty canvass. -/
theorem Annals.faults_announced {w : World σ α} {courses : List (Course α)}
    (h : Annals setup w courses) :
    w.milestones.filterMap Milestone.abort? =
      (courses.map (Course.canvass setup)).filterMap (Canvass.fault? setup) := by
  rw [h.filterMap_faults (g := id) ?_ fun _ => rfl, List.map_id]
  intro m hm
  unfold Milestone.abort?
  split
  · cases hm
  · rfl

/-- The count of the actions that were given up is that of the faults. -/
theorem Told.aborted (h : Told e) :
    e.tally.aborted = (e.world.milestones.filterMap Milestone.abort?).length := by
  have hcount : e.tally.aborted = tells .abort e.world.events := h.recounts.aborted
  rw [hcount, tells, World.events, List.countP_filterMap, List.length_filterMap_eq_countP]
  refine List.countP_congr fun m _ => ?_
  cases m with
  | announced event => cases event <;> simp [Milestone.event?, Milestone.abort?, Event.kind]
  | _ => simp [Milestone.event?, Milestone.abort?]

variable [Labelled α]

/-- The warnings that are due, given the actions that were taken in and the canvasses. -/
def warnings (setup : Setup σ α) (capacity : Nat) (e : Engine σ α) (intakes : List (Intake α))
    (canvasses : List (Canvass α)) : List LogLine :=
  [e.setbacks.map fun s => (Event.nack s.store s.action s.why).line,
    (lost intakes).map fun action => (Event.drop action).line,
    (lost intakes).map fun action => (Notice.backlogFull action capacity).line,
    (canvasses.filterMap (Canvass.fault? setup)).map fun fault =>
      (Event.abort fault.action fault.error).line,
    canvasses.flatMap Canvass.lines,
    e.world.refused.map fun action => (Notice.refused action).line].flatten

/-- The errors that are due, given the canvasses. -/
def errors (setup : Setup σ α) (canvasses : List (Canvass α)) : List LogLine :=
  (canvasses.filterMap (Canvass.fault? setup)).map fun fault =>
    (Notice.aborting fault.action fault.error).line

/-- The actions that an engine has taken in, the canvasses that it has held on those that it has not
dropped, and what it and its tracer have said about all this in the log. -/
structure Warns (setup : Setup σ α) (capacity : Nat) (tracer : ObserverName) (e : Engine σ α)
    (intakes : List (Intake α)) (canvasses : List (Canvass α)) : Prop where
  taken : e.world.takenActions = intakes.map Intake.action
  /-- What is not dropped has been canvassed, in order, or still waits. -/
  accepted : kept intakes = canvasses.map Canvass.action ++ e.backlog.items
  held : Canvasses setup e.world canvasses
  warnings : ((e.world.ownLines tracer).filter (·.level = .warn)).Perm
    (e.warnings setup capacity intakes canvasses)
  errors : ((e.world.ownLines tracer).filter (·.level = .error)).Perm (errors setup canvasses)
  countDropped : (e.world.ownLines tracer).countP (·.message = "Dropped") = e.tally.dropped
  countAborted : (e.world.ownLines tracer).countP (·.message = "Aborted") = e.tally.aborted
  countErrors : (e.world.ownLines tracer).countP (·.level = .error) = e.tally.aborted

theorem Reachable.warnings_perm (h : Reachable setup capacity e) {tracer : ObserverName}
    (hlogs : e.world.Logs tracer) {pending : List α} {intakes : List (Intake α)}
    {ended : List (Course α)} {underway : Option (Course α)}
    (hc : Chronicle setup e pending intakes ended underway) :
    ((e.world.ownLines tracer).filter (·.level = .warn)).Perm (e.warnings setup capacity intakes
      ((ended ++ underway.toList).map (Course.canvass setup))) := by
  have hrefused : (e.world.refused.map fun action => (Notice.refused action).line).filter
      (·.level = .warn) = e.world.refused.map fun action => (Notice.refused action).line :=
    List.filter_eq_self.mpr (List.forall_mem_map.mpr fun _ _ => rfl)
  have hdropped : e.world.milestones.filterMap Milestone.dropped? = lost intakes := hc.dropped_eq
  have hoverflow := h.overflows.warned
  rw [hc.dropped_eq] at hoverflow
  have hfaults := hc.annals.faults_announced
  have hdrafted := hc.annals.canvasses.drafted
  refine (hlogs.filter .warn).trans ?_
  rw [hrefused]
  refine ((World.warnings_perm e.world).append_right _).trans (.of_eq ?_)
  simp only [Milestone.concerns, List.flatMap_cons, List.flatMap_nil, ← List.map_filterMap]
  rw [h.setbacks_announced, hdropped, hoverflow, hfaults, hdrafted, List.map_map, List.map_flatMap]
  simp only [List.map_map, List.append_nil, List.append_assoc]
  rw [Engine.warnings]
  simp only [List.flatten_cons, List.flatten_nil, List.append_nil]
  rfl

theorem Reachable.warns (h : Reachable setup capacity e) {tracer : ObserverName}
    (hlogs : e.world.Logs tracer) :
    ∃ intakes canvasses, Warns setup capacity tracer e intakes canvasses := by
  obtain ⟨intakes, ended, underway, hc⟩ := h.sound.chronicled
  let courses := ended ++ underway.toList
  let canvasses := courses.map (Course.canvass setup)
  have hcanvasses : Canvasses setup e.world canvasses := hc.annals.canvasses
  have hdropped : e.tally.dropped = e.world.dropped.length := by
    rw [hc.dropped_eq, hc.dropped, List.countP_eq_length_filter, lost, List.length_map]
  have hnames : courses.map Course.action = canvasses.map Canvass.action := by
    rw [List.map_map]
    rfl
  have herrors := hlogs.filter .error
  have hrefused : (e.world.refused.map fun action => (Notice.refused action).line).filter
      (·.level = .error) = [] :=
    List.filter_eq_nil_iff.mpr (List.forall_mem_map.mpr fun _ _ => by simp [Notice.line])
  rw [hrefused, List.append_nil, hc.annals.filterMap_faults Milestone.lineAt?_error fun _ => rfl]
    at herrors
  refine ⟨intakes, canvasses, hc.takenActions, hnames ▸ hc.accepted, hcanvasses,
    h.warnings_perm hlogs hc, herrors, ?_, ?_, ?_⟩
  · rw [hdropped]
    exact hlogs.countP (fun _ => rfl) fun m => m.line?_message.1
  · rw [h.told.aborted]
    exact hlogs.countP (fun _ => rfl) fun m => m.line?_message.2
  · rw [h.told.aborted, hc.annals.faults_announced, List.countP_eq_length_filter,
      herrors.length_eq, List.length_map]

variable {host : σ} {handles : Nat} {registered : List ObserverName} {moves : List (Move σ α)}

/-- In a run with a tracer that is registered from the start and that nobody removes, and in which
no hook fails, there is one warning for each store that has failed, each action that was given up or
refused and each store that was drafted, there are two for each action that was dropped, and there
is one error for each action that was given up. An action is refused when it is dispatched on a
closed inbox. All other lines in the log are those of others. -/
theorem warnings_accounted {tracer : ObserverName} (htracer : setup.TracedBy tracer)
    (hmem : tracer ∈ registered)
    (hstays : .unwatch tracer ∉ asked setup capacity host handles registered moves)
    (hhooks : mishaps setup capacity host handles registered moves = []) :
    let e := attended setup capacity host handles registered moves
    (∃ intakes canvasses, Warns setup capacity tracer e intakes canvasses) ∧
      SettlesDispatches setup capacity host handles registered moves ∧
      e.world.log.Perm (e.world.ownLines tracer ++ e.world.strangeLines tracer) := by
  refine ⟨?_, attended_settlesDispatches .., World.log_perm tracer _⟩
  exact (attended_reachable ..).warns (attended_logs htracer hmem hstays hhooks)

end Engine

/-- Two stores of which the first goes after the second, which never approves and refuses all work.
The first keeps its channel; the action 9 it would carry out after a store that is not there. One
observer is a tracer. -/
def troubled : Setup Unit Nat where
  stores :=
    { entries :=
        [(⟨"a"⟩,
          { vote := fun action _ => ⟨(), [], .after [if action = 9 then ⟨"z"⟩ else ⟨"b"⟩]⟩
            complete := fun _ _ _ => ⟨(), [], ()⟩
            signal := fun _ _ => ⟨(), [], ()⟩ }),
         (⟨"b"⟩,
          { vote := fun _ _ => ⟨(), [], .declines⟩
            complete := fun _ ticket _ => ⟨(), [.resolve ticket (.nack (.reported "jam" []))], ()⟩
            signal := fun _ _ => ⟨(), [], ()⟩ })]
      ascending := by decide }
  observe observer event _ :=
    ⟨(), if observer = ⟨"tracer"⟩ then [.write event.line] else [], none⟩

/-- The first action is at work, the second waits, and the third finds no place. The action 9 is
given up after them, and the action 7 comes after the shutdown. -/
def troubledMoves : List (Move Unit Nat) :=
  [.outside fun _ => ⟨(), [.send (.dispatch 1), .send (.dispatch 2), .send (.dispatch 3)], ()⟩,
    .turn, .turn, .turn, .turn, .outside fun _ => ⟨(), [.resolve 2 .abandoned], ()⟩, .turn,
    .outside fun _ => ⟨(), [.resolve 4 .ack, .send (.dispatch 9), .send .shutdown], ()⟩,
    .turn, .turn, .turn, .turn, .outside fun _ => ⟨(), [.send (.dispatch 7)], ()⟩, .turn]

namespace Engine

def troubledRun : Engine Unit Nat :=
  attended troubled 1 () 1 [⟨"keen"⟩, ⟨"tracer"⟩] troubledMoves

theorem troubledRun_accounted :
    troubled.TracedBy ⟨"tracer"⟩ ∧
      .unwatch ⟨"tracer"⟩ ∉ asked troubled 1 () 1 [⟨"keen"⟩, ⟨"tracer"⟩] troubledMoves ∧
      mishaps troubled 1 () 1 [⟨"keen"⟩, ⟨"tracer"⟩] troubledMoves = [] ∧
      troubledRun.life = .stopped ∧ troubledRun.tally = ⟨2, 1, 1⟩ ∧
      troubledRun.setbacks = [⟨⟨"b"⟩, 1, .reported "jam" []⟩, ⟨⟨"a"⟩, 1, .abandoned⟩,
        ⟨⟨"b"⟩, 2, .reported "jam" []⟩] ∧
      troubledRun.world.dropped = [3] ∧ troubledRun.world.refused = [7] ∧
      ((troubledRun.world.ownLines ⟨"tracer"⟩).filter (·.level = .warn)).map (·.message) =
        ["Store executes as a dependency without approving the action", "Nack",
          "Dispatcher is dropping action, queue is full", "Dropped", "Nack",
          "Store executes as a dependency without approving the action", "Nack", "Aborted",
          "Dispatcher stopped, dropping action"] ∧
      ∃ intakes canvasses, Warns troubled 1 ⟨"tracer"⟩ troubledRun intakes canvasses := by
  have htracer : troubled.TracedBy ⟨"tracer"⟩ := fun _ _ => rfl
  refine ⟨htracer, ?stays, ?hooks, ?_, ?_, ?_, ?_, ?_, ?_,
    (warnings_accounted htracer (by decide) ?stays ?hooks).1⟩
  -- None of this depends on what a refusal says, so that text is not put together.
  all_goals
    delta troubledRun troubled Event.line Event.reason? World.ownLines Entry.ownLine? Notice.line
    generalize Refusal.message = text
  case stays => decide_cbv
  all_goals cbv

end Engine

end Concord
