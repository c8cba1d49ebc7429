import Concord.Proofs.Engine.Chronicles
import Concord.Proofs.Engine.Runs

/-!
# The invariant of all runs

`Sound` holds of an engine that has never run, and every step of a run preserves it. It says that
the run has a chronicle in which the pending actions are those of the backlog, and that nothing
waits behind an idle engine.
-/
namespace Concord.Engine

variable {σ α : Type} {setup : Setup σ α} {e e' : Engine σ α} {intakes : List (Intake α)}

theorem undertake_onward (setup : Setup σ α) (action : α) (e : Engine σ α)
    (hr : e.world.ChannelOnRecord) :
    Onward e (e.undertake setup action) ∧ (e.undertake setup action).backlog = e.backlog := by
  obtain ⟨c, -, hu⟩ := undertake_undertaken setup action e hr
  have hbacklog : (e.undertake setup action).backlog = e.backlog := by rw [hu.result]
  refine ⟨⟨⟨_, hu.world, hu.follows.inCourse⟩, by rw [hbacklog], ?_, ?_⟩, hbacklog⟩
  · rw [hu.result]
  · rw [hu.result]

theorem undertakeUpTo_onward (setup : Setup σ α) (n : Nat) (e : Engine σ α)
    (hr : e.world.ChannelOnRecord) : Onward e (e.undertakeUpTo setup n) := by
  induction n generalizing e with
  | zero => exact .refl e
  | succ n ih =>
    unfold undertakeUpTo
    split
    · exact .refl e
    cases ho : e.backlog.oldest? with
    | none => exact .refl e
    | some next =>
      obtain ⟨action, backlog⟩ := next
      have hcapacity := (Backlog.items_of_oldest?_eq_some ho).2
      have htake : Onward e { e with backlog } := ⟨⟨[], .refl _, by simp⟩, hcapacity, rfl, rfl⟩
      have hnext := htake.trans (undertake_onward setup action { e with backlog } hr).1
      exact hnext.trans (ih _ (hnext.onRecord hr))

/-- As many attempts as there are waiting actions leave none waiting behind an idle engine. -/
theorem undertakeUpTo_chronicled (n : Nat) (h : Chronicled setup e e.backlog.items intakes)
    (hn : e.backlog.length ≤ n) :
    Chronicled setup (e.undertakeUpTo setup n) (e.undertakeUpTo setup n).backlog.items intakes ∧
      ((e.undertakeUpTo setup n).isBusy = false →
        (e.undertakeUpTo setup n).backlog.items = []) := by
  induction n generalizing e with
  | zero => exact ⟨h, fun _ => List.length_eq_zero_iff.mp (Nat.le_zero.mp hn)⟩
  | succ n ih =>
    unfold undertakeUpTo
    by_cases hbusy : e.isBusy = true
    · rw [if_pos hbusy]
      refine ⟨h, fun hidle => ?_⟩
      rw [hbusy] at hidle
      cases hidle
    rw [if_neg hbusy]
    cases ho : e.backlog.oldest? with
    | none => exact ⟨h, fun _ => Backlog.oldest?_eq_none_iff.mp ho⟩
    | some next =>
      obtain ⟨action, backlog⟩ := next
      have hitems := (Backlog.items_of_oldest?_eq_some ho).1
      obtain ⟨ended, underway, hc⟩ := h
      have hr := hc.annals.onRecord
      have hnext : Chronicled setup { e with backlog } (action :: backlog.items) intakes := by
        rw [← hitems]
        exact ⟨ended, underway, hc.still (.same rfl rfl) rfl rfl rfl rfl⟩
      have hundertaken := hnext.undertake (Bool.eq_false_iff.mpr hbusy)
      have hbacklog := (undertake_onward setup action { e with backlog } hr).2
      have hlength : backlog.length ≤ n := by
        have := congrArg List.length hitems
        unfold Backlog.length at hn ⊢
        rw [List.length_cons] at this
        omega
      apply ih
      · rw [hbacklog]
        exact hundertaken
      · rw [hbacklog]
        exact hlength

/-- What holds whenever an engine is at the head of its loop. -/
structure Sound (setup : Setup σ α) (capacity : Nat) (e : Engine σ α) : Prop where
  chronicled : ∃ intakes, Chronicled setup e e.backlog.items intakes
  capacity : e.backlog.capacity = capacity
  rested : e.isBusy = false → e.backlog.items = []

namespace Sound

variable {capacity : Nat}

theorem onRecord (h : Sound setup capacity e) : e.world.ChannelOnRecord := by
  obtain ⟨intakes, ended, underway, hc⟩ := h.chronicled
  exact hc.annals.onRecord

/-- Steps beside the courses that touch neither the backlog nor the phase nor the counts. -/
theorem still (h : Sound setup capacity e) {ms : List (Milestone α)}
    (hw : e.world.Adds ms e'.world) (hms : ms.filter Milestone.inCourse = [])
    (hr : ms.filterMap Milestone.receipt? = []) (hb : e'.backlog = e.backlog)
    (hp : e'.phase = e.phase) (ht : e'.tally = e.tally) : Sound setup capacity e' := by
  obtain ⟨intakes, ended, underway, hc⟩ := h.chronicled
  refine ⟨⟨intakes, ended, underway, ?_⟩, by rw [hb]; exact h.capacity, ?_⟩
  · rw [hb]
    exact hc.still hw hms hr hp ht
  · rw [hb, Engine.isBusy, hp]
    exact h.rested

theorem undertakeWaiting {intakes : List (Intake α)}
    (h : Chronicled setup e e.backlog.items intakes) (hcap : e.backlog.capacity = capacity) :
    Sound setup capacity (e.undertakeWaiting setup) := by
  obtain ⟨hc, hrest⟩ := undertakeUpTo_chronicled e.backlog.length h (Nat.le_refl _)
  obtain ⟨ended, underway, hchronicle⟩ := h
  have honward := undertakeUpTo_onward setup e.backlog.length e hchronicle.annals.onRecord
  exact ⟨⟨intakes, hc⟩, honward.capacity.trans hcap, hrest⟩

theorem initial (host : σ) (handles : Nat) (observers : List ObserverName) :
    Sound setup capacity (.initial capacity (.initial host handles observers)) := by
  refine ⟨⟨[], [], none, ?_⟩, rfl, fun _ => rfl⟩
  refine ⟨⟨?_, by simp, by simp, rfl⟩, by simp, by simp, rfl, rfl, rfl, rfl, rfl⟩
  intro ticket _
  exact (ite_self _).symm

end Sound

theorem taking_adds (e : Engine σ α) (message : Message α) (inbox : List (Message α)) :
    e.world.Adds [.took message] (e.taking message inbox).world := by
  have hrest : e.world.Adds [] { e.world with inbox } := .same rfl rfl
  exact hrest.trans (.record _ (fun _ => rfl) rfl rfl)

theorem hearing_adds (setup : Setup σ α) (action : α) (inbox : List (Message α)) (e : Engine σ α) :
    e.world.Adds [.took (.dispatch action), .announced (.dispatch action)]
      (e.hearing setup action inbox).world :=
  (taking_adds e _ inbox).trans (World.announce_grows setup _ _).toAdds

theorem dropping_grows (setup : Setup σ α) (action : α) (capacity : Nat) (e : Engine σ α) :
    e.world.Grows [.noted (.backlogFull action capacity), .announced (.drop action)]
      ((e.note (.backlogFull action capacity)).countDropped.announce setup (.drop action)).world :=
  (World.Grows.note e.world (.backlogFull action capacity) rfl).trans
    (World.announce_grows setup _ _)

theorem replying_adds (setup : Setup σ α) (inquiry : Inquiry) (inbox : List (Message α))
    (e : Engine σ α) :
    e.world.Adds [.took (.status inquiry), .answered inquiry e.status]
      ((e.taking (.status inquiry) inbox).obey setup (.status inquiry)).world :=
  (taking_adds e _ inbox).trans (.record _ (fun _ => rfl) rfl rfl)

theorem shutting_adds (setup : Setup σ α) (inbox : List (Message α)) (e : Engine σ α) :
    e.world.Adds [.took .shutdown, .noted (.shuttingDown e.backlog.length)]
      ((e.taking .shutdown inbox).obey setup .shutdown).world :=
  have hnote := (taking_adds e .shutdown inbox).trans
    (World.Grows.note _ (.shuttingDown e.backlog.length) rfl).toAdds
  hnote.trans (.same rfl rfl)

theorem stop_adds (e : Engine σ α) :
    e.world.Adds [.noted (.stopped e.tally.processed e.tally.dropped e.tally.aborted)]
      e.stop.world :=
  (World.Grows.note e.world (.stopped ..) rfl).toAdds.trans (World.discardInbox_adds _)

theorem kill_adds (e : Engine σ α) : e.world.Adds [] e.kill.world := by
  unfold kill
  split
  · exact World.discardInbox_adds _
  · exact World.discardInbox_adds _
  · exact .same rfl rfl
  · exact .same rfl rfl

/-- Apart from what is in the inbox, an engine that is taken away stays as it was. -/
theorem kill_same (e : Engine σ α) :
    e.kill.phase = e.phase ∧ e.kill.backlog = e.backlog ∧ e.kill.tally = e.tally ∧
      e.kill.listening = e.listening := by
  unfold kill
  split <;> exact ⟨rfl, rfl, rfl, rfl⟩

namespace Sound

variable {capacity : Nat}

/-- An action that is taken from the inbox is undertaken, put behind the others or dropped. -/
theorem accept (h : Sound setup capacity e) (action : α) (inbox : List (Message α)) :
    Sound setup capacity ((e.taking (.dispatch action) inbox).accept setup action) := by
  obtain ⟨intakes, ended, underway, hc⟩ := h.chronicled
  have hdispatch := hearing_adds setup action inbox e
  rcases accept_cases setup action (e.taking (.dispatch action) inbox) with
    ⟨hidle, haccept⟩ | ⟨hbusy, backlog, hput, haccept⟩ | ⟨hbusy, hfull, haccept⟩
  · rw [haccept]
    have hnil : e.backlog.items = [] := h.rested hidle
    let e₂ := e.hearing setup action inbox
    change Sound setup capacity ((e₂.undertake setup action).undertakeWaiting setup)
    have haside : Chronicle setup e₂ (e.backlog.items ++ [action]) (intakes ++ [⟨action, false⟩])
        ended underway := hc.aside [⟨action, false⟩] hdispatch rfl rfl rfl rfl
    rw [hnil] at haside
    have hnext := Chronicled.undertake ⟨ended, underway, haside⟩ hidle
    have hbacklog := (undertake_onward setup action e₂ haside.annals.onRecord).2
    apply Sound.undertakeWaiting
    · rw [hbacklog, show e₂.backlog.items = [] from hnil]
      exact hnext
    · rw [hbacklog]
      exact h.capacity
  · rw [haccept]
    obtain ⟨hitems, hcapacity⟩ := Backlog.items_of_put_eq_ok hput
    refine ⟨⟨intakes ++ [⟨action, false⟩], ended, underway, ?_⟩, hcapacity.trans h.capacity, ?_⟩
    · rw [hitems]
      exact hc.aside [⟨action, false⟩] hdispatch rfl rfl rfl rfl
    · intro hidle
      exact absurd (hbusy.symm.trans hidle) (by decide)
  · rw [haccept]
    have hdrop := hdispatch.trans (dropping_grows setup action e.backlog.capacity _).toAdds
    refine ⟨⟨intakes ++ [⟨action, true⟩], ended, underway, ?_⟩, h.capacity, ?_⟩
    · change Chronicle setup _ e.backlog.items _ ended underway
      rw [← List.append_nil e.backlog.items]
      exact hc.aside [⟨action, true⟩] hdrop rfl rfl rfl rfl
    · intro hidle
      exact absurd (hbusy.symm.trans hidle) (by decide)

theorem obey (h : Sound setup capacity e) (message : Message α) (inbox : List (Message α)) :
    Sound setup capacity ((e.taking message inbox).obey setup message) := by
  cases message with
  | dispatch action => exact h.accept action inbox
  | status inquiry => exact h.still (replying_adds setup inquiry inbox e) rfl rfl rfl rfl rfl
  | shutdown => exact h.still (shutting_adds setup inbox e) rfl rfl rfl rfl rfl

theorem turned (h : Sound setup capacity e) (ht : Turned setup e e') : Sound setup capacity e' := by
  cases ht with
  | started hlife =>
    have hnote := World.Grows.note e.world (.started setup.stores.size e.backlog.capacity) rfl
    exact h.still hnote.toAdds rfl rfl rfl rfl rfl
  | read hlife hl hi => exact h.obey _ _
  | deafened hlife hl hi hh => exact h.still (.same rfl rfl) rfl rfl rfl rfl rfl
  | proceeded hlife hp hl ho =>
    obtain ⟨intakes, hc⟩ := h.chronicled
    obtain ⟨hnext, -, hbacklog⟩ := hc.carryOn hp ho
    apply Sound.undertakeWaiting
    · rw [hbacklog]
      exact hnext
    · rw [hbacklog]
      exact h.capacity
  | stopped hlife hp hl => exact h.still (stop_adds e) rfl rfl rfl rfl rfl

theorem stepped (h : Sound setup capacity e) (hs : Step setup e e') : Sound setup capacity e' := by
  cases hs with
  | turn ht => exact h.turned (turn_turned ht)
  | outside reaction =>
    exact h.still (World.absorb_grows .outside reaction e.world).toAdds rfl rfl rfl rfl rfl
  | kill =>
    obtain ⟨hp, hb, ht, -⟩ := kill_same e
    exact h.still (kill_adds e) rfl rfl hb hp ht

end Sound

theorem Reachable.sound {capacity : Nat} (h : Reachable setup capacity e) :
    Sound setup capacity e := by
  induction h with
  | initial host handles observers => exact .initial host handles observers
  | step _ hs ih => exact ih.stepped hs

end Concord.Engine
