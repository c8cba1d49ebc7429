import Concord.Proofs.Engine.Ledger

/-!
# Observers that fail

An observer that fails is warned about once, and that is all. Runs that differ in the failures of
some observers are the same up to these warnings. If those observers have no effect of their own,
a run is also the same as one in which they are not registered, up to what they receive and log.
-/
namespace Concord

variable {σ τ α β : Type}

namespace Entry

/-- Whether one of the given observers is noted to have failed. -/
def isFailureOf (suspects : ObserverName → Bool) : Entry α → Bool
  | noted (.observerFailed observer ..) => suspects observer
  | _ => false

/-- The step as it is where nothing is said of the failures of the given observers. -/
def forgiven (suspects : ObserverName → Bool) (entry : Entry α) : Option (Entry α) :=
  if entry.isFailureOf suspects then none else some entry

/-- Whether one of the given observers receives an event, writes to the log or fails. -/
def isOf (suspects : ObserverName → Bool) : Entry α → Bool
  | delivered observer _ | wrote (.observer observer) _
  | noted (.observerFailed observer ..) => suspects observer
  | _ => false

/-- The step as it is where the given observers are not registered. -/
def without (suspects : ObserverName → Bool) : Entry α → Option (Entry α)
  | announced event observers => some (announced event (observers.filter (!suspects ·)))
  | entry => if entry.isOf suspects then none else some entry

variable {suspects : ObserverName → Bool} {entry : Entry α}

theorem isFailureOf_cases (h : entry.isFailureOf suspects = true) :
    ∃ observer event why, entry = .noted (.observerFailed observer event why) := by
  unfold isFailureOf at h
  split at h
  · exact ⟨_, _, _, rfl⟩
  · cases h

theorem isOf_cases (h : entry.isOf suspects = true) : ∃ observer, suspects observer = true ∧
    ((∃ event, entry = .delivered observer event) ∨
      (∃ line, entry = .wrote (.observer observer) line) ∨
      ∃ event why, entry = .noted (.observerFailed observer event why)) := by
  unfold isOf at h
  split at h
  · exact ⟨_, h, .inl ⟨_, rfl⟩⟩
  · exact ⟨_, h, .inr (.inl ⟨_, rfl⟩)⟩
  · exact ⟨_, h, .inr (.inr ⟨_, _, rfl⟩)⟩
  · cases h

/-- What does not depend on the failures can be told without them. -/
theorem bind_forgiven {f : Entry α → Option β}
    (hf : ∀ observer event why, suspects observer = true →
      f (.noted (.observerFailed observer event why)) = none) :
    (entry.forgiven suspects).bind f = f entry := by
  unfold forgiven
  split
  · rename_i h
    obtain ⟨observer, event, why, rfl⟩ := isFailureOf_cases h
    exact (hf observer event why h).symm
  · rfl

/-- What depends neither on the observers' own steps nor on who is listed can be told without
them. -/
theorem bind_without {f : Entry α → Option β}
    (hannounced : ∀ event l l', f (.announced event l) = f (.announced event l'))
    (hf : ∀ entry, entry.isOf suspects = true → f entry = none) :
    (entry.without suspects).bind f = f entry := by
  unfold without
  split
  · exact hannounced ..
  · split
    · rename_i h
      exact (hf _ h).symm
    · rfl

end Entry

namespace World

/-- The log without the lines of some steps. -/
def logWithout [Labelled α] (hidden : Entry α → Bool) (w : World σ α) : List LogLine :=
  w.history.filterMap fun entry => if hidden entry then none else entry.logLine?

end World

namespace Comparison

/-- All is seen but that the given observers fail. -/
def forgiving (suspects : ObserverName → Bool) (alike : σ → τ → Prop) : Comparison σ τ α where
  alike
  minds _ := true
  excuses := suspects
  view := Entry.forgiven suspects
  calls _ := Entry.bind_forgiven fun _ _ _ _ => rfl
  events _ := Entry.bind_forgiven fun _ _ _ _ => rfl
  replies _ := Entry.bind_forgiven fun _ _ _ _ => rfl
  announced _ _ _ h := by rw [eq_of_filter_true h]
  delivered _ h := by cases h
  wrote _ h := by cases h
  failed kind why h := by
    rcases h with h | h
    · cases h
    · exact if_pos h

/-- All is seen but what the given observers receive and do. -/
def ignoring (suspects : ObserverName → Bool) (alike : σ → τ → Prop) : Comparison σ τ α where
  alike
  minds observer := !suspects observer
  excuses _ := false
  view := Entry.without suspects
  calls _ := Entry.bind_without (fun _ _ _ => rfl) fun _ h => by
    obtain ⟨_, -, ⟨_, rfl⟩ | ⟨_, rfl⟩ | ⟨_, _, rfl⟩⟩ := Entry.isOf_cases h <;> rfl
  events _ := Entry.bind_without (fun _ _ _ => rfl) fun _ h => by
    obtain ⟨_, -, ⟨_, rfl⟩ | ⟨_, rfl⟩ | ⟨_, _, rfl⟩⟩ := Entry.isOf_cases h <;> rfl
  replies _ := Entry.bind_without (fun _ _ _ => rfl) fun _ h => by
    obtain ⟨_, -, ⟨_, rfl⟩ | ⟨_, rfl⟩ | ⟨_, _, rfl⟩⟩ := Entry.isOf_cases h <;> rfl
  announced event l l' h := congrArg (fun l => some (Entry.announced event l)) h
  delivered _ h := if_pos ((Bool.not_eq_false' _).mp h)
  wrote _ h := if_pos ((Bool.not_eq_false' _).mp h)
  failed _ _ h := if_pos ((Bool.not_eq_false' _).mp (h.resolve_right Bool.false_ne_true))

end Comparison

namespace Engine

variable (suspects : ObserverName → Bool) (setup : Setup σ α) (capacity : Nat) (host : σ)
  (handles : Nat) (observers : List ObserverName) (moves : List (Move σ α))

/-- The same has been done, every observer has received the same, and the records and the logs are the
same but for the warnings about the given observers. -/
structure SameButFailures [Labelled α] (setup : Setup σ α) (setup' : Setup τ α) (e : Engine σ α)
    (d : Engine τ α) : Prop extends SameConduct setup setup' e d where
  steps : e.world.history.filterMap (Entry.forgiven suspects) =
    d.world.history.filterMap (Entry.forgiven suspects)
  received : ∀ observer, e.world.received observer = d.world.received observer
  log : e.world.logWithout (Entry.isFailureOf suspects) =
    d.world.logWithout (Entry.isFailureOf suspects)

/-- The same has been done, all but the given observers have received the same, and the records and
the logs are the same but for what the given observers have received and logged. -/
structure SameButFor [Labelled α] (setup : Setup σ α) (setup' : Setup τ α) (e : Engine σ α)
    (d : Engine τ α) : Prop extends SameConduct setup setup' e d where
  steps : e.world.history.filterMap (Entry.without suspects) =
    d.world.history.filterMap (Entry.without suspects)
  received : ∀ observer, suspects observer = false →
    e.world.received observer = d.world.received observer
  log : e.world.logWithout (Entry.isOf suspects) = d.world.logWithout (Entry.isOf suspects)

/-- Observers that fail do not influence the run. How they fail shows in nothing but the warnings
about it, of which there is exactly one for each hook that fails. Observers that have no effect of
their own may as well not be registered. -/
theorem failures_without_influence [Labelled α] :
    (∀ {τ : Type} {alike : σ → τ → Prop} {setup' : Setup τ α} {host' : τ}
      {moves' : List (Move τ α)},
      (Comparison.forgiving suspects alike).Relates setup setup' → alike host host' →
      List.Forall₂ (Comparison.forgiving suspects alike).MovesAlike moves moves' →
        SameButFailures suspects setup setup'
          (played setup capacity host handles observers moves)
          (played setup' capacity host' handles observers moves')) ∧
    ((played setup capacity host handles observers moves).world.history =
        (audited setup capacity host handles observers moves).world.history ∧
      (played setup capacity host handles observers moves).world.failures =
        (audited setup capacity host handles observers moves).world.host.2.map Mishap.notice) ∧
    ∀ {τ : Type} {alike : σ → τ → Prop} {setup' : Setup τ α} {host' : τ}
      {observers' : List ObserverName} {moves' : List (Move τ α)},
      (Comparison.ignoring suspects alike).Relates setup setup' → alike host host' →
      observers.filter (!suspects ·) = observers'.filter (!suspects ·) →
      List.Forall₂ (Comparison.ignoring suspects alike).MovesAlike moves moves' →
        SameButFor suspects setup setup' (played setup capacity host handles observers moves)
          (played setup' capacity host' handles observers' moves') := by
  refine ⟨?_, ?_, ?_⟩
  · intro τ alike setup' host' moves' hs hhost hmoves
    have hconcur := hs.concur hmoves hhost capacity handles (Eq.refl (observers.filter _))
    refine ⟨hconcur.toSameConduct, hconcur.world.seen, fun observer => ?_, ?_⟩
    · exact hconcur.world.filterMap fun _ => Entry.bind_forgiven fun _ _ _ _ => rfl
    · exact hconcur.world.filterMap fun _ => Entry.bind_forgiven fun _ _ _ ho => if_pos ho
  · have haudits := (played_audits setup capacity host handles observers moves).world
    refine ⟨haudits.same.history, ?_⟩
    rw [World.failures, haudits.same.history]
    exact haudits.booked
  · intro τ alike setup' host' observers' moves' hs hhost hobservers hmoves
    have hconcur := hs.concur hmoves hhost capacity handles hobservers
    refine ⟨hconcur.toSameConduct, hconcur.world.seen, fun observer ho => ?_, ?_⟩
    · refine hconcur.world.filterMap fun _ => Entry.bind_without (fun _ _ _ => rfl)
        fun entry hentry => ?_
      obtain ⟨other, hother, ⟨event, rfl⟩ | ⟨_, rfl⟩ | ⟨_, _, rfl⟩⟩ := Entry.isOf_cases hentry
      · refine if_neg fun h => ?_
        rw [h, ho] at hother
        cases hother
      · rfl
      · rfl
    · exact hconcur.world.filterMap fun _ => Entry.bind_without (fun _ _ _ => rfl)
        fun _ hentry => if_pos hentry

end Engine

instance : Labelled Nat where
  kind _ := "number"
  text := toString

/-- `relay` with an observer that fails on some kinds of events. -/
def flaky (fails : EventKind → Bool) : Setup Unit Nat :=
  { relay with
    observe := fun observer event _ =>
      ⟨(), [], if observer = ⟨"flaky"⟩ ∧ fails event.kind then some (.reported "jam" []) else none⟩ }

def relayMoves : List (Move Unit Nat) :=
  [.outside fun _ => ⟨(), [.send (.dispatch 7), .send (.dispatch 8), .send (.status 1)], ()⟩,
    .turn, .turn, .turn, .turn, .outside fun _ => ⟨(), [.resolve 2 .ack], ()⟩, .turn]

/-- No store takes notice of the observer. -/
theorem flaky_relates {c : Comparison Unit Unit Nat} (hc : ∀ {h h'}, c.alike h h' ↔ h = h')
    (hflaky : c.minds ⟨"flaky"⟩ = true → c.excuses ⟨"flaky"⟩ = true)
    (fails fails' : EventKind → Bool) : c.Relates (flaky fails) (flaky fails') where
  stores := List.forall₂_same.mpr fun entry _ => ⟨rfl, .itself hc entry.2⟩
  heard _ _ _ _ _ := ⟨hc.mpr rfl, rfl⟩
  answer {observer} event h h' hminds hexcuses _ := by
    have hother : observer ≠ ⟨"flaky"⟩ := by
      rintro rfl
      rw [hflaky hminds] at hexcuses
      cases hexcuses
    simp [flaky, hother]
  unheard _ _ _ _ _ := ⟨hc.mpr rfl, fun _ h => by cases h⟩
  unheard' _ _ _ _ _ := ⟨hc.mpr rfl, fun _ h => by cases h⟩

namespace Engine

theorem flakyRun_without_influence :
    let suspects : ObserverName → Bool := (· = ⟨"flaky"⟩)
    let once := flaky (· = .lock)
    let always := flaky fun _ => true
    let run := played once 1 () 1 [⟨"flaky"⟩, ⟨"keen"⟩] relayMoves
    let badly := played always 1 () 1 [⟨"flaky"⟩, ⟨"keen"⟩] relayMoves
    let ledger := (audited once 1 () 1 [⟨"flaky"⟩, ⟨"keen"⟩] relayMoves).world.host.2
    let alone := played always 1 () 1 [⟨"keen"⟩] relayMoves
    run.world.failures.length = 2 ∧ badly.world.failures.length = 12 ∧
      alone.world.failures = [] ∧ run.status = ⟨true, 0, 1, 0, 0⟩ ∧
      SameButFailures suspects once always run badly ∧
      run.world.failures = ledger.map Mishap.notice ∧
      SameButFor suspects once always run alone := by
  have hall := failures_without_influence (fun o => o = ⟨"flaky"⟩) (flaky (· = .lock)) 1 () 1
    [⟨"flaky"⟩, ⟨"keen"⟩] relayMoves
  refine ⟨by cbv, by cbv, by cbv, by cbv, ?_, hall.2.1.2, ?_⟩
  · exact hall.1 (flaky_relates .rfl (fun _ => rfl) _ _) rfl
      (Comparison.MovesAlike.themselves .rfl _)
  · exact hall.2.2 (flaky_relates .rfl (fun h => by cases h) _ _) rfl rfl
      (Comparison.MovesAlike.themselves .rfl _)

end Engine

end Concord
