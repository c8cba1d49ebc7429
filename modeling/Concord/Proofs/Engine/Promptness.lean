import Concord.Proofs.Engine.Conservation
import Concord.Proofs.Engine.Preservation

/-!
# Stores that answer at once

If every store answers on its channel, or lets go of it, before its call returns, then an engine
never waits. Each action is over when the engine looks at its inbox again, so that none is ever put
into the backlog or dropped, whatever the capacity.
-/
namespace Concord

variable {σ α : Type}

/-- The store settles each channel within the call that gives it the channel. -/
def Store.Prompt (store : Store σ α) : Prop :=
  ∀ action ticket host, ∃ outcome,
    .resolve ticket outcome ∈ (store.complete action ticket host).requests

def Setup.Prompt (setup : Setup σ α) : Prop := ∀ entry ∈ setup.stores.entries, entry.2.Prompt

namespace World

/-- A channel that is answered on among the requests is settled when they have been carried out. -/
theorem performs_settle (speaker : Speaker) (requests : List (Request α)) (w : World σ α)
    (h : w.channel.outcome ≠ none ∨
      ∃ outcome, .resolve w.channel.ticket outcome ∈ requests) :
    (requests.foldl (perform speaker) w).channel.outcome ≠ none := by
  induction requests generalizing w with
  | nil => exact h.resolve_right fun ⟨_, hmem⟩ => List.not_mem_nil hmem
  | cons request rest ih =>
    apply ih
    by_cases hsettled : (w.perform speaker request).channel.outcome = none
    · have hsame := (perform_frame speaker w request).2.resolve_right (· hsettled)
      have hopen : w.channel.outcome = none := hsame ▸ hsettled
      obtain ⟨outcome, hmem⟩ := h.resolve_left (· hopen)
      rcases List.mem_cons.mp hmem with rfl | hmem
      · -- The first request is the answer, so the channel is not open any more.
        change (w.resolve w.channel.ticket outcome).channel.outcome = none at hsettled
        rw [resolve, if_pos ⟨rfl, hopen⟩] at hsettled
        cases hsettled
      · exact .inr ⟨outcome, by rw [hsame]; exact hmem⟩
    · exact .inl hsettled

theorem assign_settled {callbacks : Store σ α} (hc : callbacks.Prompt) (store : StoreName)
    (action : α) (w : World σ α) : (w.assign store callbacks action).channel.outcome ≠ none :=
  performs_settle _ _ _ (.inr (hc action (w.channel.ticket + 1) w.host))

end World

namespace Engine

variable {setup : Setup σ α} {capacity : Nat} {e e' : Engine σ α}

theorem visit_idle (hs : setup.Prompt) (names : List StoreName) (walk : Walk α)
    (e : Engine σ α) : (visit setup names walk e).phase = .idle := by
  induction names generalizing walk e with
  | nil => rfl
  | cons name rest ih =>
    unfold visit
    cases hf : setup.stores.find? name with
    | none => exact ih _ _
    | some callbacks =>
      have hsettled := World.assign_settled (hs _ (Roster.mem_of_find? hf)) name walk.action
        (e.world.announce setup (.execute name walk.action))
      dsimp only
      split
      · exact absurd ‹_› hsettled
      · exact ih _ _

/-- No action is left waiting for a store. -/
theorem undertake_idle (hs : setup.Prompt) (action : α) (e : Engine σ α) :
    (e.undertake setup action).phase = .idle := by
  unfold undertake
  split
  split
  · rfl
  · exact visit_idle hs _ _ _
  · rfl

theorem Undertaken.ended (hs : setup.Prompt) {action : α} {c : Course α}
    (hu : Undertaken setup c e (e.undertake setup action)) : c.atWork = none := by
  have hphase : (e.undertake setup action).phase = c.phase setup := by rw [hu.result]
  rw [undertake_idle hs, Course.phase] at hphase
  cases hw : c.atWork with
  | none => rfl
  | some work =>
    rw [hw] at hphase
    cases hphase

end Engine

/-- Nothing is at work, nothing waits, and nothing has been dropped. -/
structure Status.AtRest (status : Status) : Prop where
  locked : status.locked = false
  queued : status.queued = 0
  dropped : status.dropped = 0

/-- Whether the step is one of an engine that takes actions as they come. -/
def Milestone.Smooth : Milestone α → Prop
  | announced (.drop _) | noted (.backlogFull ..) => False
  | answered _ status => status.AtRest
  | _ => True

theorem Milestone.smooth_of_inCourse {m : Milestone α} (h : m.inCourse = true) : m.Smooth := by
  cases m with
  | took | answered => cases h
  | called | voted => trivial
  | announced event => cases event <;> trivial
  | noted notice => cases notice <;> trivial

/-- Each action that is taken from the inbox is announced and followed to its end before anything
else happens. -/
structure Smooth (setup : Setup σ α) (ms : List (Milestone α)) : Prop where
  steps : ∀ m ∈ ms, m.Smooth
  whole : ∀ before action after, ms = before ++ .took (.dispatch action) :: after →
    ∃ c : Course α, c.Follows setup ∧ c.action = action ∧ c.atWork = none ∧
      .announced (.dispatch action) :: c.milestones setup <+: after

namespace Smooth

variable {setup : Setup σ α} {ms more : List (Milestone α)}

theorem append (h : Smooth setup ms) (hmore : Smooth setup more) : Smooth setup (ms ++ more) where
  steps := List.forall_mem_append.mpr ⟨h.steps, hmore.steps⟩
  whole before action after hsplit := by
    rcases List.append_eq_append_iff.mp hsplit with ⟨rest, rfl, hrest⟩ | ⟨rest, hrest, hlater⟩
    · exact hmore.whole rest action after hrest
    · cases rest with
      | nil => exact hmore.whole [] action after hlater.symm
      | cons m rest =>
        obtain ⟨rfl, rfl⟩ := List.cons.inj hlater
        obtain ⟨c, hf, ha, hw, hprefix⟩ := h.whole before action rest hrest
        exact ⟨c, hf, ha, hw, hprefix.trans (List.prefix_append _ _)⟩

/-- Steps among which no action is taken. -/
theorem aside (h : ∀ m ∈ ms, m.Smooth) (htook : ∀ action, .took (.dispatch action) ∉ ms) :
    Smooth setup ms where
  steps := h
  whole before action after hsplit := absurd (hsplit ▸ by simp) (htook action)

theorem nil : Smooth setup ([] : List (Milestone α)) := .aside (by simp) (by simp)

/-- An action is taken and followed to its end. -/
theorem course {c : Course α} (hf : c.Follows setup) (hw : c.atWork = none) :
    Smooth setup
      ([.took (.dispatch c.action), .announced (.dispatch c.action)] ++ c.milestones setup) := by
  have hlater : ∀ action, .took (.dispatch action) ∉
      .announced (.dispatch c.action) :: c.milestones setup := by
    intro action hmem
    cases hmem with
    | tail _ hmem => cases hf.inCourse _ hmem
  refine ⟨?_, fun before action after hsplit => ?_⟩
  · intro m hm
    rcases List.mem_append.mp hm with hm | hm
    · rcases List.mem_pair.mp hm with rfl | rfl <;> trivial
    · exact Milestone.smooth_of_inCourse (hf.inCourse m hm)
  · cases before with
    | nil =>
      obtain ⟨htook, rfl⟩ := List.cons.inj hsplit
      cases htook
      exact ⟨c, hf, rfl, hw, List.prefix_rfl⟩
    | cons m before =>
      have hrest : .announced (.dispatch c.action) :: c.milestones setup =
          before ++ .took (.dispatch action) :: after := (List.cons.inj hsplit).2
      exact absurd (hrest ▸ by simp) (hlater action)

end Smooth

namespace Engine

variable {setup : Setup σ α} {capacity : Nat} {e e' : Engine σ α}

/-- How an engine is at the head of its loop when all stores are prompt. -/
structure Free (setup : Setup σ α) (e : Engine σ α) : Prop where
  idle : e.phase = .idle
  empty : e.backlog.items = []
  dropped : e.tally.dropped = 0
  smooth : Smooth setup e.world.milestones

namespace Free

theorem isBusy (h : e.Free setup) : e.isBusy = false := by
  rw [Engine.isBusy, h.idle]

theorem atRest (h : e.Free setup) : e.status.AtRest where
  locked := h.isBusy
  queued := by
    change e.backlog.items.length = 0
    rw [h.empty]
    rfl
  dropped := h.dropped

/-- Steps in which no action is taken. -/
theorem still (h : e.Free setup) {ms : List (Milestone α)} (hw : e.world.Adds ms e'.world)
    (hms : ∀ m ∈ ms, m.Smooth) (htook : ∀ action, .took (.dispatch action) ∉ ms)
    (hp : e'.phase = e.phase) (hb : e'.backlog = e.backlog) (ht : e'.tally = e.tally) :
    e'.Free setup where
  idle := hp.trans h.idle
  empty := (congrArg Backlog.items hb).trans h.empty
  dropped := (congrArg Tally.dropped ht).trans h.dropped
  smooth := by
    rw [hw.milestones]
    exact h.smooth.append (.aside hms htook)

theorem act (hs : setup.Prompt) (ha : Act setup e e') (h : e.Free setup) : e'.Free setup := by
  cases ha with
  | started hlife =>
    exact h.still (World.Grows.note e.world (.started ..) rfl).toAdds
      (by simp [Milestone.Smooth]) (by simp) rfl rfl rfl
  | @begun action inbox c hh hidle hempty hc hu =>
    subst hc
    have hadds := (hearing_adds setup c.action inbox e).trans hu.world.toAdds
    have hended := hu.ended hs
    refine ⟨undertake_idle hs _ _, ?_, ?_, ?_⟩
    · rw [hu.result]
      exact h.empty
    · rw [hu.result]
      exact (Course.count_dropped ..).trans h.dropped
    · rw [hadds.milestones]
      exact h.smooth.append (.course hu.follows hended)
  | queued hh hbusy hput =>
    rw [h.isBusy] at hbusy
    cases hbusy
  | dropped hh hbusy hfull =>
    rw [h.isBusy] at hbusy
    cases hbusy
  | replied hh =>
    refine h.still (replying_adds setup _ _ e) ?_ (by simp) rfl rfl rfl
    simpa [Milestone.Smooth] using h.atRest
  | shut hh =>
    exact h.still (shutting_adds setup _ e) (by simp [Milestone.Smooth]) (by simp) rfl rfl rfl
  | deafened hlife hl hi hh => exact ⟨h.idle, h.empty, h.dropped, h.smooth⟩
  | continued hlife hl hf hp hw ho hc =>
    rw [h.idle, Course.phase, hw] at hp
    cases hp
  | resumed hlife hidle ho hc hu =>
    rw [(Backlog.oldest?_eq_none_iff).mpr h.empty] at ho
    cases ho
  | stopped hlife hp hl =>
    exact h.still (stop_adds e) (by simp [Milestone.Smooth]) (by simp) rfl rfl rfl

end Free

theorem Reachable.free (hs : setup.Prompt) (h : Reachable setup capacity e) : e.Free setup := by
  refine h.preserves (fun _ _ _ => ⟨rfl, rfl, rfl, .nil⟩) (fun ha hf => hf.act hs ha)
    (fun {e} reaction hf => ?_) fun {e} hf => ?_
  · exact hf.still (World.absorb_grows .outside reaction e.world).toAdds (by simp) (by simp)
      rfl rfl rfl
  · obtain ⟨hp, hb, ht, -⟩ := kill_same e
    exact hf.still (kill_adds e) (by simp) (by simp) hp hb ht

/-- With prompt stores an engine is never found at work and nothing ever waits or is dropped,
whatever the capacity. Every action that has been taken is over, and was over before anything else
was taken. -/
theorem prompt_stores_never_wait (hs : setup.Prompt) (h : Reachable setup capacity e) :
    e.isBusy = false ∧ e.backlog.items = [] ∧ e.status.AtRest ∧
      e.world.takenActions.length = e.status.processed + e.status.aborted ∧
      Smooth setup e.world.milestones := by
  have hfree := h.free hs
  have hrest := hfree.atRest
  refine ⟨hfree.isBusy, hfree.empty, hrest, ?_, hfree.smooth⟩
  have htotal := h.sound.balances.total
  rw [hrest.dropped, hrest.queued, hrest.locked] at htotal
  exact htotal

end Engine

/-- A store that counts down: it hands over the next action before it answers, and asks for a store
that is not there in the end. -/
def countdown : Setup Unit Nat where
  stores :=
    { entries :=
        [(⟨"a"⟩,
          { vote := fun action _ => ⟨(), [], .after (if action = 0 then [⟨"b"⟩] else [])⟩
            complete := fun action ticket _ =>
              ⟨(), [.send (.dispatch (action - 1)), .resolve ticket .abandoned], ()⟩
            signal := fun _ _ => ⟨(), [], ()⟩ })]
      ascending := by decide }
  observe := fun _ _ _ => ⟨(), [], none⟩

def countdownRun : Engine Unit Nat :=
  ((Engine.initial 0 (.initial () 1 [])).interact
    ⟨(), [.send (.dispatch 2), .send (.dispatch 1), .send (.status 1)], ()⟩).takeTurns countdown 7

namespace Engine

theorem countdownRun_never_waits :
    countdown.Prompt ∧ Reachable countdown 0 countdownRun ∧
      countdownRun.world.takenActions = [2, 1, 1, 0, 0] ∧
      countdownRun.status = ⟨false, 0, 3, 0, 2⟩ ∧ countdownRun.status.AtRest ∧
      Smooth countdown countdownRun.world.milestones := by
  have hs : countdown.Prompt := by
    intro entry hentry action ticket host
    obtain rfl := List.mem_singleton.mp hentry
    exact ⟨.abandoned, by simp⟩
  have hreachable : Reachable countdown 0 countdownRun :=
    .takeTurns (.step (.initial () 1 []) (.outside _ _)) 7
  obtain ⟨-, -, hrest, -, hsmooth⟩ := prompt_stores_never_wait hs hreachable
  exact ⟨hs, hreachable, by cbv, by cbv, hrest, hsmooth⟩

end Engine

end Concord
