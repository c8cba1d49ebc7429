import Concord.Proofs.Engine.Soundness
import Mathlib.Logic.Relation

/-!
# The acts of an engine

A turn of the loop may undertake one action after the other. `Act` is a single one of these steps,
with the course that it begins or goes on with; a turn is a sequence of acts. What every act
preserves therefore holds of every run.
-/
namespace Concord.Engine

variable {σ α : Type} (setup : Setup σ α)

/-- A running engine reads its inbox, in which the message comes first. -/
structure Hears (e : Engine σ α) (message : Message α) (inbox : List (Message α)) : Prop where
  life : e.life = .running
  listening : e.listening = true
  inbox : e.world.inbox = message :: inbox

inductive Act (e : Engine σ α) : Engine σ α → Prop where
  | started (hlife : e.life = .fresh) :
      Act e { e.note (.started setup.stores.size e.backlog.capacity) with life := .running }
  | begun {action : α} {inbox : List (Message α)} {c : Course α}
      (hh : e.Hears (.dispatch action) inbox) (hidle : e.isBusy = false)
      (hempty : e.backlog.items = []) (hc : c.action = action)
      (hu : Undertaken setup c (e.hearing setup action inbox)
        ((e.hearing setup action inbox).undertake setup action)) :
      Act e ((e.hearing setup action inbox).undertake setup action)
  | queued {action : α} {inbox : List (Message α)} {backlog : Backlog α}
      (hh : e.Hears (.dispatch action) inbox) (hbusy : e.isBusy = true)
      (hput : e.backlog.put action = .ok backlog) :
      Act e { e.hearing setup action inbox with backlog }
  | dropped {action : α} {inbox : List (Message α)}
      (hh : e.Hears (.dispatch action) inbox) (hbusy : e.isBusy = true)
      (hfull : e.backlog.length = e.backlog.capacity) :
      Act e ((((e.hearing setup action inbox).note
        (.backlogFull action e.backlog.capacity)).countDropped).announce setup (.drop action))
  | replied {inquiry : Inquiry} {inbox : List (Message α)} (hh : e.Hears (.status inquiry) inbox) :
      Act e ((e.taking (.status inquiry) inbox).obey setup (.status inquiry))
  | shut {inbox : List (Message α)} (hh : e.Hears .shutdown inbox) :
      Act e ((e.taking .shutdown inbox).obey setup .shutdown)
  | deafened (hlife : e.life = .running) (hl : e.listening = true) (hi : e.world.inbox = [])
      (hh : e.world.handles = 0) : Act e { e with listening := false }
  | continued (hlife : e.life = .running)
      (hl : e.listening = true → e.world.inbox = [] ∧ e.world.handles ≠ 0) {c c' : Course α}
      (hf : c.Follows setup) (hp : e.phase = c.phase setup) {store : StoreName} {outcome : Outcome}
      (hw : c.atWork = some (store, e.world.channel.ticket))
      (ho : e.world.channel.outcome = some outcome)
      (hc : Continued setup c c' e
        (e.carryOn setup (.after c.action (c.order setup) c.turns) store outcome)) :
      Act e (e.carryOn setup (.after c.action (c.order setup) c.turns) store outcome)
  | resumed (hlife : e.life = .running) (hidle : e.isBusy = false) {action : α}
      {backlog : Backlog α} (ho : e.backlog.oldest? = some (action, backlog)) {c : Course α}
      (hc : c.action = action)
      (hu : Undertaken setup c { e with backlog } ({ e with backlog }.undertake setup action)) :
      Act e ({ e with backlog }.undertake setup action)
  | stopped (hlife : e.life = .running) (hp : e.phase = .idle) (hl : e.listening = false) :
      Act e e.stop

/-- One act after the other. -/
abbrev Acts : Engine σ α → Engine σ α → Prop := Relation.ReflTransGen (Act setup)

variable {setup} {e e' : Engine σ α}

/-- The waiting actions are taken up one by one. -/
theorem undertakeUpTo_acts (n : Nat) (e : Engine σ α) (hr : e.world.ChannelOnRecord)
    (hlife : e.life = .running) : Acts setup e (e.undertakeUpTo setup n) := by
  induction n generalizing e with
  | zero => exact .refl
  | succ n ih =>
    unfold undertakeUpTo
    split
    · exact .refl
    rename_i hbusy
    cases ho : e.backlog.oldest? with
    | none => exact .refl
    | some next =>
      obtain ⟨action, backlog⟩ := next
      obtain ⟨c, hc, hu⟩ := undertake_undertaken setup action { e with backlog } hr
      have honward := (undertake_onward setup action { e with backlog } hr).1
      exact .head (.resumed hlife (Bool.eq_false_iff.mpr hbusy) ho hc hu)
        (ih _ (honward.onRecord hr) (honward.life.trans hlife))

theorem undertakeWaiting_acts (e : Engine σ α) (hr : e.world.ChannelOnRecord)
    (hlife : e.life = .running) : Acts setup e (e.undertakeWaiting setup) :=
  undertakeUpTo_acts e.backlog.length e hr hlife

namespace Sound

variable {capacity : Nat}

theorem accept_acts (h : Sound setup capacity e) {action : α} {inbox : List (Message α)}
    (hh : e.Hears (.dispatch action) inbox) :
    ∃ d, Act setup e d ∧
      Acts setup d ((e.taking (.dispatch action) inbox).accept setup action) := by
  have hheard := (hearing_adds setup action inbox e).onRecord h.onRecord
  rcases accept_cases setup action (e.taking (.dispatch action) inbox) with
    ⟨hidle, haccept⟩ | ⟨hbusy, backlog, hput, haccept⟩ | ⟨hbusy, hfull, haccept⟩
  · rw [haccept]
    change ∃ d, Act setup e d ∧ Acts setup d
      (((e.hearing setup action inbox).undertake setup action).undertakeWaiting setup)
    obtain ⟨c, hc, hu⟩ := undertake_undertaken setup action (e.hearing setup action inbox) hheard
    have honward := (undertake_onward setup action (e.hearing setup action inbox) hheard).1
    exact ⟨_, .begun hh hidle (h.rested hidle) hc hu,
      undertakeWaiting_acts _ (honward.onRecord hheard) (honward.life.trans hh.life)⟩
  · rw [haccept]
    exact ⟨_, .queued hh hbusy hput, .refl⟩
  · rw [haccept]
    exact ⟨_, .dropped hh hbusy hfull, .refl⟩

/-- To go past the store that the engine waited for is one act. -/
theorem carryOn_act (h : Sound setup capacity e) (hlife : e.life = .running) {walk : Walk α}
    {store : StoreName} {ticket : Ticket} (hp : e.phase = .waiting walk store ticket)
    (hl : e.listening = true → e.world.inbox = [] ∧ e.world.handles ≠ 0) {outcome : Outcome}
    (ho : e.world.channel.outcome = some outcome) :
    Act setup e (e.carryOn setup walk store outcome) := by
  obtain ⟨intakes, ended, underway, hchronicle⟩ := h.chronicled
  obtain ⟨c, c', -, hf, hphase, hw, rfl, hc⟩ := hchronicle.continued hp ho
  exact .continued hlife hl hf hphase hw ho hc

/-- A turn is at least one act. -/
theorem first_act (h : Sound setup capacity e) (ht : Turned setup e e') :
    ∃ d, Act setup e d ∧ Acts setup d e' := by
  cases ht with
  | started hlife => exact ⟨_, .started hlife, .refl⟩
  | @read hlife hl message inbox hi =>
    have hh : e.Hears message inbox := ⟨hlife, hl, hi⟩
    cases message with
    | dispatch action => exact h.accept_acts hh
    | status inquiry => exact ⟨_, .replied hh, .refl⟩
    | shutdown => exact ⟨_, .shut hh, .refl⟩
  | deafened hlife hl hi hh => exact ⟨_, .deafened hlife hl hi hh, .refl⟩
  | @proceeded hlife walk store ticket hp hl outcome ho =>
    obtain ⟨intakes, hchronicled⟩ := h.chronicled
    obtain ⟨-, honward, -⟩ := hchronicled.carryOn hp ho
    exact ⟨_, h.carryOn_act hlife hp hl ho,
      undertakeWaiting_acts _ (honward.onRecord h.onRecord) (honward.life.trans hlife)⟩
  | stopped hlife hp hl => exact ⟨_, .stopped hlife hp hl, .refl⟩

/-- A turn is a sequence of acts. -/
theorem acts (h : Sound setup capacity e) (ht : Turned setup e e') : Acts setup e e' := by
  obtain ⟨d, hact, hacts⟩ := h.first_act ht
  exact .head hact hacts

end Sound

/-- An act only adds to the past. -/
theorem Act.adds (h : Act setup e e') : ∃ ms, e.world.Adds ms e'.world := by
  cases h with
  | started hlife => exact ⟨_, (World.Grows.note e.world (.started ..) rfl).toAdds⟩
  | @begun action inbox c hh hidle hempty hc hu =>
    exact ⟨_, (hearing_adds setup action inbox e).trans hu.world.toAdds⟩
  | @queued action inbox backlog hh hbusy hput => exact ⟨_, hearing_adds setup action inbox e⟩
  | @dropped action inbox hh hbusy hfull =>
    exact ⟨_, (hearing_adds setup action inbox e).trans (dropping_grows setup action _ _).toAdds⟩
  | @replied inquiry inbox hh => exact ⟨_, replying_adds setup inquiry inbox e⟩
  | @shut inbox hh => exact ⟨_, shutting_adds setup inbox e⟩
  | deafened hlife hl hi hh => exact ⟨[], .same rfl rfl⟩
  | continued hlife hl hf hp hw ho hc =>
    obtain ⟨ms, -, hgrows⟩ := hc.world
    exact ⟨ms, hgrows.toAdds⟩
  | resumed hlife hidle ho hc hu => exact ⟨_, hu.world.toAdds⟩
  | stopped hlife hp hl => exact ⟨_, stop_adds e⟩

theorem Acts.preserves {J : Engine σ α → Prop} (hact : ∀ {e e'}, Act setup e e' → J e → J e')
    (h : Acts setup e e') (hj : J e) : J e' := by
  induction h with
  | refl => exact hj
  | tail _ ha ih => exact hact ha ih

theorem Acts.onRecord (h : Acts setup e e') (hr : e.world.ChannelOnRecord) :
    e'.world.ChannelOnRecord := by
  refine h.preserves (J := fun e => e.world.ChannelOnRecord) (fun ha hr => ?_) hr
  obtain ⟨ms, hadds⟩ := ha.adds
  exact hadds.onRecord hr

/-- What holds at the start and is preserved by every act and by everything that the outside does
holds in every run. -/
theorem Reachable.preserves {capacity : Nat} {J : Engine σ α → Prop}
    (hinitial : ∀ host handles observers,
      J (.initial capacity (.initial host handles observers)))
    (hact : ∀ {e e'}, Act setup e e' → J e → J e')
    (houtside : ∀ {e} (reaction : Reaction σ α Unit), J e → J (e.interact reaction))
    (hkill : ∀ {e}, J e → J e.kill) (h : Reachable setup capacity e) : J e := by
  induction h with
  | initial host handles observers => exact hinitial host handles observers
  | step h hs ih =>
    cases hs with
    | turn ht => exact (h.sound.acts (turn_turned ht)).preserves hact ih
    | outside reaction => exact houtside reaction ih
    | kill => exact hkill ih

end Concord.Engine
