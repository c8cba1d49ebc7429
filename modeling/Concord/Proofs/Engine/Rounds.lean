import Concord.Proofs.Engine.Walks

/-!
# The rounds of a walk

`Rounds` follows a walk through its loop to the engine that it leaves. It has no round in which a
store is not found: whenever an action is undertaken, and whenever an answer is taken in a run, the
loop goes by such rounds alone. `Advances` is what holds at the beginning of each of them. An answer,
in turn, is taken only while a store is waited for.
-/
namespace Concord

variable {σ α : Type}

/-- What ends a wait at the head of the loop. -/
inductive Stimulus (α : Type) where
  /-- What comes out of the inbox: nothing any more when it is empty and no handle is left. -/
  | inbound (message : Option (Message α))
  | answered (outcome : Outcome)

namespace Engine

def inbound? (e : Engine σ α) : Option (Stimulus α) :=
  match e.world.inbox with
  | message :: _ => some (.inbound (some message))
  | [] => if e.world.handles = 0 then some (.inbound none) else none

def answered? (e : Engine σ α) : Option (Stimulus α) := e.world.channel.outcome.map .answered

/-- What an engine deals with next. It attends to the inbox while it reads that, and to the channel
while a store is at work. -/
def stimulus? (e : Engine σ α) : Option (Stimulus α) :=
  match e.phase, e.listening with
  | .waiting .., true => e.inbound? <|> e.answered?
  | .waiting .., false => e.answered?
  | .idle, true => e.inbound?
  | .idle, false => none

variable (setup : Setup σ α)

/-- Takes an answer. When no store is at work, it is passed over. -/
def resume (outcome : Outcome) (e : Engine σ α) : Engine σ α :=
  match e.phase with
  | .waiting walk store _ => e.carryOn setup walk store outcome
  | .idle => e

def respond (e : Engine σ α) : Stimulus α → Engine σ α
  | .inbound (some message) => (e.taking message e.world.inbox.tail).obey setup message
  | .inbound none => { e with listening := false }
  | .answered outcome => (e.resume setup outcome).undertakeWaiting setup

/-- The engine as a walk goes past the store that it waited for. -/
def past (walk : Walk α) (store : StoreName) (outcome : Outcome) (e : Engine σ α) : Engine σ α :=
  { e with
    phase := .idle
    world := e.world.announceOutcome setup store walk.action outcome }

/-- What holds whenever the loop of a walk comes round, with these stores ahead. -/
structure Advances (stores : List StoreName) (walk : Walk α) (e : Engine σ α) : Prop
    extends walk.OnCourse setup e.world where
  ahead : stores = walk.ahead
  /-- Those that acknowledged are found when they are to hear of the end. -/
  heard : ∀ store ∈ walk.acked, ∃ callbacks, setup.stores.find? store = some callbacks
  /-- At the end, those that did not acknowledge are as many as the failures. -/
  failed : stores = [] → walk.acked.length ≤ walk.order.length ∧
    walk.order.length - walk.acked.length = e.world.setbacksAtHand.length

/-- A walk goes on, round by round, to the engine that it leaves. Every store is found when it is
its turn. -/
inductive Rounds : List StoreName → Walk α → Engine σ α → Engine σ α → Prop where
  | ended {walk : Walk α} {e : Engine σ α} (h : Advances setup [] walk e) :
      Rounds [] walk e (e.conclude setup walk)
  | kept {walk : Walk α} {store : StoreName} {rest : List StoreName} {e : Engine σ α}
      {callbacks : Store σ α} {world : World σ α} (h : Advances setup (store :: rest) walk e)
      (hf : setup.stores.find? store = some callbacks)
      (hw : world = (e.world.announce setup (.execute store walk.action)).assign store callbacks
        walk.action)
      (ho : world.channel.outcome = none) :
      Rounds (store :: rest) walk e
        { e with world, phase := .waiting walk store world.channel.ticket }
  | passed {walk : Walk α} {store : StoreName} {rest : List StoreName} {e e' : Engine σ α}
      {callbacks : Store σ α} {world : World σ α} {outcome : Outcome}
      (h : Advances setup (store :: rest) walk e)
      (hf : setup.stores.find? store = some callbacks)
      (hw : world = (e.world.announce setup (.execute store walk.action)).assign store callbacks
        walk.action)
      (ho : world.channel.outcome = some outcome)
      (hrest : Rounds rest (walk.pass store outcome)
        { e with world := world.announceOutcome setup store walk.action outcome } e') :
      Rounds (store :: rest) walk e e'

variable {setup} {capacity : Nat} {e d : Engine σ α} {walk : Walk α} {stores : List StoreName}

/-- A turn deals with what has come in; with nothing to wait for, the engine stops. -/
theorem turn?_eq_respond (hlife : e.life = .running) (h : e.listening = true ∨ e.isBusy = true) :
    e.turn? setup = e.stimulus?.map (e.respond setup) := by
  have hread : e.read? setup = e.inbound?.map (e.respond setup) := by
    unfold read? inbound?
    cases hi : e.world.inbox with
    | nil => by_cases hh : e.world.handles = 0 <;> simp [hh, respond]
    | cons message inbox => simp [respond, taking, hi]
  have hproceed : ∀ {walk store ticket}, e.phase = .waiting walk store ticket →
      e.proceed? setup walk store = e.answered?.map (e.respond setup) := by
    intro walk store ticket hp
    unfold proceed? answered?
    rw [Option.map_map]
    congr 1
    funext outcome
    simp [respond, resume, hp]
  unfold turn? stimulus?
  rw [hlife]
  dsimp only
  cases hp : e.phase with
  | idle =>
    cases hl : e.listening with
    | true => exact hread
    | false =>
      rw [hl, isBusy_eq_false_iff.mpr hp] at h
      simp at h
  | waiting walk store ticket =>
    cases e.listening with
    | true =>
      dsimp only
      rw [hread, hproceed hp]
      cases e.inbound? <;> rfl
    | false => exact hproceed hp

/-- Only an engine that waits for an answer takes one. -/
theorem waiting_of_answered {outcome : Outcome} (h : e.stimulus? = some (.answered outcome)) :
    ∃ walk store ticket, e.phase = .waiting walk store ticket := by
  have hinbound : e.inbound? ≠ some (.answered outcome) := by
    unfold inbound?
    split
    · simp
    · split <;> simp
  unfold stimulus? at h
  cases hp : e.phase with
  | waiting walk store ticket => exact ⟨walk, store, ticket, rfl⟩
  | idle =>
    rw [hp] at h
    cases hl : e.listening with
    | true =>
      rw [hl] at h
      exact absurd h hinbound
    | false =>
      rw [hl] at h
      cases h

theorem advances_of_onCourse (h : walk.OnCourse setup e.world) (hahead : stores = walk.ahead) :
    Advances setup stores walk e := by
  refine ⟨h, hahead, ?_, ?_⟩
  · intro store hs
    exact Roster.exists_find? (h.registered store (List.mem_of_mem_take (h.acked.subset hs)))
  · intro hnil
    have hend : walk.order.length ≤ walk.cursor := List.drop_eq_nil_iff.mp (hahead.symm.trans hnil)
    have hinside := h.inside
    have hsettled := h.settled
    omega

/-- The next store is registered, so it is found, and its turn keeps the walk on course. -/
theorem visit_rounds (h : walk.OnCourse setup e.world) (hahead : stores = walk.ahead) :
    Rounds setup stores walk e (visit setup stores walk e) := by
  have hadvances := advances_of_onCourse h hahead
  induction stores generalizing walk e with
  | nil => exact .ended hadvances
  | cons store rest ih =>
    obtain ⟨hs, hrest⟩ := Walk.ahead_cons hahead
    obtain ⟨callbacks, hfind⟩ :=
      Roster.exists_find? (h.registered store (List.mem_of_getElem? hs))
    have hinvoke := invoke_grows setup walk.action store callbacks e.world
    rw [visit, hfind]
    dsimp only
    generalize hw : (e.world.announce setup (.execute store walk.action)).assign store callbacks
      walk.action = world at hinvoke ⊢
    cases ho : world.channel.outcome with
    | none => exact .kept hadvances hfind hw.symm ho
    | some outcome =>
      have hsettle := World.announceOutcome_grows setup store walk.action outcome world
      have hpass : (walk.pass store outcome).OnCourse setup
          (world.announceOutcome setup store walk.action outcome) :=
        (h.asked hinvoke.toAdds).pass hs hsettle.toAdds
      exact .passed hadvances hfind hw.symm ho
        (ih hpass hrest (advances_of_onCourse hpass hrest))

/-- The ballots have been weighed in favour, and the walk starts. -/
theorem onCourse_start {action : α} {order : List StoreName}
    (hv : (e.announce setup .lock).weigh setup action = (.ok order, d)) :
    (Walk.start action order).OnCourse setup (d.note (.executing action order.length)).world := by
  obtain ⟨ballots, world, hweigh, hballots, hvotes⟩ :=
    weigh_grows setup action (e.announce setup .lock)
  rw [hv] at hweigh
  obtain ⟨hverdict, rfl⟩ := Prod.mk.inj hweigh
  obtain ⟨hschedule, hregistered⟩ :=
    Plan.verdict_ok hverdict.symm (registered_of_names hballots)
  refine .start (Precedence.schedule_ok hschedule).1 hregistered ?_
  let c : Course α := ⟨action, ballots, [], none⟩
  obtain ⟨inner, hopening, hserves⟩ := Course.opening_between setup c
  have hgrows : e.world.Grows (c.opening setup ++ [.noted (.executing action order.length)])
      (world.note (.executing action order.length)) :=
    ((World.announce_grows setup e.world .lock).trans hvotes).trans (.note world _ rfl)
  have hnone := Course.setbacks_opening setup c
  rw [hopening, List.cons_append] at hgrows
  rw [hopening, List.filterMap_cons_none rfl] at hnone
  have hserved : ∀ m ∈ inner ++ [.noted (.executing action order.length)], m.isLock = false := by
    refine List.forall_mem_append.mpr ⟨fun m hm => (hserves m hm).isLock, ?_⟩
    exact List.forall_mem_singleton.mpr rfl
  calc (world.note (.executing action order.length)).setbacksAtHand
      = (inner ++ [Milestone.noted (.executing action order.length)]).filterMap
          Milestone.setback? := hgrows.toAdds.setbacksAtHand_lock hserved
    _ = [] := by
        rw [List.filterMap_append, hnone]
        rfl

/-- To undertake an action that has a schedule is to walk through it. -/
theorem undertake_rounds {action : α} {order : List StoreName}
    (hv : (e.announce setup .lock).weigh setup action = (.ok order, d)) (hne : order ≠ []) :
    Rounds setup order (.start action order) (d.note (.executing action order.length))
      (e.undertake setup action) := by
  have hundertake : e.undertake setup action =
      visit setup order (.start action order) (d.note (.executing action order.length)) := by
    obtain ⟨first, others, rfl⟩ := List.exists_cons_of_ne_nil hne
    rw [undertake, hv]
  rw [hundertake]
  exact visit_rounds (onCourse_start hv) rfl

theorem Reachable.carryOn_rounds (h : Reachable setup capacity e) {store : StoreName}
    {ticket : Ticket} (hp : e.phase = .waiting walk store ticket) (outcome : Outcome) :
    Rounds setup (walk.pass store outcome).ahead (walk.pass store outcome)
      (e.past setup walk store outcome) (e.carryOn setup walk store outcome) := by
  have hwaits := h.waits hp
  have hsettle := World.announceOutcome_grows setup store walk.action outcome e.world
  exact visit_rounds (hwaits.pass hwaits.current hsettle.toAdds) rfl

/-- The walk is on course whenever it waits and whenever its loop comes round: in a run that takes an
answer, and for an action that is undertaken. Every store is found when it is looked up, and at the
end those that did not acknowledge are as many as the failures announced. An answer is taken only
while a store is waited for. -/
theorem walks_on_course (setup : Setup σ α) :
    (∀ capacity e walk store ticket, Reachable setup capacity e →
      e.phase = .waiting walk store ticket →
        Waits setup e walk store ticket ∧
          ∀ outcome, Rounds setup (walk.pass store outcome).ahead (walk.pass store outcome)
            (e.past setup walk store outcome) (e.carryOn setup walk store outcome)) ∧
    (∀ (e d : Engine σ α) action order, (e.announce setup .lock).weigh setup action = (.ok order, d) →
      order ≠ [] →
        Rounds setup order (.start action order) (d.note (.executing action order.length))
          (e.undertake setup action)) ∧
    (∀ e : Engine σ α, e.life = .running → e.listening = true ∨ e.isBusy = true →
      e.turn? setup = e.stimulus?.map (e.respond setup)) ∧
    ∀ (e : Engine σ α) outcome, e.stimulus? = some (.answered outcome) →
      ∃ walk store ticket, e.phase = .waiting walk store ticket :=
  ⟨fun _ _ _ _ _ h hp => ⟨h.waits hp, h.carryOn_rounds hp⟩,
    fun _ _ _ _ hv hne => undertake_rounds hv hne,
    fun _ hlife h => turn?_eq_respond hlife h, fun _ _ h => waiting_of_answered h⟩

end Engine

/-- The second store of the walk has let go of its channel, and the answer waits to be taken. -/
def answeredRun : Engine Unit Nat :=
  let sent := (Engine.initial 2 (.initial () 1 [])).interact ⟨(), [.send (.dispatch 7)], ()⟩
  (sent.takeTurns relay 2).interact ⟨(), [.resolve 2 .abandoned], ()⟩

theorem answeredRun_reachable : Engine.Reachable relay 2 answeredRun :=
  .step (.takeTurns (.step (.initial () 1 []) (.outside _ _)) 2) (.outside _ _)

namespace Engine

/-- The walk has started, it waits at its second store, and the answer brings it to its end. -/
theorem answeredRun_on_course :
    (∃ d : Engine Unit Nat, Rounds relay [⟨"b"⟩, ⟨"a"⟩] (.start 7 [⟨"b"⟩, ⟨"a"⟩]) (d.note (.executing 7 2))
      ((Engine.initial 2 (.initial () 1 [])).undertake relay 7)) ∧
    Waits relay answeredRun ⟨7, [⟨"b"⟩, ⟨"a"⟩], 1, [⟨"b"⟩]⟩ ⟨"a"⟩ 2 ∧
    Rounds relay [] ⟨7, [⟨"b"⟩, ⟨"a"⟩], 2, [⟨"b"⟩]⟩
      (answeredRun.past relay ⟨7, [⟨"b"⟩, ⟨"a"⟩], 1, [⟨"b"⟩]⟩ ⟨"a"⟩ .abandoned)
      (answeredRun.carryOn relay ⟨7, [⟨"b"⟩, ⟨"a"⟩], 1, [⟨"b"⟩]⟩ ⟨"a"⟩ .abandoned) ∧
    answeredRun.turn? relay = answeredRun.stimulus?.map (answeredRun.respond relay) ∧
    ∃ walk store ticket, answeredRun.phase = .waiting walk store ticket := by
  have hp : answeredRun.phase = .waiting ⟨7, [⟨"b"⟩, ⟨"a"⟩], 1, [⟨"b"⟩]⟩ ⟨"a"⟩ 2 := by cbv
  have hanswered : answeredRun.stimulus? = some (.answered .abandoned) := by cbv
  obtain ⟨hwaiting, hstarted, hturn, htaken⟩ := walks_on_course relay
  obtain ⟨hwaits, hrounds⟩ := hwaiting 2 _ _ _ _ answeredRun_reachable hp
  refine ⟨⟨_, hstarted _ _ 7 _ (Prod.ext ?_ rfl) (by simp)⟩, hwaits, hrounds .abandoned,
    hturn _ (by cbv) (.inl (by cbv)), htaken _ _ hanswered⟩
  cbv

end Engine

end Concord
