import Concord.Engine.Course
import Concord.Proofs.Growth
import Concord.Proofs.Precedence.Schedules

/-!
# The course of one action

A `Course` is what is known of an action that has been undertaken: the ballots cast on it, the
turns that are over, and the store that is at work unless the action has ended. Its milestones are
a function of these. The lemmas below say that undertaking an action follows a course and that
going on after an answer extends it, wherever in the schedule the stores keep their channels.
-/
namespace Concord

variable {σ α : Type}

/-- A store's turn that is over. -/
structure Turn where
  store : StoreName
  ticket : Ticket
  outcome : Outcome
deriving DecidableEq

/-- The stores that acknowledged, in the order in which they did. -/
def ackedBy (turns : List Turn) : List StoreName :=
  (turns.filter (·.outcome = .ack)).map Turn.store

theorem mem_of_mem_ackedBy {turns : List Turn} {s : StoreName} (h : s ∈ ackedBy turns) :
    s ∈ turns.map Turn.store := by
  obtain ⟨turn, ht, rfl⟩ := List.mem_map.mp h
  exact List.mem_map_of_mem (List.mem_of_mem_filter ht)

def Turn.milestones (action : α) (turn : Turn) : List (Milestone α) :=
  Milestone.invocation action turn.store turn.ticket ++
    Milestone.settlement action turn.store turn.outcome

/-- The channels of the turns, and then that of the store at work. -/
def ticketsOf (turns : List Turn) (atWork : Option (StoreName × Ticket)) : List Ticket :=
  turns.map Turn.ticket ++ (atWork.map Prod.snd).toList

/-- The channels were opened one after the other, the first of them right after the given one. -/
def Numbered (opened : Ticket) (turns : List Turn) (atWork : Option (StoreName × Ticket)) : Prop :=
  ticketsOf turns atWork = List.range' (opened + 1) (ticketsOf turns atWork).length

namespace Numbered

variable {opened : Ticket} {turn : Turn} {turns more : List Turn}
  {atWork : Option (StoreName × Ticket)}

theorem first {store : StoreName} {ticket : Ticket} (hticket : ticket = opened + 1) :
    Numbered opened [] (some (store, ticket)) := by
  rw [hticket]
  rfl

theorem cons (hticket : turn.ticket = opened + 1) (h : Numbered turn.ticket turns atWork) :
    Numbered opened (turn :: turns) atWork := by
  change turn.ticket :: ticketsOf turns atWork =
    List.range' (opened + 1) ((ticketsOf turns atWork).length + 1)
  rw [List.range'_succ, ← hticket, ← show ticketsOf turns atWork = _ from h]

theorem length_ticketsOf_atWork (turns : List Turn) (work : StoreName × Ticket) :
    (ticketsOf turns (some work)).length = turns.length + 1 := by
  simp [ticketsOf]

/-- The channel of the store at work comes after those of the turns. -/
theorem last {store : StoreName} {ticket : Ticket}
    (h : Numbered opened turns (some (store, ticket))) : ticket = opened + 1 + turns.length := by
  rw [Numbered, length_ticketsOf_atWork, List.range'_1_concat] at h
  exact List.singleton_inj.mp (List.append_inj' h rfl).2

/-- The turn of the store at work is over, and other turns have followed. -/
theorem extend (h : Numbered opened turns (some (turn.store, turn.ticket)))
    (hmore : Numbered turn.ticket more atWork) :
    Numbered opened (turns ++ turn :: more) atWork := by
  have hsplit : ticketsOf (turns ++ turn :: more) atWork =
      ticketsOf turns (some (turn.store, turn.ticket)) ++ ticketsOf more atWork := by
    simp [ticketsOf]
  have hlast := h.last
  rw [Numbered, length_ticketsOf_atWork] at h
  rw [Numbered] at hmore
  rw [Numbered, hsplit, List.length_append, length_ticketsOf_atWork, h, hmore, hlast,
    List.length_range', Nat.add_assoc (opened + 1), List.range'_append_1]

end Numbered

def Walk.after (action : α) (order : List StoreName) (turns : List Turn) : Walk α :=
  ⟨action, order, turns.length, ackedBy turns⟩

def Phase.after (action : α) (order : List StoreName) (turns : List Turn) :
    Option (StoreName × Ticket) → Phase α
  | none => .idle
  | some (store, ticket) => .waiting (.after action order turns) store ticket

/-- The counts after a visit, which counts when it has ended. -/
def Tally.after (tally : Tally) : Option (StoreName × Ticket) → Tally
  | none => { tally with processed := tally.processed + 1 }
  | some _ => tally

/-- One action from its lock on, as far as it has come. -/
structure Course (α : Type) where
  action : α
  ballots : List Ballot
  turns : List Turn
  /-- The store that is asked to carry the action out and has not answered; `none` when the action
  has ended. -/
  atWork : Option (StoreName × Ticket)
deriving DecidableEq

/-- The stores that acknowledged hear of the end, and the lock is lifted. -/
def closing (action : α) (acked : List StoreName) (stores : Nat) : List (Milestone α) :=
  acked.map (fun store => .called (.signal store action)) ++
    [.noted (.complete action acked.length (stores - acked.length)), .announced .unlock]

/-- The turns in order, and then either the call of the store at work or the end. -/
def visits (action : α) (turns : List Turn) (atWork : Option (StoreName × Ticket))
    (acked : List StoreName) (stores : Nat) : List (Milestone α) :=
  turns.flatMap (Turn.milestones action) ++
    match atWork with
    | some (store, ticket) => Milestone.invocation action store ticket
    | none => closing action acked stores

theorem visits_append (action : α) (done turns : List Turn)
    (atWork : Option (StoreName × Ticket)) (acked : List StoreName) (stores : Nat) :
    visits action (done ++ turns) atWork acked stores =
      done.flatMap (Turn.milestones action) ++ visits action turns atWork acked stores := by
  unfold visits
  rw [List.flatMap_append, List.append_assoc]

theorem visits_cons (action : α) (turn : Turn) (turns : List Turn)
    (atWork : Option (StoreName × Ticket)) (acked : List StoreName) (stores : Nat) :
    visits action (turn :: turns) atWork acked stores =
      turn.milestones action ++ visits action turns atWork acked stores := by
  rw [← List.singleton_append, visits_append, List.flatMap_singleton]

namespace Course

variable (setup : Setup σ α) (c : Course α)

def plan : Plan := .ofBallots setup.stores.contains c.ballots

/-- The schedule; empty when no store approved or there is none. -/
def order : List StoreName :=
  match (c.plan setup).verdict with
  | .ok order => order
  | .error _ => []

def opening : List (Milestone α) :=
  .announced .lock :: (c.ballots.flatMap (Milestone.voting c.action) ++
    (c.plan setup).drafted.map fun store => .noted (.drafted store c.action))

/-- Everything that the engine does for the action, from the lock to the unlock unless a store is
at work. -/
def milestones : List (Milestone α) :=
  c.opening setup ++
    match (c.plan setup).verdict with
    | .ok [] => [.noted (.nobodyApproved c.action), .announced .unlock]
    | .ok order =>
      .noted (.executing c.action order.length) ::
        visits c.action c.turns c.atWork (ackedBy c.turns) order.length
    | .error error =>
      [.noted (.aborting c.action error), .announced (.abort c.action error), .announced .unlock]

/-- Every registered store has voted once, in ascending order, and the turns follow the schedule:
all of it if the action has ended. -/
structure Follows : Prop where
  ballots : c.ballots.map Ballot.store = setup.stores.names
  turns : c.turns.map Turn.store ++ (c.atWork.map Prod.fst).toList <+: c.order setup
  ended : c.atWork = none → c.turns.map Turn.store = c.order setup

def phase : Phase α := .after c.action (c.order setup) c.turns c.atWork

/-- The counts after the course, which counts when it has ended. -/
def count (tally : Tally) : Tally :=
  match (c.plan setup).verdict with
  | .ok _ => tally.after c.atWork
  | .error _ => { tally with aborted := tally.aborted + 1 }

variable {setup c}

theorem order_of_ok {order : List StoreName} (h : (c.plan setup).verdict = .ok order) :
    c.order setup = order := by
  rw [Course.order, h]

theorem order_of_error {error : Refusal} (h : (c.plan setup).verdict = .error error) :
    c.order setup = [] := by
  rw [Course.order, h]

theorem milestones_of_ok {order : List StoreName} (h : (c.plan setup).verdict = .ok order)
    (hne : order ≠ []) :
    c.milestones setup = c.opening setup ++ .noted (.executing c.action order.length) ::
      visits c.action c.turns c.atWork (ackedBy c.turns) order.length := by
  obtain ⟨first, others, rfl⟩ := List.exists_cons_of_ne_nil hne
  rw [milestones, h]

theorem countP_opening : (c.opening setup).countP Milestone.isOpening = 0 := by
  rw [List.countP_eq_zero]
  intro m hm
  rcases List.mem_cons.mp hm with rfl | hm
  · simp [Milestone.isOpening]
  rcases List.mem_append.mp hm with hm | hm
  · obtain ⟨ballot, -, hm⟩ := List.mem_flatMap.mp hm
    simp only [Milestone.voting, List.mem_cons, List.not_mem_nil, or_false] at hm
    rcases hm with rfl | rfl <;> simp [Milestone.isOpening]
  · obtain ⟨store, -, rfl⟩ := List.mem_map.mp hm
    simp [Milestone.isOpening]

/-- When the store at work has answered, its turn and what comes after it are added. -/
theorem milestones_extend {order : List StoreName} (h : (c.plan setup).verdict = .ok order)
    (hne : order ≠ []) {store : StoreName} {ticket : Ticket}
    (hw : c.atWork = some (store, ticket)) (outcome : Outcome) (turns : List Turn)
    (atWork : Option (StoreName × Ticket)) :
    milestones setup
        ⟨c.action, c.ballots, c.turns ++ [⟨store, ticket, outcome⟩] ++ turns, atWork⟩ =
      c.milestones setup ++ (Milestone.settlement c.action store outcome ++
        visits c.action turns atWork (ackedBy (c.turns ++ [⟨store, ticket, outcome⟩] ++ turns))
          order.length) := by
  have hcall : visits c.action c.turns c.atWork (ackedBy c.turns) order.length =
      c.turns.flatMap (Turn.milestones c.action) ++
        Milestone.invocation c.action store ticket := by
    rw [hw]
    rfl
  let c' : Course α :=
    ⟨c.action, c.ballots, c.turns ++ [⟨store, ticket, outcome⟩] ++ turns, atWork⟩
  have hlonger : c'.milestones setup = _ := milestones_of_ok (c := c') h hne
  rw [hlonger, milestones_of_ok h hne, hcall]
  change c.opening setup ++ .noted (.executing c.action order.length) ::
    visits c.action (c.turns ++ [⟨store, ticket, outcome⟩] ++ turns) atWork
      (ackedBy (c.turns ++ [⟨store, ticket, outcome⟩] ++ turns)) order.length = _
  generalize ackedBy (c.turns ++ [⟨store, ticket, outcome⟩] ++ turns) = acked
  rw [visits_append, List.flatMap_append, List.flatMap_singleton, Turn.milestones]
  simp only [List.append_assoc, List.cons_append]

/-- Without a schedule to follow, an action has ended with no turn taken. -/
theorem follows_nil {action : α} {ballots : List Ballot}
    (hb : ballots.map Ballot.store = setup.stores.names)
    (ho : Course.order setup ⟨action, ballots, [], none⟩ = []) :
    Follows setup (⟨action, ballots, [], none⟩ : Course α) :=
  ⟨hb, List.nil_prefix, fun _ => ho.symm⟩

end Course

namespace Plan

variable {isRegistered : StoreName → Bool} {ballots : List Ballot}

theorem unregistered?_eq_none_iff : unregistered? isRegistered ballots = none ↔
    ∀ ballot ∈ ballots, ∀ s ∈ ballot.vote.prerequisites, isRegistered s = true := by
  unfold unregistered?
  rw [List.findSome?_eq_none_iff]
  refine forall₂_congr fun ballot _ => ?_
  rw [Option.map_eq_none_iff, List.find?_eq_none]
  refine forall₂_congr fun s _ => ?_
  cases isRegistered s <;> simp

/-- A verdict in favour is the schedule of the ballots, and only registered stores are on it. -/
theorem verdict_ok {order : List StoreName}
    (h : (ofBallots isRegistered ballots).verdict = .ok order)
    (hb : ∀ ballot ∈ ballots, isRegistered ballot.store = true) :
    (Precedence.ofBallots ballots).schedule = .ok order ∧ ∀ s ∈ order, isRegistered s = true := by
  unfold ofBallots at h
  cases hu : unregistered? isRegistered ballots with
  | some missing =>
    rw [hu] at h
    cases h
  | none =>
    rw [hu] at h
    change (Precedence.ofBallots ballots).schedule = .ok order at h
    refine ⟨h, fun s hs => ?_⟩
    obtain ⟨ballot, hmem, -, rfl | hs⟩ := ((Precedence.schedule_ok h).2.1 s).mp hs
    · exact hb ballot hmem
    · exact unregistered?_eq_none_iff.mp hu ballot hmem s hs

end Plan

theorem registered_of_names {setup : Setup σ α} {ballots : List Ballot}
    (h : ballots.map Ballot.store = setup.stores.names) :
    ∀ ballot ∈ ballots, setup.stores.contains ballot.store = true := by
  intro ballot hmem
  rw [Roster.contains_eq_true_iff, ← h]
  exact List.mem_map_of_mem hmem

namespace Course.Follows

variable {setup : Setup σ α} {c : Course α}

/-- With a store at work, the schedule is the turns that are over, that store and those ahead. -/
theorem split (h : c.Follows setup) {store : StoreName} {ticket : Ticket}
    (hw : c.atWork = some (store, ticket)) :
    ∃ rest, c.turns.map Turn.store ++ store :: rest = c.order setup ∧
      (c.plan setup).verdict = .ok (c.order setup) := by
  obtain ⟨rest, horder⟩ := h.turns
  rw [hw, Option.map_some, Option.toList_some, List.append_assoc] at horder
  refine ⟨rest, horder, ?_⟩
  cases hv : (c.plan setup).verdict with
  | error error =>
    rw [order_of_error hv] at horder
    simp at horder
  | ok order => rw [order_of_ok hv]

theorem atWork_eq_none (h : c.Follows setup) (ho : c.order setup = []) : c.atWork = none := by
  have hturns := h.turns
  rw [ho, List.prefix_nil, List.append_eq_nil_iff] at hturns
  cases hw : c.atWork with
  | none => rfl
  | some work =>
    rw [hw] at hturns
    cases hturns.2

theorem registered (h : c.Follows setup) : ∀ s ∈ c.order setup, setup.stores.contains s = true := by
  intro s hs
  unfold order at hs
  cases hv : (c.plan setup).verdict with
  | error error => simp [hv] at hs
  | ok order =>
    rw [hv] at hs
    exact (Plan.verdict_ok hv (registered_of_names h.ballots)).2 s hs

end Course.Follows

theorem pass_after (action : α) (order : List StoreName) (turns : List Turn) (turn : Turn) :
    (Walk.after action order turns).pass turn.store turn.outcome =
      Walk.after action order (turns ++ [turn]) := by
  unfold Walk.after Walk.pass ackedBy
  rw [List.filter_append, List.map_append, List.length_append]
  by_cases h : turn.outcome = .ack <;> simp [h]

namespace Engine

variable (setup : Setup σ α)

theorem conclude_grows (walk : Walk α) (e : Engine σ α)
    (hacked : ∀ s ∈ walk.acked, setup.stores.contains s = true) :
    e.world.Grows (closing walk.action walk.acked walk.order.length)
      (e.conclude setup walk).world := by
  have hsignals := World.signals_grow setup walk.action hacked e.world
  have hnote := hsignals.trans
    (.note _ (.complete walk.action walk.acked.length (walk.order.length - walk.acked.length)) rfl)
  have hgrows := hnote.trans (World.announce_grows setup _ .unlock)
  rw [List.append_assoc] at hgrows
  exact hgrows

/-- What a visit does after the turns `done`: it takes `turns`, and then the action ends or a store
keeps its channel. -/
structure Visited (action : α) (order : List StoreName) (done turns : List Turn)
    (atWork : Option (StoreName × Ticket)) (e e' : Engine σ α) : Prop where
  follows : (done ++ turns).map Turn.store ++ (atWork.map Prod.fst).toList <+: order
  ended : atWork = none → (done ++ turns).map Turn.store = order
  world : e.world.Grows (visits action turns atWork (ackedBy (done ++ turns)) order.length) e'.world
  outcomes : ∀ turn ∈ turns, e'.world.outcomeOf turn.ticket = some turn.outcome
  tickets : Numbered e.world.channel.ticket turns atWork
  channel : ∀ {store ticket}, atWork = some (store, ticket) → e'.world.channel.ticket = ticket
  result : e' = { e with
    world := e'.world
    phase := .after action order (done ++ turns) atWork
    tally := e.tally.after atWork }

theorem invoke_grows (action : α) (store : StoreName) (callbacks : Store σ α) (w : World σ α) :
    w.Grows (Milestone.invocation action store (w.channel.ticket + 1))
      ((w.announce setup (.execute store action)).assign store callbacks action) := by
  have hannounce := World.announce_grows setup w (.execute store action)
  have hgrows := hannounce.trans (World.assign_grows store callbacks action _)
  rw [hannounce.ticket] at hgrows
  exact hgrows

namespace Visited

variable {setup} {action : α} {order rest : List StoreName} {done turns : List Turn}
  {atWork : Option (StoreName × Ticket)} {e e' : Engine σ α} {store : StoreName} {world : World σ α}

/-- No store is ahead, and the action ends. -/
theorem concluded (horder : done.map Turn.store = order)
    (hregistered : ∀ s ∈ order, setup.stores.contains s = true) (e : Engine σ α) :
    Visited action order done [] none e
      (e.conclude setup (.after action order done)) := by
  have hacked : ∀ s ∈ ackedBy done, setup.stores.contains s = true := by
    intro s hs
    apply hregistered
    rw [← horder]
    exact mem_of_mem_ackedBy hs
  have hend := conclude_grows setup (.after action order done) e hacked
  constructor
  · change (done ++ []).map Turn.store ++ [] <+: order
    rw [List.append_nil, List.append_nil]
    exact ⟨[], (List.append_nil _).trans horder⟩
  · intro _
    rw [List.append_nil, horder]
  · rw [List.append_nil]
    exact hend
  · simp
  · rfl
  · simp
  · rfl

/-- The next store keeps its channel. -/
theorem kept (horder : done.map Turn.store ++ store :: rest = order)
    (hinvoke : e.world.Grows
      (Milestone.invocation action store (e.world.channel.ticket + 1)) world) :
    Visited action order done [] (some (store, world.channel.ticket)) e
      { e with
        world
        phase := .waiting (.after action order done) store world.channel.ticket } := by
  have hticket : world.channel.ticket = e.world.channel.ticket + 1 := hinvoke.ticket
  rw [← hticket] at hinvoke
  constructor
  · rw [List.append_nil, ← horder]
    exact (List.prefix_append_right_inj _).mpr
      (List.cons_prefix_cons.mpr ⟨rfl, List.nil_prefix⟩)
  · intro hn
    cases hn
  · exact hinvoke
  · simp
  · exact .first hticket
  · rintro s t ⟨⟩
    rfl
  · rw [List.append_nil]
    rfl

/-- The next store answers before it returns; its turn is over and the visit goes on. -/
theorem passed {outcome : Outcome}
    (hinvoke : e.world.Grows
      (Milestone.invocation action store (e.world.channel.ticket + 1)) world)
    (hturn : world.outcomeOf world.channel.ticket = some outcome)
    (hv : Visited action order (done ++ [⟨store, world.channel.ticket, outcome⟩]) turns
      atWork { e with world := world.announceOutcome setup store action outcome } e') :
    Visited action order done (⟨store, world.channel.ticket, outcome⟩ :: turns) atWork e
      e' := by
  let turn : Turn := ⟨store, world.channel.ticket, outcome⟩
  have hticket : world.channel.ticket = e.world.channel.ticket + 1 := hinvoke.ticket
  rw [← hticket] at hinvoke
  have hsettle := World.announceOutcome_grows setup store action outcome world
  have hassoc : done ++ turn :: turns = done ++ [turn] ++ turns := by simp
  constructor
  · rw [hassoc]
    exact hv.follows
  · rw [hassoc]
    exact hv.ended
  · rw [visits_cons, hassoc]
    exact (hinvoke.trans hsettle).trans hv.world
  · intro t ht
    rcases List.mem_cons.mp ht with rfl | ht
    · exact hv.world.outcomeOf (hsettle.outcomeOf hturn)
    · exact hv.outcomes t ht
  · have htickets : Numbered _ turns atWork := hv.tickets
    rw [hsettle.ticket, Milestone.countP_settlement, Nat.add_zero] at htickets
    exact .cons hticket htickets
  · exact hv.channel
  · rw [hassoc]
    exact hv.result

end Visited

theorem visit_visited (action : α) {order : List StoreName} (done : List Turn)
    (rest : List StoreName) (horder : done.map Turn.store ++ rest = order)
    (hregistered : ∀ s ∈ order, setup.stores.contains s = true) (e : Engine σ α)
    (hr : e.world.ChannelOnRecord) :
    ∃ turns atWork, Visited action order done turns atWork e
      (visit setup rest (.after action order done) e) := by
  induction rest generalizing done e with
  | nil =>
    rw [List.append_nil] at horder
    exact ⟨[], none, .concluded horder hregistered e⟩
  | cons store rest ih =>
    have hstore : setup.stores.contains store = true := by
      apply hregistered
      rw [← horder]
      exact List.mem_append_right _ List.mem_cons_self
    obtain ⟨callbacks, hfind⟩ := Roster.exists_find? hstore
    have hinvoke := invoke_grows setup action store callbacks e.world
    rw [visit, hfind]
    dsimp only [Walk.after]
    generalize (e.world.announce setup (.execute store action)).assign store callbacks action =
      world at hinvoke
    cases ho : world.channel.outcome with
    | none => exact ⟨[], _, .kept horder hinvoke⟩
    | some outcome =>
      have hturn : world.outcomeOf world.channel.ticket = some outcome := by
        rw [hinvoke.onRecord hr _ (Nat.le_refl _), if_pos rfl, ho]
      let turn : Turn := ⟨store, world.channel.ticket, outcome⟩
      have hpass := pass_after action order done turn
      have hnext : (done ++ [turn]).map Turn.store ++ rest = order := by
        rw [← horder, List.map_append, List.append_assoc]
        rfl
      have hsettle := World.announceOutcome_grows setup store action outcome world
      obtain ⟨turns, atWork, hv⟩ := ih (done ++ [turn]) hnext
        { e with world := world.announceOutcome setup store action outcome }
        ((hinvoke.trans hsettle).onRecord hr)
      rw [← hpass] at hv
      exact ⟨turn :: turns, atWork, .passed hinvoke hturn hv⟩

theorem drafted_grows (action : α) (names : List StoreName) (w : World σ α) :
    w.Grows (names.map fun store => .noted (.drafted store action))
      (names.foldl (fun world store => world.note (.drafted store action)) w) := by
  induction names generalizing w with
  | nil => exact .refl w
  | cons store rest ih => exact (World.Grows.note w _ rfl).trans (ih _)

/-- Weighing asks every registered store for its vote and changes nothing but the world. -/
theorem weigh_grows (action : α) (e : Engine σ α) :
    ∃ ballots world,
      e.weigh setup action =
        ((Plan.ofBallots setup.stores.contains ballots).verdict, { e with world }) ∧
      ballots.map Ballot.store = setup.stores.names ∧
      e.world.Grows (ballots.flatMap (Milestone.voting action) ++
        (Plan.ofBallots setup.stores.contains ballots).drafted.map
          fun store => .noted (.drafted store action)) world :=
  ⟨(World.canvass action setup.stores.entries e.world).1, _, rfl,
    World.canvass_stores action setup.stores.entries e.world,
    (World.canvass_grows action setup.stores.entries e.world).trans (drafted_grows action _ _)⟩

/-- An engine has taken an action up and followed the course with it. -/
structure Undertaken (c : Course α) (e e' : Engine σ α) : Prop where
  follows : c.Follows setup
  world : e.world.Grows (c.milestones setup) e'.world
  outcomes : ∀ turn ∈ c.turns, e'.world.outcomeOf turn.ticket = some turn.outcome
  tickets : Numbered e.world.channel.ticket c.turns c.atWork
  channel : ∀ {store ticket}, c.atWork = some (store, ticket) → e'.world.channel.ticket = ticket
  result : e' = { e with
    world := e'.world
    phase := c.phase setup
    tally := c.count setup e.tally }

theorem undertake_undertaken (action : α) (e : Engine σ α) (hr : e.world.ChannelOnRecord) :
    ∃ c : Course α, c.action = action ∧ Undertaken setup c e (e.undertake setup action) := by
  have hlock := World.announce_grows setup e.world .lock
  obtain ⟨ballots, world, hweigh, hballots, hvotes⟩ :=
    weigh_grows setup action (e.announce setup .lock)
  have hopening : ∀ turns atWork,
      e.world.Grows (Course.opening setup ⟨action, ballots, turns, atWork⟩) world :=
    fun _ _ => hlock.trans hvotes
  unfold undertake
  rw [hweigh]
  cases hv : (Plan.ofBallots setup.stores.contains ballots).verdict with
  | error error =>
    let c : Course α := ⟨action, ballots, [], none⟩
    have hverdict : (c.plan setup).verdict = .error error := hv
    have hnote := (hopening [] none).trans (.note world (.aborting action error) rfl)
    have habort := hnote.trans (World.announce_grows setup _ (.abort action error))
    have hend := habort.trans (World.announce_grows setup _ .unlock)
    rw [List.append_assoc, List.append_assoc] at hend
    refine ⟨c, rfl, Course.follows_nil hballots (Course.order_of_error hverdict), ?_, by simp [c],
      rfl, by simp [c], ?_⟩
    · rw [Course.milestones, hverdict]
      exact hend
    · rw [Course.count, hverdict]
      rfl
  | ok order =>
    cases order with
    | nil =>
      let c : Course α := ⟨action, ballots, [], none⟩
      have hverdict : (c.plan setup).verdict = .ok [] := hv
      have hnote := (hopening [] none).trans (.note world (.nobodyApproved action) rfl)
      have hend := hnote.trans (World.announce_grows setup _ .unlock)
      rw [List.append_assoc] at hend
      refine ⟨c, rfl, Course.follows_nil hballots (Course.order_of_ok hverdict), ?_, by simp [c],
        rfl, by simp [c], ?_⟩
      · rw [Course.milestones, hverdict]
        exact hend
      · rw [Course.count, hverdict]
        rfl
    | cons first others =>
      have hregistered := (Plan.verdict_ok hv (registered_of_names hballots)).2
      have hnote := World.Grows.note world (.executing action (first :: others).length) rfl
      obtain ⟨turns, atWork, hvisit⟩ := visit_visited setup action [] (first :: others) rfl
        hregistered ({ e with world }.note (.executing action (first :: others).length))
        (hnote.onRecord ((hopening [] none).onRecord hr))
      let c : Course α := ⟨action, ballots, turns, atWork⟩
      have hverdict : (c.plan setup).verdict = .ok (first :: others) := hv
      have horder := Course.order_of_ok hverdict
      have hbefore := (hopening turns atWork).trans hnote
      refine ⟨c, rfl, ⟨hballots, ?_, ?_⟩, ?_, hvisit.outcomes, ?_, hvisit.channel, ?_⟩
      · rw [horder]
        exact hvisit.follows
      · rw [horder]
        exact hvisit.ended
      · rw [Course.milestones_of_ok hverdict (List.cons_ne_nil _ _)]
        exact (hopening turns atWork).trans (hnote.trans hvisit.world)
      · have hticket := hbefore.ticket
        rw [List.countP_append, Course.countP_opening, List.countP_singleton, Nat.zero_add]
          at hticket
        rw [← show world.channel.ticket = e.world.channel.ticket from hticket]
        exact hvisit.tickets
      · rw [Course.count, Course.phase, hverdict, horder]
        exact hvisit.result

/-- An engine has gone on with a course after the answer of the store at work. -/
structure Continued (c c' : Course α) (e e' : Engine σ α) : Prop where
  action : c'.action = c.action
  ballots : c'.ballots = c.ballots
  follows : c'.Follows setup
  /-- The turn of the store at work is over, and so may be the turns of stores that answered on the
  spot. -/
  turns : ∃ turn more, c.atWork = some (turn.store, turn.ticket) ∧
    e.world.outcomeOf turn.ticket = some turn.outcome ∧ c'.turns = c.turns ++ turn :: more ∧
    Numbered e.world.channel.ticket more c'.atWork
  world : ∃ ms, c'.milestones setup = c.milestones setup ++ ms ∧ e.world.Grows ms e'.world
  outcomes : ∀ turn ∈ c'.turns, turn ∈ c.turns ∨ e'.world.outcomeOf turn.ticket = some turn.outcome
  channel : ∀ {store ticket}, c'.atWork = some (store, ticket) → e'.world.channel.ticket = ticket
  result : e' = { e with
    world := e'.world
    phase := c'.phase setup
    tally := c'.count setup e.tally }

/-- To carry on is to visit the stores ahead. -/
theorem carryOn_after (action : α) {order : List StoreName} (turns : List Turn) (turn : Turn)
    {rest : List StoreName} (horder : (turns ++ [turn]).map Turn.store ++ rest = order)
    (e : Engine σ α) :
    e.carryOn setup (.after action order turns) turn.store turn.outcome =
      visit setup rest (.after action order (turns ++ [turn]))
        { e with
          phase := .idle
          world := e.world.announceOutcome setup turn.store action turn.outcome } := by
  have hahead : (Walk.after action order (turns ++ [turn])).ahead = rest := by
    change order.drop (turns ++ [turn]).length = rest
    have hlength : (turns ++ [turn]).length = ((turns ++ [turn]).map Turn.store).length :=
      (List.length_map _).symm
    rw [hlength, ← horder]
    exact List.drop_left
  unfold carryOn
  dsimp only
  rw [pass_after action order turns turn, hahead]
  rfl

theorem carryOn_continued {c : Course α} (hc : c.Follows setup) {store : StoreName}
    {ticket : Ticket} (hw : c.atWork = some (store, ticket)) (outcome : Outcome) (e : Engine σ α)
    (hr : e.world.ChannelOnRecord) (ho : e.world.outcomeOf ticket = some outcome) :
    ∃ c', Continued setup c c' e
      (e.carryOn setup (.after c.action (c.order setup) c.turns) store outcome) := by
  obtain ⟨rest, horder, hv⟩ := hc.split hw
  have hne : c.order setup ≠ [] := by
    rw [← horder]
    simp
  let turn : Turn := ⟨store, ticket, outcome⟩
  have hnext : (c.turns ++ [turn]).map Turn.store ++ rest = c.order setup := by
    rw [← horder, List.map_append, List.append_assoc]
    rfl
  have hsettle := World.announceOutcome_grows setup store c.action outcome e.world
  obtain ⟨turns, atWork, hvisit⟩ := visit_visited setup c.action (c.turns ++ [turn]) rest hnext
    hc.registered
    { e with phase := .idle, world := e.world.announceOutcome setup store c.action outcome }
    (hsettle.onRecord hr)
  rw [← carryOn_after setup c.action c.turns turn hnext e] at hvisit
  let c' : Course α := ⟨c.action, c.ballots, c.turns ++ [turn] ++ turns, atWork⟩
  have hextend := Course.milestones_extend hv hne hw outcome turns atWork
  have hturns : c'.turns = c.turns ++ turn :: turns := by
    change c.turns ++ [turn] ++ turns = _
    rw [List.append_assoc, List.singleton_append]
  have htickets : Numbered _ turns atWork := hvisit.tickets
  rw [hsettle.ticket, Milestone.countP_settlement, Nat.add_zero] at htickets
  refine ⟨c', rfl, rfl, ⟨hc.ballots, hvisit.follows, hvisit.ended⟩,
    ⟨turn, turns, hw, ho, hturns, htickets⟩,
    ⟨_, hextend, hsettle.trans hvisit.world⟩, ?_, hvisit.channel, ?_⟩
  · intro t ht
    rcases List.mem_append.mp ht with ht | ht
    · rcases List.mem_append.mp ht with ht | ht
      · exact .inl ht
      · obtain rfl := List.mem_singleton.mp ht
        exact .inr (hvisit.world.outcomeOf (hsettle.outcomeOf ho))
    · exact .inr (hvisit.outcomes t ht)
  · rw [Course.count, show (c'.plan setup).verdict = _ from hv]
    exact hvisit.result

end Engine

end Concord
