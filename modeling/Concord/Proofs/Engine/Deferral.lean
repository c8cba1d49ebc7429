import Concord.Proofs.Engine.Closing
import Concord.Proofs.Engine.Pipeline

/-!
# Answers now or later

A store answers within the call that gives it a channel, or it keeps the channel and answers later.
The first answer is dealt with during the visit; for the second the engine waits and carries on when
it comes. Both lead to the same course: what an engine does for an action follows from the votes and
the outcomes, and when the stores answer makes no difference.
-/
namespace Concord

variable {σ τ α : Type}

theorem Roster.contains_congr {β γ : Type} {r : Roster β} {r' : Roster γ}
    (h : r.names = r'.names) : r.contains = r'.contains := by
  funext s
  rw [Bool.eq_iff_iff, contains_eq_true_iff, contains_eq_true_iff, h]

/-- Turns are told apart by their stores and tickets when the outcomes are given. -/
theorem turns_unique {outcomes : StoreName → Outcome} {turns turns' : List Turn}
    (hstores : turns.map Turn.store = turns'.map Turn.store)
    (htickets : turns.map Turn.ticket = turns'.map Turn.ticket)
    (ho : ∀ turn ∈ turns, turn.outcome = outcomes turn.store)
    (ho' : ∀ turn ∈ turns', turn.outcome = outcomes turn.store) : turns = turns' := by
  induction turns generalizing turns' with
  | nil => exact (List.map_eq_nil_iff.mp hstores.symm).symm
  | cons turn rest ih =>
    cases turns' with
    | nil => cases hstores
    | cons turn' rest' =>
      obtain ⟨hstore, hstores⟩ := List.cons.inj hstores
      obtain ⟨hticket, htickets⟩ := List.cons.inj htickets
      obtain ⟨hhead, htail⟩ := List.forall_mem_cons.mp ho
      obtain ⟨hhead', htail'⟩ := List.forall_mem_cons.mp ho'
      have houtcome : turn.outcome = turn'.outcome := by rw [hhead, hhead', hstore]
      rw [ih hstores htickets htail htail']
      obtain ⟨store, ticket, outcome⟩ := turn
      cases hstore
      cases hticket
      cases houtcome
      rfl

namespace World

theorem Adds.keeps_sent {w w' : World σ α} {ms : List (Milestone α)} (h : w.Adds ms w') :
    w.sent <+: w'.sent := by
  obtain ⟨fresh, hh, -⟩ := h.past
  rw [sent, sent, hh, List.filterMap_append]
  exact List.prefix_append _ _

theorem sent_preserved (setup : Setup σ α) (messages : List (Message α)) :
    Preserved setup (fun _ => True) fun w => messages <+: w.sent where
  asks := setup.asks_anything
  announce event h := h.trans (announce_grows setup _ event).keeps_sent
  record entry _ h := by
    rw [sent, history_record, List.filterMap_append]
    exact h.trans (List.prefix_append _ _)
  host _ h := h
  channel _ h := h
  perform speaker request _ h := h.trans (perform_grows speaker _ request).keeps_sent
  take _ _ _ h := h
  close h := h
  discard h := h.trans (discardInbox_adds _).keeps_sent

end World

namespace Course

variable {setup : Setup σ α} {setup' : Setup τ α}

/-! What a course amounts to depends on the stores only through their names. -/

section Names

variable (h : setup.stores.names = setup'.stores.names) (c : Course α)

include h

theorem plan_congr : c.plan setup = c.plan setup' := by
  rw [plan, plan, Roster.contains_congr h]

theorem order_congr : c.order setup = c.order setup' := by
  rw [order, order, plan_congr h]

theorem milestones_congr : c.milestones setup = c.milestones setup' := by
  rw [milestones, milestones, opening, opening, plan_congr h]

theorem count_congr (tally : Tally) : c.count setup tally = c.count setup' tally := by
  rw [count, count, plan_congr h]

end Names

/-- The course is the one that the votes and the outcomes make it, with channels numbered from the
given ticket on. -/
structure Fits (setup : Setup σ α) (votes : StoreName → Vote) (outcomes : StoreName → Outcome)
    (opened : Ticket) (c : Course α) : Prop where
  follows : c.Follows setup
  ballots : c.ballots = setup.stores.names.map fun s => ⟨s, votes s⟩
  outcomes : ∀ turn ∈ c.turns, turn.outcome = outcomes turn.store
  tickets : Numbered opened c.turns c.atWork

namespace Fits

variable {votes : StoreName → Vote} {outcomes : StoreName → Outcome} {opened : Ticket}
  {c c' : Course α}

/-- Once it has ended, there is no other such course. -/
theorem unique (hnames : setup.stores.names = setup'.stores.names)
    (h : c.Fits setup votes outcomes opened) (h' : c'.Fits setup' votes outcomes opened)
    (ha : c.action = c'.action) (hw : c.atWork = none) (hw' : c'.atWork = none) : c = c' := by
  have hb : c.ballots = c'.ballots := by rw [h.ballots, h'.ballots, hnames]
  have horder : c.order setup = c'.order setup' := by
    rw [order_congr hnames, order, order, plan, plan, hb]
  have hstores : c.turns.map Turn.store = c'.turns.map Turn.store := by
    rw [h.follows.ended hw, h'.follows.ended hw', horder]
  have hlength : c.turns.length = c'.turns.length := by
    simpa using congrArg List.length hstores
  have htickets : c.turns.map Turn.ticket = c'.turns.map Turn.ticket := by
    have hrange := h.tickets
    have hrange' := h'.tickets
    simp only [Numbered, ticketsOf, hw, hw', Option.map_none, Option.toList_none, List.append_nil,
      List.length_map] at hrange hrange'
    rw [hrange, hrange', hlength]
  have hturns := turns_unique hstores htickets h.outcomes h'.outcomes
  obtain ⟨action, ballots, turns, atWork⟩ := c
  obtain ⟨action', ballots', turns', atWork'⟩ := c'
  cases ha
  cases hb
  cases hturns
  cases hw
  cases hw'
  rfl

end Fits

end Course

namespace Engine

variable {setup : Setup σ α} {action : α} {votes : StoreName → Vote}
  {outcomes : StoreName → Outcome} {capacity : Nat} {e e' e'' : Engine σ α} {c c' : Course α}

theorem undertakeWaiting_of_nil (h : e.backlog.items = []) : e.undertakeWaiting setup = e := by
  rw [undertakeWaiting, Backlog.length, h]
  rfl

theorem Turned.alive (h : Turned setup e e') : e.IsAlive := by
  cases h with
  | started hlife => exact .inl hlife
  | read hlife => exact .inr hlife
  | deafened hlife => exact .inr hlife
  | proceeded hlife => exact .inr hlife
  | stopped hlife => exact .inr hlife

theorem kill_not_alive (e : Engine σ α) : ¬ e.kill.IsAlive := by
  unfold IsAlive kill
  cases h : e.life <;> simp [h]

/-- A run in which nothing is sent, seen from a state on the way. -/
theorem Run.sent_between (h : Run setup (fun _ => True) e e')
    (h' : Run setup (fun _ => True) e' e'') (he : Reachable setup capacity e)
    (hsent : e''.world.sent = e.world.sent) : e'.world.sent = e.world.sent := by
  have hfirst := h.keeps (World.sent_preserved setup e.world.sent) he (List.prefix_refl _)
  have hsecond :=
    h'.keeps (World.sent_preserved setup e'.world.sent) (h.reachable he) (List.prefix_refl _)
  exact (hfirst.eq_of_length_le (hsent ▸ hsecond.length_le)).symm

/-- An idle engine whose inbox holds one action and nothing else. -/
structure Ready (setup : Setup σ α) (capacity : Nat) (action : α) (e : Engine σ α) : Prop where
  reachable : Reachable setup capacity e
  alive : e.IsAlive
  idle : e.phase = .idle
  listening : e.listening = true
  inbox : e.world.inbox = [.dispatch action]

/-- An engine that is done with all that was sent to it. -/
structure Rested (e : Engine σ α) : Prop where
  life : e.life = .running
  idle : e.phase = .idle
  inbox : e.world.inbox = []

/-- A run in which nothing is sent and at whose end the engine is at rest, with the steps that it
has taken meanwhile. In these the stores have cast the given votes, and the channels have received
the given outcomes. -/
structure Concludes (setup : Setup σ α) (votes : StoreName → Vote) (outcomes : StoreName → Outcome)
    (e e' : Engine σ α) (ms : List (Milestone α)) : Prop where
  run : Run setup (fun _ => True) e e'
  sent : e'.world.sent = e.world.sent
  rested : e'.Rested
  milestones : e'.world.milestones = e.world.milestones ++ ms
  votes : ∀ ballot, .voted ballot ∈ ms → ballot.vote = votes ballot.store
  outcomes : ∀ store action ticket, .called (.complete store action ticket) ∈ ms →
    e'.world.outcomeOf ticket = some (outcomes store)

/-- What the engine notes before it reads its inbox for the first time. -/
def greeting (setup : Setup σ α) (e : Engine σ α) : List (Milestone α) :=
  match e.life with
  | .fresh => [.noted (.started setup.stores.size e.backlog.capacity)]
  | _ => []

theorem greeting_taken (setup : Setup σ α) (e : Engine σ α) :
    (e.greeting setup).filterMap Milestone.taken? = [] := by
  unfold greeting
  split <;> rfl

/-- The action is still in the inbox. -/
structure Handed (setup : Setup σ α) (e e' : Engine σ α) : Prop where
  alive : e'.IsAlive
  idle : e'.phase = .idle
  listening : e'.listening = true
  tally : e'.tally = e.tally
  ticket : e'.world.channel.ticket = e.world.channel.ticket
  milestones : e'.world.milestones ++ e'.greeting setup = e.world.milestones ++ e.greeting setup

/-- The action has been taken and has come as far as the course. -/
structure Pursued (setup : Setup σ α) (action : α) (e : Engine σ α) (c : Course α)
    (e' : Engine σ α) : Prop where
  life : e'.life = .running
  rested : e'.backlog.items = []
  taken : c.action = action
  follows : c.Follows setup
  outcomes : ∀ turn ∈ c.turns, e'.world.outcomeOf turn.ticket = some turn.outcome
  tickets : Numbered e.world.channel.ticket c.turns c.atWork
  channel : ∀ {store ticket}, c.atWork = some (store, ticket) → e'.world.channel.ticket = ticket
  phase : e'.phase = c.phase setup
  tally : e'.tally = c.count setup e.tally
  milestones : e'.world.milestones = e.world.milestones ++ (e.greeting setup ++
    [.took (.dispatch action), .announced (.dispatch action)] ++ c.milestones setup)

namespace Handed

theorem inbox (h : Handed setup e e') (he : Ready setup capacity action e)
    (hreachable : Reachable setup capacity e') (hsent : e'.world.sent = e.world.sent) :
    e'.world.inbox = [.dispatch action] := by
  have htaken : e'.world.taken = e.world.taken := by
    have hmilestones := congrArg (List.filterMap Milestone.taken?) h.milestones
    rw [List.filterMap_append, List.filterMap_append, greeting_taken, greeting_taken,
      List.append_nil, List.append_nil] at hmilestones
    exact hmilestones
  have hlossless := hreachable.lossless h.alive
  rw [World.Lossless, hsent, htaken, he.reachable.lossless he.alive, he.inbox] at hlossless
  exact (List.append_cancel_left hlossless).symm

theorem outside (h : Handed setup e e') (reaction : Reaction σ α Unit) :
    Handed setup e (e'.interact reaction) := by
  have hgrows := World.absorb_grows .outside reaction e'.world
  have hsame := hgrows.milestones
  rw [List.append_nil] at hsame
  refine ⟨h.alive, h.idle, h.listening, h.tally, hgrows.ticket.trans h.ticket, ?_⟩
  rw [← h.milestones, ← hsame]
  rfl

theorem started (h : Handed setup e e') (hlife : e'.life = .fresh) :
    Handed setup e
      { e'.note (.started setup.stores.size e'.backlog.capacity) with life := .running } := by
  have hnote := World.Grows.note e'.world (.started setup.stores.size e'.backlog.capacity) rfl
  refine ⟨.inr rfl, h.idle, h.listening, h.tally, h.ticket, ?_⟩
  have hgreeting : e'.greeting setup =
      [.noted (.started setup.stores.size e'.backlog.capacity)] := by
    rw [greeting, hlife]
  rw [← h.milestones, hgreeting, ← hnote.milestones]
  exact List.append_nil _

/-- The action is taken from the inbox and undertaken. -/
theorem accepted (h : Handed setup e e') (hsound : Sound setup capacity e')
    (hlife : e'.life = .running) (action : α) :
    ∃ c, Pursued setup action e c
      ((e'.taking (.dispatch action) []).obey setup (.dispatch action)) := by
  have hbusy : e'.isBusy = false := by
    rw [isBusy, h.idle]
  have hitems := hsound.rested hbusy
  have hheard := hearing_adds setup action [] e'
  have hticket : (e'.hearing setup action []).world.channel.ticket = e.world.channel.ticket :=
    hheard.ticket.trans h.ticket
  obtain ⟨c, ha, hu⟩ := undertake_undertaken setup action (e'.hearing setup action [])
    (hheard.onRecord hsound.onRecord)
  have haccept : (e'.taking (.dispatch action) []).obey setup (.dispatch action) =
      (e'.hearing setup action []).undertake setup action := by
    have hstill : ((e'.hearing setup action []).undertake setup action).backlog.items = [] := by
      rw [hu.result]
      exact hitems
    rw [obey, accept]
    rw [if_neg (by exact Bool.eq_false_iff.mp hbusy)]
    exact undertakeWaiting_of_nil hstill
  rw [haccept]
  generalize (e'.hearing setup action []).undertake setup action = next at hu ⊢
  have hmilestones := h.milestones
  rw [show e'.greeting setup = [] by rw [greeting, hlife], List.append_nil] at hmilestones
  refine ⟨c, ?_, ?_, ha, hu.follows, hu.outcomes, ?_, hu.channel, ?_, ?_, ?_⟩
  · rw [hu.result]
    exact hlife
  · rw [hu.result]
    exact hitems
  · rw [← hticket]
    exact hu.tickets
  · rw [hu.result]
  · rw [hu.result, ← h.tally]
    rfl
  · rw [hu.world.milestones, hheard.milestones, hmilestones]
    simp only [List.append_assoc]

end Handed

namespace Pursued

theorem inbox (h : Pursued setup action e c e') (he : Ready setup capacity action e)
    (hreachable : Reachable setup capacity e') (hsent : e'.world.sent = e.world.sent) :
    e'.world.inbox = [] := by
  have htaken : e'.world.taken = e.world.taken ++ [.dispatch action] := by
    rw [World.taken, h.milestones, List.filterMap_append, List.filterMap_append,
      List.filterMap_append, greeting_taken,
      Milestone.taken_eq_nil_of_inCourse h.follows.inCourse, List.append_nil]
    rfl
  have hlossless := hreachable.lossless (.inr h.life)
  rw [World.Lossless, hsent, htaken, he.reachable.lossless he.alive, he.inbox] at hlossless
  exact List.self_eq_append_right.mp hlossless

theorem outside (h : Pursued setup action e c e') (reaction : Reaction σ α Unit) :
    Pursued setup action e c (e'.interact reaction) := by
  have hgrows := World.absorb_grows .outside reaction e'.world
  have hsame := hgrows.milestones
  rw [List.append_nil] at hsame
  exact ⟨h.life, h.rested, h.taken, h.follows, fun turn ht => hgrows.outcomeOf (h.outcomes turn ht),
    h.tickets, fun hw => hgrows.ticket.trans (h.channel hw), h.phase, h.tally,
    hsame.trans h.milestones⟩

theorem deafened (h : Pursued setup action e c e') :
    Pursued setup action e c { e' with listening := false } :=
  ⟨h.life, h.rested, h.taken, h.follows, h.outcomes, h.tickets, h.channel, h.phase, h.tally,
    h.milestones⟩

theorem waiting (h : Pursued setup action e c e') {store : StoreName} {ticket : Ticket}
    (hw : c.atWork = some (store, ticket)) :
    e'.phase = .waiting (.after c.action (c.order setup) c.turns) store ticket := by
  rw [h.phase, Course.phase, hw]
  rfl

/-- The engine is idle again when the course has ended. -/
theorem idle_iff (h : Pursued setup action e c e') : e'.phase = .idle ↔ c.atWork = none := by
  rw [h.phase, Course.phase]
  cases c.atWork <;> simp [Phase.after]

/-- The engine goes on when the store at work has answered, and the course gets longer. -/
theorem proceeded (h : Pursued setup action e c e') (hr : e'.world.ChannelOnRecord)
    {walk : Walk α} {store : StoreName} {ticket : Ticket}
    (hp : e'.phase = .waiting walk store ticket) {outcome : Outcome}
    (ho : e'.world.channel.outcome = some outcome) :
    ∃ c', Pursued setup action e c'
        ((e'.carryOn setup walk store outcome).undertakeWaiting setup) ∧
      c'.ballots = c.ballots ∧ c.turns.length < c'.turns.length := by
  cases hw : c.atWork with
  | none =>
    rw [h.idle_iff.mpr hw] at hp
    cases hp
  | some work =>
    obtain ⟨s, t⟩ := work
    rw [h.waiting hw] at hp
    cases hp
    obtain rfl := h.channel hw
    have hrecord : e'.world.outcomeOf e'.world.channel.ticket = some outcome := by
      rw [hr _ (Nat.le_refl _), if_pos rfl, ho]
    obtain ⟨c', hc⟩ := carryOn_continued setup h.follows hw outcome e' hr hrecord
    generalize e'.carryOn setup _ store outcome = next at hc ⊢
    have hitems : next.backlog.items = [] := by
      rw [hc.result]
      exact h.rested
    rw [undertakeWaiting_of_nil hitems]
    obtain ⟨ms, hms, hgrows⟩ := hc.world
    obtain ⟨turn, more, hturn, -, hturns, hmore⟩ := hc.turns
    have htickets : Numbered e.world.channel.ticket c'.turns c'.atWork := by
      have hbefore := h.tickets
      rw [hw] at hturn
      obtain ⟨rfl, hticket⟩ := Prod.mk.inj (Option.some.inj hturn)
      rw [hw, hticket] at hbefore
      rw [hticket] at hmore
      rw [hturns]
      exact hbefore.extend hmore
    refine ⟨c', ⟨?_, hitems, hc.action.trans h.taken, hc.follows, ?_, htickets, hc.channel, ?_, ?_,
      ?_⟩, hc.ballots, ?_⟩
    · rw [hc.result]
      exact h.life
    · intro t ht
      rcases hc.outcomes t ht with hold | hnew
      · exact hgrows.outcomeOf (h.outcomes t hold)
      · exact hnew
    · rw [hc.result]
    · rw [hc.result]
      change c'.count setup e'.tally = _
      rw [h.tally, Course.count_of_atWork h.follows hw]
    · rw [hgrows.milestones, h.milestones, hms]
      simp only [List.append_assoc]
    · rw [hturns, List.length_append, List.length_cons]
      omega

end Pursued

/-- How far the engine has come with the action. -/
inductive Attending (setup : Setup σ α) (action : α) (e e' : Engine σ α) : Prop where
  | handed (h : Handed setup e e')
  | pursued {c : Course α} (h : Pursued setup action e c e')
  | gone (h : ¬ e'.IsAlive)

theorem Attending.turned (h : Attending setup action e e') (he : Ready setup capacity action e)
    (hreachable : Reachable setup capacity e') (hsent : e'.world.sent = e.world.sent)
    (ht : Turned setup e' e'') : Attending setup action e e'' := by
  cases h with
  | handed h =>
    have hinbox := h.inbox he hreachable hsent
    cases ht with
    | started hlife => exact .handed (h.started hlife)
    | read hlife hl hi =>
      rw [hinbox] at hi
      cases hi
      obtain ⟨c, hc⟩ := h.accepted hreachable.sound hlife action
      exact .pursued hc
    | deafened hlife hl hi hh =>
      rw [hinbox] at hi
      cases hi
    | proceeded hlife hp =>
      rw [h.idle] at hp
      cases hp
    | stopped hlife hp hl =>
      rw [h.listening] at hl
      cases hl
  | pursued h =>
    cases ht with
    | started hlife =>
      rw [h.life] at hlife
      cases hlife
    | read hlife hl hi =>
      rw [h.inbox he hreachable hsent] at hi
      cases hi
    | deafened => exact .pursued h.deafened
    | proceeded hlife hp hl ho =>
      obtain ⟨c', hc, -⟩ := h.proceeded hreachable.sound.onRecord hp ho
      exact .pursued hc
    | stopped => exact .gone (by simp [IsAlive, stop])
  | gone h => exact absurd ht.alive h

theorem Ready.handed (h : Ready setup capacity action e) : Handed setup e e :=
  ⟨h.alive, h.idle, h.listening, rfl, rfl, rfl⟩

/-- As long as nothing else is sent, a run is about the one action. -/
theorem Run.attending (h : Run setup (fun _ => True) e e') (he : Ready setup capacity action e)
    (hsent : e'.world.sent = e.world.sent) : Attending setup action e e' := by
  induction h with
  | refl => exact .handed he.handed
  | turn h ht ih =>
    have hbefore := h.sent_between (.turn .refl ht) he.reachable hsent
    exact (ih hbefore).turned he (h.reachable he.reachable) hbefore (turn_turned ht)
  | outside h reaction hr ih =>
    cases ih (h.sent_between (.outside .refl reaction hr) he.reachable hsent) with
    | handed hhanded => exact .handed (hhanded.outside reaction)
    | pursued hpursued => exact .pursued (hpursued.outside reaction)
    | gone hgone => exact .gone hgone
  | kill => exact .gone (kill_not_alive _)

/-- What the steps of a run that has come to its end say of the course. -/
theorem Pursued.fits {ms : List (Milestone α)} (h : Pursued setup action e c e')
    (hc : Concludes setup votes outcomes e e' ms) :
    c.Fits setup votes outcomes e.world.channel.ticket := by
  have hms := hc.milestones
  rw [h.milestones] at hms
  have hmem : ∀ m ∈ c.milestones setup, m ∈ ms := by
    rw [← List.append_cancel_left hms]
    exact fun m hm => List.mem_append_right _ hm
  have hvotes : ∀ ballot ∈ c.ballots, (⟨ballot.store, votes ballot.store⟩ : Ballot) = ballot := by
    intro ballot hballot
    have hvoted : .voted ballot ∈ c.milestones setup := by
      refine List.mem_append_left _ (List.mem_cons_of_mem _ (List.mem_append_left _ ?_))
      exact List.mem_flatMap.mpr ⟨ballot, hballot, by simp [Milestone.voting]⟩
    rw [← hc.votes ballot (hmem _ hvoted)]
  refine ⟨h.follows, ?_, ?_, h.tickets⟩
  · rw [← h.follows.ballots, List.map_map]
    exact ((List.map_congr_left hvotes).trans (List.map_id' _)).symm
  · intro turn ht
    have hcall : .complete turn.store c.action turn.ticket ∈
        (c.milestones setup).filterMap Milestone.callback? := by
      rw [h.follows.milestones_callbacks]
      refine List.mem_append_right _ (List.mem_append_left _ ?_)
      exact List.mem_map.mpr ⟨turn, ht, rfl⟩
    obtain ⟨m, hm, hcallback⟩ := List.mem_filterMap.mp hcall
    have hcalled : .called (.complete turn.store c.action turn.ticket) ∈ ms := by
      cases m with
      | called callback =>
        cases hcallback
        exact hmem _ hm
      | _ => cases hcallback
    have hdue := hc.outcomes _ _ _ hcalled
    rw [h.outcomes turn ht] at hdue
    exact Option.some.inj hdue

/-- A run that has come to its end has followed one course to its end. -/
theorem Concludes.course {ms : List (Milestone α)} (h : Concludes setup votes outcomes e e' ms)
    (he : Ready setup capacity action e) : ∃ c, Pursued setup action e c e' ∧ c.atWork = none := by
  cases h.run.attending he h.sent with
  | handed hhanded =>
    have hinbox := hhanded.inbox he (h.run.reachable he.reachable) h.sent
    rw [h.rested.inbox] at hinbox
    cases hinbox
  | pursued hc => exact ⟨_, hc, hc.idle_iff.mp h.rested.idle⟩
  | gone hgone => exact absurd (.inr h.rested.life) hgone

/-! ### Coming to rest -/

/-- The engine has taken turns, and stores that kept their channels have given the given answers.
Nobody else has asked for anything in between. -/
inductive Answered (setup : Setup σ α) (outcomes : StoreName → Outcome) (e : Engine σ α) :
    Engine σ α → Prop where
  | start : Answered setup outcomes e e
  | turn {e' e'' : Engine σ α} (h : Answered setup outcomes e e')
      (ht : e'.turn? setup = some e'') : Answered setup outcomes e e''
  | answer {e' : Engine σ α} (h : Answered setup outcomes e e') {walk : Walk α}
      {store : StoreName} {ticket : Ticket} (hp : e'.phase = .waiting walk store ticket) :
      Answered setup outcomes e
        (e'.interact ⟨e'.world.host, [.resolve ticket (outcomes store)], ()⟩)

namespace Answered

theorem trans (h : Answered setup outcomes e e') (h' : Answered setup outcomes e' e'') :
    Answered setup outcomes e e'' := by
  induction h' with
  | start => exact h
  | turn _ ht ih => exact ih.turn ht
  | answer _ hp ih => exact ih.answer hp

theorem run (h : Answered setup outcomes e e') : Run setup (fun _ => True) e e' := by
  induction h with
  | start => exact .refl
  | turn _ ht ih => exact ih.turn ht
  | answer _ _ ih => exact ih.outside _ fun _ _ => trivial

end Answered

/-- Unless the engine has ended or something else is sent to it, the stores at work need only answer
for it to come to rest, whatever their answers are. -/
def ComesToRest (setup : Setup σ α) (e : Engine σ α) : Prop :=
  ∀ e' outcomes, Run setup (fun _ => True) e e' → e'.IsAlive → e'.world.sent = e.world.sent →
    ∃ e'', Answered setup outcomes e' e'' ∧ (e''.Rested ∨ e''.world.sent ≠ e.world.sent)

theorem turn?_of_deaf (setup : Setup σ α) (hlife : e.life = .running) {walk : Walk α}
    {store : StoreName} {ticket : Ticket} (hp : e.phase = .waiting walk store ticket)
    (hl : e.listening = true) (hi : e.world.inbox = []) (hh : e.world.handles = 0) :
    e.turn? setup = some { e with listening := false } := by
  simp [turn?, read?, hlife, hp, hl, hi, hh]

theorem turn?_of_answer (setup : Setup σ α) (hlife : e.life = .running) {walk : Walk α}
    {store : StoreName} {ticket : Ticket} (hp : e.phase = .waiting walk store ticket)
    (hi : e.world.inbox = []) (hl : e.listening = true → e.world.handles ≠ 0)
    {outcome : Outcome} (ho : e.world.channel.outcome = some outcome) :
    e.turn? setup = some ((e.carryOn setup walk store outcome).undertakeWaiting setup) := by
  cases hlistening : e.listening with
  | false => simp [turn?, proceed?, hlife, hp, hlistening, ho]
  | true => simp [turn?, read?, proceed?, hlife, hp, hlistening, hi, hl hlistening, ho]

namespace Pursued

/-- The store at work answers, unless it has done so. -/
theorem answered (h : Pursued setup action e c e') (outcomes : StoreName → Outcome)
    {store : StoreName} {ticket : Ticket} (hw : c.atWork = some (store, ticket)) :
    ∃ e'' outcome, Answered setup outcomes e' e'' ∧ Pursued setup action e c e'' ∧
      e''.world.channel.outcome = some outcome := by
  cases ho : e'.world.channel.outcome with
  | some outcome => exact ⟨e', outcome, .start, h, ho⟩
  | none =>
    refine ⟨_, outcomes store, .answer .start (h.waiting hw), h.outside _, ?_⟩
    change (World.resolve { e'.world with host := _ } ticket _).channel.outcome = _
    rw [World.resolve, if_pos ⟨h.channel hw, ho⟩]
    rfl

/-- An answer brings the engine on, if need be after it has found that no handle is left. -/
theorem onward (h : Pursued setup action e c e') (outcomes : StoreName → Outcome)
    (hr : e'.world.ChannelOnRecord) (hi : e'.world.inbox = []) {store : StoreName} {ticket : Ticket}
    (hw : c.atWork = some (store, ticket)) {outcome : Outcome}
    (ho : e'.world.channel.outcome = some outcome) :
    ∃ c' e'', Answered setup outcomes e' e'' ∧ Pursued setup action e c' e'' ∧
      c'.ballots = c.ballots ∧ c.turns.length < c'.turns.length := by
  have hp := h.waiting hw
  by_cases hdeaf : e'.listening = true ∧ e'.world.handles = 0
  · obtain ⟨hl, hh⟩ := hdeaf
    have hfirst := turn?_of_deaf setup h.life hp hl hi hh
    have hsecond := turn?_of_answer setup (e := { e' with listening := false }) h.life
      hp hi (by simp) ho
    obtain ⟨c', hc⟩ := h.deafened.proceeded hr hp ho
    exact ⟨c', _, .turn (.turn .start hfirst) hsecond, hc⟩
  · have hturn := turn?_of_answer setup h.life hp hi (fun hl hh => hdeaf ⟨hl, hh⟩) ho
    obtain ⟨c', hc⟩ := h.proceeded hr hp ho
    exact ⟨c', _, .turn .start hturn, hc⟩

/-- Every answer ends a turn, and there are no more turns than the schedule has stores. -/
theorem comesToRest (h : Pursued setup action e c e') (outcomes : StoreName → Outcome)
    (he : Ready setup capacity action e) (hreachable : Reachable setup capacity e') :
    ∃ e'', Answered setup outcomes e' e'' ∧ (e''.Rested ∨ e''.world.sent ≠ e.world.sent) := by
  induction hn : (c.order setup).length - c.turns.length using Nat.strong_induction_on
    generalizing c e' with
  | _ n ih =>
    by_cases hsent : e'.world.sent = e.world.sent
    case neg => exact ⟨e', .start, .inr hsent⟩
    cases hw : c.atWork with
    | none =>
      have hinbox := h.inbox he hreachable hsent
      exact ⟨e', .start, .inl ⟨h.life, h.idle_iff.mpr hw, hinbox⟩⟩
    | some work =>
      obtain ⟨e₁, outcome, hanswered, h₁, ho⟩ := h.answered outcomes hw
      have hreachable₁ := hanswered.run.reachable hreachable
      by_cases hsent₁ : e₁.world.sent = e.world.sent
      case neg => exact ⟨e₁, hanswered, .inr hsent₁⟩
      obtain ⟨c', e₂, honward, h₂, hballots, hturns⟩ :=
        h₁.onward outcomes hreachable₁.sound.onRecord (h₁.inbox he hreachable₁ hsent₁) hw ho
      have horder : c'.order setup = c.order setup := by
        rw [Course.order, Course.order, Course.plan, Course.plan, hballots]
      have hless : c.turns.length < (c.order setup).length := by
        obtain ⟨rest, hsplit, -⟩ := h.follows.split hw
        rw [← hsplit, List.length_append, List.length_map, List.length_cons]
        omega
      obtain ⟨e₃, hrest, hend⟩ := ih _ (by rw [horder]; omega) h₂
        (honward.run.reachable hreachable₁) rfl
      exact ⟨e₃, (hanswered.trans honward).trans hrest, hend⟩

end Pursued

theorem Handed.comesToRest (h : Handed setup e e') (outcomes : StoreName → Outcome)
    (he : Ready setup capacity action e) (hreachable : Reachable setup capacity e')
    (hsent : e'.world.sent = e.world.sent) :
    ∃ e'', Answered setup outcomes e' e'' ∧ (e''.Rested ∨ e''.world.sent ≠ e.world.sent) := by
  have hrunning : ∀ {d : Engine σ α}, Handed setup e d → Reachable setup capacity d →
      d.world.sent = e.world.sent → d.life = .running →
      ∃ e'', Answered setup outcomes d e'' ∧ (e''.Rested ∨ e''.world.sent ≠ e.world.sent) := by
    intro d hd hreachable hsent hlife
    have hinbox := hd.inbox he hreachable hsent
    have hturn : d.turn? setup =
        some ((d.taking (.dispatch action) []).obey setup (.dispatch action)) := by
      simp [turn?, read?, hlife, hd.idle, hd.listening, hinbox, taking]
    obtain ⟨c, hc⟩ := hd.accepted hreachable.sound hlife action
    obtain ⟨e'', hrest, hend⟩ := hc.comesToRest outcomes he (hreachable.step (.turn hturn))
    exact ⟨e'', .trans (.turn .start hturn) hrest, hend⟩
  rcases h.alive with hlife | hlife
  · have hturn : e'.turn? setup = some
        { e'.note (.started setup.stores.size e'.backlog.capacity) with life := .running } := by
      rw [turn?, hlife]
    have hnote := World.Grows.note e'.world (.started setup.stores.size e'.backlog.capacity) rfl
    obtain ⟨e'', hrest, hend⟩ := hrunning (h.started hlife) (hreachable.step (.turn hturn))
      ((World.sent_record _ rfl).trans (by rw [List.append_nil, hsent])) rfl
    exact ⟨e'', .trans (.turn .start hturn) hrest, hend⟩
  · exact hrunning h hreachable hsent hlife

theorem Ready.comesToRest (he : Ready setup capacity action e) : ComesToRest setup e := by
  intro e' outcomes hrun halive hsent
  have hreachable := hrun.reachable he.reachable
  cases hrun.attending he hsent with
  | handed h => exact h.comesToRest outcomes he hreachable hsent
  | pursued h => exact h.comesToRest outcomes he hreachable
  | gone h => exact absurd halive h

/-- Two engines with the same stores take up the same action from the same status. Both come to rest
as soon as the stores have answered, unless something else is sent to them. If the stores then have
cast the same votes and given the same outcomes, at once or later, both engines have done the same:
the same calls, announcements and notices in the same order. Their status is the same too, and they
are not locked. -/
theorem inline_and_deferred_agree {setup' : Setup τ α} {d : Engine τ α}
    (hnames : setup.stores.names = setup'.stores.names) (he : Ready setup capacity action e)
    (hd : Ready setup' capacity action d) (hlife : e.life = d.life) (hstatus : e.status = d.status)
    (hticket : e.world.channel.ticket = d.world.channel.ticket) :
    ComesToRest setup e ∧ ComesToRest setup' d ∧
      ∀ votes outcomes e' d' ms ms', Concludes setup votes outcomes e e' ms →
        Concludes setup' votes outcomes d d' ms' →
          ms = ms' ∧ e'.status = d'.status ∧ e'.status.locked = false := by
  refine ⟨he.comesToRest, hd.comesToRest, ?_⟩
  intro votes outcomes e' d' ms ms' h h'
  obtain ⟨c, hc, hw⟩ := h.course he
  obtain ⟨c', hc', hw'⟩ := h'.course hd
  have hfits := hc'.fits h'
  rw [← hticket] at hfits
  obtain rfl := (hc.fits h).unique hnames hfits (hc.taken.trans hc'.taken.symm) hw hw'
  have hgreeting : e.greeting setup = d.greeting setup' := by
    have hsize : setup.stores.size = setup'.stores.size := by
      simpa [Roster.names, Roster.size] using congrArg List.length hnames
    rw [greeting, greeting, hlife, hsize, he.reachable.sound.capacity,
      hd.reachable.sound.capacity]
  have htally : e.tally = d.tally := by
    obtain ⟨-, -, hprocessed, hdropped, haborted⟩ := Status.mk.inj hstatus
    exact (Tally.mk.injEq ..).mpr ⟨hprocessed, hdropped, haborted⟩
  have hbusy : e'.isBusy = false := by
    rw [isBusy, h.rested.idle]
  have hbusy' : d'.isBusy = false := by
    rw [isBusy, h'.rested.idle]
  refine ⟨?_, ?_, hbusy⟩
  · have hms := h.milestones
    have hms' := h'.milestones
    rw [hc.milestones] at hms
    rw [hc'.milestones] at hms'
    rw [← List.append_cancel_left hms, ← List.append_cancel_left hms', hgreeting,
      Course.milestones_congr hnames]
  · rw [status, status, hbusy, hbusy', Backlog.length, Backlog.length, hc.rested, hc'.rested,
      hc.tally, hc'.tally, htally, Course.count_congr hnames]

end Engine

/-- The stores of `relay` with each other's habits: the first lets go of its channel at once, and
the second keeps it. -/
def counterRelay : Setup Unit Nat where
  stores :=
    { entries :=
        [(⟨"a"⟩,
          { vote := fun _ _ => ⟨(), [], .after [⟨"b"⟩]⟩
            complete := fun _ ticket _ => ⟨(), [.resolve ticket .abandoned], ()⟩
            signal := fun _ _ => ⟨(), [], ()⟩ }),
         (⟨"b"⟩,
          { vote := fun _ _ => ⟨(), [], .unconditional⟩
            complete := fun _ _ _ => ⟨(), [], ()⟩
            signal := fun _ _ => ⟨(), [], ()⟩ })]
      ascending := by decide }
  observe := fun _ _ _ => ⟨(), [], none⟩

/-- An engine that has never run, with one action in its inbox. -/
def handedRun : Engine Unit Nat :=
  (Engine.initial 2 (.initial () 1 [])).interact ⟨(), [.send (.dispatch 7)], ()⟩

/-- The second store acknowledges at once, and the first lets go of its channel later. -/
def relayedRun : Engine Unit Nat :=
  ((handedRun.takeTurns relay 2).interact
    ⟨(), [.resolve 2 .abandoned], ()⟩).takeTurns relay 1

/-- The second store acknowledges later, and then the first lets go of its channel at once. -/
def counterRelayedRun : Engine Unit Nat :=
  ((handedRun.takeTurns counterRelay 2).interact
    ⟨(), [.resolve 1 .ack], ()⟩).takeTurns counterRelay 1

namespace Engine

theorem handedRun_ready (setup : Setup Unit Nat) : Ready setup 2 7 handedRun where
  reachable := .step (.initial () 1 []) (.outside _ _)
  alive := .inl rfl
  idle := rfl
  listening := rfl
  inbox := rfl

/-- Both runs are told by the same steps and the same two answers. -/
theorem handedRun_concludes {setup : Setup Unit Nat} {e' : Engine Unit Nat}
    (hrun : Run setup (fun _ => True) handedRun e') (hsent : e'.world.sent = [.dispatch 7])
    (hrested : e'.Rested)
    (hms : e'.world.milestones =
      [.noted (.started 2 2), .took (.dispatch 7), .announced (.dispatch 7), .announced .lock,
        .called (.vote ⟨"a"⟩ 7), .voted ⟨⟨"a"⟩, .after [⟨"b"⟩]⟩,
        .called (.vote ⟨"b"⟩ 7), .voted ⟨⟨"b"⟩, .unconditional⟩, .noted (.executing 7 2),
        .announced (.execute ⟨"b"⟩ 7), .called (.complete ⟨"b"⟩ 7 1), .announced (.ack ⟨"b"⟩ 7),
        .announced (.execute ⟨"a"⟩ 7), .called (.complete ⟨"a"⟩ 7 2),
        .noted (.storeFailed ⟨"a"⟩ 7 .abandoned), .announced (.nack ⟨"a"⟩ 7 .abandoned),
        .called (.signal ⟨"b"⟩ 7), .noted (.complete 7 1 1), .announced .unlock])
    (hfirst : e'.world.outcomeOf 1 = some .ack)
    (hsecond : e'.world.outcomeOf 2 = some .abandoned) :
    Concludes setup (fun s => if s = ⟨"a"⟩ then .after [⟨"b"⟩] else .unconditional)
      (fun s => if s = ⟨"a"⟩ then .abandoned else .ack) handedRun e' e'.world.milestones where
  run := hrun
  sent := hsent
  rested := hrested
  milestones := rfl
  votes := by
    intro ballot h
    rw [hms] at h
    simp only [List.mem_cons, reduceCtorEq, false_or, Milestone.voted.injEq, List.not_mem_nil,
      or_false] at h
    rcases h with rfl | rfl <;> decide
  outcomes := by
    intro store action ticket h
    rw [hms] at h
    simp only [List.mem_cons, reduceCtorEq, false_or, Milestone.called.injEq,
      Callback.complete.injEq, List.not_mem_nil, or_false] at h
    rcases h with ⟨rfl, rfl, rfl⟩ | ⟨rfl, rfl, rfl⟩
    · exact hfirst
    · exact hsecond

theorem relayedRun_agrees :
    Ready relay 2 7 handedRun ∧ Ready counterRelay 2 7 handedRun ∧
      relayedRun.Rested ∧ counterRelayedRun.Rested ∧
      relayedRun.world.milestones = counterRelayedRun.world.milestones ∧
      relayedRun.status = counterRelayedRun.status ∧ relayedRun.status.locked = false := by
  have hready := handedRun_ready relay
  have hready' := handedRun_ready counterRelay
  have hrested : relayedRun.Rested := ⟨by cbv, by cbv, by cbv⟩
  have hrested' : counterRelayedRun.Rested := ⟨by cbv, by cbv, by cbv⟩
  have hrun : Run relay (fun _ => True) handedRun relayedRun :=
    .takeTurns (.outside (.takeTurns .refl 2) _ fun _ _ => trivial) 1
  have hrun' : Run counterRelay (fun _ => True) handedRun counterRelayedRun :=
    .takeTurns (.outside (.takeTurns .refl 2) _ fun _ _ => trivial) 1
  have hnames : relay.stores.names = counterRelay.stores.names := rfl
  obtain ⟨-, -, hagree⟩ := inline_and_deferred_agree hnames hready hready' rfl rfl rfl
  exact ⟨hready, hready', hrested, hrested', hagree _ _ _ _ _ _
    (handedRun_concludes hrun (by cbv) hrested (by cbv) (by cbv) (by cbv))
    (handedRun_concludes hrun' (by cbv) hrested' (by cbv) (by cbv) (by cbv))⟩

end Engine

end Concord
