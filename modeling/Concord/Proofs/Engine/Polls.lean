import Concord.Proofs.Engine.Receivers
import Concord.Proofs.Engine.Shutdown
import Mathlib.Data.List.Perm.Subperm

/-!
# How a poll ends

A poll takes turn after turn while its receivers are ready. Every act is paid for: a message that is
taken pays for its action to be undertaken or put behind the others, a waiting action for being
undertaken, and a store that is passed for the time until the next one. So a poll ends unless more
messages keep arriving. Where it ends there is nothing left to do, unless the receivers have been
held back.
-/
namespace Concord

variable {σ α : Type}

/-- How many stores of the walk are still to answer, the one at work included. -/
def Phase.unanswered : Phase α → Nat
  | .idle => 0
  | .waiting walk _ _ => walk.order.length - walk.cursor

/-- How often the life of an engine can still change by itself. -/
def Life.changes : Life → Nat
  | .fresh => 2
  | .running => 1
  | .stopped | .killed => 0

namespace Course

variable {setup : Setup σ α} {c : Course α}

theorem Follows.length_order (h : c.Follows setup) :
    (c.order setup).length ≤ setup.stores.size := by
  cases hv : (c.plan setup).verdict with
  | error error =>
    rw [order_of_error hv]
    exact Nat.zero_le _
  | ok order =>
    have hnodup := (Precedence.schedule_ok (Plan.verdict_ok hv (registered_of_names h.ballots)).1).1
    have hsub : order ⊆ setup.stores.names := by
      intro s hs
      rw [← order_of_ok hv] at hs
      exact Roster.contains_eq_true_iff.mp (h.registered s hs)
    have hlength := (hnodup.subperm hsub).length_le
    rw [order_of_ok hv]
    rwa [Roster.names, List.length_map] at hlength

theorem unanswered_le : (c.phase setup).unanswered ≤ (c.order setup).length - c.turns.length := by
  unfold phase
  cases c.atWork with
  | none => exact Nat.zero_le _
  | some work => exact Nat.le_refl _

/-- The store at work is one of those that are still to answer. -/
theorem Follows.unanswered_atWork (h : c.Follows setup) {store : StoreName} {ticket : Ticket}
    (hw : c.atWork = some (store, ticket)) :
    (c.phase setup).unanswered = (c.order setup).length - c.turns.length ∧
      c.turns.length < (c.order setup).length := by
  obtain ⟨rest, horder, -⟩ := h.split hw
  refine ⟨by rw [phase, hw]; rfl, ?_⟩
  rw [← horder, List.length_append, List.length_map, List.length_cons]
  omega

end Course

namespace Engine

variable (setup : Setup σ α)

/-- What a message may cost: it is taken, and the action that it hands over is put behind the others
or goes through all stores. -/
def costOfMessage : Nat := setup.stores.size + 2

/-- How many acts an engine can still perform without taking a message. -/
def budget (e : Engine σ α) : Nat :=
  (setup.stores.size + 1) * e.backlog.length + e.phase.unanswered + e.life.changes +
    if e.listening then 1 else 0

/-- As many acts in between are paid for by what the engine could perform and by the messages that
it has taken. -/
def Spends (acts : Nat) (e e' : Engine σ α) : Prop :=
  acts + e'.budget setup + costOfMessage setup * e.world.taken.length ≤
    e.budget setup + costOfMessage setup * e'.world.taken.length

variable {setup} {e e' e'' : Engine σ α}

theorem Continued.unanswered_lt {c c' : Course α} (hf : c.Follows setup)
    (h : Continued setup c c' e e') : (c'.phase setup).unanswered < (c.phase setup).unanswered := by
  obtain ⟨turn, more, hw, -, hturns, -⟩ := h.turns
  obtain ⟨hbefore, hlt⟩ := hf.unanswered_atWork hw
  have horder : c'.order setup = c.order setup := by
    rw [Course.order, Course.order, Course.plan, Course.plan, h.ballots]
  have hafter : (c'.phase setup).unanswered ≤ _ := Course.unanswered_le
  rw [horder, hturns, List.length_append, List.length_cons] at hafter
  omega

namespace Spends

theorem refl (e : Engine σ α) : Spends setup 0 e e := by
  rw [Spends, Nat.zero_add]

theorem trans {n m : Nat} (h : Spends setup n e e') (h' : Spends setup m e' e'') :
    Spends setup (n + m) e e'' := by
  unfold Spends at *
  omega

/-- Nothing is taken, and the engine can perform less than before. -/
theorem still {ms : List (Milestone α)} (hw : e.world.Adds ms e'.world)
    (hms : ms.filterMap Milestone.taken? = []) (hb : e'.budget setup < e.budget setup) :
    Spends setup 1 e e' := by
  rw [Spends, hw.taken, hms, List.append_nil]
  omega

/-- A message is taken, which pays for more than the engine can perform now. -/
theorem taking (message : Message α) {ms : List (Milestone α)} (hw : e.world.Adds ms e'.world)
    (hms : ms.filterMap Milestone.taken? = [message])
    (hb : e'.budget setup < e.budget setup + costOfMessage setup) : Spends setup 1 e e' := by
  rw [Spends, hw.taken, hms, List.length_append, List.length_singleton, Nat.mul_add, Nat.mul_one]
  omega

end Spends

/-- One action fewer waits. -/
theorem budget_shift {backlog : Backlog α} (h : e.backlog.length = backlog.length + 1) :
    e.budget setup = ({ e with backlog } : Engine σ α).budget setup + (setup.stores.size + 1) := by
  unfold budget
  rw [h, Nat.mul_succ]
  dsimp only
  omega

theorem budget_phase (hbacklog : e'.backlog = e.backlog) (hlife : e'.life = e.life)
    (hlistening : e'.listening = e.listening) :
    e'.budget setup + e.phase.unanswered = e.budget setup + e'.phase.unanswered := by
  unfold budget
  rw [hbacklog, hlife, hlistening]
  omega

theorem Undertaken.budget_le {c : Course α} (hu : Undertaken setup c e e') :
    e'.budget setup ≤ e.budget setup + setup.stores.size := by
  have hsame : e'.budget setup + e.phase.unanswered = e.budget setup + e'.phase.unanswered := by
    apply budget_phase <;> rw [hu.result]
  have hphase : e'.phase = c.phase setup := by rw [hu.result]
  have hphase_le : (c.phase setup).unanswered ≤ _ := Course.unanswered_le
  have horder := hu.follows.length_order
  rw [hphase] at hsame
  omega

theorem Continued.budget_lt {c c' : Course α} (hf : c.Follows setup) (hp : e.phase = c.phase setup)
    (h : Continued setup c c' e e') : e'.budget setup < e.budget setup := by
  have hsame : e'.budget setup + e.phase.unanswered = e.budget setup + e'.phase.unanswered := by
    apply budget_phase <;> rw [h.result]
  have hphase : e'.phase = c'.phase setup := by rw [h.result]
  have hlt := h.unanswered_lt hf
  rw [hphase, hp] at hsame
  omega

/-- Every act is paid for. -/
theorem Act.spends (h : Act setup e e') : Spends setup 1 e e' := by
  cases h with
  | started hlife =>
    have hnote := World.Grows.note e.world (.started setup.stores.size e.backlog.capacity) rfl
    refine .still hnote.toAdds rfl ?_
    change _ + 1 + _ < _ + e.life.changes + _
    rw [hlife]
    exact Nat.add_lt_add_right (Nat.lt_succ_self _) _
  | @begun action inbox c hh hidle hempty hc hu =>
    have hnone := Milestone.taken_eq_nil_of_inCourse hu.follows.inCourse
    refine .taking (.dispatch action)
      ((hearing_adds setup action inbox e).trans hu.world.toAdds) ?_ ?_
    · rw [List.filterMap_append, hnone]
      rfl
    · have hle : _ ≤ e.budget setup + setup.stores.size := hu.budget_le
      unfold costOfMessage
      omega
  | @queued action inbox backlog hh hbusy hput =>
    refine .taking (.dispatch action) (hearing_adds setup action inbox e) rfl ?_
    have hlength : backlog.length = e.backlog.length + 1 := by
      rw [Backlog.length, (Backlog.items_of_put_eq_ok hput).1, List.length_append]
      rfl
    have hshift : ({ e.hearing setup action inbox with backlog } : Engine σ α).budget setup =
        e.budget setup + (setup.stores.size + 1) := budget_shift hlength
    rw [hshift]
    exact Nat.add_lt_add_left (Nat.lt_succ_self _) _
  | @dropped action inbox hh hbusy hfull =>
    have hadds := (hearing_adds setup action inbox e).trans
      (dropping_grows setup action e.backlog.capacity _).toAdds
    exact .taking (.dispatch action) hadds rfl (Nat.lt_add_of_pos_right (Nat.succ_pos _))
  | @replied inquiry inbox hh =>
    exact .taking (.status inquiry) (replying_adds setup inquiry inbox e) rfl
      (Nat.lt_add_of_pos_right (Nat.succ_pos _))
  | @shut inbox hh =>
    refine .taking .shutdown (shutting_adds setup inbox e) rfl ?_
    change _ + 0 < _ + (if e.listening then 1 else 0) + _
    rw [if_pos hh.listening]
    exact Nat.lt_add_right _ (Nat.lt_succ_self _)
  | deafened hlife hl hi hh =>
    refine .still (.same rfl rfl) rfl ?_
    change _ + 0 < _ + if e.listening then 1 else 0
    rw [if_pos hl]
    exact Nat.lt_succ_self _
  | continued hlife hl hf hp hw ho hc =>
    obtain ⟨ms, -, hgrows, hcourse⟩ := hc.inCourse
    exact .still hgrows.toAdds (Milestone.taken_eq_nil_of_inCourse hcourse) (hc.budget_lt hf hp)
  | @resumed hlife hidle action backlog ho c hc hu =>
    refine .still hu.world.toAdds (Milestone.taken_eq_nil_of_inCourse hu.follows.inCourse) ?_
    have hlength : e.backlog.length = backlog.length + 1 :=
      congrArg List.length (Backlog.items_of_oldest?_eq_some ho).1
    have hle := hu.budget_le
    rw [budget_shift hlength]
    omega
  | stopped hlife hp hl =>
    refine .still (stop_adds e) rfl ?_
    change _ + 0 + _ < _ + e.life.changes + _
    rw [hlife]
    exact Nat.add_lt_add_right (Nat.lt_succ_self _) _

theorem Acts.spends (h : Acts setup e e') : ∃ n, Spends setup n e e' := by
  induction h with
  | refl => exact ⟨0, .refl e⟩
  | tail _ hact ih =>
    obtain ⟨n, hspends⟩ := ih
    exact ⟨n + 1, hspends.trans hact.spends⟩

variable {capacity : Nat} {r : Receivers σ α}

/-- A turn is paid for like its first act. -/
theorem Sound.turn_spends (h : Sound setup capacity e) (ht : e.turn? setup = some e') :
    Spends setup 1 e e' := by
  -- The acts behind the first are paid for as well, so they cost nothing here.
  obtain ⟨d, hact, hacts⟩ := h.first_act (turn_turned ht)
  obtain ⟨n, hspends⟩ := Acts.spends hacts
  have hall := hact.spends.trans hspends
  unfold Spends at *
  omega

/-- The turns of a poll are paid for one by one. -/
theorem Reachable.polled_spends (h : Reachable setup capacity e) (hr : r.Faithful) {n : Nat}
    {d : Engine σ α} (hd : e.polled? setup r n = some d) : Spends setup n e d := by
  induction n generalizing d with
  | zero => exact Option.some.inj hd ▸ .refl e
  | succ n ih =>
    obtain ⟨c, hc, hp⟩ := Option.bind_eq_some_iff.mp hd
    have hreachable := h.polled hr hc
    exact (ih hc).trans (hreachable.sound.turn_spends (hreachable.turn?_of_pollTurn? hr hp))

theorem Reachable.taken_le_sent (h : Reachable setup capacity e) :
    e.world.taken.length ≤ e.world.sent.length := by
  obtain ⟨lost, hsent, -⟩ := h.accounted.mail
  rw [hsent, List.length_append, List.length_append]
  omega

theorem isAlive_of_turn (h : e.turn? setup ≠ none) : e.IsAlive := by
  unfold turn? at h
  split at h
  · exact .inl ‹_›
  · exact .inr ‹_›
  · exact absurd rfl h
  · exact absurd rfl h

variable (setup r) in
/-- A poll that does not take so many turns has ended before. -/
theorem polled?_or_ended (e : Engine σ α) (n : Nat) : (∃ d, e.polled? setup r n = some d) ∨
    ∃ m < n, ∃ d, e.polled? setup r m = some d ∧ d.pollTurn? setup r m = none := by
  induction n with
  | zero => exact .inl ⟨e, rfl⟩
  | succ n ih =>
    rcases ih with ⟨d, hd⟩ | ⟨m, hm, hended⟩
    · cases hp : d.pollTurn? setup r n with
      | none => exact .inr ⟨n, Nat.lt_succ_self n, d, hd, hp⟩
      | some d' => exact .inl ⟨d', Option.bind_eq_some_iff.mpr ⟨d, hd, hp⟩⟩
    · exact .inr ⟨m, Nat.lt_succ_of_lt hm, hended⟩

/-- A poll that has ended takes no more turns. -/
theorem polled?_eq_none {n m : Nat} {d : Engine σ α} (hd : e.polled? setup r n = some d)
    (hended : d.pollTurn? setup r n = none) (hlt : n < m) : e.polled? setup r m = none := by
  induction m, hlt using Nat.le_induction with
  | base => rw [polled?, hd, Option.bind_some, hended]
  | succ m _ ih => rw [polled?, ih, Option.bind_none]

theorem Reachable.isAlive_of_polled (h : Reachable setup capacity e) (hr : r.Faithful) {n : Nat}
    {d : Engine σ α} (hd : e.polled? setup r (n + 1) = some d) : e.IsAlive := by
  induction n generalizing d with
  | zero =>
    have hturn : e.turn? setup = some d := h.turn?_of_pollTurn? hr hd
    have hgoing : e.turn? setup ≠ none := by simp [hturn]
    exact isAlive_of_turn hgoing
  | succ n ih =>
    obtain ⟨c, hc, -⟩ := Option.bind_eq_some_iff.mp hd
    exact ih hc

/-- A poll takes no more messages than there are and than arrive meanwhile. -/
theorem Reachable.polled_taken_le (h : Reachable setup capacity e) (hr : r.Faithful)
    {arrivals n : Nat} {d : Engine σ α} (hd : e.polled? setup r (n + 1) = some d)
    (hsent : d.world.sent.length ≤ e.world.sent.length + arrivals) :
    d.world.taken.length ≤ e.world.taken.length + (e.world.inbox.length + arrivals) := by
  have hlossless := congrArg List.length (h.lossless (h.isAlive_of_polled hr hd))
  rw [List.length_append] at hlossless
  have htaken := (h.polled hr hd).taken_le_sent
  omega

/-- A poll in which no more than the given number of messages arrive has an end. -/
theorem Reachable.poll_ends (h : Reachable setup capacity e) (hr : r.Faithful) {arrivals : Nat}
    (hsent : ∀ n d, e.polled? setup r n = some d →
      d.world.sent.length ≤ e.world.sent.length + arrivals) :
    ∃ n ≤ e.budget setup + costOfMessage setup * (e.world.inbox.length + arrivals),
      ∃ d, e.polled? setup r n = some d ∧ d.pollTurn? setup r n = none := by
  let bound := e.budget setup + costOfMessage setup * (e.world.inbox.length + arrivals)
  rcases polled?_or_ended setup r e (bound + 1) with ⟨d, hd⟩ | ⟨n, hn, hended⟩
  · -- One turn more would be paid for with messages that have not been sent.
    have hspends := h.polled_spends hr hd
    have hcost := Nat.mul_le_mul_left (costOfMessage setup)
      (h.polled_taken_le hr hd (hsent _ d hd))
    rw [Nat.mul_add] at hcost
    unfold Spends at hspends
    omega
  · exact ⟨n, Nat.le_of_lt_succ hn, hended⟩

/-- The engine waits for a channel that nobody has answered on or let go of. -/
def AwaitsAnswer (e : Engine σ α) : Prop :=
  ∃ walk store ticket, e.phase = .waiting walk store ticket ∧ e.world.channel = ⟨ticket, none⟩ ∧
    e.world.outcomeOf ticket = none

/-- Nothing is left to do: the engine has ended, or it waits for others. -/
inductive Exhausted (e : Engine σ α) : Prop where
  | listening (hlife : e.life = .running) (hl : e.listening = true) (hinbox : e.world.inbox = [])
      (hhandles : e.world.handles ≠ 0) (hbusy : e.isBusy = true → e.AwaitsAnswer)
  | draining (hlife : e.life = .running) (hl : e.listening = false) (hwaits : e.AwaitsAnswer)
  | returned (hlife : e.life = .stopped) (hp : e.phase = .idle) (hl : e.listening = false)
  | killed (hlife : e.life = .killed)

/-- An engine that waits has not opened another channel since. -/
theorem Sound.ticket_eq (h : Sound setup capacity e) {walk : Walk α} {store : StoreName}
    {ticket : Ticket} (hp : e.phase = .waiting walk store ticket) :
    e.world.channel.ticket = ticket := by
  obtain ⟨intakes, ended, underway, hc⟩ := h.chronicled
  obtain ⟨c, -, -, hticket, -⟩ := hc.awaited hp
  exact hticket

theorem Sound.awaitsAnswer (h : Sound setup capacity e) {walk : Walk α} {store : StoreName}
    {ticket : Ticket} (hp : e.phase = .waiting walk store ticket)
    (ho : e.world.channel.outcome = none) : e.AwaitsAnswer := by
  have hticket := h.ticket_eq hp
  refine ⟨walk, store, ticket, hp, ?_, ?_⟩
  · rw [← hticket, ← ho]
  · rw [h.onRecord ticket (Nat.le_of_eq hticket), if_pos hticket.symm, ho]

theorem read?_eq_none_iff :
    e.read? setup = none ↔ e.world.inbox = [] ∧ e.world.handles ≠ 0 := by
  refine ⟨read?_eq_none, fun ⟨hinbox, hhandles⟩ => ?_⟩
  rw [read?, hinbox]
  exact if_neg hhandles

theorem proceed?_eq_none_iff {walk : Walk α} {store : StoreName} :
    e.proceed? setup walk store = none ↔ e.world.channel.outcome = none := Option.map_eq_none_iff

theorem AwaitsAnswer.outcome (h : e.AwaitsAnswer) : e.world.channel.outcome = none := by
  obtain ⟨-, -, ticket, -, hchannel, -⟩ := h
  rw [hchannel]

theorem Exhausted.turn?_eq_none (h : e.Exhausted) : e.turn? setup = none := by
  unfold turn?
  cases h with
  | listening hlife hl hinbox hhandles hbusy =>
    have hread : e.read? setup = none := read?_eq_none_iff.mpr ⟨hinbox, hhandles⟩
    rw [hlife, hl]
    cases hp : e.phase with
    | idle => exact hread
    | waiting walk store ticket =>
      have hwaits := hbusy (isBusy_of_waiting hp)
      change (e.read? setup <|> e.proceed? setup walk store) = none
      rw [hread, proceed?_eq_none_iff.mpr hwaits.outcome]
      rfl
  | draining hlife hl hwaits =>
    obtain ⟨walk, store, ticket, hp, -⟩ := id hwaits
    rw [hlife, hp, hl]
    exact proceed?_eq_none_iff.mpr hwaits.outcome
  | returned hlife hp hl => rw [hlife]
  | killed hlife => rw [hlife]

/-- A turn is possible unless nothing is left to do. -/
theorem Reachable.exhausted (h : Reachable setup capacity e) (hnone : e.turn? setup = none) :
    e.Exhausted := by
  unfold turn? at hnone
  cases hlife : e.life with
  | fresh =>
    rw [hlife] at hnone
    cases hnone
  | running =>
    cases hp : e.phase with
    | idle =>
      cases hl : e.listening with
      | true =>
        rw [hlife, hp, hl] at hnone
        obtain ⟨hinbox, hhandles⟩ := read?_eq_none hnone
        refine .listening hlife hl hinbox hhandles fun hbusy => ?_
        rw [isBusy_eq_false_iff.mpr hp] at hbusy
        cases hbusy
      | false =>
        rw [hlife, hp, hl] at hnone
        cases hnone
    | waiting walk store ticket =>
      cases hl : e.listening with
      | true =>
        rw [hlife, hp, hl] at hnone
        change (e.read? setup <|> e.proceed? setup walk store) = none at hnone
        cases hread : e.read? setup with
        | some e' =>
          rw [hread] at hnone
          cases hnone
        | none =>
          obtain ⟨hinbox, hhandles⟩ := read?_eq_none hread
          rw [hread] at hnone
          exact .listening hlife hl hinbox hhandles fun _ =>
            h.sound.awaitsAnswer hp (proceed?_eq_none_iff.mp hnone)
      | false =>
        rw [hlife, hp, hl] at hnone
        exact .draining hlife hl (h.sound.awaitsAnswer hp (proceed?_eq_none_iff.mp hnone))
  | stopped =>
    obtain ⟨e₀, -, -, hp, hl, -, he⟩ := h.stopped_from hlife
    refine .returned hlife ?_ ?_
    · rw [he]
      exact hp
    · rw [he]
      exact hl
  | killed => exact .killed hlife

/-- An engine that is at rest has ended exactly if it has nothing at work and reads no more. -/
theorem Exhausted.stopped_iff (h : e.Exhausted) (hlife : e.life ≠ .killed) :
    e.life = .stopped ↔ e.isBusy = false ∧ e.listening = false := by
  cases h with
  | listening hrunning hl => simp [hrunning, hl]
  | draining hrunning hl hwaits =>
    obtain ⟨walk, store, ticket, hp, -⟩ := hwaits
    simp [hrunning, isBusy_of_waiting hp]
  | returned hstopped hp hl => simp [hstopped, hl, isBusy_eq_false_iff.mpr hp]
  | killed hkilled => exact absurd hkilled hlife

/-- A message never ends the wait for a channel. -/
theorem obey_phase (hbusy : e.isBusy = true) (message : Message α) :
    (e.obey setup message).phase = e.phase := by
  cases message with
  | dispatch action =>
    change (e.accept setup action).phase = e.phase
    rcases accept_cases setup action e with ⟨hidle, -⟩ | ⟨-, backlog, -, ha⟩ | ⟨-, -, ha⟩
    · rw [hbusy] at hidle
      cases hidle
    · rw [ha]
      rfl
    · rw [ha]
      rfl
  | status inquiry => rfl
  | shutdown => rfl

variable (setup) in
/-- What a turn does while the inbox is read and an action waits for the channel with the ticket:
the inbox goes first, and the answer is looked at when every message that was sent has been complied
with. -/
inductive InboxFirst (e : Engine σ α) (walk : Walk α) (store : StoreName) (ticket : Ticket)
    (e' : Engine σ α) : Prop where
  | read {message : Message α} {inbox : List (Message α)} (hi : e.world.inbox = message :: inbox)
      (he : e' = (e.taking message inbox).obey setup message) (hp : e'.phase = e.phase)
  | deafened (hi : e.world.inbox = []) (hh : e.world.handles = 0)
      (he : e' = { e with listening := false })
  | answered {outcome : Outcome} (hi : e.world.inbox = []) (hh : e.world.handles ≠ 0)
      (hheeded : e.world.heeded = e.world.sent) (ho : e.world.outcomeOf ticket = some outcome)
      (he : e' = (e.carryOn setup walk store outcome).undertakeWaiting setup)

theorem Reachable.inboxFirst (h : Reachable setup capacity e) (hlife : e.life = .running)
    (hl : e.listening = true) {walk : Walk α} {store : StoreName} {ticket : Ticket}
    (hp : e.phase = .waiting walk store ticket) (ht : e.turn? setup = some e') :
    InboxFirst setup e walk store ticket e' := by
  cases turn_turned ht with
  | started hfresh =>
    rw [hlife] at hfresh
    cases hfresh
  | @read _ _ message inbox hi =>
    have hbusy : (e.taking message inbox).isBusy = true := isBusy_of_waiting hp
    exact .read hi rfl (obey_phase hbusy message)
  | deafened _ _ hi hh => exact .deafened hi hh rfl
  | @proceeded _ walk' store' ticket' hp' hl' outcome ho =>
    rw [hp] at hp'
    cases hp'
    obtain ⟨hinbox, hhandles⟩ := hl' hl
    have hticket := h.sound.ticket_eq hp
    refine .answered hinbox hhandles ?_ ?_ rfl
    · rw [h.heeded, h.lossless (.inr hlife), hinbox, List.append_nil]
    · rw [h.sound.onRecord ticket (Nat.le_of_eq hticket), if_pos hticket.symm, ho]
  | stopped _ hidle _ =>
    rw [hp] at hidle
    cases hidle

/-- A poll ends the engine when there is nothing to wait for, and only then. -/
theorem Reachable.stopped_iff (h : Reachable setup capacity e) (hr : r.Faithful) {turns : Nat}
    (hended : e.pollTurn? setup r turns = none) (hlife : e.life ≠ .killed) :
    e.life = .stopped ↔ e.isBusy = false ∧ e.listening = false := by
  cases hg : r.grants turns e.world with
  | true =>
    rw [h.pollTurn?_of_granted hr hg] at hended
    exact (h.exhausted hended).stopped_iff hlife
  | false =>
    rw [pollTurn?_of_held hr hg] at hended
    split at hended
    · rename_i ha
      obtain ⟨hrunning, hwaits⟩ := attends_iff.mp ha
      rcases hwaits with hl | hb
      · simp [hrunning, hl]
      · simp [hrunning, hb]
    · exact (h.exhausted hended).stopped_iff hlife

/-- Whatever the scheduler of an engine, a poll in which only finitely many messages arrive ends
after finitely many turns, and it ends the engine exactly when nothing is at work and the inbox is
not read any more. Unless the receivers are held back, it ends where nothing is left to do: the inbox
has been read if it is read at all, and no answer waits on the channel. While the inbox is read, it
goes before the answer for which an action waits. -/
theorem poll_exhausts {r : Receivers σ α} (hr : r.Faithful) (h : Reachable setup capacity e) :
    (∀ arrivals, (∀ n d, e.polled? setup r n = some d →
        d.world.sent.length ≤ e.world.sent.length + arrivals) →
      ∃ n ≤ e.budget setup + costOfMessage setup * (e.world.inbox.length + arrivals),
        ∃ d, e.polled? setup r n = some d ∧ d.pollTurn? setup r n = none) ∧
    ∀ n d, e.polled? setup r n = some d →
      (r.grants n d.world = true → d.pollTurn? setup r n = d.turn? setup ∧
        (d.pollTurn? setup r n = none ↔ d.Exhausted)) ∧
      (d.pollTurn? setup r n = none → d.life ≠ .killed →
        (d.life = .stopped ↔ d.isBusy = false ∧ d.listening = false)) ∧
      ∀ {walk store ticket d'}, d.life = .running → d.listening = true →
        d.phase = .waiting walk store ticket → d.pollTurn? setup r n = some d' →
          InboxFirst setup d walk store ticket d' := by
  refine ⟨fun arrivals hsent => h.poll_ends hr hsent, fun n d hd => ?_⟩
  have hreachable := h.polled hr hd
  refine ⟨fun hg => ?_, hreachable.stopped_iff hr, fun hlife hl hp hturn => ?_⟩
  · rw [hreachable.pollTurn?_of_granted hr hg]
    exact ⟨rfl, hreachable.exhausted, Exhausted.turn?_eq_none⟩
  · exact hreachable.inboxFirst hlife hl hp (hreachable.turn?_of_pollTurn? hr hturn)

end Engine

/-- An action waits for its channel, which has been settled, but two messages have come in before
the engine looks at it. -/
def promptedRun : Engine Unit Nat :=
  let sent := (Engine.initial 2 (.initial () 1 [])).interact ⟨(), [.send (.dispatch 7)], ()⟩
  (sent.takeTurns relay 2).interact
    ⟨(), [.resolve 2 .ack, .send (.dispatch 8), .send (.status 1)], ()⟩

theorem promptedRun_reachable : Engine.Reachable relay 2 promptedRun :=
  .step (.takeTurns (.step (.initial () 1 []) (.outside _ _)) 2) (.outside _ _)

namespace Engine

theorem promptedRun_polled {n : Nat} (hn : n ≤ 3) :
    promptedRun.polled? relay (.sharing 128) n = some (promptedRun.takeTurns relay n) := by
  have hfaithful : (.sharing 128 : Receivers Unit Nat).Faithful := Receivers.sharing_faithful 128
  refine promptedRun_reachable.polled?_eq_takeTurns hfaithful (fun m hm => ?_) fun m hm => ?_
  · exact decide_eq_true (by omega)
  · apply Option.isSome_iff_ne_none.mp
    have hlt : m < 3 := by omega
    rcases m with _ | _ | _ | m
    · cbv
    · cbv
    · cbv
    · omega

theorem promptedRun_ended :
    (promptedRun.takeTurns relay 3).pollTurn? relay (.sharing 128) 3 = none := by
  have hreachable := promptedRun_reachable.takeTurns 3
  rw [hreachable.pollTurn?_of_granted (Receivers.sharing_faithful 128) rfl]
  cbv

/-- No message arrives in the poll. -/
theorem promptedRun_sent {n : Nat} {d : Engine Unit Nat}
    (hd : promptedRun.polled? relay (.sharing 128) n = some d) :
    d.world.sent.length ≤ promptedRun.world.sent.length + 0 := by
  by_cases hn : n ≤ 3
  · obtain rfl := Option.some.inj ((promptedRun_polled hn).symm.trans hd)
    rcases n with _ | _ | _ | _ | n
    · cbv
    · cbv
    · cbv
    · cbv
    · omega
  · have hlast : promptedRun.polled? relay (.sharing 128) 3 = _ := promptedRun_polled (by omega)
    rw [polled?_eq_none hlast promptedRun_ended (by omega)] at hd
    cases hd

/-- The two messages are taken first, and the poll ends at the channel of the next action. -/
theorem promptedRun_exhausts :
    (.sharing 128 : Receivers Unit Nat).Faithful ∧ Reachable relay 2 promptedRun ∧
      (∃ n ≤ 11, ∃ d, promptedRun.polled? relay (.sharing 128) n = some d ∧
        d.pollTurn? relay (.sharing 128) n = none) ∧
      (∃ d, promptedRun.polled? relay (.sharing 128) 3 = some d ∧ d.tally.processed = 1 ∧
        d.isBusy = true ∧ d.Exhausted) ∧
      ∃ e', promptedRun.pollTurn? relay (.sharing 128) 0 = some e' ∧
        InboxFirst relay promptedRun ⟨7, [⟨"b"⟩, ⟨"a"⟩], 1, [⟨"b"⟩]⟩ ⟨"a"⟩ 2 e' := by
  have hfaithful : (.sharing 128 : Receivers Unit Nat).Faithful := Receivers.sharing_faithful 128
  have hlast : promptedRun.polled? relay (.sharing 128) 3 = _ := promptedRun_polled (by omega)
  have hbudget : promptedRun.budget relay +
      costOfMessage relay * (promptedRun.world.inbox.length + 0) = 11 := by cbv
  obtain ⟨hpoll, hturns⟩ := poll_exhausts hfaithful promptedRun_reachable
  obtain ⟨hrest, -⟩ := hturns 3 _ hlast
  obtain ⟨-, hexhausts⟩ := hrest rfl
  have hfirst : promptedRun.polled? relay (.sharing 128) 1 = _ := promptedRun_polled (by omega)
  obtain ⟨-, -, hinbox⟩ := hturns 0 promptedRun rfl
  exact ⟨hfaithful, promptedRun_reachable, hbudget ▸ hpoll 0 fun _ _ hd => promptedRun_sent hd,
    ⟨_, hlast, by cbv, by cbv, hexhausts.mp promptedRun_ended⟩, _, hfirst,
    hinbox (by cbv) (by cbv) (by cbv) hfirst⟩

/-- Another message waits after the only turn that a poll is granted, and the poll ends. -/
example : ((promptedRun.takeTurns relay 1).world.inbox.length,
    ((promptedRun.takeTurns relay 1).pollTurn? relay (.sharing 1) 1).isSome) = (1, false) := by
  cbv

end Engine

end Concord
