import Concord.Proofs.Engine.Closing
import Concord.Proofs.Engine.Rounds

/-!
# The receivers of an engine

What an engine waits for reaches it through two receivers, one for the messages in its inbox and one
for the answer on its channel. They are not its own: a scheduler that polls the engine may allow a
poll only so much, and then holds both of them back, whatever is there. `Faithful` is what an engine
relies on, one call of a receiver at a time. A turn of a poll is a turn of the engine, or the poll
has had its share.
-/
namespace Concord

variable {σ α : Type}

/-- The receivers as they answer in one poll. The number says how many turns the poll has taken; an
answer is `none` when the receiver is not ready. -/
structure Receivers (σ α : Type) where
  /-- Whether the poll may go on, as it has not had its share. -/
  grants : Nat → World σ α → Bool
  /-- The next message, or nothing any more. -/
  inbox : Nat → World σ α → Option (Option (Message α))
  channel : Nat → World σ α → Option Outcome

namespace Receivers

/-- What is relied on of the receivers. -/
structure Faithful (r : Receivers σ α) : Prop where
  /-- Once the poll has had its share, no receiver is ready. -/
  held : ∀ turns w, r.grants turns w = false →
    r.inbox turns w = none ∧ r.channel turns w = none
  /-- Messages come out in the order in which they were put in. -/
  message : ∀ turns w message rest, r.grants turns w = true → w.inbox = message :: rest →
    r.inbox turns w = some (some message)
  /-- Nothing more comes out of an empty inbox that is closed or that no handle is left for. -/
  ended : ∀ turns w, r.grants turns w = true → w.inbox = [] →
    w.handles = 0 ∨ w.isOpen = false → r.inbox turns w = some none
  /-- One that something may still be put into is not ready while it is empty. -/
  empty : ∀ turns w, r.grants turns w = true → w.inbox = [] →
    w.handles ≠ 0 → w.isOpen = true → r.inbox turns w = none
  /-- The channel is ready when it is settled, also by being let go of. -/
  settled : ∀ turns w, r.grants turns w = true → r.channel turns w = w.channel.outcome

/-- Receivers of a scheduler that grants each poll a fixed number of turns. -/
def sharing (share : Nat) : Receivers σ α where
  grants turns _ := turns < share
  inbox turns w :=
    if turns < share then
      match w.inbox with
      | message :: _ => some (some message)
      | [] => if w.handles = 0 ∨ w.isOpen = false then some none else none
    else none
  channel turns w := if turns < share then w.channel.outcome else none

theorem sharing_faithful (share : Nat) : (sharing share : Receivers σ α).Faithful where
  held turns w h := by
    have hshare : ¬turns < share := of_decide_eq_false h
    exact ⟨if_neg hshare, if_neg hshare⟩
  message turns w message rest h hi := by
    simp [sharing, of_decide_eq_true h, hi]
  ended turns w h hi hend := by
    simp [sharing, of_decide_eq_true h, hi, hend]
  empty turns w h hi hhandles hopen := by
    simp [sharing, hi, hhandles, hopen]
  settled turns w h := if_pos (of_decide_eq_true h)

end Receivers

namespace Engine

variable (setup : Setup σ α) (r : Receivers σ α)

/-- Whether there is anything that the engine waits for. -/
def attends (e : Engine σ α) : Bool := decide (e.life = .running) && (e.listening || e.isBusy)

/-- What the receivers give an engine to deal with. The inbox is asked first, while it is read. -/
def received? (turns : Nat) (e : Engine σ α) : Option (Stimulus α) :=
  match e.phase, e.listening with
  | .waiting .., true =>
    (r.inbox turns e.world).map .inbound <|> (r.channel turns e.world).map .answered
  | .waiting .., false => (r.channel turns e.world).map .answered
  | .idle, true => (r.inbox turns e.world).map .inbound
  | .idle, false => none

/-- The next turn of a poll. The receivers are asked when there is anything to wait for. -/
def pollTurn? (turns : Nat) (e : Engine σ α) : Option (Engine σ α) :=
  if e.attends then (e.received? r turns).map (e.respond setup) else e.turn? setup

/-- The engine after so many turns of a poll, if the poll takes them. -/
def polled? : Nat → Engine σ α → Option (Engine σ α)
  | 0, e => some e
  | n + 1, e => (polled? n e).bind (pollTurn? setup r n)

variable {setup r} {capacity : Nat} {e e' : Engine σ α}

theorem attends_iff :
    e.attends = true ↔ e.life = .running ∧ (e.listening = true ∨ e.isBusy = true) := by
  simp [attends]

/-- While the inbox is read, it is open. -/
theorem Reachable.isOpen_of_listening (h : Reachable setup capacity e) (hlife : e.life = .running)
    (hl : e.listening = true) : e.world.isOpen = true := by
  cases h.reading with
  | ongoing _ _ isOpen => exact isOpen (.inr hlife)
  | shut listening =>
    rw [hl] at listening
    cases listening
  | deserted listening =>
    rw [hl] at listening
    cases listening

/-- Receivers that are not held back give what is there. -/
theorem Reachable.received?_of_granted (h : Reachable setup capacity e) (hr : r.Faithful)
    (hlife : e.life = .running) {turns : Nat} (hg : r.grants turns e.world = true) :
    e.received? r turns = e.stimulus? := by
  have hchannel : (r.channel turns e.world).map .answered = e.answered? := by
    rw [hr.settled turns e.world hg]
    rfl
  have hinbox : e.listening = true → (r.inbox turns e.world).map .inbound = e.inbound? := by
    intro hl
    have hopen := h.isOpen_of_listening hlife hl
    unfold inbound?
    cases hi : e.world.inbox with
    | cons message rest =>
      rw [hr.message turns e.world message rest hg hi]
      rfl
    | nil =>
      by_cases hh : e.world.handles = 0
      · rw [hr.ended turns e.world hg hi (.inl hh)]
        exact (if_pos hh).symm
      · rw [hr.empty turns e.world hg hi hh hopen]
        exact (if_neg hh).symm
  unfold received? stimulus?
  cases e.phase with
  | idle =>
    cases hl : e.listening with
    | true => exact hinbox hl
    | false => rfl
  | waiting walk store ticket =>
    cases hl : e.listening with
    | true =>
      dsimp only
      rw [hinbox hl, hchannel]
    | false => exact hchannel

theorem received?_of_held (hr : r.Faithful) {turns : Nat}
    (hheld : r.grants turns e.world = false) : e.received? r turns = none := by
  obtain ⟨hinbox, hchannel⟩ := hr.held turns e.world hheld
  unfold received?
  rw [hinbox, hchannel]
  cases e.phase <;> cases e.listening <;> rfl

/-- A poll that may go on takes the turn that the engine takes by itself. -/
theorem Reachable.pollTurn?_of_granted (h : Reachable setup capacity e) (hr : r.Faithful)
    {turns : Nat} (hg : r.grants turns e.world = true) :
    e.pollTurn? setup r turns = e.turn? setup := by
  unfold pollTurn?
  by_cases ha : e.attends = true
  · obtain ⟨hlife, hwaits⟩ := attends_iff.mp ha
    rw [if_pos ha, h.received?_of_granted hr hlife hg, turn?_eq_respond hlife hwaits]
  · rw [if_neg ha]

/-- A poll that has had its share ends where there is anything to wait for. -/
theorem pollTurn?_of_held (hr : r.Faithful) {turns : Nat} (hheld : r.grants turns e.world = false) :
    e.pollTurn? setup r turns = if e.attends then none else e.turn? setup := by
  rw [pollTurn?, received?_of_held hr hheld]
  rfl

/-- Whether it may go on or not, a poll takes no other turns than the engine does. -/
theorem Reachable.turn?_of_pollTurn? (h : Reachable setup capacity e) (hr : r.Faithful)
    {turns : Nat} (hp : e.pollTurn? setup r turns = some e') : e.turn? setup = some e' := by
  cases hg : r.grants turns e.world with
  | true => rw [← h.pollTurn?_of_granted hr hg, hp]
  | false =>
    rw [pollTurn?_of_held hr hg] at hp
    split at hp
    · cases hp
    · exact hp

/-- The last of several turns. -/
theorem takeTurns_succ {n : Nat} (h : (e.takeTurns setup n).turn? setup = some e') :
    e.takeTurns setup (n + 1) = e' := by
  induction n generalizing e with
  | zero =>
    have hturn : e.turn? setup = some e' := h
    rw [takeTurns, hturn]
    rfl
  | succ n ih =>
    rw [takeTurns] at h ⊢
    cases ht : e.turn? setup with
    | none =>
      rw [ht] at h
      cases ht.symm.trans h
    | some d =>
      rw [ht] at h
      exact ih h

theorem Reachable.polled (h : Reachable setup capacity e) (hr : r.Faithful) {n : Nat}
    {d : Engine σ α} (hd : e.polled? setup r n = some d) : Reachable setup capacity d := by
  induction n generalizing d with
  | zero => exact Option.some.inj hd ▸ h
  | succ n ih =>
    obtain ⟨c, hc, hp⟩ := Option.bind_eq_some_iff.mp hd
    exact (ih hc).step (.turn ((ih hc).turn?_of_pollTurn? hr hp))

/-- A poll that may go on takes the turns that the engine takes by itself, one after the other. -/
theorem Reachable.polled?_eq_takeTurns (h : Reachable setup capacity e) (hr : r.Faithful) {n : Nat}
    (hg : ∀ m < n, r.grants m (e.takeTurns setup m).world = true)
    (hgoing : ∀ m < n, (e.takeTurns setup m).turn? setup ≠ none) :
    e.polled? setup r n = some (e.takeTurns setup n) := by
  induction n with
  | zero => rfl
  | succ n ih =>
    have hbefore := ih (fun m hm => hg m (Nat.lt_succ_of_lt hm))
      fun m hm => hgoing m (Nat.lt_succ_of_lt hm)
    obtain ⟨d, hd⟩ := Option.ne_none_iff_exists'.mp (hgoing n (Nat.lt_succ_self n))
    have hturn := (h.takeTurns n).pollTurn?_of_granted hr (hg n (Nat.lt_succ_self n))
    rw [polled?, hbefore, Option.bind_some, hturn, hd, takeTurns_succ hd]

end Engine

end Concord
