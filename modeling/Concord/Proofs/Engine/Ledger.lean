import Concord.Proofs.Engine.Comparison

/-!
# A ledger of failures

A run is audited by a ledger beside its host, in which every hook that fails is entered. The ledger
makes no difference to the run, and what it lists is what the engine has noted: each failure once.
-/
namespace Concord

variable {σ κ α β γ : Type}

/-- The failure of an observer that is noted in this step. -/
def Entry.failure? : Entry α → Option (Notice α)
  | noted (.observerFailed observer event why) => some (.observerFailed observer event why)
  | _ => none

/-- The failures of observers on record, in order. -/
def World.failures (w : World σ α) : List (Notice α) := w.history.filterMap Entry.failure?

/-- An observer has failed on an event. -/
structure Mishap (α : Type) where
  observer : ObserverName
  event : Event α
  why : Failure

def Mishap.notice (m : Mishap α) : Notice α := .observerFailed m.observer m.event.kind m.why

/-- The same reaction on a host that has something beside it. -/
def Reaction.beside (reaction : Reaction σ α β) (other : κ) : Reaction (σ × κ) α β :=
  ⟨(reaction.host, other), reaction.requests, reaction.answer⟩

def Store.beside (κ : Type) (s : Store σ α) : Store (σ × κ) α where
  vote action host := (s.vote action host.1).beside host.2
  complete action ticket host := (s.complete action ticket host.1).beside host.2
  signal action host := (s.signal action host.1).beside host.2

def Move.beside (κ : Type) : Move σ α → Move (σ × κ) α
  | .turn => .turn
  | .outside act => .outside fun host => (act host.1).beside host.2
  | .kill => .kill

def Roster.map (f : β → γ) (r : Roster β) : Roster γ where
  entries := r.entries.map fun entry => (entry.1, f entry.2)
  ascending := by
    rw [List.map_map]
    exact r.ascending

/-- The setup with a ledger of all hooks that fail, the oldest first. -/
def Setup.audited (setup : Setup σ α) : Setup (σ × List (Mishap α)) α where
  stores := setup.stores.map (Store.beside _)
  observe observer event host :=
    let reaction := setup.observe observer event host.1
    reaction.beside (host.2 ++ (reaction.answer.map (⟨observer, event, ·⟩)).toList)

namespace Comparison

/-- All is seen; what the second host has beside the first does not matter. -/
abbrev beside (σ κ α : Type) : Comparison σ (σ × κ) α := exact fun host host' => host = host'.1

theorem beside_storesAlike (κ : Type) (s : Store σ α) :
    (beside σ κ α).StoresAlike s (s.beside κ) where
  answer action h h' ha := by
    cases ha
    rfl
  vote action h h' ha := by
    cases ha
    exact ⟨rfl, rfl⟩
  complete action ticket h h' ha := by
    cases ha
    exact ⟨rfl, rfl⟩
  signal action h h' ha := by
    cases ha
    exact ⟨rfl, rfl⟩

theorem relates_audited (setup : Setup σ α) :
    (beside σ (List (Mishap α)) α).Relates setup setup.audited where
  stores := List.forall₂_map_right_iff.mpr
    (List.forall₂_same.mpr fun entry _ => ⟨rfl, beside_storesAlike _ entry.2⟩)
  heard event h h' _ ha := by
    cases ha
    exact ⟨rfl, rfl⟩
  answer event h h' _ _ ha := by
    cases ha
    rfl
  unheard _ _ _ ho := by cases ho
  unheard' _ _ _ ho := by cases ho

end Comparison

namespace World

theorem failures_record (w : World σ α) (entry : Entry α) :
    (w.record entry).failures = w.failures ++ entry.failure?.toList := by
  rw [failures, history_record, List.filterMap_append, failures]
  cases h : entry.failure? <;> simp [h]

theorem failures_absorb (speaker : Speaker) (w : World σ α) (reaction : Reaction σ α β) :
    (w.absorb speaker reaction).failures = w.failures := by
  refine List.foldlRecOn (motive := (World.failures · = w.failures)) reaction.requests _ rfl
    fun v h request _ => Eq.trans ?_ h
  rcases perform_past speaker v request with hpast | ⟨entry, hpast, hasked, -⟩
  · rw [failures, history, hpast]
    rfl
  · have hrecord := failures_record v entry
    have hnone : entry.failure? = none := by
      cases entry with
      | noted notice => cases notice <;> first | rfl | cases hasked
      | _ => rfl
    rw [hnone, Option.toList_none, List.append_nil] at hrecord
    rw [failures, history, hpast]
    exact hrecord

/-- The ledger lists the failures on record. -/
def Booked (w : World (σ × List (Mishap α)) α) : Prop := w.failures = w.host.2.map Mishap.notice

namespace Booked

variable {w : World (σ × List (Mishap α)) α}

theorem record (h : w.Booked) {entry : Entry α} (hentry : entry.failure? = none) :
    (w.record entry).Booked := by
  rw [Booked, failures_record, hentry, Option.toList_none, List.append_nil]
  exact h

theorem absorb (h : w.Booked) (speaker : Speaker) (reaction : Reaction σ α β) :
    (w.absorb speaker (reaction.beside w.host.2)).Booked := by
  rw [Booked, failures_absorb, absorb_host]
  exact h

/-- A hook that fails is entered and noted; one that does not is neither. -/
theorem hand (setup : Setup σ α) (h : w.Booked) (event : Event α) (observer : ObserverName) :
    (w.hand setup.audited event observer).Booked := by
  let served := (w.record (.delivered observer event)).absorb (.observer observer)
    (setup.audited.observe observer event w.host)
  have hfailures : served.failures = w.failures := by
    rw [failures_absorb, failures_record]
    exact List.append_nil _
  have hledger : served.host.2 = w.host.2 ++
      ((setup.observe observer event w.host.1).answer.map (⟨observer, event, ·⟩)).toList :=
    congrArg Prod.snd (absorb_host ..)
  unfold World.hand
  dsimp only
  split
  · rename_i hanswer
    rw [show (setup.observe observer event w.host.1).answer = none from hanswer, Option.map_none,
      Option.toList_none, List.append_nil] at hledger
    change served.failures = served.host.2.map Mishap.notice
    rw [hfailures, hledger]
    exact h
  · rename_i why hanswer
    rw [show (setup.observe observer event w.host.1).answer = some why from hanswer] at hledger
    change (served.record _).failures = served.host.2.map Mishap.notice
    rw [failures_record, hfailures, hledger, List.map_append, ← show w.failures = _ from h]
    rfl

theorem announce (setup : Setup σ α) (h : w.Booked) (event : Event α) :
    (w.announce setup.audited event).Booked :=
  List.foldlRecOn (motive := Booked) w.observers _ (h.record rfl)
    fun _ h observer _ => hand setup h event observer

theorem discardInbox (h : w.Booked) : w.discardInbox.Booked :=
  discardInbox_preserves (fun h => h) (fun _ h => h.record rfl) h

end Booked

variable {w : World σ α} {w' : World (σ × List (Mishap α)) α}

/-- The second world is the first with a ledger beside its host. -/
structure Audits (w : World σ α) (w' : World (σ × List (Mishap α)) α) : Prop where
  same : (Comparison.beside σ (List (Mishap α)) α).Matches w w'
  booked : w'.Booked

theorem Audits.absorb (h : w.Audits w') (speaker : Speaker) (act : σ → Reaction σ α β) :
    (w.absorb speaker (act w.host)).Audits
      (w'.absorb speaker ((act w'.host.1).beside w'.host.2)) := by
  have hhost : w.host = w'.host.1 := h.same.host
  rw [← hhost]
  exact ⟨h.same.absorb speaker ⟨rfl, rfl⟩, h.booked.absorb speaker _⟩

theorem Audits.record (h : w.Audits w') {entry : Entry α} (hentry : entry.failure? = none) :
    (w.record entry).Audits (w'.record entry) :=
  ⟨h.same.record rfl, h.booked.record hentry⟩

theorem audits_lockstep (setup : Setup σ α) (capacity : Nat) :
    Lockstep setup setup.audited capacity capacity Audits := by
  have hsame : Lockstep setup setup.audited capacity capacity (Comparison.beside σ _ α).Matches :=
    (Comparison.relates_audited setup).lockstep fun _ => rfl
  refine
    { stores := ?_
      sameInbox := fun h => hsame.sameInbox h.same
      sameHandles := fun h => hsame.sameHandles h.same
      sameChannel := fun h => hsame.sameChannel h.same
      announce := fun event h => ⟨hsame.announce event h.same, h.booked.announce setup event⟩
      record := fun entry hown h => h.record ?_
      started := fun stores h => h.record rfl
      channel := fun channel h => ⟨hsame.channel channel h.same, h.booked⟩
      take := fun inbox h => ⟨hsame.take inbox h.same, h.booked⟩
      close := fun h => ⟨hsame.close h.same, h.booked⟩
      discard := fun h => ⟨hsame.discard h.same, h.booked.discardInbox⟩ }
  · refine List.forall₂_map_right_iff.mpr (List.forall₂_same.mpr fun entry _ => ⟨rfl, ?_⟩)
    have halike := Comparison.beside_storesAlike (List (Mishap α)) entry.2
    exact ⟨fun action h => halike.answer action h.same.host,
      fun action h => (h.record rfl).absorb _ (entry.2.vote action),
      fun action ticket h => (h.record rfl).absorb _ (entry.2.complete action ticket),
      fun action h => (h.record rfl).absorb _ (entry.2.signal action)⟩
  · cases entry with
    | noted notice => cases notice <;> first | rfl | cases hown
    | _ => rfl

end World

namespace Engine

variable (setup : Setup σ α) (capacity : Nat) (host : σ) (handles : Nat)
  (observers : List ObserverName) (moves : List (Move σ α))

/-- The same run with a ledger of all hooks that fail. -/
def audited : Engine (σ × List (Mishap α)) α :=
  played setup.audited capacity (host, []) handles observers (moves.map (Move.beside _))

theorem play_audits {e : Engine σ α} {d : Engine (σ × List (Mishap α)) α}
    (h : Abreast capacity capacity World.Audits e d) :
    Abreast capacity capacity World.Audits (e.play setup moves)
      (d.play setup.audited (moves.map (Move.beside _))) := by
  refine h.play (World.audits_lockstep setup capacity) ?_ fun _ _ => .inl rfl
  refine List.forall₂_map_right_iff.mpr (List.forall₂_same.mpr fun m _ => ?_)
  cases m with
  | turn => exact .turn
  | outside act => exact .outside fun h => h.absorb .outside act
  | kill => exact .kill

theorem played_audits :
    Abreast capacity capacity World.Audits (played setup capacity host handles observers moves)
      (audited setup capacity host handles observers moves) := by
  have hinitial : World.Audits (.initial host handles observers : World σ α)
      (.initial (host, []) handles observers) := ⟨⟨rfl, rfl, rfl, rfl, rfl, rfl, rfl⟩, rfl⟩
  exact play_audits setup capacity moves (.initial hinitial)

end Engine

end Concord
