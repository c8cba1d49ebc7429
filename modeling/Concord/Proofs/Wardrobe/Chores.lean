import Concord.Proofs.Engine.Closing
import Concord.Wardrobe.Session

/-!
# What the wardrobe's engine does for a chore

`World.Brings` says what a stretch of steps makes of the closet and of the channel, which messages
it sends and which chores it ends. There is one lemma for each function of the engine's course, and
from these follows what it does for a chore: laundering ends at once, and the other two come to the
coat's turn, where the engine waits unless the coat is quick.
-/
namespace Concord

open Wardrobe (Closet Chore)

/-- The action that has ended after it was walked through its schedule. -/
def Milestone.executed? {α : Type} : Milestone α → Option α
  | noted (.complete action _ _) => some action
  | _ => none

namespace World

/-- The actions that were executed, in the order in which they ended. -/
def executed {σ α : Type} (w : World σ α) : List α := w.milestones.filterMap Milestone.executed?

theorem Adds.executed {σ α : Type} {w w' : World σ α} {ms : List (Milestone α)}
    (h : w.Adds ms w') : w'.executed = w.executed ++ ms.filterMap Milestone.executed? := by
  simp [World.executed, h.milestones]

theorem executed_record {σ α : Type} (w : World σ α) (entry : Entry α) :
    (w.record entry).executed =
      w.executed ++ (entry.milestone?.bind Milestone.executed?).toList := by
  cases hm : entry.milestone? with
  | none => simp [executed, milestones, List.filterMap_append, hm]
  | some m => cases he : m.executed? <;> simp [executed, milestones, List.filterMap_append, hm, he]

theorem Grows.sent_eq {σ α : Type} {w w' : World σ α} {ms : List (Milestone α)} (h : w.Grows ms w')
    {mail : List (Message α)} (hi : w'.inbox = w.inbox ++ mail) : w'.sent = w.sent ++ mail := by
  obtain ⟨arrived, hinbox, hsent, -⟩ := h.mail
  rw [hi] at hinbox
  rw [hsent, List.append_cancel_left hinbox]

/-- Closing the inbox is no concern of the callbacks. -/
theorem discardInbox_rest {σ α : Type} (w : World σ α) :
    w.discardInbox.host = w.host ∧ w.discardInbox.channel = w.channel :=
  discardInbox_preserves (P := fun v => v.host = w.host ∧ v.channel = w.channel) id
    (fun _ => id) ⟨rfl, rfl⟩

/-- The second world comes from the first by steps that leave this closet and this channel, send
this mail and end these chores. Unless the observers are quiet, other messages may have been sent
as well. -/
structure Brings (quiet : Prop) (w w' : World Closet Chore) (closet : Closet) (channel : Channel)
    (mail : List (Message Chore)) (ended : List Chore) : Prop where
  host : w'.host = closet
  channel : w'.channel = channel
  executed : w'.executed = w.executed ++ ended
  isOpen : w'.isOpen = w.isOpen
  forsaken : w.handles = 0 → w'.handles = 0
  inbox : quiet → w.isOpen = true → w'.handles ≠ 0 →
    w'.inbox = w.inbox ++ mail ∧ w'.sent = w.sent ++ mail

end World

namespace Wardrobe

open World (Brings)

/-- What an observer of a wardrobe may ask for: it has no channel in its hands, and it sends nothing
if it is quiet. -/
def Discreet (quiet : Prop) : Request Chore → Prop
  | .resolve .. => False
  | .send _ => ¬quiet
  | _ => True

/-- The coat with the speed of its task. The task may be through before the store returns: then the
channel is settled on the spot, for the tickets that `quick` names. -/
def timedCoat (quick : Ticket → Bool) : Store Closet Chore :=
  { coat with
    complete := fun action ticket closet =>
      if quick ticket then
        ⟨closet.setWorn coatId (action = .dress), [.resolve ticket .ack], ()⟩
      else coat.complete action ticket closet }

theorem outfit_ascending : [coatId, shoesId, socksId, trousersId].Pairwise (· < ·) := by decide

/-- The wardrobe's own stores. -/
def outfit (quick : Ticket → Bool) : Roster (Store Closet Chore) :=
  ⟨[(coatId, timedCoat quick), (shoesId, shoes.store), (socksId, socks),
    (trousersId, trousers.store)], outfit_ascending⟩

/-- With a coat that is never quick these are the stores of a session without extra garments. -/
theorem ofBindings_bindings : Roster.ofBindings (bindings []) = .ok (outfit fun _ => false) := rfl

/-- The wardrobe's own stores are registered, and the observers leave the closet alone. -/
structure Furnished (quiet : Prop) (quick : Ticket → Bool) (setup : Setup Closet Chore) :
    Prop where
  stores : setup.stores = outfit quick
  host : ∀ observer event closet, (setup.observe observer event closet).host = closet
  asks : ∀ observer event closet, (setup.observe observer event closet).Asks (Discreet quiet)

theorem furnished_setup (quiet : Prop) (quick : Ticket → Bool) :
    Furnished quiet quick (setup (outfit quick)) where
  stores := rfl
  host _ _ _ := rfl
  asks observer event closet := by
    intro request hrequest
    by_cases hobserver : observer = tracer
    · simp only [setup, if_pos hobserver, List.mem_singleton] at hrequest
      rw [hrequest]
      trivial
    · simp [setup, if_neg hobserver] at hrequest

namespace Closet

@[simp] theorem isWorn_setWorn (closet : Closet) (garment other : StoreName) (worn : Bool) :
    (closet.setWorn garment worn).isWorn other =
      if other = garment then worn else closet.isWorn other := by
  by_cases ho : other = garment <;> cases worn <;> simp [isWorn, setWorn, ho]

@[simp] theorem dirty_setWorn (closet : Closet) (garment : StoreName) (worn : Bool) :
    (closet.setWorn garment worn).dirty = closet.dirty := rfl

@[simp] theorem washes_setWorn (closet : Closet) (garment : StoreName) (worn : Bool) :
    (closet.setWorn garment worn).washes = closet.washes := rfl

/-- What the socks do. Dirty ones are not put on. -/
def withSocks (closet : Closet) : Chore → Closet
  | .dress => if closet.dirty then closet else closet.setWorn socksId true
  | .undress => { closet.setWorn socksId false with dirty := true }
  | .launder => { closet with dirty := false, washes := closet.washes + 1 }

/-- What the other stores do before the coat's turn. -/
def untilCoat (closet : Closet) : Chore → Closet
  | .dress => ((closet.setWorn trousersId true).withSocks .dress).setWorn shoesId true
  | _ => closet

/-- What the other stores do after the coat's turn. -/
def sinceCoat (closet : Closet) : Chore → Closet
  | .undress => ((closet.setWorn shoesId false).withSocks .undress).setWorn trousersId false
  | _ => closet

/-- What a chore does to a closet. -/
def after (closet : Closet) : Chore → Closet
  | .launder => closet.withSocks .launder
  | chore => ((closet.untilCoat chore).setWorn coatId (chore = .dress)).sinceCoat chore

theorem after_eq {chore : Chore} (h : chore ≠ .launder) (closet : Closet) :
    closet.after chore =
      ((closet.untilCoat chore).setWorn coatId (chore = .dress)).sinceCoat chore := by
  cases chore with
  | launder => contradiction
  | dress | undress => rfl

end Closet

namespace Chore

/-- The stores whose turns come before that of the coat. -/
def beforeCoat : Chore → List StoreName
  | .dress => [trousersId, socksId, shoesId]
  | _ => []

def behindCoat : Chore → List StoreName
  | .undress => [shoesId, socksId, trousersId]
  | _ => []

/-- The stores in the order of their turns. -/
def schedule : Chore → List StoreName
  | .launder => [socksId]
  | chore => chore.beforeCoat ++ coatId :: chore.behindCoat

/-- What the stores send while they carry the chore out. -/
def mail : Chore → List (Message Chore)
  | .undress => [.dispatch .launder]
  | _ => []

/-- The walk of a chore that has come to the coat's turn. -/
def walk (chore : Chore) (acked : List StoreName) : Walk Chore :=
  ⟨chore, chore.schedule, chore.beforeCoat.length, acked⟩

end Chore

end Wardrobe

open Wardrobe

namespace World.Brings

variable {quiet : Prop} {w w' w'' : World Closet Chore} {closet closet' : Closet}
  {channel channel' : Channel} {mail mail' : List (Message Chore)} {ended ended' : List Chore}

theorem trans (h : Brings quiet w w' closet channel mail ended)
    (h' : Brings quiet w' w'' closet' channel' mail' ended') :
    Brings quiet w w'' closet' channel' (mail ++ mail') (ended ++ ended') where
  host := h'.host
  channel := h'.channel
  executed := by rw [h'.executed, h.executed, List.append_assoc]
  isOpen := h'.isOpen.trans h.isOpen
  forsaken hw := h'.forsaken (h.forsaken hw)
  inbox hquiet hopen hhandles := by
    have hmiddle : w'.handles ≠ 0 := fun hw => hhandles (h'.forsaken hw)
    obtain ⟨hinbox, hsent⟩ := h.inbox hquiet hopen hmiddle
    obtain ⟨hinbox', hsent'⟩ := h'.inbox hquiet (h.isOpen.trans hopen) hhandles
    rw [hinbox', hinbox, hsent', hsent, List.append_assoc, List.append_assoc]
    exact ⟨rfl, rfl⟩

/-- Steps beside the chores follow. -/
theorem beside (h : Brings quiet w w' closet channel mail ended)
    (h' : Brings quiet w' w'' w'.host w'.channel [] []) :
    Brings quiet w w'' closet channel mail ended := by
  rw [h.host, h.channel] at h'
  simpa using h.trans h'

theorem refl (w : World Closet Chore) : Brings quiet w w w.host w.channel [] [] :=
  ⟨rfl, rfl, (List.append_nil _).symm, rfl, id, fun _ _ _ =>
    ⟨(List.append_nil _).symm, (List.append_nil _).symm⟩⟩

theorem record (w : World Closet Chore) {entry : Entry Chore} (hs : entry.sent? = none)
    (h : (entry.milestone?.bind Milestone.executed?).toList = ended) :
    Brings quiet w (w.record entry) w.host w.channel [] ended :=
  ⟨rfl, rfl, by rw [executed_record, h], rfl, id, fun _ _ _ =>
    ⟨(List.append_nil _).symm, sent_record w hs⟩⟩

theorem send (w : World Closet Chore) (message : Message Chore) :
    Brings quiet w (w.send message) w.host w.channel [message] [] where
  host := (perform_frame .outside w (.send message)).1
  channel := by
    unfold World.send
    split
    · rfl
    split
    · rfl
    · cases message <;> rfl
  executed := by simp [(send_grows w message).toAdds.executed]
  isOpen := (send_grows w message).isOpen
  forsaken hw := by simp [World.send, hw]
  inbox _ hopen hhandles := by
    have hw : w.handles ≠ 0 := fun hw => hhandles (by simp [World.send, hw])
    have hinbox : (w.send message).inbox = w.inbox ++ [message] := by
      simp [World.send, hw, hopen, World.record]
    exact ⟨hinbox, (send_grows w message).sent_eq hinbox⟩

theorem settle (quiet : Prop) (w : World Closet Chore) (outcome : Outcome)
    (hw : w.channel.outcome = none) :
    Brings quiet w (w.resolve w.channel.ticket outcome) w.host ⟨w.channel.ticket, some outcome⟩
      [] [] := by
  have hsettled : w.resolve w.channel.ticket outcome =
      { w with channel := ⟨w.channel.ticket, some outcome⟩ }.record
        (.settled w.channel.ticket outcome) := by simp [World.resolve, hw]
  have hgrows := resolve_grows w w.channel.ticket outcome
  rw [hsettled] at hgrows ⊢
  refine ⟨rfl, rfl, hgrows.toAdds.executed, rfl, id, fun _ _ _ => ?_⟩
  have hinbox := (List.append_nil w.inbox).symm
  exact ⟨hinbox, hgrows.sent_eq hinbox⟩

/-- What an observer may ask for leaves the closet and the channel as they are. -/
theorem perform (speaker : Speaker) (w : World Closet Chore) {request : Request Chore}
    (hr : Discreet quiet request) :
    Brings quiet w (w.perform speaker request) w.host w.channel [] [] := by
  have hrest : (w.perform speaker request).channel = w.channel ∧
      (quiet → (w.perform speaker request).inbox = w.inbox) := by
    cases request with
    | send message =>
      have hsent : Brings quiet w (w.send message) _ _ _ _ := .send w message
      exact ⟨hsent.channel, fun hquiet => absurd hquiet hr⟩
    | clone =>
      change World.channel (if w.handles = 0 then w else _) = w.channel ∧
        (quiet → World.inbox (if w.handles = 0 then w else _) = w.inbox)
      split <;> exact ⟨rfl, fun _ => rfl⟩
    | watch observer =>
      change (w.watch observer).channel = w.channel ∧ (quiet → (w.watch observer).inbox = w.inbox)
      unfold World.watch
      split <;> exact ⟨rfl, fun _ => rfl⟩
    | resolve ticket outcome => exact hr.elim
    | release | unwatch | write => exact ⟨rfl, fun _ => rfl⟩
  have hgrows := perform_grows speaker w request
  refine ⟨(perform_frame speaker w request).1, hrest.1, hgrows.toAdds.executed, hgrows.isOpen,
    fun hw => (perform_of_no_handles hw speaker request).1, fun hquiet _ _ => ?_⟩
  have hinbox := (hrest.2 hquiet).trans (List.append_nil w.inbox).symm
  exact ⟨hinbox, hgrows.sent_eq hinbox⟩

theorem performs (speaker : Speaker) {requests : List (Request Chore)}
    (hr : ∀ request ∈ requests, Discreet quiet request) (w : World Closet Chore) :
    Brings quiet w (requests.foldl (World.perform speaker) w) w.host w.channel [] [] := by
  induction requests generalizing w with
  | nil => exact .refl w
  | cons request rest ih =>
    have hfirst := Brings.perform speaker w (hr request List.mem_cons_self)
    exact hfirst.beside (ih (fun request hrest => hr request (List.mem_cons_of_mem _ hrest)) _)

/-- A callback that leaves the closet alone. -/
theorem absorb {β : Type} (speaker : Speaker) (w : World Closet Chore)
    {reaction : Reaction Closet Chore β} (hhost : reaction.host = w.host)
    (hr : reaction.Asks (Discreet quiet)) :
    Brings quiet w (w.absorb speaker reaction) w.host w.channel [] [] := by
  unfold World.absorb
  rw [hhost]
  exact .performs speaker hr w

theorem sends (speaker : Speaker) (mail : List (Message Chore)) (w : World Closet Chore) :
    Brings quiet w ((mail.map .send).foldl (World.perform speaker) w) w.host w.channel mail [] := by
  induction mail generalizing w with
  | nil => exact .refl w
  | cons message rest ih =>
    have hfirst : Brings quiet w (w.send message) _ _ _ _ := .send w message
    have hrest := ih (w.send message)
    rw [hfirst.host, hfirst.channel] at hrest
    exact hfirst.trans hrest

/-- A channel is opened, and the store changes the closet and sends its mail. -/
theorem calls (quiet : Prop) (w : World Closet Chore) (store : StoreName) (action : Chore)
    (closet : Closet) (mail : List (Message Chore)) :
    Brings quiet w
      ((mail.map .send).foldl (World.perform (.store store))
        { { w with channel := ⟨w.channel.ticket + 1, none⟩ }.record
            (.called (.complete store action (w.channel.ticket + 1))) with host := closet })
      closet ⟨w.channel.ticket + 1, none⟩ mail [] := by
  have hcalled : Brings quiet { w with channel := ⟨w.channel.ticket + 1, none⟩ }
      ({ w with channel := ⟨w.channel.ticket + 1, none⟩ }.record
        (.called (.complete store action (w.channel.ticket + 1)))) w.host
      ⟨w.channel.ticket + 1, none⟩ [] [] := .record _ rfl rfl
  have hopened : Brings quiet w
      { { w with channel := ⟨w.channel.ticket + 1, none⟩ }.record
          (.called (.complete store action (w.channel.ticket + 1))) with host := closet }
      closet ⟨w.channel.ticket + 1, none⟩ [] [] :=
    ⟨rfl, rfl, hcalled.executed, rfl, id, hcalled.inbox⟩
  exact hopened.trans (.sends _ mail _)

/-- A store that answers before it returns. -/
theorem assign (quiet : Prop) (store : StoreName) {callbacks : Store Closet Chore} {action : Chore}
    {outcome : Outcome}
    (hc : callbacks.complete action (w.channel.ticket + 1) w.host =
      ⟨closet, mail.map .send ++ [.resolve (w.channel.ticket + 1) outcome], ()⟩) :
    Brings quiet w (w.assign store callbacks action) closet
      ⟨w.channel.ticket + 1, some outcome⟩ mail [] := by
  have hcalls := Brings.calls quiet w store action closet mail
  have hsettle := Brings.settle quiet _ outcome (congrArg Channel.outcome hcalls.channel)
  rw [hcalls.host, hcalls.channel] at hsettle
  unfold World.assign World.absorb
  dsimp only
  rw [hc, List.foldl_append]
  have hboth := hcalls.trans hsettle
  rw [List.append_nil] at hboth
  exact hboth

/-- A store that keeps its channel. -/
theorem assign_kept (quiet : Prop) (store : StoreName) {callbacks : Store Closet Chore}
    {action : Chore}
    (hc : callbacks.complete action (w.channel.ticket + 1) w.host = ⟨closet, [], ()⟩) :
    Brings quiet w (w.assign store callbacks action) closet ⟨w.channel.ticket + 1, none⟩ [] [] := by
  have hcalls : Brings quiet w _ _ _ _ _ := .calls quiet w store action closet []
  unfold World.assign World.absorb
  dsimp only
  rw [hc]
  exact hcalls

end World.Brings

namespace Wardrobe.Furnished

open World (Brings)

variable {quiet : Prop} {quick : Ticket → Bool} {setup : Setup Closet Chore}
  (hf : Furnished quiet quick setup)

include hf

theorem hand (event : Event Chore) (w : World Closet Chore) (observer : ObserverName) :
    Brings quiet w (w.hand setup event observer) w.host w.channel [] [] := by
  have hdelivered : Brings quiet w (w.record (.delivered observer event)) w.host w.channel [] [] :=
    .record w rfl rfl
  have habsorbed := hdelivered.beside (.absorb (.observer observer) _
    (hf.host observer event w.host) (hf.asks observer event w.host))
  unfold World.hand
  dsimp only
  split
  · exact habsorbed
  · exact habsorbed.beside (.record _ rfl rfl)

theorem announce (event : Event Chore) (w : World Closet Chore) :
    Brings quiet w (w.announce setup event) w.host w.channel [] [] := by
  have hannounced : Brings quiet w (w.record (.announced event w.observers)) w.host w.channel
      [] [] := .record w rfl rfl
  exact List.foldlRecOn (motive := (Brings quiet w · w.host w.channel [] [])) w.observers _
    hannounced fun w' hw observer _ => hw.beside (hf.hand event w' observer)

/-- An action is taken from the inbox and announced. -/
theorem hearing (action : Chore) (inbox : List (Message Chore)) (e : Engine Closet Chore) :
    Brings quiet { e.world with inbox } (e.hearing setup action inbox).world e.world.host
      e.world.channel [] [] := by
  have htaken : Brings quiet { e.world with inbox } (e.taking (.dispatch action) inbox).world
      e.world.host e.world.channel [] [] := .record _ rfl rfl
  exact htaken.beside (hf.announce (.dispatch action) _)

/-- It is announced that an action was dropped. -/
theorem dropping (action : Chore) (capacity : Nat) (e : Engine Closet Chore) :
    Brings quiet e.world
      ((e.note (.backlogFull action capacity)).countDropped.announce setup (.drop action)).world
      e.world.host e.world.channel [] [] := by
  have hnoted : Brings quiet e.world (e.world.note (.backlogFull action capacity)) e.world.host
      e.world.channel [] [] := .record _ rfl rfl
  exact hnoted.beside (hf.announce (.drop action) _)

theorem announceOutcome (store : StoreName) (action : Chore) (outcome : Outcome)
    (w : World Closet Chore) :
    Brings quiet w (w.announceOutcome setup store action outcome) w.host w.channel [] [] := by
  unfold World.announceOutcome
  cases outcome.failure? with
  | none => exact hf.announce _ w
  | some why =>
    have hnoted : Brings quiet w (w.note (.storeFailed store action why)) w.host w.channel [] [] :=
      .record w rfl rfl
    exact hnoted.beside (hf.announce _ _)

omit hf in
/-- A store that hears of the end of an action writes to the log and does no more. -/
theorem signal_writes (quiet : Prop) {entry : StoreName × Store Closet Chore}
    (h : entry ∈ (outfit quick).entries) (action : Chore) (closet : Closet) :
    (entry.2.signal action closet).host = closet ∧
      (entry.2.signal action closet).Asks (Discreet quiet) := by
  simp only [outfit, List.mem_cons, List.not_mem_nil, or_false] at h
  rcases h with rfl | rfl | rfl | rfl <;>
    exact ⟨rfl, fun request hrequest => by rw [List.mem_singleton.mp hrequest]; trivial⟩

theorem signal (action : Chore) (store : StoreName) (w : World Closet Chore) :
    Brings quiet w (w.signal setup action store) w.host w.channel [] [] := by
  unfold World.signal
  rw [hf.stores]
  cases hs : (outfit quick).find? store with
  | none => exact .refl w
  | some callbacks =>
    obtain ⟨hhost, hasks⟩ := signal_writes quiet (Roster.mem_of_find? hs) action w.host
    have hcalled : Brings quiet w (w.record (.called (.signal store action))) w.host w.channel
        [] [] := .record w rfl rfl
    exact hcalled.beside (.absorb (.store store) _ hhost hasks)

/-- The stores that acknowledged hear of the end of the action, and the engine rests. -/
theorem conclude (walk : Walk Chore) (e : Engine Closet Chore) :
    ∃ w' tally, e.conclude setup walk = { e with world := w', phase := .idle, tally } ∧
      Brings quiet e.world w' e.world.host e.world.channel [] [walk.action] := by
  let w := walk.acked.foldl (World.signal setup walk.action) e.world
  have hsignals : Brings quiet e.world w e.world.host e.world.channel [] [] :=
    List.foldlRecOn (motive := (Brings quiet e.world · e.world.host e.world.channel [] []))
      walk.acked _ (.refl _) fun w hw store _ => hw.beside (hf.signal walk.action store w)
  let notice : Notice Chore :=
    .complete walk.action walk.acked.length (walk.order.length - walk.acked.length)
  have hnoted : Brings quiet w (w.note notice) w.host w.channel [] [walk.action] :=
    .record w rfl rfl
  rw [hsignals.host, hsignals.channel] at hnoted
  exact ⟨_, _, rfl, (hsignals.trans hnoted).beside (hf.announce .unlock _)⟩

/-- The store whose turn it is answers before it returns. -/
theorem visit_pass {store : StoreName} {callbacks : Store Closet Chore} {closet : Closet}
    {mail : List (Message Chore)} {outcome : Outcome}
    (hs : (outfit quick).find? store = some callbacks) (rest : List StoreName) (walk : Walk Chore)
    {e : Engine Closet Chore}
    (hc : callbacks.complete walk.action (e.world.channel.ticket + 1) e.world.host =
      ⟨closet, mail.map .send ++ [.resolve (e.world.channel.ticket + 1) outcome], ()⟩) :
    ∃ w', Engine.visit setup (store :: rest) walk e =
        Engine.visit setup rest (walk.pass store outcome) { e with world := w' } ∧
      Brings quiet e.world w' closet ⟨e.world.channel.ticket + 1, some outcome⟩ mail [] := by
  have hexecute := hf.announce (.execute store walk.action) e.world
  rw [← hexecute.channel, ← hexecute.host] at hc
  have hassign := Brings.assign quiet store hc
  rw [hexecute.channel] at hassign
  refine ⟨_, ?_, (hexecute.trans hassign).beside (hf.announceOutcome store walk.action outcome _)⟩
  rw [Engine.visit, hf.stores, hs]
  dsimp only
  rw [hassign.channel]

/-- The store whose turn it is keeps its channel, and the engine waits. -/
theorem visit_kept {store : StoreName} {callbacks : Store Closet Chore} {closet : Closet}
    (hs : (outfit quick).find? store = some callbacks) (rest : List StoreName) (walk : Walk Chore)
    {e : Engine Closet Chore}
    (hc : callbacks.complete walk.action (e.world.channel.ticket + 1) e.world.host =
      ⟨closet, [], ()⟩) :
    ∃ w', Engine.visit setup (store :: rest) walk e =
        { e with world := w', phase := .waiting walk store (e.world.channel.ticket + 1) } ∧
      Brings quiet e.world w' closet ⟨e.world.channel.ticket + 1, none⟩ [] [] := by
  have hexecute := hf.announce (.execute store walk.action) e.world
  rw [← hexecute.channel, ← hexecute.host] at hc
  have hassign := Brings.assign_kept quiet store hc
  rw [hexecute.channel] at hassign
  refine ⟨_, ?_, hexecute.trans hassign⟩
  rw [Engine.visit, hf.stores, hs]
  dsimp only
  rw [hassign.channel]

omit hf in
/-- The votes depend on the chore alone. -/
theorem vote_eq {entry : StoreName × Store Closet Chore} (h : entry ∈ (outfit quick).entries)
    (chore : Chore) (closet : Closet) :
    entry.2.vote chore closet = ⟨closet, [], (entry.2.vote chore .initial).answer⟩ := by
  simp only [outfit, List.mem_cons, List.not_mem_nil, or_false] at h
  rcases h with rfl | rfl | rfl | rfl <;> rfl

omit hf in
theorem canvass (quiet : Prop) (quick : Ticket → Bool) (chore : Chore)
    {entries : List (StoreName × Store Closet Chore)}
    (hentries : ∀ entry ∈ entries, entry ∈ (outfit quick).entries) (w : World Closet Chore) :
    ∃ w', World.canvass chore entries w =
        (entries.map fun entry => ⟨entry.1, (entry.2.vote chore .initial).answer⟩, w') ∧
      Brings quiet w w' w.host w.channel [] [] := by
  induction entries generalizing w with
  | nil => exact ⟨w, rfl, .refl w⟩
  | cons entry rest ih =>
    have hvote := vote_eq (hentries entry List.mem_cons_self) chore w.host
    let ballot : Ballot := ⟨entry.1, (entry.2.vote chore .initial).answer⟩
    let called := w.record (.called (.vote entry.1 chore))
    have hcalled : Brings quiet w called w.host w.channel [] [] := .record w rfl rfl
    have hvoted : Brings quiet called (called.record (.voted ballot)) w.host w.channel [] [] :=
      .record called rfl rfl
    obtain ⟨w', hrest, hbrings⟩ := ih (fun entry h => hentries entry (List.mem_cons_of_mem _ h))
      (called.record (.voted ballot))
    refine ⟨w', ?_, (hcalled.beside hvoted).beside hbrings⟩
    rw [World.canvass, hvote]
    dsimp only [World.absorb, List.foldl_nil]
    exact congrArg (fun canvassed => (ballot :: canvassed.1, canvassed.2)) hrest

omit hf in
/-- The ballots on a chore admit its schedule. -/
theorem verdict_eq (quick : Ticket → Bool) (chore : Chore) :
    Plan.ofBallots (outfit quick).contains
      ((outfit quick).entries.map fun entry => ⟨entry.1, (entry.2.vote chore .initial).answer⟩) =
      ⟨[], .ok chore.schedule⟩ := by
  cases chore <;> cbv

theorem weigh (chore : Chore) (e : Engine Closet Chore) :
    ∃ w', e.weigh setup chore = (.ok chore.schedule, { e with world := w' }) ∧
      Brings quiet e.world w' e.world.host e.world.channel [] [] := by
  obtain ⟨w', hcanvass, hbrings⟩ :=
    canvass quiet quick chore (fun entry h => h) e.world
  refine ⟨w', ?_, hbrings⟩
  unfold Engine.weigh
  rw [hf.stores, hcanvass]
  dsimp only
  rw [verdict_eq]
  rfl

/-- Every chore is walked through its schedule. -/
theorem undertake_visits (chore : Chore) (e : Engine Closet Chore) :
    ∃ w', e.undertake setup chore =
        Engine.visit setup chore.schedule (.start chore chore.schedule) { e with world := w' } ∧
      Brings quiet e.world w' e.world.host e.world.channel [] [] := by
  have hlock := hf.announce .lock e.world
  obtain ⟨w', hweigh, hbrings⟩ := hf.weigh chore (e.announce setup .lock)
  have hnoted : Brings quiet w' (w'.note (.executing chore chore.schedule.length)) w'.host
      w'.channel [] [] := .record w' rfl rfl
  refine ⟨_, ?_, (hlock.beside hbrings).beside hnoted⟩
  unfold Engine.undertake
  rw [hweigh]
  cases chore <;> rfl

theorem visit_garment (garment : Garment)
    (hs : (outfit quick).find? garment.id = some garment.store) (rest : List StoreName)
    (walk : Walk Chore) (e : Engine Closet Chore) :
    ∃ w', Engine.visit setup (garment.id :: rest) walk e =
        Engine.visit setup rest (walk.pass garment.id .ack) { e with world := w' } ∧
      Brings quiet e.world w' (e.world.host.setWorn garment.id (walk.action = .dress))
        ⟨e.world.channel.ticket + 1, some .ack⟩ [] [] :=
  hf.visit_pass hs rest walk rfl

theorem visit_socks (rest : List StoreName) (walk : Walk Chore) (e : Engine Closet Chore) :
    ∃ w' outcome, Engine.visit setup (socksId :: rest) walk e =
        Engine.visit setup rest (walk.pass socksId outcome) { e with world := w' } ∧
      Brings quiet e.world w' (e.world.host.withSocks walk.action)
        ⟨e.world.channel.ticket + 1, some outcome⟩ walk.action.mail [] := by
  have hcomplete : ∃ outcome, socks.complete walk.action (e.world.channel.ticket + 1)
      e.world.host = ⟨e.world.host.withSocks walk.action, walk.action.mail.map .send ++
        [.resolve (e.world.channel.ticket + 1) outcome], ()⟩ := by
    cases walk.action with
    | dress =>
      cases hd : e.world.host.dirty with
      | true => exact ⟨.nack noCleanSocks, by simp [socks, Closet.withSocks, Chore.mail, hd]⟩
      | false => exact ⟨.ack, by simp [socks, Closet.withSocks, Chore.mail, hd]⟩
    | undress | launder => exact ⟨.ack, rfl⟩
  obtain ⟨outcome, hc⟩ := hcomplete
  have hs : (outfit quick).find? socksId = some socks := rfl
  obtain ⟨w', hvisit, hb⟩ := hf.visit_pass hs rest walk hc
  exact ⟨w', outcome, hvisit, hb⟩

/-- The garments that are put on before the coat. -/
theorem visit_untilCoat {chore : Chore} (hchore : chore ≠ .launder) (e : Engine Closet Chore) :
    ∃ w' acked channel, Engine.visit setup chore.schedule (.start chore chore.schedule) e =
        Engine.visit setup (coatId :: chore.behindCoat) (chore.walk acked) { e with world := w' } ∧
      Brings quiet e.world w' (e.world.host.untilCoat chore) channel [] [] := by
  cases chore with
  | launder => contradiction
  | undress => exact ⟨e.world, [], e.world.channel, rfl, .refl _⟩
  | dress =>
    obtain ⟨w₁, hvisit₁, hb₁⟩ := hf.visit_garment trousers rfl
      [socksId, shoesId, coatId] (.start .dress Chore.dress.schedule) e
    obtain ⟨w₂, outcome, hvisit₂, hb₂⟩ := hf.visit_socks [shoesId, coatId] _
      { e with world := w₁ }
    obtain ⟨w₃, hvisit₃, hb₃⟩ := hf.visit_garment shoes rfl [coatId] _
      { e with world := w₂ }
    rw [hb₁.host] at hb₂
    rw [hb₂.host] at hb₃
    exact ⟨w₃, _, _, hvisit₁.trans (hvisit₂.trans hvisit₃), (hb₁.trans hb₂).trans hb₃⟩

/-- The garments that are taken off after the coat, and the end of the chore. -/
theorem visit_sinceCoat (walk : Walk Chore) (e : Engine Closet Chore) :
    ∃ w' tally channel, Engine.visit setup walk.action.behindCoat walk e =
        { e with world := w', phase := .idle, tally } ∧
      Brings quiet e.world w' (e.world.host.sinceCoat walk.action) channel walk.action.mail
        [walk.action] := by
  obtain ⟨action, order, cursor, acked⟩ := walk
  cases action with
  | dress | launder =>
    obtain ⟨w', tally, hconclude, hb⟩ := hf.conclude ⟨_, order, cursor, acked⟩ e
    exact ⟨w', tally, _, hconclude, hb⟩
  | undress =>
    obtain ⟨w₁, hvisit₁, hb₁⟩ := hf.visit_garment shoes rfl [socksId, trousersId]
      ⟨.undress, order, cursor, acked⟩ e
    obtain ⟨w₂, outcome, hvisit₂, hb₂⟩ := hf.visit_socks [trousersId] _ { e with world := w₁ }
    obtain ⟨w₃, hvisit₃, hb₃⟩ := hf.visit_garment trousers rfl [] _
      { e with world := w₂ }
    obtain ⟨w', tally, hconclude, hb⟩ := hf.conclude _ { e with world := w₃ }
    rw [hb₁.host] at hb₂
    rw [hb₂.host] at hb₃
    rw [hb₃.host] at hb
    exact ⟨w', tally, _, hvisit₁.trans (hvisit₂.trans (hvisit₃.trans hconclude)),
      ((hb₁.trans hb₂).trans hb₃).trans hb⟩

/-- The coat leaves its answer to an errand, unless its task is quick. -/
theorem visit_coat (rest : List StoreName) (walk : Walk Chore) (e : Engine Closet Chore) :
    (∃ w' due, Engine.visit setup (coatId :: rest) walk e =
        { e with world := w', phase := .waiting walk coatId (e.world.channel.ticket + 1) } ∧
      Brings quiet e.world w'
        { e.world.host with
          errands := e.world.host.errands ++
            [⟨e.world.channel.ticket + 1, walk.action = .dress, due⟩] }
        ⟨e.world.channel.ticket + 1, none⟩ [] []) ∨
    (quick (e.world.channel.ticket + 1) = true ∧
      ∃ w', Engine.visit setup (coatId :: rest) walk e =
          Engine.visit setup rest (walk.pass coatId .ack) { e with world := w' } ∧
        Brings quiet e.world w' (e.world.host.setWorn coatId (walk.action = .dress))
          ⟨e.world.channel.ticket + 1, some .ack⟩ [] []) := by
  have hs : (outfit quick).find? coatId = some (timedCoat quick) := rfl
  cases hq : quick (e.world.channel.ticket + 1) with
  | false =>
    have hc : (timedCoat quick).complete walk.action (e.world.channel.ticket + 1) e.world.host =
        coat.complete walk.action (e.world.channel.ticket + 1) e.world.host := by
      simp [timedCoat, hq]
    obtain ⟨w', hvisit, hb⟩ := hf.visit_kept hs rest walk hc
    exact .inl ⟨w', _, hvisit, hb⟩
  | true =>
    have hc : (timedCoat quick).complete walk.action (e.world.channel.ticket + 1) e.world.host =
        ⟨e.world.host.setWorn coatId (walk.action = .dress),
          [].map .send ++ [.resolve (e.world.channel.ticket + 1) .ack], ()⟩ := by
      simp [timedCoat, hq]
    exact .inr ⟨rfl, hf.visit_pass hs rest walk hc⟩

end Wardrobe.Furnished

namespace Wardrobe

open World (Brings)

variable {quiet : Prop} {quick : Ticket → Bool} {setup : Setup Closet Chore}

/-- What has become of a chore that was undertaken: it has ended, as laundering always does, or the
engine waits for the coat. -/
inductive Served (quiet : Prop) (quick : Ticket → Bool) (e : Engine Closet Chore) (chore : Chore) :
    Engine Closet Chore → Prop where
  | ended {w' : World Closet Chore} {tally : Tally} {channel : Channel}
      (prompt : (∀ ticket, quick ticket = false) → chore = .launder)
      (brings : Brings quiet e.world w' (e.world.host.after chore) channel chore.mail [chore]) :
      Served quiet quick e chore { e with world := w', phase := .idle, tally }
  | asked {w' : World Closet Chore} {acked : List StoreName} {ticket : Ticket} {due : Nat}
      (slow : chore ≠ .launder)
      (brings : Brings quiet e.world w'
        { e.world.host.untilCoat chore with
          errands := (e.world.host.untilCoat chore).errands ++ [⟨ticket, chore = .dress, due⟩] }
        ⟨ticket, none⟩ [] []) :
      Served quiet quick e chore
        { e with world := w', phase := .waiting (chore.walk acked) coatId ticket }

namespace Furnished

variable (hf : Furnished quiet quick setup)

include hf

theorem undertake (chore : Chore) (e : Engine Closet Chore) :
    Served quiet quick e chore (e.undertake setup chore) := by
  obtain ⟨w₁, hundertake, hb₁⟩ := hf.undertake_visits chore e
  rw [hundertake]
  by_cases hchore : chore = .launder
  · subst hchore
    let walk := Walk.start Chore.launder Chore.launder.schedule
    obtain ⟨w₂, outcome, hvisit, hb₂⟩ := hf.visit_socks [] walk { e with world := w₁ }
    obtain ⟨w₃, tally, channel, hend, hb₃⟩ := hf.visit_sinceCoat (walk.pass socksId outcome)
      { e with world := w₂ }
    rw [hb₁.host] at hb₂
    rw [hb₂.host] at hb₃
    have hvisits : Engine.visit setup Chore.launder.schedule walk { e with world := w₁ } =
        { e with world := w₃, phase := .idle, tally } := hvisit.trans hend
    rw [hvisits]
    exact .ended (fun _ => rfl) ((hb₁.trans hb₂).trans hb₃)
  · obtain ⟨w₂, acked, channel₂, huntil, hb₂⟩ := hf.visit_untilCoat hchore { e with world := w₁ }
    rw [hb₁.host] at hb₂
    have hb₁₂ := hb₁.trans hb₂
    rw [huntil]
    rcases hf.visit_coat chore.behindCoat (chore.walk acked) { e with world := w₂ } with
      ⟨w₃, due, hvisit, hb₃⟩ | ⟨hquick, w₃, hvisit, hb₃⟩
    · rw [hb₂.host] at hb₃
      rw [hvisit]
      exact .asked hchore (hb₁₂.trans hb₃)
    · obtain ⟨w₄, tally, channel, hend, hb₄⟩ := hf.visit_sinceCoat
        ((chore.walk acked).pass coatId .ack) { e with world := w₃ }
      rw [hb₂.host] at hb₃
      rw [hb₃.host] at hb₄
      have hb : Brings quiet e.world w₄ (e.world.host.after chore) channel chore.mail [chore] := by
        rw [Closet.after_eq hchore]
        exact (hb₁₂.trans hb₃).trans hb₄
      have hvisits := hvisit.trans hend
      rw [hvisits]
      exact .ended (fun hslow => by simp [hslow] at hquick) hb

/-- The coat has answered. -/
theorem carryOn {chore : Chore} (hchore : chore ≠ .launder) (acked : List StoreName)
    (e : Engine Closet Chore) :
    ∃ w' tally channel, e.carryOn setup (chore.walk acked) coatId .ack =
        { e with world := w', phase := .idle, tally } ∧
      Brings quiet e.world w' (e.world.host.sinceCoat chore) channel chore.mail [chore] := by
  have hnews := hf.announceOutcome coatId chore .ack e.world
  obtain ⟨w', tally, channel, hvisit, hb⟩ := hf.visit_sinceCoat
    ((chore.walk acked).pass coatId .ack)
    { e with
      phase := .idle
      world := e.world.announceOutcome setup coatId chore .ack }
  have hahead : ((chore.walk acked).pass coatId .ack).ahead = chore.behindCoat := by
    cases chore with
    | launder => contradiction
    | dress | undress => rfl
  rw [hnews.host] at hb
  refine ⟨w', tally, channel, ?_, hnews.trans hb⟩
  unfold Engine.carryOn
  dsimp only
  rw [hahead]
  exact hvisit

end Furnished

end Wardrobe

end Concord
