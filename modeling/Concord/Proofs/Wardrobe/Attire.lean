import Concord.Proofs.Engine.Overflow
import Concord.Proofs.Wardrobe.Runs

/-!
# The state of a wardrobe follows from its history

While the engine rests, what is worn, whether the socks are dirty and how often they were washed is
a function of the chores that were executed. `Tends` says once what an act can do to a wardrobe.
`Clad` is the invariant from which the rest follows; it also says how far a chore has come when the
engine waits for the coat.
-/
namespace Concord.Wardrobe

open Engine (Act Acts)
open World (Brings)

variable {quiet : Prop} {quick : Ticket → Bool} {setup : Setup Closet Chore} {capacity : Nat}
  {e e' e'' : Engine Closet Chore}

/-! ## The acts of the engine -/

/-- Steps beside the chores: none is taken up or comes to its end, and the closet and the channel
stay as they are. -/
structure Aside (e e' : Engine Closet Chore) : Prop where
  undertaken : e'.world.undertaken = e.world.undertaken
  executed : e'.world.executed = e.world.executed
  phase : e'.phase = e.phase
  host : e'.world.host = e.world.host
  channel : e'.world.channel = e.world.channel

namespace Aside

theorem adds {ms : List (Milestone Chore)} (hw : e.world.Adds ms e'.world)
    (hundertaken : ms.filterMap Milestone.undertaken? = [])
    (hexecuted : ms.filterMap Milestone.executed? = []) (hp : e'.phase = e.phase)
    (hhost : e'.world.host = e.world.host) (hchannel : e'.world.channel = e.world.channel) :
    Aside e e' where
  undertaken := by rw [hw.undertaken, hundertaken, List.append_nil]
  executed := by rw [hw.executed, hexecuted, List.append_nil]
  phase := hp
  host := hhost
  channel := hchannel

theorem trans (h : Aside e e') (h' : Aside e' e'') : Aside e e'' where
  undertaken := h'.undertaken.trans h.undertaken
  executed := h'.executed.trans h.executed
  phase := h'.phase.trans h.phase
  host := h'.host.trans h.host
  channel := h'.channel.trans h.channel

theorem hearing (hf : Furnished quiet quick setup) (action : Chore) (inbox : List (Message Chore))
    (e : Engine Closet Chore) : Aside e (e.hearing setup action inbox) :=
  have hb := hf.hearing action inbox e
  .adds (Engine.hearing_adds setup action inbox e) rfl rfl rfl hb.host hb.channel

theorem dropping (hf : Furnished quiet quick setup) (action : Chore) (capacity : Nat)
    (e : Engine Closet Chore) :
    Aside e (((e.note (.backlogFull action capacity)).countDropped).announce setup
      (.drop action)) :=
  have hb := hf.dropping action capacity e
  .adds (Engine.dropping_grows setup action capacity e).toAdds rfl rfl rfl hb.host hb.channel

theorem kill (e : Engine Closet Chore) : Aside e e.kill := by
  obtain ⟨hphase, -, -, -⟩ := Engine.kill_same e
  have hrest : e.kill.world.host = e.world.host ∧ e.kill.world.channel = e.world.channel := by
    unfold Engine.kill
    split
    · exact World.discardInbox_rest e.world
    · exact World.discardInbox_rest e.world
    · exact ⟨rfl, rfl⟩
    · exact ⟨rfl, rfl⟩
  exact .adds (Engine.kill_adds e) rfl rfl hphase hrest.1 hrest.2

end Aside

/-- What an act is to a wardrobe: it stands beside the chores, it takes one up, or an answer is
heard. -/
inductive Tends (quiet : Prop) (quick : Ticket → Bool) (setup : Setup Closet Chore)
    (e : Engine Closet Chore) : Engine Closet Chore → Prop where
  | aside {e' : Engine Closet Chore} (aside : Aside e e') : Tends quiet quick setup e e'
  | served {before e' : Engine Closet Chore} {chore : Chore} (aside : Aside e before)
      (idle : before.isBusy = false) (served : Served quiet quick before chore e')
      (undertaken : e'.world.undertaken = before.world.undertaken ++ [chore]) :
      Tends quiet quick setup e e'
  | carriedOn {walk : Walk Chore} {store : StoreName} {ticket : Ticket} {outcome : Outcome}
      (phase : e.phase = .waiting walk store ticket)
      (answer : e.world.channel.outcome = some outcome)
      (undertaken : (e.carryOn setup walk store outcome).world.undertaken = e.world.undertaken) :
      Tends quiet quick setup e (e.carryOn setup walk store outcome)

theorem Furnished.tends (hf : Furnished quiet quick setup) (ha : Act setup e e') :
    Tends quiet quick setup e e' := by
  cases ha with
  | started hlife =>
    have hnote := World.Grows.note e.world (.started setup.stores.size e.backlog.capacity) rfl
    exact .aside (.adds hnote.toAdds rfl rfl rfl rfl rfl)
  | begun hh hidle hempty hc hu =>
    exact .served (.hearing hf _ _ e) hidle (hf.undertake _ _) (hc ▸ hu.undertaken)
  | queued hh hbusy hput =>
    exact .aside ((Aside.hearing hf _ _ e).trans (.adds (.same rfl rfl) rfl rfl rfl rfl rfl))
  | dropped hh hbusy hfull =>
    exact .aside ((Aside.hearing hf _ _ e).trans (.dropping hf _ _ _))
  | replied hh => exact .aside (.adds (Engine.replying_adds setup _ _ e) rfl rfl rfl rfl rfl)
  | shut hh => exact .aside (.adds (Engine.shutting_adds setup _ e) rfl rfl rfl rfl rfl)
  | deafened hlife hl hi hh => exact .aside (.adds (.same rfl rfl) rfl rfl rfl rfl rfl)
  | continued hlife hl hcourse hp hw ho hc =>
    rw [Course.phase, hw] at hp
    exact .carriedOn hp ho hc.undertaken
  | @resumed hlife hidle action backlog ho c hc hu =>
    have htake : Aside e { e with backlog } := .adds (.same rfl rfl) rfl rfl rfl rfl rfl
    exact .served htake hidle (hf.undertake _ _) (hc ▸ hu.undertaken)
  | stopped hlife hp hl =>
    obtain ⟨hhost, hchannel⟩ := World.discardInbox_rest (e.world.note (.stopped ..))
    exact .aside (.adds (Engine.stop_adds e) rfl rfl rfl hhost hchannel)

/-! ## The invariant -/

namespace Closet

/-- The closet after these chores, one after the other, with no errand left. -/
def afterAll (history : List Chore) : Closet := history.foldl after initial

theorem afterAll_concat (history : List Chore) (chore : Chore) :
    afterAll (history ++ [chore]) = (afterAll history).after chore := by
  simp [afterAll]

/-- The same clothes with other errands, at another time. -/
def withErrands (closet : Closet) (errands : List Errand) (clock : Nat) : Closet :=
  { closet with errands, clock }

variable (closet : Closet) (errands : List Errand) (clock : Nat)

theorem setWorn_withErrands (garment : StoreName) (worn : Bool) :
    (closet.withErrands errands clock).setWorn garment worn =
      (closet.setWorn garment worn).withErrands errands clock := rfl

theorem withSocks_withErrands (chore : Chore) :
    (closet.withErrands errands clock).withSocks chore =
      (closet.withSocks chore).withErrands errands clock := by
  cases chore with
  | dress => cases hd : closet.dirty <;> simp [withSocks, withErrands, setWorn, hd]
  | undress | launder => rfl

theorem untilCoat_withErrands (chore : Chore) :
    (closet.withErrands errands clock).untilCoat chore =
      (closet.untilCoat chore).withErrands errands clock := by
  cases chore with
  | dress =>
    rw [untilCoat, setWorn_withErrands, withSocks_withErrands, setWorn_withErrands, untilCoat]
  | undress | launder => rfl

theorem sinceCoat_withErrands (chore : Chore) :
    (closet.withErrands errands clock).sinceCoat chore =
      (closet.sinceCoat chore).withErrands errands clock := by
  cases chore with
  | undress =>
    rw [sinceCoat, setWorn_withErrands, withSocks_withErrands, setWorn_withErrands, sinceCoat]
  | dress | launder => rfl

theorem after_withErrands (chore : Chore) :
    (closet.withErrands errands clock).after chore =
      (closet.after chore).withErrands errands clock := by
  by_cases hchore : chore = .launder
  · rw [hchore, after, withSocks_withErrands, after]
  · rw [after_eq hchore, after_eq hchore, untilCoat_withErrands, setWorn_withErrands,
      sinceCoat_withErrands]

end Closet

/-- How a wardrobe is clad: as its history says while the engine rests, and otherwise as far as the
chore at work has come. The engine waits for nothing but the coat, whose answer is left to an
errand. -/
inductive Clad (e : Engine Closet Chore) : Prop where
  | resting (phase : e.phase = .idle)
      (host : ∃ clock,
        e.world.host = (Closet.afterAll e.world.executed).withErrands [] clock)
  | asked {chore : Chore} {acked : List StoreName} {ticket : Ticket} (slow : chore ≠ .launder)
      (phase : e.phase = .waiting (chore.walk acked) coatId ticket)
      (channel : e.world.channel = ⟨ticket, none⟩)
      (host : ∃ due clock,
        e.world.host = ((Closet.afterAll e.world.executed).untilCoat chore).withErrands
          [⟨ticket, chore = .dress, due⟩] clock)
  | answered {chore : Chore} {acked : List StoreName} {ticket : Ticket} (slow : chore ≠ .launder)
      (phase : e.phase = .waiting (chore.walk acked) coatId ticket)
      (channel : e.world.channel = ⟨ticket, some .ack⟩)
      (host : ∃ clock,
        e.world.host = (((Closet.afterAll e.world.executed).untilCoat chore).setWorn coatId
          (chore = .dress)).withErrands [] clock)

namespace Clad

theorem initial (handles : Nat) (observers : List ObserverName) :
    Clad (.initial capacity (.initial Closet.initial handles observers)) :=
  .resting rfl ⟨0, rfl⟩

theorem aside (h : Clad e) (ha : Aside e e') : Clad e' := by
  cases h with
  | resting phase host =>
    rw [← ha.host, ← ha.executed] at host
    exact .resting (ha.phase.trans phase) host
  | asked slow phase channel host =>
    rw [← ha.host, ← ha.executed] at host
    exact .asked slow (ha.phase.trans phase) (ha.channel.trans channel) host
  | answered slow phase channel host =>
    rw [← ha.host, ← ha.executed] at host
    exact .answered slow (ha.phase.trans phase) (ha.channel.trans channel) host

theorem at_rest (h : Clad e) (hidle : e.isBusy = false) :
    ∃ clock, e.world.host = (Closet.afterAll e.world.executed).withErrands [] clock := by
  cases h with
  | resting phase host => exact host
  | asked slow phase => simp [Engine.isBusy, phase] at hidle
  | answered slow phase => simp [Engine.isBusy, phase] at hidle

theorem served (h : Clad e) (hidle : e.isBusy = false) {chore : Chore}
    (hs : Served quiet quick e chore e') : Clad e' := by
  obtain ⟨clock, hhost⟩ := h.at_rest hidle
  cases hs with
  | ended prompt brings =>
    refine .resting rfl ⟨clock, ?_⟩
    rw [brings.host, brings.executed, hhost, Closet.after_withErrands, Closet.afterAll_concat]
  | @asked w' acked ticket due slow brings =>
    refine .asked slow rfl brings.channel ⟨due, clock, ?_⟩
    rw [brings.host, brings.executed, hhost, Closet.untilCoat_withErrands, List.append_nil]
    rfl

/-- The coat's answer is heard, and the chore that waited for it comes to its end. -/
theorem hears_coat (h : Clad e) (hf : Furnished quiet quick setup) {walk : Walk Chore}
    {store : StoreName} {ticket : Ticket} (hp : e.phase = .waiting walk store ticket)
    {outcome : Outcome} (ho : e.world.channel.outcome = some outcome) :
    walk.action ≠ .launder ∧
      (∃ clock, e.world.host = (((Closet.afterAll e.world.executed).untilCoat walk.action).setWorn
        coatId (walk.action = .dress)).withErrands [] clock) ∧
      ∃ w' tally channel, e.carryOn setup walk store outcome =
          { e with world := w', phase := .idle, tally } ∧
        Brings quiet e.world w' (e.world.host.sinceCoat walk.action) channel walk.action.mail
          [walk.action] := by
  cases h with
  | resting phase host =>
    rw [phase] at hp
    cases hp
  | asked slow phase channel host =>
    rw [channel] at ho
    cases ho
  | @answered chore acked ticket slow phase channel host =>
    rw [phase] at hp
    cases hp
    rw [channel] at ho
    cases ho
    exact ⟨slow, host, hf.carryOn slow acked e⟩

theorem carriedOn (h : Clad e) (hf : Furnished quiet quick setup) {walk : Walk Chore}
    {store : StoreName} {ticket : Ticket} (hp : e.phase = .waiting walk store ticket)
    {outcome : Outcome} (ho : e.world.channel.outcome = some outcome) :
    Clad (e.carryOn setup walk store outcome) := by
  obtain ⟨slow, ⟨clock, hhost⟩, w', tally, channel, hcarry, hb⟩ := h.hears_coat hf hp ho
  rw [hcarry]
  refine .resting rfl ⟨clock, ?_⟩
  rw [hb.host, hb.executed, hhost, Closet.sinceCoat_withErrands, Closet.afterAll_concat,
    Closet.after_eq slow]

theorem act (h : Clad e) (hf : Furnished quiet quick setup) (ha : Act setup e e') : Clad e' := by
  cases hf.tends ha with
  | aside aside => exact h.aside aside
  | served aside idle served => exact (h.aside aside).served idle served
  | carriedOn phase answer => exact h.carriedOn hf phase answer

/-- The coat's task comes to its end. -/
theorem errand (h : Clad e) {errand : Errand} (hmem : errand ∈ e.world.host.errands) :
    Clad (e.interact
      (errand.run { e.world.host with errands := e.world.host.errands.erase errand })) := by
  cases h with
  | resting phase host =>
    obtain ⟨clock, hhost⟩ := host
    rw [hhost] at hmem
    cases hmem
  | answered slow phase channel host =>
    obtain ⟨clock, hhost⟩ := host
    rw [hhost] at hmem
    cases hmem
  | @asked chore acked ticket slow phase channel host =>
    obtain ⟨due, clock, hhost⟩ := host
    have herrands : e.world.host.errands = [⟨ticket, chore = .dress, due⟩] := by
      rw [hhost]
      rfl
    rw [herrands] at hmem ⊢
    obtain rfl := List.mem_singleton.mp hmem
    rw [List.erase_cons_head]
    let worn := (e.world.host.withErrands [] e.world.host.clock).setWorn coatId (chore = .dress)
    let e' := e.interact
      (Errand.run ⟨ticket, chore = .dress, due⟩ { e.world.host with errands := [] })
    -- The errand finds the channel open, so its answer is the one that holds.
    have hsettled : Brings True { e.world with host := worn } e'.world worn ⟨ticket, some .ack⟩
        [] [] := by
      have hsettle := Brings.settle True { e.world with host := worn } .ack
        (congrArg Channel.outcome channel)
      rw [channel] at hsettle
      exact hsettle
    have hexecuted : e'.world.executed = e.world.executed :=
      hsettled.executed.trans (List.append_nil _)
    have hworn : e'.world.host = (((Closet.afterAll e'.world.executed).untilCoat chore).setWorn
        coatId (chore = .dress)).withErrands [] e.world.host.clock := by
      rw [hsettled.host, hexecuted]
      simp only [worn]
      rw [hhost]
      rfl
    have hclad : Clad e' := .answered slow phase hsettled.channel ⟨_, hworn⟩
    exact hclad

theorem wait (h : Clad e) (ms : Nat) :
    Clad (e.interact ⟨{ e.world.host with clock := e.world.host.clock + ms }, [], ()⟩) := by
  have hwait : e.world.host.withErrands e.world.host.errands (e.world.host.clock + ms) =
      (e.interact ⟨{ e.world.host with clock := e.world.host.clock + ms }, [], ()⟩).world.host :=
    rfl
  cases h with
  | resting phase host =>
    obtain ⟨clock, hhost⟩ := host
    exact .resting phase ⟨clock + ms, by rw [← hwait, hhost]; rfl⟩
  | asked slow phase channel host =>
    obtain ⟨due, clock, hhost⟩ := host
    exact .asked slow phase channel ⟨due, clock + ms, by rw [← hwait, hhost]; rfl⟩
  | answered slow phase channel host =>
    obtain ⟨clock, hhost⟩ := host
    exact .answered slow phase channel ⟨clock + ms, by rw [← hwait, hhost]; rfl⟩

theorem happens (h : Clad e) (he : Engine.Sound setup capacity e)
    (hf : Furnished quiet quick setup) (hh : Happens setup e e') : Clad e' := by
  cases hh with
  | turn ht =>
    exact (he.acts (Engine.turn_turned ht)).preserves (fun ha h => h.act hf ha) h
  | @ask requests hr =>
    have hb : Brings False e.world (e.interact ⟨e.world.host, requests, ()⟩).world e.world.host
        e.world.channel [] [] := .performs .outside hr e.world
    exact h.aside (.adds (World.absorb_grows .outside _ e.world).toAdds rfl rfl rfl hb.host
      hb.channel)
  | wait ms => exact h.wait ms
  | errand hmem => exact h.errand hmem
  | kill => exact h.aside (.kill e)

end Clad

theorem Reached.clad (h : Reached setup capacity e) (hf : Furnished quiet quick setup) :
    Clad e := by
  obtain ⟨handles, observers, hrun⟩ := h
  induction hrun with
  | refl => exact .initial handles observers
  | tail hrun hh ih =>
    have hstart : Engine.Reachable setup capacity
        (.initial capacity (.initial Closet.initial handles observers)) := .initial ..
    exact ih.happens (Run.reachable hrun hstart).sound hf hh

/-! ## History -/

/-- The chore was executed at some time when the condition held of what had gone before, and the
other chore has not been executed after it. -/
def Since (chore other : Chore) (condition : List Chore → Prop) (history : List Chore) : Prop :=
  ∃ before after, history = before ++ chore :: after ∧ condition before ∧ other ∉ after

theorem since_concat {chore other last : Chore} {condition : List Chore → Prop}
    {history : List Chore} : Since chore other condition (history ++ [last]) ↔
      last = chore ∧ condition history ∨ last ≠ other ∧ Since chore other condition history := by
  constructor
  · rintro ⟨before, after, hsplit, hbefore, hafter⟩
    rcases List.eq_nil_or_concat after with rfl | ⟨after, x, rfl⟩
    · obtain ⟨rfl, hlast⟩ := List.append_inj' hsplit rfl
      exact .inl ⟨by simpa using hlast, hbefore⟩
    · rw [List.concat_eq_append] at hsplit hafter
      rw [← List.cons_append, ← List.append_assoc] at hsplit
      obtain ⟨hhistory, hlast⟩ := List.append_inj' hsplit rfl
      obtain rfl : last = x := by simpa using hlast
      simp only [List.mem_append, List.mem_singleton, not_or] at hafter
      exact .inr ⟨Ne.symm hafter.2, before, after, hhistory, hbefore, hafter.1⟩
  · rintro (⟨rfl, hhistory⟩ | ⟨hother, before, after, rfl, hbefore, hafter⟩)
    · exact ⟨history, [], rfl, hhistory, List.not_mem_nil⟩
    · refine ⟨before, after ++ [last], by simp, hbefore, ?_⟩
      simp [hafter, Ne.symm hother]

/-- The socks were taken off and have not been laundered since. -/
def Soiled : List Chore → Prop := Since .undress .launder fun _ => True

namespace Closet

/-- The socks' turn has no part in how the other garments are. -/
theorem isWorn_withSocks (closet : Closet) (chore : Chore) {garment : StoreName}
    (h : garment ≠ socksId) : (closet.withSocks chore).isWorn garment = closet.isWorn garment := by
  cases chore with
  | dress => cases hd : closet.dirty <;> simp [withSocks, hd, h]
  | undress =>
    change (closet.setWorn socksId false).isWorn garment = _
    simp [h]
  | launder => rfl

theorem isWorn_socks_withSocks (closet : Closet) (chore : Chore) :
    (closet.withSocks chore).isWorn socksId =
      match chore with
      | .dress => closet.isWorn socksId || !closet.dirty
      | .undress => false
      | .launder => closet.isWorn socksId := by
  cases chore with
  | dress => cases hd : closet.dirty <;> simp [withSocks, hd]
  | undress =>
    change (closet.setWorn socksId false).isWorn socksId = false
    simp
  | launder => rfl

theorem isWorn_after (closet : Closet) (chore : Chore) {garment : StoreName}
    (h : garment ∈ [trousersId, shoesId, coatId]) :
    (closet.after chore).isWorn garment =
      match chore with
      | .dress => true
      | .undress => false
      | .launder => closet.isWorn garment := by
  have hsocks : garment ≠ socksId := by
    rintro rfl
    revert h
    decide
  simp only [List.mem_cons, List.not_mem_nil, or_false] at h
  cases chore with
  | dress | undress =>
    rcases h with rfl | rfl | rfl <;>
      simp [after, untilCoat, sinceCoat, isWorn_withSocks, hsocks]
  | launder => exact isWorn_withSocks closet .launder hsocks

theorem isWorn_socks_after (closet : Closet) (chore : Chore) :
    (closet.after chore).isWorn socksId =
      match chore with
      | .dress => closet.isWorn socksId || !closet.dirty
      | .undress => false
      | .launder => closet.isWorn socksId := by
  have htrousers : socksId ≠ trousersId := by decide
  have hshoes : socksId ≠ shoesId := by decide
  have hcoat : socksId ≠ coatId := by decide
  cases chore with
  | dress | undress =>
    simp [after, untilCoat, sinceCoat, isWorn_socks_withSocks, htrousers, hshoes, hcoat]
  | launder => exact isWorn_socks_withSocks closet .launder

theorem dirty_after (closet : Closet) (chore : Chore) :
    (closet.after chore).dirty =
      match chore with
      | .dress => closet.dirty
      | .undress => true
      | .launder => false := by
  cases chore with
  | dress => cases hd : closet.dirty <;> simp [after, untilCoat, sinceCoat, withSocks, hd]
  | undress | launder => rfl

theorem washes_after (closet : Closet) (chore : Chore) :
    (closet.after chore).washes =
      match chore with
      | .launder => closet.washes + 1
      | _ => closet.washes := by
  cases chore with
  | dress => cases hd : closet.dirty <;> simp [after, untilCoat, sinceCoat, withSocks, hd]
  | undress | launder => rfl

/-- The other garments are worn after dressing and not worn after undressing, and laundering does
not matter. -/
theorem isWorn_afterAll (history : List Chore) {garment : StoreName}
    (h : garment ∈ [trousersId, shoesId, coatId]) : (afterAll history).isWorn garment = true ↔
      (history.filter (· ≠ .launder)).getLast? = some .dress := by
  induction history using List.reverseRecOn with
  | nil => simp [afterAll, initial, isWorn]
  | append_singleton history chore ih =>
    rw [afterAll_concat, isWorn_after _ _ h]
    cases chore <;> simp [ih]

theorem dirty_afterAll (history : List Chore) :
    (afterAll history).dirty = true ↔ Soiled history := by
  induction history using List.reverseRecOn with
  | nil => simp [afterAll, initial, Soiled, Since]
  | append_singleton history chore ih =>
    rw [afterAll_concat, dirty_after, Soiled, since_concat, ← Soiled, ← ih]
    cases chore <;> simp

/-- Dirty socks are not put on, so dressing counts only at a time when they are clean. -/
theorem isWorn_socks_afterAll (history : List Chore) :
    (afterAll history).isWorn socksId = true ↔ Since .dress .undress (¬Soiled ·) history := by
  induction history using List.reverseRecOn with
  | nil => simp [afterAll, initial, isWorn, Since]
  | append_singleton history chore ih =>
    rw [afterAll_concat, isWorn_socks_after, since_concat, ← ih, ← dirty_afterAll]
    cases chore <;> simp [or_comm]

theorem washes_afterAll (history : List Chore) :
    (afterAll history).washes = UInt32.ofNat (history.count .launder) := by
  induction history using List.reverseRecOn with
  | nil => rfl
  | append_singleton history chore ih =>
    rw [afterAll_concat, washes_after, ih, List.count_append]
    cases chore <;> simp

/-- Socks that are worn are clean, and are worn with shoes. -/
theorem afterAll_consistent (history : List Chore) (h : (afterAll history).isWorn socksId = true) :
    (afterAll history).dirty = false ∧ (afterAll history).isWorn shoesId = true := by
  have hshoes : shoesId ∈ [trousersId, shoesId, coatId] := by decide
  induction history using List.reverseRecOn with
  | nil => simp [afterAll, initial, isWorn] at h
  | append_singleton history chore ih =>
    rw [afterAll_concat, isWorn_socks_after] at h
    rw [afterAll_concat, dirty_after, isWorn_after _ _ hshoes]
    cases chore with
    | dress =>
      cases hd : (afterAll history).dirty with
      | false => exact ⟨rfl, rfl⟩
      | true =>
        rw [hd] at ih
        simp only [hd, Bool.not_true, Bool.or_false] at h
        exact absurd (ih h).1 (by decide)
    | undress => cases h
    | launder => exact ⟨rfl, (ih h).2⟩

/-- Nor are dirty socks worn while the coat takes its time. -/
theorem clean_untilCoat (history : List Chore) (chore : Chore)
    (h : ((afterAll history).untilCoat chore).isWorn socksId = true) :
    ((afterAll history).untilCoat chore).dirty = false := by
  cases chore with
  | dress =>
    -- The coat's turn would complete the chore and leave the socks as they are.
    have hcoat : socksId ≠ coatId := by decide
    have hworn : (afterAll (history ++ [.dress])).isWorn socksId = true := by
      rw [afterAll_concat]
      change (Closet.setWorn _ coatId true).isWorn socksId = true
      simpa [hcoat] using h
    have hdirty := (afterAll_consistent _ hworn).1
    rw [afterAll_concat] at hdirty
    exact hdirty
  | undress | launder => exact (afterAll_consistent history h).1

end Closet

theorem Clad.clean (h : Clad e) (hworn : e.world.host.isWorn socksId = true) :
    e.world.host.dirty = false := by
  cases h with
  | resting phase host =>
    obtain ⟨clock, hhost⟩ := host
    rw [hhost] at hworn ⊢
    exact (Closet.afterAll_consistent _ hworn).1
  | asked slow phase channel host =>
    obtain ⟨due, clock, hhost⟩ := host
    rw [hhost] at hworn ⊢
    exact Closet.clean_untilCoat _ _ hworn
  | answered slow phase channel host =>
    obtain ⟨clock, hhost⟩ := host
    rw [hhost] at hworn ⊢
    have hcoat : socksId ≠ coatId := by decide
    apply Closet.clean_untilCoat
    change (Closet.setWorn _ coatId _).isWorn socksId = true at hworn
    simpa [hcoat] using hworn

/-- Whenever the engine rests, also between the acts of one turn, the chores that were executed tell
how the wardrobe is. The trousers, the shoes and the coat are worn if the last chore that was not
laundering was dressing. The socks are dirty if they were taken off and not laundered since. They
are worn if they were put on at a time when they were clean and not taken off since. Each laundering
counts. The socks are at no time both worn and dirty, and never worn without shoes at rest. -/
theorem wardrobe_follows_history (hf : Furnished False quick setup)
    (h : Reached setup capacity e) (ha : Acts setup e e') :
    (e'.isBusy = false →
      (∀ garment ∈ [trousersId, shoesId, coatId], e'.world.host.isWorn garment = true ↔
        (e'.world.executed.filter (· ≠ .launder)).getLast? = some .dress) ∧
      (e'.world.host.dirty = true ↔ Soiled e'.world.executed) ∧
      (e'.world.host.isWorn socksId = true ↔
        Since .dress .undress (¬Soiled ·) e'.world.executed) ∧
      e'.world.host.washes = UInt32.ofNat (e'.world.executed.count .launder) ∧
      (e'.world.host.isWorn socksId = true → e'.world.host.isWorn shoesId = true)) ∧
    ¬(e'.world.host.isWorn socksId = true ∧ e'.world.host.dirty = true) := by
  have hclad : Clad e' := ha.preserves (fun ha h => h.act hf ha) (h.clad hf)
  refine ⟨fun hidle => ?_, fun ⟨hworn, hdirty⟩ => ?_⟩
  · obtain ⟨clock, hhost⟩ := hclad.at_rest hidle
    rw [hhost]
    exact ⟨fun garment => Closet.isWorn_afterAll _, Closet.dirty_afterAll _,
      Closet.isWorn_socks_afterAll _, Closet.washes_afterAll _,
      fun hworn => (Closet.afterAll_consistent _ hworn).2⟩
  · rw [hclad.clean hworn] at hdirty
    cases hdirty

/-- Dressing, undressing and dressing again, handed over at once: the second dressing comes before
the laundering, and refuses the socks. -/
def hurriedSession : Session :=
  let s : Session :=
    ⟨Wardrobe.setup (outfit fun _ => false), .initial 3 (.initial Closet.initial 2 []), []⟩
  (((s.dispatch [.dress, .undress, .dress]).advance 60).advance 60).advance 60

theorem hurriedSession_reached :
    Reached (Wardrobe.setup (outfit fun _ => false)) 3 hurriedSession.engine := by
  have hopened : Session.opened 3 [] [] =
      .ok ⟨Wardrobe.setup (outfit fun _ => false), .initial 3 (.initial Closet.initial 2 []), []⟩ :=
    rfl
  have hadvanced (s : Session) : s.Continues (s.advance 60) := .advance 60 s
  exact Session.reached hopened ((Session.Continues.act _ (.dispatch [.dress, .undress, .dress])).trans
    ((hadvanced _).trans ((hadvanced _).trans (hadvanced _))))

theorem hurriedSession_follows_history :
    Furnished False (fun _ => false) (Wardrobe.setup (outfit fun _ => false)) ∧
    Reached (Wardrobe.setup (outfit fun _ => false)) 3 hurriedSession.engine ∧
    Acts (Wardrobe.setup (outfit fun _ => false)) hurriedSession.engine hurriedSession.engine ∧
    hurriedSession.engine.isBusy = false ∧
    hurriedSession.engine.world.executed = [.dress, .undress, .dress, .launder] ∧
    hurriedSession.engine.world.host.isWorn shoesId = true ∧
    hurriedSession.engine.world.host.isWorn socksId = false ∧
    (hurriedSession.engine.world.host.isWorn socksId = true ↔
      Since .dress .undress (¬Soiled ·) hurriedSession.engine.world.executed) := by
  have hfurnished := furnished_setup False fun _ => false
  have hsession : (hurriedSession.engine.isBusy, hurriedSession.engine.world.executed,
      hurriedSession.engine.world.host.isWorn shoesId,
      hurriedSession.engine.world.host.isWorn socksId) =
      (false, [.dress, .undress, .dress, .launder], true, false) := by cbv
  simp only [Prod.mk.injEq] at hsession
  obtain ⟨hidle, hexecuted, hshoes, hsocks⟩ := hsession
  exact ⟨hfurnished, hurriedSession_reached, .refl, hidle, hexecuted, hshoes, hsocks,
    ((wardrobe_follows_history hfurnished hurriedSession_reached .refl).1 hidle).2.2.1⟩

end Concord.Wardrobe
