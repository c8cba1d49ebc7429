import Concord.Proofs.Wardrobe.Attire

/-!
# The laundry is never lost

When the socks ask to be laundered, the inbox is empty and the engine is about to rest: undressing
starts with the coat, and the coat's answer is heard only when nothing is left to be read. So the
request is the next message that is taken. If the engine is busy by then, it has taken up an action
that waited, and the place of that action is free.
-/
namespace Concord

namespace World

variable {σ α : Type}

theorem handles_preserved (setup : Setup σ α) :
    Preserved setup (fun _ => True) fun w => w.handles = 0 where
  asks := setup.asks_anything
  announce := announce_preserves (P := fun v => v.handles = 0) setup.asks_anything (fun _ h => h)
    (fun _ _ h => h) (fun _ _ _ h => h) (fun _ h => h) fun speaker request _ h =>
      (perform_of_no_handles h speaker request).1
  record _ _ h := h
  host _ h := h
  channel _ h := h
  perform speaker request _ h := (perform_of_no_handles h speaker request).1
  take _ _ _ h := h
  close h := h
  discard h :=
    discardInbox_preserves (P := fun v => v.handles = 0) (fun h => h) (fun _ h => h) h

theorem Adds.mem_taken {w w' : World σ α} {ms : List (Milestone α)} (h : w.Adds ms w')
    {message : Message α} (hm : message ∈ w.taken) : message ∈ w'.taken := by
  rw [h.taken]
  exact List.mem_append_left _ hm

theorem taken_preserved (setup : Setup σ α) (message : Message α) :
    Preserved setup (fun _ => True) fun w => message ∈ w.taken where
  asks := setup.asks_anything
  announce event h := (announce_grows setup _ event).toAdds.mem_taken h
  record entry _ h := by
    rw [taken, milestones, history_record, List.filterMap_append, List.filterMap_append]
    exact List.mem_append_left _ h
  host _ h := h
  channel _ h := h
  perform speaker request _ h := (perform_grows speaker _ request).toAdds.mem_taken h
  take _ _ _ h := h
  close h := h
  discard h := (discardInbox_adds _).mem_taken h

end World

namespace Wardrobe

open Engine (Act Acts Admits TakesIn Turned)
open World (Brings)

variable {setup : Setup Closet Chore} {quick : Ticket → Bool} {capacity : Nat}
  {e e' e'' : Engine Closet Chore}

/-! ## Runs without disturbance -/

/-- The socks hold their handle, no shutdown has been taken from the inbox, and the engine has not
been taken away. -/
structure Undisturbed (e : Engine Closet Chore) : Prop where
  handles : e.world.handles ≠ 0
  unread : .shutdown ∉ e.world.taken
  life : e.life ≠ .killed

theorem Happens.run (h : Happens setup e e') : Engine.Run setup (fun _ => True) e e' := by
  cases h with
  | turn h => exact .turn .refl h
  | ask => exact .outside .refl _ fun _ _ => trivial
  | wait => exact .outside .refl _ fun _ _ => trivial
  | errand h => exact .outside .refl _ fun _ _ => trivial
  | kill => exact .kill .refl

namespace Undisturbed

theorem before (h : Undisturbed e') (he : Engine.Reachable setup capacity e)
    (hh : Happens setup e e') : Undisturbed e where
  handles hz := h.handles (hh.run.keeps (World.handles_preserved setup) he hz)
  unread hm := h.unread (hh.run.keeps (World.taken_preserved setup .shutdown) he hm)
  life hk := by
    cases hh with
    | turn ht => simp [Engine.turn?, hk] at ht
    | ask | wait | errand => exact h.life hk
    | kill =>
      have hkill : e.kill = e := by simp [Engine.kill, hk]
      exact h.life (by rw [hkill, hk])

/-- An engine that is not disturbed reads its inbox, which is open. -/
theorem listening (h : Undisturbed e) (he : Engine.Reachable setup capacity e) :
    e.listening = true ∧ e.world.isOpen = true := by
  cases he.reading with
  | ongoing listening unread isOpen =>
    refine ⟨listening, isOpen ?_⟩
    cases hlife : e.life with
    | fresh => exact .inl hlife
    | running => exact .inr hlife
    | stopped =>
      obtain ⟨e₀, -, -, -, hl, -, he₀⟩ := he.stopped_from hlife
      rw [he₀] at listening
      exact absurd (hl.symm.trans listening) (by decide)
    | killed => exact absurd hlife h.life
  | shut listening isOpen taken => exact absurd (by simp [taken]) h.unread
  | deserted listening unread world => exact absurd world.handles h.handles

end Undisturbed

/-! ## Chores that wait -/

/-- A place is free in the backlog while the engine waits for the coat. -/
def Room (e : Engine Closet Chore) : Prop :=
  e.isBusy = true → e.backlog.length < e.backlog.capacity

/-- What becomes of a wardrobe when chores are taken up, with a coat that is never quick: no mail is
sent, and nothing that would send it comes to its end. -/
structure TakesUp (e e' : Engine Closet Chore) : Prop where
  brings : ∃ closet channel ended,
    Brings True e.world e'.world closet channel [] ended ∧ .undress ∉ ended
  room : Room e → Room e'

namespace TakesUp

theorem refl (e : Engine Closet Chore) : TakesUp e e :=
  ⟨⟨_, _, [], .refl e.world, List.not_mem_nil⟩, id⟩

theorem trans (h : TakesUp e e') (h' : TakesUp e' e'') : TakesUp e e'' := by
  obtain ⟨closet, channel, ended, hb, hended⟩ := h.brings
  obtain ⟨closet', channel', ended', hb', hended'⟩ := h'.brings
  exact ⟨⟨closet', channel', _, hb.trans hb', List.not_mem_append hended hended'⟩,
    fun hroom => h'.room (h.room hroom)⟩

end TakesUp

/-- Only undressing sends anything. -/
theorem mail_of_notMem {chores : List Chore} (h : .undress ∉ chores) :
    chores.flatMap Chore.mail = [] := by
  rw [List.flatMap_eq_nil_iff]
  intro chore hchore
  cases chore with
  | undress => exact absurd hchore h
  | dress | launder => rfl

/-- Only laundering ends at once. -/
theorem Served.brings {chore : Chore} (h : Served True (fun _ => false) e chore e') :
    ∃ closet channel ended,
      Brings True e.world e'.world closet channel [] ended ∧ .undress ∉ ended := by
  cases h with
  | ended prompt brings =>
    obtain rfl := prompt fun _ => rfl
    exact ⟨_, _, _, brings, by decide⟩
  | asked slow brings => exact ⟨_, _, _, brings, List.not_mem_nil⟩

theorem Served.backlog {quiet : Prop} {chore : Chore} (h : Served quiet quick e chore e') :
    e'.backlog = e.backlog := by
  cases h <;> rfl

namespace Furnished

variable (hf : Furnished True (fun _ => false) setup)

include hf

/-- A chore that is taken up leaves its place in the backlog. -/
theorem resumes {chore : Chore} {backlog : Backlog Chore}
    (ho : e.backlog.oldest? = some (chore, backlog)) :
    TakesUp e ({ e with backlog }.undertake setup chore) := by
  have hserved := hf.undertake chore { e with backlog }
  obtain ⟨hitems, hcapacity⟩ := Backlog.items_of_oldest?_eq_some ho
  refine ⟨hserved.brings, fun _ _ => ?_⟩
  have hlength : backlog.length + 1 = e.backlog.length := by
    rw [Backlog.length, Backlog.length, hitems, List.length_cons]
  have hle := e.backlog.length_le_capacity
  rw [hserved.backlog]
  change backlog.length < backlog.capacity
  omega

theorem undertakeUpTo (n : Nat) (e : Engine Closet Chore) :
    TakesUp e (e.undertakeUpTo setup n) := by
  induction n generalizing e with
  | zero => exact .refl e
  | succ n ih =>
    unfold Engine.undertakeUpTo
    split
    · exact .refl e
    cases ho : e.backlog.oldest? with
    | none => exact .refl e
    | some next => exact (hf.resumes ho).trans (ih _)

end Furnished

/-! ## One turn -/

/-- What an undisturbed turn ends and sends: undressing comes first or not at all, and if it does,
then it found the inbox empty, the laundry is all that is sent, and there is room for it. -/
inductive Tidies (e e' : Engine Closet Chore) : Prop where
  | beside {inbox : List (Message Chore)} {closet : Closet} {channel : Channel} {ended : List Chore}
      (brings : Brings True { e.world with inbox } e'.world closet channel [] ended)
      (none : .undress ∉ ended)
  | undressed {closet : Closet} {channel : Channel} {ended : List Chore}
      (inbox : e.world.inbox = []) (room : Room e')
      (brings : Brings True e.world e'.world closet channel [.dispatch .launder]
        (.undress :: ended))
      (once : .undress ∉ ended)

namespace Tidies

theorem takesUp (h : Tidies e e') (h' : TakesUp e' e'') : Tidies e e'' := by
  obtain ⟨closet, channel, ended', hb', hended'⟩ := h'.brings
  cases h with
  | beside brings none => exact .beside (brings.trans hb') (List.not_mem_append none hended')
  | undressed inbox room brings once =>
    exact .undressed inbox (h'.room room) (brings.trans hb') (List.not_mem_append once hended')

theorem accepted (hf : Furnished True (fun _ => false) setup) (action : Chore)
    (inbox : List (Message Chore)) (e : Engine Closet Chore) :
    Tidies e ((e.taking (.dispatch action) inbox).accept setup action) := by
  have hheard := hf.hearing action inbox e
  rcases Engine.accept_cases setup action (e.taking (.dispatch action) inbox) with
    ⟨hidle, haccept⟩ | ⟨hbusy, backlog, hput, haccept⟩ | ⟨hbusy, hfull, haccept⟩
  · rw [haccept]
    obtain ⟨closet, channel, ended, hb, hended⟩ :=
      (hf.undertake action (e.hearing setup action inbox)).brings
    have hundertaken : Tidies e ((e.hearing setup action inbox).undertake setup action) :=
      .beside (hheard.trans hb) hended
    exact hundertaken.takesUp (hf.undertakeUpTo _ _)
  · rw [haccept]
    exact .beside hheard List.not_mem_nil
  · rw [haccept]
    have hdropping := hf.dropping action e.backlog.capacity (e.hearing setup action inbox)
    rw [hheard.host, hheard.channel] at hdropping
    exact .beside (hheard.trans hdropping) List.not_mem_nil

/-- The coat has answered. Its answer is heard when nothing is left to be read. -/
theorem carriedOn (hf : Furnished True (fun _ => false) setup) (hclad : Clad e)
    {walk : Walk Chore} {store : StoreName} {ticket : Ticket}
    (hp : e.phase = .waiting walk store ticket) {outcome : Outcome}
    (ho : e.world.channel.outcome = some outcome) (hi : e.world.inbox = []) :
    Tidies e (e.carryOn setup walk store outcome) := by
  obtain ⟨slow, -, w', tally, channel, hcarry, hb⟩ := hclad.hears_coat hf hp ho
  rw [hcarry]
  cases hchore : walk.action with
  | launder => exact absurd hchore slow
  | dress =>
    rw [hchore] at hb
    exact .beside hb (by decide)
  | undress =>
    rw [hchore] at hb
    exact .undressed hi (fun hbusy => by cases hbusy) hb List.not_mem_nil

theorem turned (hf : Furnished True (fun _ => false) setup) (hclad : Clad e)
    (hl : e.listening = true) (hu : Undisturbed e') (hl' : e'.listening = true)
    (ht : Turned setup e e') : Tidies e e' := by
  cases ht with
  | started hlife => exact .beside (.record e.world rfl rfl) List.not_mem_nil
  | @read hlife _ message inbox hi =>
    cases message with
    | dispatch action => exact accepted hf action inbox e
    | status inquiry =>
      have htaken : Brings True { e.world with inbox } (e.taking (.status inquiry) inbox).world
          e.world.host e.world.channel [] [] := .record _ rfl rfl
      exact .beside (htaken.beside (.record _ rfl rfl)) List.not_mem_nil
    | shutdown =>
      have htaken := (Engine.shutting_adds setup inbox e).taken
      exact absurd (by rw [htaken]; simp [Milestone.taken?]) hu.unread
  | deafened => cases hl'
  | proceeded hlife hp hread ho =>
    exact (carriedOn hf hclad hp ho (hread hl).1).takesUp (hf.undertakeUpTo _ _)
  | stopped hlife hp hdeaf =>
    rw [hl] at hdeaf
    cases hdeaf

end Tidies

theorem Reached.tidies (h : Reached setup capacity e)
    (hf : Furnished True (fun _ => false) setup) (ht : e.turn? setup = some e')
    (hu : Undisturbed e') : Tidies e e' := by
  have hl := ((hu.before h.reachable (.turn ht)).listening h.reachable).1
  have hl' := (hu.listening (h.tail (.turn ht)).reachable).1
  exact .turned hf (h.clad hf) hl hu hl' (Engine.turn_turned ht)

/-! ## The laundry's way -/

/-- The laundry comes next in the inbox, and there is room for it. -/
structure Owed (e : Engine Closet Chore) : Prop where
  next : ∃ rest, e.world.inbox = .dispatch .launder :: rest
  room : Room e

namespace Owed

theorem of_brings {closet : Closet} {channel : Channel} {ended : List Chore}
    (h : Brings True e.world e'.world closet channel [.dispatch .launder] ended)
    (hi : e.world.inbox = []) (hroom : Room e') (hopen : e.world.isOpen = true)
    (hhandles : e'.world.handles ≠ 0) : Owed e' := by
  have hinbox := (h.inbox trivial hopen hhandles).1
  rw [hi] at hinbox
  exact ⟨⟨[], hinbox⟩, hroom⟩

theorem intake (h : Owed e) : e.intake .launder = ⟨.launder, false⟩ := by
  cases hbusy : e.isBusy with
  | false => exact Engine.intake_of_idle hbusy _
  | true => exact Engine.intake_of_room (h.room hbusy) _

/-- Until the laundry is taken in, nothing else is. -/
theorem happens (h : Owed e) (he : Engine.Reachable setup capacity e) (hu : Undisturbed e')
    (hh : Happens setup e e') :
    Owed e' ∧ Admits e [] e' ∨ Admits e [⟨.launder, false⟩] e' := by
  obtain ⟨rest, hnext⟩ := h.next
  have hl := ((hu.before he hh).listening he).1
  have hinteract : ∀ reaction : Reaction Closet Chore Unit,
      Owed (e.interact reaction) ∧ Admits e [] (e.interact reaction) := by
    intro reaction
    have hgrows := World.absorb_grows .outside reaction e.world
    obtain ⟨arrived, hinbox, -⟩ := hgrows.mail
    rw [hnext] at hinbox
    exact ⟨⟨⟨_, hinbox⟩, h.room⟩, .still hgrows.toAdds rfl rfl rfl rfl⟩
  cases hh with
  | turn ht =>
    cases Engine.turn_turned ht with
    | started hlife =>
      exact .inl ⟨⟨⟨rest, hnext⟩, h.room⟩,
        .still (World.Grows.note e.world (.started ..) rfl).toAdds rfl rfl rfl rfl⟩
    | read hlife hl hi =>
      rw [hnext] at hi
      cases hi
      have haccepted := Admits.accepted he.sound .launder rest
      rw [h.intake] at haccepted
      exact .inr haccepted
    | deafened hlife hl hi hh =>
      rw [hnext] at hi
      cases hi
    | proceeded hlife hp hread ho =>
      have hi := (hread hl).1
      rw [hnext] at hi
      cases hi
    | stopped hlife hp hdeaf =>
      rw [hl] at hdeaf
      cases hdeaf
  | ask => exact .inl (hinteract _)
  | wait => exact .inl (hinteract _)
  | errand => exact .inl (hinteract _)
  | kill =>
    have hkill : e.kill = e := by
      have hlife := hu.life
      unfold Engine.kill at hlife ⊢
      split at hlife
      · contradiction
      · contradiction
      · rfl
      · rfl
    rw [hkill]
    exact .inl ⟨h, .refl e⟩

theorem run (h : Owed e) (he : Engine.Reachable setup capacity e) (hu : Undisturbed e')
    (hrun : Run setup e e') :
    ∃ fresh, Admits e fresh e' ∧
      (fresh = [] ∧ Owed e' ∨ ∃ later, fresh = ⟨.launder, false⟩ :: later) := by
  induction hrun with
  | refl => exact ⟨[], .refl e, .inl ⟨rfl, h⟩⟩
  | @tail e' e'' hrun hh ih =>
    have he' := Run.reachable hrun he
    obtain ⟨fresh, hadmits, ⟨rfl, howed⟩ | ⟨later, rfl⟩⟩ := ih (hu.before he' hh)
    · rcases howed.happens he' hu hh with ⟨howed', hmore⟩ | hmore
      · exact ⟨[], hadmits.trans hmore, .inl ⟨rfl, howed'⟩⟩
      · exact ⟨_, hadmits.trans hmore, .inr ⟨[], rfl⟩⟩
    · obtain ⟨more, hmore⟩ := (TakesIn.step he'.sound hh.step).admits
      exact ⟨_, hadmits.trans hmore, .inr ⟨later ++ more, rfl⟩⟩

end Owed

/-! ## What has been executed -/

/-- The chore that the engine goes about. -/
def inHand : Phase Chore → List Chore
  | .idle => []
  | .waiting walk _ _ => [walk.action]

theorem inHand_of_idle (h : e.isBusy = false) : inHand e.phase = [] := by
  unfold Engine.isBusy at h
  split at h
  · rename_i hp
    rw [hp]
    rfl
  · cases h

/-- Every chore that was undertaken has been executed, but for the one in hand. -/
def Accounted (e : Engine Closet Chore) : Prop :=
  e.world.undertaken = e.world.executed ++ inHand e.phase

namespace Accounted

variable {quiet : Prop}

/-- Steps in which no chore is taken up or comes to its end. -/
theorem still (h : Accounted e) (hundertaken : e'.world.undertaken = e.world.undertaken)
    (hexecuted : e'.world.executed = e.world.executed) (hp : e'.phase = e.phase) :
    Accounted e' := by
  rw [Accounted, hundertaken, hexecuted, hp]
  exact h

theorem served (h : Accounted e) (hidle : e.isBusy = false) {chore : Chore}
    (hs : Served quiet quick e chore e')
    (hundertaken : e'.world.undertaken = e.world.undertaken ++ [chore]) : Accounted e' := by
  rw [h, inHand_of_idle hidle, List.append_nil] at hundertaken
  rw [Accounted, hundertaken]
  cases hs with
  | ended prompt brings =>
    rw [brings.executed]
    exact (List.append_nil _).symm
  | asked slow brings =>
    rw [brings.executed, List.append_nil]
    rfl

theorem carriedOn (h : Accounted e) (hf : Furnished quiet quick setup) (hclad : Clad e)
    {walk : Walk Chore} {store : StoreName} {ticket : Ticket}
    (hp : e.phase = .waiting walk store ticket) {outcome : Outcome}
    (ho : e.world.channel.outcome = some outcome)
    (hundertaken : (e.carryOn setup walk store outcome).world.undertaken = e.world.undertaken) :
    Accounted (e.carryOn setup walk store outcome) := by
  obtain ⟨-, -, w', tally, channel, hcarry, hb⟩ := hclad.hears_coat hf hp ho
  rw [hcarry] at hundertaken ⊢
  rw [Accounted, hundertaken, h, hp, hb.executed]
  exact (List.append_nil _).symm

theorem act (h : Accounted e) (hf : Furnished quiet quick setup) (hclad : Clad e)
    (ha : Act setup e e') : Accounted e' := by
  cases hf.tends ha with
  | aside aside => exact h.still aside.undertaken aside.executed aside.phase
  | served aside idle served undertaken =>
    exact (h.still aside.undertaken aside.executed aside.phase).served idle served undertaken
  | carriedOn phase answer undertaken => exact h.carriedOn hf hclad phase answer undertaken

theorem happens (h : Accounted e) (hf : Furnished quiet quick setup) (hclad : Clad e)
    (he : Engine.Sound setup capacity e) (hh : Happens setup e e') : Accounted e' := by
  have hinteract : ∀ reaction : Reaction Closet Chore Unit, Accounted (e.interact reaction) := by
    intro reaction
    have hw := (World.absorb_grows .outside reaction e.world).toAdds
    exact h.still (hw.undertaken.trans (List.append_nil _)) (hw.executed.trans (List.append_nil _))
      rfl
  cases hh with
  | turn ht =>
    let J (e : Engine Closet Chore) : Prop := Clad e ∧ Accounted e
    have hact : ∀ {e e'}, Act setup e e' → J e → J e' := fun ha ⟨hclad, h⟩ =>
      ⟨hclad.act hf ha, h.act hf hclad ha⟩
    exact ((he.acts (Engine.turn_turned ht)).preserves hact ⟨hclad, h⟩).2
  | ask => exact hinteract _
  | wait => exact hinteract _
  | errand => exact hinteract _
  | kill =>
    have ha := Aside.kill e
    exact h.still ha.undertaken ha.executed ha.phase

end Accounted

theorem Reached.accounted {quiet : Prop} (h : Reached setup capacity e)
    (hf : Furnished quiet quick setup) : Accounted e := by
  obtain ⟨handles, observers, hrun⟩ := h
  induction hrun with
  | refl => rfl
  | tail hrun hh ih =>
    have hreached : Reached setup capacity _ := ⟨handles, observers, hrun⟩
    exact ih.happens hf (hreached.clad hf) hreached.reachable.sound hh

/-! ## The laundry is done -/

/-- When the engine rests and nothing is left to be read, the laundry that was owed has been done,
after the chores that were in hand and those that waited. -/
theorem Owed.executed {quiet : Prop} (h : Owed e) (he : Reached setup capacity e)
    (hf : Furnished quiet quick setup) (hu : Undisturbed e') (hrun : Run setup e e')
    (hidle : e'.isBusy = false) (hempty : e'.world.inbox = []) :
    ∃ later, e'.world.executed =
      e.world.executed ++ inHand e.phase ++ e.backlog.items ++ .launder :: later := by
  have he' : Reached setup capacity e' := he.run hrun
  obtain ⟨fresh, hadmits, ⟨-, howed⟩ | ⟨later, rfl⟩⟩ := h.run he.reachable hu hrun
  · obtain ⟨rest, hnext⟩ := howed.next
    rw [hempty] at hnext
    cases hnext
  · have hqueue := hadmits.queue
    rw [he'.reachable.sound.rested hidle, List.append_nil, he.accounted hf, he'.accounted hf,
      inHand_of_idle hidle, List.append_nil] at hqueue
    exact ⟨kept later, hqueue⟩

theorem Happens.executed (h : Happens setup e e') :
    e.turn? setup = some e' ∨ e'.world.executed = e.world.executed := by
  have hinteract : ∀ reaction : Reaction Closet Chore Unit,
      (e.interact reaction).world.executed = e.world.executed := fun reaction => by
    simp [(World.absorb_grows .outside reaction e.world).toAdds.executed, Engine.interact]
  cases h with
  | turn h => exact .inl h
  | ask => exact .inr (hinteract _)
  | wait => exact .inr (hinteract _)
  | errand => exact .inr (hinteract _)
  | kill => exact .inr (by simp [(Engine.kill_adds e).executed])

/-- Every undressing that was executed came to its end in a turn that left the laundry as what comes
next. -/
theorem Reached.undressed (hf : Furnished True (fun _ => false) setup)
    (h : Reached setup capacity e) (hu : Undisturbed e) {before : List Chore}
    (hb : before ++ [.undress] <+: e.world.executed) :
    ∃ e₁ rest, Reached setup capacity e₁ ∧ Run setup e₁ e ∧ Owed e₁ ∧
      e₁.world.executed = before ++ .undress :: rest := by
  obtain ⟨handles, observers, hrun⟩ := h
  induction hrun with
  | refl =>
    have hnone : before ++ [.undress] <+: ([] : List Chore) := hb
    simp at hnone
  | @tail e e' hrun hh ih =>
    have h : Reached setup capacity e := ⟨handles, observers, hrun⟩
    have h' : Reached setup capacity e' := ⟨handles, observers, hrun.tail hh⟩
    have hbefore := hu.before h.reachable hh
    have hearlier (hb : before ++ [.undress] <+: e.world.executed) :
        ∃ e₁ rest, Reached setup capacity e₁ ∧ Run setup e₁ e' ∧ Owed e₁ ∧
          e₁.world.executed = before ++ .undress :: rest := by
      obtain ⟨e₁, rest, h₁, hrun₁, howed, hrest⟩ := ih hbefore hb
      exact ⟨e₁, rest, h₁, hrun₁.tail hh, howed, hrest⟩
    rcases hh.executed with ht | hsame
    · cases h.tidies hf ht hu with
      | beside brings none =>
        rw [brings.executed] at hb
        exact hearlier (prefix_of_notMem_append hb none)
      | @undressed _ _ ended inbox room brings once =>
        rw [brings.executed, List.append_cons e.world.executed] at hb
        rcases List.prefix_concat_iff.mp (prefix_of_notMem_append hb once) with heq | hb
        · obtain ⟨rfl, -⟩ := List.append_inj' heq rfl
          exact ⟨e', ended, h', .refl, .of_brings brings inbox room
            (hbefore.listening h.reachable).2 hu.handles, brings.executed⟩
        · exact hearlier hb
    · rw [hsame] at hb
      exact hearlier hb

theorem Reached.not_soiled (h : Reached setup capacity e)
    (hf : Furnished True (fun _ => false) setup) (hu : Undisturbed e) (hidle : e.isBusy = false)
    (hempty : e.world.inbox = []) : ¬Soiled e.world.executed := by
  rintro ⟨before, after, hexecuted, -, hnone⟩
  have hb : before ++ [.undress] <+: e.world.executed := ⟨after, by simp [hexecuted]⟩
  obtain ⟨e₁, rest, h₁, hrun, howed, hrest⟩ := h.undressed hf hu hb
  obtain ⟨later, hlater⟩ := howed.executed h₁ hf hu hrun hidle hempty
  -- What came behind that undressing ends with the laundering and what followed it.
  have hafter : after = rest ++ inHand e₁.phase ++ e₁.backlog.items ++ .launder :: later := by
    rw [hexecuted, hrest] at hlater
    simpa using hlater
  exact hnone (by simp [hafter])

/-- The laundry that undressing asks for is never lost, whatever the capacity. When an undisturbed
engine rests and nothing is left to be read, the socks are clean, and every undressing has been
followed by laundering. A turn that ends an undressing leaves the laundry alone in the inbox. From
then on no action is taken in before it, it is not dropped, and whenever the engine has come to rest
it has been done, right behind the chores that were in hand or waited. -/
theorem laundry_never_lost (hf : Furnished True (fun _ => false) setup)
    (h : Reached setup capacity e) (hu : Undisturbed e) :
    (e.isBusy = false → e.world.inbox = [] →
      e.world.host.dirty = false ∧ ¬Soiled e.world.executed) ∧
    ∀ {e₁}, e.turn? setup = some e₁ → Undisturbed e₁ → ∃ ended,
      e₁.world.executed = e.world.executed ++ ended ∧
      e₁.world.sent = e.world.sent ++ ended.flatMap Chore.mail ∧
      (.undress ∈ ended → e₁.world.inbox = [.dispatch .launder] ∧
        ∀ {e₂}, Run setup e₁ e₂ → Undisturbed e₂ →
          (∃ fresh, Admits e₁ fresh e₂ ∧ ∀ first ∈ fresh.head?, first = ⟨.launder, false⟩) ∧
          (e₂.isBusy = false → e₂.world.inbox = [] → ∃ later, e₂.world.executed =
            e₁.world.executed ++ inHand e₁.phase ++ e₁.backlog.items ++ .launder :: later)) := by
  refine ⟨fun hidle hempty => ?_, fun ht hu₁ => ?_⟩
  · have hclean := h.not_soiled hf hu hidle hempty
    have hdirty : e.world.host.dirty = true ↔ Soiled e.world.executed := by
      obtain ⟨clock, hhost⟩ := (h.clad hf).at_rest hidle
      rw [hhost]
      exact Closet.dirty_afterAll _
    exact ⟨Bool.eq_false_iff.mpr (mt hdirty.mp hclean), hclean⟩
  · have h₁ : Reached setup capacity _ := h.tail (.turn ht)
    have hopen := (hu.listening h.reachable).2
    cases h.tidies hf ht hu₁ with
    | beside brings none =>
      refine ⟨_, brings.executed, ?_, fun hmem => absurd hmem none⟩
      rw [mail_of_notMem none]
      exact (brings.inbox trivial hopen hu₁.handles).2
    | undressed inbox room brings once =>
      obtain ⟨hinbox, hsent⟩ := brings.inbox trivial hopen hu₁.handles
      rw [inbox] at hinbox
      refine ⟨_, brings.executed, ?_, fun _ => ⟨hinbox, fun hrun hu₂ => ?_⟩⟩
      · rw [List.flatMap_cons, mail_of_notMem once]
        exact hsent
      · have howed := Owed.of_brings brings inbox room hopen hu₁.handles
        refine ⟨?_, howed.executed h₁ hf hu₂ hrun⟩
        obtain ⟨fresh, hadmits, ⟨rfl, -⟩ | ⟨later, rfl⟩⟩ := howed.run h₁.reachable hu₂ hrun
        · exact ⟨[], hadmits, by simp⟩
        · exact ⟨_, hadmits, by simp⟩

/-- Chores are asked for from outside. -/
def asking (chores : List Chore) (e : Engine Closet Chore) : Engine Closet Chore :=
  e.interact ⟨e.world.host, chores.map fun chore => .send (.dispatch chore), ()⟩

/-- The first errand is run, if there is one. -/
def errandDone (e : Engine Closet Chore) : Engine Closet Chore :=
  match e.world.host.errands with
  | [] => e
  | errand :: _ =>
    e.interact (errand.run { e.world.host with errands := e.world.host.errands.erase errand })

theorem asking_happens (chores : List Chore) (e : Engine Closet Chore) :
    Happens setup e (asking chores e) := by
  refine .ask e fun request hrequest => ?_
  obtain ⟨chore, -, rfl⟩ := List.mem_map.mp hrequest
  exact not_false

theorem errandDone_run (e : Engine Closet Chore) : Run setup e (errandDone e) := by
  unfold errandDone
  split
  · exact .refl
  · rename_i herrands
    exact .single (.errand (by simp [herrands]))

/-- Nothing may wait in this wardrobe. It was dressed, it is being undressed, and dressing was asked
for meanwhile and dropped. The coat has just been taken off. -/
def muddyRun : Engine Closet Chore :=
  let setup := Wardrobe.setup (outfit fun _ => false)
  let dressed := (errandDone ((asking [.dress]
    (.initial 0 (.initial .initial 2 []))).takeTurns setup 2)).takeTurns setup 1
  errandDone ((asking [.undress, .dress] dressed).takeTurns setup 2)

/-- The coat's answer has been heard. -/
def undressedRun : Engine Closet Chore :=
  muddyRun.takeTurns (Wardrobe.setup (outfit fun _ => false)) 1

def launderedRun : Engine Closet Chore :=
  undressedRun.takeTurns (Wardrobe.setup (outfit fun _ => false)) 1

theorem muddyRun_reached :
    Reached (Wardrobe.setup (outfit fun _ => false)) 0 muddyRun :=
  ⟨2, [], .trans (.trans (.head (asking_happens _ _) (Run.takeTurns 2 _)) (errandDone_run _))
    (.trans (.trans (Run.takeTurns 1 _) (.head (asking_happens _ _) (Run.takeTurns 2 _)))
      (errandDone_run _))⟩

theorem muddyRun_laundered :
    Furnished True (fun _ => false) (Wardrobe.setup (outfit fun _ => false)) ∧
    Reached (Wardrobe.setup (outfit fun _ => false)) 0 muddyRun ∧ Undisturbed muddyRun ∧
    muddyRun.turn? (Wardrobe.setup (outfit fun _ => false)) = some undressedRun ∧
    Undisturbed undressedRun ∧ undressedRun.world.executed = [.dress, .undress] ∧
    undressedRun.world.inbox = [.dispatch .launder] ∧
    Run (Wardrobe.setup (outfit fun _ => false)) undressedRun launderedRun ∧
    Undisturbed launderedRun ∧ launderedRun.isBusy = false ∧ launderedRun.world.inbox = [] ∧
    launderedRun.world.dropped = [.dress] ∧
    ∃ later, launderedRun.world.executed = [.dress, .undress] ++ .launder :: later := by
  have hf := furnished_setup True fun _ => false
  have hundisturbed : ∀ e : Engine Closet Chore,
      (e.world.handles, e.world.taken.contains .shutdown, e.life) = (2, false, .running) →
        Undisturbed e := fun e h => by
    simp only [Prod.mk.injEq, List.contains_eq_mem, decide_eq_false_iff_not] at h
    exact ⟨by simp [h.1], h.2.1, by simp [h.2.2]⟩
  have hu : Undisturbed muddyRun := hundisturbed _ (by cbv)
  have hu₁ : Undisturbed undressedRun := hundisturbed _ (by cbv)
  have hu₂ : Undisturbed launderedRun := hundisturbed _ (by cbv)
  have ht : muddyRun.turn? (Wardrobe.setup (outfit fun _ => false)) = some undressedRun := by cbv
  have hstates : (muddyRun.world.executed, undressedRun.world.executed, undressedRun.phase,
      undressedRun.backlog.items, launderedRun.isBusy, launderedRun.world.inbox,
      launderedRun.world.dropped) =
      ([.dress], [.dress, .undress], .idle, [], false, [], [.dress]) := by cbv
  simp only [Prod.mk.injEq] at hstates
  obtain ⟨hexecuted, hexecuted₁, hphase, hbacklog, hidle, hempty, hdropped⟩ := hstates
  have hrun : Run (Wardrobe.setup (outfit fun _ => false)) undressedRun launderedRun :=
    .takeTurns 1 undressedRun
  obtain ⟨ended, hended, -, hlaundry⟩ := (laundry_never_lost hf muddyRun_reached hu).2 ht hu₁
  have hundress : .undress ∈ ended := by
    rw [hexecuted, hexecuted₁] at hended
    obtain rfl : ended = [.undress] := by simpa using hended.symm
    exact List.mem_singleton_self _
  obtain ⟨hinbox, hlater⟩ := hlaundry hundress
  obtain ⟨later, hlater⟩ := (hlater hrun hu₂).2 hidle hempty
  rw [hexecuted₁, hphase, hbacklog] at hlater
  exact ⟨hf, muddyRun_reached, hu, ht, hu₁, hexecuted₁, hinbox, hrun, hu₂, hidle, hempty, hdropped,
    later, hlater⟩

end Wardrobe

end Concord
