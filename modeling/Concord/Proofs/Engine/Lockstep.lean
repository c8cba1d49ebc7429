import Concord.Proofs.Engine.Plays
import Concord.Proofs.Engine.Preservation
import Mathlib.Data.List.Forall2

/-!
# Two engines in step

An engine looks at nothing in its world but the inbox, the handles and the channel, and it acts on
its world through few operations. If a relation between two worlds respects these, two engines that
are put through corresponding moves do the same, turn by turn. `World.Lockstep` collects what the
relation has to respect. The two backlogs may differ in capacity as long as nothing is dropped.
-/
namespace Concord

variable {σ τ α : Type}

/-- Called in related worlds, the two stores answer alike and leave the worlds related. -/
structure Store.Pairs (R : World σ α → World τ α → Prop) (name : StoreName) (s : Store σ α)
    (s' : Store τ α) : Prop where
  answer : ∀ {w w'} action, R w w' →
    (s.vote action w.host).answer = (s'.vote action w'.host).answer
  vote : ∀ {w w'} action, R w w' →
    R ((w.record (.called (.vote name action))).absorb (.store name) (s.vote action w.host))
      ((w'.record (.called (.vote name action))).absorb (.store name) (s'.vote action w'.host))
  complete : ∀ {w w'} action ticket, R w w' →
    R ((w.record (.called (.complete name action ticket))).absorb (.store name)
        (s.complete action ticket w.host))
      ((w'.record (.called (.complete name action ticket))).absorb (.store name)
        (s'.complete action ticket w'.host))
  signal : ∀ {w w'} action, R w w' →
    R ((w.record (.called (.signal name action))).absorb (.store name) (s.signal action w.host))
      ((w'.record (.called (.signal name action))).absorb (.store name) (s'.signal action w'.host))

/-- Whether an engine puts the step on record without calling a store or an observer. -/
def Entry.isRemark : Entry α → Bool
  | called _ => false
  | entry => entry.isOwn

/-- The two entries bind the same name, to stores that answer alike. -/
structure EntriesPair (R : World σ α → World τ α → Prop) (entry : StoreName × Store σ α)
    (entry' : StoreName × Store τ α) : Prop where
  name : entry.1 = entry'.1
  store : entry.2.Pairs R entry.1 entry'.2

/-- The two moves differ at most in what the outside does, and that leaves the worlds related. -/
inductive Move.Pairs (R : World σ α → World τ α → Prop) : Move σ α → Move τ α → Prop where
  | turn : Pairs R .turn .turn
  | outside {act : σ → Reaction σ α Unit} {act' : τ → Reaction τ α Unit}
      (h : ∀ {w w'}, R w w' →
        R (w.absorb .outside (act w.host)) (w'.absorb .outside (act' w'.host))) :
      Pairs R (.outside act) (.outside act')
  | kill : Pairs R .kill .kill

theorem map_fst_eq {β γ : Type} {entries : List (StoreName × β)} {entries' : List (StoreName × γ)}
    (h : List.Forall₂ (fun entry entry' => entry.1 = entry'.1) entries entries') :
    entries.map Prod.fst = entries'.map Prod.fst := by
  rw [← List.forall₂_eq_eq_eq, List.forall₂_map_left_iff, List.forall₂_map_right_iff]
  exact h

/-- Rosters that pair bind the same names. -/
theorem Roster.find?_pairs {R : World σ α → World τ α → Prop} {r : Roster (Store σ α)}
    {r' : Roster (Store τ α)} (h : List.Forall₂ (EntriesPair R) r.entries r'.entries)
    (name : StoreName) :
    (r.find? name = none ∧ r'.find? name = none) ∨
      ∃ s s', r.find? name = some s ∧ r'.find? name = some s' ∧ s.Pairs R name s' := by
  unfold find?
  generalize r.entries = entries, r'.entries = entries' at h
  induction h with
  | nil => exact .inl ⟨rfl, rfl⟩
  | @cons entry entry' rest rest' hentry _ ih =>
    by_cases hname : entry.1 = name
    · have hname' : entry'.1 = name := hentry.name.symm.trans hname
      right
      refine ⟨entry.2, entry'.2, ?_, ?_, hname ▸ hentry.store⟩
      · rw [List.find?_cons_of_pos (by simpa using hname), Option.map_some]
      · rw [List.find?_cons_of_pos (by simpa using hname'), Option.map_some]
    · have hname' : ¬ entry'.1 = name := fun h => hname (hentry.name.trans h)
      rw [List.find?_cons_of_neg (by simpa using hname),
        List.find?_cons_of_neg (by simpa using hname')]
      exact ih

namespace Backlog

/-- Of two backlogs with the same items both are empty, or both have the same oldest item. -/
theorem oldest?_pairs {b b' : Backlog α} (h : b.items = b'.items) :
    (b.oldest? = none ∧ b'.oldest? = none) ∨
      ∃ item c c', b.oldest? = some (item, c) ∧ b'.oldest? = some (item, c') ∧
        c.items = c'.items ∧ c.capacity = b.capacity ∧ c'.capacity = b'.capacity := by
  cases ho : b.oldest? with
  | none =>
    have hitems := oldest?_eq_none_iff.mp ho
    exact .inl ⟨rfl, oldest?_eq_none_iff.mpr (h ▸ hitems)⟩
  | some next =>
    cases ho' : b'.oldest? with
    | none =>
      have hitems := oldest?_eq_none_iff.mp ho'
      rw [← h, ← oldest?_eq_none_iff, ho] at hitems
      cases hitems
    | some next' =>
      obtain ⟨item, c⟩ := next
      obtain ⟨item', c'⟩ := next'
      obtain ⟨hitems, hcapacity⟩ := items_of_oldest?_eq_some ho
      obtain ⟨hitems', hcapacity'⟩ := items_of_oldest?_eq_some ho'
      rw [hitems, hitems'] at h
      obtain ⟨rfl, hrest⟩ := List.cons.inj h
      exact .inr ⟨item, c, c', rfl, rfl, hrest, hcapacity, hcapacity'⟩

/-- What has a place in one of two backlogs with the same items has one in the larger. -/
theorem put_pairs {b b' c : Backlog α} {item : α} (h : b.items = b'.items)
    (hle : b.capacity ≤ b'.capacity) (hput : b.put item = .ok c) :
    ∃ c', b'.put item = .ok c' ∧ c.items = c'.items ∧ c.capacity = b.capacity ∧
      c'.capacity = b'.capacity := by
  obtain ⟨hitems, hcapacity⟩ := items_of_put_eq_ok hput
  cases hput' : b'.put item with
  | error back =>
    have hfull := (put_eq_error_iff.mp hput').1
    have hroom : b.length < b.capacity := by
      by_contra hno
      have hback : b.put item = .error item :=
        put_eq_error_iff.mpr ⟨Nat.le_antisymm b.length_le_capacity (Nat.not_lt.mp hno), rfl⟩
      rw [hput] at hback
      cases hback
    rw [length, h] at hroom
    rw [length] at hfull
    omega
  | ok c' =>
    obtain ⟨hitems', hcapacity'⟩ := items_of_put_eq_ok hput'
    exact ⟨c', rfl, by rw [hitems, hitems', h], hcapacity, hcapacity'⟩

end Backlog

namespace World

/-- Nothing that an engine does by itself, with the one setup or the other, ends the relation
between its world and the other engine's. The two are announced with the given capacities. -/
structure Lockstep (setup : Setup σ α) (setup' : Setup τ α) (capacity capacity' : Nat)
    (R : World σ α → World τ α → Prop) : Prop where
  stores : List.Forall₂ (EntriesPair R) setup.stores.entries setup'.stores.entries
  sameInbox : ∀ {w w'}, R w w' → w.inbox = w'.inbox
  sameHandles : ∀ {w w'}, R w w' → w.handles = w'.handles
  sameChannel : ∀ {w w'}, R w w' → w.channel = w'.channel
  announce : ∀ {w w'} event, R w w' → R (w.announce setup event) (w'.announce setup' event)
  record : ∀ {w w'} entry, entry.isRemark = true → R w w' → R (w.record entry) (w'.record entry)
  started : ∀ {w w'} stores, R w w' →
    R (w.note (.started stores capacity)) (w'.note (.started stores capacity'))
  channel : ∀ {w w'} channel, R w w' → R { w with channel } { w' with channel }
  take : ∀ {w w'} inbox, R w w' → R { w with inbox } { w' with inbox }
  close : ∀ {w w'}, R w w' → R { w with isOpen := false } { w' with isOpen := false }
  discard : ∀ {w w'}, R w w' → R w.discardInbox w'.discardInbox

namespace Lockstep

variable {setup : Setup σ α} {setup' : Setup τ α} {capacity capacity' : Nat}
  {R : World σ α → World τ α → Prop} (hR : Lockstep setup setup' capacity capacity' R)

include hR

theorem names : setup.stores.names = setup'.stores.names :=
  map_fst_eq (hR.stores.imp fun _ _ h => h.name)

theorem size : setup.stores.size = setup'.stores.size := by
  simpa [Roster.names, Roster.size] using congrArg List.length hR.names

theorem contains : setup.stores.contains = setup'.stores.contains := by
  funext s
  rw [Bool.eq_iff_iff, Roster.contains_eq_true_iff, Roster.contains_eq_true_iff, hR.names]

theorem canvass (action : α) {entries : List (StoreName × Store σ α)}
    {entries' : List (StoreName × Store τ α)} (h : List.Forall₂ (EntriesPair R) entries entries')
    {w : World σ α} {w' : World τ α} (hw : R w w') :
    (World.canvass action entries w).1 = (World.canvass action entries' w').1 ∧
      R (World.canvass action entries w).2 (World.canvass action entries' w').2 := by
  induction h generalizing w w' with
  | nil => exact ⟨rfl, hw⟩
  | @cons entry entry' rest rest' hentry _ ih =>
    obtain ⟨name, store⟩ := entry
    obtain ⟨name', store'⟩ := entry'
    obtain ⟨rfl, hstore⟩ := hentry
    have hvoted := hR.record (.voted ⟨name, (store.vote action w.host).answer⟩) rfl
      (hstore.vote action hw)
    unfold World.canvass
    dsimp only
    rw [← hstore.answer action hw]
    obtain ⟨hballots, hrest⟩ := ih hvoted
    exact ⟨congrArg (_ :: ·) hballots, hrest⟩

theorem assign {name : StoreName} {s : Store σ α} {s' : Store τ α} (hs : s.Pairs R name s')
    (action : α) {w : World σ α} {w' : World τ α} (hw : R w w') :
    R (w.assign name s action) (w'.assign name s' action) := by
  unfold World.assign
  rw [← hR.sameChannel hw]
  exact hs.complete action (w.channel.ticket + 1) (hR.channel ⟨w.channel.ticket + 1, none⟩ hw)

theorem signal (action : α) (name : StoreName) {w : World σ α} {w' : World τ α} (hw : R w w') :
    R (w.signal setup action name) (w'.signal setup' action name) := by
  unfold World.signal
  rcases Roster.find?_pairs hR.stores name with ⟨hf, hf'⟩ | ⟨s, s', hf, hf', hs⟩
  · rw [hf, hf']
    exact hw
  · rw [hf, hf']
    exact hs.signal action hw

theorem signals (action : α) (names : List StoreName) {w : World σ α} {w' : World τ α}
    (hw : R w w') :
    R (names.foldl (World.signal setup action) w) (names.foldl (World.signal setup' action) w') :=
  List.foldl_rel hw fun name _ _ _ hw => hR.signal action name hw

theorem announceOutcome (name : StoreName) (action : α) (outcome : Outcome) {w : World σ α}
    {w' : World τ α} (hw : R w w') :
    R (w.announceOutcome setup name action outcome)
      (w'.announceOutcome setup' name action outcome) := by
  unfold World.announceOutcome
  cases outcome.failure? with
  | none => exact hR.announce _ hw
  | some why => exact hR.announce _ (hR.record (.noted _) rfl hw)

theorem drafted (action : α) (names : List StoreName) {w : World σ α} {w' : World τ α}
    (hw : R w w') :
    R (names.foldl (fun world name => world.note (.drafted name action)) w)
      (names.foldl (fun world name => world.note (.drafted name action)) w') :=
  List.foldl_rel hw fun name _ _ _ hw => hR.record (.noted (.drafted name action)) rfl hw

end Lockstep

end World

namespace Engine

open World (Lockstep)

/-- The two engines differ in nothing but their worlds, which are related, and their capacities. -/
structure Abreast (capacity capacity' : Nat) (R : World σ α → World τ α → Prop) (e : Engine σ α)
    (d : Engine τ α) : Prop where
  world : R e.world d.world
  items : e.backlog.items = d.backlog.items
  phase : e.phase = d.phase
  listening : e.listening = d.listening
  tally : e.tally = d.tally
  life : e.life = d.life
  capacity : e.backlog.capacity = capacity
  capacity' : d.backlog.capacity = capacity'

/-- The second engine has a place for whatever the first has had a place for so far. -/
def Room (capacity capacity' : Nat) (e : Engine σ α) : Prop :=
  capacity = capacity' ∨ capacity ≤ capacity' ∧ e.tally.dropped = 0

def AbreastIfRoom (capacity capacity' : Nat) (R : World σ α → World τ α → Prop) (e : Engine σ α)
    (d : Engine τ α) : Prop :=
  e.Room capacity capacity' → Abreast capacity capacity' R e d

theorem accept_of_idle {setup : Setup σ α} {e : Engine σ α} {action : α} (h : e.isBusy = false) :
    e.accept setup action =
      ((e.announce setup (.dispatch action)).undertake setup action).undertakeWaiting setup := by
  unfold accept
  exact if_neg (Bool.eq_false_iff.mp h)

theorem accept_of_place {setup : Setup σ α} {e : Engine σ α} {action : α} {backlog : Backlog α}
    (h : e.isBusy = true) (hput : e.backlog.put action = .ok backlog) :
    e.accept setup action = { e.announce setup (.dispatch action) with backlog } := by
  have hput' : (e.announce setup (.dispatch action)).backlog.put action = .ok backlog := hput
  unfold accept
  dsimp only
  rw [if_pos (by exact h), hput']

theorem accept_of_full {setup : Setup σ α} {e : Engine σ α} {action back : α}
    (h : e.isBusy = true) (hput : e.backlog.put action = .error back) :
    e.accept setup action = (((e.announce setup (.dispatch action)).note
      (.backlogFull back e.backlog.capacity)).countDropped).announce setup (.drop back) := by
  have hput' : (e.announce setup (.dispatch action)).backlog.put action = .error back := hput
  unfold accept
  dsimp only
  rw [if_pos (by exact h), hput']
  rfl

namespace Abreast

variable {setup : Setup σ α} {setup' : Setup τ α} {capacity capacity' : Nat}
  {R : World σ α → World τ α → Prop} {e : Engine σ α} {d : Engine τ α}

theorem initial {w : World σ α} {w' : World τ α} (hw : R w w') :
    Abreast capacity capacity' R (.initial capacity w) (.initial capacity' w') :=
  ⟨hw, rfl, rfl, rfl, rfl, rfl, rfl, rfl⟩

theorem isBusy (h : Abreast capacity capacity' R e d) : e.isBusy = d.isBusy := by
  rw [Engine.isBusy, Engine.isBusy, h.phase]

theorem status (h : Abreast capacity capacity' R e d) : e.status = d.status := by
  rw [Engine.status, Engine.status, h.isBusy, Backlog.length, Backlog.length, h.items, h.tally]

theorem withWorld (h : Abreast capacity capacity' R e d) {w : World σ α} {w' : World τ α}
    (hw : R w w') : Abreast capacity capacity' R { e with world := w } { d with world := w' } :=
  ⟨hw, h.items, h.phase, h.listening, h.tally, h.life, h.capacity, h.capacity'⟩

theorem withPhase (h : Abreast capacity capacity' R e d) (phase : Phase α) :
    Abreast capacity capacity' R { e with phase } { d with phase } :=
  ⟨h.world, h.items, rfl, h.listening, h.tally, h.life, h.capacity, h.capacity'⟩

theorem withTally (h : Abreast capacity capacity' R e d) (count : Tally → Tally) :
    Abreast capacity capacity' R { e with tally := count e.tally }
      { d with tally := count d.tally } :=
  ⟨h.world, h.items, h.phase, h.listening, congrArg count h.tally, h.life, h.capacity, h.capacity'⟩

theorem withBacklog (h : Abreast capacity capacity' R e d) {b b' : Backlog α}
    (hitems : b.items = b'.items) (hcapacity : b.capacity = e.backlog.capacity)
    (hcapacity' : b'.capacity = d.backlog.capacity) :
    Abreast capacity capacity' R { e with backlog := b } { d with backlog := b' } :=
  ⟨h.world, hitems, h.phase, h.listening, h.tally, h.life, hcapacity.trans h.capacity,
    hcapacity'.trans h.capacity'⟩

variable (hR : Lockstep setup setup' capacity capacity' R)

include hR

theorem note (h : Abreast capacity capacity' R e d) (notice : Notice α)
    (hn : notice.isOwn = true) : Abreast capacity capacity' R (e.note notice) (d.note notice) :=
  h.withWorld (hR.record (.noted notice) hn h.world)

theorem announce (h : Abreast capacity capacity' R e d) (event : Event α) :
    Abreast capacity capacity' R (e.announce setup event) (d.announce setup' event) :=
  h.withWorld (hR.announce event h.world)

theorem release (h : Abreast capacity capacity' R e d) :
    Abreast capacity capacity' R (e.release setup) (d.release setup') :=
  (h.withPhase .idle).announce hR .unlock

theorem conclude (h : Abreast capacity capacity' R e d) (walk : Walk α) :
    Abreast capacity capacity' R (e.conclude setup walk) (d.conclude setup' walk) :=
  (((h.withWorld (hR.signals walk.action walk.acked h.world)).note hR (.complete ..) rfl).withTally
    fun tally => { tally with processed := tally.processed + 1 }).release hR

theorem visit (h : Abreast capacity capacity' R e d) (names : List StoreName) (walk : Walk α) :
    Abreast capacity capacity' R (visit setup names walk e) (visit setup' names walk d) := by
  induction names generalizing walk e d with
  | nil => exact h.conclude hR walk
  | cons name rest ih =>
    unfold Engine.visit
    rcases Roster.find?_pairs hR.stores name with ⟨hf, hf'⟩ | ⟨s, s', hf, hf', hs⟩
    · rw [hf, hf']
      exact ih h walk.skip
    · rw [hf, hf']
      have hassigned := hR.assign hs walk.action
        (hR.announce (.execute name walk.action) h.world)
      dsimp only
      rw [← hR.sameChannel hassigned]
      split
      · exact (h.withWorld hassigned).withPhase _
      · exact ih (h.withWorld (hR.announceOutcome name walk.action _ hassigned)) _

theorem carryOn (h : Abreast capacity capacity' R e d) (walk : Walk α) (store : StoreName)
    (outcome : Outcome) :
    Abreast capacity capacity' R (e.carryOn setup walk store outcome)
      (d.carryOn setup' walk store outcome) :=
  ((h.withPhase .idle).withWorld
    (hR.announceOutcome store walk.action outcome h.world)).visit hR _ _

theorem weigh (h : Abreast capacity capacity' R e d) (action : α) :
    (e.weigh setup action).1 = (d.weigh setup' action).1 ∧
      Abreast capacity capacity' R (e.weigh setup action).2 (d.weigh setup' action).2 := by
  obtain ⟨hballots, hcanvassed⟩ := hR.canvass action hR.stores h.world
  unfold Engine.weigh
  dsimp only
  rw [← hR.contains, ← hballots]
  exact ⟨rfl, h.withWorld (hR.drafted action _ hcanvassed)⟩

theorem undertake (h : Abreast capacity capacity' R e d) (action : α) :
    Abreast capacity capacity' R (e.undertake setup action) (d.undertake setup' action) := by
  obtain ⟨hverdict, hweighed⟩ := (h.announce hR .lock).weigh hR action
  unfold Engine.undertake
  generalize (e.announce setup .lock).weigh setup action = weighed at hverdict hweighed
  generalize (d.announce setup' .lock).weigh setup' action = weighed' at hverdict hweighed
  obtain ⟨verdict, e₁⟩ := weighed
  obtain ⟨verdict', d₁⟩ := weighed'
  cases hverdict
  cases verdict with
  | error error =>
    exact (((hweighed.note hR (.aborting action error) rfl).withTally fun tally =>
      { tally with aborted := tally.aborted + 1 }).announce hR (.abort action error)).release hR
  | ok order =>
    cases order with
    | nil =>
      exact ((hweighed.note hR (.nobodyApproved action) rfl).withTally fun tally =>
        { tally with processed := tally.processed + 1 }).release hR
    | cons first others => exact (hweighed.note hR (.executing ..) rfl).visit hR _ _

theorem undertakeUpTo (h : Abreast capacity capacity' R e d) (n : Nat) :
    Abreast capacity capacity' R (e.undertakeUpTo setup n) (d.undertakeUpTo setup' n) := by
  induction n generalizing e d with
  | zero => exact h
  | succ n ih =>
    unfold Engine.undertakeUpTo
    rw [← h.isBusy]
    split
    · exact h
    rcases Backlog.oldest?_pairs h.items with
      ⟨ho, ho'⟩ | ⟨action, b, b', ho, ho', hitems, hcapacity, hcapacity'⟩
    · rw [ho, ho']
      exact h
    · rw [ho, ho']
      exact ih ((h.withBacklog hitems hcapacity hcapacity').undertake hR action)

theorem undertakeWaiting (h : Abreast capacity capacity' R e d) :
    Abreast capacity capacity' R (e.undertakeWaiting setup) (d.undertakeWaiting setup') := by
  unfold Engine.undertakeWaiting
  rw [Backlog.length, Backlog.length, ← h.items]
  exact h.undertakeUpTo hR _

/-- Whatever has a place in the first backlog has one in the second. That the first has none for an
action is allowed only when the capacities are the same. -/
theorem accept (h : Abreast capacity capacity' R e d) (action : α)
    (hroom : (e.accept setup action).Room capacity capacity') :
    Abreast capacity capacity' R (e.accept setup action) (d.accept setup' action) := by
  have hannounced := h.announce hR (.dispatch action)
  cases hbusy : e.isBusy with
  | false =>
    rw [accept_of_idle hbusy, accept_of_idle (h.isBusy.symm.trans hbusy)]
    exact (hannounced.undertake hR action).undertakeWaiting hR
  | true =>
    have hbusy' := h.isBusy.symm.trans hbusy
    cases hput : e.backlog.put action with
    | ok b =>
      have hle : e.backlog.capacity ≤ d.backlog.capacity := by
        rw [h.capacity, h.capacity']
        exact hroom.elim Nat.le_of_eq And.left
      obtain ⟨b', hput', hitems, hcapacity, hcapacity'⟩ := Backlog.put_pairs h.items hle hput
      rw [accept_of_place hbusy hput, accept_of_place hbusy' hput']
      exact hannounced.withBacklog hitems hcapacity hcapacity'
    | error back =>
      rw [accept_of_full hbusy hput] at hroom ⊢
      have hsame : e.backlog.capacity = d.backlog.capacity := by
        rw [h.capacity, h.capacity']
        exact hroom.resolve_right fun hdropped => Nat.succ_ne_zero _ hdropped.2
      obtain ⟨hfull, rfl⟩ := Backlog.put_eq_error_iff.mp hput
      have hput' : d.backlog.put back = .error back := by
        rw [Backlog.put_eq_error_iff, ← hsame, ← hfull, Backlog.length, Backlog.length, h.items]
        exact ⟨rfl, rfl⟩
      rw [accept_of_full hbusy' hput', ← hsame]
      exact ((hannounced.note hR (.backlogFull back _) rfl).withTally fun tally =>
        { tally with dropped := tally.dropped + 1 }).announce hR (.drop back)

theorem obey (h : Abreast capacity capacity' R e d) (message : Message α)
    (hroom : (e.obey setup message).Room capacity capacity') :
    Abreast capacity capacity' R (e.obey setup message) (d.obey setup' message) := by
  cases message with
  | dispatch action => exact h.accept hR action hroom
  | status inquiry =>
    unfold Engine.obey
    rw [← h.status]
    exact h.withWorld (hR.record (.answered inquiry (some e.status)) rfl h.world)
  | shutdown =>
    unfold Engine.obey
    rw [Backlog.length, Backlog.length, ← h.items]
    have hnoted := h.note hR (.shuttingDown e.backlog.items.length) rfl
    exact ⟨hR.close hnoted.world, h.items, h.phase, rfl, h.tally, h.life, h.capacity, h.capacity'⟩

theorem taking (h : Abreast capacity capacity' R e d) (message : Message α)
    (inbox : List (Message α)) :
    Abreast capacity capacity' R (e.taking message inbox) (d.taking message inbox) :=
  h.withWorld (hR.record (.took message) rfl (hR.take inbox h.world))

omit hR in
theorem deafened (h : Abreast capacity capacity' R e d) :
    Abreast capacity capacity' R { e with listening := false } { d with listening := false } :=
  ⟨h.world, h.items, h.phase, rfl, h.tally, h.life, h.capacity, h.capacity'⟩

theorem stop (h : Abreast capacity capacity' R e d) :
    Abreast capacity capacity' R e.stop d.stop := by
  unfold Engine.stop
  rw [← h.tally]
  have hnoted := h.note hR (.stopped e.tally.processed e.tally.dropped e.tally.aborted) rfl
  exact ⟨hR.discard hnoted.world, h.items, h.phase, h.listening, h.tally, rfl, h.capacity,
    h.capacity'⟩

theorem kill (h : Abreast capacity capacity' R e d) :
    Abreast capacity capacity' R e.kill d.kill := by
  unfold Engine.kill
  rw [← h.life]
  split
  · exact ⟨hR.discard h.world, h.items, h.phase, h.listening, h.tally, rfl, h.capacity, h.capacity'⟩
  · exact ⟨hR.discard h.world, h.items, h.phase, h.listening, h.tally, rfl, h.capacity, h.capacity'⟩
  · exact h
  · exact h

theorem read? (h : Abreast capacity capacity' R e d) :
    Option.Rel (AbreastIfRoom capacity capacity' R)
      (e.read? setup) (d.read? setup') := by
  unfold Engine.read?
  rw [← hR.sameInbox h.world, ← hR.sameHandles h.world]
  split
  · exact .some ((h.taking hR _ _).obey hR _)
  · split
    · exact .some fun _ => h.deafened
    · exact .none

theorem proceed? (h : Abreast capacity capacity' R e d) (walk : Walk α) (store : StoreName) :
    Option.Rel (AbreastIfRoom capacity capacity' R)
      (e.proceed? setup walk store) (d.proceed? setup' walk store) := by
  unfold Engine.proceed?
  rw [← hR.sameChannel h.world]
  cases e.world.channel.outcome with
  | none => exact .none
  | some outcome => exact .some fun _ => (h.carryOn hR walk store outcome).undertakeWaiting hR

/-- The two engines take a turn together, or there is nothing to do for either. -/
theorem turn? (h : Abreast capacity capacity' R e d) :
    Option.Rel (AbreastIfRoom capacity capacity' R)
      (e.turn? setup) (d.turn? setup') := by
  unfold Engine.turn?
  rw [← h.life]
  split
  · rw [h.capacity, h.capacity', ← hR.size]
    exact .some fun _ => ⟨hR.started _ h.world, h.items, h.phase, h.listening, h.tally, rfl,
      h.capacity, h.capacity'⟩
  · rw [← h.phase, ← h.listening]
    split
    · exact h.read? hR
    · exact .some fun _ => h.stop hR
    · have hread := h.read? hR
      generalize e.read? setup = next, d.read? setup' = next' at hread
      cases hread with
      | some hnext => exact .some hnext
      | none => exact h.proceed? hR _ _
    · exact h.proceed? hR _ _
  · exact .none
  · exact .none

/-- A poll of the one ends when a poll of the other does. -/
theorem stalled (h : Abreast capacity capacity' R e d) :
    (e.turn? setup).isNone = (d.turn? setup').isNone := by
  have hturn := h.turn? hR
  generalize e.turn? setup = next, d.turn? setup' = next' at hturn
  cases hturn <;> rfl

theorem move (h : Abreast capacity capacity' R e d) {m : Move σ α} {m' : Move τ α}
    (hm : m.Pairs R m') (hroom : (e.move setup m).Room capacity capacity') :
    Abreast capacity capacity' R (e.move setup m) (d.move setup' m') := by
  cases hm with
  | turn =>
    have hturn := h.turn? hR
    unfold Engine.move at hroom ⊢
    generalize e.turn? setup = next, d.turn? setup' = next' at hturn hroom ⊢
    cases hturn with
    | some hnext => exact hnext hroom
    | none => exact h
  | outside hact => exact h.withWorld (hact h.world)
  | kill => exact h.kill hR

theorem play (h : Abreast capacity capacity' R e d) {moves : List (Move σ α)}
    {moves' : List (Move τ α)} (hmoves : List.Forall₂ (Move.Pairs R) moves moves')
    (hroom : ∀ before, before <+: moves → (e.play setup before).Room capacity capacity') :
    Abreast capacity capacity' R (e.play setup moves) (d.play setup' moves') := by
  induction hmoves generalizing e d with
  | nil => exact h
  | @cons m m' moves moves' hm _ ih =>
    refine ih (h.move hR hm (hroom [m] ?_)) fun before hbefore => hroom (m :: before) ?_
    · exact List.cons_prefix_cons.mpr ⟨rfl, List.nil_prefix⟩
    · exact List.cons_prefix_cons.mpr ⟨rfl, hbefore⟩

end Abreast

end Engine

end Concord
