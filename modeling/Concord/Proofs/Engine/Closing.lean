import Concord.Proofs.Engine.Conservation
import Concord.Proofs.Engine.Preservation

/-!
# How an engine stops reading

An engine reads its inbox until it takes a shutdown from it, or until no handle is left that could
send to it. `Reading` tells the two apart for as long as the run lasts, and every message that is
read is complied with at once, in its turn.
-/
namespace Concord

variable {σ α : Type}

def Message.inquiry? : Message α → Option Inquiry
  | status inquiry => some inquiry
  | _ => none

namespace Milestone

/-- The message from the inbox that the step complies with. -/
def heeded? : Milestone α → Option (Message α)
  | announced (.dispatch action) => some (.dispatch action)
  | answered inquiry _ => some (.status inquiry)
  | noted (.shuttingDown _) => some .shutdown
  | _ => none

theorem heeded_eq_nil {ms : List (Milestone α)} (h : ∀ m ∈ ms, m.inCourse = true) :
    ms.filterMap heeded? = [] := by
  rw [List.filterMap_eq_nil_iff]
  intro m hm
  have hcourse := h m hm
  unfold heeded?
  split <;> first | rfl | cases hcourse

theorem taken_eq_nil_of_inCourse {ms : List (Milestone α)} (h : ∀ m ∈ ms, m.inCourse = true) :
    ms.filterMap taken? = [] :=
  taken_eq_nil fun m hm => isQuiet_of_inCourse (h m hm)

end Milestone

namespace Entry

theorem isRefusal_of_isOwn {entry : Entry α} (h : entry.isOwn = true) :
    entry.isRefusal = false := by
  unfold isRefusal
  split <;> first | rfl | cases h

end Entry

namespace World

/-- The messages that were complied with, in order. -/
def heeded (w : World σ α) : List (Message α) := w.milestones.filterMap Milestone.heeded?

theorem heeded_of_adds {w w' : World σ α} {ms : List (Milestone α)} (h : w.heeded = w.taken)
    (hw : w.Adds ms w') (hms : ms.filterMap Milestone.heeded? = ms.filterMap Milestone.taken?) :
    w'.heeded = w'.taken := by
  rw [hw.taken, ← hms, ← h, heeded, hw.milestones, List.filterMap_append]
  rfl

/-- Nothing has been turned away so far. -/
def Unrefused (w : World σ α) : Prop := ∀ entry ∈ w.history, entry.isRefusal = false

namespace Unrefused

variable {w : World σ α}

theorem record (h : w.Unrefused) {entry : Entry α} (he : entry.isRefusal = false) :
    (w.record entry).Unrefused := by
  unfold Unrefused
  rw [history_record]
  exact List.forall_mem_append.mpr ⟨h, List.forall_mem_singleton.mpr he⟩

/-- While the inbox is open nothing is turned away, and without a handle nothing can be sent. -/
theorem perform (h : w.Unrefused) (hopen : w.isOpen = true ∨ w.handles = 0) (speaker : Speaker)
    (request : Request α) : (w.perform speaker request).Unrefused := by
  unfold Unrefused history
  rcases perform_past speaker w request with hp | ⟨entry, hp, -, hrefusal⟩
  · rw [hp]
    exact h
  · rw [hp, List.reverse_cons]
    refine List.forall_mem_append.mpr ⟨h, List.forall_mem_singleton.mpr ?_⟩
    rw [← Bool.not_eq_true]
    intro hentry
    obtain ⟨hclosed, hhandles⟩ := hrefusal hentry
    rcases hopen with hopen | hnone
    · rw [hopen] at hclosed
      cases hclosed
    · exact hhandles hnone

end Unrefused

/-- An open inbox has turned nothing away. -/
def Welcoming (w : World σ α) : Prop := w.isOpen = true → w.Unrefused

/-- No handle is left, nor a message to be read, and none was turned away. -/
structure Deserted (w : World σ α) : Prop where
  handles : w.handles = 0
  inbox : w.inbox = []
  unrefused : w.Unrefused

/-- Every message that was sent has been taken or waits in the inbox. -/
def Lossless (w : World σ α) : Prop := w.sent = w.taken ++ w.inbox

theorem Lossless.grows {w w' : World σ α} (h : w.Lossless) {ms : List (Milestone α)}
    (hw : w.Grows ms w') (hms : ms.filterMap Milestone.taken? = []) : w'.Lossless := by
  obtain ⟨arrived, hinbox, hsent, -⟩ := hw.mail
  rw [Lossless, hsent, hinbox, hw.taken, hms, List.append_nil, h, List.append_assoc]

theorem discardInbox_isOpen (w : World σ α) : w.discardInbox.isOpen = false :=
  w.discardInbox_grows.isOpen

theorem welcoming_preserved (setup : Setup σ α) :
    Preserved setup (fun _ => True) (Welcoming (σ := σ) (α := α)) := by
  have hperform : ∀ {w : World σ α} speaker request, True → w.Welcoming →
      (w.perform speaker request).Welcoming := by
    intro w speaker request _ h hopen
    rw [(perform_grows speaker w request).isOpen] at hopen
    exact (h hopen).perform (.inl hopen) speaker request
  have hrecord : ∀ {w : World σ α} {entry : Entry α}, entry.isRefusal = false → w.Welcoming →
      (w.record entry).Welcoming := fun he h hopen => (h hopen).record he
  exact
    { asks := setup.asks_anything
      announce := announce_preserves setup.asks_anything (fun _ => hrecord rfl)
        (fun _ _ => hrecord rfl) (fun _ _ _ => hrecord rfl) (fun _ h => h) hperform
      record := fun _ he => hrecord (Entry.isRefusal_of_isOwn he)
      host := fun _ h => h
      channel := fun _ h => h
      perform := hperform
      take := fun _ _ _ h => h
      close := fun _ hopen => by cases hopen
      discard := fun {w} _ hopen => by
        rw [w.discardInbox_isOpen] at hopen
        cases hopen }

/-- Without a handle none can be made, and nothing can be sent. -/
theorem perform_of_no_handles {w : World σ α} (h : w.handles = 0) (speaker : Speaker)
    (request : Request α) :
    (w.perform speaker request).handles = 0 ∧ (w.perform speaker request).inbox = w.inbox := by
  cases request with
  | send message =>
    have hsame : w.perform speaker (.send message) = w := if_pos h
    rw [hsame]
    exact ⟨h, rfl⟩
  | clone =>
    have hsame : w.perform speaker .clone = w := if_pos h
    rw [hsame]
    exact ⟨h, rfl⟩
  | release => exact ⟨by rw [perform, h], rfl⟩
  | watch observer =>
    change (w.watch observer).handles = 0 ∧ (w.watch observer).inbox = w.inbox
    unfold watch
    split <;> exact ⟨h, rfl⟩
  | unwatch observer => exact ⟨h, rfl⟩
  | resolve ticket outcome =>
    change (w.resolve ticket outcome).handles = 0 ∧ (w.resolve ticket outcome).inbox = w.inbox
    unfold resolve
    split <;> exact ⟨h, rfl⟩
  | write line => exact ⟨h, rfl⟩

theorem deserted_preserved (setup : Setup σ α) :
    Preserved setup (fun _ => True) (Deserted (σ := σ) (α := α)) := by
  have hperform : ∀ {w : World σ α} speaker request, True → w.Deserted →
      (w.perform speaker request).Deserted := by
    intro w speaker request _ h
    obtain ⟨hhandles, hinbox⟩ := perform_of_no_handles h.handles speaker request
    exact ⟨hhandles, hinbox.trans h.inbox, h.unrefused.perform (.inr h.handles) speaker request⟩
  have hrecord : ∀ {w : World σ α} {entry : Entry α}, entry.isRefusal = false → w.Deserted →
      (w.record entry).Deserted := fun he h => ⟨h.handles, h.inbox, h.unrefused.record he⟩
  exact
    { asks := setup.asks_anything
      announce := announce_preserves setup.asks_anything (fun _ => hrecord rfl)
        (fun _ _ => hrecord rfl) (fun _ _ _ => hrecord rfl)
        (fun _ h => ⟨h.handles, h.inbox, h.unrefused⟩) hperform
      record := fun _ he => hrecord (Entry.isRefusal_of_isOwn he)
      host := fun _ h => ⟨h.handles, h.inbox, h.unrefused⟩
      channel := fun _ h => ⟨h.handles, h.inbox, h.unrefused⟩
      perform := hperform
      take := fun _ _ hi h => by
        rw [h.inbox] at hi
        cases hi
      close := fun h => ⟨h.handles, h.inbox, h.unrefused⟩
      discard := fun {w} h => by
        -- There is nothing in the inbox that could be turned away.
        have hsame : w.discardInbox = { w with inbox := [], isOpen := false } := by
          rw [discardInbox, h.inbox]
          rfl
        rw [hsame]
        exact ⟨h.handles, rfl, h.unrefused⟩ }

end World

namespace Engine

variable {setup : Setup σ α} {capacity : Nat} {e e' : Engine σ α}

/-- Whether the engine may still take a turn. -/
def IsAlive (e : Engine σ α) : Prop := e.life = .fresh ∨ e.life = .running

/-- How the reading of the inbox stands: it goes on, or it has ended with the first shutdown or with
the last handle. -/
inductive Reading (e : Engine σ α) : Prop where
  | ongoing (listening : e.listening = true) (unread : .shutdown ∉ e.world.taken)
      (isOpen : e.IsAlive → e.world.isOpen = true)
  | shut {before : List (Message α)} {calm : List (Entry α)} (listening : e.listening = false)
      (isOpen : e.world.isOpen = false) (taken : e.world.taken = before ++ [.shutdown])
      (unread : .shutdown ∉ before) (history : calm ++ [.took .shutdown] <+: e.world.history)
      (calm : ∀ entry ∈ calm, entry.isRefusal = false)
  | deserted (listening : e.listening = false) (unread : .shutdown ∉ e.world.taken)
      (world : e.world.Deserted)

/-- An engine has gone on, or ended, without a change of how it reads. -/
structure Goes (e e' : Engine σ α) : Prop where
  adds : ∃ ms, e.world.Adds ms e'.world ∧ .shutdown ∉ ms.filterMap Milestone.taken? ∧
    (e.listening = false → ms.filterMap Milestone.taken? = [])
  listening : e'.listening = e.listening
  closed : e.world.isOpen = false → e'.world.isOpen = false
  alive : e'.IsAlive → e.IsAlive ∧ e'.world.isOpen = e.world.isOpen

namespace Goes

theorem trans {e'' : Engine σ α} (h : Goes e e') (h' : Goes e' e'') : Goes e e'' := by
  obtain ⟨ms, hw, hms, hnone⟩ := h.adds
  obtain ⟨ms', hw', hms', hnone'⟩ := h'.adds
  refine ⟨⟨ms ++ ms', hw.trans hw', ?_, fun hl => ?_⟩, h'.listening.trans h.listening,
    fun ho => h'.closed (h.closed ho), fun hlife => ?_⟩
  · rw [List.filterMap_append, List.mem_append]
    exact fun hmem => hmem.elim hms hms'
  · rw [List.filterMap_append, hnone hl, hnone' (h.listening.trans hl), List.append_nil]
  · obtain ⟨hlife', ho'⟩ := h'.alive hlife
    obtain ⟨hlife, ho⟩ := h.alive hlife'
    exact ⟨hlife, ho'.trans ho⟩

/-- Steps in which nothing is taken from the inbox. -/
theorem grows {ms : List (Milestone α)} (hw : e.world.Grows ms e'.world)
    (hms : ms.filterMap Milestone.taken? = []) (hl : e'.listening = e.listening)
    (hlife : e'.IsAlive → e.IsAlive) : Goes e e' :=
  ⟨⟨ms, hw.toAdds, by simp [hms], fun _ => hms⟩, hl, hw.isOpen.trans,
    fun h => ⟨hlife h, hw.isOpen⟩⟩

theorem ended {ms : List (Milestone α)} (hw : e.world.Adds ms e'.world)
    (hms : ms.filterMap Milestone.taken? = []) (hl : e'.listening = e.listening)
    (ho : e'.world.isOpen = false) (hlife : ¬e'.IsAlive) : Goes e e' :=
  ⟨⟨ms, hw, by simp [hms], fun _ => hms⟩, hl, fun _ => ho, fun h => absurd h hlife⟩

theorem heard {message : Message α} {inbox : List (Message α)} (hh : e.Hears message inbox)
    {ms : List (Milestone α)} (hw : e.world.Adds ms e'.world)
    (hms : .shutdown ∉ ms.filterMap Milestone.taken?) (hl : e'.listening = e.listening)
    (ho : e'.world.isOpen = e.world.isOpen) : Goes e e' := by
  refine ⟨⟨ms, hw, hms, fun hl => ?_⟩, hl, ho.trans, fun _ => ⟨.inr hh.life, ho⟩⟩
  rw [hh.listening] at hl
  cases hl

theorem hearing (setup : Setup σ α) {action : α} {inbox : List (Message α)}
    (hh : e.Hears (.dispatch action) inbox) : Goes e (e.hearing setup action inbox) :=
  .heard hh (hearing_adds setup action inbox e) (by simp [Milestone.taken?]) rfl
    (World.announce_grows setup _ _).isOpen

theorem undertaken {c : Course α} (hu : Undertaken setup c e e') : Goes e e' := by
  refine .grows hu.world (Milestone.taken_eq_nil_of_inCourse hu.follows.inCourse) ?_ ?_
  · rw [hu.result]
  · intro hlife
    rw [hu.result] at hlife
    exact hlife

theorem continued {c c' : Course α} (hc : Continued setup c c' e e') : Goes e e' := by
  obtain ⟨ms, -, hw, hcourse⟩ := hc.inCourse
  refine .grows hw (Milestone.taken_eq_nil_of_inCourse hcourse) ?_ ?_
  · rw [hc.result]
  · intro hlife
    rw [hc.result] at hlife
    exact hlife

theorem kill (e : Engine σ α) : Goes e e.kill := by
  have hended : Goes e { e with life := .killed, world := e.world.discardInbox } :=
    .ended (World.discardInbox_adds _) rfl rfl (World.discardInbox_isOpen _) (by simp [IsAlive])
  unfold Engine.kill
  split
  · exact hended
  · exact hended
  · exact .grows (.refl _) rfl rfl id
  · exact .grows (.refl _) rfl rfl id

end Goes

namespace Reading

theorem initial (host : σ) (handles : Nat) (observers : List ObserverName) :
    Reading (.initial capacity (.initial host handles observers) : Engine σ α) :=
  .ongoing rfl List.not_mem_nil fun _ => rfl

theorem goes (h : Reading e) (hg : Goes e e') (hd : e.world.Deserted → e'.world.Deserted) :
    Reading e' := by
  obtain ⟨ms, hw, hms, hnone⟩ := hg.adds
  have htaken := hw.taken
  cases h with
  | ongoing listening unread isOpen =>
    refine .ongoing (hg.listening.trans listening) ?_ fun hlife => ?_
    · rw [htaken, List.mem_append]
      exact fun hmem => hmem.elim unread hms
    · obtain ⟨hlife, ho⟩ := hg.alive hlife
      exact ho.trans (isOpen hlife)
  | shut listening isOpen taken unread history calm =>
    rw [hnone listening, List.append_nil] at htaken
    obtain ⟨fresh, hfresh, -⟩ := hw.past
    refine .shut (hg.listening.trans listening) (hg.closed isOpen) (htaken.trans taken) unread ?_
      calm
    rw [hfresh]
    exact history.trans (List.prefix_append _ _)
  | deserted listening unread world =>
    rw [hnone listening, List.append_nil] at htaken
    exact .deserted (hg.listening.trans listening) (by rw [htaken]; exact unread) (hd world)

/-- The first shutdown is taken from an inbox that was open until then. -/
theorem shutting (h : Reading e) (hwelcoming : e.world.Welcoming) {inbox : List (Message α)}
    (hh : e.Hears .shutdown inbox) :
    Reading ((e.taking .shutdown inbox).obey setup .shutdown) := by
  cases h with
  | ongoing listening unread isOpen =>
    have hhistory : ((e.taking .shutdown inbox).obey setup .shutdown).world.history =
        e.world.history ++ [.took .shutdown] ++ [.noted (.shuttingDown e.backlog.length)] := by
      change (World.note (World.record { e.world with inbox } _) _).history = _
      rw [World.note, World.history_record, World.history_record]
      rfl
    refine .shut rfl rfl (shutting_adds setup inbox e).taken unread ?_
      (hwelcoming (isOpen (.inr hh.life)))
    rw [hhistory]
    exact List.prefix_append _ _
  | shut listening =>
    rw [hh.listening] at listening
    cases listening
  | deserted listening =>
    rw [hh.listening] at listening
    cases listening

/-- When no handle is left and nothing is to be read, reading ends. -/
theorem deafened (h : Reading e) (hwelcoming : e.world.Welcoming) (hlife : e.life = .running)
    (hl : e.listening = true) (hi : e.world.inbox = []) (hh : e.world.handles = 0) :
    Reading { e with listening := false } := by
  cases h with
  | ongoing listening unread isOpen =>
    exact .deserted rfl unread ⟨hh, hi, hwelcoming (isOpen (.inr hlife))⟩
  | shut listening =>
    rw [hl] at listening
    cases listening
  | deserted listening =>
    rw [hl] at listening
    cases listening

theorem act (h : Reading e) (hwelcoming : e.world.Welcoming) (ha : Act setup e e') :
    Reading e' := by
  have hd := Act.preserves (World.deserted_preserved setup) ha
  cases ha with
  | started hlife =>
    exact h.goes (.grows (.note e.world (.started ..) rfl) rfl rfl fun _ => .inl hlife) hd
  | begun hh hidle hempty hc hu =>
    exact h.goes ((Goes.hearing setup hh).trans (.undertaken hu)) hd
  | queued hh hbusy hput =>
    exact h.goes (.heard hh (hearing_adds setup _ _ e) (by simp [Milestone.taken?]) rfl
      (World.announce_grows setup _ _).isOpen) hd
  | @dropped action inbox hh hbusy hfull =>
    have hdropped := dropping_grows setup action e.backlog.capacity (e.hearing setup action inbox)
    exact h.goes ((Goes.hearing setup hh).trans (.grows hdropped rfl rfl id)) hd
  | replied hh =>
    exact h.goes (.heard hh (replying_adds setup _ _ e) (by simp [Milestone.taken?]) rfl rfl) hd
  | shut hh => exact h.shutting hwelcoming hh
  | deafened hlife hl hi hh => exact h.deafened hwelcoming hlife hl hi hh
  | continued hlife hl hf hp hw ho hc => exact h.goes (.continued hc) hd
  | @resumed hlife hidle action backlog ho c hc hu =>
    have htake : Goes e { e with backlog } := .grows (.refl _) rfl rfl id
    exact h.goes (htake.trans (.undertaken hu)) hd
  | stopped hlife hp hl =>
    exact h.goes (.ended (stop_adds e) rfl rfl (World.discardInbox_isOpen _)
      (by simp [IsAlive, stop])) hd

end Reading

theorem Reachable.reading (h : Reachable setup capacity e) : Reading e := by
  let J (e : Engine σ α) : Prop := e.world.Welcoming ∧ Reading e
  have hwelcoming := World.welcoming_preserved setup
  have hinteract : ∀ {e} (reaction : Reaction σ α Unit), J e → J (e.interact reaction) := by
    rintro e reaction ⟨hw, hr⟩
    refine ⟨hwelcoming.absorb .outside (fun _ _ => trivial) hw, ?_⟩
    exact hr.goes (.grows (World.absorb_grows .outside reaction e.world) rfl rfl id)
      ((World.deserted_preserved setup).absorb .outside fun _ _ => trivial)
  have hkill : ∀ {e}, J e → J e.kill := fun ⟨hw, hr⟩ => ⟨kill_preserves hwelcoming hw,
    hr.goes (.kill _) (kill_preserves (World.deserted_preserved setup))⟩
  have hboth : J e := h.preserves
    (fun host handles observers => ⟨fun _ => by simp [World.Unrefused, World.history,
      World.initial, Engine.initial], .initial host handles observers⟩)
    (fun ha hj => ⟨ha.preserves hwelcoming hj.1, hj.2.act hj.1 ha⟩) hinteract hkill
  exact hboth.2

/-- Every message is complied with as soon as it is taken. -/
theorem Act.heeded (ha : Act setup e e') (h : e.world.heeded = e.world.taken) :
    e'.world.heeded = e'.world.taken := by
  have hhearing : ∀ action inbox, (e.hearing setup action inbox).world.heeded =
      (e.hearing setup action inbox).world.taken :=
    fun action inbox => World.heeded_of_adds h (hearing_adds setup action inbox e) rfl
  have hcourse : ∀ {ms : List (Milestone α)}, (∀ m ∈ ms, m.inCourse = true) →
      ms.filterMap Milestone.heeded? = ms.filterMap Milestone.taken? := fun hms => by
    rw [Milestone.heeded_eq_nil hms, Milestone.taken_eq_nil_of_inCourse hms]
  cases ha with
  | started hlife => exact World.heeded_of_adds h (World.Grows.note _ (.started ..) rfl).toAdds rfl
  | begun hh hidle hempty hc hu =>
    exact World.heeded_of_adds (hhearing _ _) hu.world.toAdds (hcourse hu.follows.inCourse)
  | queued hh hbusy hput => exact hhearing _ _
  | dropped hh hbusy hfull =>
    exact World.heeded_of_adds (hhearing _ _) (dropping_grows setup _ _ _).toAdds rfl
  | replied hh => exact World.heeded_of_adds h (replying_adds setup _ _ e) rfl
  | shut hh => exact World.heeded_of_adds h (shutting_adds setup _ e) rfl
  | deafened hlife hl hi hh => exact h
  | continued hlife hl hf hp hw ho hc =>
    obtain ⟨ms, -, hgrows, hms⟩ := hc.inCourse
    exact World.heeded_of_adds h hgrows.toAdds (hcourse hms)
  | resumed hlife hidle ho hc hu =>
    exact World.heeded_of_adds h hu.world.toAdds (hcourse hu.follows.inCourse)
  | stopped hlife hp hl => exact World.heeded_of_adds h (stop_adds e) rfl

theorem taking_lossless (h : e.world.Lossless) {message : Message α} {inbox : List (Message α)}
    (hi : e.world.inbox = message :: inbox) : (e.taking message inbox).world.Lossless := by
  have hsent : (e.taking message inbox).world.sent = e.world.sent :=
    (World.sent_record _ rfl).trans (List.append_nil _)
  rw [World.Lossless, hsent, h, hi, (taking_adds e message inbox).taken, List.append_assoc]
  rfl

/-- Until it ends, an engine loses no message. -/
theorem Act.lossless (ha : Act setup e e') (h : e.IsAlive → e.world.Lossless) :
    e'.IsAlive → e'.world.Lossless := by
  intro halive
  have hhearing : ∀ {action inbox}, e.Hears (.dispatch action) inbox →
      (e.hearing setup action inbox).world.Lossless :=
    fun hh => (taking_lossless (h (.inr hh.life)) hh.inbox).grows
      (World.announce_grows setup _ _) rfl
  have hcourse : ∀ {ms : List (Milestone α)}, (∀ m ∈ ms, m.inCourse = true) →
      ms.filterMap Milestone.taken? = [] := Milestone.taken_eq_nil_of_inCourse
  cases ha with
  | started hlife => exact (h (.inl hlife)).grows (.note _ (.started ..) rfl) rfl
  | begun hh hidle hempty hc hu => exact (hhearing hh).grows hu.world (hcourse hu.follows.inCourse)
  | queued hh hbusy hput => exact hhearing hh
  | dropped hh hbusy hfull => exact (hhearing hh).grows (dropping_grows setup _ _ _) rfl
  | @replied inquiry inbox hh =>
    have hreply : (e.taking (.status inquiry) inbox).world.Grows [.answered inquiry e.status]
        ((e.taking (.status inquiry) inbox).obey setup (.status inquiry)).world :=
      .record _ rfl (fun _ => rfl) rfl rfl
    exact (taking_lossless (h (.inr hh.life)) hh.inbox).grows hreply rfl
  | shut hh =>
    have hnoted := (taking_lossless (h (.inr hh.life)) hh.inbox).grows
      (.note _ (.shuttingDown e.backlog.length) rfl) rfl
    exact hnoted
  | deafened hlife hl hi hh => exact h (.inr hlife)
  | continued hlife hl hf hp hw ho hc =>
    obtain ⟨ms, -, hgrows, hms⟩ := hc.inCourse
    exact (h (.inr hlife)).grows hgrows (hcourse hms)
  | resumed hlife hidle ho hc hu =>
    exact World.Lossless.grows (h (.inr hlife)) hu.world (hcourse hu.follows.inCourse)
  | stopped hlife hp hl => exact absurd halive (by simp [IsAlive, stop])

theorem Reachable.lossless (h : Reachable setup capacity e) : e.IsAlive → e.world.Lossless := by
  refine h.preserves (J := fun e => e.IsAlive → e.world.Lossless) (fun _ _ _ _ => rfl) Act.lossless
    (fun reaction h hlife => (h hlife).grows (World.absorb_grows .outside reaction _) rfl) ?_
  intro e h hlife
  unfold kill at hlife ⊢
  split at hlife
  · exact absurd hlife (by simp [IsAlive])
  · exact absurd hlife (by simp [IsAlive])
  · exact h hlife
  · exact h hlife

theorem Reachable.heeded (h : Reachable setup capacity e) : e.world.heeded = e.world.taken :=
  h.preserves (fun _ _ _ => rfl) Act.heeded
    (fun reaction h => World.heeded_of_adds h (World.absorb_grows .outside reaction _).toAdds rfl)
    (fun h => World.heeded_of_adds h (kill_adds _) rfl)

end Engine

end Concord
