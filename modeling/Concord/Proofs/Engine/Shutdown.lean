import Concord.Proofs.Engine.Closing
import Concord.Proofs.Engine.Pipeline
import Concord.Proofs.Engine.Serialization

/-!
# The end of a run

An engine ends by itself only when everything that it accepted has been carried out. It accepts
what was sent before the first shutdown, or all there is when the last handle is gone. What comes
behind the first shutdown has no effect, except that requests for a status are answered with
nothing.
-/
namespace Concord

variable {σ α : Type}

/-- The request that is answered with a status in this step. -/
def Entry.snapshot? : Entry α → Option Inquiry
  | answered inquiry (some _) => some inquiry
  | _ => none

def Milestone.welcomed? : Milestone α → Option α
  | announced (.dispatch action) => some action
  | _ => none

/-- What becomes of the messages that are left in an inbox when it is closed for good. -/
def bereaved (messages : List (Message α)) : List (Entry α) :=
  (messages.filterMap Message.inquiry?).map (.answered · none)

theorem prefix_of_notMem {β : Type} {l before behind : List β} {x : β}
    (h : l <+: before ++ x :: behind) (hx : x ∉ l) : l <+: before := by
  obtain ⟨rest, hl⟩ := h
  obtain ⟨between, rfl, -⟩ := (append_split hl).resolve_left hx
  exact List.prefix_append _ _

namespace World

/-- The requests that were answered with a status, in order. -/
def snapshots (w : World σ α) : List Inquiry := w.history.filterMap Entry.snapshot?

/-- The actions whose arrival was announced, in order. -/
def welcomed (w : World σ α) : List α := w.milestones.filterMap Milestone.welcomed?

theorem welcomed_eq_heeded (w : World σ α) : w.welcomed = w.heeded.filterMap Message.action? := by
  rw [welcomed, heeded, List.filterMap_filterMap]
  refine List.filterMap_congr fun m _ => ?_
  cases m with
  | announced event => cases event <;> rfl
  | noted notice => cases notice <;> rfl
  | _ => rfl

theorem snapshots_eq_heeded (w : World σ α) :
    w.snapshots = w.heeded.filterMap Message.inquiry? := by
  rw [snapshots, heeded, milestones, List.filterMap_filterMap, List.filterMap_filterMap]
  refine List.filterMap_congr fun entry _ => ?_
  cases entry with
  | took message => cases message <;> rfl
  | announced event => cases event <;> rfl
  | noted notice => cases notice <;> rfl
  | answered inquiry status => cases status <;> rfl
  | _ => rfl

theorem history_discardInbox (w : World σ α) :
    w.discardInbox.history = w.history ++ bereaved w.inbox := by
  change _ = World.history { w with inbox := [], isOpen := false } ++ _
  rw [discardInbox]
  generalize ({ w with inbox := [], isOpen := false } : World σ α) = v
  generalize w.inbox = messages
  induction messages generalizing v with
  | nil => exact (List.append_nil _).symm
  | cons message rest ih =>
    rw [List.foldl_cons, ih]
    cases message with
    | status inquiry => rw [history_record, List.append_assoc]; rfl
    | dispatch action => rfl
    | shutdown => rfl

end World

namespace Engine

variable {setup : Setup σ α} {capacity : Nat} {e e' : Engine σ α}

/-- An engine runs on until it is idle and reads no more. -/
theorem Sound.turned_life (h : Sound setup capacity e) (ht : Turned setup e e') :
    e'.life = .running ∨
      e.life = .running ∧ e.phase = .idle ∧ e.listening = false ∧ e' = e.stop := by
  have hwaiting : ∀ {e : Engine σ α}, e.world.ChannelOnRecord → e.life = .running →
      (e.undertakeWaiting setup).life = .running :=
    fun hr hlife => (undertakeUpTo_onward setup _ _ hr).life.trans hlife
  cases ht with
  | started hlife => exact .inl rfl
  | @read hlife hl message inbox hi =>
    refine .inl ?_
    cases message with
    | dispatch action =>
      have hr := (hearing_adds setup action inbox e).onRecord h.onRecord
      have honward := (undertake_onward setup action (e.hearing setup action inbox) hr).1
      rcases accept_cases setup action (e.taking (.dispatch action) inbox) with
        ⟨-, haccept⟩ | ⟨-, backlog, -, haccept⟩ | ⟨-, -, haccept⟩
      · rw [Engine.obey, haccept]
        exact hwaiting (honward.onRecord hr) (honward.life.trans hlife)
      · rw [Engine.obey, haccept]
        exact hlife
      · rw [Engine.obey, haccept]
        exact hlife
    | status inquiry => exact hlife
    | shutdown => exact hlife
  | deafened hlife hl hi hh => exact .inl hlife
  | proceeded hlife hp hl ho =>
    obtain ⟨intakes, hc⟩ := h.chronicled
    obtain ⟨-, honward, -⟩ := hc.carryOn hp ho
    exact .inl (hwaiting (honward.onRecord h.onRecord) (honward.life.trans hlife))
  | stopped hlife hp hl => exact .inr ⟨hlife, hp, hl, rfl⟩

/-- An engine that has ended by itself has done so when it was idle and read no more, and since then
nothing has happened to it. -/
theorem Reachable.stopped_from (h : Reachable setup capacity e) (hs : e.life = .stopped) :
    ∃ e₀, Reachable setup capacity e₀ ∧ e₀.life = .running ∧ e₀.phase = .idle ∧
      e₀.listening = false ∧ e₀.stop.world.Grows [] e.world ∧
      e = { e₀.stop with world := e.world } := by
  induction h with
  | initial host handles observers => cases hs
  | @step e e' h hstep ih =>
    cases hstep with
    | turn ht =>
      rcases h.sound.turned_life (turn_turned ht) with hlife | ⟨hlife, hp, hl, rfl⟩
      · rw [hs] at hlife
        cases hlife
      · exact ⟨e, h, hlife, hp, hl, .refl _, rfl⟩
    | outside reaction =>
      obtain ⟨e₀, h₀, hlife, hp, hl, hw, he⟩ := ih hs
      refine ⟨e₀, h₀, hlife, hp, hl, hw.trans (World.absorb_grows .outside reaction e.world), ?_⟩
      rw [he]
      rfl
    | kill =>
      have hkill : e.kill = e := by
        unfold kill at hs ⊢
        split at hs <;> first | rfl | cases hs
      rw [hkill] at hs ⊢
      exact ih hs

/-- A store that was asked to carry an action out has answered, unless it is at work. -/
theorem Annals.settled {w : World σ α} {courses : List (Course α)}
    (h : Annals setup w courses) (hended : ∀ c ∈ courses, c.atWork = none) {store : StoreName}
    {action : α} {ticket : Ticket}
    (hm : .called (.complete store action ticket) ∈ w.milestones) :
    ∃ outcome, w.outcomeOf ticket = some outcome := by
  have hcall : .complete store action ticket ∈ w.milestones.filterMap Milestone.callback? :=
    List.mem_filterMap.mpr ⟨_, hm, rfl⟩
  rw [h.filterMap Milestone.callback? fun _ => Milestone.callback?_eq_none] at hcall
  obtain ⟨c, hc, hcall⟩ := List.mem_flatMap.mp hcall
  rw [(h.follows c hc).milestones_callbacks, Course.calls, hended c hc] at hcall
  simp only [List.mem_append, List.mem_map, reduceCtorEq, and_false, exists_false, false_or,
    or_false] at hcall
  obtain ⟨turn, hturn, hcomplete⟩ := hcall
  cases hcomplete
  exact ⟨turn.outcome, h.outcomes c hc turn hturn⟩

/-- Nothing that was accepted is left to do: every store has answered, and every action that was
taken is dropped or has run its course. -/
structure Drained (setup : Setup σ α) (e : Engine σ α) : Prop where
  idle : e.phase = .idle
  rested : e.backlog.items = []
  settled : ∀ store action ticket, .called (.complete store action ticket) ∈ e.world.milestones →
    ∃ outcome, e.world.outcomeOf ticket = some outcome
  carriedOut : ∃ intakes ended, Chronicle setup e [] intakes ended none
  counted : e.tally.processed + e.tally.aborted + e.tally.dropped = e.world.takenActions.length

theorem history_stop (e : Engine σ α) :
    e.stop.world.history = e.world.history ++
      .noted (.stopped e.tally.processed e.tally.dropped e.tally.aborted) ::
        bereaved e.world.inbox := by
  change (World.discardInbox (World.note e.world _)).history = _
  rw [World.history_discardInbox, World.note, World.history_record, List.append_assoc]
  rfl

theorem sent_stop (e : Engine σ α) : e.stop.world.sent = e.world.sent := by
  have hbereaved : (bereaved e.world.inbox).filterMap Entry.sent? = [] := by
    rw [bereaved, List.filterMap_map]
    exact List.filterMap_eq_nil_iff.mpr fun _ _ => rfl
  rw [World.sent, history_stop, List.filterMap_append]
  change _ ++ (bereaved e.world.inbox).filterMap Entry.sent? = _
  rw [hbereaved, List.append_nil]
  rfl

/-- Why an engine has ended, and what it has read until then. -/
inductive Ending (e : Engine σ α) : Prop where
  /-- It has taken the first shutdown and all that came before it. What came behind is lost, and
  nobody was turned away before. -/
  | shut {before behind : List (Message α)} {calm early late : List (Entry α)}
      (sent : e.world.sent = before ++ .shutdown :: behind) (unread : .shutdown ∉ before)
      (taken : e.world.taken = before ++ [.shutdown])
      (snapshots : e.world.snapshots = before.filterMap Message.inquiry?)
      (history : e.world.history = calm ++ .took .shutdown :: (early ++
        .noted (.stopped e.tally.processed e.tally.dropped e.tally.aborted) ::
          (bereaved behind ++ late)))
      (calm : ∀ entry ∈ calm, entry.isRefusal = false)
  /-- No handle is left, and all that was ever sent has been taken. -/
  | deserted (handles : e.world.handles = 0) (sent : .shutdown ∉ e.world.sent)
      (taken : e.world.taken = e.world.sent)
      (snapshots : e.world.snapshots = e.world.sent.filterMap Message.inquiry?)
      (unrefused : e.world.Unrefused)

theorem Reachable.snapshots (h : Reachable setup capacity e) :
    e.world.snapshots = e.world.taken.filterMap Message.inquiry? := by
  rw [World.snapshots_eq_heeded, h.heeded]

theorem Reachable.drained (h : Reachable setup capacity e) (hs : e.life = .stopped) :
    Drained setup e := by
  obtain ⟨e₀, -, -, hp, -, -, he⟩ := h.stopped_from hs
  have hidle : e.phase = .idle := by
    rw [he]
    exact hp
  have hbusy : e.isBusy = false := by
    rw [Engine.isBusy, hidle]
  have hitems := h.sound.rested hbusy
  obtain ⟨intakes, ended, underway, hc⟩ := h.sound.chronicled
  have hnone := hc.isBusy
  rw [hbusy, eq_comm, Option.isSome_eq_false_iff, Option.isNone_iff_eq_none] at hnone
  subst hnone
  rw [hitems] at hc
  have htotal := h.sound.balances.total
  refine ⟨hidle, hitems, ?_, ⟨intakes, ended, hc⟩, ?_⟩
  · intro store action ticket hm
    have hann := hc.annals
    rw [Option.toList_none, List.append_nil] at hann
    exact hann.settled hc.finished hm
  · have hqueued : e.status.queued = 0 := congrArg List.length hitems
    have hlocked : e.status.locked = false := hbusy
    rw [hqueued, hlocked] at htotal
    exact htotal.symm

theorem Reachable.ending (h : Reachable setup capacity e) (hs : e.life = .stopped) : Ending e := by
  obtain ⟨e₀, h₀, hlife, -, hl, hw, he⟩ := h.stopped_from hs
  have htaken : e.world.taken = e₀.world.taken := by
    rw [hw.taken, (stop_adds e₀).taken]
    simp [Milestone.taken?]
  -- Nothing more can be sent to an engine that has ended.
  have hsent : e.world.sent = e₀.world.taken ++ e₀.world.inbox := by
    obtain ⟨arrived, -, hmail, hclosed⟩ := hw.mail
    rw [hmail, hclosed (World.discardInbox_isOpen _), List.append_nil, sent_stop]
    exact h₀.lossless (.inr hlife)
  have hsnapshots := h.snapshots
  cases h₀.reading with
  | ongoing listening =>
    rw [hl] at listening
    cases listening
  | @shut before calm listening isOpen taken unread history hcalm =>
    obtain ⟨early, hearly⟩ := history
    obtain ⟨late, hlate, -⟩ := hw.past
    have htally : e.tally = e₀.tally := by
      rw [he]
      rfl
    have hhistory : e.world.history = calm ++ .took .shutdown :: (early ++
        .noted (.stopped e.tally.processed e.tally.dropped e.tally.aborted) ::
          (bereaved e₀.world.inbox ++ late)) := by
      rw [hlate, history_stop, ← hearly, htally]
      simp only [List.append_assoc, List.cons_append, List.nil_append]
    rw [taken, List.append_assoc] at hsent
    refine .shut hsent unread (htaken.trans taken) ?_ hhistory hcalm
    rw [hsnapshots, htaken, taken, List.filterMap_append]
    exact List.append_nil _
  | deserted listening unread world =>
    rw [world.inbox, List.append_nil, ← htaken] at hsent
    rw [← htaken] at unread
    cases h.reading with
    | ongoing listening' =>
      rw [he] at listening'
      exact absurd (hl.symm.trans listening') (by decide)
    | shut listening' isOpen taken =>
      rw [taken] at unread
      exact absurd (List.mem_append_right _ (List.mem_singleton.mpr rfl)) unread
    | deserted listening' unread' world' =>
      exact .deserted world'.handles (by rw [hsent]; exact unread) hsent.symm
        (by rw [hsnapshots, hsent]) world'.unrefused

/-- What was sent behind the first shutdown has no part in the run: it is not taken, no store is
called for it, and no count or status includes it. -/
structure Unaffected (setup : Setup σ α) (capacity : Nat) (e : Engine σ α)
    (before : List (Message α)) : Prop where
  taken : e.world.taken <+: before ++ [.shutdown]
  courses : ∃ intakes ended underway,
    Chronicle setup e e.backlog.items intakes ended underway ∧
    intakes.map Intake.action <+: before.filterMap Message.action? ∧
    e.world.milestones.filterMap Milestone.callback? =
      (ended ++ underway.toList).flatMap (Course.calls setup)
  counted : ∃ actions, actions <+: before.filterMap Message.action? ∧
    e.status.Balances capacity actions.length
  snapshots : e.world.snapshots <+: before.filterMap Message.inquiry?

theorem Reachable.unaffected (h : Reachable setup capacity e) {before behind : List (Message α)}
    (hsent : e.world.sent = before ++ .shutdown :: behind) (hbefore : .shutdown ∉ before) :
    Unaffected setup capacity e before := by
  obtain ⟨lost, hmail, -⟩ := h.accounted.mail
  have hprefix : e.world.taken <+: before ++ .shutdown :: behind := by
    rw [← hsent, hmail, List.append_assoc]
    exact List.prefix_append _ _
  have htaken : e.world.taken <+: before ++ [.shutdown] := by
    have hunread : .shutdown ∉ e.world.taken → e.world.taken <+: before ++ [.shutdown] :=
      fun hno => (prefix_of_notMem hprefix hno).trans (List.prefix_append _ _)
    cases h.reading with
    | ongoing listening unread => exact hunread unread
    | deserted listening unread => exact hunread unread
    | @shut first calm listening isOpen taken unread =>
      rw [taken] at hprefix ⊢
      obtain ⟨rest, hrest⟩ := hprefix
      rw [List.append_assoc, List.singleton_append] at hrest
      obtain ⟨between, rfl, hbetween⟩ := (append_split hrest).resolve_left unread
      -- Both splits are at the first shutdown, so there is nothing between them.
      cases between with
      | nil => simp
      | cons message between =>
        obtain ⟨rfl, -⟩ := List.cons.inj hbetween
        simp at hbefore
  have hfilter : ∀ {β : Type} (f : Message α → Option β), f .shutdown = none →
      e.world.taken.filterMap f <+: before.filterMap f := by
    intro β f hf
    have hmap := htaken.filterMap f
    rw [List.filterMap_append, List.filterMap_cons, hf, List.filterMap_nil, List.append_nil] at hmap
    exact hmap
  have hactions : e.world.takenActions <+: before.filterMap Message.action? := hfilter _ rfl
  obtain ⟨intakes, ended, underway, hc⟩ := h.sound.chronicled
  refine ⟨htaken, ⟨intakes, ended, underway, hc, ?_, ?_⟩, ⟨_, hactions, h.sound.balances⟩, ?_⟩
  · rw [← hc.takenActions]
    exact hactions
  · rw [hc.annals.filterMap Milestone.callback? fun _ => Milestone.callback?_eq_none]
    exact List.flatMap_congr fun c hmem => (hc.annals.follows c hmem).milestones_callbacks
  · rw [h.snapshots]
    exact hfilter _ rfl

theorem Reachable.isOpen_eq_false (h : Reachable setup capacity e)
    (hclosed : .shutdown ∈ e.world.taken ∨ e.life = .stopped) : e.world.isOpen = false := by
  rcases hclosed with hshut | hs
  · cases h.reading with
    | ongoing listening unread => exact absurd hshut unread
    | deserted listening unread => exact absurd hshut unread
    | shut listening isOpen => exact isOpen
  · obtain ⟨e₀, -, -, -, -, hw, -⟩ := h.stopped_from hs
    rw [hw.isOpen]
    exact World.discardInbox_isOpen _

/-- An engine that ends has lost nothing that it accepted, and does not end before it has to. What
comes behind the first shutdown changes nothing, and who asks for a status then hears that the
engine is gone. -/
theorem accepted_work_drained (h : Reachable setup capacity e) :
    (e.life = .stopped → Drained setup e ∧ Ending e) ∧
      (∀ e', e.turn? setup = some e' → e'.life = .stopped →
        e.phase = .idle ∧ e.backlog.items = [] ∧
          (.shutdown ∈ e.world.taken ∨ e.world.handles = 0 ∧ e.world.inbox = [])) ∧
      (∀ before behind, e.world.sent = before ++ .shutdown :: behind → .shutdown ∉ before →
        Unaffected setup capacity e before) ∧
      ∀ speaker inquiry, .shutdown ∈ e.world.taken ∨ e.life = .stopped → e.world.handles ≠ 0 →
        e.world.perform speaker (.send (.status inquiry)) =
          e.world.record (.answered inquiry none) := by
  refine ⟨fun hs => ⟨h.drained hs, h.ending hs⟩, ?_, fun _ _ => h.unaffected, ?_⟩
  · intro e' ht hs
    rcases h.sound.turned_life (turn_turned ht) with hlife | ⟨-, hp, hl, -⟩
    · rw [hs] at hlife
      cases hlife
    have hbusy : e.isBusy = false := by
      rw [Engine.isBusy, hp]
    refine ⟨hp, h.sound.rested hbusy, ?_⟩
    cases h.reading with
    | ongoing listening =>
      rw [hl] at listening
      cases listening
    | shut listening isOpen taken =>
      rw [taken]
      exact .inl (List.mem_append_right _ (List.mem_singleton.mpr rfl))
    | deserted listening unread world => exact .inr ⟨world.handles, world.inbox⟩
  · intro speaker inquiry hclosed hhandles
    have hopen := h.isOpen_eq_false hclosed
    change e.world.send (.status inquiry) = _
    simp [World.send, hhandles, hopen]

/-- When an engine has ended, every action that was handed over while the inbox was open has been
announced, unless it came behind the first shutdown; one that was handed over later was turned away
with a notice. -/
theorem lost_only_behind_shutdown (h : Reachable setup capacity e) (hs : e.life = .stopped) :
    (∀ (w : World σ α) speaker action, w.handles ≠ 0 →
      (w.perform speaker (.send (.dispatch action))).history = w.history ++
        [if w.isOpen then .sent (.dispatch action) else .noted (.refused action)]) ∧
      ∃ lost, e.world.sent.filterMap Message.action? = e.world.welcomed ++ lost ∧
        (lost = [] ∨ ∃ before behind, e.world.sent = before ++ .shutdown :: behind ∧
          .shutdown ∉ before ∧ lost = behind.filterMap Message.action?) := by
  constructor
  · intro w speaker action hhandles
    change (w.send (.dispatch action)).history = _
    unfold World.send
    rw [if_neg hhandles]
    split <;> exact World.history_record _ _
  · have hwelcomed : e.world.welcomed = e.world.taken.filterMap Message.action? := by
      rw [World.welcomed_eq_heeded, h.heeded]
    cases h.ending hs with
    | @shut before behind calm early late sent unread taken =>
      refine ⟨behind.filterMap Message.action?, ?_, .inr ⟨before, behind, sent, unread, rfl⟩⟩
      rw [hwelcomed, taken, sent, List.filterMap_append, List.filterMap_append, List.append_assoc]
      rfl
    | deserted handles sent taken =>
      exact ⟨[], by rw [hwelcomed, taken, List.append_nil], .inl rfl⟩

end Engine

/-- A run that is shut down while a store is at work. Two messages come behind the shutdown, and two
more when the inbox is closed. -/
def closedRun : Engine Unit Nat :=
  let sent := (Engine.initial 2 (.initial () 1 [])).interact ⟨(),
    [.send (.dispatch 7), .send (.status 1), .send .shutdown, .send (.dispatch 8),
      .send (.status 2)], ()⟩
  ((sent.takeTurns relay 4).interact
    ⟨(), [.send (.dispatch 9), .send (.status 3), .resolve 2 .ack], ()⟩).takeTurns relay 2

theorem closedRun_reachable : Engine.Reachable relay 2 closedRun :=
  .takeTurns (.step (.takeTurns (.step (.initial () 1 []) (.outside _ _)) 4) (.outside _ _)) 2

namespace Engine

theorem closedRun_drained :
    Reachable relay 2 closedRun ∧ closedRun.life = .stopped ∧
      closedRun.world.taken = [.dispatch 7, .status 1, .shutdown] ∧
      closedRun.world.snapshots = [1] ∧ Drained relay closedRun ∧ Ending closedRun := by
  have hstopped : closedRun.life = .stopped := by cbv
  exact ⟨closedRun_reachable, hstopped, by cbv, by cbv,
    (accepted_work_drained closedRun_reachable).1 hstopped⟩

theorem closedRun_lost :
    Reachable relay 2 closedRun ∧ closedRun.world.welcomed = [7] ∧
      ∃ lost, closedRun.world.sent.filterMap Message.action? = closedRun.world.welcomed ++ lost ∧
        (lost = [] ∨ ∃ before behind, closedRun.world.sent = before ++ .shutdown :: behind ∧
          .shutdown ∉ before ∧ lost = behind.filterMap Message.action?) :=
  ⟨closedRun_reachable, by cbv, (lost_only_behind_shutdown closedRun_reachable (by cbv)).2⟩

/-- The action 8 was handed over to an open inbox, and nothing is heard of it after that. -/
theorem closedRun_loses_silently :
    Reachable relay 2 closedRun ∧ closedRun.life = .stopped ∧
      closedRun.world.sent.filterMap Message.action? = [7, 8] ∧ closedRun.world.welcomed = [7] ∧
      closedRun.world.history.filter Entry.isRefusal =
        [.noted (.refused 9), .answered 3 none, .answered 2 none] :=
  ⟨closedRun_reachable, by cbv, by cbv, by cbv, by cbv⟩

end Engine

end Concord
