import Concord.Proofs.Engine.Acts

/-!
# How the backlog is drained

When an action has ended, waiting actions are undertaken until one of them waits for a channel or
none is left. `Drains` is this loop without a bound on its rounds; the bounded one comes to the same
end. Undertaking an action adds none to the backlog, and an action that cannot be scheduled leaves
everything behind it in its place.
-/
namespace Concord

namespace Engine

variable {σ α : Type} (setup : Setup σ α)

/-- Waiting actions are undertaken until one waits for a channel or none is left. The courses are
those of the actions undertaken, in their order. -/
inductive Drains : Engine σ α → List (Course α) → Engine σ α → Prop where
  | busy {e : Engine σ α} (hbusy : e.isBusy = true) : Drains e [] e
  | emptied {e : Engine σ α} (hidle : e.isBusy = false) (hempty : e.backlog.items = []) :
      Drains e [] e
  | next {e e' : Engine σ α} {action : α} {backlog : Backlog α} {c : Course α}
      {courses : List (Course α)} (hidle : e.isBusy = false)
      (ho : e.backlog.oldest? = some (action, backlog)) (hc : c.action = action)
      (hu : Undertaken setup c { e with backlog } ({ e with backlog }.undertake setup action))
      (hrest : Drains ({ e with backlog }.undertake setup action) courses e') :
      Drains e (c :: courses) e'

/-- An engine has undertaken the first of its waiting actions, as many as there are courses. -/
structure Cleared (e : Engine σ α) (courses : List (Course α)) (e' : Engine σ α) : Prop where
  /-- The actions are taken from the front, and those behind them stay as they are. -/
  queue : e.backlog.items = courses.map Course.action ++ e'.backlog.items
  capacity : e'.backlog.capacity = e.backlog.capacity
  follows : ∀ c ∈ courses, c.Follows setup
  /-- One course comes after the other. -/
  world : e.world.Grows (courses.flatMap (Course.milestones setup)) e'.world
  /-- The last step of an action that has ended is its unlock. -/
  brackets : ∀ c ∈ courses, ∃ inner,
    c.milestones setup = .announced .lock :: (inner ++ unlocking c.atWork.isNone) ∧
      ∀ m ∈ inner, m.Serves c.action
  tally : e'.tally = courses.foldl (fun tally c => c.count setup tally) e.tally
  result : e' = { e with
    world := e'.world, backlog := e'.backlog, phase := e'.phase, tally := e'.tally }

/-- The draining of a backlog is over: nothing waits any more, or the action undertaken last waits
for its channel. -/
inductive Settled (courses : List (Course α)) (e : Engine σ α) : Prop where
  | rested (hphase : e.phase = .idle) (hempty : e.backlog.items = [])
      (hended : ∀ c ∈ courses, c.atWork = none)
  | waiting {before : List (Course α)} {c : Course α} (hlast : courses = before ++ [c])
      (hended : ∀ d ∈ before, d.atWork = none) {store : StoreName} {ticket : Ticket}
      (hw : c.atWork = some (store, ticket)) (hphase : e.phase = c.phase setup)
      (hopen : e.world.channel = ⟨ticket, none⟩)

variable {setup} {e e' : Engine σ α} {c : Course α} {courses : List (Course α)}

theorem isBusy_of_phase (h : e.phase = c.phase setup) : e.isBusy = c.atWork.isSome := by
  unfold isBusy
  rw [h, Course.phase]
  cases c.atWork <;> rfl

/-- A store that keeps its channel has not answered yet. -/
theorem visit_open {rest : List StoreName} {walk walk' : Walk α} {store : StoreName}
    {ticket : Ticket} (hp : (visit setup rest walk e).phase = .waiting walk' store ticket)
    (hidle : e.phase = .idle) : (visit setup rest walk e).world.channel = ⟨ticket, none⟩ := by
  induction rest generalizing walk e with
  | nil => cases hp
  | cons next rest ih =>
    rw [visit] at hp ⊢
    cases hf : setup.stores.find? next with
    | none =>
      rw [hf] at hp
      exact ih hp hidle
    | some callbacks =>
      rw [hf] at hp
      dsimp only at hp ⊢
      generalize (e.world.announce setup (.execute next walk.action)).assign next callbacks
        walk.action = world at hp ⊢
      cases ho : world.channel.outcome with
      | none =>
        simp only [ho] at hp ⊢
        cases hp
        exact congrArg (Channel.mk world.channel.ticket) ho
      | some outcome =>
        simp only [ho] at hp ⊢
        exact ih hp hidle

theorem undertake_open {action : α} {walk : Walk α} {store : StoreName} {ticket : Ticket}
    (hp : (e.undertake setup action).phase = .waiting walk store ticket)
    (hidle : e.isBusy = false) : (e.undertake setup action).world.channel = ⟨ticket, none⟩ := by
  obtain ⟨ballots, world, hweigh, -⟩ := weigh_grows setup action (e.announce setup .lock)
  unfold undertake at hp ⊢
  rw [hweigh] at hp ⊢
  generalize (Plan.ofBallots setup.stores.contains ballots).verdict = verdict at hp ⊢
  rcases verdict with error | _ | ⟨first, others⟩
  · cases hp
  · cases hp
  · exact visit_open hp (isBusy_eq_false_iff.mp hidle)

variable (setup) in
/-- Without a bound, the draining of a backlog comes to an end. -/
theorem undertakeUpTo_drains (n : Nat) (e : Engine σ α) (hr : e.world.ChannelOnRecord)
    (hn : e.backlog.length ≤ n) : ∃ courses, Drains setup e courses (e.undertakeUpTo setup n) := by
  induction n generalizing e with
  | zero =>
    have hempty : e.backlog.items = [] := List.length_eq_zero_iff.mp (Nat.le_zero.mp hn)
    cases hbusy : e.isBusy with
    | true => exact ⟨[], .busy hbusy⟩
    | false => exact ⟨[], .emptied hbusy hempty⟩
  | succ n ih =>
    unfold undertakeUpTo
    cases hbusy : e.isBusy with
    | true => exact ⟨[], .busy hbusy⟩
    | false =>
      cases ho : e.backlog.oldest? with
      | none => exact ⟨[], .emptied hbusy (Backlog.oldest?_eq_none_iff.mp ho)⟩
      | some next =>
        obtain ⟨action, backlog⟩ := next
        obtain ⟨c, hc, hu⟩ := undertake_undertaken setup action { e with backlog } hr
        obtain ⟨honward, hbacklog⟩ := undertake_onward setup action { e with backlog } hr
        -- Nothing that an action does adds to the backlog, so one round fewer is enough.
        have hitems := (Backlog.items_of_oldest?_eq_some ho).1
        have hfewer : ({ e with backlog }.undertake setup action).backlog.length ≤ n := by
          have hlength := congrArg List.length hitems
          rw [List.length_cons] at hlength
          rw [hbacklog]
          change e.backlog.items.length ≤ n + 1 at hn
          change backlog.items.length ≤ n
          omega
        obtain ⟨courses, hrest⟩ := ih _ (honward.onRecord hr) hfewer
        exact ⟨c :: courses, .next hbusy ho hc hu hrest⟩

namespace Drains

/-- Rounds beyond those that are needed change nothing. -/
theorem undertakeUpTo_eq (h : Drains setup e courses e') {n : Nat} (hn : courses.length ≤ n) :
    e.undertakeUpTo setup n = e' := by
  induction h generalizing n with
  | busy hbusy =>
    cases n with
    | zero => rfl
    | succ n => rw [undertakeUpTo, if_pos hbusy]
  | @emptied e hidle hempty =>
    cases n with
    | zero => rfl
    | succ n =>
      rw [undertakeUpTo, if_neg (Bool.eq_false_iff.mp hidle),
        Backlog.oldest?_eq_none_iff.mpr hempty]
  | next hidle ho hc hu hrest ih =>
    obtain ⟨n, rfl⟩ := Nat.exists_eq_add_one_of_ne_zero (Nat.ne_zero_of_lt hn)
    rw [undertakeUpTo, if_neg (Bool.eq_false_iff.mp hidle), ho]
    exact ih (Nat.le_of_succ_le_succ hn)

theorem cleared (h : Drains setup e courses e') : Cleared setup e courses e' := by
  induction h with
  | busy hbusy | emptied hidle hempty =>
    exact ⟨rfl, rfl, by simp, .refl _, by simp, rfl, rfl⟩
  | @next e e' action backlog c courses hidle ho hc hu hrest ih =>
    obtain ⟨hitems, hcapacity⟩ := Backlog.items_of_oldest?_eq_some ho
    have hqueue := ih.queue
    have hcap := ih.capacity
    have htally := ih.tally
    have hresult := ih.result
    rw [hu.result] at hqueue hcap htally hresult
    constructor
    · rw [hitems, List.map_cons, hc, List.cons_append]
      exact congrArg _ hqueue
    · exact hcap.trans hcapacity
    · exact List.forall_mem_cons.mpr ⟨hu.follows, ih.follows⟩
    · exact hu.world.trans ih.world
    · exact List.forall_mem_cons.mpr ⟨hu.follows.between, ih.brackets⟩
    · exact htally
    · exact hresult

theorem settled (h : Drains setup e courses e') (hidle : e.isBusy = false) :
    Settled setup courses e' := by
  induction h with
  | busy hbusy =>
    rw [hidle] at hbusy
    cases hbusy
  | emptied hidle hempty => exact .rested (isBusy_eq_false_iff.mp hidle) hempty (by simp)
  | @next e e' action backlog c courses _ ho hc hu hrest ih =>
    have hphase : ({ e with backlog }.undertake setup action).phase = c.phase setup := by
      rw [hu.result]
    have hbusy := isBusy_of_phase hphase
    cases hw : c.atWork with
    | none =>
      rw [hw] at hbusy
      cases ih hbusy with
      | rested hrested hempty hended =>
        exact .rested hrested hempty (List.forall_mem_cons.mpr ⟨hw, hended⟩)
      | @waiting before last hlast hended store ticket hwork hlocked hopen =>
        exact .waiting (congrArg (c :: ·) hlast) (List.forall_mem_cons.mpr ⟨hw, hended⟩) hwork
          hlocked hopen
    | some work =>
      obtain ⟨store, ticket⟩ := work
      rw [hw] at hbusy
      have hwaits : ({ e with backlog }.undertake setup action).phase =
          .waiting (.after c.action (c.order setup) c.turns) store ticket := by
        rw [hphase, Course.phase, hw]
        rfl
      have hopen := undertake_open hwaits hidle
      -- The action waits for its channel, so it is the last.
      cases hrest with
      | busy _ => exact .waiting (List.nil_append [c]).symm (by simp) hw hphase hopen
      | emptied hidle _ | next hidle _ _ _ _ =>
        rw [hidle] at hbusy
        cases hbusy

end Drains

/-- The action could not be scheduled, and the engine is done with it. -/
structure Rebuffed (action : α) (e e' : Engine σ α) : Prop where
  phase : e'.phase = .idle
  backlog : e'.backlog = e.backlog
  tally : e'.tally = { e.tally with aborted := e.tally.aborted + 1 }
  listening : e'.listening = e.listening
  life : e'.life = e.life
  /-- The stores are asked for their votes and are not called otherwise. -/
  calls : ∃ fresh, e'.world.history = e.world.history ++ fresh ∧
    ∀ callback, .called callback ∈ fresh → ∃ store, callback = .vote store action

theorem undertake_rebuffed {action : α} {error : Refusal}
    (hv : ((e.announce setup .lock).weigh setup action).1 = .error error) :
    Rebuffed action e (e.undertake setup action) := by
  have hlock := World.announce_grows setup e.world .lock
  obtain ⟨ballots, world, hweigh, -, hvotes⟩ := weigh_grows setup action (e.announce setup .lock)
  rw [hweigh] at hv
  change (Plan.ofBallots setup.stores.contains ballots).verdict = .error error at hv
  unfold undertake
  rw [hweigh, hv]
  have hnote := (hlock.trans hvotes).trans (.note world (.aborting action error) rfl)
  have habort := hnote.trans (World.announce_grows setup _ (.abort action error))
  have hend := habort.trans (World.announce_grows setup _ .unlock)
  obtain ⟨fresh, hhistory, hms⟩ := hend.past
  refine ⟨rfl, rfl, rfl, rfl, rfl, fresh, hhistory, ?_⟩
  intro callback hmem
  have hcalled : .called callback ∈ fresh.filterMap Entry.milestone? :=
    List.mem_filterMap.mpr ⟨_, hmem, rfl⟩
  rw [hms] at hcalled
  simp only [Milestone.voting, List.mem_append, List.mem_flatMap, List.mem_cons, List.not_mem_nil,
    List.mem_map, reduceCtorEq, or_false, false_or, and_false, exists_false,
    Milestone.called.injEq] at hcalled
  obtain ⟨ballot, -, rfl⟩ := hcalled
  exact ⟨ballot.store, rfl⟩

/-- An action that cannot be scheduled is counted as such and leaves everything else as it was. When
an action has ended, those that wait are undertaken in their order, each of them to its end unless
it waits for a channel; the draining stops there, or when none is left. -/
theorem backlog_drained {capacity : Nat} (h : Reachable setup capacity e) :
    (∀ (d : Engine σ α) (action : α) (error : Refusal),
      ((d.announce setup .lock).weigh setup action).1 = .error error →
        Rebuffed action d (d.undertake setup action)) ∧
    ∀ d, Acts setup e d → d.isBusy = false → ∃ courses,
      Drains setup d courses (d.undertakeWaiting setup) ∧
      Cleared setup d courses (d.undertakeWaiting setup) ∧
      Settled setup courses (d.undertakeWaiting setup) ∧
      ∀ n, d.backlog.length ≤ n → d.undertakeUpTo setup n = d.undertakeWaiting setup := by
  refine ⟨fun d action error hv => undertake_rebuffed hv, fun d hacts hidle => ?_⟩
  have hr := hacts.onRecord h.sound.onRecord
  obtain ⟨courses, hdrains⟩ := undertakeUpTo_drains setup d.backlog.length d hr (Nat.le_refl _)
  have hcleared := hdrains.cleared
  refine ⟨courses, hdrains, hcleared, hdrains.settled hidle, fun n hn => ?_⟩
  have hlength := congrArg List.length hcleared.queue
  rw [List.length_append, List.length_map] at hlength
  have hle : courses.length ≤ d.backlog.length := by
    change courses.length ≤ d.backlog.items.length
    omega
  exact hdrains.undertakeUpTo_eq (Nat.le_trans hle hn)

end Engine

/-- Two stores that vote by the action: the first keeps its channel on the actions 1 and 5, action 2
goes around in a circle, action 3 needs a store that is not there, and no store approves of 4. -/
def medley : Setup Unit Nat where
  stores :=
    { entries :=
        [(⟨"a"⟩,
          { vote := fun action _ => ⟨(), [],
              if action = 2 then .after [⟨"b"⟩]
              else if action = 3 then .after [⟨"c"⟩]
              else if action = 4 then .declines else .unconditional⟩
            complete := fun action ticket _ => ⟨(),
              if action = 1 ∨ action = 5 then [] else [.resolve ticket .ack], ()⟩
            signal := fun _ _ => ⟨(), [], ()⟩ }),
         (⟨"b"⟩,
          { vote := fun action _ => ⟨(), [], if action = 2 then .after [⟨"a"⟩] else .declines⟩
            complete := fun _ _ _ => ⟨(), [], ()⟩
            signal := fun _ _ => ⟨(), [], ()⟩ })]
      ascending := by decide }
  observe := fun _ _ _ => ⟨(), [], none⟩

/-- One action waits for its channel, which has just been settled, and others wait behind it. -/
def medleyRun : Engine Unit Nat :=
  let sent := (Engine.initial 9 (.initial () 1 [])).interact ⟨(),
    [1, 2, 0, 3, 4, 5, 2, 0].map fun action => .send (.dispatch action), ()⟩
  (sent.takeTurns medley 9).interact ⟨(), [.resolve 1 .ack], ()⟩

theorem medleyRun_reachable : Engine.Reachable medley 9 medleyRun :=
  .step (.takeTurns (.step (.initial () 1 []) (.outside _ _)) 9) (.outside _ _)

namespace Engine

/-- Of the actions behind the first, all up to the fifth that keeps its channel are undertaken. -/
theorem medleyRun_drained :
    ∃ d : Engine Unit Nat, Acts medley medleyRun d ∧ d.isBusy = false ∧
      d.backlog.items = [2, 0, 3, 4, 5, 2, 0] ∧ d.tally = ⟨1, 0, 0⟩ ∧
      (d.undertakeWaiting medley).backlog.items = [2, 0] ∧
      (d.undertakeWaiting medley).isBusy = true ∧
      (d.undertakeWaiting medley).tally = ⟨3, 0, 2⟩ ∧
      ((d.announce medley .lock).weigh medley 3).1 = .error (.unregistered ⟨"c"⟩ ⟨"a"⟩) ∧
      Rebuffed 3 d (d.undertake medley 3) ∧
      ∃ courses, Cleared medley d courses (d.undertakeWaiting medley) ∧
        Settled medley courses (d.undertakeWaiting medley) := by
  have hphase : medleyRun.phase = .waiting ⟨1, [⟨"a"⟩], 0, []⟩ ⟨"a"⟩ 1 := by cbv
  have hlife : medleyRun.life = .running := by cbv
  have hanswer : medleyRun.world.channel.outcome = some .ack := by cbv
  have hmail : medleyRun.listening = true →
      medleyRun.world.inbox = [] ∧ medleyRun.world.handles ≠ 0 := fun _ => ⟨by cbv, by cbv⟩
  let d := medleyRun.carryOn medley ⟨1, [⟨"a"⟩], 0, []⟩ ⟨"a"⟩ .ack
  have hacts : Acts medley medleyRun d :=
    .single (medleyRun_reachable.sound.carryOn_act hlife hphase hmail hanswer)
  have hidle : d.isBusy = false := by cbv
  have hverdict :
      ((d.announce medley .lock).weigh medley 3).1 = .error (.unregistered ⟨"c"⟩ ⟨"a"⟩) := by cbv
  obtain ⟨hrebuffed, hdrained⟩ := backlog_drained medleyRun_reachable
  obtain ⟨courses, -, hcleared, hsettled, -⟩ := hdrained d hacts hidle
  exact ⟨d, hacts, hidle, by cbv, by cbv, by cbv, by cbv, by cbv, hverdict,
    hrebuffed d 3 _ hverdict, courses, hcleared, hsettled⟩

end Engine

end Concord
