import Concord.Proofs.Engine.Comparison

/-!
# Declarations in any order

Stores are declared one after the other, and a store lists the stores that it has to wait for. The
roster keeps the stores ascending by name and a vote keeps its prerequisites as a set. Neither the
order of the declarations nor the order and the repetitions in a list therefore makes a difference
to a run.
-/
namespace Concord

variable {σ τ α : Type}

/-- A store as it is declared: what it has to wait for is a list, in any order and with any
repetitions; `none` when it stays out. -/
structure DeclaredStore (σ α : Type) where
  vote : α → σ → Reaction σ α (Option (List StoreName))
  complete : α → Ticket → σ → Reaction σ α Unit
  signal : α → σ → Reaction σ α Unit

def Vote.ofDeclared : Option (List StoreName) → Vote
  | none => .declines
  | some names => .after names

def DeclaredStore.toStore (d : DeclaredStore σ α) : Store σ α where
  vote action host :=
    let reaction := d.vote action host
    ⟨reaction.host, reaction.requests, .ofDeclared reaction.answer⟩
  complete := d.complete
  signal := d.signal

def bindingsOf (declared : List (StoreName × DeclaredStore σ α)) : List (StoreName × Store σ α) :=
  declared.map fun entry => (entry.1, entry.2.toStore)

/-- Puts the declared stores on a roster, one after the other. -/
def rosterOf (declared : List (StoreName × DeclaredStore σ α)) :
    Except Refusal (Roster (Store σ α)) := Roster.ofBindings (bindingsOf declared)

theorem rosterOf_perm {declared : List (StoreName × DeclaredStore σ α)}
    (h : (declared.map Prod.fst).Nodup) :
    ∃ stores, rosterOf declared = .ok stores ∧ stores.entries.Perm (bindingsOf declared) := by
  apply Roster.ofBindings_perm
  rw [bindingsOf, List.map_map]
  exact h

/-- Both stay out, or both name the same stores. -/
def SameNames : Option (List StoreName) → Option (List StoreName) → Prop :=
  Option.Rel fun names names' => ∀ s, s ∈ names ↔ s ∈ names'

theorem Vote.ofDeclared_congr {names names' : Option (List StoreName)}
    (h : SameNames names names') : ofDeclared names = ofDeclared names' := by
  cases h with
  | none => rfl
  | some h =>
    refine congrArg approves (NameSet.ext fun s => ?_)
    rw [NameSet.mem_ofList, NameSet.mem_ofList]
    exact h s

/-- The two stores do the same on hosts that are alike, except that they may list what they wait for
in their own ways. -/
structure DeclaredStore.Same (alike : σ → τ → Prop) (d : DeclaredStore σ α)
    (d' : DeclaredStore τ α) : Prop where
  names : ∀ action {h h'}, alike h h' →
    SameNames (d.vote action h).answer (d'.vote action h').answer
  vote : ∀ action {h h'}, alike h h' →
    (Comparison.exact alike).Alike (d.vote action h) (d'.vote action h')
  complete : ∀ action ticket {h h'}, alike h h' →
    (Comparison.exact alike).Alike (d.complete action ticket h) (d'.complete action ticket h')
  signal : ∀ action {h h'}, alike h h' →
    (Comparison.exact alike).Alike (d.signal action h) (d'.signal action h')

theorem DeclaredStore.Same.storesAlike {alike : σ → τ → Prop} {d : DeclaredStore σ α}
    {d' : DeclaredStore τ α} (h : d.Same alike d') :
    (Comparison.exact alike).StoresAlike d.toStore d'.toStore where
  answer action _ _ ha := Vote.ofDeclared_congr (h.names action ha)
  vote action _ _ ha := ⟨(h.vote action ha).host, (h.vote action ha).requests⟩
  complete action ticket _ _ ha := h.complete action ticket ha
  signal action _ _ ha := h.signal action ha

/-- The declarations are the same but for their order and for how the stores list what they wait
for. -/
def SameDeclarations (alike : σ → τ → Prop) (declared : List (StoreName × DeclaredStore σ α))
    (declared' : List (StoreName × DeclaredStore τ α)) : Prop :=
  ∃ shuffled, declared.Perm shuffled ∧
    List.Forall₂ (fun d d' => d.1 = d'.1 ∧ d.2.Same alike d'.2) shuffled declared'

namespace SameDeclarations

variable {alike : σ → τ → Prop} {declared : List (StoreName × DeclaredStore σ α)}
  {declared' : List (StoreName × DeclaredStore τ α)}

/-- Both rosters have the same stores in the same places. -/
theorem rosters (h : SameDeclarations alike declared declared')
    (hdistinct : (declared.map Prod.fst).Nodup) :
    ∃ stores stores', rosterOf declared = .ok stores ∧ rosterOf declared' = .ok stores' ∧
      List.Forall₂ (fun entry entry' => entry.1 = entry'.1 ∧
        (Comparison.exact alike).StoresAlike entry.2 entry'.2) stores.entries stores'.entries := by
  obtain ⟨shuffled, hshuffled, hsame⟩ := h
  have hnames := map_fst_eq (hsame.imp fun _ _ h => h.1)
  have hdistinct' : (declared'.map Prod.fst).Nodup := by
    rw [← hnames]
    exact (hshuffled.map Prod.fst).nodup_iff.mp hdistinct
  obtain ⟨stores, hok, hperm⟩ := rosterOf_perm hdistinct
  obtain ⟨stores', hok', hperm'⟩ := rosterOf_perm hdistinct'
  have hpaired : List.Forall₂ (fun entry entry' => entry.1 = entry'.1 ∧
      (Comparison.exact alike).StoresAlike entry.2 entry'.2)
      (bindingsOf shuffled) (bindingsOf declared') := by
    rw [bindingsOf, bindingsOf, List.forall₂_map_left_iff, List.forall₂_map_right_iff]
    exact hsame.imp fun _ _ h => ⟨h.1, h.2.storesAlike⟩
  -- The first roster pairs with a list of the second one's bindings, in some order.
  obtain ⟨partners, hpartners, hreordered⟩ :=
    List.perm_comp_forall₂ (hperm.trans (hshuffled.map _)) hpaired
  have hascending : (partners.map Prod.fst).Pairwise (· < ·) := by
    rw [← map_fst_eq (hpartners.imp fun _ _ h => h.1)]
    exact stores.ascending
  obtain rfl := Roster.eq_of_perm hascending stores'.ascending (hreordered.trans hperm'.symm)
  exact ⟨stores, stores', hok, hok', hpartners⟩

end SameDeclarations

namespace Engine

/-- Stores of different names that are declared in another order, and that list what they wait for
in another order or with repetitions, take part in the same runs. -/
theorem declaration_order_irrelevant {alike : σ → τ → Prop}
    {declared : List (StoreName × DeclaredStore σ α)}
    {declared' : List (StoreName × DeclaredStore τ α)}
    (hdistinct : (declared.map Prod.fst).Nodup) (hsame : SameDeclarations alike declared declared')
    {observe : ObserverName → Event α → σ → Reaction σ α (Option Failure)}
    {observe' : ObserverName → Event α → τ → Reaction τ α (Option Failure)}
    (hheard : ∀ observer event {h h'}, alike h h' →
      (Comparison.exact alike).Alike (observe observer event h) (observe' observer event h'))
    (hanswer : ∀ observer event {h h'}, alike h h' →
      (observe observer event h).answer = (observe' observer event h').answer)
    {moves : List (Move σ α)} {moves' : List (Move τ α)}
    (hmoves : List.Forall₂ (Comparison.exact alike).MovesAlike moves moves') {host : σ} {host' : τ}
    (hhost : alike host host') (capacity handles : Nat) (observers : List ObserverName) :
    ∃ stores stores', rosterOf declared = .ok stores ∧ rosterOf declared' = .ok stores' ∧
      let e := played ⟨stores, observe⟩ capacity host handles observers moves
      let d := played ⟨stores', observe'⟩ capacity host' handles observers moves'
      e.SameConduct ⟨stores, observe⟩ ⟨stores', observe'⟩ d ∧
        e.world.history = d.world.history := by
  obtain ⟨stores, stores', hok, hok', hpaired⟩ := hsame.rosters hdistinct
  have hrelates : (Comparison.exact alike).Relates ⟨stores, observe⟩ ⟨stores', observe'⟩ :=
    { stores := hpaired
      heard := fun {observer} event _ _ _ ha => hheard observer event ha
      answer := fun {observer} event _ _ _ _ ha => hanswer observer event ha
      unheard := fun _ _ _ ho => by cases ho
      unheard' := fun _ _ _ ho => by cases ho }
  have hconcur := hrelates.concur hmoves hhost capacity handles (Eq.refl (observers.filter _))
  exact ⟨stores, stores', hok, hok', hconcur.toSameConduct, hconcur.world.history⟩

end Engine

/-- A store that takes part in every action, after stores that depend on the action. -/
def patient (names : Nat → List StoreName) : DeclaredStore Unit Nat where
  vote action _ := ⟨(), [], some (names action)⟩
  complete _ ticket _ := ⟨(), [.resolve ticket .ack], ()⟩
  signal _ _ := ⟨(), [], ()⟩

theorem patient_same {names names' : Nat → List StoreName}
    (h : ∀ action s, s ∈ names action ↔ s ∈ names' action) :
    (patient names).Same Eq (patient names') where
  names action _ _ _ := .some (h action)
  vote _ _ _ _ := ⟨rfl, rfl⟩
  complete _ _ _ _ _ := ⟨rfl, rfl⟩
  signal _ _ _ _ := ⟨rfl, rfl⟩

/-- The first two stores wait for each other on the action 0. -/
def patients : List (StoreName × DeclaredStore Unit Nat) :=
  [(⟨"a"⟩, patient fun action => if action = 0 then [⟨"b"⟩] else [⟨"b"⟩, ⟨"c"⟩, ⟨"b"⟩]),
    (⟨"b"⟩, patient fun action => if action = 0 then [⟨"a"⟩] else []),
    (⟨"c"⟩, patient fun _ => [])]

def otherPatients : List (StoreName × DeclaredStore Unit Nat) :=
  [(⟨"c"⟩, patient fun _ => []),
    (⟨"a"⟩, patient fun action => if action = 0 then [⟨"b"⟩] else [⟨"c"⟩, ⟨"b"⟩]),
    (⟨"b"⟩, patient fun action => if action = 0 then [⟨"a"⟩, ⟨"a"⟩] else [])]

def patientMoves : List (Move Unit Nat) :=
  [.outside fun _ => ⟨(), [.send (.dispatch 7), .send (.dispatch 0)], ()⟩, .turn, .turn, .turn]

theorem patients_same : SameDeclarations Eq patients otherPatients := by
  have hmoved : (patients.take 2 ++ patients.drop 2).Perm (patients.drop 2 ++ patients.take 2) :=
    List.perm_append_comm
  refine ⟨_, hmoved, .cons ⟨rfl, patient_same fun _ _ => .rfl⟩
    (.cons ⟨rfl, patient_same fun action s => ?_⟩
      (.cons ⟨rfl, patient_same fun action s => ?_⟩ .nil))⟩
  · split
    · rfl
    · simp only [List.mem_cons, List.not_mem_nil, or_false]
      tauto
  · split
    · simp
    · rfl

namespace Engine

theorem patientRuns_same :
    let observe := fun _ _ _ => ⟨(), [], none⟩
    ((rosterOf patients).toOption.map fun stores =>
        executedStores (played ⟨stores, observe⟩ 1 () 1 [] patientMoves).world.events) =
      some [⟨"c"⟩, ⟨"b"⟩, ⟨"a"⟩] ∧
    ∃ stores stores', rosterOf patients = .ok stores ∧ rosterOf otherPatients = .ok stores' ∧
      let e := played ⟨stores, observe⟩ 1 () 1 [] patientMoves
      let d := played ⟨stores', observe⟩ 1 () 1 [] patientMoves
      e.SameConduct ⟨stores, observe⟩ ⟨stores', observe⟩ d ∧ e.world.history = d.world.history :=
  ⟨by cbv, declaration_order_irrelevant (by decide) patients_same (fun _ _ _ _ _ => ⟨rfl, rfl⟩)
    (fun _ _ _ _ _ => rfl) (Comparison.MovesAlike.themselves .rfl patientMoves) rfl 1 1 []⟩

end Engine

end Concord
