import Concord.Setup

/-!
# The wardrobe's stores

Dressing puts on trousers and socks first, then shoes, then the coat; undressing goes the other way
round. Socks that were taken off are dirty and refuse to be worn until they are laundered, and they
ask for that themselves. The coat takes its time: it answers from an errand that is run after its
store has returned.
-/

namespace Concord.Wardrobe

inductive Chore where
  | dress
  | undress
  /-- What the socks ask for when they have been taken off. -/
  | launder
deriving DecidableEq, Inhabited, Repr

instance : Labelled Chore where
  kind
    | .dress => "wardrobe:dress"
    | .undress => "wardrobe:undress"
    | .launder => "wardrobe:launder"
  text
    | .dress => "Dress"
    | .undress => "Undress"
    | .launder => "Launder"

def trousersId : StoreName := ⟨"trousers"⟩
def socksId : StoreName := ⟨"socks"⟩
def shoesId : StoreName := ⟨"shoes"⟩
def coatId : StoreName := ⟨"coat"⟩

/-- Work of the coat that is still to be done: at the given time the coat is put on or taken off,
and then it acknowledges. -/
structure Errand where
  ticket : Ticket
  dressing : Bool
  due : Nat
deriving DecidableEq, Repr

/-- The state of a wardrobe. Time is counted in milliseconds. -/
structure Closet where
  worn : NameSet
  dirty : Bool
  /-- How often the socks were laundered, in 32 bits. -/
  washes : UInt32
  errands : List Errand
  clock : Nat

namespace Closet

def initial : Closet := ⟨.empty, false, 0, [], 0⟩

def isWorn (closet : Closet) (garment : StoreName) : Bool := garment ∈ closet.worn

def setWorn (closet : Closet) (garment : StoreName) (worn : Bool) : Closet :=
  { closet with
    worn := if worn then closet.worn.insert garment else closet.worn.erase garment }

end Closet

def storesTarget : String := "wardrobe::stores"

/-- Writes to the log whether a garment is worn after an action. -/
def signalWorn (message : String) (garment : StoreName) (action : Chore) (closet : Closet) :
    Reaction Closet Chore Unit :=
  ⟨closet,
    [.write ⟨.info, storesTarget, message,
      [("store", .words garment.name), ("worn", .flag (closet.isWorn garment)),
       ("action", .words (Labelled.text action))]⟩],
    ()⟩

/-- A garment that can be put on and taken off after certain others. -/
structure Garment where
  id : StoreName
  dressAfter : List StoreName
  undressAfter : List StoreName

/-- A garment does what it is told at once. It has no part in laundering. -/
def Garment.store (garment : Garment) : Store Closet Chore where
  vote action closet :=
    let vote := match action with
      | .dress => .after garment.dressAfter
      | .undress => .after garment.undressAfter
      | .launder => .declines
    ⟨closet, [], vote⟩
  complete action ticket closet :=
    ⟨closet.setWorn garment.id (action = .dress), [.resolve ticket .ack], ()⟩
  signal := signalWorn "Garment changed" garment.id

def noCleanSocks : Failure := .reported "no clean socks" []

/-- The socks. Taking them off sends the request to launder them, before they acknowledge. -/
def socks : Store Closet Chore where
  vote action closet :=
    let vote := match action with
      | .dress | .launder => .unconditional
      | .undress => .after [shoesId]
    ⟨closet, [], vote⟩
  complete action ticket closet :=
    match action with
    | .dress =>
      if closet.dirty then ⟨closet, [.resolve ticket (.nack noCleanSocks)], ()⟩
      else ⟨closet.setWorn socksId true, [.resolve ticket .ack], ()⟩
    | .undress =>
      ⟨{ closet.setWorn socksId false with dirty := true },
        [.send (.dispatch .launder), .resolve ticket .ack], ()⟩
    | .launder =>
      ⟨{ closet with dirty := false, washes := closet.washes + 1 }, [.resolve ticket .ack], ()⟩
  signal := signalWorn "Socks changed" socksId

/-- How long the coat looks at the weather before it is put on. -/
def coatDelay : Nat := 50

/-- The coat. It leaves its answer to an errand. -/
def coat : Store Closet Chore where
  vote action closet :=
    let vote := match action with
      | .dress => .after [shoesId]
      | .undress => .unconditional
      | .launder => .declines
    ⟨closet, [], vote⟩
  complete action ticket closet :=
    let dressing := decide (action = .dress)
    let due := closet.clock + if dressing then coatDelay else 0
    ⟨{ closet with errands := closet.errands ++ [⟨ticket, dressing, due⟩] }, [], ()⟩
  signal := signalWorn "Coat changed" coatId

/-- Runs an errand, which has been taken off the list. -/
def Errand.run (errand : Errand) (closet : Closet) : Reaction Closet Chore Unit :=
  ⟨closet.setWorn coatId errand.dressing, [.resolve errand.ticket .ack], ()⟩

def trousers : Garment := ⟨trousersId, [], [shoesId]⟩

def shoes : Garment := ⟨shoesId, [trousersId, socksId], [coatId]⟩

/-- The wardrobe's own stores, in the order of their registration, before any extra garments. -/
def bindings (extras : List Garment) : List (StoreName × Store Closet Chore) :=
  [(trousersId, trousers.store), (socksId, socks), (shoesId, shoes.store), (coatId, coat)] ++
    extras.map fun garment => (garment.id, garment.store)

end Concord.Wardrobe
