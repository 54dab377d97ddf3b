import FormExpr.Random.ParkMiller

/-!
# Shuffling

From the back to the front every place trades its item with a place not behind it, chosen by a draw.
The places depend on the draws and the length alone.
-/

namespace FormExpr.Shuffle

/-- The place up to `last` that a draw from the unit interval picks; any other number picks an end.
-/
def pick (draw : Float) (last : Nat) : Nat :=
  min (Binary64.toIndex (Binary64.floor (draw * Float.ofNat (last + 1)))) last

def swap {α : Type} (xs : Array α) (i j : Nat) : Array α :=
  xs.swapIfInBounds i j

def trade {α : Type} : List Float → Nat → Array α → Array α
  | draw :: draws, last + 1, xs => trade draws last (swap xs (last + 1) (pick draw (last + 1)))
  | _, _, xs => xs

def shuffle {α : Type} (draws : List Float) (items : List α) : List α :=
  (trade draws (items.length - 1) items.toArray).toList

def seeded {α : Type} (seed : Float) (items : List α) : List α :=
  shuffle ((ParkMiller.ofSeed seed).draws (items.length - 1)) items

end FormExpr.Shuffle
