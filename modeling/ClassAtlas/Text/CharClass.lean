/-! Sets of characters given as ascending ranges of code points. -/

namespace ClassAtlas

/-- A set of characters, as inclusive ranges of code points. -/
structure CharClass where
  ranges : List (Nat × Nat)

def CharClass.contains (s : CharClass) (c : Char) : Bool :=
  s.ranges.any fun r => r.1 ≤ c.toNat && c.toNat ≤ r.2

end ClassAtlas
