/-!
# Sets of characters given by their boundaries

A set of characters is written as the increasing list of the code points at which membership
changes, beginning outside of the set. A character is in the set when it has passed an odd number of
boundaries.
-/

namespace SessionScript.Text

/-- The increasing code points at which membership in a set of characters changes. -/
abbrev Boundaries := List Nat

/-- How many boundaries a character has passed. -/
def Boundaries.passed (b : Boundaries) (c : Char) : Nat := (b.takeWhile (· ≤ c.toNat)).length

/-- Is a character in the set? -/
def Boundaries.contains (b : Boundaries) (c : Char) : Bool := b.passed c % 2 = 1

end SessionScript.Text
