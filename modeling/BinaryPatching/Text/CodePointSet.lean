/-!
# `BinaryPatching.Text.CodePointSet` — sets of characters given by their boundaries

A set of code points with long runs is kept as the ascending list of the places where membership changes, so
that a table names every run once by its first code point and the first one after it.

## Contents
- `inBoundaries`: membership in the set that a boundary list stands for.
-/

namespace BinaryPatching.Text

/-- A character belongs to the set of an ascending boundary list when it has passed an odd number of
    boundaries: the first opens a run, the second closes it, and so on. -/
def inBoundaries (boundaries : List Nat) (c : Char) : Bool :=
  (boundaries.takeWhile (· ≤ c.toNat)).length % 2 == 1

end BinaryPatching.Text
