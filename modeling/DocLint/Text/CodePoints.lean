/-!
Sets of code points, written as lists of runs.

* `Run` is every `step`-th code point from `first` up to `last`; alternating
  upper and lower case letters make steps of two worth having.
* `CodePoints.has` is membership in a list of runs.
-/

namespace DocLint.Text

/-- Every `step`-th code point from `first` up to `last`. -/
structure Run where
  first : Nat
  last : Nat
  step : Nat
  deriving DecidableEq, Repr

/-- Whether a code point belongs to the run. -/
def Run.has (r : Run) (n : Nat) : Bool :=
  decide (r.first ≤ n) && decide (n ≤ r.last) && (n - r.first) % r.step == 0

/-- A set of code points, as the runs that make it up. -/
abbrev CodePoints := List Run

/-- Whether a code point belongs to one of the runs. -/
def CodePoints.has (rs : CodePoints) (n : Nat) : Bool :=
  rs.any (·.has n)

end DocLint.Text
