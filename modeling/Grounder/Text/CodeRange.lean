/-!
# `Grounder.Text.CodeRange`: sets of code points as bounds

A set of code points is written as an ascending list of bounds, in pairs: where a run starts, and
the first code point after it.
-/

set_option autoImplicit false

namespace Grounder.Text.CodeRange

/-- Whether a code point lies in one of the runs that the bounds describe. -/
def within : List Nat → Nat → Bool
  | first :: after :: rest, n => if n < first then false else n < after || within rest n
  | _, _ => false

end Grounder.Text.CodeRange
