/-!
# `Grounder.Odometer`: counting through tuples

An odometer shows one object from each of several listings. It counts through all tuples, the last
listing turning fastest, as the digits of a number do whose places have different bases. The
numeral of a tuple, and the weight of each of its places, are the mixed-radix ones.
-/

set_option autoImplicit false

namespace Grounder

/-- The number of tuples over the listings. -/
def tupleCount (domains : List (List String)) : Nat := (domains.map List.length).foldr (· * ·) 1

/-- The weight of each place: how many tuples the places after it have. -/
def placeWeights : List (List String) → List Nat
  | [] => []
  | _ :: rest => tupleCount rest :: placeWeights rest

/-- A position in each of the listings, and whether the last tuple has been passed. -/
structure Odometer where
  domains : List (List String)
  positions : List Nat
  finished : Bool
  deriving Repr

namespace Odometer

/-- The odometer at the first tuple. There is none if some listing is empty. -/
def start (domains : List (List String)) : Odometer :=
  ⟨domains, domains.map fun _ => 0, domains.any List.isEmpty⟩

/-- The objects at some positions of the listings. -/
def tuple? : List (List String) → List Nat → Option (List String)
  | [], [] => some []
  | d :: ds, p :: ps =>
    match d[p]?, tuple? ds ps with
    | some object, some rest => some (object :: rest)
    | _, _ => none
  | _, _ => none

/-- The positions one further, and whether the count went past the last one and began again. -/
def advance : List (List String) → List Nat → List Nat × Bool
  | d :: ds, p :: ps =>
    match advance ds ps with
    | (ps', false) => (p :: ps', false)
    | (ps', true) => if p + 1 < d.length then ((p + 1) :: ps', false) else (0 :: ps', true)
  | _, _ => ([], true)

/-- The tuple that is shown, and the odometer at the next one. -/
def next? (o : Odometer) : Option (List String × Odometer) :=
  if o.finished then none
  else
    (tuple? o.domains o.positions).map fun tuple =>
      let (positions, finished) := advance o.domains o.positions
      (tuple, { o with positions, finished })

/-- The next tuples, at most `limit` of them. -/
def run : (limit : Nat) → Odometer → List (List String)
  | 0, _ => []
  | limit + 1, o =>
    match o.next? with
    | some (tuple, o') => tuple :: run limit o'
    | none => []

/-- All tuples over the listings. -/
def tuples (domains : List (List String)) : List (List String) :=
  run (tupleCount domains) (start domains)

end Odometer

end Grounder
