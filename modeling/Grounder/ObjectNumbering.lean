import Grounder.Text.Lines

/-!
# `Grounder.ObjectNumbering`: ids of objects

Objects are numbered by first occurrence, after the two truth values, which generated code shares
its numbering with.
-/

set_option autoImplicit false

namespace Grounder

/-- The name of a truth value in generated code and data. -/
def boolToken (b : Bool) : String := if b then "_true_" else "_false_"

/-- Distinct names; the id of a name is its position. -/
structure ObjectNumbering where
  names : List String
  nodup : names.Nodup
  deriving Repr

namespace ObjectNumbering

/-- The numbering with a name added, unless it is there. -/
def insert (numbering : ObjectNumbering) (name : String) : ObjectNumbering :=
  if h : name ∈ numbering.names then numbering
  else
    { names := numbering.names ++ [name]
      nodup := by
        refine List.nodup_append.2 ⟨numbering.nodup, by simp, ?_⟩
        intro a ha b hb
        rw [List.mem_singleton.1 hb]
        exact fun hab => h (hab ▸ ha) }

/-- The numbering of the two truth values alone. -/
def truthValues : ObjectNumbering := ⟨[boolToken false, boolToken true], by decide⟩

/-- The numbering of the truth values and a list of objects. -/
def ofObjects (objects : List String) : ObjectNumbering := objects.foldl insert truthValues

/-- The id of a name. -/
def id? (numbering : ObjectNumbering) (name : String) : Option Nat := numbering.names.idxOf? name

/-- The name with that id. -/
def name? (numbering : ObjectNumbering) (id : Nat) : Option String := numbering.names[id]?

def size (numbering : ObjectNumbering) : Nat := numbering.names.length

/-- One name per line; the line's number is the id. -/
def listing (numbering : ObjectNumbering) : String := Text.unlines numbering.names

end ObjectNumbering

end Grounder
