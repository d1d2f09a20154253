import Grounder.CompileError

/-!
# `Grounder.Template.Basic`: texts with slots

A slot is a dollar sign and a name in braces. Two dollar signs stand for one, and a dollar sign
before anything else stands for itself. A template that has been read is a list of segments: slots,
and the literals between them. Bound texts are put in as they are and never looked at for slots
again.
-/

set_option autoImplicit false

namespace Grounder

/-- What a template is made of: text to be written as it stands, and places for other texts. -/
inductive TemplateSegment where
  | literal (text : String)
  | slot (name : String)
  deriving DecidableEq, Repr

/-- A template that has been read. -/
structure Template where
  name : String
  segments : List TemplateSegment
  deriving DecidableEq, Repr

namespace Template

/-! ### Reading -/

def isSlotChar (c : Char) : Bool := c.isAlphanum || c == '_'

/-- Whether characters make up the name of a slot. -/
def isSlotName (name : List Char) : Bool := !name.isEmpty && name.all isSlotChar

/-- Segments with a literal after them, whose characters come last one first. An empty literal is
left out. -/
def addLiteral (segments : List TemplateSegment) (literal : List Char) : List TemplateSegment :=
  if literal.isEmpty then segments else segments ++ [.literal (String.ofList literal.reverse)]

mutual

/-- The segments of a text of `size` bytes that has been read up to some characters. The segments so
far are `segments`, and `literal` is the text after the last slot, last character first. Where a
slot opens is told by the bytes that are left. -/
def scan (size : Nat) (segments : List TemplateSegment) (literal : List Char) :
    List Char → Except TemplateFault (List TemplateSegment)
  | [] => .ok (addLiteral segments literal)
  | '$' :: '$' :: rest => scan size segments ('$' :: literal) rest
  | '$' :: '\x7b' :: rest =>
    let offset := size - (String.ofList ('$' :: '\x7b' :: rest)).utf8ByteSize
    scanSlot size offset (addLiteral segments literal) [] rest
  | c :: rest => scan size segments (c :: literal) rest

/-- The segments from inside a slot on, which opened at the byte `offset` and whose name begins with
`seen`, last character first. -/
def scanSlot (size offset : Nat) (segments : List TemplateSegment) (seen : List Char) :
    List Char → Except TemplateFault (List TemplateSegment)
  | [] => .error (.unclosedSlot offset)
  | '\x7d' :: rest =>
    let name := seen.reverse
    if isSlotName name then scan size (segments ++ [.slot (String.ofList name)]) [] rest
    else .error (.invalidSlot (String.ofList name))
  | c :: rest => scanSlot size offset segments (c :: seen) rest

end

/-- The template that a text writes. -/
def parse (name source : String) : Except CompileError Template :=
  match scan source.utf8ByteSize [] [] source.toList with
  | .ok segments => .ok ⟨name, segments⟩
  | .error fault => .error (.malformedTemplate name fault)

/-! ### Filling in -/

/-- The slot that a segment is. -/
def slotName? : TemplateSegment → Option String
  | .slot name => some name
  | .literal _ => none

/-- The names of the slots, each once, in the order in which they first appear. -/
def slots (t : Template) : List String := (t.segments.filterMap slotName?).eraseDups

/-- Texts for slots. Of two texts for one slot the first counts. -/
abbrev Bindings := List (String × String)

/-- What a segment becomes. -/
def segmentText (template : String) (bindings : Bindings) :
    TemplateSegment → Except CompileError String
  | .literal text => .ok text
  | .slot name =>
    match bindings.lookup name with
    | some text => .ok text
    | none => .error (.missingSlot template name)

/-- The text with all slots filled in. The first slot without a binding is an error. -/
def render (t : Template) (bindings : Bindings) : Except CompileError String :=
  (t.segments.mapM (segmentText t.name bindings)).map String.join

end Template

end Grounder
