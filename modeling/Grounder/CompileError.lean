import Grounder.GroundingError

/-!
# `Grounder.CompileError`: what can go wrong while generating code

A failure is one of grounding, one of a template, or a term for which there is no code. Each
constructor is one cause, and `CompileError.message` is the wording.
-/

set_option autoImplicit false

namespace Grounder

/-- What is wrong with the text of a template. -/
inductive TemplateFault where
  /-- No brace closes the slot that opens at this byte. -/
  | unclosedSlot (offset : Nat)
  | invalidSlot (slot : String)
  deriving DecidableEq, Repr

def TemplateFault.message : TemplateFault → String
  | .unclosedSlot offset => "unclosed slot at byte " ++ toString offset
  | .invalidSlot slot => "invalid slot name '" ++ slot ++ "'"

/-- Why there is no code for something. -/
inductive TermFault where
  | unknownObject (name : String)
  | predicateAsTerm (symbol : String)
  | functionAsAtom (symbol : String)
  | argumentCount (symbol : String) (expected given : Nat)
  | unplannedConstraint (name : String)
  | noAction (position : Nat)
  | noObjectId (name : String)
  deriving DecidableEq, Repr

def TermFault.message : TermFault → String
  | .unknownObject name => "unknown object '" ++ name ++ "'"
  | .predicateAsTerm symbol => "predicate '" ++ symbol ++ "' used as a term"
  | .functionAsAtom symbol => "function '" ++ symbol ++ "' used as an atom"
  | .argumentCount symbol expected given =>
    symbol ++ " expects " ++ toString expected ++ " arguments, got " ++ toString given
  | .unplannedConstraint name => "constraint '" ++ name ++ "' was not planned"
  | .noAction position => "no action at position " ++ toString position
  | .noObjectId name => "object '" ++ name ++ "' has no object id"

/-- A failure of code generation. -/
inductive CompileError where
  | ground (e : GroundingError)
  | missingSlot (template slot : String)
  | unknownTemplate (name : String)
  | malformedTemplate (template : String) (fault : TemplateFault)
  | unreadableTemplate (template : String)
  | invalidTerm (context : String) (fault : TermFault)
  deriving DecidableEq, Repr

def CompileError.message : CompileError → String
  | .ground e => e.message
  | .missingSlot template slot =>
    "template '" ++ template ++ "' is missing a binding for slot '" ++ slot ++ "'"
  | .unknownTemplate name => "unknown template '" ++ name ++ "'"
  | .malformedTemplate template fault =>
    "malformed template '" ++ template ++ "': " ++ fault.message
  | .unreadableTemplate template => "failed to read template '" ++ template ++ "'"
  | .invalidTerm context fault => "invalid term in " ++ context ++ ": " ++ fault.message

end Grounder
