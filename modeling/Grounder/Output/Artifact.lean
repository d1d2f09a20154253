import Grounder.Text.Sha256

/-!
# `Grounder.Output.Artifact`: generated files and sets of them

An artifact is a file by its path below the output directory. A set keeps its artifacts in the
order of their names, and those of one name in the order in which they were made.
-/

set_option autoImplicit false

namespace Grounder

/-- A generated file. -/
structure Artifact where
  name : String
  content : String
  deriving DecidableEq, Repr

namespace Artifact

/-- The digest of the content. -/
def digest (a : Artifact) : String := Text.Sha256.hexDigest a.content

/-- The size of the content in bytes. -/
def byteCount (a : Artifact) : Nat := a.content.utf8ByteSize

end Artifact

/-- The artifacts of a run, in the order of their names. -/
structure ArtifactSet where
  artifacts : List Artifact
  deriving DecidableEq, Repr

namespace ArtifactSet

/-- The set of some artifacts. -/
def ofList (artifacts : List Artifact) : ArtifactSet :=
  ⟨artifacts.mergeSort fun a b => a.name ≤ b.name⟩

/-- The artifact of that name, the last one if there are several. -/
def get? (set : ArtifactSet) (name : String) : Option Artifact :=
  set.artifacts.reverse.find? (·.name = name)

def names (set : ArtifactSet) : List String := set.artifacts.map (·.name)

def size (set : ArtifactSet) : Nat := set.artifacts.length

end ArtifactSet

end Grounder
