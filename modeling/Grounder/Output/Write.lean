import Grounder.Files.FileStore
import Grounder.Output.Manifest

/-!
# `Grounder.Output.Write`: artifacts on disk

Writing a set first takes back the previous run: its manifest goes, and with it the files that it
lists and that the set does not hold. The new manifest is written last, so a directory without one
holds an incomplete run.
-/

set_option autoImplicit false

namespace Grounder

/-- Where writing a set of artifacts failed. -/
inductive WriteError where
  | outputDirectory (path : String)
  | removeStale (path : String)
  | directory (path : String)
  | artifact (path : String)
  | manifest (path : String)
  deriving DecidableEq, Repr

def WriteError.message : WriteError → String
  | .outputDirectory path => "failed to create output directory " ++ path
  | .removeStale path => "failed to remove stale " ++ path
  | .directory path => "failed to create directory " ++ path
  | .artifact path => "failed to write artifact " ++ path
  | .manifest path => "failed to write " ++ path

namespace ArtifactSet

/-- The name of the manifest in the output directory. -/
def manifestName : String := "manifest.json"

variable {m : Type → Type} [Monad m] [FileStore m]

/-- Goes on if a change succeeded. -/
def demand (change : m Bool) (e : WriteError) : ExceptT WriteError m Unit := do
  if ← change then return () else throw e

/-- Whether a listed name is taken back: only a plain one that the set does not hold. -/
def isStale (set : ArtifactSet) (name : String) : Bool :=
  Path.isPlain name && (set.get? name).isNone

/-- Removes the files that a manifest lists and the set does not hold. -/
def removeStale (set : ArtifactSet) (dir : String) :
    List ManifestEntry → ExceptT WriteError m Unit
  | [] => return ()
  | e :: rest => do
    let path := Path.join dir e.name
    if set.isStale e.name then
      if ← (FileStore.isFile path : m Bool) then
        demand (FileStore.removeFile path) (.removeStale path)
    removeStale set dir rest

/-- Takes back the previous run. A manifest that cannot be read is removed alone. -/
def clearPrevious (set : ArtifactSet) (dir : String) : ExceptT WriteError m Unit := do
  let path := Path.join dir manifestName
  if ← (FileStore.isPresent path : m Bool) then
    let text ← (FileStore.readText? path : m (Option String))
    let previous := text.bind Manifest.parse?
    demand (FileStore.removeFile path) (.removeStale path)
    match previous with
    | some manifest => set.removeStale dir manifest.entries
    | none => return ()

/-- Writes one artifact, with the directories that lead to it. -/
def writeArtifact (dir : String) (a : Artifact) : ExceptT WriteError m Unit := do
  let path := Path.join dir a.name
  match Path.parent? path with
  | some parent => demand (FileStore.createDirectories parent) (.directory parent)
  | none => pure ()
  demand (FileStore.writeText path a.content) (.artifact path)

/-- Writes artifacts one after another. -/
def writeArtifacts (dir : String) : List Artifact → ExceptT WriteError m Unit
  | [] => return ()
  | a :: rest => do
    writeArtifact dir a
    writeArtifacts dir rest

/-- Writes the set into a directory, and answers the manifest that was left there. -/
def write (set : ArtifactSet) (dir : String) : ExceptT WriteError m Manifest := do
  demand (FileStore.createDirectories dir) (.outputDirectory dir)
  set.clearPrevious dir
  writeArtifacts dir set.artifacts
  let time ← (FileStore.timestamp : m String)
  let manifest := set.manifest time
  let path := Path.join dir manifestName
  demand (FileStore.writeText path manifest.print) (.manifest path)
  return manifest

end ArtifactSet

end Grounder
