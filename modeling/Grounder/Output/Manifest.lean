import Grounder.Json.Decoder
import Grounder.Json.Printer
import Grounder.Json.Reader
import Grounder.Output.Artifact
import Grounder.Task.Encode

/-!
# `Grounder.Output.Manifest`: the list of what a run wrote

A manifest names every artifact of a run with its size and digest. It is kept as JSON beside the
artifacts.
-/

set_option autoImplicit false

namespace Grounder

open Json (Decoder Record Value)

/-- An artifact as a manifest lists it. -/
structure ManifestEntry where
  name : String
  digest : String
  bytes : UInt64
  deriving DecidableEq, Repr

/-- What a run wrote, and when. -/
structure Manifest where
  version : String
  generatedAt : String
  entries : List ManifestEntry
  deriving DecidableEq, Repr

/-- The version that manifests carry. -/
def manifestVersion : String := "0.4.0"

/-- The manifest of a set of artifacts. -/
def ArtifactSet.manifest (set : ArtifactSet) (generatedAt : String) : Manifest :=
  { version := manifestVersion
    generatedAt
    entries := set.artifacts.map fun a => ⟨a.name, a.digest, .ofNat a.byteCount⟩ }

namespace ManifestEntry

def toJson (e : ManifestEntry) : Value :=
  .object [("name", .string e.name), ("sha256", .string e.digest),
    ("bytes", .number (.integer e.bytes.toNat))]

/-- A size: an integer of 64 bits without a sign. -/
def decodeBytes : Decoder UInt64
  | _, .number (.integer n) => if 0 ≤ n ∧ n < UInt64.size then some (.ofNat n.toNat) else none
  | _, _ => none

def decode : Decoder ManifestEntry := fun nesting v => do
  let r ← Record.of? ["name", "sha256", "bytes"] nesting v
  let name ← r.required "name" .string
  let digest ← r.required "sha256" .string
  let bytes ← r.required "bytes" decodeBytes
  return ⟨name, digest, bytes⟩

end ManifestEntry

namespace Manifest

def toJson (m : Manifest) : Value :=
  .object [("version", .string m.version), ("generated_at", .string m.generatedAt),
    ("artifacts", .ofList ManifestEntry.toJson m.entries)]

def decode : Decoder Manifest := fun nesting v => do
  let r ← Record.of? ["version", "generated_at", "artifacts"] nesting v
  let version ← r.required "version" .string
  let generatedAt ← r.required "generated_at" .string
  let entries ← r.required "artifacts" (.list ManifestEntry.decode)
  return ⟨version, generatedAt, entries⟩

/-- The manifest as JSON text. -/
def print (m : Manifest) : String := m.toJson.spread

/-- The manifest that a JSON text writes. -/
def parse? (text : String) : Option Manifest :=
  (Json.Reader.read text).bind (decode Json.maxNesting)

end Manifest

end Grounder
