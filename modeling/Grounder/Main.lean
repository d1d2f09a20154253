import Grounder.CommandLine.Run
import Std.Time.Format

/-!
# `Grounder.Main`: the program

Files are those of the disk, and everything else is decided by `CommandLine.run`.
-/

set_option autoImplicit false

namespace Grounder.Disk

/-- Whether an action succeeds. -/
def succeeds (action : IO Unit) : IO Bool := do
  try
    action
    return true
  catch _ => return false

/-- Whether something can be opened. -/
def isPresent (path : String) : IO Bool := succeeds do
  let _ ← IO.FS.Handle.mk path .read

/-- Whether something can be opened and read, which a directory cannot. -/
def isFile (path : String) : IO Bool := succeeds do
  let file ← IO.FS.Handle.mk path .read
  let _ ← file.read 1

def readText? (path : String) : IO (Option String) := do
  try
    return some (← IO.FS.readFile path)
  catch _ => return none

/-- Makes directories one after another, until one cannot be made. -/
def createAll : List String → IO Bool
  | [] => return true
  | path :: rest => do
    if ← isPresent path then
      if ← isFile path then return false
      createAll rest
    else if ← succeeds (IO.FS.createDir path) then createAll rest
    else return false

/-- The time in the zone of reference. -/
def timestamp : IO String := do
  let now ← Std.Time.Timestamp.now
  let date := Std.Time.DateTime.ofTimestamp now Std.Time.TimeZone.ZoneRules.UTC
  return toString date.toPlainDateTime ++ "+00:00"

instance : FileStore IO where
  isPresent := isPresent
  isFile := isFile
  readText? := readText?
  writeText path s := succeeds (IO.FS.writeFile path s)
  removeFile path := succeeds (IO.FS.removeFile path)
  createDirectories path :=
    if path = "" then return true else createAll ((Path.ancestors path).reverse ++ [path])
  currentDirectory := do return toString (← IO.currentDir)
  timestamp := timestamp

/-- The settings of the environment that the program looks at. -/
def settingNames : List String :=
  ["GROUNDWORK_SYMBOL_ORDER", "GROUNDWORK_RESOLVE_STATIC_EXTERNALS", "GROUNDWORK_PARALLEL",
    "GROUNDWORK_OUTPUT_DIR", "GROUNDWORK_TEMPLATE_DIR"]

/-- The settings that the environment has. -/
def environment : IO Config.Environment := do
  let settings ← settingNames.mapM fun name => do return (name, ← IO.getEnv name)
  return fun name => (settings.lookup name).bind id

end Grounder.Disk

def main (arguments : List String) : IO UInt32 := do
  let environment ← Grounder.Disk.environment
  let outcome ← (Grounder.CommandLine.run environment arguments : IO Grounder.CommandLine.Outcome)
  (← IO.getStdout).putStr outcome.output
  (← IO.getStderr).putStr outcome.messages
  return .ofNat outcome.code
