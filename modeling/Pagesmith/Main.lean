import Std.Time.DateTime.Timestamp
import Pagesmith.Block.Definitions
import Pagesmith.Check.Program
import Pagesmith.Json.Reader
import Pagesmith.Store.Operator
import Pagesmith.Store.Script

/-!
# The programs

Two programs behind one name. `check` runs the checker on files, and `store` runs the operator tool
against a script, whose file is the first argument. What either does is decided before anything is
written, so all that is done here is to read files, the clock and variables, and to write reports.
-/

namespace Pagesmith.Main

open CommandLine

def currentYear : IO Int := do
  let now ← Std.Time.Timestamp.now
  return (Store.Instant.dateAndSecond ⟨now.toSecondsSinceUnixEpoch.val, 0⟩).1.year

def readingFault : IO.Error → String
  | .noFileOrDirectory .. => "No such file or directory (os error 2)"
  | .permissionDenied .. => "Permission denied (os error 13)"
  | .inappropriateType .. => "Is a directory (os error 21)"
  | e => toString e

def readText (path : String) : IO (Except String String) := do
  try return .ok (← IO.FS.readFile path)
  catch e => return .error (readingFault e)

/-- Write a report. Its exit code is the program's. -/
def writeReport (r : Report) : IO UInt32 := do
  IO.print r.stdout
  IO.eprint r.stderr
  return UInt32.ofNat r.exit

/-- Run the checker. Each file that the arguments name is read once, before the checker starts. -/
def check (args : List String) : IO UInt32 := do
  let paths := match Check.Request.ofArguments args with
    | .ok q => q.files ++ q.page.toList
    | .error _ => []
  let texts ← paths.mapM fun path ↦ do return (path, ← readText path)
  let files (path : String) : Except String String :=
    (texts.lookup path).getD (.error "Not read")
  writeReport (Check.run ⟨files, BlockType.readDefinitions⟩ (← currentYear) args)

def storeVariables : IO Store.Config.Variables := do
  let names := ["DATABASE_URL", "BLOCKPAGE_MAX_CONNECTIONS", "BLOCKPAGE_VERSION_RETRIES"]
  let values ← names.mapM fun name ↦ do return (name, ← IO.getEnv name)
  return fun name ↦ (values.lookup name).join

/-- Run the operator tool against the script in a file. -/
def store (script : String) (args : List String) : IO UInt32 := do
  match ← readText script with
  | .error reason => writeReport { stderr := s!"{script}: {reason}\n", exit := 2 }
  | .ok text =>
    match Json.ofText? text with
    | none => writeReport { stderr := s!"{script}: not a script\n", exit := 2 }
    | some v =>
      let program := Store.Operator.run Store.Script.connect args (← storeVariables) (← currentYear)
      writeReport (program.runScript (.ofJson v)).1

def usage : Report where
  stderr := "Usage: pagesmith check [OPTIONS] <FILES>...\n" ++
    "       pagesmith store <SCRIPT> <COMMAND>\n"
  exit := 2

end Pagesmith.Main

/-- Run the program that the first argument names. -/
def main : List String → IO UInt32
  | "check" :: args => Pagesmith.Main.check args
  | "store" :: script :: args => Pagesmith.Main.store script args
  | _ => Pagesmith.Main.writeReport Pagesmith.Main.usage
