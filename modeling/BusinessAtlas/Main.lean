import BusinessAtlas.CommandLine.Session
import Std.Time.Format

/-!
# The program

The program reads what its arguments lead to, lets a session decide, and shows and writes what the
session says.
-/

namespace BusinessAtlas

/-- The code of a read from a directory, which may be given with either sign. -/
def directoryCodes : List UInt32 := [21, -21]

def entryAt (path : String) : IO Entry := do
  try
    return .file (← IO.FS.readBinFile (Path.normal path))
  catch
    | .noFileOrDirectory _ _ _ => return .nothing
    | .inappropriateType _ code _ =>
      return if directoryCodes.contains code then .directory else .behindFile
    | fault => throw fault

def currentMoment : IO Moment := do
  let time ← Std.Time.Timestamp.now
  let nanoseconds := time.toNanosecondsSinceUnixEpoch.val.toNat
  return .ofSeconds (nanoseconds / 1000000000) (nanoseconds / 1000 % 1000000)

/-- Runs the program and returns its status. -/
def runProgram (args : List String) : IO UInt32 := do
  let paths := match Arguments.read args with
    | .ok a => a.paths
    | .error _ => []
  let entries ← paths.mapM fun path => return (path, ← entryAt path)
  match Session.run args (← currentMoment) fun path => (entries.lookup path).getD .nothing with
  | .error fault =>
    IO.eprintln fault.message
    return 1
  | .ok session =>
    match session.ending with
    | .written directory _ => IO.FS.createDirAll directory
    | .stopped .help => IO.println Arguments.usage
    | .stopped .usage => IO.eprintln Arguments.usage
    | .refused _ => pure ()
    for (path, text) in session.files do
      IO.FS.writeFile path text
    IO.print session.output
    IO.eprint session.complaint
    return session.status.toUInt32

end BusinessAtlas

def main (args : List String) : IO UInt32 := BusinessAtlas.runProgram args
