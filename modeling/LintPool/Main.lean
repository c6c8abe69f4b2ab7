import LintPool.Command.Execute
import Std.Time.DateTime.Timestamp

/-!
# The program

The program reads the files below its working directory, carries out its command line and prints
what that comes to. It looks at no other files, starts no other processes and makes no connections,
so that files are analysed in the running process only.

## Main definitions

* `LintPool.Program.run` : the program on its arguments.
-/

namespace LintPool.Program

/-- What an entry of a directory leads to. A link to a directory stays a link, and what cannot be
read is closed. -/
partial def readEntry (entry : IO.FS.DirEntry) : IO (Bytes × Tree.Node) := do
  let name := utf8 entry.fileName
  match (← entry.path.symlinkMetadata).type with
  | .dir =>
    try
      let entries ← (← entry.path.readDir).toList.mapM readEntry
      return (name, .dir entries)
    catch _ => return (name, .dir [] false)
  | .file =>
    try
      return (name, .file (← IO.FS.readBinFile entry.path).data.toList)
    catch _ => return (name, .file [] false)
  | _ =>
    try
      return (name, .file (← IO.FS.readBinFile entry.path).data.toList)
    catch _ =>
      let target ← try IO.FS.realPath entry.path catch _ => pure entry.path
      return (name, .link (utf8 target.toString))

/-- Writes bytes to a stream. -/
def putBytes (stream : IO.FS.Stream) (s : Bytes) : IO Unit := do
  stream.write (ByteArray.mk s.toArray)
  stream.flush

/-- Keeps a file for the next run. -/
def keepFile (path content : Bytes) : IO Unit := do
  let text (s : Bytes) : String := (String.fromUTF8? (ByteArray.mk s.toArray)).getD ""
  IO.FS.createDirAll (text (Path.dir path))
  IO.FS.writeBinFile (text path) (ByteArray.mk content.toArray)

/-- The program on its arguments; the result is its exit code. -/
def run (arguments : List String) : IO UInt32 := do
  let started ← IO.monoNanosNow
  let place ← IO.FS.realPath "."
  let entries ← (← place.readDir).toList.mapM readEntry
  let values ← Settings.variableNames.mapM fun name =>
    return (utf8 name, (← IO.getEnv name).map utf8)
  let now ← Std.Time.Timestamp.now
  let surroundings : Surroundings :=
    { tree :=
        Tree.write { root := .dir [], cwd := Tree.names (utf8 place.toString) } Path.here
          (.dir entries)
      environment := fun name => (values.lookup name).join
      now := now.toNanosecondsSinceUnixEpoch.val
      fate := fun _ => .unstartable (utf8 "no processes can be started")
      connectError := utf8 "network is unreachable" }
  let result := execute surroundings (arguments.map utf8)
  if let some (path, content) := result.written then
    try keepFile path content catch _ => pure ()
  let elapsed := Int64.ofNat ((← IO.monoNanosNow) - started)
  putBytes (← IO.getStdout) (result.stdout elapsed)
  putBytes (← IO.getStderr) result.stderr
  return result.code

end LintPool.Program

/-- Runs the program. -/
def main (arguments : List String) : IO UInt32 := LintPool.Program.run arguments
