/-
  DeployTrace/Main.lean --- the command line.

  Everything that a command needs from the disk is read first; the rest is a function.

  WHAT IS LEFT OUT.  The functions that read a workflow, score it and compare it with other files take for
  granted that whatever they write can be written; what a machine refuses to write is added around them
  (`Tree/Limits`, `Limited/Detection`, `Limited/Graph`), and a command runs under the usual limits.  Refused
  are texts with half of a surrogate pair where they are encoded, and integers of too many digits where they
  become text.  A half is one of the last 2048 private characters (`Text/Half`), which therefore cannot stand
  for themselves, and is printed as that character.  What the files of an infrastructure declare is taken to
  be writable.  There is no limit on the depth of data, on memory or on time.

  Of the answers, those are left out that are no data: the log, the clock, colours, and the wording in which
  readers of files say what is wrong with one.
-/
import DeployTrace.Command.Run
import DeployTrace.Digest.Sha256

set_option autoImplicit false

namespace DeployTrace

/-- The text of a file; nothing if it cannot be read. -/
def textAt? (path : String) : IO (Option String) :=
  try return some (← IO.FS.readFile path) catch _ => return none

/-- The files below a directory with their places. -/
partial def filesBelow (path : String) (place : Place) : IO (List (Place × String)) := do
  let found ← (System.mkFilePath [path]).readDir
  let below ← found.toList.mapM fun item => do
    let inner := path ++ "/" ++ item.fileName
    let innerPlace := place ++ [item.fileName]
    if ← (System.mkFilePath [inner]).isDir then filesBelow inner innerPlace
    else return [(innerPlace, (← textAt? inner).getD "")]
  return below.flatten

/-- What a path leads to on the disk. -/
def entryAt? (path : String) : IO (Option FileEntry) := do
  if path.isEmpty then return none
  if ← (System.mkFilePath [path]).isDir then
    return some (.directory ⟨← filesBelow path []⟩)
  return (← textAt? path).map .file

end DeployTrace

open DeployTrace in
/-- Answers a command from the disk. -/
def main (texts : List String) : IO UInt32 := do
  let entries ← (Command.pathsOf texts).mapM fun path => return (path, ← entryAt? path)
  let outcome := Command.run .sha256 (fun path => (entries.lookup path).join) none texts
  IO.print outcome.output.text
  return outcome.exitCode.toUInt32
