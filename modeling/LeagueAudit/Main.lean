import LeagueAudit.CommandLine.Run
import Std.Time.DateTime.Timestamp

/-!
The command line program: it reads the files that a request needs, carries the request out, and
writes the files that have changed.
-/
open LeagueAudit

/-- What stands at a path, if anything does. -/
def lookAt (path : Path) : IO Files := do
  let location := System.mkFilePath [path.text]
  if ← location.isDir then return ⟨[(path.withoutDetours, .folder)]⟩
  else if ← location.pathExists then
    let bytes ← IO.FS.readBinFile location
    return ⟨[(path.withoutDetours, .file bytes.toList)]⟩
  else return {}

def together (parts : List Files) : Files := ⟨(parts.flatMap (·.entries))⟩

/-- A path and the folders on the way. -/
def lookAlong (path : Path) : IO Files := do
  return together (← path.stages.mapM lookAt)

/-- All that is below a folder. -/
partial def lookBelow (folder : Path) : IO Files := do
  let location := System.mkFilePath [folder.text]
  if ← location.isDir then
    let inside ← (← location.readDir).toList.mapM fun entry => do
      let path := folder.child entry.fileName
      return together [← lookAt path, ← lookBelow path]
    return together inside
  else return {}

/-- The files that a request needs. -/
def lookFor (config : Config) (request : CommandLine.Request) : IO Files := do
  let files ← (CommandLine.filesOf config request).mapM lookAlong
  let folders ← (CommandLine.foldersOf config request).mapM fun folder => do
    return together [← lookAlong folder, ← lookBelow folder]
  return together (files ++ folders)

/-- Writes a file, and makes the folders on the way. -/
def save (path : Path) (bytes : List UInt8) : IO Unit := do
  IO.FS.createDirAll (System.mkFilePath [path.parent.text])
  IO.FS.writeBinFile (System.mkFilePath [path.text]) ⟨bytes.toArray⟩

def usage : String :=
  "usage: league-audit [--config FILE] [--schemas DIR] [--registry DIR] [--format text|json]\n" ++
    "                    [--output-dir DIR] [--verbose]\n" ++
    "                    instance INSTANCE | result INSTANCE RESULT | compare INSTANCE RESULT... |\n" ++
    "                    bundle DIR"

/-- Carries out a request on the files that it needs. -/
def carryOut (request : CommandLine.Request) : IO UInt32 := do
  let start ← (request.config.toList).mapM lookAlong
  let config := (CommandLine.configOf (together start) request).toOption.getD {}
  let files ← lookFor config request
  let seconds := (← Std.Time.Timestamp.now).toSecondsSinceUnixEpoch.val
  let outcome := CommandLine.run files (stampText seconds) request
  for (path, bytes) in Files.changes files outcome.files do save path bytes
  for alarm in outcome.alarms do IO.eprintln s!"[ERROR] {alarm}"
  IO.print outcome.output
  return outcome.exit.toUInt32

def main (args : List String) : IO UInt32 := do
  match CommandLine.Request.ofWords args with
  | .ok request => carryOut request
  | .error .help =>
    IO.println usage
    return 0
  | .error .misuse =>
    IO.eprintln usage
    return 2
