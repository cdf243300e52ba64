import ScriptLint.Command.Run
import ScriptLint.Config.Listing
import ScriptLint.Grammar.Listing

/-!
# The program

Looks at the files that a command may touch, carries the command out on what was seen, and then
makes the changes and prints the answer. Grammars run outside: the tree of a source is read from the
listing `SOURCE.cst` beside it (`stdin.cst` for standard input), and the document of a configuration
from `CONFIG.doc`.
-/

namespace ScriptLint.Main

/-- The path of a place from the root. -/
def placeText (location : Location) : String :=
  "/" ++ "/".intercalate location

def readFile? (path : String) : IO (Option Bytes) := do
  try return some (← IO.FS.readBinFile path).data.toList
  catch _ => return none

def readText? (path : String) : IO (Option String) := do
  return (← readFile? path).bind Bytes.text?

/-- What stands at a place. A directory is there, but cannot be read as a file. -/
def observe (location : Location) : IO (Option Entry) := do
  match ← readFile? (placeText location) with
  | some content => return some (.file content)
  | none =>
    try
      discard <| IO.FS.realPath (placeText location)
      return some .directory
    catch _ => return none

/-- Adds what stands along a path. -/
def observePath (files : FileSystem) (path : Path) : IO FileSystem := do
  let mut files := files
  let mut location := if path.isAbsolute then [] else files.workingDirectory
  for segment in path.segments do
    location :=
      if segment = "." then location
      else if segment = ".." then location.dropLast
      else location ++ [segment]
    if let some entry ← observe location then files := files.put location entry
  return files

def observePaths (files : FileSystem) (paths : List Path) : IO FileSystem :=
  paths.foldlM observePath files

partial def readAll (stream : IO.FS.Stream) (read : Bytes) : IO Bytes := do
  let chunk ← stream.read 65536
  if chunk.isEmpty then return read else readAll stream (read ++ chunk.data.toList)

/-- Makes the changes between two states of the files. -/
def apply (before after : FileSystem) : IO Unit := do
  for (location, entry) in after.entries.reverse do
    if before.entry? location ≠ some entry then
      match entry with
      | .directory => IO.FS.createDirAll (placeText location)
      | .file content => IO.FS.writeBinFile (placeText location) ⟨content.toArray⟩

/-- The listing of the configuration document, from beside the first configuration file that is
there. -/
def configListing? (files : FileSystem) (paths : List Path) : IO (Option String) :=
  match paths.find? files.contains with
  | some path => readText? (path.text ++ ".doc")
  | none => return none

/-- The listing of a command's source, and the bytes of standard input if that is the source. -/
def sourceListing? : Command → IO (Option String × Bytes)
  | .scan arguments => do
    match Source.ofArgument arguments.path with
    | .stdin => return (← readText? "stdin.cst", ← readAll (← IO.getStdin) [])
    | _ => return (← readText? (arguments.path.text ++ ".cst"), [])
  | _ => return (none, [])

def respond (response : Response) : IO UInt32 := do
  IO.print response.stdout
  IO.eprint response.stderr
  return response.exitCode.toUInt32

def run (invocation : Invocation) : IO UInt32 := do
  let command := invocation.command
  let home : Path := ⟨toString (← IO.currentDir)⟩
  let start ← observePath { workingDirectory := home.segments } home
  let files ← observePaths start command.configPaths
  let document := (← configListing? files command.configPaths).bind Document.ofListing?
  let (listing, stdin) ← sourceListing? command
  let tree := (listing.bind Cst.ofListing?).getD Cst.unread
  let frontEnd : FrontEnd := { cst := fun _ _ => tree, document? := fun _ => document }
  let files ← observePaths files (command.paths frontEnd files)
  let terminal ← (← IO.getStdout).isTty
  let response := command.run frontEnd { files, stdin } terminal
  apply files response.files
  respond response

end ScriptLint.Main

open ScriptLint in
def main (arguments : List String) : IO UInt32 :=
  match Arguments.read arguments with
  | .error error => Main.respond (Command.usageResponse {} error)
  | .ok invocation => Main.run invocation
