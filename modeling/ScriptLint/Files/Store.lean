import ScriptLint.Files.Path
import ScriptLint.Text.Bytes

/-!
# Files

A file system without links: named places that hold a file or a directory, and a working directory
that relative paths start from. Looking a path up follows its segments one by one, each of which
must lead on from a directory.

Covers `exists`, reading, writing and `create_dir_all`. Permissions, a full disk and changes made by
others are left out.
-/

namespace ScriptLint

/-- The names from the root down to a place. -/
abbrev Location := List String

inductive Entry where
  | file (content : Bytes)
  | directory
  deriving DecidableEq, Repr

structure FileSystem where
  workingDirectory : Location := []
  entries : List (Location × Entry) := []
  deriving DecidableEq, Repr

/-- Why an operation on a path fails. -/
inductive FileError where
  | notFound
  | exists
  | notDirectory
  | isDirectory
  | nameTooLong
  | nulInName
  | notText
  deriving DecidableEq, Repr

def FileError.message : FileError → String
  | .notFound => "No such file or directory (os error 2)"
  | .exists => "File exists (os error 17)"
  | .notDirectory => "Not a directory (os error 20)"
  | .isDirectory => "Is a directory (os error 21)"
  | .nameTooLong => "File name too long (os error 36)"
  | .nulInName => "file name contained an unexpected NUL byte"
  | .notText => "stream did not contain valid UTF-8"

namespace FileSystem

/-- The longest name of a single file, in bytes. -/
def maxNameBytes : Nat := 255

/-- The longest path, in bytes. -/
def maxPathBytes : Nat := 4095

/-- What stands at a place. The root is always a directory. -/
def entry? (files : FileSystem) (location : Location) : Option Entry :=
  if location = [] then some .directory
  else (files.entries.find? (·.1 = location)).map (·.2)

def put (files : FileSystem) (location : Location) (entry : Entry) : FileSystem :=
  { files with entries := (location, entry) :: files.entries.filter (·.1 ≠ location) }

/-- Follows one segment from a place, which must be a directory. -/
def follow (files : FileSystem) (location : Location) (segment : String) :
    Except FileError Location :=
  match files.entry? location with
  | none => .error .notFound
  | some (.file _) => .error .notDirectory
  | some .directory =>
    if segment = "." then .ok location
    else if segment = ".." then .ok location.dropLast
    else if segment.utf8ByteSize > maxNameBytes then .error .nameTooLong
    else .ok (location ++ [segment])

/-- The place that the given segments of a path lead to. -/
def resolve (files : FileSystem) (path : Path) (segments : List String) :
    Except FileError Location :=
  if '\x00' ∈ path.text.toList then .error .nulInName
  else if path.text = "" then .error .notFound
  else if path.text.utf8ByteSize > maxPathBytes then .error .nameTooLong
  else segments.foldlM files.follow (if path.isAbsolute then [] else files.workingDirectory)

/-- The place that a path leads to. Everything before the last segment must be there; the last
one need not. -/
def locate (files : FileSystem) (path : Path) : Except FileError Location :=
  files.resolve path path.segments

/-- The directory that the last segment of a path stands in. -/
def locateParent (files : FileSystem) (path : Path) : Except FileError Location := do
  let location ← files.resolve path path.segments.dropLast
  files.follow location "."

/-- What stands at the end of a path. A path with a slash at its end leads to directories only. -/
def lookup (files : FileSystem) (path : Path) : Except FileError Entry := do
  let location ← files.locate path
  match files.entry? location with
  | none => .error .notFound
  | some (.file content) =>
    if path.endsWithSlash then .error .notDirectory else .ok (.file content)
  | some .directory => .ok .directory

def contains (files : FileSystem) (path : Path) : Bool :=
  match files.lookup path with
  | .ok _ => true
  | .error _ => false

def isDirectory (files : FileSystem) (path : Path) : Bool :=
  match files.lookup path with
  | .ok .directory => true
  | _ => false

/-- The content of a file. -/
def read (files : FileSystem) (path : Path) : Except FileError Bytes := do
  match ← files.lookup path with
  | .file content => .ok content
  | .directory => .error .isDirectory

/-- Bytes read as text. -/
def decode (content : Bytes) : Except FileError String :=
  match content.text? with
  | some text => .ok text
  | none => .error .notText

/-- The content of a file as text. -/
def readText (files : FileSystem) (path : Path) : Except FileError String := do
  decode (← files.read path)

/-- Replaces the content of a file, which is created if it is not there. Its directory must be. A
path with a slash at its end is no file's, whatever its last segment is. -/
def write (files : FileSystem) (path : Path) (content : Bytes) : Except FileError FileSystem :=
  if path.endsWithSlash then do
    let _ ← files.locateParent path
    .error .isDirectory
  else do
    let location ← files.locate path
    if files.entry? location = some .directory then .error .isDirectory
    else .ok (files.put location (.file content))

/-- Creates a directory where nothing stands yet. -/
def makeDirectory (files : FileSystem) (path : Path) : Except FileError FileSystem := do
  let location ← files.locate path
  match files.entry? location with
  | some _ => .error .exists
  | none => .ok (files.put location .directory)

/-- Creates a directory unless there is one already. -/
def ensureDirectory (files : FileSystem) (path : Path) : Except FileError FileSystem :=
  match files.makeDirectory path with
  | .ok files => .ok files
  | .error error => if files.isDirectory path then .ok files else .error error

/-- Creates a directory and those above it that are missing. They are given from the innermost one
up, and an empty path is there already. -/
def makeDirectories (files : FileSystem) : List Path → Except FileError FileSystem
  | [] => .ok files
  | path :: above =>
    if path.text = "" then .ok files
    else match files.makeDirectory path with
      | .error .notFound => do (← files.makeDirectories above).ensureDirectory path
      | _ => files.ensureDirectory path

end FileSystem

end ScriptLint
