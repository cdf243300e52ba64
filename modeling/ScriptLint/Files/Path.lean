import ScriptLint.Text.Pieces

/-!
# Paths

A path is the text it is written as. Its components leave out empty segments and every `.` but a
leading one, and two paths that are written differently are the same path when their components
agree.

Covers the path operations that are used: `components`, `file_name`, `extension`, `parent`, `join`
and equality.
-/

namespace ScriptLint

/-- A path as it is written. -/
structure Path where
  text : String
  deriving DecidableEq, Repr

/-- A step of a path. -/
inductive Component where
  | root
  | current
  | parent
  | normal (name : String)
  deriving DecidableEq, Repr

namespace Path

/-- The texts between slashes. -/
def steps (path : Path) : List String :=
  (pieces '/' path.text.toList).map String.ofList

/-- The steps that are not empty. -/
def segments (path : Path) : List String :=
  path.steps.filter (· ≠ "")

def isAbsolute (path : Path) : Bool :=
  path.text.toList.head? = some '/'

def endsWithSlash (path : Path) : Bool :=
  path.text.toList.getLast? = some '/'

/-- How a path starts: at the root, at the working directory in so many words, or there without
saying so. -/
inductive Start where
  | root
  | current
  | plain
  deriving DecidableEq, Repr

def start (path : Path) : Start :=
  if path.isAbsolute then .root
  else if path.steps.head? = some "." then .current
  else .plain

def components (path : Path) : List Component :=
  let leading : List Component := match path.start with
    | .root => [.root]
    | .current => [.current]
    | .plain => []
  leading ++ (path.segments.filter (· ≠ ".")).map fun name =>
    if name = ".." then .parent else .normal name

/-- Whether two paths have the same components. -/
def same (path other : Path) : Bool :=
  path.components = other.components

/-- The last component, if it is a name. -/
def fileName? (path : Path) : Option String :=
  match path.components.getLast? with
  | some (.normal name) => some name
  | _ => none

/-- What follows the last dot of a file name, unless that dot comes first. -/
def extensionOf? (name : String) : Option String :=
  let reversed := name.toList.reverse
  match reversed.dropWhile (· ≠ '.') with
  | _ :: _ :: _ => some (String.ofList (reversed.takeWhile (· ≠ '.')).reverse)
  | _ => none

def extension? (path : Path) : Option String :=
  path.fileName?.bind extensionOf?

/-- The path of `child` seen from a directory; an absolute path stays as it is. -/
def join (directory child : Path) : Path :=
  if child.isAbsolute then child
  else if directory.text = "" || directory.endsWithSlash then ⟨directory.text ++ child.text⟩
  else ⟨directory.text ++ "/" ++ child.text⟩

/-- Whether a step between slashes leads nowhere. -/
def isIdle (step : String) : Bool :=
  step = "" || step = "."

/-- The steps behind the start of a path. -/
def body (path : Path) : List String :=
  match path.start with
  | .root | .current => path.steps.drop 1
  | .plain => path.steps

/-- The path with a start and the steps behind it. -/
def ofBody (start : Start) (body : List String) : Path :=
  match start with
  | .root => ⟨"/" ++ "/".intercalate body⟩
  | .current => ⟨"/".intercalate ("." :: body)⟩
  | .plain => ⟨"/".intercalate body⟩

/-- The directories above the last of some steps, nearest first. The steps are given last to first.
A directory is written as the path writes it, without idle steps at its end. -/
def directoriesAbove (start : Start) : (reversed : List String) → List Path
  | [] => if start = .current then [⟨""⟩] else []
  | step :: above =>
    if isIdle step then directoriesAbove start above
    else ofBody start (above.dropWhile isIdle).reverse :: directoriesAbove start above

/-- The directories that a path stands in, nearest first. A relative path ends in the empty one. -/
def directories (path : Path) : List Path :=
  directoriesAbove path.start path.body.reverse

end Path

end ScriptLint
