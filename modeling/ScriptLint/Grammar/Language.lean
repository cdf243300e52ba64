/-!
# Languages

The languages that sources are written in and the table that tells by a file's extension, dot
included, what reads it. A process starts with an empty table. Whichever operation comes first puts
the built-in languages in, and registering an extension replaces what the table holds for it.

Covers `register`, `insert`, `for_extension`, `supported_extensions`, `init` and `register_all`. The
lock around the table is left out: calls come one after the other.
-/

namespace ScriptLint

inductive Language where
  | javascript
  | typescript
  | tsx
  deriving DecidableEq, Repr

namespace Language

def all : List Language :=
  [.javascript, .typescript, .tsx]

def name : Language → String
  | .javascript => "javascript"
  | .typescript => "typescript"
  | .tsx => "tsx"

def ofName? (text : String) : Option Language :=
  all.find? (·.name == text)

/-- The extensions known before any registration, in the order in which they are put in. -/
def builtin : List (String × Language) :=
  [(".js", .javascript), (".jsx", .javascript), (".mjs", .javascript), (".cjs", .javascript),
   (".ts", .typescript), (".tsx", .tsx)]

end Language

/-- What is registered for file extensions. -/
structure ExtensionTable (α : Type) where
  /-- Whether the built-in languages have been put in. -/
  installed : Bool := false
  /-- An entry for each extension, the newest first. -/
  entries : List (String × α) := []
  deriving DecidableEq, Repr

/-- A call to a table. -/
inductive TableCall (α : Type) where
  | register (extension : String) (entry : α)
  | install
  | lookup (extension : String)
  | list
  deriving DecidableEq, Repr

/-- What a call tells its caller. -/
inductive TableAnswer (α : Type) where
  | found (entry : Option α)
  | extensions (names : List String)
  deriving DecidableEq, Repr

namespace ExtensionTable

-- What is registered may be anything; `offer` gives what stands for a built-in language.
variable {α : Type} (offer : Language → α) (table : ExtensionTable α)

def insert (extension : String) (entry : α) : ExtensionTable α :=
  { table with entries := (extension, entry) :: table.entries.filter (·.1 != extension) }

def find? (extension : String) : Option α :=
  (table.entries.find? (·.1 == extension)).map (·.2)

/-- Puts the built-in languages in, unless that has been done. -/
def install : ExtensionTable α :=
  if table.installed then table
  else
    let filled := Language.builtin.foldl
      (fun table entry => table.insert entry.1 (offer entry.2)) table
    { filled with installed := true }

def register (extension : String) (entry : α) : ExtensionTable α :=
  (table.install offer).insert extension entry

def lookup? (extension : String) : Option α :=
  (table.install offer).find? extension

/-- The known extensions, sorted. -/
def extensions : List String :=
  ((table.install offer).entries.map (·.1)).mergeSort fun first second => decide (first ≤ second)

/-- Carries a call out and returns the table as it is after it. -/
def perform : TableCall α → Option (TableAnswer α) × ExtensionTable α
  | .register extension entry => (none, table.register offer extension entry)
  | .install => (none, table.install offer)
  | .lookup extension => (some (.found (table.lookup? offer extension)), table.install offer)
  | .list => (some (.extensions (table.extensions offer)), table.install offer)

end ExtensionTable

/-- The languages by extension. -/
abbrev LanguageTable := ExtensionTable Language

namespace LanguageTable

def builtin : LanguageTable :=
  ExtensionTable.install id {}

def register (table : LanguageTable) (extension : String) (language : Language) : LanguageTable :=
  ExtensionTable.register id table extension language

def lookup? (table : LanguageTable) (extension : String) : Option Language :=
  ExtensionTable.lookup? id table extension

def extensions (table : LanguageTable) : List String :=
  ExtensionTable.extensions id table

end LanguageTable

end ScriptLint
