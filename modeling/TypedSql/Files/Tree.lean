import TypedSql.Files.Basic

/-!
# File trees

A tree of files in memory, seen from a working directory.  Paths are walked component by
component: what is walked through has to be a directory, a dot stays where it is, and two dots lead
to the directory above.  A name that is too long is an error where it is looked up, so an error of
what stands before it in the path comes first.
-/

namespace TypedSql

/-- Files and directories under the names that lead to them from the root. -/
structure FileTree where
  /-- The names of directories besides those above files. -/
  directories : List (List String)
  files : List (List String × String)
deriving DecidableEq, Repr

namespace FileTree

/-- The tree without files. -/
def empty : FileTree := ⟨[], []⟩

instance : Inhabited FileTree := ⟨empty⟩

/-- The text of the file with these names. -/
def file? (t : FileTree) (names : List String) : Option String := t.files.lookup names

/-- The names are those of a directory: the root, a directory of its own, or one above
something. -/
def hasDirectory (t : FileTree) (names : List String) : Bool :=
  names.isEmpty || t.directories.any names.isPrefixOf ||
    t.files.any fun f => names.isPrefixOf f.1 && names != f.1

/-- There is a directory with these names, or why there is none. -/
def enter (t : FileTree) (names : List String) : Except FileError Unit :=
  if t.hasDirectory names then .ok ()
  else if (t.file? names).isSome then .error .notDirectory
  else .error .notFound

/-- The names that a component leads to from a directory. -/
def step (names : List String) (component : String) : List String :=
  if component == "." then names
  else if component == ".." then names.dropLast
  else names ++ [component]

/-- The names that components lead to from a directory. -/
def walk (t : FileTree) (names : List String) : List String → Except FileError (List String)
  | [] => .ok names
  | component :: rest => do
      t.enter names
      checkName component
      t.walk (step names component) rest

/-- Where the walk along a path begins: at the root or in the working directory. -/
def start (directory : List String) (path : String) : List String :=
  if Path.isAbsolute path then [] else directory

/-- The names that a path leads to from the working directory. -/
def resolve (t : FileTree) (directory : List String) (path : String) :
    Except FileError (List String) := do
  checkPath path
  let names ← t.walk (start directory path) (Path.components path)
  if Path.endsInSlash path then t.enter names
  return names

/-- The path leads to a directory. -/
def isDirectory (t : FileTree) (directory : List String) (path : String) : Bool :=
  match t.resolve directory path with
  | .ok names => t.hasDirectory names
  | .error _ => false

/-- The text of the file that a path leads to. -/
def read (t : FileTree) (directory : List String) (path : String) : Except FileError String := do
  let names ← t.resolve directory path
  match t.file? names with
  | some text => .ok text
  | none => .error (if t.hasDirectory names then .isDirectory else .notFound)

/-- The path leads to a file. -/
def isFile (t : FileTree) (directory : List String) (path : String) : Bool :=
  (t.read directory path).isOk

/-- The first name behind the names of a directory. -/
def nameBelow? (names below : List String) : Option String :=
  if names.isPrefixOf below then (below.drop names.length).head? else none

/-- The names in the directory that a path leads to, each once. -/
def list (t : FileTree) (directory : List String) (path : String) :
    Except FileError (List String) := do
  let names ← t.resolve directory path
  t.enter names
  return ((t.directories ++ t.files.map Prod.fst).filterMap (nameBelow? names)).eraseDups

/-- The tree with the text as that of the file with these names. -/
def setFile (t : FileTree) (names : List String) (text : String) : FileTree :=
  if (t.file? names).isSome then
    { t with files := t.files.map fun f => if f.1 == names then (names, text) else f }
  else { t with files := t.files ++ [(names, text)] }

/-- The tree with the text as that of the file that a path leads to.  Only the last component of
the path need not be there, and it cannot be that of a directory. -/
def write (t : FileTree) (directory : List String) (path text : String) :
    Except FileError FileTree := do
  checkPath path
  let components := Path.components path
  let above ← t.walk (start directory path) components.dropLast
  t.enter above
  match components.getLast? with
  | none => .error .isDirectory
  | some name =>
      if name == "." || name == ".." || Path.endsInSlash path then .error .isDirectory
      checkName name
      let names := above ++ [name]
      if t.hasDirectory names then .error .isDirectory
      return t.setFile names text

/-- The files of a tree as a program sees them from a working directory. -/
def access (directory : List String) : Files (StateM FileTree) where
  isDirectory path := return (← get).isDirectory directory path
  isFile path := return (← get).isFile directory path
  list path := return (← get).list directory path
  read path := return (← get).read directory path
  write path text := do
    match (← get).write directory path text with
    | .ok t => set t; return .ok ()
    | .error e => return .error e

end FileTree

end TypedSql
