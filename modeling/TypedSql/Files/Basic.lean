/-!
# Files

What a program sees of files: which paths are directories and which are files, the names in a
directory, and the texts of files.  A command is written over this interface, so it runs on the
disk and on a tree in memory alike.
-/

namespace TypedSql.Path

/-! ## Paths

A path is a text with slashes between its components; one that begins with a slash is absolute.
Paths are shown as they were written or put together, so joining does not simplify them. -/

/-- The path begins at the root. -/
def isAbsolute (path : String) : Bool := path.toList.head? == some '/'

/-- Nothing stands behind the last slash of the path. -/
def endsInSlash (path : String) : Bool := path.toList.getLast? == some '/'

/-- The path `path` seen from the directory `base`. -/
def join (base path : String) : String :=
  if isAbsolute path || base.isEmpty then path
  else if endsInSlash base then base ++ path
  else base ++ "/" ++ path

/-- The components between the slashes, empty ones included. -/
def split : List Char → List (List Char)
  | [] => [[]]
  | c :: rest =>
      if c = '/' then [] :: split rest
      else
        match split rest with
        | [] => [[c]]
        | component :: more => (c :: component) :: more

/-- The components of a path without empty ones. -/
def components (path : String) : List String :=
  ((split path.toList).map String.ofList).filter fun c => c != ""

/-- The path without slashes and single dots at its end, but for a leading dot. -/
def trimEnd : List Char → List Char
  | [] => []
  | c :: rest =>
      match c :: trimEnd rest with
      | ['/'] => []
      | ['/', '.'] => []
      | trimmed => trimmed

/-- The directory of a path: what stands before its last component, without the slashes between
them.  That of a path below the root is the root. -/
def parent (path : String) : String :=
  let above := (path.toList.reverse.dropWhile (· != '/')).reverse
  let trimmed := String.ofList (trimEnd above)
  if trimmed.isEmpty && isAbsolute path then "/" else trimmed

/-- The name has a stem and the extension `sql`. -/
def isSqlFile (name : String) : Bool :=
  match name.toList.reverse with
  | 'l' :: 'q' :: 's' :: '.' :: _ :: _ => true
  | _ => false

end TypedSql.Path

namespace TypedSql

/-! ## The interface

Paths and the names in them have a greatest size in bytes. -/

/-- Why a file cannot be used. -/
inductive FileError
  | notFound
  | notDirectory
  | isDirectory
  | nameTooLong
  /-- A path holds the zero character. -/
  | zeroInName
  | other (message : String)
deriving DecidableEq, Repr

/-- The error in the words of the operating system. -/
def FileError.message : FileError → String
  | notFound => "No such file or directory (os error 2)"
  | notDirectory => "Not a directory (os error 20)"
  | isDirectory => "Is a directory (os error 21)"
  | nameTooLong => "File name too long (os error 36)"
  | zeroInName => "file name contained an unexpected NUL byte"
  | other message => message

/-- The bytes of the longest path. -/
def maxPathSize : Nat := 4095

/-- The bytes of the longest name of a file or directory. -/
def maxNameSize : Nat := 255

/-- The path can be looked up, whether or not it leads to something. -/
def checkPath (path : String) : Except FileError Unit :=
  if path.isEmpty then .error .notFound
  else if path.toList.contains '\x00' then .error .zeroInName
  else if path.utf8ByteSize > maxPathSize then .error .nameTooLong
  else .ok ()

/-- The name can be that of a file or directory. -/
def checkName (name : String) : Except FileError Unit :=
  if name.utf8ByteSize > maxNameSize then .error .nameTooLong else .ok ()

/-- The use of files in a monad. -/
structure Files (m : Type → Type) where
  /-- The path is that of a directory. -/
  isDirectory : String → m Bool
  /-- The path is that of a file. -/
  isFile : String → m Bool
  /-- The names in a directory, in any order. -/
  list : String → m (Except FileError (List String))
  /-- The text of a file. -/
  read : String → m (Except FileError String)
  /-- Makes the text that of the file, which need not be there. -/
  write : String → String → m (Except FileError Unit)

end TypedSql
