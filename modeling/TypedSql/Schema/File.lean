import TypedSql.Schema.Statement
import TypedSql.Token.Nesting
import TypedSql.Token.Reader

/-!
# Schema files

A schema file is applied to a catalog statement by statement.  A file that cannot be read changes
nothing.
-/

namespace TypedSql.Schema

open Token

/-! ## The statements of a schema

A schema is cut at the semicolons outside all parentheses.  The body of a trigger has semicolons
of its own; it lasts from `BEGIN` to the semicolon behind `END`. -/

/-- The tokens begin a trigger: `CREATE`, and `TRIGGER` among the first four. -/
def isTrigger (tokens : List Token) : Bool :=
  tokens.head?.any (·.isWord "CREATE") && (tokens.take 4).any (·.isWord "TRIGGER")

/-- The list, unless it is empty. -/
def nonempty (tokens : List Token) : List (List Token) := if tokens.isEmpty then [] else [tokens]

/-- The statements, where `current` is the statement so far, `depth` the number of its open
parentheses, and `inBody` says that it is the body of a trigger. -/
def splitFrom (current : List Token) (depth : Nat) (inBody : Bool) :
    List Token → List (List Token)
  | [] => nonempty current
  | t :: ts =>
      if t.kind = .leftParen then splitFrom (current ++ [t]) (depth + 1) inBody ts
      else if t.kind = .rightParen then splitFrom (current ++ [t]) (depth - 1) inBody ts
      else if t.isWord "BEGIN" && isTrigger current then splitFrom (current ++ [t]) depth true ts
      else if t.kind = .semicolon ∧ depth = 0 then
        if inBody && !current.getLast?.any (·.isWord "END") then
          splitFrom (current ++ [t]) depth inBody ts
        else nonempty current ++ splitFrom [] depth false ts
      else splitFrom (current ++ [t]) depth inBody ts

/-- The statements of a schema, without the semicolons that end them. -/
def statements (tokens : List Token) : List (List Token) := splitFrom [] 0 false tokens

/-! ## Applying a file -/

/-- The catalog after statements, and the problems in them. -/
def applyStatements (source : Source) (c : Catalog) (statements : List (List Token)) :
    Catalog × List Diagnostic :=
  statements.foldl (fun (c, problems) statement =>
    let (c, more) := applyStatement source c statement
    (c, problems ++ more)) (c, [])

/-- The catalog after a schema file, and the problems in it. -/
def applyFile (path sql : String) (c : Catalog) : Catalog × List Diagnostic :=
  match tokenize sql with
  | .error e => (c, [e.toDiagnostic path])
  | .ok tokens => applyStatements ⟨path, sql⟩ c (statements tokens)

/-- The catalog of schema files, given as paths and texts, and the problems in them. -/
def ofFiles (files : List (String × String)) : Catalog × List Diagnostic :=
  files.foldl (fun (c, problems) file =>
    let (c, more) := applyFile file.1 file.2 c
    (c, problems ++ more)) (Catalog.empty, [])

theorem applyFile_of_tokenize {sql : String} {tokens : List Token} (h : tokenize sql = .ok tokens)
    (path : String) (c : Catalog) :
    applyFile path sql c = applyStatements ⟨path, sql⟩ c (statements tokens) := by
  rw [applyFile, h]

theorem applyFile_ofList (path : String) (cs : List Char) (c : Catalog) :
    applyFile path (String.ofList cs) c =
      match readFrom cs 0 .first with
      | .error e => (c, [e.toDiagnostic path])
      | .ok tokens => applyStatements ⟨path, String.ofList cs⟩ c (statements tokens) := by
  rw [applyFile, tokenize_ofList]

theorem ofFiles_singleton (path sql : String) :
    ofFiles [(path, sql)] = applyFile path sql .empty := rfl

end TypedSql.Schema
