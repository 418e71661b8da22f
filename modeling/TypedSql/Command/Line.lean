import TypedSql.Command.Basic
import TypedSql.Report.Output

/-!
# The command line

A command line is options that every command has, the name of a command, and the operands and
options of that command.  Options have a long name behind two dashes, and some have a letter behind
one.  A value stands in the same argument, behind `=` or directly behind a letter, or it is the
next argument.  Letters of options without a value can share a dash.  Behind `--` everything is an
operand.

A value that is an argument of its own is checked when the next option or operand comes.  One right
in front of the name of a command is checked last of all, so what stops the reading of the command
comes before an error in it.
-/

namespace TypedSql

/-- The options of all commands. -/
inductive Flag
  | config
  | color
  | verbose
  | schema
  | strict
  | format
  | output
  | help
  | version
deriving DecidableEq, Repr

namespace Flag

/-- The name behind two dashes. -/
def long : Flag → String
  | config => "config"
  | color => "color"
  | verbose => "verbose"
  | schema => "schema"
  | strict => "strict"
  | format => "format"
  | output => "output"
  | help => "help"
  | version => "version"

/-- The letter behind one dash. -/
def short? : Flag → Option Char
  | verbose => some 'v'
  | schema => some 's'
  | format => some 'f'
  | output => some 'o'
  | help => some 'h'
  | version => some 'V'
  | config | color | strict => none

/-- The option has a value. -/
def takesValue : Flag → Bool
  | config | color | schema | format | output => true
  | verbose | strict | help | version => false

/-- The value is a path, which is not empty. -/
def takesPath : Flag → Bool
  | config | schema | output => true
  | _ => false

/-- The option can be given more than once. -/
def isRepeatable (flag : Flag) : Bool := flag == schema

/-- The options in front of a command. -/
def ofProgram : List Flag := [config, color, verbose, help, version]

/-- The options of `check`. -/
def ofCheck : List Flag := [config, color, verbose, help, schema, strict]

/-- The options of `analyze`. -/
def ofAnalyze : List Flag := [config, color, verbose, help, schema, format, output]

end Flag

/-- Why a command line cannot be used. -/
inductive UsageError
  | unknownOption (name : String)
  | unexpectedValue (flag : Flag)
  | missingValue (flag : Flag)
  | repeated (flag : Flag)
  | emptyOperand
  | unknownCommand (name : String)
  | noCommand
deriving DecidableEq, Repr

/-- The error in words. -/
def UsageError.message : UsageError → String
  | unknownOption name => "unknown option '" ++ name ++ "'"
  | unexpectedValue flag => "option '--" ++ flag.long ++ "' takes no value"
  | missingValue flag => "option '--" ++ flag.long ++ "' needs a value"
  | repeated flag => "option '--" ++ flag.long ++ "' is given more than once"
  | emptyOperand => "a path is empty"
  | unknownCommand name => "unknown command '" ++ name ++ "'"
  | noCommand => "no command is given"

/-- What ends the reading of a command line before its end. -/
inductive LineStop
  | misuse (error : UsageError)
  | help
  | version
deriving DecidableEq, Repr

/-- Options with their values, in order. -/
abbrev FlagValues := List (Flag × String)

namespace FlagValues

/-- The value of an option. -/
def value? (values : FlagValues) (flag : Flag) : Option String := values.lookup flag

/-- The values of an option that can be given more than once. -/
def all (values : FlagValues) (flag : Flag) : List String :=
  (values.filter fun v => v.1 == flag).map Prod.snd

/-- The option is given. -/
def has (values : FlagValues) (flag : Flag) : Bool := (values.value? flag).isSome

/-- The values with one more, which is the only one of an option that cannot be repeated. -/
def add (values : FlagValues) (flag : Flag) (value : String) : Except LineStop FlagValues :=
  if flag == .help then .error .help
  else if flag == .version then .error .version
  else if flag.takesPath && value.isEmpty then .error (.misuse (.missingValue flag))
  else if values.has flag && !flag.isRepeatable then .error (.misuse (.repeated flag))
  else .ok (values ++ [(flag, value)])

end FlagValues

namespace CommandLine

/-- The argument is an option: it begins with a dash and is not only that dash. -/
def isOption (arg : String) : Bool :=
  match arg.toList with
  | '-' :: _ :: _ => true
  | _ => false

/-- The text before the first `=`, and the text behind it where there is one. -/
def splitEquals : List Char → List Char × Option (List Char)
  | [] => ([], none)
  | '=' :: rest => ([], some rest)
  | c :: rest => (c :: (splitEquals rest).1, (splitEquals rest).2)

/-- What has been read of the arguments of the program or of a command. -/
structure Reading where
  values : FlagValues
  operands : List String
  /-- The last option where its value is an argument of its own, with that value where it has been
  read. -/
  last : Option (Flag × Option String)
deriving DecidableEq, Repr

namespace Reading

/-- Nothing has been read. -/
def start : Reading := ⟨[], [], none⟩

/-- The reading with the value of the last option among the values. -/
def settle (r : Reading) : Except LineStop Reading :=
  match r.last with
  | none => .ok r
  | some (flag, none) => .error (.misuse (.missingValue flag))
  | some (flag, some value) => return { r with values := ← r.values.add flag value, last := none }

/-- The reading with an option and its value. -/
def addFlag (r : Reading) (flag : Flag) (value : String) : Except LineStop Reading := do
  let r ← r.settle
  return { r with values := ← r.values.add flag value }

/-- The reading with an option that has the next argument as its value. -/
def beginFlag (r : Reading) (flag : Flag) : Except LineStop Reading :=
  return { ← r.settle with last := some (flag, none) }

/-- The reading with more operands, which are paths. -/
def addOperands (r : Reading) (paths : List String) : Except LineStop Reading := do
  let r ← r.settle
  if paths.any String.isEmpty then .error (.misuse .emptyOperand)
  else return { r with operands := r.operands ++ paths }

/-- The option that has the next argument as its value. -/
def awaiting? (r : Reading) : Option Flag :=
  match r.last with
  | some (flag, none) => some flag
  | _ => none

end Reading

/-- Reads an option with a long name. -/
def readLong (allowed : List Flag) (r : Reading) (body : List Char) : Except LineStop Reading :=
  let (name, value) := splitEquals body
  match allowed.find? fun flag => flag.long == String.ofList name with
  | none => .error (.misuse (.unknownOption ("--" ++ String.ofList name)))
  | some flag =>
      match flag.takesValue, value with
      | true, some value => r.addFlag flag (String.ofList value)
      | true, none => r.beginFlag flag
      | false, some _ => .error (.misuse (.unexpectedValue flag))
      | false, none => r.addFlag flag ""

/-- Reads options that share a dash. -/
def readShort (allowed : List Flag) (r : Reading) : List Char → Except LineStop Reading
  | [] => .ok r
  | letter :: more =>
      match allowed.find? fun flag => flag.short? == some letter with
      | none => .error (.misuse (.unknownOption (String.ofList ['-', letter])))
      | some flag =>
          if flag.takesValue then
            match more with
            | [] => r.beginFlag flag
            | '=' :: value => r.addFlag flag (String.ofList value)
            | value => r.addFlag flag (String.ofList value)
          else do
            readShort allowed (← r.addFlag flag "") more

/-- Reads the options in one argument. -/
def readOption (allowed : List Flag) (r : Reading) (arg : String) : Except LineStop Reading :=
  match arg.toList with
  | '-' :: '-' :: body => readLong allowed r body
  | body => readShort allowed r (body.drop 1)

/-- Reads the arguments in front of the name of a command, and gives it with what stands behind
it. -/
def readProgram (r : Reading) : List String → Except LineStop (Reading × String × List String)
  | [] => .error (.misuse .noCommand)
  | arg :: rest =>
      if arg == "--" then .error (.misuse .noCommand)
      else if isOption arg then do
        readProgram (← readOption Flag.ofProgram r arg) rest
      else
        match r.awaiting? with
        | some flag => readProgram { r with last := some (flag, some arg) } rest
        | none => .ok (r, arg, rest)

/-- Reads the arguments of a command. -/
def readCommand (allowed : List Flag) (r : Reading) : List String → Except LineStop Reading
  | [] => r.settle
  | arg :: rest =>
      if arg == "--" then r.addOperands rest
      else if isOption arg then do
        readCommand allowed (← readOption allowed r arg) rest
      else
        match r.awaiting? with
        | some flag => readCommand allowed { r with last := some (flag, some arg) } rest
        | none => do
            readCommand allowed (← r.addOperands [arg]) rest

end CommandLine

/-- When output is in colors. -/
inductive ColorMode
  | always
  | never
  /-- When the output is shown on a terminal. -/
  | auto
deriving DecidableEq, Repr

namespace ColorMode

/-- The mode of that name, in any case.  Any other name stands for the automatic mode. -/
def ofName (name : String) : ColorMode :=
  if Text.eqIgnoreCase name "always" then always
  else if Text.eqIgnoreCase name "never" then never
  else auto

/-- Output is in colors. -/
def isOn (terminal : Bool) : ColorMode → Bool
  | always => true
  | never => false
  | auto => terminal

end ColorMode

/-- What a command does with the files. -/
inductive Action
  | check
  | analyze (format : OutputFormat) (output : Option String)
deriving DecidableEq, Repr

/-- A command line that can be used. -/
structure CommandLine where
  color : ColorMode
  inputs : Inputs
  action : Action
deriving DecidableEq, Repr

namespace CommandLine

/-- The command with its options, those in front of it and its operands.  An option behind the
command comes before the same one in front of it. -/
def build (action : FlagValues → Action) (program : FlagValues) (command : Reading) :
    CommandLine :=
  let shared (flag : Flag) := (command.values.value? flag).or (program.value? flag)
  { color := ((shared .color).map ColorMode.ofName).getD .auto
    inputs := ⟨shared .config, command.operands, command.values.all .schema,
      command.values.has .strict⟩
    action := action command.values }

/-- The action of `analyze`. -/
def analyzeAction (values : FlagValues) : Action :=
  .analyze (((values.value? .format).map OutputFormat.ofName).getD .pretty) (values.value? .output)

/-- The name is that of a command, of that for help included. -/
def isCommand (name : String) : Bool := ["check", "analyze", "help"].contains name

/-- What stops the reading at the command for help, which may have the name of one command behind
it. -/
def helpStop : List String → LineStop
  | [] => .help
  | name :: more =>
      if !isCommand name then .misuse (.unknownCommand name)
      else
        match more with
        | [] => .help
        | below :: _ => .misuse (.unknownCommand below)

/-- Reads a command line. -/
def parse (args : List String) : Except LineStop CommandLine := do
  let (program, name, rest) ← readProgram .start args
  match name with
  | "check" =>
      let command ← readCommand Flag.ofCheck .start rest
      return build (fun _ => .check) (← program.settle).values command
  | "analyze" =>
      let command ← readCommand Flag.ofAnalyze .start rest
      return build analyzeAction (← program.settle).values command
  | "help" => .error (helpStop rest)
  | name => .error (.misuse (.unknownCommand name))

end CommandLine

end TypedSql
