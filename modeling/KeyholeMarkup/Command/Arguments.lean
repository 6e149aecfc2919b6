import KeyholeMarkup.Storage.Path

/-! The arguments of the command line. They are first told apart into options and operands; the
first operand names the action, and the options before it are those of every action. What is written
behind the option that asks for the version does not count. -/
namespace KeyholeMarkup.Command
open KeyholeMarkup.Storage KeyholeMarkup.Text

inductive Format
  | text
  | json
deriving DecidableEq, Repr

/-- What is to be done with an input, which is a file or `-` for standard input. -/
inductive Action
  | script (output : Option Path) (schema : Option String)
  | validate (schema : Option String) (format : Format)
  | count (format : Format)
  | xml (output : Option Path) (cdata compact : Bool)
  | wkt (format : Format)
deriving DecidableEq, Repr

structure Invocation where
  action : Action
  input : String
  /-- The folders to look for schemas in, if they are given. -/
  folders : Option (List Path)
deriving DecidableEq, Repr

inductive Request
  | version
  | run (invocation : Invocation)
deriving DecidableEq, Repr

inductive UsageError
  | unknownOption (written : String)
  | missingValue (name : String)
  | unexpectedValue (name : String)
  | repeated (name : String)
  | misplaced (name : String)
  | emptyPath (name : String)
  | unknownFormat (written : String)
  | unknownAction (written : String)
  | missingAction
  | missingInput
  | unexpectedOperand (written : String)
deriving DecidableEq, Repr

def UsageError.message : UsageError → String
  | .unknownOption written => "unexpected argument '" ++ written ++ "' found"
  | .missingValue name => "a value is required for '--" ++ name ++ "' but none was supplied"
  | .unexpectedValue name => "unexpected value for '--" ++ name ++ "' found"
  | .repeated name => "the argument '--" ++ name ++ "' cannot be used multiple times"
  | .misplaced name => "unexpected argument '--" ++ name ++ "' found"
  | .emptyPath name => "a value is required for '--" ++ name ++ "' but none was supplied"
  | .unknownFormat written => "invalid value '" ++ written ++ "' for '--format'"
  | .unknownAction written => "unrecognized subcommand '" ++ written ++ "'"
  | .missingAction => "a subcommand is required"
  | .missingInput => "the input was not provided"
  | .unexpectedOperand written => "unexpected argument '" ++ written ++ "' found"

inductive Token
  | option (name : String) (value : Option String)
  | operand (text : String)
deriving DecidableEq, Repr

def versionOption : String := "version"

def Token.isVersion : Token → Bool
  | .option name _ => name == versionOption
  | .operand _ => false

def valuedOptions : List String := ["schema-path", "output", "schema", "format"]
def plainOptions : List String := ["verbose", versionOption, "cdata", "compact"]

def letterOption? (letter : Char) : Option String :=
  match letter with
  | 'o' => some "output"
  | 'v' => some "verbose"
  | 'V' => some versionOption
  | _ => none

def isValue (argument : String) : Bool := argument == "-" || argument.toList.head? != some '-'

/-- The options in a group of letters, the last of them perhaps without its value. The rest of a
group behind a letter with a value is the value, with or without an equals sign. The group ends at
the letter of the version. -/
def letters (written : String) : List Char → Except UsageError (List Token × Option String)
  | [] => .ok ([], none)
  | letter :: rest =>
    match letterOption? letter with
    | none => .error (.unknownOption written)
    | some name =>
      if valuedOptions.contains name then
        match rest with
        | [] => .ok ([], some name)
        | '=' :: value | value => .ok ([.option name (some (String.ofList value))], none)
      else if name = versionOption then .ok ([.option name none], none)
      else do
        let (others, waiting) ← letters written rest
        return (.option name none :: others, waiting)

/-- The options of one argument, the last of them perhaps without its value, or an operand. -/
def token (argument : String) : Except UsageError (List Token × Option String) :=
  match argument.toList with
  | '-' :: '-' :: rest =>
    let name := String.ofList (rest.takeWhile (· ≠ '='))
    let value :=
      if rest.contains '=' then some (String.ofList ((rest.dropWhile (· ≠ '=')).drop 1)) else none
    if valuedOptions.contains name then
      match value with
      | some value => .ok ([.option name (some value)], none)
      | none => .ok ([], some name)
    else if !plainOptions.contains name then .error (.unknownOption argument)
    else if value.isSome then .error (.unexpectedValue name)
    else .ok ([.option name none], none)
  | '-' :: first :: rest => letters argument (first :: rest)
  | _ => .ok ([.operand argument], none)

/-- Tells options and operands apart, up to the option of the version. After two dashes all
arguments are operands. -/
def tokens : List String → Except UsageError (List Token)
  | [] => .ok []
  | argument :: rest =>
    if argument = "--" then .ok (rest.map .operand)
    else
      match token argument with
      | .error error => .error error
      | .ok (found, none) =>
        if found.any Token.isVersion then .ok found else do return found ++ (← tokens rest)
      | .ok (found, some name) =>
        match rest with
        | [] => .error (.missingValue name)
        | value :: rest =>
          if isValue value then do
            return found ++ .option name (some value) :: (← tokens rest)
          else .error (.missingValue name)

abbrev Options := List (String × Option String)

namespace Options

def has (options : Options) (name : String) : Bool := options.any (·.1 == name)

def value? (options : Options) (name : String) : Option String :=
  (options.find? (·.1 == name)).bind (·.2)

/-- Only the folders to be searched can be given several times. -/
def check (options : Options) (allowed : List String) : Except UsageError Unit :=
  match options with
  | [] => .ok ()
  | (name, _) :: rest =>
    if !allowed.contains name then .error (.misplaced name)
    else if name ≠ "schema-path" ∧ has rest name then .error (.repeated name)
    else check rest allowed

def path? (options : Options) (name : String) : Except UsageError (Option Path) :=
  match options.value? name with
  | none => .ok none
  | some "" => .error (.emptyPath name)
  | some text => .ok (some ⟨text⟩)

def format (options : Options) : Except UsageError Format :=
  match options.value? "format" with
  | none | some "text" => .ok .text
  | some "json" => .ok .json
  | some other => .error (.unknownFormat other)

end Options

def pathList (text : String) : Except UsageError (List Path) :=
  let parts := pieces (· == ':') text.toList
  if parts.any (·.isEmpty) then .error (.emptyPath "schema-path")
  else .ok (parts.map fun part => ⟨String.ofList part⟩)

def Options.folders? (options : Options) : Except UsageError (Option (List Path)) := do
  let lists ← (options.filter (·.1 == "schema-path")).mapM fun entry => pathList (entry.2.getD "")
  return if lists.isEmpty then none else some lists.flatten

def everywhere : List String := ["schema-path", "verbose"]

def action (name : String) (options : Options) : Except UsageError Action := do
  match name with
  | "script" =>
    options.check (everywhere ++ ["output", "schema"])
    return .script (← options.path? "output") (options.value? "schema")
  | "validate" =>
    options.check (everywhere ++ ["schema", "format"])
    return .validate (options.value? "schema") (← options.format)
  | "count" =>
    options.check (everywhere ++ ["format"])
    return .count (← options.format)
  | "xml" =>
    options.check (everywhere ++ ["output", "cdata", "compact"])
    return .xml (← options.path? "output") (options.has "cdata") (options.has "compact")
  | "wkt" =>
    options.check (everywhere ++ ["format"])
    return .wkt (← options.format)
  | other => throw (.unknownAction other)

def options (tokens : List Token) : Options :=
  tokens.filterMap fun
    | .option name value => some (name, value)
    | .operand _ => none

def operands (tokens : List Token) : List String :=
  tokens.filterMap fun
    | .operand text => some text
    | .option .. => none

def isOption : Token → Bool
  | .option .. => true
  | .operand _ => false

/-- The folders given with the action count before those given in front of it. The version can only
be asked for in front of the action, and the options before it must be right. -/
def parse (arguments : List String) : Except UsageError Request := do
  let all ← tokens arguments
  let front := options (all.takeWhile isOption)
  front.check (versionOption :: everywhere)
  let frontFolders ← front.folders?
  if front.has versionOption then return .version
  match all.dropWhile isOption with
  | .operand name :: rest =>
    let own := options rest
    let action ← action name own
    match operands rest with
    | [] => throw .missingInput
    | [input] =>
      let folders := (← own.folders?).or frontFolders
      return .run ⟨action, input, folders⟩
    | _ :: extra :: _ => throw (.unexpectedOperand extra)
  | _ => throw .missingAction

end KeyholeMarkup.Command
