import Minifier.Options

/-!
# Command line arguments

Flags may come in any order. A flag with a value is followed by it, or holds it after an equality
sign; the value of a flag of one letter may follow the letter directly. Only `--enable` and
`--disable` may be given more than once.
-/

namespace Minifier.Command

/-- What the command is asked to do. -/
structure Arguments where
  input : Option String := none
  output : Option String := none
  source : Option String := none
  config : Option String := none
  allOff : Bool := false
  enable : List OptionName := []
  disable : List OptionName := []
  json : Bool := false
  trace : Bool := false

/-- Why arguments make no sense. -/
inductive UsageError
  | unknownFlag (arg : String)
  | strayArgument (arg : String)
  | missingValue (flag : String)
  | unexpectedValue (flag : String)
  | repeated (flag : String)
  | badOption (name : String)
deriving DecidableEq, Repr

/-- The wording of an error. -/
def UsageError.message : UsageError → String
  | .unknownFlag arg => s!"unknown flag {arg}"
  | .strayArgument arg => s!"unexpected argument {arg}"
  | .missingValue flag => s!"a value is required for {flag}"
  | .unexpectedValue flag => s!"{flag} takes no value"
  | .repeated flag => s!"{flag} is given more than once"
  | .badOption name => unknownOption name

/-- The flags. -/
inductive Flag
  | input
  | output
  | source
  | config
  | allOff
  | enable
  | disable
  | json
  | trace
deriving DecidableEq, Repr

namespace Flag

/-- All flags. -/
def all : List Flag :=
  [input, output, source, config, allOff, enable, disable, json, trace]

/-- The name of a flag, which is written after two hyphens. -/
def name : Flag → String
  | input => "input"
  | output => "output"
  | source => "source"
  | config => "config"
  | allOff => "none"
  | enable => "enable"
  | disable => "disable"
  | json => "json"
  | trace => "trace"

/-- The letter of a flag, which is written after one hyphen. -/
def letter? : Flag → Option Char
  | input => some 'i'
  | output => some 'o'
  | _ => none

/-- Whether a flag has a value. -/
def takesValue : Flag → Bool
  | allOff | json | trace => false
  | _ => true

end Flag

/-- An argument taken apart: a flag with the value it holds, or the end of the flags. -/
inductive Argument
  | flag (flag : Flag) (value : Option String)
  | stop

/-- Takes an argument apart. -/
def Argument.ofText (arg : String) : Except UsageError Argument :=
  match arg.toList with
  | ['-', '-'] => .ok .stop
  | '-' :: '-' :: rest =>
    let name := String.ofList (rest.takeWhile (· != '='))
    let value := match rest.dropWhile (· != '=') with
      | [] => none
      | _ :: value => some (String.ofList value)
    match Flag.all.find? fun flag => flag.name == name with
    | some f => .ok (.flag f value)
    | none => .error (.unknownFlag arg)
  | '-' :: letter :: rest =>
    let value := match rest with
      | [] => none
      | '=' :: value => some (String.ofList value)
      | value => some (String.ofList value)
    match Flag.all.find? fun flag => flag.letter? == some letter with
    | some f => .ok (.flag f value)
    | none => .error (.unknownFlag arg)
  | _ => .error (.strayArgument arg)

/-- Whether an argument can be the value of the flag before it: a lone hyphen can, but nothing else
that begins with one. -/
def isValue (arg : String) : Bool :=
  arg == "-" || !arg.startsWith "-"

namespace Arguments

/-- Sets a path that must not be set yet. -/
def setPath (flag : Flag) (old : Option String) (path : String) :
    Except UsageError (Option String) :=
  if old.isSome then .error (.repeated flag.name)
  else if path.isEmpty then .error (.missingValue flag.name)
  else .ok (some path)

/-- Sets a switch that must not be set yet. -/
def setSwitch (flag : Flag) (old : Bool) : Except UsageError Bool :=
  if old then .error (.repeated flag.name) else .ok true

/-- The option of the given name. -/
def optionNamed (name : String) : Except UsageError OptionName :=
  match OptionName.ofText? name with
  | some option => .ok option
  | none => .error (.badOption name)

/-- Adds a flag with its value. -/
def add (a : Arguments) (flag : Flag) (value : String) : Except UsageError Arguments :=
  match flag with
  | .input => (setPath flag a.input value).map fun x => { a with input := x }
  | .output => (setPath flag a.output value).map fun x => { a with output := x }
  | .source => (setPath flag a.source value).map fun x => { a with source := x }
  | .config => (setPath flag a.config value).map fun x => { a with config := x }
  | .allOff => (setSwitch flag a.allOff).map fun x => { a with allOff := x }
  | .enable => (optionNamed value).map fun x => { a with enable := a.enable ++ [x] }
  | .disable => (optionNamed value).map fun x => { a with disable := a.disable ++ [x] }
  | .json => (setSwitch flag a.json).map fun x => { a with json := x }
  | .trace => (setSwitch flag a.trace).map fun x => { a with trace := x }

/-- Adds the flags in a list of arguments. -/
def addAll (a : Arguments) : List String → Except UsageError Arguments
  | [] => .ok a
  | arg :: rest =>
    match Argument.ofText arg with
    | .error e => .error e
    | .ok .stop =>
      match rest with
      | [] => .ok a
      | stray :: _ => .error (.strayArgument stray)
    | .ok (.flag flag (some value)) =>
      if flag.takesValue then a.add flag value >>= fun a => a.addAll rest
      else .error (.unexpectedValue flag.name)
    | .ok (.flag flag none) =>
      if flag.takesValue then
        match rest with
        | [] => .error (.missingValue flag.name)
        | value :: rest =>
          if isValue value then a.add flag value >>= fun a => a.addAll rest
          else .error (.missingValue flag.name)
      else a.add flag "" >>= fun a => a.addAll rest

/-- Reads the arguments of the command. -/
def ofList (args : List String) : Except UsageError Arguments :=
  addAll {} args

end Arguments

end Minifier.Command
