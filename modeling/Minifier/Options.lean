/-!
# Options

Which simplifications are made. All of them are on by default, or all are off, and single ones are
then set by name.
-/

namespace Minifier

/-- The name of an option. -/
inductive OptionName
  /-- Join adjacent expression statements with commas. -/
  | sequences
  /-- Write a member access with a point where the key is a plain name. -/
  | properties
  /-- Drop statements after a jump. -/
  | deadCode
  /-- Drop `debugger` statements. -/
  | dropDebugger
  /-- Reserved for simplifications that take builtins to be unmodified. -/
  | pristine
  /-- Restructure `if` statements and conditional expressions. -/
  | conditionals
  /-- Turn relations around when they are negated, which is wrong for NaN. -/
  | comparisons
  /-- Fold constants. -/
  | evaluate
  /-- Report findings. -/
  | warnings
deriving DecidableEq, Repr

namespace OptionName

/-- All names, in their usual order. -/
def all : List OptionName :=
  [.sequences, .properties, .deadCode, .dropDebugger, .pristine, .conditionals, .comparisons,
    .evaluate, .warnings]

/-- The name as it is written. -/
def text : OptionName → String
  | .sequences => "sequences"
  | .properties => "properties"
  | .deadCode => "dead_code"
  | .dropDebugger => "drop_debugger"
  | .pristine => "unsafe"
  | .conditionals => "conditionals"
  | .comparisons => "comparations"
  | .evaluate => "evaluate"
  | .warnings => "warnings"

/-- The option with the given name. -/
def ofText? (text : String) : Option OptionName :=
  all.find? fun name => name.text == text

end OptionName

/-- Which options are on. -/
structure Options where
  sequences : Bool
  properties : Bool
  deadCode : Bool
  dropDebugger : Bool
  pristine : Bool
  conditionals : Bool
  comparisons : Bool
  evaluate : Bool
  warnings : Bool
deriving DecidableEq, Repr

namespace Options

/-- All options on, or all off. -/
def all (on : Bool) : Options :=
  ⟨on, on, on, on, on, on, on, on, on⟩

instance : Inhabited Options := ⟨all true⟩

/-- Whether an option is on. -/
def get (o : Options) : OptionName → Bool
  | .sequences => o.sequences
  | .properties => o.properties
  | .deadCode => o.deadCode
  | .dropDebugger => o.dropDebugger
  | .pristine => o.pristine
  | .conditionals => o.conditionals
  | .comparisons => o.comparisons
  | .evaluate => o.evaluate
  | .warnings => o.warnings

/-- Turns an option on or off. -/
def set (o : Options) (name : OptionName) (on : Bool) : Options :=
  match name with
  | .sequences => { o with sequences := on }
  | .properties => { o with properties := on }
  | .deadCode => { o with deadCode := on }
  | .dropDebugger => { o with dropDebugger := on }
  | .pristine => { o with pristine := on }
  | .conditionals => { o with conditionals := on }
  | .comparisons => { o with comparisons := on }
  | .evaluate => { o with evaluate := on }
  | .warnings => { o with warnings := on }

/-- Sets options by their written names, one after the other. A name of no option is given back as
the error. -/
def setAll (o : Options) : List (String × Bool) → Except String Options
  | [] => .ok o
  | (text, on) :: rest =>
    match OptionName.ofText? text with
    | some name => (o.set name on).setAll rest
    | none => .error text

/-- The options for a list of settings, the others being on, or off if `none` is set. -/
def ofSettings (settings : List (String × Bool)) (none : Bool) : Except String Options :=
  (all !none).setAll settings

end Options

/-- The message for a name of no option. -/
def unknownOption (name : String) : String :=
  s!"`{name}` is not a supported option"

end Minifier
