import Minifier.Command.Arguments
import Minifier.Finding.Encode
import Minifier.Options.Codec
import Minifier.Simplify
import Minifier.Syntax.Decode

/-!
# What the command does

The command reads its options and a program, minifies the program, tells what it found and writes
the result. All of that is a `Task`: a description of the steps, which goes on as the outcome of
each step demands. The first thing that goes wrong is told and ends the task with code 2.
-/

namespace Minifier.Command

/-- Why a file cannot be read or written: the words and the number of the system's error, or that
the file holds no text. -/
inductive FileError
  | system (words : String) (code : Nat)
  | notText
deriving DecidableEq, Repr

namespace FileError

/-- The wording of an error. -/
def message : FileError → String
  | .system words code => s!"I/O error: {words} (os error {code})"
  | .notText => "stream did not contain valid UTF-8"

/-- The number of the system's error. -/
def code? : FileError → Option Nat
  | .system _ code => some code
  | .notText => none

/-- There is no such file. -/
def notFound : FileError := .system "No such file or directory" 2

/-- There is no such device. -/
def noDevice : FileError := .system "No such device or address" 6

/-- A part of the path is a file. -/
def notFolder : FileError := .system "Not a directory" 20

/-- There is a folder at the path. -/
def isFolder : FileError := .system "Is a directory" 21

/-- The device takes nothing. -/
def noSpace : FileError := .system "No space left on device" 28

/-- The path or a part of it has too many bytes. -/
def nameTooLong : FileError := .system "File name too long" 36

/-- The errors that have a name. -/
def named : List FileError := [notFound, noDevice, notFolder, isFolder, noSpace, nameTooLong]

end FileError

/-- Steps to take: read a file or the standard input, write a file or the standard output, tell a
line on the standard error, log that the program has been minified, and end with an exit code. -/
inductive Task
  | read (path : Option String) (next : Except FileError String → Task)
  | write (path : Option String) (text : String) (next : Except FileError Unit → Task)
  | tell (line : String) (next : Task)
  | log (next : Task)
  | exit (code : Nat)

namespace Task

/-- Tells an error and ends. -/
def fail (message : String) : Task :=
  .tell s!"error: {message}" (.exit 2)

/-- Goes on with a value unless there is an error. -/
def check {ε α : Type} (message : ε → String) (x : Except ε α) (next : α → Task) : Task :=
  match x with
  | .error e => fail (message e)
  | .ok x => next x

/-- Reads a text and goes on with it. -/
def readText (path : Option String) (next : String → Task) : Task :=
  let name := path.getD "<stdin>"
  .read path fun text => check (fun e => s!"failed to read {name}: {e.message}") text next

/-- Reads a text if there is a path, and goes on with it. -/
def readIfAny (path : Option String) (next : Option String → Task) : Task :=
  match path with
  | some path => readText (some path) fun text => next (some text)
  | none => next none

/-- Writes a text and ends. -/
def writeText (path : Option String) (text : String) : Task :=
  let name := path.getD "<stdout>"
  .write path text fun x =>
    check (fun e => s!"failed to write {name}: {e.message}") x fun _ => .exit 0

/-- Tells lines one after the other. -/
def tellAll (lines : List String) (next : Task) : Task :=
  lines.foldr .tell next

end Task

/-- The message for a program that does not decode. -/
def malformed (e : Json.DecodeError) : String :=
  s!"malformed syntax tree: {e.message}"

namespace Arguments

/-- The options that the arguments ask for, given the settings in the configuration: first those
settings, then what is to be enabled, then what is to be disabled. -/
def options (a : Arguments) (settings : List (String × Bool)) : Except String Options :=
  (Options.ofSettings settings a.allOff).map fun o =>
    let o := a.enable.foldl (fun o name => o.set name true) o
    a.disable.foldl (fun o name => o.set name false) o

/-- Reads the configuration and goes on with the options. -/
def withOptions (a : Arguments) (next : Options → Task) : Task :=
  .readIfAny a.config fun text =>
    let name := a.config.getD ""
    let settings := (text.map Options.settingsOfText).getD (.ok [])
    .check (fun e => s!"invalid config {name}: {e.message}") settings fun settings =>
      .check unknownOption (a.options settings) next

/-- Tells the result of minifying. -/
def deliver (a : Arguments) (source : Option String) (result : Report Program) : Task :=
  let text := result.value.render
  if a.json then
    let json : Json := .obj [("output", .str text),
      ("diagnostics", .arr (result.findings.map Finding.toJson))]
    .writeText a.output json.render
  else .tellAll (result.findings.map fun f => f.render source) (.writeText a.output text)

/-- The task that the arguments ask for. -/
def task (a : Arguments) : Task :=
  a.withOptions fun o =>
    .readText a.input fun text =>
      .readIfAny a.source fun source =>
        .check malformed (Program.ofText text) fun program =>
          let done := a.deliver source (program.minify o)
          if a.trace then .log done else done

end Arguments

end Minifier.Command
