import Minifier.Command.Task

/-!
# The command

Takes the steps of a task on the files and streams of the system.
-/

namespace Minifier.Command

-- Powers are meant as the core library defines them, whatever algebra is in scope.
attribute [local instance (2000)] instPowNat

/-- An error with the number and the words the system has for it. The number may be negated. -/
def FileError.ofCode (code : UInt32) (words : String) : FileError :=
  let number := min code.toNat (2 ^ (32 : Nat) - code.toNat)
  match named.find? fun e => e.code? == some number with
  | some known => known
  | none => .system words number

/-- An error of the system. -/
def FileError.ofSystem : IO.Error → FileError
  | .noFileOrDirectory _ code words => .ofCode code words
  | .noSuchThing _ code words => .ofCode code words
  | .inappropriateType _ code words => .ofCode code words
  | .invalidArgument _ code words => .ofCode code words
  | .permissionDenied _ code words => .ofCode code words
  | .resourceExhausted _ code words => .ofCode code words
  | other => .ofCode 5 other.toString

/-- The text that bytes stand for. -/
def textOfBytes (bytes : ByteArray) : Except FileError String :=
  match String.fromUTF8? bytes with
  | some text => .ok text
  | none => .error .notText

/-- Reads a file, or the standard input. -/
def readPath (path : Option String) : IO (Except FileError String) := do
  try
    match path with
    | some path => return textOfBytes (← IO.FS.readBinFile path)
    | none => return textOfBytes (← (← IO.getStdin).readBinToEnd)
  catch e => return .error (.ofSystem e)

/-- Writes a file, or the standard output. -/
def writePath (path : Option String) (text : String) : IO (Except FileError Unit) := do
  try
    match path with
    | some path => IO.FS.writeFile path text
    | none =>
      let out ← IO.getStdout
      out.putStr text
      out.flush
    return .ok ()
  catch e => return .error (.ofSystem e)

/-- Does a task. -/
def Task.perform : Task → IO UInt32
  | .read path next => do (next (← readPath path)).perform
  | .write path text next => do (next (← writePath path text)).perform
  | .tell line next => do
    IO.eprintln line
    next.perform
  | .log next => do
    IO.eprintln "minification complete"
    next.perform
  | .exit code => return code.toUInt32

end Minifier.Command

/-- Minifies a syntax tree as the arguments say. -/
def main (args : List String) : IO UInt32 :=
  match Minifier.Command.Arguments.ofList args with
  | .ok a => a.task.perform
  | .error e => do
    IO.eprintln s!"error: {e.message}"
    return 2
