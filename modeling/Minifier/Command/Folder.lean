import Minifier.Command.Device
import Minifier.Command.Task

/-!
# Tasks in a folder

A folder of text files held in memory, and what a task does in it. The folder is part of a system
that has some folders and devices besides. What a task writes to other places of the system is
lost.
-/

namespace Minifier.Command

/-- Files with their texts. A name may have several parts with slashes between them. -/
abbrev Folder := List (String × String)

/-- Where a text goes that is written. -/
inductive Sink
  | device (device : Device)
  | away
  | file (name : String)
deriving DecidableEq, Repr

namespace Folder

/-- The place of the folder. It is one for temporary files under a name that no path can spell. -/
def home : Place := ["tmp", "/"]

/-- The names that lead from the folder to a place in it. -/
def within? (place : Place) : Option (List String) :=
  if home.isPrefixOf place then some (place.drop home.length) else none

/-- What is found in the folder under the given names. -/
def lookInside (files : Folder) (names : List String) : Found :=
  match files.find? fun file => Path.names file.1 == names with
  | some file => .file file.1
  | none =>
    if names.isEmpty || files.any fun file => names.isPrefixOf (Path.names file.1) then .folder
    else .nothing

/-- What is found at a place. -/
def look (files : Folder) (place : Place) : Found :=
  match within? place with
  | some names => files.lookInside names
  | none => Device.look place

/-- The place and what is found there, one part of a path further. -/
def step (files : Folder) (here : Place) (name : String) : Except FileError (Place × Found) :=
  if Path.partLimit < name.utf8ByteSize then .error .nameTooLong
  else
    let place := Device.follow (here.go name)
    .ok (place, files.look place)

/-- The place that parts of a path lead to. Each of them must lead to a folder. -/
def enter (files : Folder) : Place → List String → Except FileError Place
  | here, [] => .ok here
  | here, name :: rest => do
    match ← files.step here name with
    | (place, .folder) => files.enter place rest
    | (_, .nothing) => throw .notFound
    | _ => throw .notFolder

/-- The path of a text, and the place that its parents lead to. -/
def start (files : Folder) (text : String) : Except FileError (Path × Place) := do
  if text.isEmpty then throw .notFound
  if Path.sizeLimit < text.utf8ByteSize then throw .nameTooLong
  let path := Path.ofText text
  return (path, ← files.enter (if path.isAbsolute then [] else home) path.parents)

/-- What there is to read at a path: a file or a device. -/
def source (files : Folder) (text : String) : Except FileError Found := do
  let (path, here) ← files.start text
  match path.last with
  | none => throw .isFolder
  | some name =>
    match ← files.step here name with
    | (_, .nothing) => throw .notFound
    | (_, .folder) => throw .isFolder
    | (_, found) =>
      if path.hasSlash then throw .notFolder
      if found = .device .terminal then throw .noDevice
      return found

/-- The text to read at a path, given the standard input. -/
def read (files : Folder) (input : String) (text : String) : Except FileError String := do
  match ← files.source text with
  | .file name => return (files.lookup name).getD ""
  | .device .input => return input
  | _ => return ""

/-- Where a text goes that is written to a path. A file that is not there yet is made, but no
folder. -/
def sink (files : Folder) (text : String) : Except FileError Sink := do
  let (path, here) ← files.start text
  match path.last with
  | none => throw .isFolder
  | some name =>
    if path.hasSlash then throw .isFolder
    match ← files.step here name with
    | (_, .folder) => throw .isFolder
    | (_, .file name) => return .file name
    | (_, .device .terminal) => throw .noDevice
    | (_, .device device) => return .device device
    | (place, .nothing) =>
      match within? place with
      | some names => return .file ("/".intercalate names)
      | none => if Device.takesFiles place then return .away else throw .notFound

/-- The folder after a file is written. -/
def put (files : Folder) (name text : String) : Folder :=
  if files.any fun file => file.1 == name then
    files.map fun file => if file.1 == name then (name, text) else file
  else files ++ [(name, text)]

end Folder

/-- What comes of a task: the exit code, the standard output, the lines on the standard error,
whether anything was logged, and the folder. -/
structure Outcome where
  code : Nat
  output : String := ""
  lines : List String := []
  logged : Bool := false
  files : Folder

/-- The outcome of a task that has written a text to a device before. -/
def Outcome.after (device : Device) (text : String) (rest : Outcome) : Outcome :=
  match device with
  | .output => { rest with output := text ++ rest.output }
  | .report => if text.isEmpty then rest else { rest with lines := text :: rest.lines }
  | _ => rest

/-- Does a task in a folder with the given standard input. -/
def Task.run (input : String) (files : Folder) : Task → Outcome
  | .read none next => (next (.ok input)).run "" files
  | .read (some path) next =>
    let left := if files.source path matches .ok (.device .input) then "" else input
    (next (files.read input path)).run left files
  | .write path text next =>
    match path.elim (.ok (.device .output)) files.sink with
    | .error e => (next (.error e)).run input files
    | .ok .away => (next (.ok ())).run input files
    | .ok (.file name) => (next (.ok ())).run input (files.put name text)
    | .ok (.device .full) =>
      (next (if text.isEmpty then .ok () else .error .noSpace)).run input files
    | .ok (.device device) => ((next (.ok ())).run input files).after device text
  | .tell line next =>
    let rest := next.run input files
    { rest with lines := line :: rest.lines }
  | .log next => { next.run input files with logged := true }
  | .exit code => { code, files }

/-- The files that a task made or changed. -/
def Outcome.written (out : Outcome) (before : Folder) : Folder :=
  out.files.filter fun file => before.lookup file.1 != some file.2

end Minifier.Command
