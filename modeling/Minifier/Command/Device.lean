import Minifier.Command.Path

/-!
# Devices

The parts of a system that are there before any task: some folders, some devices, and the streams of
the process, which are devices too. Links lead to the streams by shorter names.
-/

namespace Minifier.Command

/-- A device: one that is empty and takes everything, one that takes nothing, a terminal that is not
there, and the three streams. -/
inductive Device
  | null
  | full
  | terminal
  | input
  | output
  | report
deriving DecidableEq, Repr

/-- What is found at a place. -/
inductive Found
  | nothing
  | folder
  | file (name : String)
  | device (device : Device)
deriving DecidableEq, Repr

namespace Device

/-- The folders right below the root. -/
def rootFolders : List String := [
  "bin", "boot", "dev", "etc", "home", "lib", "media", "mnt", "opt", "proc", "root", "run", "sbin",
  "srv", "sys", "tmp", "usr", "var"]

/-- The folders among the devices. -/
def folders : List String := ["mqueue", "pts", "shm"]

/-- The devices by name. -/
def named : List (String × Device) := [("null", .null), ("full", .full), ("tty", .terminal)]

/-- The streams by number. -/
def streams : List (String × Device) := [("0", .input), ("1", .output), ("2", .report)]

/-- The folder of the streams. -/
def streamFolder : Place := ["proc", "self", "fd"]

/-- The place that a link leads to. A place that is no link leads to itself. -/
def follow : Place → Place
  | ["dev", "fd"] => streamFolder
  | ["dev", "stdin"] => streamFolder ++ ["0"]
  | ["dev", "stdout"] => streamFolder ++ ["1"]
  | ["dev", "stderr"] => streamFolder ++ ["2"]
  | place => place

/-- The device of a name, if there is one. -/
def find (table : List (String × Device)) (name : String) : Found :=
  match table.lookup name with
  | some device => .device device
  | none => .nothing

/-- What is found at a place of the system. -/
def look : Place → Found
  | [] | ["proc", "self"] | ["proc", "self", "fd"] => .folder
  | [name] => if rootFolders.contains name then .folder else .nothing
  | ["dev", name] => if folders.contains name then .folder else find named name
  | ["proc", "self", "fd", number] => find streams number
  | _ => .nothing

/-- Whether files can be made at a place. The folders that tell about processes take none. -/
def takesFiles (place : Place) : Bool :=
  place.head? != some "proc"

end Device

end Minifier.Command
