import MasCheck.Resource.Probe
import MasCheck.Text.Bytes
import MasCheck.Text.Path

/-!
# Files on a disk

A disk is a tree of directories and files with a working directory in it. A path is walked part by
part: `.` and an empty part stay in a directory, `..` goes to its parent, and any other part is
looked up. Every step needs a directory to start from, so a separator after a file is an error. The
top of the tree is its own parent.
-/

namespace MasCheck

/-- Places in the tree are lists of names from the top. -/
abbrev Place := List String

structure Disk where
  directories : List Place
  files : List (Place × List UInt8)
  workingDirectory : Place
  deriving DecidableEq, Repr

inductive Entry
  | directory (place : Place)
  | file (content : List UInt8)
  deriving DecidableEq, Repr

inductive WalkError
  | noEntry
  | notDirectory
  | nameTooLong
  | badName
  deriving DecidableEq, Repr

def chain : Place → List Place
  | [] => [[]]
  | name :: rest => [] :: (chain rest).map (name :: ·)

namespace Disk

/-- A disk with a single chain of directories, down to the working directory. -/
def empty (workingDirectory : Place) : Disk :=
  { directories := chain workingDirectory, files := [], workingDirectory }

def find? (d : Disk) (place : Place) : Option Entry :=
  match d.files.lookup place with
  | some content => some (.file content)
  | none => if place ∈ d.directories then some (.directory place) else none

def longestName : Nat := 255

def longestPath : Nat := 4095

def step (d : Disk) (here : Entry) (part : String) : Except WalkError Entry :=
  match here with
  | .file _ => .error .notDirectory
  | .directory place =>
    if part = "" ∨ part = "." then .ok (.directory place)
    else if part = ".." then .ok (.directory place.dropLast)
    else if longestName < Text.byteLength part.toList then .error .nameTooLong
    else match d.find? (place ++ [part]) with
      | some entry => .ok entry
      | none => .error .noEntry

def parts (path : String) : List String :=
  (Text.Path.pieces path.toList).map String.ofList

def origin (d : Disk) (path : String) : Place :=
  if path.toList.head? = some '/' then [] else d.workingDirectory

def walk (d : Disk) (path : String) : Except WalkError Entry :=
  if '\x00' ∈ path.toList then .error .badName
  else if path = "" then .error .noEntry
  else if longestPath < Text.byteLength path.toList then .error .nameTooLong
  else (parts path).foldlM d.step (.directory (d.origin path))

/-- The place that a path names when nothing on its way is a file. -/
def placeOf (d : Disk) (path : String) : Place :=
  (parts path).foldl
    (fun place part ↦
      if part = "" ∨ part = "." then place
      else if part = ".." then place.dropLast
      else place ++ [part])
    (d.origin path)

def makeDirectory (d : Disk) (path : String) : Disk :=
  { d with directories := chain (d.placeOf path) ++ d.directories }

def write (d : Disk) (path : String) (content : List UInt8) : Disk :=
  let place := d.placeOf path
  { d with directories := chain place.dropLast ++ d.directories
           files := (place, content) :: d.files }

/-- A path below a base directory; an absolute path stays as it is. -/
def join (base path : String) : String :=
  if path.toList.head? = some '/' ∨ base = "" then path
  else if base.toList.getLast? = some '/' then base ++ path
  else base ++ "/" ++ path

end Disk

namespace WalkError

/-- The error of a file system for a path that leads nowhere. -/
def toProbeError (path : String) : WalkError → ProbeError
  | noEntry => .missing path
  | notDirectory => .unreadable path "Not a directory (os error 20)"
  | nameTooLong => .unreadable path "File name too long (os error 36)"
  | badName => .unreadable path "file name contained an unexpected NUL byte"

end WalkError

namespace Disk

/-- Answers from the files below a base directory. A directory can be opened, and fails when bytes
are asked of it. -/
def probe (d : Disk) (base : String) : Probe :=
  { isPresent := fun path ↦
      match d.walk (join base path) with
      | .ok (.file _) => true
      | _ => false
    firstBytes := fun path count ↦
      let full := join base path
      match d.walk full with
      | .ok (.file content) => .ok (content.take count)
      | .ok (.directory _) =>
        if count = 0 then .ok [] else .error (.unreadable full "Is a directory (os error 21)")
      | .error e => .error (e.toProbeError full) }

end Disk

end MasCheck
