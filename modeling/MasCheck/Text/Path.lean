/-!
# File paths

A path is read as an optional root and a list of parts. Repeated and trailing separators add
nothing, and neither does a part `.` except at the very front of a relative path; `..` is a part
like any other. Two paths name the same entry of a store when these readings agree. The stem and
the extension are taken from the last part.
-/

namespace MasCheck.Text

structure Path where
  absolute : Bool
  parts : List String
  deriving DecidableEq, Repr

namespace Path

def pieces (cs : List Char) : List (List Char) :=
  match cs with
  | [] => [[]]
  | c :: rest =>
    if c = '/' then [] :: pieces rest
    else match pieces rest with
      | [] => [[c]]
      | p :: ps => (c :: p) :: ps

/-- A piece that counts as a part wherever it stands. -/
def isPart (piece : List Char) : Bool :=
  piece ≠ [] && piece ≠ ['.']

def ofText (text : String) : Path :=
  let cs := text.toList
  let absolute := cs.head? = some '/'
  let all := pieces cs
  let leading := if all.head? = some ['.'] then [['.']] else []
  { absolute, parts := (leading ++ all.filter isPart).map String.ofList }

/-- The last part, unless it only moves between directories. -/
def fileName? (p : Path) : Option String :=
  match p.parts.getLast? with
  | some "." => none
  | some ".." => none
  | last => last

/-- A file name cut at its last dot. A dot in front of everything does not cut. -/
def splitDot (name : String) : String × Option String :=
  let reversed := name.toList.reverse
  match reversed.dropWhile (· ≠ '.') with
  | [] => (name, none)
  | _ :: before =>
    if before = [] then (name, none)
    else (String.ofList before.reverse, some (String.ofList (reversed.takeWhile (· ≠ '.')).reverse))

def stem? (p : Path) : Option String :=
  p.fileName?.map fun name ↦ (splitDot name).1

def extension? (p : Path) : Option String :=
  p.fileName?.bind fun name ↦ (splitDot name).2

end Path

/-- Equality of texts up to the case of ASCII letters. -/
def sameIgnoringCase (u v : String) : Bool :=
  u.toList.map Char.toLower = v.toList.map Char.toLower

/-- The path ends in the extension, ASCII case ignored. -/
def hasExtension (path extension : String) : Bool :=
  match (Path.ofText path).extension? with
  | some found => sameIgnoringCase found extension
  | none => false

end MasCheck.Text
