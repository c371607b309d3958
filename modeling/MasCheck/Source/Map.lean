import MasCheck.Source.Search
import MasCheck.Source.Span
import MasCheck.Text.Bytes

/-!
# Lines and columns

A source map turns a byte offset into a line and a column, both counted from one. A line ends at
its newline; a column counts characters. An offset past the end stands for the end, and an offset
inside a character counts the bytes since the start of its line. The line is searched for among the
offsets at which lines begin.
-/

namespace MasCheck

/-- Where a finding points: a file, a line, a column, and the bytes when they are known. -/
structure Position where
  file : String
  line : Nat
  column : Nat
  span : Option Span
  deriving DecidableEq, Repr

namespace Position

def fileStart (file : String) : Position :=
  { file, line := 1, column := 1, span := none }

def text (p : Position) : String :=
  p.file ++ ":" ++ toString p.line ++ ":" ++ toString p.column

/-- The byte offset at which the span ends, zero without one. -/
def spanStop (p : Position) : Nat :=
  p.span.elim 0 Span.stop

end Position

structure SourceMap where
  file : String
  source : List Char
  deriving Repr

namespace SourceMap

def ofText (file text : String) : SourceMap :=
  ⟨file, text.toList⟩

/-- The offsets behind the newlines of a text that starts at byte `here`. -/
def behindNewlines (here : Nat) : List Char → List Nat
  | [] => []
  | c :: cs =>
    let behind := here + c.utf8Size
    if c = '\n' then behind :: behindNewlines behind cs else behindNewlines behind cs

/-- The offsets at which lines begin. -/
def lineStarts (m : SourceMap) : List Nat :=
  0 :: behindNewlines 0 m.source

/-- The number of the line of an offset, from zero. Nothing is in front of the first line. -/
def lineOf? (m : SourceMap) (offset : Nat) : Option Nat :=
  match Search.among m.lineStarts offset with
  | .found line => some line
  | .missing 0 => none
  | .missing (next + 1) => some next

/-- The line and the column of an offset. There is no answer if no line is found, if there is no
line of the number found, or if this line begins behind the offset. -/
def lineColumn? (m : SourceMap) (offset : Nat) : Option (Nat × Nat) := do
  let offset := min offset (Text.byteLength m.source)
  let line ← m.lineOf? offset
  let start ← m.lineStarts[line]?
  let bytes ← if start ≤ offset then some (offset - start) else none
  let column := (Text.slice? start offset m.source).elim bytes List.length
  return (line + 1, column + 1)

def lineColumn (m : SourceMap) (offset : Nat) : Nat × Nat :=
  (m.lineColumn? offset).getD (1, 1)

def position (m : SourceMap) (span : Span) : Position :=
  let place := m.lineColumn span.start
  { file := m.file, line := place.1, column := place.2, span := some span }

end SourceMap

end MasCheck
