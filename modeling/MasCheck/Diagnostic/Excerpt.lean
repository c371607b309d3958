import MasCheck.Diagnostic.Basic
import MasCheck.Source.Lines
import MasCheck.Text.Cells

/-!
# Showing a finding in its source

The excerpt of a diagnostic is its message over the lines that its span touches, with a mark at
the span. The offsets of the span are taken as counts of characters. A span that does not begin in
the text, or does not end in it, has no mark and shows no lines.

An excerpt is made of rows of strokes, and colours are only applied when the rows are written.
-/

namespace MasCheck

/-- What a stroke belongs to, which decides its colour. -/
inductive Paint
  | plain
  | finding
  | margin
  | gap
  | source
  deriving DecidableEq, Repr

structure Stroke where
  paint : Paint
  text : String
  deriving DecidableEq, Repr

abbrev Row := List Stroke

namespace Severity

def title : Severity → String
  | error => "Error"
  | warning => "Warning"

def color : Severity → String
  | error => "31"
  | warning => "33"

end Severity

namespace Paint

def color? (severity : Severity) : Paint → Option String
  | plain => none
  | finding => some severity.color
  | margin => some "38;5;246"
  | gap => some "38;5;240"
  | source => some "38;5;249"

end Paint

namespace Stroke

/-- A stroke with its colour switched on before it and off after it. -/
def colored (severity : Severity) (s : Stroke) : String :=
  match s.paint.color? severity with
  | none => s.text
  | some color => "\x1b[" ++ color ++ "m" ++ s.text ++ "\x1b[0m"

/-- A character over the given number of cells: one stroke for the first, and one for each other. -/
def spread (cells : Nat) (paint : Paint) (head tail : Char) : Row :=
  match cells with
  | 0 => []
  | n + 1 => ⟨paint, head.toString⟩ :: List.replicate n ⟨paint, tail.toString⟩

end Stroke

namespace Excerpt

def plain (text : String) : Stroke :=
  ⟨.plain, text⟩

def finding (c : Char) : Stroke :=
  ⟨.finding, c.toString⟩

def repeated (n : Nat) (c : Char) : String :=
  String.ofList (List.replicate n c)

def note : String := "here"

/-- The line and the span that an excerpt shows, the span in characters. -/
structure Site where
  first : ScreenLine
  last : ScreenLine
  span : Span

namespace Site

/-- The last character of the span, or its place when it is empty. -/
def lastOffset (s : Site) : Nat :=
  max (s.span.stop - 1) s.span.start

def marginWidth (s : Site) : Nat :=
  (toString (s.last.number + 1)).length

def marks (s : Site) (offset : Nat) : Bool :=
  s.span.start ≤ offset && offset < s.span.stop

def numbered (s : Site) (line : ScreenLine) : Row :=
  let number := toString (line.number + 1)
  [plain " ", ⟨.margin, repeated (s.marginWidth - number.length) ' ' ++ number ++ " │"⟩, plain " "]

def unnumbered (s : Site) (bar : Char) : Row :=
  [plain " ", ⟨.gap, repeated (s.marginWidth + 1) ' ' ++ bar.toString⟩, plain " "]

/-- The text of a line. Blanks at its end are left out, and other blanks become spaces. -/
def lineText (s : Site) (line : ScreenLine) : Row :=
  (Text.trimBlanks line.text).zipIdx.flatMap fun (c, column) ↦
    let paint := if s.marks (line.start + column) then .finding else .source
    if Text.isBlank c then Stroke.spread (Text.cells column c) paint ' ' ' '
    else [⟨paint, c.toString⟩]

/-- Draws below a line: one stroke in each of the first columns, as wide as the character above. -/
def below (line : ScreenLine) (columns : Nat) (draw : Nat → Paint × Char × Char) : Row :=
  let text := Text.trimBlanks line.text
  (List.range columns).flatMap fun column ↦
    let width := match text[column]? with
      | some c => Text.cells column c
      | none => 1
    let (paint, head, tail) := draw column
    Stroke.spread width paint head tail

/-- Room for the arrow after the last column that is marked. -/
def arrowRoom : Nat := 2

/-- The rows of a span on one line: the line, the span underlined, and an arrow from its middle to
the note. -/
def inlineRows (s : Site) : List Row :=
  let line := s.first
  let middle := (s.span.start + s.span.stop) / 2 - line.start
  let columns := s.span.stop - line.start + arrowRoom
  let underline (column : Nat) : Paint × Char × Char :=
    let marked := s.marks (line.start + column)
    if column = middle then if marked then (.finding, '┬', '─') else (.finding, '│', ' ')
    else if marked then (.finding, '─', '─')
    else (.plain, ' ', ' ')
  let arrow (column : Nat) : Paint × Char × Char :=
    if column = middle then (.finding, '╰', '─')
    else if middle < column then (.finding, '─', '─')
    else (.plain, ' ', ' ')
  [s.numbered line ++ s.lineText line,
    s.unnumbered '│' ++ below line columns underline,
    s.unnumbered '│' ++ below line columns arrow ++ [plain (" " ++ note)]]

def closingRows (s : Site) (line : ScreenLine) : List Row :=
  let columns := line.text.length + arrowRoom
  let blank (_ : Nat) : Paint × Char × Char := (.plain, ' ', ' ')
  let bar (_ : Nat) : Paint × Char × Char := (.finding, '─', '─')
  [s.numbered line ++ [finding '├', finding '─', finding '▶', finding ' '] ++ s.lineText line,
    s.unnumbered '│' ++ [finding '│', plain " ", plain " ", plain " "] ++ below line columns blank,
    s.unnumbered '│' ++ [finding '╰', finding '─', finding '─', finding '─'] ++
      below line columns bar ++ [plain (" " ++ note)]]

/-- The rows of a span over several lines: its first line and its last, and a gap for those in
between. A last line on which the span does not end is part of the gap. -/
def blockRows (s : Site) : List Row :=
  let closed := s.last.covers s.lastOffset
  let between := s.last.number - s.first.number - if closed then 1 else 0
  let opening := s.numbered s.first ++ [finding '╭', finding '─', finding '▶', finding ' '] ++
    s.lineText s.first
  let gap := s.unnumbered '┆' ++ [finding '┆', plain " ", plain " ", plain " "]
  opening :: (if 0 < between then [gap] else []) ++ if closed then s.closingRows s.last else []

def rows (s : Site) : List Row :=
  if s.first.number ≠ s.last.number then s.blockRows
  else if s.span.stop ≤ s.first.stop then s.inlineRows
  else [s.unnumbered '│']

def place (s : Site) (file : String) : String :=
  file ++ ":" ++ toString (s.first.number + 1) ++ ":" ++
    toString (s.span.start - s.first.start + 1)

def framed (s : Site) (file : String) : List Row :=
  let indent := plain (repeated (s.marginWidth + 2) ' ')
  [[indent, ⟨.margin, "╭"⟩, ⟨.margin, "─"⟩, ⟨.margin, "["⟩, plain (s.place file), ⟨.margin, "]"⟩],
    [indent, ⟨.margin, "│"⟩]] ++ s.rows ++
    [[⟨.margin, repeated (s.marginWidth + 2) '─' ++ "╯"⟩]]

end Site

/-- Where a span lies in a text, if it begins and ends there. -/
def site? (text : List Char) (span : Span) : Option Site := do
  let first ← screenLineAt? text span.start
  let last ← if span.stop ≤ span.start then some first else screenLineAt? text (span.stop - 1)
  return { first, last, span }

end Excerpt

namespace Diagnostic

def excerptRows (file : String) (source : List Char) (d : Diagnostic) : List Row :=
  let heading := "[" ++ d.kind.id ++ "] " ++ d.severity.title ++ ":"
  let site? := d.position.span.bind (Excerpt.site? source)
  [⟨.finding, heading⟩, Excerpt.plain (" " ++ d.message)] ::
    site?.elim [] fun site ↦ site.framed file

def excerpt (file : String) (source : List Char) (colored : Bool) (d : Diagnostic) : String :=
  let write (s : Stroke) : String := if colored then s.colored d.severity else s.text
  String.join <| (d.excerptRows file source).map fun row ↦ String.join (row.map write) ++ "\n"

end Diagnostic

end MasCheck
