import MasCheck.Json.Printer
import MasCheck.Source.Map
import MasCheck.Text.Quoted
import MasCheck.Token.Repair

/-!
# Listing the tokens of a source

A dump lists the tokens that the parser would see, with their places, and what was repaired on the
way. It may be limited to the neighbourhood of a line; the repairs are listed in full.
-/

namespace MasCheck

structure TokenRow where
  line : Nat
  column : Nat
  lexeme : Lexeme
  deriving DecidableEq, Repr

structure TokenDump where
  rows : List TokenRow
  events : List RepairEvent
  deriving DecidableEq, Repr

namespace TokenRow

/-- How far around a line its neighbourhood reaches. -/
def reach : Nat := 5

def isNear (target : Nat) (r : TokenRow) : Bool :=
  target ≤ r.line + reach && r.line ≤ target + reach

def padLeft (width n : Nat) : String :=
  let digits := toString n
  String.ofList (List.replicate (width - digits.length) ' ') ++ digits

def padRight (width n : Nat) : String :=
  let digits := toString n
  digits ++ String.ofList (List.replicate (width - digits.length) ' ')

def text (r : TokenRow) : String :=
  let shown := match r.lexeme.token.text? with
    | some text => " " ++ Text.quoted text
    | none => ""
  "Line " ++ padLeft 4 r.line ++ ":" ++ padRight 3 r.column ++ " " ++
    r.lexeme.token.terminal.symbol ++ shown ++ " @ " ++ toString r.lexeme.span.start ++ ".." ++
    toString r.lexeme.span.stop

def toJson (r : TokenRow) : Json :=
  .object [("line", .natural r.line), ("column", .natural r.column),
    ("kind", .text r.lexeme.token.terminal.symbol),
    ("text", Json.ofOption .text r.lexeme.token.text?), ("start", .natural r.lexeme.span.start),
    ("end", .natural r.lexeme.span.stop)]

end TokenRow

namespace RepairEvent

def quoteName : Quote → String
  | .double => "double"
  | .single => "single"

def spanJson (s : Span) : Json :=
  .object [("start", .natural s.start), ("end", .natural s.stop)]

def toJson : RepairEvent → Json
  | unclosed quote text span => .object [("event", .text "unterminated"),
      ("kind", .text (quoteName quote)), ("text", .text text), ("span", spanJson span)]
  | closed quote span => .object [("event", .text "healed"), ("kind", .text (quoteName quote)),
      ("span", spanJson span)]
  | stray text span => .object [("event", .text "unrecognized"), ("text", .text text),
      ("span", spanJson span)]

/-- A record with its fields between braces. -/
def recordText (name : String) (fields : List (String × String)) : String :=
  name ++ " \x7b " ++ ", ".intercalate (fields.map fun f ↦ f.1 ++ ": " ++ f.2) ++ " \x7d"

def quoteText : Quote → String
  | .double => "Double"
  | .single => "Single"

def spanText (s : Span) : String :=
  toString s.start ++ ".." ++ toString s.stop

def text : RepairEvent → String
  | unclosed quote text span => recordText "Unterminated"
      [("kind", quoteText quote), ("text", Text.quoted text), ("span", spanText span)]
  | closed quote span => recordText "Healed" [("kind", quoteText quote), ("span", spanText span)]
  | stray text span => recordText "Unrecognized"
      [("text", Text.quoted text), ("span", spanText span)]

end RepairEvent

namespace TokenDump

/-- The dump of a source, all of it or what is near a line. -/
def ofSource (source : String) (target : Option Nat) : TokenDump :=
  let map := SourceMap.ofText "" source
  let repaired := Repaired.ofSource source
  let rows := repaired.tokens.map fun l ↦
    let place := map.lineColumn l.span.start
    { line := place.1, column := place.2, lexeme := l : TokenRow }
  { rows := match target with
      | some target => rows.filter (TokenRow.isNear target)
      | none => rows
    events := repaired.events }

def lines (d : TokenDump) : List String :=
  d.rows.map TokenRow.text

def eventLines (d : TokenDump) : List String :=
  d.events.map fun e ↦ "recovery: " ++ e.text

def toJson (d : TokenDump) : Json :=
  .object [("tokens", .list (d.rows.map TokenRow.toJson)),
    ("events", .list (d.events.map RepairEvent.toJson))]

/-- What the command writes: its output, and its remarks beside the output. -/
structure Listing where
  output : String
  remarks : String
  deriving DecidableEq, Repr

def joinLines (lines : List String) : String :=
  String.join (lines.map fun l ↦ l ++ "\n")

def listing (d : TokenDump) (json : Bool) : Listing :=
  if json then { output := joinLines [d.toJson.pretty], remarks := "" }
  else { output := joinLines d.lines, remarks := joinLines d.eventLines }

end TokenDump

end MasCheck
