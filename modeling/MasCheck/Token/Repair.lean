import MasCheck.Token.Lexer

/-!
# Repairing tokens

The parser sees no faulty token. A quoted text that was left open is closed, and a run of stray
characters that touch each other is left out. Both are reported: an open text by a finding with
its text and by a mark that it was closed, a stray run by one finding with the whole run.

`pieces` sorts the tokens of a source into what is passed on, closed and left out. `firstPieces`
takes the pieces up to a given number of passed tokens, and no further; this is what a reader that
pulls so many tokens has come across.
-/

namespace MasCheck

/-- What the repair of a source reports. -/
inductive RepairEvent
  | unclosed (quote : Quote) (text : String) (span : Span)
  | closed (quote : Quote) (span : Span)
  | stray (text : String) (span : Span)
  deriving DecidableEq, Repr

/-- A token that is passed on, a quoted text that is closed first, or stray characters. -/
inductive Piece
  | sound (lexeme : Lexeme)
  | closed (quote : Quote) (text : String) (span : Span)
  | stray (text : String) (span : Span)
  deriving DecidableEq, Repr

namespace Piece

def lexeme? : Piece → Option Lexeme
  | sound l => some l
  | closed q text span => some ⟨.quoted q text, span⟩
  | stray _ _ => none

def events : Piece → List RepairEvent
  | sound _ => []
  | closed q text span => [.unclosed q text span, .closed q span]
  | stray text span => [.stray text span]

/-- Puts a stray character in front of pieces, joining it to a stray run that it touches. -/
def consStray (text : String) (span : Span) : List Piece → List Piece
  | stray more run :: ps =>
    if run.start = span.stop then stray (text ++ more) ⟨span.start, run.stop⟩ :: ps
    else stray text span :: stray more run :: ps
  | ps => stray text span :: ps

end Piece

def pieces : List Lexeme → List Piece
  | [] => []
  | l :: ls =>
    match l.token with
    | .unclosed q text => .closed q text l.span :: pieces ls
    | .stray text => Piece.consStray text l.span (pieces ls)
    | _ => .sound l :: pieces ls

/-- The pieces met while `n` tokens are pulled. When there are fewer, all pieces are met. -/
def firstPieces : Nat → List Piece → List Piece
  | 0, _ => []
  | _ + 1, [] => []
  | n + 1, p :: ps => p :: firstPieces (if p.lexeme?.isSome then n else n + 1) ps

/-- The outcome of pulling tokens from a source. -/
structure Repaired where
  tokens : List Lexeme
  events : List RepairEvent
  deriving DecidableEq, Repr

namespace Repaired

def ofPieces (ps : List Piece) : Repaired :=
  { tokens := ps.filterMap Piece.lexeme?, events := ps.flatMap Piece.events }

def ofSource (source : String) : Repaired :=
  ofPieces (pieces (lex source))

/-- The source as far as `n` tokens reach. -/
def first (n : Nat) (source : String) : Repaired :=
  ofPieces (firstPieces n (pieces (lex source)))

def closedCount (r : Repaired) : Nat :=
  r.events.countP fun
    | .closed _ _ => true
    | _ => false

end Repaired

end MasCheck
