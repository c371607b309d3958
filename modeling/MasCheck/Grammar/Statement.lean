import MasCheck.Grammar.Recovery

/-!
# Common parts of the two grammars

Names, texts and values, and the statement: a part of a block that ends with a dot. A broken
statement does not break its block. It is tried again after each of its tokens and skipped if
that does not help.
-/

namespace MasCheck.Grammar

open MasCheck.Parser

variable {α : Type}

def identifier : Parser String :=
  labelled .identifier <| select fun
    | .identifier text => some text
    | _ => none

def quotedText : Parser String :=
  labelled .string <| select fun
    | .quoted _ text => some text
    | _ => none

def number : Parser (Located String) :=
  labelled .number <| located do
    let minus ← optional (exactly (.operator "-"))
    let digits ← select fun
      | .integer text => some text
      | .decimal text => some text
      | _ => none
    return if minus.isSome then "-" ++ digits else digits

/-- A name of a parameter; reserved words are allowed. -/
def key : Parser (Located String) :=
  labelled .parameterName <| located <| select fun
    | .identifier text => some text
    | .keyword word => some word.text
    | _ => none

def value : Parser (Located String) :=
  key.or ((located quotedText).or number)

def dot : Parser Unit :=
  sign .dot

/-- Where a statement ends: at its dot, or at the end of the block. -/
def statementEnd : Parser Unit :=
  (sign .dot).or (sign .rightBrace)

/-- Skips a broken statement with its dot, or up to the end of the block if it has none. There
must be something to skip. -/
def skipStatement : Parser Unit :=
  Parser.or
    (do
      let _ ← many (tokenBefore statementEnd)
      dot)
    (do
      let _ ← many₁ (tokenBefore statementEnd))

/-- A statement of a block, or nothing in the place of a broken one. -/
def statement (p : Parser α) : Parser (Option α) :=
  recoverBy (do skipStatement; return none) <| resumeBefore statementEnd <| do
    let x ← p
    return some x

end MasCheck.Grammar
