import MasCheck.Token.Basic

/-!
# Writing tokens side by side

A list of tokens is written on one line. A space stands between two words and around operators;
everything else is written without one.
-/

namespace MasCheck.Token

/-- Identifiers, numbers and reserved words. -/
def isWord : Token → Bool
  | identifier _ => true
  | integer _ => true
  | decimal _ => true
  | keyword _ => true
  | _ => false

def isOperator : Token → Bool
  | operator _ => true
  | _ => false

/-- A space belongs between the two tokens. -/
def spaced (left right : Token) : Bool :=
  (left.isWord && right.isWord) || left.isOperator || right.isOperator

/-- What is written after the token `left`. -/
def layoutAfter (left : Token) : List Token → String
  | [] => ""
  | t :: ts => (if spaced left t then " " else "") ++ t.written ++ layoutAfter t ts

def layout : List Token → String
  | [] => ""
  | t :: ts => t.written ++ layoutAfter t ts

end MasCheck.Token
