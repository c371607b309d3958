import MasCheck.Source.Span

/-!
# Tokens

The tokens of MAS files and of test scripts. Reserved words and signs have one spelling each; the
other tokens carry their text. Two of them stand for faults of the source: a quoted text that is
not closed on its line, and a character that opens no token.

A terminal is a token without its text. Grammars are described in terminals.
-/

namespace MasCheck

inductive Quote
  | double
  | single
  deriving DecidableEq, Repr

inductive Keyword
  | environment
  | env
  | init
  | agentFiles
  | launchPolicy
  | launch
  | when
  | doing
  | name
  | type
  | max
  | number
  | masTest
  | mas
  | timeout
  | atStart
  | eventually
  | always
  | never
  | atEnd
  | bel
  | goal
  | percept
  | not
  deriving DecidableEq, Repr

/-- Signs, and the three words that are written with a sign inside. -/
inductive Sign
  | leftBrace
  | rightBrace
  | leftBracket
  | rightBracket
  | leftParen
  | rightParen
  | comma
  | dot
  | colon
  | equals
  | star
  | atEnv
  | aGoal
  | goalA
  deriving DecidableEq, Repr

inductive Token
  | keyword (word : Keyword)
  | sign (sign : Sign)
  | identifier (text : String)
  | integer (text : String)
  | decimal (text : String)
  | quoted (quote : Quote) (text : String)
  | operator (text : String)
  /-- A quoted text without its closing mark. -/
  | unclosed (quote : Quote) (text : String)
  /-- A character that opens no token. -/
  | stray (text : String)
  deriving DecidableEq, Repr

inductive Terminal
  | keyword (word : Keyword)
  | sign (sign : Sign)
  | identifier
  | integer
  | decimal
  | quoted (quote : Quote)
  | operator
  | unclosed (quote : Quote)
  | stray
  | endOfFile
  deriving DecidableEq, Repr

structure Lexeme where
  token : Token
  span : Span
  deriving DecidableEq, Repr

namespace Quote

def all : List Quote :=
  [double, single]

def char : Quote → Char
  | double => '"'
  | single => '\''

end Quote

namespace Keyword

def all : List Keyword :=
  [environment, env, init, agentFiles, launchPolicy, launch, when, doing, name, type, max, number,
    masTest, mas, timeout, atStart, eventually, always, never, atEnd, bel, goal, percept, not]

def text : Keyword → String
  | environment => "environment"
  | env => "env"
  | init => "init"
  | agentFiles => "agentfiles"
  | launchPolicy => "launchpolicy"
  | launch => "launch"
  | when => "when"
  | doing => "do"
  | name => "name"
  | type => "type"
  | max => "max"
  | number => "number"
  | masTest => "masTest"
  | mas => "mas"
  | timeout => "timeout"
  | atStart => "atstart"
  | eventually => "eventually"
  | always => "always"
  | never => "never"
  | atEnd => "atend"
  | bel => "bel"
  | goal => "goal"
  | percept => "percept"
  | not => "not"

def ofText? (text : String) : Option Keyword :=
  all.find? fun word ↦ word.text = text

theorem mem_all (word : Keyword) : word ∈ all := by
  cases word <;> decide

end Keyword

namespace Sign

def text : Sign → String
  | leftBrace => "\x7b"
  | rightBrace => "\x7d"
  | leftBracket => "["
  | rightBracket => "]"
  | leftParen => "("
  | rightParen => ")"
  | comma => ","
  | dot => "."
  | colon => ":"
  | equals => "="
  | star => "*"
  | atEnv => "@env"
  | aGoal => "a-goal"
  | goalA => "goal-a"

end Sign

namespace Terminal

/-- The name of a terminal in a grammar: its spelling between single quotes when it has only one,
and a word in capitals otherwise. -/
def symbol : Terminal → String
  | keyword word => "'" ++ word.text ++ "'"
  | sign s => "'" ++ s.text ++ "'"
  | identifier => "ID"
  | integer => "INT"
  | decimal => "FLOAT"
  | quoted .double => "DOUBLESTRING"
  | quoted .single => "SINGLESTRING"
  | operator => "OPERATOR"
  | unclosed .double => "UNTERMINATED_DOUBLESTRING"
  | unclosed .single => "UNTERMINATED_SINGLESTRING"
  | stray => "UNKNOWN"
  | endOfFile => "EOF"

def all : List Terminal :=
  [keyword .environment, keyword .env, keyword .init, keyword .agentFiles, keyword .launchPolicy,
    keyword .launch, keyword .when, keyword .doing, keyword .name, keyword .type, keyword .max,
    keyword .number, keyword .masTest, keyword .mas, keyword .timeout, keyword .atStart,
    keyword .eventually, keyword .always, keyword .never, keyword .atEnd, keyword .bel,
    keyword .goal, sign .aGoal, sign .goalA, keyword .percept, keyword .not, identifier, integer,
    decimal, quoted .double, quoted .single, unclosed .double, unclosed .single, stray,
    sign .leftBrace, sign .rightBrace, sign .leftBracket, sign .rightBracket, sign .leftParen,
    sign .rightParen, sign .comma, sign .dot, sign .colon, sign .equals, sign .star, sign .atEnv,
    operator, endOfFile]

end Terminal

namespace Token

def terminal : Token → Terminal
  | keyword word => .keyword word
  | sign s => .sign s
  | identifier _ => .identifier
  | integer _ => .integer
  | decimal _ => .decimal
  | quoted q _ => .quoted q
  | operator _ => .operator
  | unclosed q _ => .unclosed q
  | stray _ => .stray

/-- The text that a token carries beyond its terminal. -/
def text? : Token → Option String
  | keyword _ => none
  | sign _ => none
  | identifier text => some text
  | integer text => some text
  | decimal text => some text
  | quoted _ text => some text
  | operator text => some text
  | unclosed _ text => some text
  | stray text => some text

def written : Token → String
  | keyword word => word.text
  | sign s => s.text
  | identifier text => text
  | integer text => text
  | decimal text => text
  | quoted q text => q.char.toString ++ text ++ q.char.toString
  | operator text => text
  | unclosed q text => q.char.toString ++ text
  | stray text => text

def isKeyword : Token → Bool
  | keyword _ => true
  | _ => false

/-- Tokens that the parser never meets, because they are repaired before. -/
def isFaulty : Token → Bool
  | unclosed _ _ => true
  | stray _ => true
  | _ => false

end Token

end MasCheck
