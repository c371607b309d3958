import MasCheck.Grammar.Rule
import MasCheck.Token.Basic

/-!
# Phrases

How tokens and rules are called in messages. Every terminal and every rule has a phrase; where no
better one is known, it is the name in the grammar.
-/

namespace MasCheck

def endOfFilePhrase : String :=
  "end of file"

def Terminal.phrase : Terminal → String
  | identifier => "identifier"
  | integer => "integer"
  | decimal => "floating point"
  | quoted .double => "double-quoted string"
  | quoted .single => "single-quoted string"
  | operator => "operator"
  | unclosed .double => "unterminated double-quoted string"
  | unclosed .single => "unterminated single-quoted string"
  | stray => "unrecognized input"
  | endOfFile => endOfFilePhrase
  | t => t.symbol

def Token.phrase (t : Token) : String :=
  match t with
  | identifier text => t.terminal.phrase ++ " '" ++ text ++ "'"
  | operator text => t.terminal.phrase ++ " '" ++ text ++ "'"
  | stray text => t.terminal.phrase ++ " '" ++ text ++ "'"
  | integer text => t.terminal.phrase ++ " " ++ text
  | decimal text => t.terminal.phrase ++ " " ++ text
  | quoted q text => t.terminal.phrase ++ " " ++ q.char.toString ++ text ++ q.char.toString
  | unclosed q text => t.terminal.phrase ++ " " ++ q.char.toString ++ text ++ q.char.toString
  | _ => t.terminal.phrase

def foundPhrase : Option Token → String
  | some t => t.phrase
  | none => endOfFilePhrase

def Rule.phrase : Rule → String
  | masFile => "a MAS file"
  | environment => "the environment section"
  | envRef => "the environment reference"
  | initialization => "the environment initialization"
  | initKeyValue => "an initialization parameter"
  | initExpr => "an initialization value"
  | agentFiles => "the agent files section"
  | agentFile => "an agent file declaration"
  | agentFileParameter => "an agent file parameter"
  | launchPolicy => "the launch policy"
  | launchRule => "a launch rule"
  | launch => "a launch instruction"
  | launchRuleComponent => "an agent to launch"
  | entity => "an environment entity"
  | constraint => "an entity constraint"
  | agentRef => "an agent file reference"
  | testScript => "a test file"
  | masRef => "the MAS reference"
  | timeout => "the timeout"
  | agentTest => "an agent test"
  | moduleRef => "a module reference"
  | testCondition => "a test condition"
  | msc => "a mental state condition"
  | mentalLiteral => "a mental literal"
  | mentalAtom => "a mental atom"
  | term => "term"

/-- The phrase for a label: that of the rule it names, or the label itself. -/
def labelPhrase (label : String) : String :=
  match Rule.ofName? label with
  | some r => r.phrase
  | none => label

/-- Alternatives in a row, with commas between them and `or` before the last. -/
def joinAlternatives : List String → String
  | [] => ""
  | [only] => only
  | first :: second :: rest =>
    ", ".intercalate (first :: (second :: rest).dropLast) ++ " or " ++
      (second :: rest).getLast (List.cons_ne_nil _ _)

end MasCheck
