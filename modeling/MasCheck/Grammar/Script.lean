import MasCheck.Grammar.Statement
import MasCheck.Token.Layout
import MasCheck.Tree.Script

/-!
# The grammar of test scripts

```text
masTest {
  mas = "elevator.mas".
  timeout = 30.
  manager { do main. eventually bel(done), not(goal(serve(_))). never percept(crash). }
}
```

A condition is a statement with recovery of its own. A test that breaks elsewhere is skipped until
another test can begin.
-/

namespace MasCheck.Grammar

open MasCheck.Parser

def masRef : Parser (Located String) :=
  rule .masRef do
    keyword .mas
    sign .equals
    let path ← located quotedText
    dot
    return path

def timeout : Parser (Located String) :=
  rule .timeout do
    keyword .timeout
    sign .equals
    let seconds ← number
    dot
    return seconds

/-- Tokens of terms beside parentheses: all but those that structure a script. -/
def isPlainTermToken : Token → Bool
  | .sign .leftParen => false
  | .sign .rightParen => false
  | .sign .dot => false
  | .sign .leftBrace => false
  | .sign .rightBrace => false
  | _ => true

/-- A token, or in parentheses what is read by `inner`. -/
def termItemAround (inner : Parser (List Token)) : Parser (List Token) :=
  Parser.or
    (do
      sign .leftParen
      let items ← many inner
      sign .rightParen
      return .sign .leftParen :: items.flatten ++ [.sign .rightParen])
    (do
      let t ← tokenWhere isPlainTermToken
      return [t])

/-- A token, or tokens in parentheses with at most `depth - 1` levels of them. -/
def termItemWithin : Nat → Parser (List Token)
  | 0 => select fun _ ↦ none
  | depth + 1 => termItemAround (termItemWithin depth)

def termItem : Parser (List Token) := fun c n ↦
  termItemWithin (c.rest.length + 1) c n

/-- A term: any tokens with balanced parentheses. -/
def term : Parser (Located String) :=
  named .term <| located do
    let items ← many₁ termItem
    return Token.layout items.flatten

def mentalAtom : Parser (MentalOperator × Located String) :=
  rule .mentalAtom do
    let operator ← select fun
      | .keyword .bel => some MentalOperator.bel
      | .keyword .goal => some .goal
      | .sign .aGoal => some .aGoal
      | .sign .goalA => some .goalA
      | .keyword .percept => some .percept
      | _ => none
    let t ← between .leftParen .rightParen term
    return (operator, t)

def mentalLiteral : Parser (Located MentalLiteral) :=
  rule .mentalLiteral <| located <|
    Parser.or
      (do
        keyword .not
        let atom ← between .leftParen .rightParen mentalAtom
        return { negated := true, operator := atom.1, term := atom.2 })
      (do
        let atom ← mentalAtom
        return { negated := false, operator := atom.1, term := atom.2 })

def mentalCondition : Parser (List (Located MentalLiteral)) :=
  rule .msc (separated₁ mentalLiteral)

def testCondition : Parser (Located TestCondition) :=
  rule .testCondition <| located do
    let operator ← select fun
      | .keyword .atStart => some TemporalOperator.atStart
      | .keyword .eventually => some .eventually
      | .keyword .always => some .always
      | .keyword .never => some .never
      | .keyword .atEnd => some .atEnd
      | _ => none
    let literals ← mentalCondition
    dot
    return { operator, literals }

def moduleRef : Parser (Located String) :=
  rule .moduleRef do
    keyword .doing
    let name ← located identifier
    dot
    return name

def agentTest : Parser (Located AgentTest) :=
  rule .agentTest <| located do
    let agent ← located identifier
    sign .leftBrace
    let module ← optional moduleRef
    let conditions ← many (statement testCondition)
    sign .rightBrace
    return { agent, module, conditions := conditions.filterMap id }

/-- A test, after input that opens none. -/
def anyTest : Parser (Located AgentTest) :=
  resumeBefore (sign .rightBrace) agentTest

def testScript : Parser TestScript :=
  rule .testScript do
    keyword .masTest
    sign .leftBrace
    let mas ← masRef
    let seconds ← optional timeout
    let tests ← many anyTest
    sign .rightBrace
    endOfInput
    return { mas, timeout := seconds, tests }

end MasCheck.Grammar
