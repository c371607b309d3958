import MasCheck.Proofs.Grammar.StrictMas
import MasCheck.Token.Layout
import MasCheck.Tree.Script

/-!
# The strict grammar of test scripts

```text
testScript = 'masTest' '{' 'mas' '=' STRING '.' [ 'timeout' '=' [ '-' ] ( INT | FLOAT ) '.' ]
             { test } '}'
test       = ID '{' [ 'do' ID '.' ] { condition } '}'
condition  = operator literal { ',' literal } '.'
literal    = 'not' '(' atom ')' | atom
atom       = ( 'bel' | 'goal' | 'a-goal' | 'goal-a' | 'percept' ) '(' term ')'
```

A term is any nonempty list of tokens with balanced parentheses that holds no dot and no brace.
-/

namespace MasCheck.Strict

open Production

def masRef : Production (Located String) := do
  keyword .mas
  sign .equals
  let path ← located quotedText
  sign .dot
  return path

def timeout : Production (Located String) := do
  keyword .timeout
  sign .equals
  let seconds ← number
  sign .dot
  return seconds

/-- No front part closes more parentheses than it opens, and in all as many are closed as are
opened. -/
structure Balanced (ts : List Token) : Prop where
  front : ∀ us, us <+: ts → us.count (.sign .rightParen) ≤ us.count (.sign .leftParen)
  whole : ts.count (.sign .rightParen) = ts.count (.sign .leftParen)

/-- What may stand inside parentheses of a term. -/
structure IsTermBody (ts : List Token) : Prop where
  balanced : Balanced ts
  noDot : .sign .dot ∉ ts
  noLeftBrace : .sign .leftBrace ∉ ts
  noRightBrace : .sign .rightBrace ∉ ts

structure IsTerm (ts : List Token) : Prop extends IsTermBody ts where
  nonempty : ts ≠ []

/-- A term is kept as the text of its tokens, written side by side. -/
def term : Production (Located String) :=
  located fun ts text ↦ IsTerm (ts.map Lexeme.token) ∧ text = Token.layout (ts.map Lexeme.token)

def mentalAtom : Production (MentalOperator × Located String) := do
  let operator ← token fun
    | .keyword .bel => some .bel
    | .keyword .goal => some .goal
    | .sign .aGoal => some .aGoal
    | .sign .goalA => some .goalA
    | .keyword .percept => some .percept
    | _ => none
  let t ← between .leftParen .rightParen term
  return (operator, t)

def negatedLiteral : Production MentalLiteral := do
  keyword .not
  let atom ← between .leftParen .rightParen mentalAtom
  return { negated := true, operator := atom.1, term := atom.2 }

def mentalLiteral : Production (Located MentalLiteral) :=
  located <| negatedLiteral.or <|
    mentalAtom.map fun atom ↦ { negated := false, operator := atom.1, term := atom.2 }

def testCondition : Production (Located TestCondition) :=
  located do
    let operator ← token fun
      | .keyword .atStart => some .atStart
      | .keyword .eventually => some .eventually
      | .keyword .always => some .always
      | .keyword .never => some .never
      | .keyword .atEnd => some .atEnd
      | _ => none
    let literals ← separated₁ mentalLiteral
    sign .dot
    return { operator, literals }

def moduleRef : Production (Located String) := do
  keyword .doing
  let name ← located identifier
  sign .dot
  return name

def agentTest : Production (Located AgentTest) :=
  located do
    let agent ← located identifier
    sign .leftBrace
    let module ← optional moduleRef
    let conditions ← many testCondition
    sign .rightBrace
    return { agent, module, conditions }

def testScript : Production TestScript := do
  keyword .masTest
  sign .leftBrace
  let mas ← masRef
  let seconds ← optional timeout
  let tests ← many agentTest
  sign .rightBrace
  return { mas, timeout := seconds, tests }

theorem derives_masRefAt (path : String) (a b c d e : Nat) :
    masRef [⟨.keyword .mas, ⟨a, b⟩⟩, ⟨.sign .equals, ⟨b, c⟩⟩,
      ⟨.quoted .double path, ⟨c, d⟩⟩, ⟨.sign .dot, ⟨d, e⟩⟩] ⟨path, ⟨c, d⟩⟩ := by
  have hpath : quotedText.located [⟨.quoted .double path, ⟨c, d⟩⟩] ⟨path, ⟨c, d⟩⟩ :=
    ⟨⟨_, rfl, rfl⟩, rfl⟩
  refine ⟨[_], _, (), rfl, ⟨_, rfl⟩, sign_bind_iff.2 ⟨_, _, rfl, ?_⟩⟩
  exact ⟨[_], [_], _, rfl, hpath, sign_bind_iff.2 ⟨_, _, rfl, rfl, rfl⟩⟩

end MasCheck.Strict
