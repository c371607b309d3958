import MasCheck.Source.Span

/-!
# Trees of test scripts

A test script names the MAS file under test, may bound the time in seconds, and tests agents by
conditions on their mental state.
-/

namespace MasCheck

inductive TemporalOperator
  | atStart
  | eventually
  | always
  | never
  | atEnd
  deriving DecidableEq, Repr

inductive MentalOperator
  | bel
  | goal
  | aGoal
  | goalA
  | percept
  deriving DecidableEq, Repr

structure MentalLiteral where
  negated : Bool
  operator : MentalOperator
  term : Located String
  deriving DecidableEq, Repr

structure TestCondition where
  operator : TemporalOperator
  literals : List (Located MentalLiteral)
  deriving DecidableEq, Repr

structure AgentTest where
  agent : Located String
  module : Option (Located String)
  conditions : List (Located TestCondition)
  deriving DecidableEq, Repr

structure TestScript where
  mas : Located String
  timeout : Option (Located String)
  tests : List (Located AgentTest)
  deriving DecidableEq, Repr

end MasCheck
