/-!
# Grammar rules

The named rules of the two grammars: those of MAS files first, those of test scripts after them.
-/

namespace MasCheck

inductive Rule
  | masFile
  | environment
  | envRef
  | initialization
  | initKeyValue
  | initExpr
  | agentFiles
  | agentFile
  | agentFileParameter
  | launchPolicy
  | launchRule
  | launch
  | launchRuleComponent
  | entity
  | constraint
  | agentRef
  | testScript
  | masRef
  | timeout
  | agentTest
  | moduleRef
  | testCondition
  | msc
  | mentalLiteral
  | mentalAtom
  | term
  deriving DecidableEq, Repr

namespace Rule

def all : List Rule :=
  [masFile, environment, envRef, initialization, initKeyValue, initExpr, agentFiles, agentFile,
    agentFileParameter, launchPolicy, launchRule, launch, launchRuleComponent, entity, constraint,
    agentRef, testScript, masRef, timeout, agentTest, moduleRef, testCondition, msc, mentalLiteral,
    mentalAtom, term]

def name : Rule → String
  | masFile => "masFile"
  | environment => "environment"
  | envRef => "envRef"
  | initialization => "initialization"
  | initKeyValue => "initKeyValue"
  | initExpr => "initExpr"
  | agentFiles => "agentFiles"
  | agentFile => "agentFile"
  | agentFileParameter => "agentFileParameter"
  | launchPolicy => "launchPolicy"
  | launchRule => "launchRule"
  | launch => "launch"
  | launchRuleComponent => "launchRuleComponent"
  | entity => "entity"
  | constraint => "constraint"
  | agentRef => "agentRef"
  | testScript => "test2g"
  | masRef => "masRef"
  | timeout => "timeout"
  | agentTest => "agentTest"
  | moduleRef => "moduleRef"
  | testCondition => "testCondition"
  | msc => "msc"
  | mentalLiteral => "mentalLiteral"
  | mentalAtom => "mentalAtom"
  | term => "term"

def ofName? (name : String) : Option Rule :=
  all.find? fun r ↦ r.name = name

theorem mem_all (r : Rule) : r ∈ all := by
  cases r <;> decide

end Rule

end MasCheck
