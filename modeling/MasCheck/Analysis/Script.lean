import MasCheck.Analysis.Mas
import MasCheck.Tree.Script

/-!
# Analysis of test scripts

A script is checked against the analysis of the MAS file that it names, if there is one. When that
file may launch agents after entities, any tested agent may turn out to run, and tested agents are
not compared with the file.
-/

namespace MasCheck

structure ScriptAnalysis where
  table : SymbolTable
  diagnostics : List Diagnostic

namespace Inquiry

def masPathFindings (q : Inquiry) (path : Located String) : List Diagnostic :=
  if q.lacks path.node then [q.finding .masMissing [path.node] path.span] else []

def timeoutFindings (q : Inquiry) : Option (Located String) → List Diagnostic
  | none => []
  | some timeout =>
    if Text.isPositiveCount timeout.node then []
    else [q.finding .timeoutInvalid [timeout.node] timeout.span]

/-- The agents of a MAS file are declared at its front. -/
def agentSymbol (file name : String) : Symbol :=
  { category := .agent, name, position := .fileStart file, resource := none }

def testSymbol (q : Inquiry) (t : Located AgentTest) : Symbol :=
  { category := .agentTest, name := t.node.agent.node,
    position := q.map.position t.node.agent.span, resource := none }

def testUse (q : Inquiry) (script : TestScript) (t : Located AgentTest) : Use :=
  { category := .agent, target := .name t.node.agent.node,
    position := q.map.position t.node.agent.span, context := script.mas.node }

def agentTable (q : Inquiry) (mas : Option MasAnalysis) : SymbolTable :=
  (SymbolTable.empty q.map.file).declareAll id <|
    mas.elim [] fun a ↦ a.agentNames.map (agentSymbol a.file)

def analyzeScript (q : Inquiry) (mas : Option MasAnalysis) (script : TestScript) :
    ScriptAnalysis :=
  let checked := mas.filter fun a ↦ !a.hasWildcard
  let agents := q.agentTable checked
  let uses := if checked.isSome then script.tests.map (q.testUse script) else []
  let table := (agents.declareAll q.testSymbol script.tests).referAll uses
  { table
    diagnostics := q.masPathFindings script.mas ++ q.timeoutFindings script.timeout ++
      agents.declarationFindings q.testSymbol (fun _ ↦ []) script.tests ++ table.findings }

end Inquiry

end MasCheck
