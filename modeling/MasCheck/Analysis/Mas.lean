import MasCheck.Analysis.Options
import MasCheck.Resource.Probe
import MasCheck.Symbol.Graph
import MasCheck.Text.Number

/-!
# Analysis of MAS files

The environment and the agent files are checked and declared first, so that launch rules may stand
before the agent files that they launch. Then the rules are checked, and last the uses of agent
files are compared with the declarations.
-/

namespace MasCheck

/-- What an analysis may ask: where things stand in the source, what the files are like, and what
its user wants to know. -/
structure Inquiry where
  map : SourceMap
  probe : Probe
  options : Options

structure MasAnalysis where
  file : String
  table : SymbolTable
  diagnostics : List Diagnostic
  /-- Some rule launches agents that are named after entities. -/
  hasWildcard : Bool
  /-- The names that launch rules give to agents, each once. -/
  launched : List String

namespace MasAnalysis

/-- The names of declared agent files, and then the names given by launch rules. -/
def agentNames (a : MasAnalysis) : List String :=
  (a.table.declared .agentFile).map Symbol.name ++ a.launched

def canLaunch (a : MasAnalysis) (agent : String) : Bool :=
  a.hasWildcard || a.agentNames.contains agent

end MasAnalysis

def agentFileParameters : List String :=
  ["name", "language"]

namespace Inquiry

def finding (q : Inquiry) (kind : Kind) (args : List String) (span : Span) : Diagnostic :=
  q.map.diagnostic kind args span

/-- A file that the check asks for and that is not there. -/
def lacks (q : Inquiry) (path : String) : Bool :=
  q.options.checkResources && !q.probe.isPresent path

/-! ## The environment -/

/-- The environment must be there, must be named as an archive, and must be one. -/
def archiveFindings (q : Inquiry) (path : Located String) : List Diagnostic :=
  let extension := q.options.environmentExtension
  if q.lacks path.node then [q.finding .environmentMissing [path.node] path.span]
  else if !Text.hasExtension path.node extension then
    [q.finding .environmentNotArchive [path.node, "expected a ." ++ extension ++ " file"] path.span]
  else if q.options.checkResources then
    match q.probe.isArchive path.node with
    | .ok true => []
    | .ok false =>
      [q.finding .environmentNotArchive [path.node, "it has no zip signature"] path.span]
    | .error e => [q.finding .resourceUnreadable [path.node, e.message] path.span]
  else []

def initSymbol (q : Inquiry) (entry : Located InitEntry) : Symbol :=
  { category := .initKey, name := entry.node.key.node,
    position := q.map.position entry.node.key.span, resource := none }

/-- Environments after the first point back to it. -/
def extraFindings (q : Inquiry) (first : Span) (extra : List Span) : List Diagnostic :=
  extra.map fun span ↦ q.finding .environmentRepeated [(q.map.position first).text] span

def initEntries (mas : MasFile) : List (Located InitEntry) :=
  mas.environment.elim [] fun e ↦ e.node.init

def environmentFindings (q : Inquiry) (table : SymbolTable) (mas : MasFile) : List Diagnostic :=
  match mas.environment with
  | none => []
  | some environment =>
    q.archiveFindings environment.node.archive ++
      table.declarationFindings q.initSymbol (fun _ ↦ []) environment.node.init ++
      q.extraFindings environment.span mas.extraEnvironments

/-! ## Agent files -/

def agentPathFindings (q : Inquiry) (path : Located String) : List Diagnostic :=
  let extension := q.options.agentExtension
  if !Text.hasExtension path.node extension then
    [q.finding .agentFileExtension [path.node, extension] path.span]
  else if q.lacks path.node then [q.finding .agentFileMissing [path.node] path.span]
  else []

/-- Unknown parameters, and known ones that are given again. `seen` are the known parameters given
so far. -/
def parameterFindings (q : Inquiry) (path : String) (seen : List String) :
    List (Located Parameter) → List Diagnostic
  | [] => []
  | p :: ps =>
    let key := p.node.key
    if key.node ∉ agentFileParameters then
      q.finding .agentFileParameterUnknown
          [key.node, String.intercalate ", " agentFileParameters] key.span ::
        q.parameterFindings path seen ps
    else if key.node ∈ seen then
      q.finding .agentFileParameterRepeated [key.node, path] key.span ::
        q.parameterFindings path seen ps
    else q.parameterFindings path (key.node :: seen) ps

def agentFileFindings (q : Inquiry) (f : Located AgentFile) : List Diagnostic :=
  q.agentPathFindings f.node.path ++
    q.parameterFindings f.node.path.node [] f.node.parameters

def agentFileSymbol (q : Inquiry) (f : Located AgentFile) : Symbol :=
  let name := f.node.referenceName
  { category := .agentFile, name := name.node, position := q.map.position name.span,
    resource := some f.node.path.node }

/-! ## Launch rules -/

/-- Constraints of a kind given before, and a first maximum that is no count. `seen` are the kinds
given so far. -/
def constraintFindings (q : Inquiry) (seen : List ConstraintWord) :
    List (Located Constraint) → List Diagnostic
  | [] => []
  | c :: cs =>
    let word := c.node.word
    let value := c.node.value
    if word ∈ seen then
      q.finding .constraintRepeated [word.text] c.span :: q.constraintFindings seen cs
    else if word = .max ∧ !Text.isPositiveCount value.node then
      q.finding .constraintNumberInvalid [value.node] value.span ::
        q.constraintFindings (word :: seen) cs
    else q.constraintFindings (word :: seen) cs

def conditionFindings (q : Inquiry) (hasEnvironment : Bool) (rule : Located LaunchRule) :
    List Diagnostic :=
  match rule.node.condition with
  | none => []
  | some condition =>
    (if hasEnvironment then [] else [q.finding .conditionWithoutEnvironment [] rule.span]) ++
      match condition.node with
      | .constraints items => q.constraintFindings [] items
      | _ => []

def componentFindings (q : Inquiry) (conditional : Bool) (c : LaunchComponent) :
    List Diagnostic :=
  (if c.name.node = .wildcard ∧ !conditional then
    [q.finding .wildcardUnconditional [c.target.node.text] c.name.span] else []) ++
  match c.number with
  | some number =>
    if Text.isPositiveCount number.node then []
    else [q.finding .launchNumberInvalid [number.node] number.span]
  | none => []

def ruleFindings (q : Inquiry) (hasEnvironment : Bool) (rule : Located LaunchRule) :
    List Diagnostic :=
  q.conditionFindings hasEnvironment rule ++
    rule.node.components.flatMap fun c ↦ q.componentFindings rule.node.isConditional c.node

def policyFindings (q : Inquiry) (mas : MasFile) : List Diagnostic :=
  match mas.launchPolicy with
  | none => [.of .launchPolicyEmpty [] (.fileStart q.map.file)]
  | some policy =>
    if policy.node.rules = [] then [q.finding .launchPolicyEmpty [] policy.span]
    else policy.node.rules.flatMap (q.ruleFindings mas.environment.isSome)

/-- Where a launch instruction stands, in words. -/
def launchContext : LaunchName → String
  | .wildcard => "the wildcard launch rule"
  | .named name => "the launch rule for agent '" ++ name ++ "'"

def launchUse (q : Inquiry) (c : LaunchComponent) : Use :=
  { category := .agentFile, target := c.target.node, position := q.map.position c.target.span,
    context := launchContext c.name.node }

end Inquiry

namespace MasFile

def components (mas : MasFile) : List LaunchComponent :=
  (mas.launchPolicy.elim [] fun p ↦ p.node.rules).flatMap fun rule ↦
    rule.node.components.map Located.node

def hasWildcard (mas : MasFile) : Bool :=
  mas.components.any fun c ↦ c.name.node = .wildcard

/-- The names that launch rules give, each once, in the order of first mention. -/
def launched (mas : MasFile) : List String :=
  (mas.components.filterMap fun c ↦ match c.name.node with
    | .named name => some name
    | .wildcard => none).eraseDups

end MasFile

namespace Inquiry

def masTable (q : Inquiry) (mas : MasFile) : SymbolTable :=
  let table := { SymbolTable.empty q.map.file with reportUnused := q.options.reportUnused }
  ((table.declareAll q.initSymbol (initEntries mas)).declareAll q.agentFileSymbol
    mas.agentFiles).referAll (mas.components.map q.launchUse)

def analyzeMas (q : Inquiry) (mas : MasFile) : MasAnalysis :=
  let table := { SymbolTable.empty q.map.file with reportUnused := q.options.reportUnused }
  let withInit := table.declareAll q.initSymbol (initEntries mas)
  let complete := q.masTable mas
  { file := q.map.file
    table := complete
    diagnostics := q.environmentFindings table mas ++
      withInit.declarationFindings q.agentFileSymbol q.agentFileFindings mas.agentFiles ++
      q.policyFindings mas ++ complete.findings
    hasWildcard := mas.hasWildcard
    launched := mas.launched }

end Inquiry

end MasCheck
