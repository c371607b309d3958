import MasCheck.Source.Span
import MasCheck.Text.Path

/-!
# Trees of MAS files

A MAS file describes a multi-agent system: the environment, the files that define agents, and the
policy by which agents are launched. The sections may come in any order and more than once. Only
the first environment counts; agent files and launch rules are joined.
-/

namespace MasCheck

/-- A value of an initialization parameter. -/
inductive InitValue
  | identifier (text : String)
  | integer (text : String)
  | decimal (text : String)
  | string (text : String)
  | function (name : String) (args : List InitValue)
  | list (items : List InitValue)
  deriving Repr, Inhabited

structure InitEntry where
  key : Located String
  value : Located InitValue
  deriving Repr

structure Environment where
  archive : Located String
  init : List (Located InitEntry)
  deriving Repr

structure Parameter where
  key : Located String
  value : Located String
  deriving DecidableEq, Repr

structure AgentFile where
  path : Located String
  parameters : List (Located Parameter)
  deriving DecidableEq, Repr

inductive ConstraintWord
  | name
  | type
  | max
  deriving DecidableEq, Repr

structure Constraint where
  word : ConstraintWord
  value : Located String
  deriving DecidableEq, Repr

/-- What a conditional rule waits for in the environment. -/
inductive Entity
  | constraints (items : List (Located Constraint))
  | named (name : String)
  | any
  deriving DecidableEq, Repr

inductive LaunchName
  | named (name : String)
  /-- The agent is named after the entity that it is connected to. -/
  | wildcard
  deriving DecidableEq, Repr

/-- The agent file of a launch instruction, by its name or by its path. -/
inductive Target
  | name (name : String)
  | path (path : String)
  deriving DecidableEq, Repr

structure LaunchComponent where
  name : Located LaunchName
  number : Option (Located String)
  target : Located Target
  deriving DecidableEq, Repr

structure LaunchRule where
  condition : Option (Located Entity)
  components : List (Located LaunchComponent)
  deriving DecidableEq, Repr

structure LaunchPolicy where
  rules : List (Located LaunchRule)
  deriving DecidableEq, Repr

structure MasFile where
  environment : Option (Located Environment)
  /-- The places of the environments after the first. -/
  extraEnvironments : List Span
  agentFiles : List (Located AgentFile)
  launchPolicy : Option (Located LaunchPolicy)
  deriving Repr

namespace ConstraintWord

def all : List ConstraintWord :=
  [name, type, max]

def text : ConstraintWord → String
  | name => "name"
  | type => "type"
  | max => "max"

end ConstraintWord

namespace Target

def text : Target → String
  | name text => text
  | path text => text

end Target

namespace LaunchRule

def isConditional (r : LaunchRule) : Bool :=
  r.condition.isSome

end LaunchRule

namespace AgentFile

def parameter? (f : AgentFile) (key : String) : Option (Located String) :=
  (f.parameters.find? fun p ↦ p.node.key.node = key).map fun p ↦ p.node.value

/-- The name by which an agent file is launched: its parameter `name`, or else the stem of its
path. -/
def referenceName (f : AgentFile) : Located String :=
  match f.parameter? "name" with
  | some name => name
  | none => f.path.map fun path ↦ (Text.Path.ofText path).stem?.getD path

end AgentFile

namespace MasFile

def empty : MasFile :=
  { environment := none, extraEnvironments := [], agentFiles := [], launchPolicy := none }

end MasFile

end MasCheck
