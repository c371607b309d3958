import MasCheck.Json.Basic
import MasCheck.Tree.Mas
import MasCheck.Tree.Script

/-!
# Trees as JSON

A record is written as an object of its fields, a choice as an object of its tag and its content.
Optional fields are written as null and may be missing when read; extra environments are written
only when there are some. Reading is more liberal than writing: a record may also be given as the
list of its fields, fields that are not known are passed over, and a tag may stand as the only
field of an object. Spans alone accept no unknown field.
-/

namespace MasCheck

namespace Json

/-- The named fields of a record, given as an object or as a list of all fields in order. -/
def record? (names : List String) : Json → Option (List (Option Json))
  | object fields => some (names.map fun name ↦ field? name (object fields))
  | list items => if items.length = names.length then some (items.map some) else none
  | _ => none

def items? {α : Type} (decode : Json → Option α) : Json → Option (List α)
  | list items => items.mapM decode
  | _ => none

def needed {α : Type} (decode : Json → Option α) (field : Option Json) : Option α :=
  field.bind decode

def allowed {α : Type} (decode : Json → Option α) : Option Json → Option (Option α)
  | none => some none
  | some null => some none
  | some v => (decode v).map some

/-- A tag: a text, or the only field of an object, with null in it. -/
def tag? : Json → Option String
  | text tag => some tag
  | object [(tag, null)] => some tag
  | _ => none

/-- A choice: its tag and its content. -/
def choice? : Json → Option (String × Option Json)
  | object fields => do
    let tag ← (field? "type" (object fields)).bind tag?
    return (tag, field? "value" (object fields))
  | list [tag, content] => (tag? tag).map fun t ↦ (t, some content)
  | _ => none

def isVoid : Option Json → Bool
  | none => true
  | some null => true
  | _ => false

def tagged (tag : String) (content : Json) : Json :=
  object [("type", text tag), ("value", content)]

mutual

def depth : Json → Nat
  | list items => depthOfItems items + 1
  | object fields => depthOfFields fields + 1
  | _ => 1

def depthOfItems : List Json → Nat
  | [] => 0
  | v :: vs => max (depth v) (depthOfItems vs)

def depthOfFields : List (String × Json) → Nat
  | [] => 0
  | (_, v) :: fs => max (depth v) (depthOfFields fs)

end

end Json

namespace Span

def toJson (s : Span) : Json :=
  .object [("start", .natural s.start), ("end", .natural s.stop)]

def ofJson? : Json → Option Span
  | .object fields =>
    if fields.all fun f ↦ f.1 = "start" || f.1 = "end" then do
      let start ← (Json.field? "start" (.object fields)).bind Json.natural?
      let stop ← (Json.field? "end" (.object fields)).bind Json.natural?
      return ⟨start, stop⟩
    else none
  | .list [start, stop] => do return ⟨← start.natural?, ← stop.natural?⟩
  | _ => none

end Span

namespace Located

variable {α : Type}

def toJson (encode : α → Json) (x : Located α) : Json :=
  .object [("node", encode x.node), ("span", x.span.toJson)]

def ofJson? (decode : Json → Option α) (v : Json) : Option (Located α) := do
  match ← Json.record? ["node", "span"] v with
  | [node, span] => return ⟨← Json.needed decode node, ← Json.needed Span.ofJson? span⟩
  | _ => none

def listToJson (encode : α → Json) (xs : List (Located α)) : Json :=
  .list (xs.map (toJson encode))

def listOfJson? (decode : Json → Option α) : Json → Option (List (Located α)) :=
  Json.items? (ofJson? decode)

end Located

/-! ## MAS files -/

namespace InitValue

mutual

def toJson : InitValue → Json
  | identifier text => .tagged "Identifier" (.text text)
  | integer text => .tagged "Integer" (.text text)
  | decimal text => .tagged "Float" (.text text)
  | string text => .tagged "String" (.text text)
  | function name args =>
    .tagged "Function" (.object [("name", .text name), ("args", .list (listToJson args))])
  | list items => .tagged "List" (.list (listToJson items))

def listToJson : List InitValue → List Json
  | [] => []
  | v :: vs => toJson v :: listToJson vs

end

/-- Reads a value of at most `depth` levels. The content of a function is never a list. -/
def ofJsonWithin? : Nat → Json → Option InitValue
  | 0, _ => none
  | depth + 1, v => do
    match ← v.choice? with
    | ("Identifier", some (.text text)) => return identifier text
    | ("Integer", some (.text text)) => return integer text
    | ("Float", some (.text text)) => return decimal text
    | ("String", some (.text text)) => return string text
    | ("Function", some (.object fields)) =>
      let name ← (Json.field? "name" (.object fields)).bind Json.text?
      let args ← (Json.field? "args" (.object fields)).bind (Json.items? (ofJsonWithin? depth))
      return function name args
    | ("List", some content) => return list (← Json.items? (ofJsonWithin? depth) content)
    | _ => none

def ofJson? (v : Json) : Option InitValue :=
  ofJsonWithin? v.depth v

end InitValue

namespace InitEntry

def toJson (e : InitEntry) : Json :=
  .object [("key", e.key.toJson .text), ("value", e.value.toJson InitValue.toJson)]

def ofJson? (v : Json) : Option InitEntry := do
  match ← Json.record? ["key", "value"] v with
  | [key, value] =>
    return { key := ← Json.needed (Located.ofJson? Json.text?) key
             value := ← Json.needed (Located.ofJson? InitValue.ofJson?) value }
  | _ => none

end InitEntry

namespace Environment

def toJson (e : Environment) : Json :=
  .object [("env", e.archive.toJson .text), ("init", Located.listToJson InitEntry.toJson e.init)]

def ofJson? (v : Json) : Option Environment := do
  match ← Json.record? ["env", "init"] v with
  | [archive, init] =>
    return { archive := ← Json.needed (Located.ofJson? Json.text?) archive
             init := ← Json.needed (Located.listOfJson? InitEntry.ofJson?) init }
  | _ => none

end Environment

namespace Parameter

def toJson (p : Parameter) : Json :=
  .object [("key", p.key.toJson .text), ("value", p.value.toJson .text)]

def ofJson? (v : Json) : Option Parameter := do
  match ← Json.record? ["key", "value"] v with
  | [key, value] =>
    return { key := ← Json.needed (Located.ofJson? Json.text?) key
             value := ← Json.needed (Located.ofJson? Json.text?) value }
  | _ => none

end Parameter

namespace AgentFile

def toJson (f : AgentFile) : Json :=
  .object [("path", f.path.toJson .text),
    ("params", Located.listToJson Parameter.toJson f.parameters)]

def ofJson? (v : Json) : Option AgentFile := do
  match ← Json.record? ["path", "params"] v with
  | [path, parameters] =>
    return { path := ← Json.needed (Located.ofJson? Json.text?) path
             parameters := ← Json.needed (Located.listOfJson? Parameter.ofJson?) parameters }
  | _ => none

end AgentFile

namespace ConstraintWord

def toJson (w : ConstraintWord) : Json :=
  .text w.text

def ofJson? (v : Json) : Option ConstraintWord :=
  v.tag?.bind fun tag ↦ all.find? fun w ↦ w.text = tag

end ConstraintWord

namespace Constraint

def toJson (c : Constraint) : Json :=
  .object [("kind", c.word.toJson), ("value", c.value.toJson .text)]

def ofJson? (v : Json) : Option Constraint := do
  match ← Json.record? ["kind", "value"] v with
  | [word, value] =>
    return { word := ← Json.needed ConstraintWord.ofJson? word
             value := ← Json.needed (Located.ofJson? Json.text?) value }
  | _ => none

end Constraint

namespace Entity

def toJson : Entity → Json
  | constraints items => .tagged "Constraints" (Located.listToJson Constraint.toJson items)
  | named name => .tagged "Named" (.text name)
  | any => .object [("type", .text "Any")]

def ofJson? (v : Json) : Option Entity := do
  match ← v.choice? with
  | ("Constraints", some content) =>
    return constraints (← Located.listOfJson? Constraint.ofJson? content)
  | ("Named", some (.text name)) => return named name
  | ("Any", content) => if Json.isVoid content then some any else none
  | _ => none

end Entity

namespace LaunchName

def toJson : LaunchName → Json
  | named name => .tagged "Named" (.text name)
  | wildcard => .object [("type", .text "Wildcard")]

def ofJson? (v : Json) : Option LaunchName := do
  match ← v.choice? with
  | ("Named", some (.text name)) => return named name
  | ("Wildcard", content) => if Json.isVoid content then some wildcard else none
  | _ => none

end LaunchName

namespace Target

def toJson : Target → Json
  | name text => .tagged "Name" (.text text)
  | path text => .tagged "Path" (.text text)

def ofJson? (v : Json) : Option Target := do
  match ← v.choice? with
  | ("Name", some (.text text)) => return name text
  | ("Path", some (.text text)) => return path text
  | _ => none

end Target

namespace LaunchComponent

def toJson (c : LaunchComponent) : Json :=
  .object [("name", c.name.toJson LaunchName.toJson),
    ("number", .ofOption (Located.toJson .text) c.number),
    ("target", c.target.toJson Target.toJson)]

def ofJson? (v : Json) : Option LaunchComponent := do
  match ← Json.record? ["name", "number", "target"] v with
  | [name, number, target] =>
    return { name := ← Json.needed (Located.ofJson? LaunchName.ofJson?) name
             number := ← Json.allowed (Located.ofJson? Json.text?) number
             target := ← Json.needed (Located.ofJson? Target.ofJson?) target }
  | _ => none

end LaunchComponent

namespace LaunchRule

def toJson (r : LaunchRule) : Json :=
  .object [("condition", .ofOption (Located.toJson Entity.toJson) r.condition),
    ("components", Located.listToJson LaunchComponent.toJson r.components)]

def ofJson? (v : Json) : Option LaunchRule := do
  match ← Json.record? ["condition", "components"] v with
  | [condition, components] =>
    return { condition := ← Json.allowed (Located.ofJson? Entity.ofJson?) condition
             components := ← Json.needed (Located.listOfJson? LaunchComponent.ofJson?) components }
  | _ => none

end LaunchRule

namespace LaunchPolicy

def toJson (p : LaunchPolicy) : Json :=
  .object [("rules", Located.listToJson LaunchRule.toJson p.rules)]

def ofJson? (v : Json) : Option LaunchPolicy := do
  match ← Json.record? ["rules"] v with
  | [rules] => return { rules := ← Json.needed (Located.listOfJson? LaunchRule.ofJson?) rules }
  | _ => none

end LaunchPolicy

namespace MasFile

def toJson (f : MasFile) : Json :=
  .object <|
    [("environment", .ofOption (Located.toJson Environment.toJson) f.environment)] ++
    (if f.extraEnvironments.isEmpty then []
      else [("extra_environments", .list (f.extraEnvironments.map Span.toJson))]) ++
    [("agent_files", Located.listToJson AgentFile.toJson f.agentFiles),
      ("launch_policy", .ofOption (Located.toJson LaunchPolicy.toJson) f.launchPolicy)]

def ofJson? (v : Json) : Option MasFile := do
  match ← Json.record? ["environment", "extra_environments", "agent_files", "launch_policy"] v with
  | [environment, extra, agentFiles, policy] =>
    return { environment := ← Json.allowed (Located.ofJson? Environment.ofJson?) environment
             extraEnvironments := ← match extra with
               | none => some []
               | some spans => Json.items? Span.ofJson? spans
             agentFiles := ← Json.needed (Located.listOfJson? AgentFile.ofJson?) agentFiles
             launchPolicy := ← Json.allowed (Located.ofJson? LaunchPolicy.ofJson?) policy }
  | _ => none

end MasFile

/-! ## Test scripts -/

namespace TemporalOperator

def all : List TemporalOperator :=
  [atStart, eventually, always, never, atEnd]

def text : TemporalOperator → String
  | atStart => "atstart"
  | eventually => "eventually"
  | always => "always"
  | never => "never"
  | atEnd => "atend"

def toJson (o : TemporalOperator) : Json :=
  .text o.text

def ofJson? (v : Json) : Option TemporalOperator :=
  v.tag?.bind fun tag ↦ all.find? fun o ↦ o.text = tag

end TemporalOperator

namespace MentalOperator

def all : List MentalOperator :=
  [bel, goal, aGoal, goalA, percept]

def text : MentalOperator → String
  | bel => "bel"
  | goal => "goal"
  | aGoal => "a-goal"
  | goalA => "goal-a"
  | percept => "percept"

def toJson (o : MentalOperator) : Json :=
  .text o.text

def ofJson? (v : Json) : Option MentalOperator :=
  v.tag?.bind fun tag ↦ all.find? fun o ↦ o.text = tag

end MentalOperator

namespace MentalLiteral

def toJson (l : MentalLiteral) : Json :=
  .object [("negated", .bool l.negated), ("operator", l.operator.toJson),
    ("term", l.term.toJson .text)]

def ofJson? (v : Json) : Option MentalLiteral := do
  match ← Json.record? ["negated", "operator", "term"] v with
  | [negated, operator, term] =>
    return { negated := ← Json.needed Json.bool? negated
             operator := ← Json.needed MentalOperator.ofJson? operator
             term := ← Json.needed (Located.ofJson? Json.text?) term }
  | _ => none

end MentalLiteral

namespace TestCondition

def toJson (c : TestCondition) : Json :=
  .object [("operator", c.operator.toJson),
    ("literals", Located.listToJson MentalLiteral.toJson c.literals)]

def ofJson? (v : Json) : Option TestCondition := do
  match ← Json.record? ["operator", "literals"] v with
  | [operator, literals] =>
    return { operator := ← Json.needed TemporalOperator.ofJson? operator
             literals := ← Json.needed (Located.listOfJson? MentalLiteral.ofJson?) literals }
  | _ => none

end TestCondition

namespace AgentTest

def toJson (t : AgentTest) : Json :=
  .object [("agent", t.agent.toJson .text),
    ("module", .ofOption (Located.toJson .text) t.module),
    ("conditions", Located.listToJson TestCondition.toJson t.conditions)]

def ofJson? (v : Json) : Option AgentTest := do
  match ← Json.record? ["agent", "module", "conditions"] v with
  | [agent, module, conditions] =>
    return { agent := ← Json.needed (Located.ofJson? Json.text?) agent
             module := ← Json.allowed (Located.ofJson? Json.text?) module
             conditions := ← Json.needed (Located.listOfJson? TestCondition.ofJson?) conditions }
  | _ => none

end AgentTest

namespace TestScript

def toJson (s : TestScript) : Json :=
  .object [("mas", s.mas.toJson .text),
    ("timeout", .ofOption (Located.toJson .text) s.timeout),
    ("tests", Located.listToJson AgentTest.toJson s.tests)]

def ofJson? (v : Json) : Option TestScript := do
  match ← Json.record? ["mas", "timeout", "tests"] v with
  | [mas, timeout, tests] =>
    return { mas := ← Json.needed (Located.ofJson? Json.text?) mas
             timeout := ← Json.allowed (Located.ofJson? Json.text?) timeout
             tests := ← Json.needed (Located.listOfJson? AgentTest.ofJson?) tests }
  | _ => none

end TestScript

end MasCheck
