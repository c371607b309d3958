import MasCheck.Json.Reader

/-!
# Options of the analysis

Options may be read from JSON. An object gives some of the fields by name and may hold other
fields; a list gives fields from the first on. What is not given has its default.
-/

namespace MasCheck

structure Options where
  /-- Look whether the files that a unit mentions are there, and at the form of archives. -/
  checkResources : Bool
  /-- Warn about agent files that no rule launches. -/
  reportUnused : Bool
  agentExtension : String
  environmentExtension : String
  deriving DecidableEq, Repr

namespace Options

def standard : Options :=
  { checkResources := true, reportUnused := true, agentExtension := "goal",
    environmentExtension := "jar" }

def offline : Options :=
  { standard with checkResources := false }

def toJson (o : Options) : Json :=
  .object [("check_resources", .bool o.checkResources), ("report_unused", .bool o.reportUnused),
    ("agent_extension", .text o.agentExtension),
    ("environment_extension", .text o.environmentExtension)]

structure Given where
  checkResources : Option Bool
  reportUnused : Option Bool
  agentExtension : Option String
  environmentExtension : Option String

namespace Given

def none : Given :=
  ⟨.none, .none, .none, .none⟩

def complete (g : Given) : Options :=
  { checkResources := g.checkResources.getD standard.checkResources
    reportUnused := g.reportUnused.getD standard.reportUnused
    agentExtension := g.agentExtension.getD standard.agentExtension
    environmentExtension := g.environmentExtension.getD standard.environmentExtension }

def once {α : Type} (given : Option α) (reader : Json.Reader α) (set : α → Given) :
    Except Json.Fault (Json.Reader Given) :=
  if given.isSome then .error .unsuitable
  else .ok fun cs ↦ (reader cs).map (Prod.map set id)

def field (g : Given) (name : String) : Except Json.Fault (Json.Reader Given) :=
  if name = "check_resources" then
    once g.checkResources Json.expectBool fun v ↦ { g with checkResources := some v }
  else if name = "report_unused" then
    once g.reportUnused Json.expectBool fun v ↦ { g with reportUnused := some v }
  else if name = "agent_extension" then
    once g.agentExtension Json.expectText fun v ↦ { g with agentExtension := some v }
  else if name = "environment_extension" then
    once g.environmentExtension Json.expectText fun v ↦ { g with environmentExtension := some v }
  else .ok fun cs ↦ (Json.skipValue cs).map (Prod.map (fun _ ↦ g) id)

end Given

def readList : Json.Reader Options := fun cs ↦ do
  let (checkResources, cs) ← Json.itemOr Json.expectBool true standard.checkResources cs
  let (reportUnused, cs) ← Json.itemOr Json.expectBool false standard.reportUnused cs
  let (agentExtension, cs) ← Json.itemOr Json.expectText false standard.agentExtension cs
  let (environmentExtension, cs) ←
    Json.itemOr Json.expectText false standard.environmentExtension cs
  let ((), cs) ← Json.endList cs
  return ({ checkResources, reportUnused, agentExtension, environmentExtension }, cs)

def read : Json.Reader Options := fun cs ↦
  match Json.skipBlanks cs with
  | '[' :: cs => readList cs
  | cs => (Json.expectObject Given.field Given.none cs).map (Prod.map Given.complete id)

def ofJson? (source : String) : Except Json.Fault Options :=
  Json.readAll read source

end Options

end MasCheck
