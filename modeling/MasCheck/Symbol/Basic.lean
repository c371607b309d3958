import MasCheck.Diagnostic.Basic
import MasCheck.Tree.Mas

/-!
# Symbols and their uses

A unit declares symbols and uses them. Names of different categories never meet. A use asks for a
symbol by its name, or by the path of the resource behind it.
-/

namespace MasCheck

inductive Category
  /-- The files that define agents, under the names by which rules launch them. -/
  | agentFile
  | initKey
  | agent
  | agentTest
  deriving DecidableEq, Repr

namespace Category

def all : List Category :=
  [agentFile, initKey, agent, agentTest]

def name : Category → String
  | agentFile => "agent-file"
  | initKey => "init-key"
  | agent => "agent"
  | agentTest => "agent-test"

def ofName? (name : String) : Option Category :=
  all.find? fun c ↦ c.name = name

def label : Category → String
  | agentFile => "agent file"
  | initKey => "init key"
  | agent => "agent"
  | agentTest => "agent test"

/-- The warning about a second declaration of a name, where that is worth one. -/
def repeatedKind? : Category → Option Kind
  | agentFile => some .agentFileNameRepeated
  | initKey => some .initKeyRepeated
  | agent => none
  | agentTest => some .agentRepeated

/-- The error about a use of what is not declared, where uses are checked. -/
def undeclaredKind? : Category → Option Kind
  | agentFile => some .agentFileUndeclared
  | initKey => none
  | agent => some .agentUnknown
  | agentTest => none

end Category

structure Symbol where
  category : Category
  name : String
  position : Position
  resource : Option String
  deriving DecidableEq, Repr

structure Use where
  category : Category
  target : Target
  position : Position
  /-- Where the use stands, in words. -/
  context : String
  deriving DecidableEq, Repr

namespace Symbol

/-- Symbols with the same key are declarations of the same thing. -/
def key (s : Symbol) : Category × String :=
  (s.category, s.name)

/-- How findings about the symbol call it: by its resource if it has one. -/
def shown (s : Symbol) : String :=
  s.resource.getD s.name

end Symbol

namespace Use

/-- The use asks for this symbol. -/
def asksFor (u : Use) (s : Symbol) : Bool :=
  u.category = s.category && match u.target with
    | .name name => s.name = name
    | .path path => s.resource = some path

/-- The error about the use when nothing is declared for it. -/
def undeclared? (u : Use) : Option Diagnostic :=
  u.category.undeclaredKind?.map fun kind ↦
    let args := match u.category with
      | .agent => [u.target.text, u.context]
      | _ => [u.context, u.target.text]
    .of kind args u.position

end Use

end MasCheck
