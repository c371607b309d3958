import MasCheck.Symbol.Table

/-!
# Which uses name which declarations

The symbols of a table and its uses are the nodes of a graph, numbered in this order. An edge runs
from a use to the declaration it names. Declarations are entered in two indexes when their nodes
are made, one of names and one of the paths of resources, and a use is looked up in one of these
when its node is made. Uses without an edge are undeclared, and declarations without one are
unused.
-/

namespace MasCheck

/-- Numbers of nodes, each entered under a category and a text. -/
structure NodeIndex where
  entries : List ((Category × String) × Nat)
  deriving DecidableEq, Repr

namespace NodeIndex

def empty : NodeIndex :=
  ⟨[]⟩

def find? (index : NodeIndex) (key : Category × String) : Option Nat :=
  index.entries.lookup key

/-- Enters a number under a key. If the key has a number already, the new one takes its place. -/
def enter (index : NodeIndex) (key : Category × String) (number : Nat) : NodeIndex :=
  if (index.find? key).isSome then
    ⟨index.entries.map fun entry ↦ if entry.1 = key then (key, number) else entry⟩
  else ⟨index.entries ++ [(key, number)]⟩

/-- Enters a number under a key unless the key has one already. -/
def enterNew (index : NodeIndex) (key : Category × String) (number : Nat) : NodeIndex :=
  if (index.find? key).isSome then index else ⟨index.entries ++ [(key, number)]⟩

end NodeIndex

structure ReferenceGraph where
  nodes : List (Symbol ⊕ Use)
  /-- From the numbers of uses to the numbers of the declarations they name. -/
  edges : List (Nat × Nat)
  /-- The numbers of declarations under their keys. -/
  declarations : NodeIndex
  /-- The numbers of uses. -/
  uses : List Nat
  deriving DecidableEq, Repr

/-- A graph under construction, with the numbers of declarations under the paths of their
resources. -/
structure GraphBuilder where
  graph : ReferenceGraph
  paths : NodeIndex

namespace GraphBuilder

def empty : GraphBuilder :=
  { graph := { nodes := [], edges := [], declarations := .empty, uses := [] }, paths := .empty }

/-- Adds the node of a declaration. A path stays with the first declaration that has it. -/
def declare (b : GraphBuilder) (s : Symbol) : GraphBuilder :=
  let number := b.graph.nodes.length
  { graph := { b.graph with
      nodes := b.graph.nodes ++ [.inl s]
      declarations := b.graph.declarations.enter s.key number }
    paths := match s.resource with
      | some path => b.paths.enterNew (s.category, path) number
      | none => b.paths }

/-- The number of the declaration that a use leads to. -/
def target? (b : GraphBuilder) (u : Use) : Option Nat :=
  match u.target with
  | .name name => b.graph.declarations.find? (u.category, name)
  | .path path => b.paths.find? (u.category, path)

/-- Adds the node of a use, and the edge to the declaration that it leads to. -/
def refer (b : GraphBuilder) (u : Use) : GraphBuilder :=
  let number := b.graph.nodes.length
  { b with graph := { b.graph with
      nodes := b.graph.nodes ++ [.inr u]
      edges := b.graph.edges ++ ((b.target? u).map fun declaration ↦ (number, declaration)).toList
      uses := b.graph.uses ++ [number] } }

end GraphBuilder

namespace ReferenceGraph

def symbol? (g : ReferenceGraph) (number : Nat) : Option Symbol :=
  g.nodes[number]?.bind Sum.getLeft?

def use? (g : ReferenceGraph) (number : Nat) : Option Use :=
  g.nodes[number]?.bind Sum.getRight?

def undeclared (g : ReferenceGraph) : List Use :=
  (g.uses.filter fun number ↦ !g.edges.any fun e ↦ e.1 = number).filterMap g.use?

def unused (g : ReferenceGraph) (category : Category) : List Symbol :=
  (g.declarations.entries.filter fun entry ↦ entry.1.1 = category).filterMap fun entry ↦
    if g.edges.any fun e ↦ e.2 = entry.2 then none else g.symbol? entry.2

/-- The uses of a declaration, from the last to the first. -/
def usages (g : ReferenceGraph) (category : Category) (name : String) : List Use :=
  match g.declarations.find? (category, name) with
  | none => []
  | some number => (g.edges.filter fun e ↦ e.2 = number).reverse.filterMap fun e ↦ g.use? e.1

end ReferenceGraph

namespace SymbolTable

def graph (t : SymbolTable) : ReferenceGraph :=
  (t.uses.foldl GraphBuilder.refer (t.symbols.foldl GraphBuilder.declare .empty)).graph

/-- Errors about undeclared uses, and then warnings about agent files that nothing uses. -/
def findings (t : SymbolTable) : List Diagnostic :=
  t.graph.undeclared.filterMap Use.undeclared? ++
    if t.reportUnused then
      (t.graph.unused .agentFile).map fun s ↦ .of .agentFileUnused [s.shown] s.position
    else []

/-- Hands the findings on to a receiver, each as soon as it is made, and counts them. -/
def deliver {σ : Type} (t : SymbolTable) (receive : σ → Diagnostic → σ) (receiver : σ) : σ × Nat :=
  let hand := fun (state : σ × Nat) (d : Diagnostic) ↦ (receive state.1 d, state.2 + 1)
  let errors := t.graph.undeclared.foldl
    (fun state u ↦ u.undeclared?.elim state (hand state)) (receiver, 0)
  if t.reportUnused then
    (t.graph.unused .agentFile).foldl
      (fun state s ↦ hand state (.of .agentFileUnused [s.shown] s.position)) errors
  else errors

end SymbolTable

end MasCheck
