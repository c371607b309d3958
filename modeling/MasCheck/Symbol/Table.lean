import MasCheck.Symbol.Basic

/-!
# Tables of symbols

A table keeps the symbols of a unit in the order of their first declarations, and the uses in the
order in which they were recorded. A name stays with its first declaration.
-/

namespace MasCheck

structure SymbolTable where
  file : String
  symbols : List Symbol
  uses : List Use
  /-- Agent files that nothing uses are worth a warning. -/
  reportUnused : Bool
  deriving DecidableEq, Repr

structure Repetition where
  kind : Kind
  category : Category
  name : String
  first : Position
  second : Position
  deriving DecidableEq, Repr

namespace Repetition

def diagnostic (r : Repetition) : Diagnostic :=
  .of r.kind [r.name, r.first.text] r.second

end Repetition

namespace SymbolTable

def empty (file : String) : SymbolTable :=
  { file, symbols := [], uses := [], reportUnused := true }

def find? (t : SymbolTable) (category : Category) (name : String) : Option Symbol :=
  t.symbols.find? fun s ↦ s.key = (category, name)

/-- Adds a symbol unless its name is taken. -/
def declare (t : SymbolTable) (s : Symbol) : SymbolTable :=
  match t.find? s.category s.name with
  | some _ => t
  | none => { t with symbols := t.symbols ++ [s] }

/-- The repetition that declaring a symbol would be. -/
def repetition? (t : SymbolTable) (s : Symbol) : Option Repetition := do
  let first ← t.find? s.category s.name
  let kind ← s.category.repeatedKind?
  return { kind, category := s.category, name := s.name, first := first.position,
           second := s.position }

def refer (t : SymbolTable) (u : Use) : SymbolTable :=
  { t with uses := t.uses ++ [u] }

def referAll (t : SymbolTable) (us : List Use) : SymbolTable :=
  { t with uses := t.uses ++ us }

def declared (t : SymbolTable) (category : Category) : List Symbol :=
  t.symbols.filter fun s ↦ s.category = category

section

variable {α : Type} (symbol : α → Symbol) (findings : α → List Diagnostic)

def declareAll (t : SymbolTable) (items : List α) : SymbolTable :=
  items.foldl (fun t x ↦ t.declare (symbol x)) t

/-- What there is to say about the items while they are declared: the findings about an item, and
then the warning that its name is taken. -/
def declarationFindings (t : SymbolTable) : List α → List Diagnostic
  | [] => []
  | x :: xs => findings x ++ (t.repetition? (symbol x)).toList.map Repetition.diagnostic ++
      declarationFindings (t.declare (symbol x)) xs

end

section

variable {t : SymbolTable} {s first : Symbol}

theorem declare_of_some (h : t.find? s.category s.name = some first) : t.declare s = t := by
  rw [declare, h]

theorem declare_of_none (h : t.find? s.category s.name = none) :
    t.declare s = { t with symbols := t.symbols ++ [s] } := by
  rw [declare, h]

theorem repetition?_of_some (h : t.find? s.category s.name = some first) :
    t.repetition? s = s.category.repeatedKind?.map fun kind ↦
      { kind, category := s.category, name := s.name, first := first.position,
        second := s.position } := by
  rw [repetition?, h, Option.bind_eq_bind, Option.bind_some]
  cases s.category.repeatedKind? <;> rfl

theorem repetition?_of_none (h : t.find? s.category s.name = none) : t.repetition? s = none := by
  rw [repetition?, h, Option.bind_eq_bind, Option.bind_none]

end

@[simp] theorem declare_file (t : SymbolTable) (s : Symbol) : (t.declare s).file = t.file := by
  unfold declare
  split <;> rfl

@[simp] theorem declare_reportUnused (t : SymbolTable) (s : Symbol) :
    (t.declare s).reportUnused = t.reportUnused := by
  unfold declare
  split <;> rfl

@[simp] theorem declare_uses (t : SymbolTable) (s : Symbol) : (t.declare s).uses = t.uses := by
  unfold declare
  split <;> rfl

end SymbolTable

end MasCheck
