/-!
# Places in a source

A span is a pair of byte offsets. Spans found by reading a source have their ends in order; a
span given from outside need not.
-/

namespace MasCheck

/-- A half-open range of byte offsets. -/
structure Span where
  start : Nat
  stop : Nat
  deriving DecidableEq, Repr, Inhabited

/-- A value together with the part of the source it was read from. -/
structure Located (α : Type) where
  node : α
  span : Span
  deriving DecidableEq, Repr

namespace Located

variable {α β : Type}

def map (f : α → β) (x : Located α) : Located β :=
  ⟨f x.node, x.span⟩

@[simp] theorem map_node (f : α → β) (x : Located α) : (x.map f).node = f x.node := rfl

@[simp] theorem map_span (f : α → β) (x : Located α) : (x.map f).span = x.span := rfl

end Located

end MasCheck
