/-!
# JSON values

Numbers that are natural numbers keep their value; every other number keeps its spelling. The
fields of an object stand in the order in which they were given, and the last field of a name is
the one that counts.
-/

namespace MasCheck

inductive Json
  | null
  | bool (value : Bool)
  | natural (value : Nat)
  | number (spelling : String)
  | text (value : String)
  | list (items : List Json)
  | object (fields : List (String × Json))
  deriving Inhabited

namespace Json

def field? (name : String) : Json → Option Json
  | object fields => (fields.reverse.find? fun f ↦ f.1 = name).map Prod.snd
  | _ => none

def text? : Json → Option String
  | text value => some value
  | _ => none

def bool? : Json → Option Bool
  | bool value => some value
  | _ => none

def natural? : Json → Option Nat
  | natural value => some value
  | _ => none

def list? : Json → Option (List Json)
  | list items => some items
  | _ => none

/-- A value that may be absent, written as null. -/
def ofOption {α : Type} (f : α → Json) : Option α → Json
  | none => null
  | some x => f x

end Json

end MasCheck
