import MasCheck.Source.Span

/-!
# Lines as a screen shows them

On a screen more characters end a line than the newline: a carriage return, alone or with a
newline after it, vertical tabs, form feeds, and the line and paragraph ends of Unicode. A line
keeps its end. Offsets count characters here.
-/

namespace MasCheck

def isLineEnd (c : Char) : Bool :=
  c = '\n' || c = '\r' || c.toNat = 0x0B || c.toNat = 0x0C || c.toNat = 0x85 || c.toNat = 0x2028 ||
    c.toNat = 0x2029

/-- Cuts a text after its line ends. No line is empty. -/
def splitLines : List Char → List (List Char)
  | [] => []
  | '\r' :: '\n' :: cs => ['\r', '\n'] :: splitLines cs
  | c :: cs =>
    if isLineEnd c then [c] :: splitLines cs
    else match splitLines cs with
      | [] => [[c]]
      | l :: ls => (c :: l) :: ls

theorem flatten_splitLines (cs : List Char) : (splitLines cs).flatten = cs := by
  fun_induction splitLines cs with
  | case1 => rfl
  | case2 cs ih => simp [ih]
  | case3 c cs hne hc ih => simp [ih]
  | case4 c cs hne hc hls ih =>
    rw [hls] at ih
    simp [← ih]
  | case5 c cs hne hc l ls hls ih =>
    rw [hls] at ih
    simp [← ih]

/-- A line with its number from zero and the offset of its first character. -/
structure ScreenLine where
  number : Nat
  start : Nat
  text : List Char
  deriving DecidableEq, Repr

namespace ScreenLine

def stop (l : ScreenLine) : Nat :=
  l.start + l.text.length

def covers (l : ScreenLine) (offset : Nat) : Bool :=
  l.start ≤ offset && offset < l.stop

def enumerate : (number start : Nat) → List (List Char) → List ScreenLine
  | _, _, [] => []
  | number, start, l :: ls =>
    ⟨number, start, l⟩ :: enumerate (number + 1) (start + l.length) ls

end ScreenLine

def screenLines (text : List Char) : List ScreenLine :=
  ScreenLine.enumerate 0 0 (splitLines text)

/-- The line at an offset, which is the last one for the end of the text. -/
def screenLineAt? (text : List Char) (offset : Nat) : Option ScreenLine :=
  if offset ≤ text.length then (screenLines text).reverse.find? fun l ↦ l.start ≤ offset else none

end MasCheck
