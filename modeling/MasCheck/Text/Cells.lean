import MasCheck.Text.CellTable
import MasCheck.Text.Identifier

/-!
# Characters on a screen

A screen is divided into cells. A tab reaches to the next column that is a multiple of `tabWidth`,
where columns count characters. Other blanks take one cell. A control takes one cell, and any other
character as many as the tables say.
-/

namespace MasCheck.Text

/-- Blanks beyond ASCII with the Unicode property `White_Space`. -/
def blankRanges : List (Nat × Nat) :=
  [(0x85, 0x85), (0xA0, 0xA0), (0x1680, 0x1680), (0x2000, 0x200A), (0x2028, 0x2029),
    (0x202F, 0x202F), (0x205F, 0x205F), (0x3000, 0x3000)]

def isBlank (c : Char) : Bool :=
  if c.toNat < 128 then c = ' ' || (9 ≤ c.toNat && c.toNat ≤ 13) else inRanges blankRanges c

def tabWidth : Nat := 4

/-- The number of cells that a character takes in a column. -/
def cells (column : Nat) (c : Char) : Nat :=
  if c = '\t' then (column / tabWidth + 1) * tabWidth - column
  else if isBlank c || c.toNat < 0xA0 then 1
  else if inRanges wideRanges c then 2
  else if inRanges emptyRanges c then 0
  else 1

/-- A text without the blanks at its end. -/
def trimBlanks (cs : List Char) : List Char :=
  (cs.reverse.dropWhile isBlank).reverse

end MasCheck.Text
