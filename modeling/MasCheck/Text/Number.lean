import MasCheck.Text.Identifier

/-!
# Whole numbers in text

A count is written in decimal digits, with an optional plus sign in front, and must fit into
sixty-four bits. Leading zeros are allowed; blanks, other signs and other digits are not.
-/

namespace MasCheck.Text

def digitsValue? : List Char → Option Nat
  | [] => none
  | cs => if cs.all isAsciiDigit then
      some (cs.foldl (fun n c ↦ 10 * n + (c.toNat - '0'.toNat)) 0)
    else none

def wordLimit : Nat := 0xFFFFFFFFFFFFFFFF

def count? (cs : List Char) : Option Nat :=
  let digits := match cs with
    | '+' :: rest => rest
    | _ => cs
  (digitsValue? digits).filter (· ≤ wordLimit)

def isPositiveCount (text : String) : Bool :=
  match count? text.toList with
  | some n => 0 < n
  | none => false

end MasCheck.Text
