import MasCheck.Text.IdentifierTable

/-!
# Identifiers

An identifier opens with a letter (Unicode `XID_Start`) or an underscore and goes on with letters,
digits, marks and connectors (`XID_Continue`). Among the ASCII characters these are the letters,
the digits and the underscore; the others are read from the tables.
-/

namespace MasCheck.Text

def inRanges (ranges : List (Nat × Nat)) (c : Char) : Bool :=
  ranges.any fun r ↦ r.1 ≤ c.toNat && c.toNat ≤ r.2

def isAsciiLetter (c : Char) : Bool :=
  ('a' ≤ c && c ≤ 'z') || ('A' ≤ c && c ≤ 'Z')

def isAsciiDigit (c : Char) : Bool :=
  '0' ≤ c && c ≤ '9'

def isIdentifierStart (c : Char) : Bool :=
  if c.toNat < 128 then isAsciiLetter c || c = '_' else inRanges identifierStartRanges c

def isIdentifierRest (c : Char) : Bool :=
  isIdentifierStart c ||
    if c.toNat < 128 then isAsciiDigit c else inRanges identifierExtraRanges c

theorem isIdentifierRest_of_start {c : Char} (h : isIdentifierStart c = true) :
    isIdentifierRest c = true := by
  simp [isIdentifierRest, h]

end MasCheck.Text
