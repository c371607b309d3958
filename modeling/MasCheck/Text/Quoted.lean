import MasCheck.Text.HiddenTable
import MasCheck.Text.Identifier

/-!
# Texts in quotation marks

A quoted text shows every character that it holds. The quotation mark, the backslash and the common
controls are escaped by a letter, and other characters that do not show by themselves by their code
point in braces.
-/

namespace MasCheck.Text

def isHidden (c : Char) : Bool :=
  if c.toNat < 128 then c.toNat < 32 || c.toNat = 127 else inRanges hiddenRanges c

/-- How a character is written between quotation marks. -/
def shown (c : Char) : List Char :=
  if c = '\x00' then ['\\', '0']
  else if c = '\t' then ['\\', 't']
  else if c = '\n' then ['\\', 'n']
  else if c = '\r' then ['\\', 'r']
  else if c = '"' then ['\\', '"']
  else if c = '\\' then ['\\', '\\']
  else if isHidden c then ['\\', 'u', '{'] ++ Nat.toDigits 16 c.toNat ++ ['}']
  else [c]

def quoted (text : String) : String :=
  String.ofList ('"' :: text.toList.flatMap shown ++ ['"'])

end MasCheck.Text
