import MasCheck.Json.Basic

/-!
# Writing JSON

`compact` writes a value without blanks, `pretty` with one item a line and two spaces for each
level. In a text only the quotation mark, the backslash and the control characters below the space
are escaped, the common ones by a letter and the others by their code in four digits.
-/

namespace MasCheck.Json

def hexDigit (n : Nat) : Char :=
  if n < 10 then Char.ofNat ('0'.toNat + n) else Char.ofNat ('a'.toNat + (n - 10))

def escaped (c : Char) : List Char :=
  if c = '"' then ['\\', '"']
  else if c = '\\' then ['\\', '\\']
  else if c = '\n' then ['\\', 'n']
  else if c = '\r' then ['\\', 'r']
  else if c = '\t' then ['\\', 't']
  else if c.toNat = 8 then ['\\', 'b']
  else if c.toNat = 12 then ['\\', 'f']
  else if c.toNat < 32 then ['\\', 'u', '0', '0', hexDigit (c.toNat / 16), hexDigit (c.toNat % 16)]
  else [c]

def quoted (value : String) : String :=
  String.ofList ('"' :: value.toList.flatMap escaped ++ ['"'])

def bracketed (opening closing : String) (items : List String) : String :=
  opening ++ ",".intercalate items ++ closing

mutual

def compact : Json → String
  | null => "null"
  | bool true => "true"
  | bool false => "false"
  | natural n => toString n
  | number spelling => spelling
  | text value => quoted value
  | list items => bracketed "[" "]" (compactItems items)
  | object fields => bracketed "\x7b" "\x7d" (compactFields fields)

def compactItems : List Json → List String
  | [] => []
  | v :: vs => compact v :: compactItems vs

def compactFields : List (String × Json) → List String
  | [] => []
  | (name, v) :: fs => (quoted name ++ ":" ++ compact v) :: compactFields fs

end

def newLine (level : Nat) : String :=
  "\n" ++ String.ofList (List.replicate (2 * level) ' ')

/-- Items between brackets, each on its own line; brackets without items stay together. -/
def stacked (level : Nat) (opening closing : String) (items : List String) : String :=
  match items with
  | [] => opening ++ closing
  | _ => opening ++ newLine (level + 1) ++ ("," ++ newLine (level + 1)).intercalate items ++
      newLine level ++ closing

mutual

def prettyAt (level : Nat) : Json → String
  | list items => stacked level "[" "]" (prettyItems (level + 1) items)
  | object fields => stacked level "\x7b" "\x7d" (prettyFields (level + 1) fields)
  | null => "null"
  | bool true => "true"
  | bool false => "false"
  | natural n => toString n
  | number spelling => spelling
  | text value => quoted value

def prettyItems (level : Nat) : List Json → List String
  | [] => []
  | v :: vs => prettyAt level v :: prettyItems level vs

def prettyFields (level : Nat) : List (String × Json) → List String
  | [] => []
  | (name, v) :: fs => (quoted name ++ ": " ++ prettyAt level v) :: prettyFields level fs

end

def pretty (v : Json) : String :=
  prettyAt 0 v

end MasCheck.Json
