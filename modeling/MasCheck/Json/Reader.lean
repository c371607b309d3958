import MasCheck.Json.Basic
import MasCheck.Text.Bytes
import MasCheck.Text.Number

/-!
# Reading JSON

A text is read from left to right, and the first problem met decides how it fails: the text is not
JSON, it ends too early, or it is JSON of a form that the reader does not want. The readers of
single values here serve both `ofText?`, which accepts any value, and the readers of fixed forms,
which know at each place what they expect.

A value that is passed over is read with less care: the halves of surrogate pairs are not matched,
and numbers may have any size.
-/

namespace MasCheck.Json

inductive Fault
  | malformed
  | truncated
  /-- The text holds another form than the reader expects. -/
  | unsuitable
  deriving DecidableEq, Repr

/-- A reader takes a value from the front of a text and leaves what follows. -/
abbrev Reader (α : Type) :=
  List Char → Except Fault (α × List Char)

def skipBlanks (cs : List Char) : List Char :=
  cs.dropWhile fun c ↦ c = ' ' || c = '\n' || c = '\t' || c = '\r'

def readWord : List Char → Reader Unit
  | [], cs => .ok ((), cs)
  | _ :: _, [] => .error .truncated
  | e :: es, c :: cs => if c = e then readWord es cs else .error .malformed

/-! ## Texts -/

def hexValue? (c : Char) : Option Nat :=
  if Text.isAsciiDigit c then some (c.toNat - '0'.toNat)
  else if 'a' ≤ c ∧ c ≤ 'f' then some (c.toNat - 'a'.toNat + 10)
  else if 'A' ≤ c ∧ c ≤ 'F' then some (c.toNat - 'A'.toNat + 10)
  else none

/-- Where the reading of a text stands: at a plain character, after a backslash, inside a code of
four digits (with the digits read, their value, and the high surrogate waiting for this code), or
between the two codes of a pair. -/
inductive TextState
  | plain
  | escape
  | code (digits value : Nat) (high : Option Nat)
  | pairBackslash (high : Nat)
  | pairLetter (high : Nat)

/-- The character that a letter after a backslash stands for. -/
def unescaped? (c : Char) : Option Char :=
  if c = '"' ∨ c = '\\' ∨ c = '/' then some c
  else if c = 'b' then some (Char.ofNat 8)
  else if c = 'f' then some (Char.ofNat 12)
  else if c = 'n' then some '\n'
  else if c = 'r' then some '\r'
  else if c = 't' then some '\t'
  else none

def isHighSurrogate (n : Nat) : Bool :=
  0xD800 ≤ n && n ≤ 0xDBFF

def isLowSurrogate (n : Nat) : Bool :=
  0xDC00 ≤ n && n ≤ 0xDFFF

/-- The characters of a text after its opening quotation mark. -/
def readText (careful : Bool) : TextState → Reader (List Char)
  | _, [] => .error .truncated
  | .plain, c :: cs =>
    if c = '"' then .ok ([], cs)
    else if c = '\\' then readText careful .escape cs
    else if c.toNat < 32 then .error .malformed
    else (readText careful .plain cs).map (Prod.map (c :: ·) id)
  | .escape, c :: cs =>
    if c = 'u' then readText careful (.code 0 0 none) cs
    else match unescaped? c with
      | some d => (readText careful .plain cs).map (Prod.map (d :: ·) id)
      | none => .error .malformed
  | .code digits value high, c :: cs =>
    match hexValue? c with
    | none =>
      if digits + Text.byteLength (c :: cs) < 4 then .error .truncated else .error .malformed
    | some d =>
      let value := 16 * value + d
      if digits < 3 then readText careful (.code (digits + 1) value high) cs
      else match high with
        | none =>
          if careful && isLowSurrogate value then .error .malformed
          else if careful && isHighSurrogate value then readText careful (.pairBackslash value) cs
          else (readText careful .plain cs).map (Prod.map (Char.ofNat value :: ·) id)
        | some first =>
          if isLowSurrogate value then
            let code := 0x10000 + (first - 0xD800) * 0x400 + (value - 0xDC00)
            (readText careful .plain cs).map (Prod.map (Char.ofNat code :: ·) id)
          else .error .malformed
  | .pairBackslash high, c :: cs =>
    if c = '\\' then readText careful (.pairLetter high) cs else .error .malformed
  | .pairLetter high, c :: cs =>
    if c = 'u' then readText careful (.code 0 0 (some high)) cs else .error .malformed

def readString (careful : Bool) : Reader String := fun cs ↦
  (readText careful .plain cs).map (Prod.map String.ofList id)

/-! ## Numbers -/

structure NumberParts where
  negative : Bool
  whole : List Char
  fraction : Option (List Char)
  exponent : Option (Option Char × List Char)

namespace NumberParts

def spelling (p : NumberParts) : String :=
  String.ofList <| (if p.negative then ['-'] else []) ++ p.whole ++
    p.fraction.elim [] ('.' :: ·) ++
    p.exponent.elim [] (fun e ↦ 'e' :: e.1.toList ++ e.2)

/-- The end of the range of numbers in sixty-four bits of floating point. -/
def magnitudeLimit : Nat :=
  Nat.pow 2 1024 - Nat.pow 2 970

def isTooLarge (p : NumberParts) : Bool :=
  let digits := p.whole ++ p.fraction.getD []
  let mantissa := (Text.digitsValue? digits).getD 0
  let shift : Int := match p.exponent with
    | none => 0
    | some (sign, ds) =>
      let e : Nat := (Text.digitsValue? ds).getD 0
      if sign = some '-' then -(e : Int) else e
  let scale := shift - ((p.fraction.getD []).length : Int)
  if mantissa = 0 then false
  else if scale < 0 then
    if (digits.length : Int) ≤ -scale then false
    else magnitudeLimit * Nat.pow 10 (-scale).toNat ≤ mantissa
  else if 309 ≤ scale then true
  else magnitudeLimit ≤ mantissa * Nat.pow 10 scale.toNat

def value (p : NumberParts) : Json :=
  match p.negative, p.fraction, p.exponent, Text.digitsValue? p.whole with
  | false, none, none, some n => if n ≤ Text.wordLimit then natural n else number p.spelling
  | _, _, _, _ => number p.spelling

end NumberParts

/-- A run of at least one digit. A text that ends instead fails as `atEnd`. -/
def readDigits (atEnd : Fault) : Reader (List Char) := fun cs ↦
  match cs.takeWhile Text.isAsciiDigit with
  | [] => .error (if cs = [] then atEnd else .malformed)
  | ds => .ok (ds, cs.dropWhile Text.isAsciiDigit)

/-- The whole part of a number, without zeros in front. -/
def readWhole (atEnd : Fault) : Reader (List Char) := fun cs ↦
  match readDigits atEnd cs with
  | .ok ('0' :: _ :: _, _) => .error .malformed
  | result => result

def readFraction (atEnd : Fault) : Reader (Option (List Char))
  | '.' :: cs => (readDigits atEnd cs).map (Prod.map some id)
  | cs => .ok (none, cs)

def readExponent (atEnd : Fault) : Reader (Option (Option Char × List Char))
  | [] => .ok (none, [])
  | c :: cs =>
    if c = 'e' ∨ c = 'E' then
      let sign := cs.head?.filter fun s ↦ s = '+' || s = '-'
      let digits := if sign.isSome then cs.drop 1 else cs
      (readDigits atEnd digits).map (Prod.map (fun ds ↦ some (sign, ds)) id)
    else .ok (none, c :: cs)

/-- A number; its minus sign is read already when `negative` holds. -/
def readNumber (careful negative : Bool) : Reader Json := fun cs ↦ do
  let atEnd : Fault := if careful then .truncated else .malformed
  let (whole, cs) ← readWhole atEnd cs
  let (fraction, cs) ← readFraction atEnd cs
  let (exponent, cs) ← readExponent atEnd cs
  let parts : NumberParts := { negative, whole, fraction, exponent }
  if careful && parts.isTooLarge then .error .malformed else .ok (parts.value, cs)

/-! ## Values -/

/-- A value that is neither a list nor an object, beginning with the character `c`. -/
def readScalar (careful : Bool) (c : Char) : Reader Json := fun cs ↦
  if c = 'n' then (readWord ['u', 'l', 'l'] cs).map (Prod.map (fun _ ↦ null) id)
  else if c = 't' then (readWord ['r', 'u', 'e'] cs).map (Prod.map (fun _ ↦ bool true) id)
  else if c = 'f' then (readWord ['a', 'l', 's', 'e'] cs).map (Prod.map (fun _ ↦ bool false) id)
  else if c = '-' then readNumber careful true cs
  else if Text.isAsciiDigit c then readNumber careful false (c :: cs)
  else if c = '"' then (readString careful cs).map (Prod.map text id)
  else .error .malformed

/-- The name of a field and the colon after it. -/
def readName (careful : Bool) : Reader String := fun cs ↦
  match cs with
  | [] => .error .truncated
  | '"' :: cs => do
    let (name, cs) ← readString careful cs
    match skipBlanks cs with
    | ':' :: cs => .ok (name, cs)
    | [] => .error .truncated
    | _ => .error .malformed
  | _ => .error .malformed

mutual

/-- Any value. The fuel bounds the steps; `readValue` supplies enough for every text. -/
def readValueWith (careful : Bool) : Nat → Reader Json
  | 0, _ => .error .malformed
  | fuel + 1, cs =>
    match skipBlanks cs with
    | [] => .error .truncated
    | '[' :: cs => (readItemsWith careful fuel true cs).map (Prod.map list id)
    | '{' :: cs => (readFieldsWith careful fuel true cs).map (Prod.map object id)
    | c :: cs => readScalar careful c cs

def readItemsWith (careful : Bool) : Nat → Bool → Reader (List Json)
  | 0, _, _ => .error .malformed
  | fuel + 1, first, cs =>
    match skipBlanks cs with
    | [] => .error .truncated
    | ']' :: cs => .ok ([], cs)
    | c :: cs =>
      if first || c = ',' then do
        let (v, cs) ← readValueWith careful fuel (if first then c :: cs else cs)
        (readItemsWith careful fuel false cs).map (Prod.map (v :: ·) id)
      else .error .malformed

def readFieldsWith (careful : Bool) : Nat → Bool → Reader (List (String × Json))
  | 0, _, _ => .error .malformed
  | fuel + 1, first, cs =>
    match skipBlanks cs with
    | [] => .error .truncated
    | '}' :: cs => .ok ([], cs)
    | c :: cs =>
      if first || c = ',' then do
        let (name, cs) ← readName careful (if first then c :: cs else skipBlanks cs)
        let (v, cs) ← readValueWith careful fuel cs
        (readFieldsWith careful fuel false cs).map (Prod.map ((name, v) :: ·) id)
      else .error .malformed

end

def readValue (careful : Bool) : Reader Json := fun cs ↦
  readValueWith careful (2 * cs.length + 2) cs

/-- Reads a whole text: blanks may follow the value, and nothing else. -/
def readAll {α : Type} (reader : Reader α) (source : String) : Except Fault α := do
  let (x, rest) ← reader source.toList
  if skipBlanks rest = [] then .ok x else .error .malformed

def ofText? (source : String) : Except Fault Json :=
  readAll (readValue true) source

/-! ## Fixed forms -/

/-- The fault of meeting a value that was not expected. A scalar is read first, and may turn out
not to be JSON; a list or an object is not looked into. -/
def unexpected (cs : List Char) : Fault :=
  match cs with
  | [] => .truncated
  | '[' :: _ => .unsuitable
  | '{' :: _ => .unsuitable
  | c :: cs =>
    match readScalar true c cs with
    | .ok _ => .unsuitable
    | .error fault => fault

def expectBool : Reader Bool := fun cs ↦
  match skipBlanks cs with
  | 't' :: cs => (readWord ['r', 'u', 'e'] cs).map (Prod.map (fun _ ↦ true) id)
  | 'f' :: cs => (readWord ['a', 'l', 's', 'e'] cs).map (Prod.map (fun _ ↦ false) id)
  | cs => .error (unexpected cs)

def expectText : Reader String := fun cs ↦
  match skipBlanks cs with
  | '"' :: cs => readString true cs
  | cs => .error (unexpected cs)

/-- Passes over a value of any form. -/
def skipValue : Reader Unit := fun cs ↦
  (readValue false cs).map (Prod.map (fun _ ↦ ()) id)

/-- The fields of an object up to its brace, each handed to `step`. A step may refuse a name
before the colon; otherwise it reads the value. -/
def foldFieldsWith {σ : Type} (step : σ → String → Except Fault (Reader σ)) :
    Nat → Bool → σ → Reader σ
  | 0, _, _, _ => .error .malformed
  | fuel + 1, first, s, cs =>
    match skipBlanks cs with
    | [] => .error .truncated
    | '}' :: cs => .ok (s, cs)
    | c :: cs =>
      if first || c = ',' then
        match if first then c :: cs else skipBlanks cs with
        | '"' :: cs => do
          let (name, cs) ← readString true cs
          let value ← step s name
          match skipBlanks cs with
          | ':' :: cs =>
            let (s, cs) ← value cs
            foldFieldsWith step fuel false s cs
          | [] => .error .truncated
          | _ => .error .malformed
        | [] => .error .truncated
        | _ => .error .malformed
      else .error .malformed

/-- An object whose fields are handed to `step` in order. -/
def expectObject {σ : Type} (step : σ → String → Except Fault (Reader σ)) (s : σ) : Reader σ :=
  fun cs ↦
    match skipBlanks cs with
    | '{' :: cs => foldFieldsWith step (cs.length + 1) true s cs
    | cs => .error (unexpected cs)

/-- The front of the next item of a list, or nothing at its bracket, which stays. -/
def nextItem (first : Bool) (cs : List Char) : Except Fault (Option (List Char) × List Char) :=
  match skipBlanks cs with
  | [] => .error .truncated
  | ']' :: cs => .ok (none, ']' :: cs)
  | c :: cs =>
    if first then .ok (some (c :: cs), cs)
    else if c = ',' then
      match skipBlanks cs with
      | [] => .error .truncated
      | ']' :: _ => .error .malformed
      | cs => .ok (some cs, cs)
    else .error .malformed

/-- The next item of a list, or the given value when the list is over. -/
def itemOr {α : Type} (reader : Reader α) (first : Bool) (missing : α) : Reader α := fun cs ↦ do
  match ← nextItem first cs with
  | (some item, _) => reader item
  | (none, cs) => .ok (missing, cs)

/-- The bracket that closes a list of which no more items are wanted. -/
def endList : Reader Unit := fun cs ↦
  match skipBlanks cs with
  | [] => .error .truncated
  | ']' :: cs => .ok ((), cs)
  | _ => .error .malformed

end MasCheck.Json
