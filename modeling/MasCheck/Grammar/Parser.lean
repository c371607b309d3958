import MasCheck.Grammar.Rule
import MasCheck.Phrase
import MasCheck.Token.Basic

/-!
# Parsers over tokens

A parser reads tokens from a cursor. It succeeds with a value and a later cursor, or it fails, and
then whoever called it goes on from a cursor of its own. Whether it succeeds and where it stops
depends on the tokens alone.

Beside that, a parser keeps notes on the furthest failure seen so far: where it happened, what
could have stood there and what did. This pending failure is reported if the parse as a whole
fails. Recovery turns a pending failure into an emitted one and lets the parse go on. The notes
also hold how many tokens have been looked at.
-/

namespace MasCheck

inductive Notion
  | identifier
  | string
  | number
  | parameterName
  | agentName
  | entityName
  | constraintWord
  deriving DecidableEq, Repr

inductive Label
  | rule (r : Rule)
  | notion (n : Notion)
  deriving DecidableEq, Repr

/-- What could have stood at a failure. The last two have no name. -/
inductive Expectation
  | token (t : Token)
  | label (l : Label)
  | endOfInput
  | anyToken
  | other
  deriving DecidableEq, Repr

structure Failure where
  span : Span
  expected : List Expectation
  found : Option Token
  /-- The rules around the failure, the innermost first. -/
  contexts : List Label
  deriving DecidableEq, Repr

structure Pending where
  index : Nat
  failure : Failure
  deriving DecidableEq, Repr

structure Notes where
  pending : Option Pending
  /-- The number of tokens looked at, the end counted as one more. -/
  reach : Nat
  deriving DecidableEq, Repr

structure Cursor where
  index : Nat
  rest : List Lexeme
  lastStop : Nat
  finish : Nat
  deriving DecidableEq, Repr

structure Outcome (α : Type) where
  value : Option α
  cursor : Cursor
  notes : Notes
  /-- The failures that recovery has passed over since the parser began. -/
  emitted : List Failure

/-- A parser, from its cursor and the notes so far. -/
def Parser (α : Type) :=
  Cursor → Notes → Outcome α

namespace Notion

def text : Notion → String
  | identifier => "identifier"
  | string => "string"
  | number => "number"
  | parameterName => "parameter name"
  | agentName => "agent name"
  | entityName => "entity name"
  | constraintWord => "'name', 'type' or 'max'"

end Notion

namespace Label

def text : Label → String
  | rule r => r.name
  | notion n => n.text

end Label

namespace Expectation

def phrase? : Expectation → Option String
  | token (.operator text) => some ("'" ++ text ++ "'")
  | token t => some t.terminal.phrase
  | label l => some (labelPhrase l.text)
  | endOfInput => some endOfFilePhrase
  | anyToken => none
  | other => none

def union (xs ys : List Expectation) : List Expectation :=
  ys.foldl (fun acc y ↦ if y ∈ acc then acc else acc ++ [y]) xs

end Expectation

namespace Failure

def within (label : Label) (f : Failure) : Failure :=
  if label ∈ f.contexts then f else { f with contexts := f.contexts ++ [label] }

end Failure

namespace Pending

/-- A new failure beside an old one. The one further on stays; at the same token the old one
stays and takes over what the new one expected. -/
def add (new : Pending) : Option Pending → Pending
  | none => new
  | some old =>
    if old.index = new.index then
      { old with failure := { old.failure with
          expected := Expectation.union old.failure.expected new.failure.expected
          found := old.failure.found.or new.failure.found } }
    else if old.index < new.index then new
    else old

/-- Puts back a failure that was set apart. Unlike in `add`, the longer list of expectations
comes first. -/
def merge (new : Pending) : Option Pending → Pending
  | none => new
  | some old =>
    if old.index = new.index then
      let olds := old.failure.expected
      let news := new.failure.expected
      { old with failure := { old.failure with
          expected := if olds.length < news.length then Expectation.union news olds
            else Expectation.union olds news } }
    else if old.index < new.index then new
    else old

/-- What a label makes of a failure of the labelled parser, which began at the token `start`: a
failure right there is named by the label, and a later one is put into the context of the rule. -/
def relabel (start : Nat) (label : Label) (isRule : Bool) (p : Pending) : Pending :=
  if p.index = start then { p with failure := { p.failure with expected := [.label label] } }
  else if isRule && start < p.index then { p with failure := p.failure.within label }
  else p

end Pending

namespace Notes

def start : Notes :=
  { pending := none, reach := 0 }

def clear (n : Notes) : Notes :=
  { n with pending := none }

def withPending (n : Notes) (pending : Option Pending) : Notes :=
  { n with pending }

def look (n : Notes) (index : Nat) : Notes :=
  { n with reach := max n.reach (index + 1) }

def add (n : Notes) (p : Pending) : Notes :=
  { n with pending := some (p.add n.pending) }

end Notes

namespace Cursor

def start (tokens : List Lexeme) (finish : Nat) : Cursor :=
  { index := 0, rest := tokens, lastStop := 0, finish }

def nextSpan (c : Cursor) : Span :=
  match c.rest with
  | l :: _ => l.span
  | [] => ⟨c.finish, c.finish⟩

def failure (c : Cursor) (expected : Expectation) : Pending :=
  { index := c.index
    failure :=
      { span := c.nextSpan
        expected := [expected]
        found := c.rest.head?.map Lexeme.token
        contexts := [] } }

def after (c : Cursor) (l : Lexeme) (ls : List Lexeme) : Cursor :=
  { c with index := c.index + 1, rest := ls, lastStop := l.span.stop }

def spanTo (c d : Cursor) : Span :=
  match c.rest with
  | l :: _ => ⟨l.span.start, d.lastStop⟩
  | [] => ⟨c.finish, c.finish⟩

end Cursor

namespace Outcome

variable {α β : Type}

def done (x : α) (c : Cursor) (n : Notes) : Outcome α :=
  { value := some x, cursor := c, notes := n, emitted := [] }

def failed (c : Cursor) (n : Notes) : Outcome α :=
  { value := none, cursor := c, notes := n, emitted := [] }

def map (f : α → β) (o : Outcome α) : Outcome β :=
  { value := o.value.map f, cursor := o.cursor, notes := o.notes, emitted := o.emitted }

def after (before : List Failure) (o : Outcome α) : Outcome α :=
  { o with emitted := before ++ o.emitted }

end Outcome

namespace Parser

variable {α β : Type}

protected def pure (x : α) : Parser α :=
  fun c n ↦ .done x c n

protected def bind (p : Parser α) (f : α → Parser β) : Parser β := fun c n ↦
  let a := p c n
  match a.value with
  | none => { value := none, cursor := a.cursor, notes := a.notes, emitted := a.emitted }
  | some x => (f x a.cursor a.notes).after a.emitted

instance : Monad Parser where
  pure := Parser.pure
  bind := Parser.bind

def token (atToken atEnd : Expectation) (f : Token → Option α) : Parser α := fun c n ↦
  match c.rest with
  | [] => .failed c ((n.look c.index).add (c.failure atEnd))
  | l :: ls =>
    match f l.token with
    | some x => .done x (c.after l ls) (n.look c.index)
    | none => .failed c ((n.look c.index).add (c.failure atToken))

def exactly (t : Token) : Parser Unit :=
  token (.token t) (.token t) fun u ↦ if u = t then some () else none

def keyword (word : Keyword) : Parser Unit :=
  exactly (.keyword word)

def sign (s : Sign) : Parser Unit :=
  exactly (.sign s)

/-- A token that the function accepts, without a name for it. -/
def select (f : Token → Option α) : Parser α :=
  token .other .other f

def tokenWhere (test : Token → Bool) : Parser Token :=
  token .other .anyToken fun t ↦ if test t then some t else none

def endOfInput : Parser Unit := fun c n ↦
  match c.rest with
  | [] => .done () c (n.look c.index)
  | _ :: _ => .failed c ((n.look c.index).add (c.failure .endOfInput))

/-- The first parser, or the second one from the same place when the first fails. -/
def or (p q : Parser α) : Parser α := fun c n ↦
  let a := p c n
  match a.value with
  | some _ => a
  | none => q c a.notes

/-- The parser's value, or none where it fails. -/
def optional (p : Parser α) : Parser (Option α) := fun c n ↦
  let a := p c n
  match a.value with
  | some _ => a.map some
  | none => .done none c a.notes

/-- As many values as there are. A repetition that takes no token ends it. -/
def many (p : Parser α) : Parser (List α) := fun c n ↦
  let a := p c n
  match a.value with
  | none => .done [] c a.notes
  | some x =>
    if a.cursor.rest.length < c.rest.length then
      ((many p a.cursor a.notes).map (x :: ·)).after a.emitted
    else .done [] c a.notes
termination_by c => c.rest.length

def many₁ (p : Parser α) : Parser (List α) := do
  let x ← p
  let xs ← many p
  return x :: xs

def moreAfterCommas (p : Parser α) : Parser (List α) :=
  many do
    sign .comma
    p

def separated₁ (p : Parser α) : Parser (List α) := do
  let x ← p
  let xs ← moreAfterCommas p
  return x :: xs

def separated (p : Parser α) : Parser (List α) := do
  let xs ← optional (separated₁ p)
  return xs.getD []

def between (opening closing : Sign) (p : Parser α) : Parser α := do
  sign opening
  let x ← p
  sign closing
  return x

/-- The value with the place of the tokens it was read from. -/
def located (p : Parser α) : Parser (Located α) := fun c n ↦
  let a := p c n
  a.map fun x ↦ ⟨x, c.spanTo a.cursor⟩

/-- Gives failures of the parser a label. The pending failure is set apart meanwhile. -/
def labelledWith (label : Label) (isRule : Bool) (p : Parser α) : Parser α := fun c n ↦
  let a := p c n.clear
  let pending := match a.notes.pending with
    | none => n.pending
    | some new => some ((new.relabel c.index label isRule).merge n.pending)
  { a with
    notes := a.notes.withPending pending
    emitted := if isRule then a.emitted.map (Failure.within label) else a.emitted }

def labelled (notion : Notion) (p : Parser α) : Parser α :=
  labelledWith (.notion notion) false p

/-- A rule whose name is only a label. -/
def named (r : Rule) (p : Parser α) : Parser α :=
  labelledWith (.rule r) false p

/-- A rule that is also the context of failures inside. -/
def rule (r : Rule) (p : Parser α) : Parser α :=
  labelledWith (.rule r) true p

structure Parsed (α : Type) where
  tree : Option α
  failures : List Failure
  /-- The number of tokens looked at. -/
  reach : Nat

def parse (p : Parser α) (tokens : List Lexeme) (finish : Nat) : Parsed α :=
  let whole : Parser α := do
    let x ← p
    endOfInput
    return x
  let a := whole (.start tokens finish) .start
  let last := if a.value.isNone then a.notes.pending.toList.map Pending.failure else []
  { tree := a.value, failures := a.emitted ++ last, reach := a.notes.reach }

end Parser

end MasCheck
