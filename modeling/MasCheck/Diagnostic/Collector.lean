import MasCheck.Diagnostic.Basic
import MasCheck.Phrase
import MasCheck.Token.Repair

/-!
# Collecting findings about form

While a unit is read, the repair of its tokens and the parser tell a collector what is wrong, and
the collector turns that into diagnostics. An open text is told twice, by a finding and by a mark;
the first of the two makes the diagnostic. Of the mismatches that begin at one offset only the
first is kept.
-/

namespace MasCheck

structure Mismatch where
  span : Span
  found : String
  expected : List String
  /-- The label of the rule at hand. -/
  context : Option String
  deriving DecidableEq, Repr

namespace Mismatch

/-- The kind and the arguments of a mismatch. Without a rule at hand, a token that fits nothing is
reported against the rule of the whole unit. -/
def finding (root : Rule) (m : Mismatch) : Kind × List String :=
  let context := m.context.map labelPhrase
  match m.expected.eraseDups, context with
  | [], _ => (.noViableAlternative, [context.getD root.phrase, m.found])
  | expected, some rule => (.inputMismatch, [rule, joinAlternatives expected, m.found])
  | expected, none => (.unexpectedInput, [joinAlternatives expected, m.found])

end Mismatch

structure Collector where
  map : SourceMap
  root : Rule
  diagnostics : List Diagnostic
  literalStarts : List Nat
  mismatchStarts : List Nat

namespace Collector

def start (map : SourceMap) (root : Rule) : Collector :=
  { map, root, diagnostics := [], literalStarts := [], mismatchStarts := [] }

def push (c : Collector) (kind : Kind) (args : List String) (span : Span) : Collector :=
  { c with diagnostics := c.diagnostics ++ [c.map.diagnostic kind args span] }

def unclosedKind : Quote → Kind
  | .double => .unclosedDouble
  | .single => .unclosedSingle

/-- Reports an open text unless one at the same offset is reported already. -/
def literal (c : Collector) (quote : Quote) (text : String) (span : Span) : Collector :=
  if span.start ∈ c.literalStarts then c
  else { c.push (unclosedKind quote) [text] span with
    literalStarts := span.start :: c.literalStarts }

/-- The text of an open literal as the source has it: without the opening mark, and without
carriage returns at its end. -/
def sourceText (c : Collector) (span : Span) : String :=
  let raw := (Text.slice? span.start span.stop c.map.source).getD []
  String.ofList (Reading.trimReturns ((Text.dropBytes? 1 raw).getD []))

def notice (c : Collector) : RepairEvent → Collector
  | .unclosed quote text span => c.literal quote text span
  | .closed quote span => c.literal quote (c.sourceText span) span
  | .stray text span => c.push .unrecognizedInput [text] span

/-- Reports a mismatch unless one at the same offset is reported already. -/
def mismatch (c : Collector) (m : Mismatch) : Collector :=
  if m.span.start ∈ c.mismatchStarts then c
  else
    let finding := m.finding c.root
    { c.push finding.1 finding.2 m.span with
      mismatchStarts := m.span.start :: c.mismatchStarts }

section

variable {c : Collector} {quote : Quote} {text : String} {span : Span} {m : Mismatch}

theorem literal_of_known (h : span.start ∈ c.literalStarts) : c.literal quote text span = c :=
  if_pos h

theorem literal_of_new (h : span.start ∉ c.literalStarts) :
    c.literal quote text span = { c.push (unclosedKind quote) [text] span with
      literalStarts := span.start :: c.literalStarts } :=
  if_neg h

theorem mismatch_of_known (h : m.span.start ∈ c.mismatchStarts) : c.mismatch m = c :=
  if_pos h

theorem mismatch_of_new (h : m.span.start ∉ c.mismatchStarts) :
    c.mismatch m = { c.push (m.finding c.root).1 (m.finding c.root).2 m.span with
      mismatchStarts := m.span.start :: c.mismatchStarts } :=
  if_neg h

end

def reported (c : Collector) : Nat :=
  c.diagnostics.length

def hasErrors (c : Collector) : Bool :=
  c.diagnostics.any Diagnostic.isError

end Collector

end MasCheck
