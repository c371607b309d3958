import MasCheck.Diagnostic.Collector

/-!
# Handing findings on

A relay makes the same diagnostics as a collector and keeps none of them: each goes to a receiver
as soon as it is made. What has been handed on is counted, and the errors among it.
-/

namespace MasCheck

structure Relay (σ : Type) where
  map : SourceMap
  root : Rule
  receiver : σ
  reported : Nat
  errors : Nat
  literalStarts : List Nat
  mismatchStarts : List Nat

namespace Relay

variable {σ : Type} (receive : σ → Diagnostic → σ)

def start (map : SourceMap) (root : Rule) (receiver : σ) : Relay σ :=
  { map, root, receiver, reported := 0, errors := 0, literalStarts := [], mismatchStarts := [] }

def push (r : Relay σ) (kind : Kind) (args : List String) (span : Span) : Relay σ :=
  let diagnostic := r.map.diagnostic kind args span
  { r with
    receiver := receive r.receiver diagnostic
    reported := r.reported + 1
    errors := if diagnostic.isError then r.errors + 1 else r.errors }

def literal (r : Relay σ) (quote : Quote) (text : String) (span : Span) : Relay σ :=
  if span.start ∈ r.literalStarts then r
  else { r.push receive (Collector.unclosedKind quote) [text] span with
    literalStarts := span.start :: r.literalStarts }

def notice (r : Relay σ) : RepairEvent → Relay σ
  | .unclosed quote text span => r.literal receive quote text span
  | .closed quote span =>
    r.literal receive quote ((Collector.start r.map r.root).sourceText span) span
  | .stray text span => r.push receive .unrecognizedInput [text] span

def mismatch (r : Relay σ) (m : Mismatch) : Relay σ :=
  if m.span.start ∈ r.mismatchStarts then r
  else
    let finding := m.finding r.root
    { r.push receive finding.1 finding.2 m.span with
      mismatchStarts := m.span.start :: r.mismatchStarts }

def hasErrors (r : Relay σ) : Bool :=
  0 < r.errors

end Relay

end MasCheck
