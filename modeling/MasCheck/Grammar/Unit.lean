import MasCheck.Diagnostic.Collector
import MasCheck.Grammar.Mas
import MasCheck.Grammar.Script

/-!
# Reading a unit

A unit is one source. Its tokens are repaired as far as the parser looks at them, by groups of
`groupSize`, and what the repair finds is reported before the failures of the parser. A tree may
be found in spite of failures; only a unit without any finding is usable.
-/

namespace MasCheck

def groupSize : Nat := 512

/-- The number of tokens repaired when `reach` tokens have been looked at. -/
def repairedCount (reach : Nat) : Nat :=
  (reach + groupSize - 1) / groupSize * groupSize

namespace Failure

def mismatch (f : Failure) : Mismatch :=
  { span := f.span
    found := foundPhrase f.found
    expected := f.expected.filterMap Expectation.phrase?
    context := f.contexts.head?.map Label.text }

end Failure

structure UnitTree (α : Type) where
  /-- The tree, complete or not, if there is one. -/
  tree : Option α
  diagnostics : List Diagnostic

namespace UnitTree

variable {α : Type}

def usable (u : UnitTree α) : Bool :=
  u.tree.isSome && !u.diagnostics.any Diagnostic.isError

/-- The tree of a unit without findings. -/
def usableTree? (u : UnitTree α) : Option α :=
  if u.usable then u.tree else none

def read (p : Parser α) (root : Rule) (file source : String) : UnitTree α :=
  let map := SourceMap.ofText file source
  let found := pieces (lex source)
  let parsed := p.parse (found.filterMap Piece.lexeme?) (Text.byteLength map.source)
  let events := (firstPieces (repairedCount parsed.reach) found).flatMap Piece.events
  let collector := events.foldl Collector.notice (.start map root)
  let collector := (parsed.failures.map Failure.mismatch).foldl Collector.mismatch collector
  { tree := parsed.tree, diagnostics := collector.diagnostics }

def ofMas (file source : String) : UnitTree MasFile :=
  read Grammar.masFile .masFile file source

def ofScript (file source : String) : UnitTree TestScript :=
  read Grammar.testScript .testScript file source

end UnitTree

end MasCheck
