import MasCheck.Diagnostic.Catalog
import MasCheck.Source.Map

/-!
# Findings

A diagnostic is a finding at its position, with the message that the catalog in use renders from
its arguments. Reports list diagnostics by position; those at the same place keep their order.
-/

namespace MasCheck

structure Diagnostic where
  kind : Kind
  args : List String
  message : String
  position : Position
  deriving DecidableEq, Repr

namespace Diagnostic

def ofCatalog (catalog : Catalog) (kind : Kind) (args : List String) (position : Position) :
    Diagnostic :=
  { kind, args, message := catalog.render kind args, position }

/-- A diagnostic with its standard message. -/
def of (kind : Kind) (args : List String) (position : Position) : Diagnostic :=
  ofCatalog .standard kind args position

def severity (d : Diagnostic) : Severity :=
  d.kind.severity

def isError (d : Diagnostic) : Bool :=
  d.severity = .error

def isWarning (d : Diagnostic) : Bool :=
  d.severity = .warning

def text (d : Diagnostic) : String :=
  d.position.text ++ ": " ++ d.severity.text ++ " [" ++ d.kind.id ++ "]: " ++ d.message

/-- Lexicographic order of lists of numbers of one length. -/
def lexLe : List Nat → List Nat → Bool
  | [], _ => true
  | _ :: _, [] => false
  | a :: as, b :: bs => a < b || (a = b && lexLe as bs)

/-- What decides the order within a file: line, column, and the end of the span. -/
def sortKey (d : Diagnostic) : List Nat :=
  [d.position.line, d.position.column, d.position.spanStop]

/-- The order of reports: by file, then by place. -/
def le (a b : Diagnostic) : Bool :=
  a.position.file < b.position.file ||
    (a.position.file = b.position.file && lexLe a.sortKey b.sortKey)

def sortByPosition (ds : List Diagnostic) : List Diagnostic :=
  ds.mergeSort le

def errorCount (ds : List Diagnostic) : Nat :=
  ds.countP isError

def warningCount (ds : List Diagnostic) : Nat :=
  ds.countP isWarning

end Diagnostic

namespace SourceMap

def diagnostic (m : SourceMap) (kind : Kind) (args : List String) (span : Span) : Diagnostic :=
  .of kind args (m.position span)

end SourceMap

end MasCheck
