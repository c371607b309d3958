import MasCheck.Analysis.Script
import MasCheck.Grammar.Unit

/-!
# Reports

A report is what there is to say about one file, ordered by place. The analysis looks only at files
that read without a finding.
-/

namespace MasCheck

structure Report where
  file : String
  diagnostics : List Diagnostic
  analyzed : Bool
  /-- The analysis of a MAS file, for the scripts that test it. -/
  analysis : Option MasAnalysis

/-- What is left of an analysis when a report has taken its findings. -/
def MasAnalysis.withoutFindings (a : MasAnalysis) : MasAnalysis :=
  { a with diagnostics := [] }

namespace Report

def errorCount (r : Report) : Nat :=
  Diagnostic.errorCount r.diagnostics

def warningCount (r : Report) : Nat :=
  Diagnostic.warningCount r.diagnostics

def isSuccess (r : Report) : Bool :=
  r.errorCount = 0

def unread (file : String) (diagnostics : List Diagnostic) : Report :=
  { file, diagnostics := Diagnostic.sortByPosition diagnostics, analyzed := false,
    analysis := none }

def ofMas (file source : String) (probe : Probe) (options : Options) : Report :=
  let unit := UnitTree.ofMas file source
  match unit.usableTree? with
  | none => unread file unit.diagnostics
  | some mas =>
    let analysis := Inquiry.analyzeMas ⟨.ofText file source, probe, options⟩ mas
    { file
      diagnostics := Diagnostic.sortByPosition (unit.diagnostics ++ analysis.diagnostics)
      analyzed := true
      analysis := some analysis.withoutFindings }

/-- The report on a test script. Without the analysis of a MAS file, tested agents are not
checked. -/
def ofScript (file source : String) (mas : Option MasAnalysis) (probe : Probe)
    (options : Options) : Report :=
  let unit := UnitTree.ofScript file source
  match unit.usableTree? with
  | none => unread file unit.diagnostics
  | some script =>
    let analysis := Inquiry.analyzeScript ⟨.ofText file source, probe, options⟩ mas script
    { file
      diagnostics := Diagnostic.sortByPosition (unit.diagnostics ++ analysis.diagnostics)
      analyzed := true
      analysis := none }

end Report

end MasCheck
