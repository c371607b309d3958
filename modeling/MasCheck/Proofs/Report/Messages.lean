import MasCheck.Proofs.Analysis.Findings
import MasCheck.Proofs.Diagnostic.Templates
import MasCheck.Proofs.Diagnostic.Wording
import MasCheck.Proofs.Report.Gate

/-!
# Messages of reports

Every check gives its findings as many arguments as their templates ask for, so that no report shows
a template that is not filled in.
-/

namespace MasCheck

open Diagnostic (isFilled_of)

/-! ## Findings about form -/

namespace UnitTree

variable {α : Type} {p : Parser α} {root : Rule} {file source : String}

theorem isFilled_mismatch (map : SourceMap) (root : Rule) (m : Mismatch) :
    (Collector.mismatchDiagnostic map root m).IsFilled := by
  unfold Collector.mismatchDiagnostic
  rcases m.finding_cases root with ⟨-, h⟩ | ⟨-, ⟨label, -, h⟩ | ⟨-, h⟩⟩
  all_goals
    rw [h]
    exact isFilled_of _ rfl

theorem isFilled_piece {map : SourceMap} {piece : Piece} {d : Diagnostic}
    (h : piece.diagnostic? map = some d) : d.IsFilled := by
  cases piece with
  | sound l => cases h
  | closed quote text span =>
    obtain rfl := Option.some.inj h
    cases quote <;> exact isFilled_of _ rfl
  | stray text span =>
    obtain rfl := Option.some.inj h
    exact isFilled_of _ rfl

theorem isFilled_of_mem_read : ∀ d ∈ (read p root file source).diagnostics, d.IsFilled := by
  rw [diagnostics_read]
  refine List.forall_mem_append.2 ⟨fun d hd ↦ ?_, List.forall_mem_map.2 fun m _ ↦ ?_⟩
  · obtain ⟨piece, -, hpiece⟩ := List.mem_filterMap.1 hd
    exact isFilled_piece hpiece
  · exact isFilled_mismatch _ root m

end UnitTree

/-! ## Findings about content -/

theorem SymbolTable.isFilled_findings {t : SymbolTable} : ∀ d ∈ t.findings, d.IsFilled := by
  intro d hd
  rcases mem_findings hd with ⟨⟨category, target, position, context⟩, -, hd⟩ | ⟨s, -, -, rfl⟩
  · obtain ⟨kind, hkind, rfl⟩ := Option.map_eq_some_iff.1 hd
    cases category with
    | agentFile =>
      obtain rfl := Option.some.inj hkind
      exact isFilled_of _ rfl
    | initKey => cases hkind
    | agent =>
      obtain rfl := Option.some.inj hkind
      exact isFilled_of _ rfl
    | agentTest => cases hkind
  · exact isFilled_of _ rfl

namespace Inquiry

variable (q : Inquiry)

theorem isFilled_analyzeMas (mas : MasFile) :
    ∀ d ∈ (q.analyzeMas mas).diagnostics, d.IsFilled := by
  intro d hd
  rcases mem_analyzeMas_cases hd with hfinding | hd
  · cases hfinding <;> exact isFilled_of _ rfl
  · exact SymbolTable.isFilled_findings d hd

theorem isFilled_analyzeScript (mas : Option MasAnalysis) (script : TestScript) :
    ∀ d ∈ (q.analyzeScript mas script).diagnostics, d.IsFilled := by
  intro d hd
  rcases mem_analyzeScript_cases hd with rfl | ⟨_, -, rfl⟩ | ⟨_, -, _, rfl⟩ | hd
  · exact isFilled_of _ rfl
  · exact isFilled_of _ rfl
  · exact isFilled_of _ rfl
  · exact SymbolTable.isFilled_findings d hd

end Inquiry

/-! ## Reports -/

theorem Report.IsOn.forall_isFilled {α : Type} {p : Parser α} {root : Rule} {file source : String}
    {r : Report} {analyze : α → List Diagnostic}
    (hr : r.IsOn (UnitTree.read p root file source) analyze)
    (h : ∀ x, ∀ d ∈ analyze x, d.IsFilled) : ∀ d ∈ r.diagnostics, d.IsFilled := by
  intro d hd
  rw [hr.diagnostics_eq, Diagnostic.mem_sortByPosition] at hd
  rcases List.mem_append.1 hd with hd | hd
  · exact UnitTree.isFilled_of_mem_read d hd
  · cases hunit : (UnitTree.read p root file source).usableTree? with
    | none =>
      rw [hunit] at hd
      cases hd
    | some x =>
      rw [hunit] at hd
      exact h x d hd

/-- Whatever a report says, it says in a template that is filled in. -/
theorem reports_are_filled (file source : String) (mas : Option MasAnalysis) (probe : Probe)
    (options : Options) :
    (∀ d ∈ (Report.ofMas file source probe options).diagnostics, d.IsFilled) ∧
      ∀ d ∈ (Report.ofScript file source mas probe options).diagnostics, d.IsFilled :=
  ⟨(Report.isOn_ofMas ..).forall_isFilled fun tree ↦ Inquiry.isFilled_analyzeMas _ tree,
    (Report.isOn_ofScript ..).forall_isFilled fun tree ↦ Inquiry.isFilled_analyzeScript _ mas tree⟩

end MasCheck
