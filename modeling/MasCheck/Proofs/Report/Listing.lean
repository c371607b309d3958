import MasCheck.Proofs.Diagnostic.Sorting
import MasCheck.Proofs.Diagnostic.Wording
import MasCheck.Proofs.Report.Gate

/-!
# Reports list their findings by place

Findings about form are about tokens and pieces of the source, or about its end; findings about
content are about places of tokens, which are not empty, or about the whole file. So all of them
begin at characters, and sorting them by line and column lists them by offset.
-/

namespace MasCheck

open Diagnostic (sortByPosition)

/-! ## Findings about form -/

namespace UnitTree

variable {α : Type} {V : Vocabulary} {p : Parser α} {root : Rule} {file source : String}

theorem exists_span_of_mem_read {d : Diagnostic} (h : p.Tells V)
    (hd : d ∈ (read p root file source).diagnostics) :
    ∃ s, Text.IsBoundary source.toList s.start ∧
      d.position = (SourceMap.ofText file source).position s := by
  by_cases hmismatch : d.kind.isMismatch
  · rcases (mismatchesPoint_read h).pointsInto d hd hmismatch with ⟨l, hl, hspan, -⟩ | ⟨hspan, -⟩
    · exact ⟨l.span, (boundaries_tokens hl).1, hspan⟩
    · exact ⟨_, ⟨source.toList, [], (List.append_nil _).symm, rfl⟩, hspan⟩
  · rw [diagnostics_read] at hd
    have hlexical := (List.mem_append.1 hd).resolve_right fun hd ↦
      hmismatch (isMismatch_of_mem d hd)
    obtain ⟨piece, hpiece, hreported⟩ := List.mem_filterMap.1 hlexical
    have hends := boundaries_pieces ((prefix_firstPieces _ _).subset hpiece)
    exact ⟨piece.span, hends.1, piece.position_diagnostic? hreported⟩

theorem covers_read (h : p.Tells V) :
    (SourceMap.ofText file source).Covers (read p root file source).diagnostics := by
  refine ⟨fun d hd ↦ .inr (exists_span_of_mem_read h hd), fun d hd hfront ↦ ?_⟩
  obtain ⟨s, -, hspan⟩ := exists_span_of_mem_read h hd
  cases congrArg Position.span (hfront.symm.trans hspan)

end UnitTree

/-! ## Findings about content -/

theorem SourceMap.Reports.covers {file source : String} {domains : List Domain} {S : List Span}
    {ds : List Diagnostic} (h : (SourceMap.ofText file source).Reports domains S ds)
    (hS : ∀ s ∈ S, IsPlace (Repaired.ofSource source).tokens s) :
    (SourceMap.ofText file source).Covers ds := by
  refine ⟨fun d hd ↦ (h d hd).2.imp_right ?_, fun _ _ _ e he s hspan ↦ ?_⟩
  · rintro ⟨s, hs, hspan⟩
    exact ⟨s, (hS s hs).within.startBoundary, hspan⟩
  · rcases (h e he).2 with hfront | ⟨t, ht, hspan'⟩
    · cases congrArg Position.span (hfront.symm.trans hspan)
    · obtain rfl : s = t := Option.some.inj (congrArg Position.span (hspan.symm.trans hspan'))
      exact Nat.zero_lt_of_lt (hS s ht).nonempty

theorem places_tree (file source : String) :
    (∀ mas, (UnitTree.ofMas file source).tree = some mas →
      ∀ s ∈ HasSpans.spans mas, IsPlace (Repaired.ofSource source).tokens s) ∧
    ∀ script, (UnitTree.ofScript file source).tree = some script →
      ∀ s ∈ HasSpans.spans script, IsPlace (Repaired.ofSource source).tokens s := by
  refine ⟨fun mas htree s hs ↦ ?_, fun script htree s hs ↦ ?_⟩
  · have hmas := (Grammar.reads_masFile.of_parse htree).1
    exact (Loose.places_masFile (S := fun _ ↦ False) _ _ hmas s hs).resolve_left id
  · have hscript := (Grammar.reads_testScript.of_parse htree).1
    exact (Loose.places_testScript (S := fun _ ↦ False) _ _ hscript s hs).resolve_left id

/-! ## Reports -/

namespace UnitTree

variable {α : Type} {V : Vocabulary} {p : Parser α} {root : Rule} {file source : String}

theorem covers_found {analyze : α → List Diagnostic} (hform : p.Tells V)
    (hcontent : ∀ x, (read p root file source).tree = some x →
      (SourceMap.ofText file source).Covers (analyze x)) :
    (SourceMap.ofText file source).Covers ((read p root file source).found analyze) := by
  unfold found
  cases hunit : (read p root file source).usableTree? with
  | none =>
    rw [Option.elim_none, List.append_nil]
    exact covers_read hform
  | some x =>
    obtain ⟨htree, hnil⟩ := usableTree?_read_eq_some_iff.1 hunit
    rw [Option.elim_some, hnil, List.nil_append]
    exact hcontent x htree

end UnitTree

namespace Report

/-- The report is about one file and lists what was found in it. -/
structure ListsByPlace (r : Report) (file : String) (found : List Diagnostic) : Prop extends
    Diagnostic.Lists r.diagnostics found where
  file_eq : ∀ d ∈ r.diagnostics, d.position.file = file

theorem listsByPlace {r : Report} {file source : String} {found : List Diagnostic}
    (hsorted : r.diagnostics = sortByPosition found)
    (hfound : (SourceMap.ofText file source).Covers found) : r.ListsByPlace file found := by
  refine ⟨?_, fun d hd ↦ hfound.file_eq ?_⟩
  · rw [hsorted]
    exact Diagnostic.lists_sortByPosition hfound
  · rwa [hsorted, Diagnostic.mem_sortByPosition] at hd

end Report

/-- What is found in a unit, about its form or about its content, is about places of its source. -/
theorem UnitTree.covers_ofMas (file source : String) (probe : Probe) (options : Options) :
    (SourceMap.ofText file source).Covers ((ofMas file source).found fun tree ↦
      (Inquiry.analyzeMas ⟨.ofText file source, probe, options⟩ tree).diagnostics) :=
  covers_found Grammar.tells_masFile fun tree htree ↦
    (Inquiry.reports_analyzeMas ⟨.ofText file source, probe, options⟩ tree).covers
      ((places_tree file source).1 tree htree)

theorem UnitTree.covers_ofScript (file source : String) (mas : Option MasAnalysis) (probe : Probe)
    (options : Options) :
    (SourceMap.ofText file source).Covers ((ofScript file source).found fun tree ↦
      (Inquiry.analyzeScript ⟨.ofText file source, probe, options⟩ mas tree).diagnostics) :=
  covers_found Grammar.tells_testScript fun tree htree ↦
    (Inquiry.reports_analyzeScript ⟨.ofText file source, probe, options⟩ mas tree).covers
      ((places_tree file source).2 tree htree)

/-- Every report lists by place what was found, and findings at the same place in the order in
which they were made. -/
theorem reports_list_by_place (file source : String) (mas : Option MasAnalysis) (probe : Probe)
    (options : Options) :
    (Report.ofMas file source probe options).ListsByPlace file
        ((UnitTree.ofMas file source).found fun tree ↦
          (Inquiry.analyzeMas ⟨.ofText file source, probe, options⟩ tree).diagnostics) ∧
      (Report.ofScript file source mas probe options).ListsByPlace file
        ((UnitTree.ofScript file source).found fun tree ↦
          (Inquiry.analyzeScript ⟨.ofText file source, probe, options⟩ mas tree).diagnostics) := by
  constructor
  · exact Report.listsByPlace (Report.isOn_ofMas ..).diagnostics_eq (UnitTree.covers_ofMas ..)
  · exact Report.listsByPlace (Report.isOn_ofScript ..).diagnostics_eq
      (UnitTree.covers_ofScript ..)

end MasCheck
