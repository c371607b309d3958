import MasCheck.Proofs.Analysis.Sites
import MasCheck.Proofs.Diagnostic.Collected
import MasCheck.Proofs.Diagnostic.Relayed
import MasCheck.Report

/-!
# Form before content

A unit with a finding about its form is not analyzed, and one without is. However a unit is read,
into a list, for a receiver or strictly, and whether it is then reported on, the answer is the same.
-/

namespace MasCheck

theorem Kind.domain_of_isLexical {k : Kind} (h : k.isLexical) : k.domain = .form := by
  cases k <;> first | rfl | cases h

theorem Kind.domain_of_isMismatch {k : Kind} (h : k.isMismatch) : k.domain = .form := by
  cases k <;> first | rfl | cases h

theorem Diagnostic.mem_sortByPosition {d : Diagnostic} {ds : List Diagnostic} :
    d ∈ sortByPosition ds ↔ d ∈ ds :=
  List.mem_mergeSort

/-! ## Ways of reading a unit -/

namespace UnitTree

variable {σ α : Type} {p : Parser α} {root : Rule} {file source : String}

theorem domain_of_mem_read {d : Diagnostic} (hd : d ∈ (read p root file source).diagnostics) :
    d.kind.domain = .form := by
  rw [diagnostics_read] at hd
  rcases List.mem_append.1 hd with hd | hd
  · exact Kind.domain_of_isLexical (isLexical_of_mem hd)
  · exact Kind.domain_of_isMismatch (isMismatch_of_mem d hd)

theorem usable_read_iff (h : p.Explains) :
    (read p root file source).usable = true ↔ (read p root file source).diagnostics = [] := by
  constructor
  · intro husable
    have hnone := (Bool.and_eq_true_iff.1 husable).2
    refine List.eq_nil_iff_forall_not_mem.2 fun d hd ↦ ?_
    rw [Bool.not_eq_true', List.any_eq_false] at hnone
    exact hnone d hd (isError_of_mem_read hd)
  · intro hnil
    by_contra husable
    obtain ⟨d, hd, -⟩ := exists_error_of_not_usable h (if_neg husable)
    rw [hnil] at hd
    cases hd

theorem usableTree?_read_eq_some_iff {x : α} : (read p root file source).usableTree? = some x ↔
    (read p root file source).tree = some x ∧ (read p root file source).diagnostics = [] :=
  usableTree?_eq_some_iff _ fun _ hd ↦ isError_of_mem_read hd

/-- A receiver, the answer to its caller, and the answer to a strict caller tell the same. -/
structure Consistent (u : UnitTree α) (receive : σ → Diagnostic → σ) (receiver : σ)
    (answer : Delivery σ α) : Prop where
  received : answer.receiver = u.diagnostics.foldl receive receiver
  counted : answer.diagnosticCount = u.diagnostics.length
  usable_iff : answer.usable = true ↔ u.diagnostics = []
  accepted_iff : (∃ x, u.accepted = .ok x) ↔ u.diagnostics = []
  tree_of_accepted : ∀ x, u.accepted = .ok x → answer.tree = some x

theorem accepted_eq_ok_iff {u : UnitTree α} {x : α} :
    u.accepted = .ok x ↔ u.usable = true ∧ u.tree = some x := by
  unfold accepted
  cases u.tree with
  | none => simp
  | some y => cases u.usable <;> simp

theorem consistent_deliver (h : p.Explains) (receive : σ → Diagnostic → σ) (receiver : σ) :
    (read p root file source).Consistent receive receiver
      (deliver receive receiver p root file source) := by
  rw [deliver_eq]
  refine ⟨rfl, rfl, usable_read_iff h, ?_, fun x hx ↦ (accepted_eq_ok_iff.1 hx).2⟩
  rw [← usable_read_iff h]
  constructor
  · rintro ⟨x, hx⟩
    exact (accepted_eq_ok_iff.1 hx).1
  · intro husable
    obtain ⟨x, hx⟩ := Option.isSome_iff_exists.1 (Bool.and_eq_true_iff.1 husable).1
    exact ⟨x, accepted_eq_ok_iff.2 ⟨husable, hx⟩⟩

end UnitTree

/-! ## Reports -/

/-- What is found about form, and after it what a usable tree is found to say. -/
def UnitTree.found {α : Type} (u : UnitTree α) (analyze : α → List Diagnostic) : List Diagnostic :=
  u.diagnostics ++ u.usableTree?.elim [] analyze

namespace Report

/-- The report is about this unit, which is analyzed if it is usable. -/
structure IsOn {α : Type} (r : Report) (u : UnitTree α) (analyze : α → List Diagnostic) :
    Prop where
  diagnostics_eq : r.diagnostics = Diagnostic.sortByPosition (u.found analyze)
  analyzed_eq : r.analyzed = u.usableTree?.isSome
  analysis_eq_none : u.usableTree? = none → r.analysis = none

/-- A report on an analyzed unit is about content, in the domains of the unit. Any other report is
about form; it has errors and nothing else. -/
structure Gated (r : Report) (domains : List Domain) : Prop where
  analyzed_iff : r.analyzed = true ↔ ∀ d ∈ r.diagnostics, d.kind.domain ≠ .form
  content : r.analyzed = true → ∀ d ∈ r.diagnostics, d.kind.domain ∈ domains
  form : r.analyzed = false → r.diagnostics ≠ [] ∧
    (∀ d ∈ r.diagnostics, d.kind.domain = .form ∧ d.isError = true) ∧
    r.analysis = none ∧ r.isSuccess = false

section

variable {α : Type} {p : Parser α} {root : Rule} {file source : String} {domains : List Domain}
  {r : Report} {analyze : α → List Diagnostic}

theorem IsOn.gated_of_none (hr : r.IsOn (UnitTree.read p root file source) analyze)
    (h : p.Explains) (hnone : (UnitTree.read p root file source).usableTree? = none) :
    r.Gated domains := by
  have hanalyzed : r.analyzed = false := by rw [hr.analyzed_eq, hnone, Option.isSome_none]
  have hmem : ∀ d, d ∈ r.diagnostics ↔ d ∈ (UnitTree.read p root file source).diagnostics := by
    intro d
    rw [hr.diagnostics_eq, Diagnostic.mem_sortByPosition, UnitTree.found, hnone, Option.elim_none,
      List.append_nil]
  obtain ⟨d, hd, herror⟩ := UnitTree.exists_error_of_not_usable h hnone
  have hd' := (hmem d).2 hd
  refine ⟨⟨?_, fun hforms ↦ ?_⟩, ?_, fun _ ↦ ?_⟩
  · rw [hanalyzed]
    nofun
  · exact absurd (UnitTree.domain_of_mem_read hd) (hforms d hd')
  · rw [hanalyzed]
    nofun
  · refine ⟨List.ne_nil_of_mem hd', fun e he ↦ ?_, hr.analysis_eq_none hnone, ?_⟩
    · have he' := (hmem e).1 he
      exact ⟨UnitTree.domain_of_mem_read he', UnitTree.isError_of_mem_read he'⟩
    · have hcount : 0 < r.errorCount := List.countP_pos_iff.2 ⟨d, hd', herror⟩
      exact decide_eq_false (Nat.ne_of_gt hcount)

theorem IsOn.gated_of_some {x : α} (hr : r.IsOn (UnitTree.read p root file source) analyze)
    (hforms : Domain.form ∉ domains) (hx : ∀ d ∈ analyze x, d.kind.domain ∈ domains)
    (hsome : (UnitTree.read p root file source).usableTree? = some x) : r.Gated domains := by
  have hanalyzed : r.analyzed = true := by rw [hr.analyzed_eq, hsome, Option.isSome_some]
  have hcontent : ∀ d ∈ r.diagnostics, d.kind.domain ∈ domains := by
    intro d hd
    rw [hr.diagnostics_eq, Diagnostic.mem_sortByPosition, UnitTree.found, hsome, Option.elim_some,
      (UnitTree.usableTree?_read_eq_some_iff.1 hsome).2, List.nil_append] at hd
    exact hx d hd
  refine ⟨⟨fun _ d hd hform ↦ hforms (hform ▸ hcontent d hd), fun _ ↦ hanalyzed⟩,
    fun _ ↦ hcontent, ?_⟩
  rw [hanalyzed]
  nofun

theorem IsOn.gated (hr : r.IsOn (UnitTree.read p root file source) analyze) (h : p.Explains)
    (hforms : Domain.form ∉ domains) (hcontent : ∀ x, ∀ d ∈ analyze x, d.kind.domain ∈ domains) :
    r.Gated domains := by
  cases hunit : (UnitTree.read p root file source).usableTree? with
  | none => exact hr.gated_of_none h hunit
  | some x => exact hr.gated_of_some hforms (hcontent x) hunit

end

theorem isOn_ofMas (file source : String) (probe : Probe) (options : Options) :
    (ofMas file source probe options).IsOn (UnitTree.ofMas file source) fun tree ↦
      (Inquiry.analyzeMas ⟨.ofText file source, probe, options⟩ tree).diagnostics := by
  unfold ofMas
  dsimp only
  split
  · next hnone =>
    refine ⟨?_, by rw [hnone]; rfl, fun _ ↦ rfl⟩
    rw [UnitTree.found, hnone, Option.elim_none, List.append_nil]
    rfl
  · next tree htree =>
    refine ⟨?_, by rw [htree]; rfl, fun hnone ↦ ?_⟩
    · rw [UnitTree.found, htree, Option.elim_some]
    · cases htree.symm.trans hnone

theorem isOn_ofScript (file source : String) (mas : Option MasAnalysis) (probe : Probe)
    (options : Options) :
    (ofScript file source mas probe options).IsOn (UnitTree.ofScript file source) fun tree ↦
      (Inquiry.analyzeScript ⟨.ofText file source, probe, options⟩ mas tree).diagnostics := by
  unfold ofScript
  dsimp only
  split
  · next hnone =>
    refine ⟨?_, by rw [hnone]; rfl, fun _ ↦ rfl⟩
    rw [UnitTree.found, hnone, Option.elim_none, List.append_nil]
    rfl
  · next tree htree =>
    refine ⟨?_, by rw [htree]; rfl, fun _ ↦ rfl⟩
    rw [UnitTree.found, htree, Option.elim_some]

end Report

/-- Findings about form decide, in every way of reading a unit and in every report, whether there
is anything to say about content. -/
theorem form_gates_content (file source : String) (mas : Option MasAnalysis) (probe : Probe)
    (options : Options) :
    (∀ (σ : Type) (receive : σ → Diagnostic → σ) (receiver : σ),
      (UnitTree.ofMas file source).Consistent receive receiver
          (UnitTree.deliverMas receive receiver file source) ∧
        (UnitTree.ofScript file source).Consistent receive receiver
          (UnitTree.deliverScript receive receiver file source)) ∧
      (Report.ofMas file source probe options).Gated masDomains ∧
      (Report.ofScript file source mas probe options).Gated scriptDomains := by
  have hmas := Grammar.realizes_masFile.explains
  have hscript := Grammar.realizes_testScript.explains
  refine ⟨fun σ receive receiver ↦ ⟨?_, ?_⟩, ?_, ?_⟩
  · exact UnitTree.consistent_deliver hmas receive receiver
  · exact UnitTree.consistent_deliver hscript receive receiver
  · exact (Report.isOn_ofMas file source probe options).gated hmas (by decide)
      fun tree d hd ↦ (Inquiry.reports_analyzeMas _ tree d hd).1
  · exact (Report.isOn_ofScript file source mas probe options).gated hscript (by decide)
      fun tree d hd ↦ (Inquiry.reports_analyzeScript _ mas tree d hd).1

end MasCheck
