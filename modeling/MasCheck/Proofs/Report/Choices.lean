import MasCheck.Proofs.Analysis.FindingKinds
import MasCheck.Proofs.Analysis.Probing
import MasCheck.Proofs.Analysis.TestedAgents
import MasCheck.Proofs.Analysis.UnusedFiles
import MasCheck.Proofs.Diagnostic.Sorting

/-!
# What the options decide

Whether unused agent files are reported decides about these reports and about nothing else. Whether
resources are checked decides if the probe is asked; it is asked only about paths that the unit
writes.
-/

namespace MasCheck

def Diagnostic.withoutUnused (ds : List Diagnostic) : List Diagnostic :=
  ds.filter fun d ↦ d.kind ≠ .agentFileUnused

def SymbolTable.silenced (t : SymbolTable) : SymbolTable :=
  { t with reportUnused := false }

/-- The same analysis with a table that does not report unused agent files. -/
def MasAnalysis.withoutUnused (a : MasAnalysis) : MasAnalysis :=
  { a with table := a.table.silenced }

/-- The same report, apart from the warnings about unused agent files. -/
def Report.withoutUnused (r : Report) : Report :=
  { r with diagnostics := Diagnostic.withoutUnused r.diagnostics,
           analysis := r.analysis.map MasAnalysis.withoutUnused }

/-- The same options, except that unused agent files are not reported. -/
def Options.silent (o : Options) : Options :=
  { o with reportUnused := false }

namespace Diagnostic

@[simp] theorem withoutUnused_append (ds es : List Diagnostic) :
    withoutUnused (ds ++ es) = withoutUnused ds ++ withoutUnused es :=
  List.filter_append ..

theorem withoutUnused_eq_self {ds : List Diagnostic} (h : ∀ d ∈ ds, d.kind ≠ .agentFileUnused) :
    withoutUnused ds = ds := by
  rw [withoutUnused, List.filter_eq_self]
  exact fun d hd ↦ decide_eq_true (h d hd)

theorem AreOf.withoutUnused_eq_self {kinds : List Kind} {ds : List Diagnostic}
    (h : AreOf kinds ds) (hkinds : Kind.agentFileUnused ∉ kinds) : withoutUnused ds = ds :=
  Diagnostic.withoutUnused_eq_self fun d hd hkind ↦ hkinds (hkind ▸ h d hd)

theorem withoutUnused_sortByPosition (ds : List Diagnostic) :
    withoutUnused (sortByPosition ds) = sortByPosition (withoutUnused ds) :=
  filter_sortByPosition _ ds

end Diagnostic

open Diagnostic (withoutUnused)

/-! ## Tables -/

namespace SymbolTable

theorem declare_silenced (t : SymbolTable) (s : Symbol) :
    t.silenced.declare s = (t.declare s).silenced := by
  have hfind : t.silenced.find? s.category s.name = t.find? s.category s.name := rfl
  unfold declare
  rw [hfind]
  cases t.find? s.category s.name <;> rfl

theorem declareAll_silenced {α : Type} (symbol : α → Symbol) (t : SymbolTable) (items : List α) :
    t.silenced.declareAll symbol items = (t.declareAll symbol items).silenced := by
  induction items generalizing t with
  | nil => rfl
  | cons x items ih =>
    change (t.silenced.declare (symbol x)).declareAll symbol items = _
    rw [declare_silenced, ih]
    rfl

theorem declarationFindings_silenced {α : Type} (symbol : α → Symbol)
    (findings : α → List Diagnostic) (t : SymbolTable) (items : List α) :
    t.silenced.declarationFindings symbol findings items =
      t.declarationFindings symbol findings items := by
  induction items generalizing t with
  | nil => rfl
  | cons x items ih =>
    rw [declarationFindings, declare_silenced, ih]
    rfl

/-- The findings about uses come first and are none of the warnings. -/
theorem findings_silenced (t : SymbolTable) : t.silenced.findings = withoutUnused t.findings := by
  have hundeclared : withoutUnused (t.graph.undeclared.filterMap Use.undeclared?) =
      t.graph.undeclared.filterMap Use.undeclared? := by
    refine Diagnostic.withoutUnused_eq_self fun d hd ↦ ?_
    obtain ⟨u, -, hd⟩ := List.mem_filterMap.1 hd
    obtain ⟨kind, hkind, rfl⟩ := Option.map_eq_some_iff.1 hd
    have hkinds : ∀ c : Category, c.undeclaredKind? ≠ some .agentFileUnused := by
      rintro (_ | _ | _ | _) <;> decide
    exact fun h ↦ hkinds u.category (hkind.trans (congrArg some h))
  have hunused : withoutUnused ((t.graph.unused .agentFile).map fun s ↦
      .of .agentFileUnused [s.shown] s.position) = [] := by
    rw [withoutUnused, List.filter_eq_nil_iff]
    intro d hd
    obtain ⟨s, -, rfl⟩ := List.mem_map.1 hd
    simp [Diagnostic.of, Diagnostic.ofCatalog]
  have hrest : withoutUnused (if t.reportUnused then (t.graph.unused .agentFile).map fun s ↦
      .of .agentFileUnused [s.shown] s.position else []) = [] := by
    split
    · exact hunused
    · rfl
  unfold findings
  rw [Diagnostic.withoutUnused_append, hundeclared, hrest]
  rfl

end SymbolTable

/-! ## Analyses -/

namespace Inquiry

variable (map : SourceMap) (p : Probe) (o : Options)

theorem masTable_silent (mas : MasFile) :
    masTable ⟨map, p, o.silent⟩ mas = (masTable ⟨map, p, o⟩ mas).silenced := by
  change ((({ SymbolTable.empty map.file with reportUnused := o.reportUnused }.silenced.declareAll
    (initSymbol ⟨map, p, o⟩) (initEntries mas)).declareAll (agentFileSymbol ⟨map, p, o⟩)
      mas.agentFiles).referAll (mas.components.map (launchUse ⟨map, p, o⟩))) = _
  rw [SymbolTable.declareAll_silenced, SymbolTable.declareAll_silenced]
  rfl

theorem environmentFindings_silent (t : SymbolTable) (mas : MasFile) :
    environmentFindings ⟨map, p, o.silent⟩ t.silenced mas =
      environmentFindings ⟨map, p, o⟩ t mas := by
  unfold environmentFindings
  cases mas.environment with
  | none => rfl
  | some env =>
    dsimp only
    rw [SymbolTable.declarationFindings_silenced]
    rfl

theorem agentFileDeclarations_silent (t : SymbolTable) (fs : List (Located AgentFile)) :
    t.silenced.declarationFindings (agentFileSymbol ⟨map, p, o.silent⟩)
        (agentFileFindings ⟨map, p, o.silent⟩) fs =
      t.declarationFindings (agentFileSymbol ⟨map, p, o⟩) (agentFileFindings ⟨map, p, o⟩) fs := by
  have hfindings : ∀ f ∈ fs,
      agentFileFindings ⟨map, p, o.silent⟩ f = agentFileFindings ⟨map, p, o⟩ f := by
    intro f _
    unfold agentFileFindings
    rw [parameterFindings_eq_of_map_eq ⟨map, p, o.silent⟩ ⟨map, p, o⟩ rfl]
    rfl
  rw [SymbolTable.declarationFindings_silenced,
    SymbolTable.declarationFindings_congr_findings hfindings]
  rfl

theorem diagnostics_analyzeMas_silent (mas : MasFile) :
    (analyzeMas ⟨map, p, o.silent⟩ mas).diagnostics =
      withoutUnused (analyzeMas ⟨map, p, o⟩ mas).diagnostics := by
  let table := { SymbolTable.empty map.file with reportUnused := o.reportUnused }
  let withInit := table.declareAll (initSymbol ⟨map, p, o⟩) (initEntries mas)
  have hinit : table.silenced.declareAll (initSymbol ⟨map, p, o.silent⟩) (initEntries mas) =
      withInit.silenced := SymbolTable.declareAll_silenced ..
  have hpolicy := policyFindings_eq_of_map_eq ⟨map, p, o.silent⟩ ⟨map, p, o⟩ rfl mas
  have henvironment := (areOf_environmentFindings ⟨map, p, o⟩ table mas).withoutUnused_eq_self
    (by decide)
  have hfiles := (areOf_agentFileDeclarations ⟨map, p, o⟩ withInit mas.agentFiles
    ).withoutUnused_eq_self (by decide)
  have hrules := (areOf_policyFindings ⟨map, p, o⟩ mas).withoutUnused_eq_self (by decide)
  calc (analyzeMas ⟨map, p, o.silent⟩ mas).diagnostics
    _ = environmentFindings ⟨map, p, o.silent⟩ table.silenced mas ++
        (table.silenced.declareAll (initSymbol ⟨map, p, o.silent⟩)
          (initEntries mas)).declarationFindings (agentFileSymbol ⟨map, p, o.silent⟩)
            (agentFileFindings ⟨map, p, o.silent⟩) mas.agentFiles ++
        policyFindings ⟨map, p, o.silent⟩ mas ++
        (masTable ⟨map, p, o.silent⟩ mas).findings := rfl
    _ = environmentFindings ⟨map, p, o⟩ table mas ++
        withInit.declarationFindings (agentFileSymbol ⟨map, p, o⟩)
          (agentFileFindings ⟨map, p, o⟩) mas.agentFiles ++
        policyFindings ⟨map, p, o⟩ mas ++ withoutUnused (masTable ⟨map, p, o⟩ mas).findings := by
      rw [environmentFindings_silent, hinit, agentFileDeclarations_silent, hpolicy,
        masTable_silent, SymbolTable.findings_silenced]
    _ = withoutUnused (analyzeMas ⟨map, p, o⟩ mas).diagnostics := by
      conv_lhs => rw [← henvironment, ← hfiles, ← hrules]
      simp only [← Diagnostic.withoutUnused_append]
      rfl

/-- Beside its findings an analysis holds the table and what it says of agents. -/
theorem analyzeMas_silent (mas : MasFile) :
    (analyzeMas ⟨map, p, o.silent⟩ mas).withoutFindings =
      (analyzeMas ⟨map, p, o⟩ mas).withoutFindings.withoutUnused := by
  have htable : (analyzeMas ⟨map, p, o.silent⟩ mas).table =
      (analyzeMas ⟨map, p, o⟩ mas).table.silenced := masTable_silent map p o mas
  unfold MasAnalysis.withoutFindings MasAnalysis.withoutUnused
  rw [htable]
  rfl

/-- Of the analysis of a MAS file a script is told the names of agents only. -/
theorem analyzeScript_withoutUnused (q : Inquiry) (mas : Option MasAnalysis) (script : TestScript) :
    (q.analyzeScript (mas.map MasAnalysis.withoutUnused) script).diagnostics =
      (q.analyzeScript mas script).diagnostics := by
  have hadmits : MasAnalysis.admits (mas.map MasAnalysis.withoutUnused) =
      MasAnalysis.admits mas := by
    cases mas <;> rfl
  rw [diagnostics_analyzeScript, diagnostics_analyzeScript, unknownFindings, unknownFindings,
    hadmits]

end Inquiry

/-! ## Reports -/

theorem UnitTree.withoutUnused_read {α : Type} (parser : Parser α) (root : Rule)
    (file source : String) : withoutUnused (read parser root file source).diagnostics =
      (read parser root file source).diagnostics := by
  refine Diagnostic.withoutUnused_eq_self fun d hd hkind ↦ ?_
  cases (congrArg Kind.domain hkind).symm.trans (domain_of_mem_read hd)

theorem Inquiry.withoutUnused_analyzeScript (q : Inquiry) (mas : Option MasAnalysis)
    (script : TestScript) : withoutUnused (q.analyzeScript mas script).diagnostics =
      (q.analyzeScript mas script).diagnostics := by
  refine Diagnostic.withoutUnused_eq_self fun d hd hkind ↦ ?_
  have hdomain := (q.reports_analyzeScript mas script d hd).1
  rw [hkind] at hdomain
  revert hdomain
  decide

namespace Report

variable (file source : String) (mas : Option MasAnalysis) (p : Probe) (o : Options)

theorem withoutUnused_unread {ds : List Diagnostic} (h : Diagnostic.withoutUnused ds = ds) :
    (unread file ds).withoutUnused = unread file ds := by
  unfold unread withoutUnused
  rw [Diagnostic.withoutUnused_sortByPosition, h]
  rfl

theorem ofMas_silent :
    ofMas file source p o.silent = (ofMas file source p o).withoutUnused := by
  have hform : Diagnostic.withoutUnused (UnitTree.ofMas file source).diagnostics =
      (UnitTree.ofMas file source).diagnostics := UnitTree.withoutUnused_read ..
  unfold ofMas
  dsimp only
  cases (UnitTree.ofMas file source).usableTree? with
  | none => exact (withoutUnused_unread file hform).symm
  | some tree =>
    unfold withoutUnused
    dsimp only
    rw [Inquiry.analyzeMas_silent, Inquiry.diagnostics_analyzeMas_silent,
      Diagnostic.withoutUnused_sortByPosition, Diagnostic.withoutUnused_append, hform]
    rfl

theorem ofScript_silent : ofScript file source mas p o.silent = ofScript file source mas p o := by
  unfold ofScript
  dsimp only
  cases (UnitTree.ofScript file source).usableTree? <;> rfl

/-- No warnings of the kind are in a report about a script. -/
theorem withoutUnused_ofScript :
    (ofScript file source mas p o).withoutUnused = ofScript file source mas p o := by
  have hform : Diagnostic.withoutUnused (UnitTree.ofScript file source).diagnostics =
      (UnitTree.ofScript file source).diagnostics := UnitTree.withoutUnused_read ..
  unfold ofScript
  dsimp only
  cases (UnitTree.ofScript file source).usableTree? with
  | none => exact withoutUnused_unread file hform
  | some script =>
    unfold withoutUnused
    dsimp only
    rw [Diagnostic.withoutUnused_sortByPosition, Diagnostic.withoutUnused_append, hform,
      Inquiry.withoutUnused_analyzeScript]
    rfl

theorem ofScript_withoutUnused :
    ofScript file source (mas.map MasAnalysis.withoutUnused) p o =
      ofScript file source mas p o := by
  unfold ofScript
  dsimp only
  cases (UnitTree.ofScript file source).usableTree? with
  | none => rfl
  | some script =>
    dsimp only
    rw [Inquiry.analyzeScript_withoutUnused]

/-- Without checks of resources the probe is not asked. Without reports of unused agent files these
warnings are missing and nothing else. A probe that is asked is asked about the paths of the
unit. -/
theorem choices_confined (file source : String) (mas : Option MasAnalysis) :
    (∀ (p p' : Probe) (o : Options), o.checkResources = false →
      ofMas file source p o = ofMas file source p' o ∧
        ofScript file source mas p o = ofScript file source mas p' o) ∧
    (∀ (p : Probe) (o : Options),
      ofMas file source p o.silent = (ofMas file source p o).withoutUnused ∧
        ofScript file source mas p o.silent = (ofScript file source mas p o).withoutUnused ∧
        ofScript file source (mas.map MasAnalysis.withoutUnused) p o.silent =
          (ofScript file source mas p o).withoutUnused) ∧
    ∀ (p p' : Probe) (o : Options),
      ((∀ path ∈ (UnitTree.ofMas file source).usableTree?.elim [] MasFile.paths,
          p.AgreesAt p' path) →
        ofMas file source p o = ofMas file source p' o) ∧
      ((∀ path ∈ (UnitTree.ofScript file source).usableTree?.elim [] TestScript.paths,
          p.AgreesAt p' path) →
        ofScript file source mas p o = ofScript file source mas p' o) := by
  refine ⟨fun p p' o hoffline ↦ ?_, fun p o ↦ ?_, fun p p' o ↦ ?_⟩
  · have hunchecked : ∀ {P : Prop}, o.checkResources = true → P :=
      fun hcheck ↦ absurd hcheck (Bool.eq_false_iff.1 hoffline)
    exact ⟨ofMas_congr hunchecked, ofScript_congr hunchecked⟩
  · rw [withoutUnused_ofScript, ofScript_withoutUnused]
    exact ⟨ofMas_silent .., ofScript_silent .., ofScript_silent ..⟩
  · exact ⟨fun h ↦ ofMas_congr fun _ ↦ h, fun h ↦ ofScript_congr fun _ ↦ h⟩

/-! ## Two probes -/

/-- Every file is there and is an archive. -/
def fullProbe : Probe :=
  ⟨fun _ ↦ true, fun _ _ ↦ .ok zipSignature⟩

/-- Nothing is there but what `sharedPath` and `twoTests` mention. -/
def sparseProbe : Probe :=
  ⟨fun path ↦ path = "b.goal" || path = "m",
    fun path _ ↦ if path = "b.goal" || path = "m" then .ok zipSignature else .error (.missing path)⟩

theorem choices_confined_sharedPath :
    (ofMas "m" sharedPath fullProbe .offline = ofMas "m" sharedPath ⟨fun _ ↦ false,
        fun path _ ↦ .error (.missing path)⟩ .offline) ∧
      ofMas "m" sharedPath fullProbe .standard = ofMas "m" sharedPath sparseProbe .standard ∧
      ofScript "t" twoTests (some launchesA) fullProbe .standard =
        ofScript "t" twoTests (some launchesA) sparseProbe .standard := by
  have hmas : ∀ path ∈ (UnitTree.ofMas "m" sharedPath).usableTree?.elim [] MasFile.paths,
      fullProbe.AgreesAt sparseProbe path := by
    rw [usableTree?_sharedPath]
    intro path hpath
    have hpath : path ∈ ["b.goal", "b.goal"] := hpath
    obtain rfl : path = "b.goal" := by simpa using hpath
    exact ⟨rfl, fun _ ↦ rfl⟩
  have hscript : ∀ path ∈ (UnitTree.ofScript "t" twoTests).usableTree?.elim [] TestScript.paths,
      fullProbe.AgreesAt sparseProbe path := by
    rw [usableTree?_twoTests]
    intro path hpath
    obtain rfl := List.mem_singleton.1 hpath
    exact ⟨rfl, fun _ ↦ rfl⟩
  exact ⟨((choices_confined "m" sharedPath none).1 fullProbe _ .offline rfl).1,
    ((choices_confined "m" sharedPath none).2.2 fullProbe sparseProbe .standard).1 hmas,
    ((choices_confined "t" twoTests (some launchesA)).2.2 fullProbe sparseProbe .standard).2
      hscript⟩

end Report

end MasCheck
