import MasCheck.Report

/-!
# What is asked of a probe

The checks ask a probe only about paths that the unit writes, and about these only if resources are
to be checked. So probes that answer alike about these paths lead to the same findings.
-/

namespace MasCheck

/-- The probes say the same about a path. -/
structure Probe.AgreesAt (p p' : Probe) (path : String) : Prop where
  isPresent : p.isPresent path = p'.isPresent path
  firstBytes : ∀ n, p.firstBytes path n = p'.firstBytes path n

theorem Probe.AgreesAt.isArchive {p p' : Probe} {path : String} (h : p.AgreesAt p' path) :
    p.isArchive path = p'.isArchive path := by
  rw [Probe.isArchive, Probe.isArchive, h.firstBytes]

/-- The paths that a MAS file writes: that of the archive of its environment, and those of its agent
files. -/
def MasFile.paths (mas : MasFile) : List String :=
  (mas.environment.elim [] fun env ↦ [env.node.archive.node]) ++
    mas.agentFiles.map fun f ↦ f.node.path.node

def TestScript.paths (script : TestScript) : List String :=
  [script.mas.node]

theorem SymbolTable.declarationFindings_congr_findings {α : Type} {t : SymbolTable}
    {symbol : α → Symbol} {findings findings' : α → List Diagnostic} {items : List α}
    (h : ∀ x ∈ items, findings x = findings' x) :
    t.declarationFindings symbol findings items =
      t.declarationFindings symbol findings' items := by
  induction items generalizing t with
  | nil => rfl
  | cons x items ih =>
    obtain ⟨hx, hitems⟩ := List.forall_mem_cons.1 h
    rw [declarationFindings, declarationFindings, hx, ih hitems]

namespace Inquiry

/-! ## Checks that ask nothing -/

section

variable (q q' : Inquiry)

theorem parameterFindings_eq_of_map_eq (h : q.map = q'.map) (path : String) (seen : List String)
    (ps : List (Located Parameter)) :
    q.parameterFindings path seen ps = q'.parameterFindings path seen ps := by
  induction ps generalizing seen with
  | nil => rfl
  | cons p ps ih => simp only [parameterFindings, finding, h, ih]

theorem constraintFindings_eq_of_map_eq (h : q.map = q'.map) (seen : List ConstraintWord)
    (cs : List (Located Constraint)) :
    q.constraintFindings seen cs = q'.constraintFindings seen cs := by
  induction cs generalizing seen with
  | nil => rfl
  | cons c cs ih => simp only [constraintFindings, finding, h, ih]

theorem policyFindings_eq_of_map_eq (h : q.map = q'.map) (mas : MasFile) :
    q.policyFindings mas = q'.policyFindings mas := by
  have hrule : ∀ hasEnvironment,
      q.ruleFindings hasEnvironment = q'.ruleFindings hasEnvironment := by
    intro hasEnvironment
    funext rule
    simp only [ruleFindings, conditionFindings, componentFindings, finding, h,
      constraintFindings_eq_of_map_eq q q' h]
  simp only [policyFindings, finding, h, hrule]

end

/-! ## Checks of paths -/

variable {map : SourceMap} {p p' : Probe} {o : Options}

theorem lacks_congr {path : String} (h : o.checkResources = true → p.AgreesAt p' path) :
    lacks ⟨map, p, o⟩ path = lacks ⟨map, p', o⟩ path := by
  unfold lacks
  cases hcheck : o.checkResources with
  | false => rfl
  | true => rw [(h hcheck).isPresent]

theorem archiveFindings_congr {path : Located String}
    (h : o.checkResources = true → p.AgreesAt p' path.node) :
    archiveFindings ⟨map, p, o⟩ path = archiveFindings ⟨map, p', o⟩ path := by
  unfold archiveFindings
  rw [lacks_congr h]
  cases hcheck : o.checkResources with
  | false => simp [finding]
  | true => simp [finding, (h hcheck).isArchive]

theorem agentPathFindings_congr {path : Located String}
    (h : o.checkResources = true → p.AgreesAt p' path.node) :
    agentPathFindings ⟨map, p, o⟩ path = agentPathFindings ⟨map, p', o⟩ path := by
  unfold agentPathFindings
  rw [lacks_congr h]
  rfl

theorem masPathFindings_congr {path : Located String}
    (h : o.checkResources = true → p.AgreesAt p' path.node) :
    masPathFindings ⟨map, p, o⟩ path = masPathFindings ⟨map, p', o⟩ path := by
  unfold masPathFindings
  rw [lacks_congr h]
  rfl

theorem environmentFindings_congr {table : SymbolTable} {mas : MasFile}
    (h : o.checkResources = true → ∀ path ∈ mas.paths, p.AgreesAt p' path) :
    environmentFindings ⟨map, p, o⟩ table mas = environmentFindings ⟨map, p', o⟩ table mas := by
  unfold environmentFindings
  cases henv : mas.environment with
  | none => rfl
  | some env =>
    have hpath : env.node.archive.node ∈ mas.paths := by simp [MasFile.paths, henv]
    dsimp only
    rw [archiveFindings_congr fun hcheck ↦ h hcheck _ hpath]
    rfl

theorem agentFileFindings_congr {mas : MasFile}
    (h : o.checkResources = true → ∀ path ∈ mas.paths, p.AgreesAt p' path) {f : Located AgentFile}
    (hf : f ∈ mas.agentFiles) :
    agentFileFindings ⟨map, p, o⟩ f = agentFileFindings ⟨map, p', o⟩ f := by
  have hpath : f.node.path.node ∈ mas.paths :=
    List.mem_append_right _ (List.mem_map_of_mem hf)
  unfold agentFileFindings
  rw [agentPathFindings_congr fun hcheck ↦ h hcheck _ hpath,
    parameterFindings_eq_of_map_eq ⟨map, p, o⟩ ⟨map, p', o⟩ rfl]

theorem analyzeMas_congr {mas : MasFile}
    (h : o.checkResources = true → ∀ path ∈ mas.paths, p.AgreesAt p' path) :
    analyzeMas ⟨map, p, o⟩ mas = analyzeMas ⟨map, p', o⟩ mas := by
  unfold analyzeMas
  dsimp only
  rw [environmentFindings_congr h, policyFindings_eq_of_map_eq ⟨map, p, o⟩ ⟨map, p', o⟩ rfl,
    SymbolTable.declarationFindings_congr_findings fun f hf ↦ agentFileFindings_congr h hf]
  rfl

theorem analyzeScript_congr {mas : Option MasAnalysis} {script : TestScript}
    (h : o.checkResources = true → ∀ path ∈ script.paths, p.AgreesAt p' path) :
    analyzeScript ⟨map, p, o⟩ mas script = analyzeScript ⟨map, p', o⟩ mas script := by
  unfold analyzeScript
  dsimp only
  rw [masPathFindings_congr fun hcheck ↦ h hcheck _ (List.mem_singleton_self _)]
  rfl

end Inquiry

namespace Report

variable {file source : String} {p p' : Probe} {o : Options}

theorem ofMas_congr (h : o.checkResources = true →
      ∀ path ∈ (UnitTree.ofMas file source).usableTree?.elim [] MasFile.paths,
        p.AgreesAt p' path) :
    ofMas file source p o = ofMas file source p' o := by
  unfold ofMas
  dsimp only
  cases htree : (UnitTree.ofMas file source).usableTree? with
  | none => rfl
  | some mas =>
    rw [htree] at h
    dsimp only
    rw [Inquiry.analyzeMas_congr h]

theorem ofScript_congr {mas : Option MasAnalysis} (h : o.checkResources = true →
      ∀ path ∈ (UnitTree.ofScript file source).usableTree?.elim [] TestScript.paths,
        p.AgreesAt p' path) :
    ofScript file source mas p o = ofScript file source mas p' o := by
  unfold ofScript
  dsimp only
  cases htree : (UnitTree.ofScript file source).usableTree? with
  | none => rfl
  | some script =>
    rw [htree] at h
    dsimp only
    rw [Inquiry.analyzeScript_congr h]

end Report

end MasCheck
