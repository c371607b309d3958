import MasCheck.Proofs.Analysis.Findings

/-!
# Which check finds which kinds

Every kind of finding about a MAS file belongs to one part of the analysis. The findings of one
kind are therefore those of its part, and the other parts need not be looked at.
-/

namespace MasCheck

/-! ## Findings of one kind -/

namespace Diagnostic

def ofKind (kind : Kind) (ds : List Diagnostic) : List Diagnostic :=
  ds.filter fun d ↦ d.kind = kind

section

variable {kind : Kind}

@[simp] theorem ofKind_nil : ofKind kind [] = [] := rfl

@[simp] theorem ofKind_cons (d : Diagnostic) (ds : List Diagnostic) :
    ofKind kind (d :: ds) = if d.kind = kind then d :: ofKind kind ds else ofKind kind ds := by
  simp [ofKind, List.filter_cons]

@[simp] theorem ofKind_append (ds es : List Diagnostic) :
    ofKind kind (ds ++ es) = ofKind kind ds ++ ofKind kind es :=
  List.filter_append ..

@[simp] theorem ofKind_flatMap {α : Type} (f : α → List Diagnostic) (xs : List α) :
    ofKind kind (xs.flatMap f) = xs.flatMap fun x ↦ ofKind kind (f x) :=
  List.filter_flatMap

end

/-- All findings are of the kinds listed. -/
def AreOf (kinds : List Kind) (ds : List Diagnostic) : Prop :=
  ∀ d ∈ ds, d.kind ∈ kinds

section

variable {kinds : List Kind}

@[simp] theorem areOf_nil : AreOf kinds [] :=
  nofun

@[simp] theorem areOf_cons {d : Diagnostic} {ds : List Diagnostic} :
    AreOf kinds (d :: ds) ↔ d.kind ∈ kinds ∧ AreOf kinds ds :=
  List.forall_mem_cons

@[simp] theorem areOf_append {ds es : List Diagnostic} :
    AreOf kinds (ds ++ es) ↔ AreOf kinds ds ∧ AreOf kinds es :=
  List.forall_mem_append

theorem AreOf.ofKind_eq_nil {ds : List Diagnostic} (h : AreOf kinds ds) {kind : Kind}
    (hkind : kind ∉ kinds) : ofKind kind ds = [] := by
  rw [ofKind, List.filter_eq_nil_iff]
  intro d hd
  rw [decide_eq_true_eq]
  rintro rfl
  exact hkind (h d hd)

end

end Diagnostic

open Diagnostic (ofKind AreOf)

/-! ## The kinds of each check -/

/-- The kinds of findings about second declarations. -/
def repeatedKinds : List Kind :=
  [.initKeyRepeated, .agentFileNameRepeated, .agentRepeated]

def archiveKinds : List Kind :=
  [.environmentMissing, .environmentNotArchive, .resourceUnreadable]

def environmentKinds : List Kind :=
  archiveKinds ++ [.initKeyRepeated, .environmentRepeated]

def agentPathKinds : List Kind :=
  [.agentFileExtension, .agentFileMissing]

def parameterKinds : List Kind :=
  [.agentFileParameterUnknown, .agentFileParameterRepeated]

def agentFileKinds : List Kind :=
  agentPathKinds ++ parameterKinds ++ [.agentFileNameRepeated]

def conditionKinds : List Kind :=
  [.conditionWithoutEnvironment, .constraintRepeated, .constraintNumberInvalid]

def componentKinds : List Kind :=
  [.wildcardUnconditional, .launchNumberInvalid]

def policyKinds : List Kind :=
  .launchPolicyEmpty :: (conditionKinds ++ componentKinds)

/-- The kinds of findings from the comparison of uses with declarations. -/
def comparisonKinds : List Kind :=
  [.agentFileUndeclared, .agentUnknown, .agentFileUnused]

theorem Category.mem_repeatedKinds {c : Category} {kind : Kind} (h : kind ∈ c.repeatedKind?) :
    kind ∈ repeatedKinds := by
  cases c <;> cases h <;> decide

theorem Category.mem_comparisonKinds {c : Category} {kind : Kind}
    (h : c.undeclaredKind? = some kind) : kind ∈ comparisonKinds := by
  cases c <;> cases h <;> decide

namespace SymbolTable

variable {t : SymbolTable}

theorem areOf_findings : AreOf comparisonKinds t.findings := by
  intro d hd
  rcases mem_findings hd with ⟨u, -, hd⟩ | ⟨s, -, -, rfl⟩
  · obtain ⟨kind, hkind, rfl⟩ := Option.map_eq_some_iff.1 hd
    exact Category.mem_comparisonKinds hkind
  · exact List.mem_of_getElem? (show comparisonKinds[2]? = some .agentFileUnused from rfl)

/-- Kinds that are not about second declarations are those of the items. -/
theorem ofKind_declarationFindings {α : Type} {symbol : α → Symbol}
    {findings : α → List Diagnostic} {items : List α} {kind : Kind} (hkind : kind ∉ repeatedKinds) :
    ofKind kind (t.declarationFindings symbol findings items) =
      items.flatMap fun x ↦ ofKind kind (findings x) := by
  have hrepeated : ∀ (t : SymbolTable) (s : Symbol),
      ofKind kind ((t.repetition? s).toList.map Repetition.diagnostic) = [] := by
    intro t s
    refine AreOf.ofKind_eq_nil ?_ hkind
    intro d hd
    obtain ⟨r, hr, rfl⟩ := List.mem_map.1 hd
    obtain ⟨kind, hkind, first, hr⟩ := diagnostic_of_repetition (Option.mem_toList.1 hr)
    rw [hr]
    exact Category.mem_repeatedKinds hkind
  induction items generalizing t with
  | nil => rfl
  | cons x items ih => simp [declarationFindings, hrepeated, ih]

end SymbolTable

namespace Inquiry

variable (q : Inquiry) {mas : MasFile}

@[simp] theorem kind_finding (kind : Kind) (args : List String) (span : Span) :
    (q.finding kind args span).kind = kind := rfl

theorem ofKind_map_finding {α : Type} (kind kind' : Kind) (args : α → List String)
    (span : α → Span) (xs : List α) :
    ofKind kind (xs.map fun x ↦ q.finding kind' (args x) (span x)) =
      if kind' = kind then xs.map fun x ↦ q.finding kind' (args x) (span x) else [] := by
  induction xs with
  | nil => simp
  | cons x xs ih =>
    rw [List.map_cons, Diagnostic.ofKind_cons, ih, kind_finding]
    split <;> rfl

theorem areOf_archiveFindings (path : Located String) :
    AreOf archiveKinds (q.archiveFindings path) := by
  unfold archiveFindings archiveKinds
  dsimp only
  split
  · simp
  · split
    · simp
    · split
      · split <;> simp
      · simp

theorem areOf_environmentFindings (table : SymbolTable) (mas : MasFile) :
    AreOf environmentKinds (q.environmentFindings table mas) := by
  intro d hd
  unfold environmentFindings at hd
  split at hd
  · exact absurd hd List.not_mem_nil
  · rcases List.mem_append.1 hd with hd | hd
    · rcases List.mem_append.1 hd with hd | hd
      · exact List.mem_append_left _ (q.areOf_archiveFindings _ d hd)
      · rcases SymbolTable.mem_declarationFindings hd with
          ⟨_, -, hd⟩ | ⟨entry, -, kind, hkind, first, rfl⟩
        · exact absurd hd List.not_mem_nil
        · obtain rfl := Option.some.inj hkind
          exact List.mem_append_right _ List.mem_cons_self
    · obtain ⟨span, -, rfl⟩ := List.mem_map.1 hd
      exact List.mem_append_right _ (List.mem_cons_of_mem _ List.mem_cons_self)

theorem areOf_agentPathFindings (path : Located String) :
    AreOf agentPathKinds (q.agentPathFindings path) := by
  unfold agentPathFindings agentPathKinds
  dsimp only
  split
  · simp
  · split <;> simp

theorem areOf_parameterFindings (path : String) (seen : List String)
    (ps : List (Located Parameter)) : AreOf parameterKinds (q.parameterFindings path seen ps) := by
  induction ps generalizing seen with
  | nil => exact Diagnostic.areOf_nil
  | cons p ps ih =>
    unfold parameterFindings
    dsimp only
    split
    · exact Diagnostic.areOf_cons.2 ⟨List.mem_cons_self, ih seen⟩
    · split
      · exact Diagnostic.areOf_cons.2 ⟨List.mem_cons_of_mem _ List.mem_cons_self, ih seen⟩
      · exact ih _

theorem areOf_agentFileDeclarations (table : SymbolTable) (fs : List (Located AgentFile)) :
    AreOf agentFileKinds (table.declarationFindings q.agentFileSymbol q.agentFileFindings fs) := by
  intro d hd
  unfold agentFileKinds
  rcases SymbolTable.mem_declarationFindings hd with
    ⟨f, -, hd⟩ | ⟨f, -, kind, hkind, first, rfl⟩
  · refine List.mem_append_left _ (List.mem_append.2 ?_)
    exact (List.mem_append.1 hd).imp (q.areOf_agentPathFindings _ d)
      (q.areOf_parameterFindings _ _ _ d)
  · obtain rfl := Option.some.inj hkind
    exact List.mem_append_right _ List.mem_cons_self

theorem areOf_constraintFindings (seen : List ConstraintWord) (cs : List (Located Constraint)) :
    AreOf [.constraintRepeated, .constraintNumberInvalid] (q.constraintFindings seen cs) := by
  induction cs generalizing seen with
  | nil => exact Diagnostic.areOf_nil
  | cons c cs ih =>
    unfold constraintFindings
    dsimp only
    split
    · simp [ih]
    · split <;> simp [ih]

theorem areOf_conditionFindings (hasEnvironment : Bool) (rule : Located LaunchRule) :
    AreOf conditionKinds (q.conditionFindings hasEnvironment rule) := by
  unfold conditionFindings conditionKinds
  split
  · exact Diagnostic.areOf_nil
  · rw [Diagnostic.areOf_append]
    constructor
    · split <;> simp
    · split
      · exact fun d hd ↦ List.mem_cons_of_mem _ (q.areOf_constraintFindings _ _ d hd)
      · exact Diagnostic.areOf_nil

theorem areOf_componentFindings (conditional : Bool) (c : LaunchComponent) :
    AreOf componentKinds (q.componentFindings conditional c) := by
  unfold componentFindings componentKinds
  rw [Diagnostic.areOf_append]
  constructor
  · split <;> simp
  · split
    · split <;> simp
    · exact Diagnostic.areOf_nil

theorem areOf_policyFindings (mas : MasFile) : AreOf policyKinds (q.policyFindings mas) := by
  intro d hd
  unfold policyFindings at hd
  split at hd
  · obtain rfl := List.mem_singleton.1 hd
    exact List.mem_cons_self
  · split at hd
    · obtain rfl := List.mem_singleton.1 hd
      exact List.mem_cons_self
    · obtain ⟨rule, -, hd⟩ := List.mem_flatMap.1 hd
      refine List.mem_cons_of_mem _ (List.mem_append.2 ?_)
      rcases List.mem_append.1 hd with hd | hd
      · exact .inl (q.areOf_conditionFindings _ _ d hd)
      · obtain ⟨c, -, hd⟩ := List.mem_flatMap.1 hd
        exact .inr (q.areOf_componentFindings _ _ d hd)

/-- Each kind is found by one part of the analysis at most. -/
theorem separateKinds :
    (∀ kind ∈ environmentKinds, kind ∉ agentFileKinds ∧ kind ∉ policyKinds ∧
      kind ∉ comparisonKinds) ∧
    (∀ kind ∈ agentFileKinds, kind ∉ environmentKinds ∧ kind ∉ policyKinds ∧
      kind ∉ comparisonKinds) ∧
    (∀ kind ∈ policyKinds, kind ∉ environmentKinds ∧ kind ∉ agentFileKinds ∧
      kind ∉ comparisonKinds) := by
  decide

/-- The table of a MAS file before anything is declared. -/
def emptyTable : SymbolTable :=
  { SymbolTable.empty q.map.file with reportUnused := q.options.reportUnused }

theorem ofKind_analyzeMas_of_environment (mas : MasFile) {kind : Kind}
    (hkind : kind ∈ environmentKinds) :
    ofKind kind (q.analyzeMas mas).diagnostics =
      ofKind kind (q.environmentFindings q.emptyTable mas) := by
  obtain ⟨hfiles, hpolicy, hcomparison⟩ := separateKinds.1 kind hkind
  unfold analyzeMas emptyTable
  simp only [Diagnostic.ofKind_append, (q.areOf_agentFileDeclarations _ _).ofKind_eq_nil hfiles,
    (q.areOf_policyFindings mas).ofKind_eq_nil hpolicy,
    SymbolTable.areOf_findings.ofKind_eq_nil hcomparison, List.append_nil]

/-- The findings about agent files are made while these are declared behind the init keys. -/
theorem ofKind_analyzeMas_of_declaration (mas : MasFile) {kind : Kind}
    (hkind : kind ∈ agentFileKinds) :
    ofKind kind (q.analyzeMas mas).diagnostics =
      ofKind kind ((q.emptyTable.declareAll q.initSymbol (initEntries mas)).declarationFindings
        q.agentFileSymbol q.agentFileFindings mas.agentFiles) := by
  obtain ⟨henvironment, hpolicy, hcomparison⟩ := separateKinds.2.1 kind hkind
  unfold analyzeMas emptyTable
  simp only [Diagnostic.ofKind_append,
    (q.areOf_environmentFindings _ mas).ofKind_eq_nil henvironment,
    (q.areOf_policyFindings mas).ofKind_eq_nil hpolicy,
    SymbolTable.areOf_findings.ofKind_eq_nil hcomparison, List.append_nil, List.nil_append]

theorem ofKind_analyzeMas_of_agentFile {kind : Kind} (hkind : kind ∈ agentFileKinds)
    (hrepeated : kind ∉ repeatedKinds) :
    ofKind kind (q.analyzeMas mas).diagnostics =
      mas.agentFiles.flatMap fun f ↦ ofKind kind (q.agentFileFindings f) := by
  rw [q.ofKind_analyzeMas_of_declaration mas hkind,
    SymbolTable.ofKind_declarationFindings hrepeated]

theorem ofKind_analyzeMas_of_policy {kind : Kind} (hkind : kind ∈ policyKinds) :
    ofKind kind (q.analyzeMas mas).diagnostics = ofKind kind (q.policyFindings mas) := by
  obtain ⟨henvironment, hfiles, hcomparison⟩ := separateKinds.2.2 kind hkind
  unfold analyzeMas
  simp only [Diagnostic.ofKind_append,
    (q.areOf_environmentFindings _ mas).ofKind_eq_nil henvironment,
    (q.areOf_agentFileDeclarations _ _).ofKind_eq_nil hfiles,
    SymbolTable.areOf_findings.ofKind_eq_nil hcomparison, List.append_nil, List.nil_append]

end Inquiry

end MasCheck
