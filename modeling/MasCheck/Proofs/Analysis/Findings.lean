import MasCheck.Analysis.Script
import MasCheck.Proofs.Analysis.Targets

/-!
# What can be found

Each check of a unit has a few findings of its own, and each of these is about a part of the tree.
The checks are gone through once, so that what is said of all findings need not look at the checks
again.
-/

namespace MasCheck

variable {d : Diagnostic}

/-! ## Tables -/

namespace SymbolTable

variable {t : SymbolTable}

theorem diagnostic_of_repetition {s : Symbol} {r : Repetition} (hr : t.repetition? s = some r) :
    ∃ kind ∈ s.category.repeatedKind?, ∃ first : Position,
      r.diagnostic = .of kind [s.name, first.text] s.position := by
  obtain ⟨first, -, hr⟩ := Option.bind_eq_some_iff.1 hr
  obtain ⟨kind, hkind, hr⟩ := Option.bind_eq_some_iff.1 hr
  obtain rfl := Option.some.inj hr
  exact ⟨kind, hkind, first.position, rfl⟩

/-- Items give findings of their own, and second declarations of their names. -/
theorem mem_declarationFindings {α : Type} {symbol : α → Symbol} {findings : α → List Diagnostic}
    {items : List α} (hd : d ∈ t.declarationFindings symbol findings items) :
    (∃ x ∈ items, d ∈ findings x) ∨
      ∃ x ∈ items, ∃ kind ∈ (symbol x).category.repeatedKind?, ∃ first : Position,
        d = .of kind [(symbol x).name, first.text] (symbol x).position := by
  induction items generalizing t with
  | nil => exact absurd hd List.not_mem_nil
  | cons x items ih =>
    unfold declarationFindings at hd
    rcases List.mem_append.1 hd with hd | hd
    · rcases List.mem_append.1 hd with hd | hd
      · exact .inl ⟨x, List.mem_cons_self, hd⟩
      · obtain ⟨r, hr, rfl⟩ := List.mem_map.1 hd
        exact .inr ⟨x, List.mem_cons_self, diagnostic_of_repetition (Option.mem_toList.1 hr)⟩
    · rcases ih hd with ⟨y, hy, hd⟩ | ⟨y, hy, hd⟩
      · exact .inl ⟨y, List.mem_cons_of_mem x hy, hd⟩
      · exact .inr ⟨y, List.mem_cons_of_mem x hy, hd⟩

theorem mem_unused {category : Category} {s : Symbol} (hs : s ∈ t.graph.unused category) :
    s ∈ t.symbols ∧ s.category = category := by
  obtain ⟨entry, hentry, hs⟩ := List.mem_filterMap.1 hs
  obtain ⟨hdeclared, hcategory⟩ := List.mem_filter.1 hentry
  split at hs
  · cases hs
  · rw [graph_eq] at hdeclared
    obtain ⟨s', hs', hkey⟩ := t.declares_indexed.names.sound entry hdeclared
    obtain rfl := Option.some.inj ((symbol?_graph hs').symm.trans hs)
    exact ⟨List.mem_of_getElem? hs', (congrArg Prod.fst hkey).trans (of_decide_eq_true hcategory)⟩

theorem mem_findings (hd : d ∈ t.findings) :
    (∃ u ∈ t.uses, u.undeclared? = some d) ∨
      ∃ s ∈ t.symbols, s.category = .agentFile ∧
        d = .of .agentFileUnused [s.shown] s.position := by
  rcases List.mem_append.1 hd with hd | hd
  · rw [undeclared_graph] at hd
    obtain ⟨u, hu, hd⟩ := List.mem_filterMap.1 hd
    exact .inl ⟨u, (List.mem_filter.1 hu).1, hd⟩
  · split at hd
    · obtain ⟨s, hs, rfl⟩ := List.mem_map.1 hd
      obtain ⟨hmem, hcategory⟩ := mem_unused hs
      exact .inr ⟨s, hmem, hcategory, rfl⟩
    · exact absurd hd List.not_mem_nil

end SymbolTable

namespace Inquiry

/-! ## Checks of MAS files -/

/-- What the checks of a MAS file may find, before the uses of agent files are compared with the
declarations. -/
inductive MasFinding (q : Inquiry) (mas : MasFile) : Diagnostic → Prop
  | environmentMissing {env : Located Environment} (henv : mas.environment = some env) :
      MasFinding q mas
        (q.finding .environmentMissing [env.node.archive.node] env.node.archive.span)
  | environmentNotArchive {env : Located Environment} (henv : mas.environment = some env)
      (reason : String) :
      MasFinding q mas
        (q.finding .environmentNotArchive [env.node.archive.node, reason] env.node.archive.span)
  | resourceUnreadable {env : Located Environment} (henv : mas.environment = some env)
      (reason : String) :
      MasFinding q mas
        (q.finding .resourceUnreadable [env.node.archive.node, reason] env.node.archive.span)
  | initKeyRepeated {env : Located Environment} (henv : mas.environment = some env)
      {entry : Located InitEntry} (hentry : entry ∈ env.node.init) (first : Position) :
      MasFinding q mas
        (q.finding .initKeyRepeated [entry.node.key.node, first.text] entry.node.key.span)
  | environmentRepeated {span : Span} (hspan : span ∈ mas.extraEnvironments) (first : Position) :
      MasFinding q mas (q.finding .environmentRepeated [first.text] span)
  | agentFileExtension {f : Located AgentFile} (hf : f ∈ mas.agentFiles) :
      MasFinding q mas
        (q.finding .agentFileExtension [f.node.path.node, q.options.agentExtension]
          f.node.path.span)
  | agentFileMissing {f : Located AgentFile} (hf : f ∈ mas.agentFiles) :
      MasFinding q mas (q.finding .agentFileMissing [f.node.path.node] f.node.path.span)
  | agentFileParameterUnknown {f : Located AgentFile} (hf : f ∈ mas.agentFiles)
      {p : Located Parameter} (hp : p ∈ f.node.parameters) :
      MasFinding q mas
        (q.finding .agentFileParameterUnknown
          [p.node.key.node, String.intercalate ", " agentFileParameters] p.node.key.span)
  | agentFileParameterRepeated {f : Located AgentFile} (hf : f ∈ mas.agentFiles)
      {p : Located Parameter} (hp : p ∈ f.node.parameters) :
      MasFinding q mas
        (q.finding .agentFileParameterRepeated [p.node.key.node, f.node.path.node]
          p.node.key.span)
  | agentFileNameRepeated {f : Located AgentFile} (hf : f ∈ mas.agentFiles) (first : Position) :
      MasFinding q mas
        (q.finding .agentFileNameRepeated [f.node.referenceName.node, first.text]
          f.node.referenceName.span)
  | policyMissing (hpolicy : mas.launchPolicy = none) :
      MasFinding q mas (.of .launchPolicyEmpty [] (.fileStart q.map.file))
  | policyEmpty {policy : Located LaunchPolicy} (hpolicy : mas.launchPolicy = some policy) :
      MasFinding q mas (q.finding .launchPolicyEmpty [] policy.span)
  | conditionWithoutEnvironment {policy : Located LaunchPolicy}
      (hpolicy : mas.launchPolicy = some policy) {rule : Located LaunchRule}
      (hrule : rule ∈ policy.node.rules) :
      MasFinding q mas (q.finding .conditionWithoutEnvironment [] rule.span)
  | constraintRepeated {policy : Located LaunchPolicy}
      (hpolicy : mas.launchPolicy = some policy) {rule : Located LaunchRule}
      (hrule : rule ∈ policy.node.rules) {items : List (Located Constraint)} {span : Span}
      (hitems : rule.node.condition = some ⟨.constraints items, span⟩) {c : Located Constraint}
      (hc : c ∈ items) :
      MasFinding q mas (q.finding .constraintRepeated [c.node.word.text] c.span)
  | constraintNumberInvalid {policy : Located LaunchPolicy}
      (hpolicy : mas.launchPolicy = some policy) {rule : Located LaunchRule}
      (hrule : rule ∈ policy.node.rules) {items : List (Located Constraint)} {span : Span}
      (hitems : rule.node.condition = some ⟨.constraints items, span⟩) {c : Located Constraint}
      (hc : c ∈ items) :
      MasFinding q mas
        (q.finding .constraintNumberInvalid [c.node.value.node] c.node.value.span)
  | wildcardUnconditional {c : LaunchComponent} (hc : c ∈ mas.components) :
      MasFinding q mas (q.finding .wildcardUnconditional [c.target.node.text] c.name.span)
  | launchNumberInvalid {c : LaunchComponent} (hc : c ∈ mas.components) {number : Located String}
      (hnumber : c.number = some number) :
      MasFinding q mas (q.finding .launchNumberInvalid [number.node] number.span)

variable {q : Inquiry} {mas : MasFile}

theorem masFinding_of_archive {env : Located Environment} (henv : mas.environment = some env)
    (hd : d ∈ q.archiveFindings env.node.archive) : q.MasFinding mas d := by
  unfold archiveFindings at hd
  dsimp only at hd
  split at hd
  · obtain rfl := List.mem_singleton.1 hd
    exact .environmentMissing henv
  · split at hd
    · obtain rfl := List.mem_singleton.1 hd
      exact .environmentNotArchive henv _
    · split at hd
      · split at hd
        · exact absurd hd List.not_mem_nil
        · obtain rfl := List.mem_singleton.1 hd
          exact .environmentNotArchive henv _
        · obtain rfl := List.mem_singleton.1 hd
          exact .resourceUnreadable henv _
      · exact absurd hd List.not_mem_nil

theorem masFinding_of_environment {table : SymbolTable}
    (hd : d ∈ q.environmentFindings table mas) : q.MasFinding mas d := by
  unfold environmentFindings at hd
  split at hd
  · exact absurd hd List.not_mem_nil
  · next env henv =>
    rcases List.mem_append.1 hd with hd | hd
    · rcases List.mem_append.1 hd with hd | hd
      · exact masFinding_of_archive henv hd
      · rcases SymbolTable.mem_declarationFindings hd with
          ⟨_, -, hd⟩ | ⟨entry, hentry, kind, hkind, first, rfl⟩
        · exact absurd hd List.not_mem_nil
        · obtain rfl := Option.some.inj hkind
          exact .initKeyRepeated henv hentry first
    · obtain ⟨span, hspan, rfl⟩ := List.mem_map.1 hd
      exact .environmentRepeated hspan _

section

variable {f : Located AgentFile}

theorem masFinding_of_agentPath (hf : f ∈ mas.agentFiles)
    (hd : d ∈ q.agentPathFindings f.node.path) : q.MasFinding mas d := by
  unfold agentPathFindings at hd
  dsimp only at hd
  split at hd
  · obtain rfl := List.mem_singleton.1 hd
    exact .agentFileExtension hf
  · split at hd
    · obtain rfl := List.mem_singleton.1 hd
      exact .agentFileMissing hf
    · exact absurd hd List.not_mem_nil

theorem masFinding_of_parameters (hf : f ∈ mas.agentFiles) {seen : List String}
    {ps : List (Located Parameter)} (hps : ps ⊆ f.node.parameters)
    (hd : d ∈ q.parameterFindings f.node.path.node seen ps) : q.MasFinding mas d := by
  induction ps generalizing seen with
  | nil => exact absurd hd List.not_mem_nil
  | cons p ps ih =>
    obtain ⟨hp, hps⟩ := List.cons_subset.1 hps
    unfold parameterFindings at hd
    dsimp only at hd
    split at hd
    · rcases List.mem_cons.1 hd with rfl | hd
      · exact .agentFileParameterUnknown hf hp
      · exact ih hps hd
    · split at hd
      · rcases List.mem_cons.1 hd with rfl | hd
        · exact .agentFileParameterRepeated hf hp
        · exact ih hps hd
      · exact ih hps hd

theorem masFinding_of_agentFiles {table : SymbolTable}
    (hd : d ∈ table.declarationFindings q.agentFileSymbol q.agentFileFindings mas.agentFiles) :
    q.MasFinding mas d := by
  rcases SymbolTable.mem_declarationFindings hd with
    ⟨f, hf, hd⟩ | ⟨f, hf, kind, hkind, first, rfl⟩
  · rcases List.mem_append.1 hd with hd | hd
    · exact masFinding_of_agentPath hf hd
    · exact masFinding_of_parameters hf (List.Subset.refl _) hd
  · obtain rfl := Option.some.inj hkind
    exact .agentFileNameRepeated hf first

end

section

variable {policy : Located LaunchPolicy} {rule : Located LaunchRule}

theorem masFinding_of_constraints (hpolicy : mas.launchPolicy = some policy)
    (hrule : rule ∈ policy.node.rules) {items : List (Located Constraint)} {span : Span}
    (hitems : rule.node.condition = some ⟨.constraints items, span⟩) {seen : List ConstraintWord}
    {cs : List (Located Constraint)} (hcs : cs ⊆ items) (hd : d ∈ q.constraintFindings seen cs) :
    q.MasFinding mas d := by
  induction cs generalizing seen with
  | nil => exact absurd hd List.not_mem_nil
  | cons c cs ih =>
    obtain ⟨hc, hcs⟩ := List.cons_subset.1 hcs
    unfold constraintFindings at hd
    dsimp only at hd
    split at hd
    · rcases List.mem_cons.1 hd with rfl | hd
      · exact .constraintRepeated hpolicy hrule hitems hc
      · exact ih hcs hd
    · split at hd
      · rcases List.mem_cons.1 hd with rfl | hd
        · exact .constraintNumberInvalid hpolicy hrule hitems hc
        · exact ih hcs hd
      · exact ih hcs hd

theorem masFinding_of_condition (hpolicy : mas.launchPolicy = some policy)
    (hrule : rule ∈ policy.node.rules) {hasEnvironment : Bool}
    (hd : d ∈ q.conditionFindings hasEnvironment rule) : q.MasFinding mas d := by
  unfold conditionFindings at hd
  split at hd
  · exact absurd hd List.not_mem_nil
  · next condition hcondition =>
    rcases List.mem_append.1 hd with hd | hd
    · split at hd
      · exact absurd hd List.not_mem_nil
      · obtain rfl := List.mem_singleton.1 hd
        exact .conditionWithoutEnvironment hpolicy hrule
    · obtain ⟨entity, span⟩ := condition
      cases entity with
      | constraints items =>
        exact masFinding_of_constraints hpolicy hrule hcondition (List.Subset.refl _) hd
      | named _ => exact absurd hd List.not_mem_nil
      | any => exact absurd hd List.not_mem_nil

theorem masFinding_of_component {c : LaunchComponent} (hc : c ∈ mas.components)
    {conditional : Bool} (hd : d ∈ q.componentFindings conditional c) : q.MasFinding mas d := by
  rcases List.mem_append.1 hd with hd | hd
  · split at hd
    · obtain rfl := List.mem_singleton.1 hd
      exact .wildcardUnconditional hc
    · exact absurd hd List.not_mem_nil
  · split at hd
    · next number hnumber =>
      split at hd
      · exact absurd hd List.not_mem_nil
      · obtain rfl := List.mem_singleton.1 hd
        exact .launchNumberInvalid hc hnumber
    · exact absurd hd List.not_mem_nil

theorem mem_components (hpolicy : mas.launchPolicy = some policy) (hrule : rule ∈ policy.node.rules)
    {c : Located LaunchComponent} (hc : c ∈ rule.node.components) : c.node ∈ mas.components := by
  unfold MasFile.components
  rw [hpolicy]
  exact List.mem_flatMap.2 ⟨rule, hrule, List.mem_map_of_mem hc⟩

end

theorem masFinding_of_policy (hd : d ∈ q.policyFindings mas) : q.MasFinding mas d := by
  unfold policyFindings at hd
  split at hd
  · next hpolicy =>
    obtain rfl := List.mem_singleton.1 hd
    exact .policyMissing hpolicy
  · next policy hpolicy =>
    split at hd
    · obtain rfl := List.mem_singleton.1 hd
      exact .policyEmpty hpolicy
    · obtain ⟨rule, hrule, hd⟩ := List.mem_flatMap.1 hd
      rcases List.mem_append.1 hd with hd | hd
      · exact masFinding_of_condition hpolicy hrule hd
      · obtain ⟨c, hc, hd⟩ := List.mem_flatMap.1 hd
        exact masFinding_of_component (mem_components hpolicy hrule hc) hd

theorem mem_analyzeMas_cases (hd : d ∈ (q.analyzeMas mas).diagnostics) :
    q.MasFinding mas d ∨ d ∈ (q.masTable mas).findings := by
  rcases List.mem_append.1 hd with hd | hd
  · rcases List.mem_append.1 hd with hd | hd
    · rcases List.mem_append.1 hd with hd | hd
      · exact .inl (masFinding_of_environment hd)
      · exact .inl (masFinding_of_agentFiles hd)
    · exact .inl (masFinding_of_policy hd)
  · exact .inr hd

/-- What is found out by comparing the uses of agent files with the declarations is found in no
other way. -/
theorem mem_analyzeMas_iff_mem_findings
    (hkind : d.kind = .agentFileUndeclared ∨ d.kind = .agentFileUnused) :
    d ∈ (q.analyzeMas mas).diagnostics ↔ d ∈ (q.masTable mas).findings := by
  refine ⟨fun hd ↦ (mem_analyzeMas_cases hd).resolve_left fun hfinding ↦ ?_,
    fun hd ↦ List.mem_append_right _ hd⟩
  cases hfinding <;> rcases hkind with hkind | hkind <;> cases hkind

/-! ## Checks of test scripts -/

theorem mem_masPathFindings {path : Located String} (hd : d ∈ q.masPathFindings path) :
    d = q.finding .masMissing [path.node] path.span := by
  unfold masPathFindings at hd
  split at hd
  · exact List.mem_singleton.1 hd
  · exact absurd hd List.not_mem_nil

theorem mem_timeoutFindings {timeout : Option (Located String)}
    (hd : d ∈ q.timeoutFindings timeout) :
    ∃ seconds, timeout = some seconds ∧
      d = q.finding .timeoutInvalid [seconds.node] seconds.span := by
  unfold timeoutFindings at hd
  split at hd
  · exact absurd hd List.not_mem_nil
  · next seconds =>
    split at hd
    · exact absurd hd List.not_mem_nil
    · exact ⟨seconds, rfl, List.mem_singleton.1 hd⟩

theorem mem_analyzeScript_cases {analysis : Option MasAnalysis} {script : TestScript}
    (hd : d ∈ (q.analyzeScript analysis script).diagnostics) :
    d = q.finding .masMissing [script.mas.node] script.mas.span ∨
      (∃ seconds, script.timeout = some seconds ∧
        d = q.finding .timeoutInvalid [seconds.node] seconds.span) ∨
      (∃ t ∈ script.tests, ∃ first : Position,
        d = q.finding .agentRepeated [t.node.agent.node, first.text] t.node.agent.span) ∨
      d ∈ (q.analyzeScript analysis script).table.findings := by
  rcases List.mem_append.1 hd with hd | hd
  · rcases List.mem_append.1 hd with hd | hd
    · rcases List.mem_append.1 hd with hd | hd
      · exact .inl (mem_masPathFindings hd)
      · exact .inr (.inl (mem_timeoutFindings hd))
    · rcases SymbolTable.mem_declarationFindings hd with
        ⟨_, -, hd⟩ | ⟨t, ht, kind, hkind, first, rfl⟩
      · exact absurd hd List.not_mem_nil
      · obtain rfl := Option.some.inj hkind
        exact .inr (.inr (.inl ⟨t, ht, first, rfl⟩))
  · exact .inr (.inr (.inr hd))

end Inquiry

end MasCheck
