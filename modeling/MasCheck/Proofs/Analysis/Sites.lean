import MasCheck.Proofs.Analysis.Findings
import MasCheck.Proofs.Tree.Spans

/-!
# Where findings about content stand

A check speaks in the domains of its unit, and about places that the tree keeps. Only the finding
that a file has no launch policy at all has no place of its own and stands at the front of the
file.
-/

namespace MasCheck

open HasSpans (spans)

/-- The domains of findings about what MAS files say. -/
def masDomains : List Domain :=
  [.masError, .masWarning]

/-- The domains of findings about what test scripts say. -/
def scriptDomains : List Domain :=
  [.testError, .testWarning]

/-- The position is that of one of the places. -/
def SourceMap.Marks (m : SourceMap) (S : List Span) (p : Position) : Prop :=
  ∃ s ∈ S, p = m.position s

/-- The findings are of these domains, and each stands at one of the places or at the front. -/
def SourceMap.Reports (m : SourceMap) (domains : List Domain) (S : List Span)
    (ds : List Diagnostic) : Prop :=
  ∀ d ∈ ds, d.kind.domain ∈ domains ∧ (d.position = .fileStart m.file ∨ m.Marks S d.position)

/-! ## Tables -/

theorem SymbolTable.reports_findings {m : SourceMap} {domains : List Domain} {S : List Span}
    {t : SymbolTable} (huses : ∀ u ∈ t.uses, m.Marks S u.position)
    (hkinds : ∀ u ∈ t.uses, ∀ kind ∈ u.category.undeclaredKind?, kind.domain ∈ domains)
    (hunused : ∀ s ∈ t.symbols, s.category = .agentFile →
      Domain.masWarning ∈ domains ∧ m.Marks S s.position) :
    m.Reports domains S t.findings := by
  intro d hd
  rcases mem_findings hd with ⟨u, hu, hd⟩ | ⟨s, hs, hcategory, rfl⟩
  · obtain ⟨kind, hkind, rfl⟩ := Option.map_eq_some_iff.1 hd
    exact ⟨hkinds u hu kind hkind, .inr (huses u hu)⟩
  · obtain ⟨hdomain, hmarks⟩ := hunused s hs hcategory
    exact ⟨hdomain, .inr hmarks⟩

/-! ## Parts of MAS files -/

theorem HasSpans.spans_subset {α : Type} [HasSpans α] {x : α} {xs : List α} (hx : x ∈ xs) :
    spans x ⊆ spans xs :=
  fun _ hs ↦ List.mem_flatMap.2 ⟨x, hx, hs⟩

/-- The name of an agent file is one of its parameters or comes from its path. -/
theorem AgentFile.span_referenceName (f : AgentFile) : f.referenceName.span ∈ spans f := by
  unfold referenceName
  split
  · next name hname =>
    obtain ⟨p, hp, rfl⟩ := Option.map_eq_some_iff.1 hname
    have hvalue : p.node.value.span ∈ spans p :=
      List.mem_cons_of_mem _ (List.mem_append_right _ List.mem_cons_self)
    exact List.mem_append_right _ (HasSpans.spans_subset (List.mem_of_find?_eq_some hp) hvalue)
  · exact List.mem_append_left _ List.mem_cons_self

namespace MasFile

variable {mas : MasFile}

theorem spans_environment {env : Located Environment} (henv : mas.environment = some env) :
    spans env.node ⊆ spans mas := by
  intro s hs
  refine List.mem_append_left _ ?_
  rw [henv]
  exact List.mem_cons_of_mem _ hs

theorem spans_agentFile {f : Located AgentFile} (hf : f ∈ mas.agentFiles) :
    spans f.node ⊆ spans mas := by
  intro s hs
  have hfiles : s ∈ spans mas.agentFiles := HasSpans.spans_subset hf (List.mem_cons_of_mem _ hs)
  exact List.mem_append_right _ (List.mem_append_right _ (List.mem_append_left _ hfiles))

theorem spans_policy {policy : Located LaunchPolicy} (hpolicy : mas.launchPolicy = some policy) :
    spans policy ⊆ spans mas := by
  intro s hs
  refine List.mem_append_right _ (List.mem_append_right _ (List.mem_append_right _ ?_))
  rwa [hpolicy]

theorem spans_rule {policy : Located LaunchPolicy} (hpolicy : mas.launchPolicy = some policy)
    {rule : Located LaunchRule} (hrule : rule ∈ policy.node.rules) : spans rule ⊆ spans mas :=
  fun _ hs ↦ spans_policy hpolicy (List.mem_cons_of_mem _ (HasSpans.spans_subset hrule hs))

theorem spans_constraint {policy : Located LaunchPolicy} (hpolicy : mas.launchPolicy = some policy)
    {rule : Located LaunchRule} (hrule : rule ∈ policy.node.rules)
    {items : List (Located Constraint)} {span : Span}
    (hitems : rule.node.condition = some ⟨.constraints items, span⟩) {c : Located Constraint}
    (hc : c ∈ items) : spans c ⊆ spans mas := by
  intro s hs
  refine spans_rule hpolicy hrule (List.mem_cons_of_mem _ (List.mem_append_left _ ?_))
  rw [hitems]
  exact List.mem_cons_of_mem _ (HasSpans.spans_subset hc hs)

theorem spans_component {c : LaunchComponent} (hc : c ∈ mas.components) : spans c ⊆ spans mas := by
  obtain ⟨rule, hrule, hc⟩ := List.mem_flatMap.1 hc
  obtain ⟨component, hcomponent, rfl⟩ := List.mem_map.1 hc
  cases hpolicy : mas.launchPolicy with
  | none =>
    rw [hpolicy] at hrule
    cases hrule
  | some policy =>
    rw [hpolicy] at hrule
    intro s hs
    have hcomponents : s ∈ spans rule.node.components :=
      HasSpans.spans_subset hcomponent (List.mem_cons_of_mem _ hs)
    exact spans_rule hpolicy hrule (List.mem_cons_of_mem _ (List.mem_append_right _ hcomponents))

theorem span_archive {env : Located Environment} (henv : mas.environment = some env) :
    env.node.archive.span ∈ spans mas :=
  spans_environment henv (List.mem_append_left _ List.mem_cons_self)

theorem span_initKey {env : Located Environment} (henv : mas.environment = some env)
    {entry : Located InitEntry} (hentry : entry ∈ env.node.init) :
    entry.node.key.span ∈ spans mas := by
  have hkey : entry.node.key.span ∈ spans entry :=
    List.mem_cons_of_mem _ (List.mem_append_left _ List.mem_cons_self)
  exact spans_environment henv (List.mem_append_right _ (HasSpans.spans_subset hentry hkey))

theorem span_path {f : Located AgentFile} (hf : f ∈ mas.agentFiles) :
    f.node.path.span ∈ spans mas :=
  spans_agentFile hf (List.mem_append_left _ List.mem_cons_self)

theorem span_parameterKey {f : Located AgentFile} (hf : f ∈ mas.agentFiles) {p : Located Parameter}
    (hp : p ∈ f.node.parameters) : p.node.key.span ∈ spans mas := by
  have hkey : p.node.key.span ∈ spans p :=
    List.mem_cons_of_mem _ (List.mem_append_left _ List.mem_cons_self)
  exact spans_agentFile hf (List.mem_append_right _ (HasSpans.spans_subset hp hkey))

theorem span_referenceName {f : Located AgentFile} (hf : f ∈ mas.agentFiles) :
    f.node.referenceName.span ∈ spans mas :=
  spans_agentFile hf f.node.span_referenceName

theorem span_number {c : LaunchComponent} (hc : c ∈ mas.components) {number : Located String}
    (hnumber : c.number = some number) : number.span ∈ spans mas := by
  refine spans_component hc (List.mem_append_right _ (List.mem_append_left _ ?_))
  rw [hnumber]
  exact List.mem_cons_self

theorem span_target {c : LaunchComponent} (hc : c ∈ mas.components) : c.target.span ∈ spans mas :=
  spans_component hc (List.mem_append_right _ (List.mem_append_right _ List.mem_cons_self))

end MasFile

namespace Inquiry

variable (q : Inquiry)

/-! ## Checks of MAS files -/

theorem MasFinding.reported {q : Inquiry} {mas : MasFile} {d : Diagnostic}
    (h : q.MasFinding mas d) :
    d.kind.domain ∈ masDomains ∧
      (d.position = .fileStart q.map.file ∨ q.map.Marks (spans mas) d.position) := by
  open MasFile in
  cases h with
  | environmentMissing henv => exact ⟨.head _, .inr ⟨_, span_archive henv, rfl⟩⟩
  | environmentNotArchive henv => exact ⟨.head _, .inr ⟨_, span_archive henv, rfl⟩⟩
  | resourceUnreadable henv => exact ⟨.head _, .inr ⟨_, span_archive henv, rfl⟩⟩
  | initKeyRepeated henv hentry =>
    exact ⟨.tail _ (.head _), .inr ⟨_, span_initKey henv hentry, rfl⟩⟩
  | environmentRepeated hspan =>
    exact ⟨.tail _ (.head _), .inr ⟨_, List.mem_append_right _ (List.mem_append_left _ hspan), rfl⟩⟩
  | agentFileExtension hf => exact ⟨.head _, .inr ⟨_, span_path hf, rfl⟩⟩
  | agentFileMissing hf => exact ⟨.head _, .inr ⟨_, span_path hf, rfl⟩⟩
  | agentFileParameterUnknown hf hp => exact ⟨.head _, .inr ⟨_, span_parameterKey hf hp, rfl⟩⟩
  | agentFileParameterRepeated hf hp =>
    exact ⟨.tail _ (.head _), .inr ⟨_, span_parameterKey hf hp, rfl⟩⟩
  | agentFileNameRepeated hf => exact ⟨.tail _ (.head _), .inr ⟨_, span_referenceName hf, rfl⟩⟩
  | policyMissing => exact ⟨.tail _ (.head _), .inl rfl⟩
  | policyEmpty hpolicy =>
    exact ⟨.tail _ (.head _), .inr ⟨_, spans_policy hpolicy List.mem_cons_self, rfl⟩⟩
  | conditionWithoutEnvironment hpolicy hrule =>
    exact ⟨.tail _ (.head _), .inr ⟨_, spans_rule hpolicy hrule List.mem_cons_self, rfl⟩⟩
  | constraintRepeated hpolicy hrule hitems hc =>
    have hspan := spans_constraint hpolicy hrule hitems hc List.mem_cons_self
    exact ⟨.tail _ (.head _), .inr ⟨_, hspan, rfl⟩⟩
  | constraintNumberInvalid hpolicy hrule hitems hc =>
    have hspan := spans_constraint hpolicy hrule hitems hc
      (List.mem_cons_of_mem _ List.mem_cons_self)
    exact ⟨.head _, .inr ⟨_, hspan, rfl⟩⟩
  | wildcardUnconditional hc =>
    have hspan := spans_component hc (List.mem_append_left _ List.mem_cons_self)
    exact ⟨.tail _ (.head _), .inr ⟨_, hspan, rfl⟩⟩
  | launchNumberInvalid hc hnumber => exact ⟨.head _, .inr ⟨_, span_number hc hnumber, rfl⟩⟩

theorem reports_analyzeMas (mas : MasFile) :
    q.map.Reports masDomains (spans mas) (q.analyzeMas mas).diagnostics := by
  have htable : q.map.Reports masDomains (spans mas) (q.masTable mas).findings := by
    refine SymbolTable.reports_findings ?_ ?_ fun s hs hcategory ↦ ⟨.tail _ (.head _), ?_⟩
    · rw [uses_masTable]
      exact List.forall_mem_map.2 fun c hc ↦ ⟨_, MasFile.span_target hc, rfl⟩
    · rw [uses_masTable]
      refine List.forall_mem_map.2 fun c hc kind hkind ↦ ?_
      obtain rfl := Option.some.inj hkind
      exact .head _
    · obtain ⟨us, f, vs, hfiles, rfl, -⟩ := (q.mem_masTable_iff hcategory).1 hs
      have hf : f ∈ mas.agentFiles := hfiles ▸ List.mem_append_right us List.mem_cons_self
      exact ⟨_, MasFile.span_referenceName hf, rfl⟩
  intro d hd
  rcases mem_analyzeMas_cases hd with hfinding | hd
  · exact hfinding.reported
  · exact htable d hd

/-! ## Checks of test scripts -/

theorem category_of_mem_agentTable {mas : Option MasAnalysis} {s : Symbol}
    (hs : s ∈ (q.agentTable mas).symbols) : s.category = .agent := by
  rcases SymbolTable.mem_symbols_declareAll_iff.1 hs with hs | ⟨⟨_, agent, _, hagents, rfl, -⟩, -⟩
  · cases hs
  · cases mas with
    | none => exact absurd (congrArg List.length hagents) (by simp)
    | some a =>
      have hmem : agent ∈ a.agentNames.map (agentSymbol a.file) := by
        rw [show a.agentNames.map (agentSymbol a.file) = _ from hagents]
        exact List.mem_append_right _ List.mem_cons_self
      obtain ⟨name, -, rfl⟩ := List.mem_map.1 hmem
      rfl

/-- Agents are declared in front of the tests, and nothing else is declared in a script. -/
theorem category_of_mem_scriptTable {mas : Option MasAnalysis} {tests : List (Located AgentTest)}
    {s : Symbol} (hs : s ∈ ((q.agentTable mas).declareAll q.testSymbol tests).symbols) :
    s.category ≠ .agentFile := by
  rcases SymbolTable.mem_symbols_declareAll_iff.1 hs with hs | ⟨⟨_, test, _, -, rfl, -⟩, -⟩
  · rw [q.category_of_mem_agentTable hs]
    nofun
  · nofun

/-- The uses of a script are those of the tested agents. -/
theorem exists_test_of_use (checked : Option MasAnalysis) (script : TestScript) :
    ∀ u ∈ ((q.agentTable checked).declareAll q.testSymbol script.tests).uses ++
        (if checked.isSome then script.tests.map (q.testUse script) else []),
      ∃ t ∈ script.tests, q.testUse script t = u := by
  intro u hu
  rw [uses_declareAll, agentTable, uses_declareAll] at hu
  change u ∈ (if _ then _ else _) at hu
  split at hu
  · exact List.mem_map.1 hu
  · cases hu

theorem reports_analyzeScript (mas : Option MasAnalysis) (script : TestScript) :
    q.map.Reports scriptDomains (spans script) (q.analyzeScript mas script).diagnostics := by
  have htest : ∀ t ∈ script.tests,
      q.map.Marks (spans script) (q.map.position t.node.agent.span) := by
    intro t ht
    have hagent : t.node.agent.span ∈ spans t :=
      List.mem_cons_of_mem _ (List.mem_append_left _ List.mem_cons_self)
    exact ⟨_, List.mem_append_right _ (List.mem_append_right _
      (HasSpans.spans_subset ht hagent)), rfl⟩
  have htable : q.map.Reports scriptDomains (spans script)
      (q.analyzeScript mas script).table.findings := by
    have huses := q.exists_test_of_use (mas.filter fun a ↦ !a.hasWildcard) script
    refine SymbolTable.reports_findings (fun u hu ↦ ?_) (fun u hu kind hkind ↦ ?_) ?_
    · obtain ⟨t, ht, rfl⟩ := huses u hu
      exact htest t ht
    · obtain ⟨t, ht, rfl⟩ := huses u hu
      obtain rfl := Option.some.inj hkind
      exact .head _
    · exact fun s hs hcategory ↦ absurd hcategory (q.category_of_mem_scriptTable hs)
  intro d hd
  rcases mem_analyzeScript_cases hd with rfl | ⟨seconds, htimeout, rfl⟩ | ⟨t, ht, first, rfl⟩ | hd
  · exact ⟨.head _, .inr ⟨_, List.mem_append_left _ List.mem_cons_self, rfl⟩⟩
  · have hspan : seconds.span ∈ spans script := by
      refine List.mem_append_right _ (List.mem_append_left _ ?_)
      rw [htimeout]
      exact List.mem_cons_self
    exact ⟨.head _, .inr ⟨_, hspan, rfl⟩⟩
  · exact ⟨.tail _ (.head _), .inr (htest t ht)⟩
  · exact htable d hd

end Inquiry

end MasCheck
