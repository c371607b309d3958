import MasCheck.Proofs.Analysis.Findings
import MasCheck.Proofs.Grammar.Acceptance
import MasCheck.Report

/-!
# Valid units

What makes a MAS file valid is stated of its tree, one condition after the other. A unit succeeds
when it reads without findings and its tree is valid: each check of the analysis finds an error
exactly where its condition fails, and warnings are found independently of that.
-/

namespace MasCheck

/-! ## Conditions -/

/-- Decimal digits, perhaps after a plus sign, for a number from one to the largest of sixty-four
bits. -/
def Text.WritesCount (text : String) : Prop :=
  ∃ digits n, (text.toList = digits ∨ text.toList = '+' :: digits) ∧
    digitsValue? digits = some n ∧ 1 ≤ n ∧ n ≤ 0xFFFFFFFFFFFFFFFF

def LaunchRule.constraints (rule : LaunchRule) : List (Located Constraint) :=
  match rule.condition with
  | some ⟨.constraints items, _⟩ => items
  | _ => []

/-- The constraint that bounds the number of agents. Later ones are ignored. -/
def LaunchRule.maximum? (rule : LaunchRule) : Option (Located Constraint) :=
  rule.constraints.find? fun c ↦ c.node.word = .max

namespace MasFile

def rules (mas : MasFile) : List (Located LaunchRule) :=
  mas.launchPolicy.elim [] fun policy ↦ policy.node.rules

structure IsValid (probe : Probe) (options : Options) (mas : MasFile) : Prop where
  environment : ∀ env, mas.environment = some env →
    Text.hasExtension env.node.archive.node options.environmentExtension = true ∧
      (options.checkResources = true →
        probe.isPresent env.node.archive.node = true ∧
          probe.isArchive env.node.archive.node = .ok true)
  agentPaths : ∀ f ∈ mas.agentFiles,
    Text.hasExtension f.node.path.node options.agentExtension = true ∧
      (options.checkResources = true → probe.isPresent f.node.path.node = true)
  parameters : ∀ f ∈ mas.agentFiles, ∀ p ∈ f.node.parameters,
    p.node.key.node = "name" ∨ p.node.key.node = "language"
  targets : ∀ c ∈ mas.components, mas.Declares c.target.node
  numbers : ∀ c ∈ mas.components, ∀ number, c.number = some number →
    Text.WritesCount number.node
  maxima : ∀ rule ∈ mas.rules, ∀ c, rule.node.maximum? = some c →
    Text.WritesCount c.node.value.node

end MasFile

namespace Text

theorem digitsValue?_of_plus (cs : List Char) : digitsValue? ('+' :: cs) = none := by
  simp [digitsValue?, isAsciiDigit]

theorem count?_eq_some_iff {cs : List Char} {n : Nat} :
    count? cs = some n ↔
      ∃ digits, (cs = digits ∨ cs = '+' :: digits) ∧ digitsValue? digits = some n ∧
        n ≤ wordLimit := by
  unfold count?
  rw [Option.filter_eq_some_iff, decide_eq_true_eq]
  constructor
  · rintro ⟨hdigits, hn⟩
    split at hdigits
    · next rest => exact ⟨rest, .inr rfl, hdigits, hn⟩
    · exact ⟨cs, .inl rfl, hdigits, hn⟩
  · rintro ⟨digits, rfl | rfl, hdigits, hn⟩
    · refine ⟨?_, hn⟩
      split
      · cases (digitsValue?_of_plus _).symm.trans hdigits
      · exact hdigits
    · exact ⟨hdigits, hn⟩

theorem isPositiveCount_iff {text : String} : isPositiveCount text = true ↔ WritesCount text := by
  unfold isPositiveCount
  constructor
  · intro h
    split at h
    · next n hcount =>
      obtain ⟨digits, hsign, hdigits, hn⟩ := count?_eq_some_iff.1 hcount
      exact ⟨digits, n, hsign, hdigits, of_decide_eq_true h, hn⟩
    · cases h
  · rintro ⟨digits, n, hsign, hdigits, hpos, hn⟩
    rw [count?_eq_some_iff.2 ⟨digits, hsign, hdigits, hn⟩]
    exact decide_eq_true hpos

end Text

/-! ## Findings without errors -/

namespace Diagnostic

def Harmless (ds : List Diagnostic) : Prop :=
  ∀ d ∈ ds, d.isError = false

@[simp] theorem harmless_nil : Harmless [] :=
  nofun

@[simp] theorem harmless_cons {d : Diagnostic} {ds : List Diagnostic} :
    Harmless (d :: ds) ↔ d.isError = false ∧ Harmless ds :=
  List.forall_mem_cons

@[simp] theorem harmless_append {ds es : List Diagnostic} :
    Harmless (ds ++ es) ↔ Harmless ds ∧ Harmless es :=
  List.forall_mem_append

@[simp] theorem harmless_flatMap {α : Type} {f : α → List Diagnostic} {xs : List α} :
    Harmless (xs.flatMap f) ↔ ∀ x ∈ xs, Harmless (f x) := by
  simp only [Harmless, List.mem_flatMap]
  constructor
  · exact fun h x hx d hd ↦ h d ⟨x, hx, hd⟩
  · rintro h d ⟨x, hx, hd⟩
    exact h x hx d hd

theorem errorCount_eq_zero_iff {ds : List Diagnostic} : errorCount ds = 0 ↔ Harmless ds := by
  simp [errorCount, Harmless, List.countP_eq_zero]

/-- The order of a report does not matter for its errors. -/
theorem harmless_sortByPosition {ds : List Diagnostic} :
    Harmless (sortByPosition ds) ↔ Harmless ds := by
  simp [Harmless, sortByPosition, List.mem_mergeSort]

end Diagnostic

namespace SymbolTable

open Diagnostic

variable {table : SymbolTable}

/-- Declaring a symbol again is a warning. -/
theorem harmless_declarationFindings {α : Type} {symbol : α → Symbol}
    {findings : α → List Diagnostic} {items : List α} :
    Harmless (table.declarationFindings symbol findings items) ↔
      ∀ x ∈ items, Harmless (findings x) := by
  have hwarning : ∀ (t : SymbolTable) (s : Symbol),
      Harmless ((t.repetition? s).toList.map Repetition.diagnostic) := by
    intro t s d hd
    obtain ⟨r, hr, rfl⟩ := List.mem_map.1 hd
    obtain ⟨kind, hkind, first, hr⟩ := diagnostic_of_repetition (Option.mem_toList.1 hr)
    have hseverity : ∀ c : Category, ∀ kind ∈ c.repeatedKind?,
        decide (kind.severity = .error) = false := by
      rintro (_ | _ | _ | _) <;> decide
    rw [hr]
    exact hseverity s.category kind hkind
  induction items generalizing table with
  | nil => simp [declarationFindings]
  | cons x items ih => simp [declarationFindings, hwarning, ih]

/-- Uses that resolve to nothing are errors; agent files without use are not. -/
theorem harmless_findings (huses : ∀ u ∈ table.uses, u.category = .agentFile) :
    Harmless table.findings ↔ ∀ u ∈ table.uses, table.resolves u = true := by
  have hunused : Harmless (if table.reportUnused then
      (table.graph.unused .agentFile).map fun s ↦ .of .agentFileUnused [s.shown] s.position
      else []) := by
    split
    · intro d hd
      obtain ⟨s, -, rfl⟩ := List.mem_map.1 hd
      rfl
    · exact harmless_nil
  unfold findings
  rw [harmless_append, undeclared_graph]
  constructor
  · rintro ⟨h, -⟩ u hu
    refine Bool.of_not_eq_false fun hresolves ↦ ?_
    have hd : (Diagnostic.of .agentFileUndeclared [u.context, u.target.text] u.position) ∈
        (table.uses.filter fun u ↦ !table.resolves u).filterMap Use.undeclared? := by
      refine List.mem_filterMap.2 ⟨u, List.mem_filter.2 ⟨hu, by simp [hresolves]⟩, ?_⟩
      simp [Use.undeclared?, huses u hu, Category.undeclaredKind?]
    cases h _ hd
  · intro h
    have hnone : (table.uses.filter fun u ↦ !table.resolves u) = [] := by
      rw [List.filter_eq_nil_iff]
      intro u hu
      simp [h u hu]
    rw [hnone]
    exact ⟨harmless_nil, hunused⟩

end SymbolTable

namespace Inquiry

open Diagnostic

variable (q : Inquiry) {mas : MasFile}

@[simp] theorem isError_finding (kind : Kind) (args : List String) (span : Span) :
    (q.finding kind args span).isError = decide (kind.severity = .error) := rfl

theorem lacks_eq_false_iff {path : String} :
    q.lacks path = false ↔ (q.options.checkResources = true → q.probe.isPresent path = true) := by
  cases h : q.options.checkResources <;> simp [lacks, h]

theorem harmless_archiveFindings {path : Located String} :
    Harmless (q.archiveFindings path) ↔
      Text.hasExtension path.node q.options.environmentExtension = true ∧
        (q.options.checkResources = true →
          q.probe.isPresent path.node = true ∧ q.probe.isArchive path.node = .ok true) := by
  unfold archiveFindings
  dsimp only
  cases hlacks : q.lacks path.node with
  | true =>
    have hmissing : ¬ (q.options.checkResources = true → q.probe.isPresent path.node = true) := by
      intro h
      cases hlacks.symm.trans ((q.lacks_eq_false_iff).2 h)
    simp only [↓reduceIte, harmless_cons, isError_finding]
    constructor
    · intro h
      cases h.1
    · intro h
      exact absurd (fun hcheck ↦ (h.2 hcheck).1) hmissing
  | false =>
    have hpresent := q.lacks_eq_false_iff.1 hlacks
    cases Text.hasExtension path.node q.options.environmentExtension with
    | false =>
      simp +decide
    | true =>
      cases hcheck : q.options.checkResources with
      | false => simp
      | true =>
        cases q.probe.isArchive path.node with
        | error e => simp +decide
        | ok found =>
          cases found <;> simp +decide [hpresent hcheck]

theorem harmless_agentPathFindings {path : Located String} :
    Harmless (q.agentPathFindings path) ↔
      Text.hasExtension path.node q.options.agentExtension = true ∧
        (q.options.checkResources = true → q.probe.isPresent path.node = true) := by
  rw [← lacks_eq_false_iff]
  unfold agentPathFindings
  dsimp only
  cases Text.hasExtension path.node q.options.agentExtension <;>
    cases q.lacks path.node <;> simp +decide

/-- Unknown parameters are errors; repeated ones are not. -/
theorem harmless_parameterFindings {path : String} {seen : List String}
    {ps : List (Located Parameter)} :
    Harmless (q.parameterFindings path seen ps) ↔
      ∀ p ∈ ps, p.node.key.node = "name" ∨ p.node.key.node = "language" := by
  induction ps generalizing seen with
  | nil => simp [parameterFindings]
  | cons p ps ih =>
    have hmem : p.node.key.node ∈ agentFileParameters ↔
        p.node.key.node = "name" ∨ p.node.key.node = "language" := by
      simp [agentFileParameters]
    unfold parameterFindings
    rw [List.forall_mem_cons, ← hmem]
    dsimp only
    split
    · next hunknown =>
      simp +decide [hunknown]
    · next hknown =>
      have hknown : p.node.key.node ∈ agentFileParameters := Decidable.not_not.1 hknown
      split
      · simp +decide [ih, hknown]
      · simp [ih, hknown]

/-- Only the first maximum is looked at. -/
theorem harmless_constraintFindings {seen : List ConstraintWord} {cs : List (Located Constraint)} :
    Harmless (q.constraintFindings seen cs) ↔
      (ConstraintWord.max ∉ seen → ∀ c, cs.find? (fun c ↦ c.node.word = .max) = some c →
        Text.WritesCount c.node.value.node) := by
  induction cs generalizing seen with
  | nil => simp [constraintFindings]
  | cons c cs ih =>
    unfold constraintFindings
    dsimp only
    split
    · next hseen =>
      by_cases hmax : c.node.word = .max
      · rw [hmax] at hseen
        simp +decide [ih, hseen]
      · simp +decide [ih, hmax]
    · next hseen =>
      split
      · next hinvalid =>
        obtain ⟨hmax, hcount⟩ := hinvalid
        rw [hmax] at hseen
        have hnot : ¬ Text.WritesCount c.node.value.node := by
          rw [← Text.isPositiveCount_iff]
          simpa using hcount
        simp +decide [hmax, hseen, hnot]
      · next hvalid =>
        by_cases hmax : c.node.word = .max
        · have hcount : Text.WritesCount c.node.value.node := by
            rw [← Text.isPositiveCount_iff]
            simpa [hmax] using hvalid
          simp [ih, hmax, hcount]
        · simp [ih, hmax, Ne.symm hmax]

theorem harmless_conditionFindings {hasEnvironment : Bool} {rule : Located LaunchRule} :
    Harmless (q.conditionFindings hasEnvironment rule) ↔
      ∀ c, rule.node.maximum? = some c → Text.WritesCount c.node.value.node := by
  unfold conditionFindings LaunchRule.maximum? LaunchRule.constraints
  cases rule.node.condition with
  | none => simp
  | some condition =>
    have hwarning : Harmless
        (if hasEnvironment then [] else [q.finding .conditionWithoutEnvironment [] rule.span]) := by
      cases hasEnvironment <;> simp +decide
    obtain ⟨entity, span⟩ := condition
    cases entity <;> simp [hwarning, harmless_constraintFindings]

theorem harmless_componentFindings {conditional : Bool} {c : LaunchComponent} :
    Harmless (q.componentFindings conditional c) ↔
      ∀ number, c.number = some number → Text.WritesCount number.node := by
  have hwarning : Harmless (if c.name.node = .wildcard ∧ !conditional then
      [q.finding .wildcardUnconditional [c.target.node.text] c.name.span] else []) := by
    split <;> simp +decide
  unfold componentFindings
  rw [harmless_append, and_iff_right hwarning]
  cases hnumber : c.number with
  | none => simp
  | some number =>
    by_cases hcount : Text.WritesCount number.node
    · have hpositive := Text.isPositiveCount_iff.2 hcount
      simp [hpositive, hcount]
    · have hpositive : Text.isPositiveCount number.node = false := by
        rw [← Bool.not_eq_true, Text.isPositiveCount_iff]
        exact hcount
      simp +decide [hpositive, hcount]

theorem harmless_policyFindings :
    Harmless (q.policyFindings mas) ↔
      (∀ c ∈ mas.components, ∀ number, c.number = some number → Text.WritesCount number.node) ∧
        ∀ rule ∈ mas.rules, ∀ c, rule.node.maximum? = some c →
          Text.WritesCount c.node.value.node := by
  have hrules : ∀ rules : List (Located LaunchRule),
      Harmless (rules.flatMap (q.ruleFindings mas.environment.isSome)) ↔
        (∀ c ∈ rules.flatMap fun rule ↦ rule.node.components.map Located.node,
          ∀ number, c.number = some number → Text.WritesCount number.node) ∧
          ∀ rule ∈ rules, ∀ c, rule.node.maximum? = some c →
            Text.WritesCount c.node.value.node := by
    intro rules
    simp only [harmless_flatMap, ruleFindings, harmless_append, harmless_conditionFindings,
      harmless_componentFindings, List.mem_flatMap, List.mem_map]
    constructor
    · intro h
      refine ⟨?_, fun rule hrule ↦ (h rule hrule).1⟩
      rintro c ⟨rule, hrule, located, hlocated, rfl⟩
      exact (h rule hrule).2 located hlocated
    · rintro ⟨hnumbers, hmaxima⟩ rule hrule
      exact ⟨hmaxima rule hrule, fun c hc ↦ hnumbers c.node ⟨rule, hrule, c, hc, rfl⟩⟩
  unfold policyFindings MasFile.components MasFile.rules
  cases mas.launchPolicy with
  | none =>
    have hwarning : (Diagnostic.of .launchPolicyEmpty [] (.fileStart q.map.file)).isError = false :=
      rfl
    simp [hwarning]
  | some policy =>
    dsimp only [Option.elim]
    split
    · next hnil => simp +decide [hnil]
    · exact hrules policy.node.rules

theorem harmless_environmentFindings {table : SymbolTable} :
    Harmless (q.environmentFindings table mas) ↔ ∀ env, mas.environment = some env →
      Text.hasExtension env.node.archive.node q.options.environmentExtension = true ∧
        (q.options.checkResources = true →
          q.probe.isPresent env.node.archive.node = true ∧
            q.probe.isArchive env.node.archive.node = .ok true) := by
  unfold environmentFindings
  cases mas.environment with
  | none => simp
  | some env =>
    have hextra : Harmless (q.extraFindings env.span mas.extraEnvironments) := by
      intro d hd
      obtain ⟨span, -, rfl⟩ := List.mem_map.1 hd
      rfl
    simp [harmless_archiveFindings, SymbolTable.harmless_declarationFindings, hextra]

/-! ## Units -/

theorem harmless_analyzeMas :
    Harmless (q.analyzeMas mas).diagnostics ↔ mas.IsValid q.probe q.options := by
  have huses : ∀ u ∈ (q.masTable mas).uses, u.category = .agentFile := by
    intro u hu
    rw [uses_masTable] at hu
    obtain ⟨c, -, rfl⟩ := List.mem_map.1 hu
    rfl
  have htargets : (∀ u ∈ (q.masTable mas).uses, (q.masTable mas).resolves u = true) ↔
      ∀ c ∈ mas.components, mas.Declares c.target.node := by
    simp only [uses_masTable, List.forall_mem_map, resolves_launchUse_iff]
  unfold analyzeMas
  simp only [harmless_append, harmless_environmentFindings,
    SymbolTable.harmless_declarationFindings, agentFileFindings, harmless_agentPathFindings,
    harmless_parameterFindings, harmless_policyFindings, SymbolTable.harmless_findings huses,
    htargets]
  constructor
  · rintro ⟨⟨⟨henvironment, hfiles⟩, hnumbers, hmaxima⟩, htargets⟩
    exact ⟨henvironment, fun f hf ↦ (hfiles f hf).1, fun f hf ↦ (hfiles f hf).2, htargets, hnumbers,
      hmaxima⟩
  · intro h
    exact ⟨⟨⟨h.environment, fun f hf ↦ ⟨h.agentPaths f hf, h.parameters f hf⟩⟩, h.numbers,
      h.maxima⟩, h.targets⟩

end Inquiry

namespace Report

open Diagnostic

/-- A unit succeeds when it reads without findings and what it says is valid. -/
theorem isSuccess_ofMas_iff (file source : String) (probe : Probe) (options : Options) :
    (ofMas file source probe options).isSuccess = true ↔
      ∃ mas, (UnitTree.ofMas file source).tree = some mas ∧
        (UnitTree.ofMas file source).diagnostics = [] ∧ mas.IsValid probe options := by
  have husable : ∀ mas, (UnitTree.ofMas file source).usableTree? = some mas ↔
      (UnitTree.ofMas file source).tree = some mas ∧
        (UnitTree.ofMas file source).diagnostics = [] :=
    fun mas ↦ UnitTree.usableTree?_eq_some_iff _ fun _ hd ↦ UnitTree.isError_of_mem_read hd
  have hsuccess : (ofMas file source probe options).isSuccess = true ↔
      Harmless (ofMas file source probe options).diagnostics := by
    rw [isSuccess, decide_eq_true_eq]
    exact errorCount_eq_zero_iff
  rw [hsuccess]
  unfold ofMas
  dsimp only
  cases hunit : (UnitTree.ofMas file source).usableTree? with
  | none =>
    obtain ⟨d, hd, herror⟩ :=
      UnitTree.exists_error_of_not_usable Grammar.realizes_masFile.explains hunit
    constructor
    · intro h
      cases herror.symm.trans (harmless_sortByPosition.1 h d hd)
    · rintro ⟨mas, htree, hdiagnostics, -⟩
      cases hunit.symm.trans ((husable mas).2 ⟨htree, hdiagnostics⟩)
  | some mas =>
    obtain ⟨htree, hdiagnostics⟩ := (husable mas).1 hunit
    dsimp only
    rw [harmless_sortByPosition, hdiagnostics, List.nil_append, Inquiry.harmless_analyzeMas]
    constructor
    · exact fun h ↦ ⟨mas, htree, rfl, h⟩
    · rintro ⟨mas', htree', -, h⟩
      obtain rfl := Option.some.inj (htree.symm.trans htree')
      exact h

end Report

end MasCheck
