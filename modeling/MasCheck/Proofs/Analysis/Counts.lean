import MasCheck.Proofs.Analysis.FindingKinds
import MasCheck.Proofs.Analysis.Validity
import MasCheck.Proofs.Lists.Basic
import MasCheck.Proofs.Lists.Chosen

/-!
# How often something is found

The checks of launch rules and of parameters are passed from item to item with what was seen so
far. The findings of one kind are here listed without that: the places in the tree that give rise
to the kind are collected, by what stands before each of them where that matters, and the findings
are those places, one for each and in the same order.
-/

namespace MasCheck

/-! ## Agent files -/

instance : DecidablePred Text.WritesCount :=
  fun _ ↦ decidable_of_iff _ Text.isPositiveCount_iff

theorem Text.decide_not_writesCount (text : String) :
    decide (¬ Text.WritesCount text) = !Text.isPositiveCount text := by
  simp [← isPositiveCount_iff]

open Diagnostic (ofKind)

namespace Inquiry

variable (q : Inquiry) {mas : MasFile}

theorem ofKind_agentFileParameterUnknown_parameterFindings (path : String) (seen : List String)
    (ps : List (Located Parameter)) :
    ofKind .agentFileParameterUnknown (q.parameterFindings path seen ps) =
      (ps.filter fun p ↦ p.node.key.node ∉ agentFileParameters).map fun p ↦
        q.finding .agentFileParameterUnknown
          [p.node.key.node, String.intercalate ", " agentFileParameters] p.node.key.span := by
  induction ps generalizing seen with
  | nil => rfl
  | cons p ps ih =>
    unfold parameterFindings
    dsimp only
    split
    · next hunknown => simp [ih, hunknown]
    · next hknown =>
      split <;> simp [ih, Decidable.not_not.1 hknown]

/-- Unknown parameters are never taken for seen. -/
theorem ofKind_agentFileParameterRepeated_parameterFindings (path : String) (seen : List String)
    (ps : List (Located Parameter)) :
    ofKind .agentFileParameterRepeated (q.parameterFindings path seen ps) =
      (repeatsAfter (fun p ↦ p.node.key.node) seen
        (ps.filter fun p ↦ p.node.key.node ∈ agentFileParameters)).map fun p ↦
          q.finding .agentFileParameterRepeated [p.node.key.node, path] p.node.key.span := by
  induction ps generalizing seen with
  | nil => rfl
  | cons p ps ih =>
    unfold parameterFindings
    dsimp only
    split
    · next hunknown => simp [ih, hunknown]
    · next hknown =>
      rw [List.filter_cons, if_pos (decide_eq_true (Decidable.not_not.1 hknown)),
        repeatsAfter_cons]
      split
      · next hseen =>
        have hlisted : ∀ key, key ∈ seen ↔ key ∈ p.node.key.node :: seen := by
          intro key
          rw [List.mem_cons]
          exact ⟨.inr, fun h ↦ h.elim (fun h ↦ h ▸ hseen) id⟩
        simp [ih, repeatsAfter_congr _ hlisted]
      · simp [ih]

/-! ## Launch rules -/

/-- Constraints of a kind that a rule has already. -/
theorem ofKind_constraintRepeated_constraintFindings (seen : List ConstraintWord)
    (cs : List (Located Constraint)) :
    ofKind .constraintRepeated (q.constraintFindings seen cs) =
      (repeatsAfter (fun c ↦ c.node.word) seen cs).map fun c ↦
        q.finding .constraintRepeated [c.node.word.text] c.span := by
  induction cs generalizing seen with
  | nil => rfl
  | cons c cs ih =>
    rw [repeatsAfter_cons]
    unfold constraintFindings
    dsimp only
    split
    · next hseen =>
      have hlisted : ∀ word, word ∈ seen ↔ word ∈ c.node.word :: seen := by
        intro word
        rw [List.mem_cons]
        exact ⟨.inr, fun h ↦ h.elim (fun h ↦ h ▸ hseen) id⟩
      simp [ih, repeatsAfter_congr _ hlisted]
    · split <;> simp [ih]

/-- Of the maxima only the first is looked at, and none if there was one before. -/
theorem ofKind_constraintNumberInvalid_constraintFindings (seen : List ConstraintWord)
    (cs : List (Located Constraint)) :
    ofKind .constraintNumberInvalid (q.constraintFindings seen cs) =
      if ConstraintWord.max ∈ seen then [] else
        (((cs.find? fun c ↦ c.node.word = .max).filter fun c ↦
          ¬ Text.WritesCount c.node.value.node).toList.map fun c ↦
            q.finding .constraintNumberInvalid [c.node.value.node] c.node.value.span) := by
  simp only [Text.decide_not_writesCount]
  induction cs generalizing seen with
  | nil => simp [constraintFindings]
  | cons c cs ih =>
    unfold constraintFindings
    dsimp only
    split
    · next hseen =>
      by_cases hmax : c.node.word = .max
      · rw [hmax] at hseen
        simp [ih, hseen]
      · simp [ih, hmax]
    · next hseen =>
      by_cases hmax : c.node.word = .max
      · rw [hmax] at hseen
        cases hcount : Text.isPositiveCount c.node.value.node <;>
          simp [ih, hmax, hseen, hcount, Option.filter]
      · simp [ih, hmax, Ne.symm hmax]

theorem componentFindings_eq (conditional : Bool) (c : LaunchComponent) :
    q.componentFindings conditional c =
      (if c.name.node = .wildcard ∧ !conditional then
        [q.finding .wildcardUnconditional [c.target.node.text] c.name.span] else []) ++
      (c.number.filter fun number ↦ ¬ Text.WritesCount number.node).toList.map fun number ↦
        q.finding .launchNumberInvalid [number.node] number.span := by
  simp only [Text.decide_not_writesCount]
  unfold componentFindings
  congr 1
  cases c.number with
  | none => rfl
  | some number =>
    cases hcount : Text.isPositiveCount number.node <;> simp [hcount, Option.filter]

theorem ofKind_conditionWithoutEnvironment_conditionFindings (hasEnvironment : Bool)
    (rule : Located LaunchRule) :
    ofKind .conditionWithoutEnvironment (q.conditionFindings hasEnvironment rule) =
      if rule.node.isConditional && !hasEnvironment then
        [q.finding .conditionWithoutEnvironment [] rule.span] else [] := by
  have hconstraints : ∀ cs, ofKind .conditionWithoutEnvironment (q.constraintFindings [] cs) = [] :=
    fun cs ↦ (q.areOf_constraintFindings [] cs).ofKind_eq_nil (by decide)
  unfold conditionFindings LaunchRule.isConditional
  cases rule.node.condition with
  | none => rfl
  | some condition =>
    obtain ⟨entity, span⟩ := condition
    cases hasEnvironment <;> cases entity <;> simp [hconstraints]

/-- Findings about constraints are those of the constraints of the rule. -/
theorem ofKind_conditionFindings (hasEnvironment : Bool) (rule : Located LaunchRule) {kind : Kind}
    (hkind : kind ≠ .conditionWithoutEnvironment) :
    ofKind kind (q.conditionFindings hasEnvironment rule) =
      ofKind kind (q.constraintFindings [] rule.node.constraints) := by
  unfold conditionFindings LaunchRule.constraints
  cases rule.node.condition with
  | none => rfl
  | some condition =>
    obtain ⟨entity, span⟩ := condition
    cases hasEnvironment <;> cases entity <;> simp [constraintFindings, Ne.symm hkind]

theorem ofKind_ruleFindings_of_condition {kind : Kind} (hkind : kind ∉ componentKinds)
    {hasEnvironment : Bool} {rule : Located LaunchRule} :
    ofKind kind (q.ruleFindings hasEnvironment rule) =
      ofKind kind (q.conditionFindings hasEnvironment rule) := by
  simp [ruleFindings, (q.areOf_componentFindings _ _).ofKind_eq_nil hkind]

theorem ofKind_ruleFindings_of_component {kind : Kind} (hkind : kind ∉ conditionKinds)
    {hasEnvironment : Bool} {rule : Located LaunchRule} :
    ofKind kind (q.ruleFindings hasEnvironment rule) =
      rule.node.components.flatMap fun c ↦
        ofKind kind (q.componentFindings rule.node.isConditional c.node) := by
  simp [ruleFindings, (q.areOf_conditionFindings _ _).ofKind_eq_nil hkind]

theorem ofKind_policyFindings {kind : Kind} (hkind : kind ≠ .launchPolicyEmpty) :
    ofKind kind (q.policyFindings mas) =
      mas.rules.flatMap fun rule ↦ ofKind kind (q.ruleFindings mas.environment.isSome rule) := by
  unfold policyFindings MasFile.rules
  cases mas.launchPolicy with
  | none => simp [Diagnostic.of, Diagnostic.ofCatalog, Ne.symm hkind]
  | some policy =>
    dsimp only [Option.elim]
    split
    · next hnil => simp [hnil, Ne.symm hkind]
    · exact Diagnostic.ofKind_flatMap ..

end Inquiry

/-! ## The places of findings -/

/-- The name that a launch instruction gives to its agents. -/
def LaunchComponent.explicitName? (c : LaunchComponent) : Option String :=
  match c.name.node with
  | .named name => some name
  | .wildcard => none

namespace MasFile

def repeatedConstraints (mas : MasFile) : List (Located Constraint) :=
  mas.rules.flatMap fun rule ↦ repeats (fun c ↦ c.node.word) rule.node.constraints

def invalidMaxima (mas : MasFile) : List (Located Constraint) :=
  mas.rules.filterMap fun rule ↦
    rule.node.maximum?.filter fun c ↦ ¬ Text.WritesCount c.node.value.node

def invalidNumbers (mas : MasFile) : List (Located String) :=
  mas.components.filterMap fun c ↦ c.number.filter fun number ↦ ¬ Text.WritesCount number.node

def unconditionalWildcards (mas : MasFile) : List LaunchComponent :=
  (mas.rules.filter fun rule ↦ !rule.node.isConditional).flatMap fun rule ↦
    (rule.node.components.map Located.node).filter fun c ↦ c.name.node = .wildcard

/-- Rules that wait for something in an environment that the file does not have. -/
def unservedRules (mas : MasFile) : List (Located LaunchRule) :=
  if mas.environment.isSome then [] else mas.rules.filter fun rule ↦ rule.node.isConditional

def unknownParameters (mas : MasFile) : List (Located Parameter) :=
  mas.agentFiles.flatMap fun f ↦
    f.node.parameters.filter fun p ↦ p.node.key.node ∉ agentFileParameters

/-- The repetitions of a known parameter in one declaration, each with the agent file. -/
def repeatedParameters (mas : MasFile) : List (AgentFile × Located Parameter) :=
  mas.agentFiles.flatMap fun f ↦
    (repeats (fun p ↦ p.node.key.node)
      (f.node.parameters.filter fun p ↦ p.node.key.node ∈ agentFileParameters)).map (f.node, ·)

end MasFile

namespace Inquiry

variable (q : Inquiry) {mas : MasFile}

/-! ## Counts -/

theorem ofKind_analyzeMas_of_parameter {kind : Kind} (hkind : kind ∈ parameterKinds) :
    ofKind kind (q.analyzeMas mas).diagnostics =
      mas.agentFiles.flatMap fun f ↦
        ofKind kind (q.parameterFindings f.node.path.node [] f.node.parameters) := by
  have hparameter : ∀ kind ∈ parameterKinds,
      kind ∈ agentFileKinds ∧ kind ∉ repeatedKinds ∧ kind ∉ agentPathKinds := by decide
  obtain ⟨hfile, hrepeated, hpath⟩ := hparameter kind hkind
  rw [q.ofKind_analyzeMas_of_agentFile hfile hrepeated]
  simp [agentFileFindings, (q.areOf_agentPathFindings _).ofKind_eq_nil hpath]

theorem ofKind_constraintRepeated (mas : MasFile) :
    ofKind .constraintRepeated (q.analyzeMas mas).diagnostics =
      mas.repeatedConstraints.map fun c ↦
        q.finding .constraintRepeated [c.node.word.text] c.span := by
  have hrule : ∀ rule, ofKind .constraintRepeated (q.ruleFindings mas.environment.isSome rule) =
      (repeats (fun c ↦ c.node.word) rule.node.constraints).map fun c ↦
        q.finding .constraintRepeated [c.node.word.text] c.span := by
    intro rule
    rw [q.ofKind_ruleFindings_of_condition (by decide), q.ofKind_conditionFindings _ _ (by decide),
      q.ofKind_constraintRepeated_constraintFindings, repeatsAfter_empty]
  rw [q.ofKind_analyzeMas_of_policy (by decide), q.ofKind_policyFindings (by decide)]
  simp only [hrule, MasFile.repeatedConstraints, List.map_flatMap]

theorem ofKind_constraintNumberInvalid (mas : MasFile) :
    ofKind .constraintNumberInvalid (q.analyzeMas mas).diagnostics =
      mas.invalidMaxima.map fun c ↦
        q.finding .constraintNumberInvalid [c.node.value.node] c.node.value.span := by
  have hrule : ∀ rule, ofKind .constraintNumberInvalid
      (q.ruleFindings mas.environment.isSome rule) =
      (rule.node.maximum?.filter fun c ↦ ¬ Text.WritesCount c.node.value.node).toList.map fun c ↦
        q.finding .constraintNumberInvalid [c.node.value.node] c.node.value.span := by
    intro rule
    rw [q.ofKind_ruleFindings_of_condition (by decide), q.ofKind_conditionFindings _ _ (by decide),
      q.ofKind_constraintNumberInvalid_constraintFindings, if_neg List.not_mem_nil]
    rfl
  rw [q.ofKind_analyzeMas_of_policy (by decide), q.ofKind_policyFindings (by decide)]
  simp only [hrule, MasFile.invalidMaxima, List.filterMap_eq_flatMap_toList, List.map_flatMap]

theorem ofKind_launchNumberInvalid (mas : MasFile) :
    ofKind .launchNumberInvalid (q.analyzeMas mas).diagnostics =
      mas.invalidNumbers.map fun number ↦
        q.finding .launchNumberInvalid [number.node] number.span := by
  have hrule : ∀ rule, ofKind .launchNumberInvalid (q.ruleFindings mas.environment.isSome rule) =
      (rule.node.components.map Located.node).flatMap fun c ↦
        (c.number.filter fun number ↦ ¬ Text.WritesCount number.node).toList.map fun number ↦
          q.finding .launchNumberInvalid [number.node] number.span := by
    intro rule
    rw [q.ofKind_ruleFindings_of_component (by decide), List.flatMap_map]
    refine List.flatMap_congr fun c _ ↦ ?_
    rw [componentFindings_eq, Diagnostic.ofKind_append, ofKind_map_finding, if_pos rfl]
    split <;> simp
  rw [q.ofKind_analyzeMas_of_policy (by decide), q.ofKind_policyFindings (by decide)]
  simp only [hrule, MasFile.invalidNumbers, MasFile.components, MasFile.rules,
    List.filterMap_eq_flatMap_toList, List.map_flatMap, List.flatMap_assoc]

theorem ofKind_wildcardUnconditional (mas : MasFile) :
    ofKind .wildcardUnconditional (q.analyzeMas mas).diagnostics =
      mas.unconditionalWildcards.map fun c ↦
        q.finding .wildcardUnconditional [c.target.node.text] c.name.span := by
  have hrule : ∀ rule, ofKind .wildcardUnconditional
      (q.ruleFindings mas.environment.isSome rule) =
      if !rule.node.isConditional then
        ((rule.node.components.map Located.node).filter fun c ↦ c.name.node = .wildcard).map
          fun c ↦ q.finding .wildcardUnconditional [c.target.node.text] c.name.span
      else [] := by
    intro rule
    rw [q.ofKind_ruleFindings_of_component (by decide)]
    simp only [componentFindings_eq, Diagnostic.ofKind_append, ofKind_map_finding]
    induction rule.node.components with
    | nil => simp
    | cons c cs ih =>
      rw [List.flatMap_cons, ih]
      cases rule.node.isConditional <;> by_cases h : c.node.name.node = .wildcard <;> simp [h]
  rw [q.ofKind_analyzeMas_of_policy (by decide), q.ofKind_policyFindings (by decide)]
  simp only [hrule, flatMap_ite, MasFile.unconditionalWildcards, List.map_flatMap]

theorem ofKind_conditionWithoutEnvironment (mas : MasFile) :
    ofKind .conditionWithoutEnvironment (q.analyzeMas mas).diagnostics =
      mas.unservedRules.map fun rule ↦
        q.finding .conditionWithoutEnvironment [] rule.span := by
  have hrule : ∀ rule, ofKind .conditionWithoutEnvironment
      (q.ruleFindings mas.environment.isSome rule) =
      if rule.node.isConditional && !mas.environment.isSome then
        [q.finding .conditionWithoutEnvironment [] rule.span] else [] := by
    intro rule
    rw [q.ofKind_ruleFindings_of_condition (by decide),
      q.ofKind_conditionWithoutEnvironment_conditionFindings]
  rw [q.ofKind_analyzeMas_of_policy (by decide), q.ofKind_policyFindings (by decide)]
  simp only [hrule, flatMap_ite, MasFile.unservedRules, ← List.map_eq_flatMap]
  cases mas.environment.isSome <;> simp

theorem ofKind_launchPolicyEmpty (mas : MasFile) :
    ofKind .launchPolicyEmpty (q.analyzeMas mas).diagnostics =
      if mas.rules = [] then
        [.of .launchPolicyEmpty []
          (mas.launchPolicy.elim (.fileStart q.map.file) fun policy ↦ q.map.position policy.span)]
      else [] := by
  have hrule : ∀ rule,
      ofKind .launchPolicyEmpty (q.ruleFindings mas.environment.isSome rule) = [] := by
    intro rule
    rw [q.ofKind_ruleFindings_of_condition (by decide)]
    exact (q.areOf_conditionFindings _ _).ofKind_eq_nil (by decide)
  rw [q.ofKind_analyzeMas_of_policy (by decide)]
  unfold policyFindings
  cases hpolicy : mas.launchPolicy with
  | none =>
    have hrules : mas.rules = [] := by rw [MasFile.rules, hpolicy]; rfl
    rw [if_pos hrules]
    rfl
  | some policy =>
    have hrules : mas.rules = policy.node.rules := by rw [MasFile.rules, hpolicy]; rfl
    rw [hrules]
    dsimp only
    split
    · rfl
    · simp [hrule]

theorem ofKind_agentFileParameterUnknown (mas : MasFile) :
    ofKind .agentFileParameterUnknown (q.analyzeMas mas).diagnostics =
      mas.unknownParameters.map fun p ↦
        q.finding .agentFileParameterUnknown
          [p.node.key.node, String.intercalate ", " agentFileParameters] p.node.key.span := by
  rw [q.ofKind_analyzeMas_of_parameter (by decide)]
  simp only [q.ofKind_agentFileParameterUnknown_parameterFindings, MasFile.unknownParameters,
    List.map_flatMap]

theorem ofKind_agentFileParameterRepeated (mas : MasFile) :
    ofKind .agentFileParameterRepeated (q.analyzeMas mas).diagnostics =
      mas.repeatedParameters.map fun fp ↦
        q.finding .agentFileParameterRepeated [fp.2.node.key.node, fp.1.path.node]
          fp.2.node.key.span := by
  rw [q.ofKind_analyzeMas_of_parameter (by decide)]
  simp only [q.ofKind_agentFileParameterRepeated_parameterFindings, MasFile.repeatedParameters,
    repeatsAfter_empty, List.map_flatMap, List.map_map, Function.comp_def]

theorem ofKind_environmentRepeated (mas : MasFile) :
    ofKind .environmentRepeated (q.analyzeMas mas).diagnostics =
      mas.environment.elim [] fun env ↦ mas.extraEnvironments.map fun span ↦
        q.finding .environmentRepeated [(q.map.position env.span).text] span := by
  have henvironment : Kind.environmentRepeated ∈ environmentKinds := by decide
  rw [q.ofKind_analyzeMas_of_environment mas henvironment]
  unfold environmentFindings extraFindings
  cases mas.environment with
  | none => rfl
  | some env =>
    dsimp only [Option.elim]
    rw [Diagnostic.ofKind_append, Diagnostic.ofKind_append, ofKind_map_finding, if_pos rfl,
      (q.areOf_archiveFindings _).ofKind_eq_nil (by decide),
      SymbolTable.ofKind_declarationFindings (by decide)]
    simp

end Inquiry

/-- The findings about launch rules, parameters and second environments, each with its place, and
what the analysis says of launched agents. -/
structure MasAnalysis.CountsExactly (a : MasAnalysis) (q : Inquiry) (mas : MasFile) : Prop where
  constraintRepeated : ofKind .constraintRepeated a.diagnostics =
    mas.repeatedConstraints.map fun c ↦ q.finding .constraintRepeated [c.node.word.text] c.span
  constraintNumberInvalid : ofKind .constraintNumberInvalid a.diagnostics =
    mas.invalidMaxima.map fun c ↦
      q.finding .constraintNumberInvalid [c.node.value.node] c.node.value.span
  launchNumberInvalid : ofKind .launchNumberInvalid a.diagnostics =
    mas.invalidNumbers.map fun number ↦ q.finding .launchNumberInvalid [number.node] number.span
  wildcardUnconditional : ofKind .wildcardUnconditional a.diagnostics =
    mas.unconditionalWildcards.map fun c ↦
      q.finding .wildcardUnconditional [c.target.node.text] c.name.span
  conditionWithoutEnvironment : ofKind .conditionWithoutEnvironment a.diagnostics =
    mas.unservedRules.map fun rule ↦ q.finding .conditionWithoutEnvironment [] rule.span
  launchPolicyEmpty : ofKind .launchPolicyEmpty a.diagnostics =
    if mas.rules = [] then
      [.of .launchPolicyEmpty []
        (mas.launchPolicy.elim (.fileStart q.map.file) fun policy ↦ q.map.position policy.span)]
    else []
  agentFileParameterUnknown : ofKind .agentFileParameterUnknown a.diagnostics =
    mas.unknownParameters.map fun p ↦
      q.finding .agentFileParameterUnknown
        [p.node.key.node, String.intercalate ", " agentFileParameters] p.node.key.span
  agentFileParameterRepeated : ofKind .agentFileParameterRepeated a.diagnostics =
    mas.repeatedParameters.map fun fp ↦
      q.finding .agentFileParameterRepeated [fp.2.node.key.node, fp.1.path.node]
        fp.2.node.key.span
  environmentRepeated : ofKind .environmentRepeated a.diagnostics =
    mas.environment.elim [] fun env ↦ mas.extraEnvironments.map fun span ↦
      q.finding .environmentRepeated [(q.map.position env.span).text] span
  hasWildcard : a.hasWildcard = true ↔ ∃ c ∈ mas.components, c.name.node = .wildcard
  launched : a.launched = firstOccurrences (mas.components.filterMap LaunchComponent.explicitName?)

theorem Inquiry.analyzeMas_countsExactly (q : Inquiry) (mas : MasFile) :
    (q.analyzeMas mas).CountsExactly q mas where
  constraintRepeated := q.ofKind_constraintRepeated mas
  constraintNumberInvalid := q.ofKind_constraintNumberInvalid mas
  launchNumberInvalid := q.ofKind_launchNumberInvalid mas
  wildcardUnconditional := q.ofKind_wildcardUnconditional mas
  conditionWithoutEnvironment := q.ofKind_conditionWithoutEnvironment mas
  launchPolicyEmpty := q.ofKind_launchPolicyEmpty mas
  agentFileParameterUnknown := q.ofKind_agentFileParameterUnknown mas
  agentFileParameterRepeated := q.ofKind_agentFileParameterRepeated mas
  environmentRepeated := q.ofKind_environmentRepeated mas
  hasWildcard := by
    change mas.hasWildcard = true ↔ _
    simp [MasFile.hasWildcard]
  launched := eraseDups_eq_firstOccurrences _

end MasCheck
