import MasCheck.Proofs.Analysis.Validity
import MasCheck.Proofs.Report.Gate

/-!
# Tested agents

A script is compared with a MAS file through a table of its own, in which the agents of the file
are declared before the tests are looked at. All that this finds out about the file is which of the
tested agents it can launch.
-/

namespace MasCheck

def SourceMap.unknownFinding (m : SourceMap) (script : TestScript) (t : Located AgentTest) :
    Diagnostic :=
  m.diagnostic .agentUnknown [t.node.agent.node, script.mas.node] t.node.agent.span

/-- Nothing that is known speaks against the agent. -/
def MasAnalysis.admits (mas : Option MasAnalysis) (agent : String) : Bool :=
  mas.all fun a ↦ a.canLaunch agent

namespace SymbolTable

variable {α : Type} {symbol : α → Symbol} {findings : α → List Diagnostic} {items : List α}
  {category : Category}

/-- Tables with the same symbols of a category are alike for items of that category. -/
theorem declarationFindings_congr {t t' : SymbolTable}
    (hitems : ∀ x ∈ items, (symbol x).category = category)
    (h : ∀ name, t.find? category name = t'.find? category name) :
    t.declarationFindings symbol findings items = t'.declarationFindings symbol findings items := by
  induction items generalizing t t' with
  | nil => rfl
  | cons x items ih =>
    obtain ⟨hx, hitems⟩ := List.forall_mem_cons.1 hitems
    have hrepetition : t.repetition? (symbol x) = t'.repetition? (symbol x) := by
      rw [repetition?, repetition?, hx, h]
    have hrest : ∀ name, (t.declare (symbol x)).find? category name =
        (t'.declare (symbol x)).find? category name := by
      intro name
      rw [find?_declare, find?_declare, h]
    rw [declarationFindings, declarationFindings, hrepetition, ih hitems hrest]

end SymbolTable

/-! ## The checks of a script -/

namespace Inquiry

open Diagnostic

variable (q : Inquiry) {mas : Option MasAnalysis} {script : TestScript} {d : Diagnostic}

/-- What there is to say about agents that are tested more than once. -/
def repeatedTests (tests : List (Located AgentTest)) : List Diagnostic :=
  (SymbolTable.empty q.map.file).declarationFindings q.testSymbol (fun _ ↦ []) tests

def unknownFindings (mas : Option MasAnalysis) (script : TestScript) : List Diagnostic :=
  (script.tests.filter fun t ↦ !MasAnalysis.admits mas t.node.agent.node).map
    (q.map.unknownFinding script)

theorem declarationFindings_agentTable (mas : Option MasAnalysis)
    (tests : List (Located AgentTest)) :
    (q.agentTable mas).declarationFindings q.testSymbol (fun _ ↦ []) tests =
      q.repeatedTests tests := by
  have htests : ∀ t ∈ tests, (q.testSymbol t).category = .agentTest := fun _ _ ↦ rfl
  refine SymbolTable.declarationFindings_congr htests fun name ↦ ?_
  refine SymbolTable.find?_eq_none_iff.2 fun s hs hkey ↦ ?_
  have hcategory := (congrArg Prod.fst hkey).symm.trans (q.category_of_mem_agentTable hs)
  cases hcategory

theorem exists_agent_iff {name : String} :
    (∃ s ∈ (q.agentTable mas).symbols, s.key = (.agent, name)) ↔
      ∃ a ∈ mas, name ∈ a.agentNames := by
  rw [agentTable, SymbolTable.exists_key_declareAll]
  cases mas <;> simp [SymbolTable.empty, agentSymbol, Symbol.key]

/-! ### Uses of agents -/

section

variable (uses : List Use)

/-- The table of a script that is compared with these agents. -/
def scriptTable (mas : Option MasAnalysis) (script : TestScript) (uses : List Use) : SymbolTable :=
  ((q.agentTable mas).declareAll q.testSymbol script.tests).referAll uses

theorem resolves_scriptTable (t : Located AgentTest) :
    (q.scriptTable mas script uses).resolves (q.testUse script t) = true ↔
      ∃ a ∈ mas, t.node.agent.node ∈ a.agentNames := by
  have htests : ¬ ∃ test ∈ script.tests,
      (q.testSymbol test).key = (.agent, t.node.agent.node) := by
    rintro ⟨test, -, hkey⟩
    cases congrArg Prod.fst hkey
  rw [SymbolTable.resolves_iff, ← q.exists_agent_iff]
  refine Iff.trans ?_ (or_iff_left htests)
  rw [← SymbolTable.exists_key_declareAll]
  exact exists_congr fun s ↦ and_congr_right fun _ ↦ Use.asksFor_iff_of_name rfl

/-- No agent files are declared in a script, so that none are unused. -/
theorem findings_scriptTable : (q.scriptTable mas script uses).findings =
    (uses.filter fun u ↦ !(q.scriptTable mas script uses).resolves u).filterMap
      Use.undeclared? := by
  have huses : (q.scriptTable mas script uses).uses = uses := by
    change ((q.agentTable mas).declareAll q.testSymbol script.tests).uses ++ uses = uses
    rw [uses_declareAll, agentTable, uses_declareAll]
    rfl
  have hunused : (q.scriptTable mas script uses).graph.unused .agentFile = [] := by
    refine List.eq_nil_iff_forall_not_mem.2 fun s hs ↦ ?_
    obtain ⟨hmem, hcategory⟩ := SymbolTable.mem_unused hs
    exact q.category_of_mem_scriptTable hmem hcategory
  unfold SymbolTable.findings
  rw [SymbolTable.undeclared_graph, huses, hunused, List.map_nil, ite_self, List.append_nil]

end

theorem findings_analyzeScript (mas : Option MasAnalysis) (script : TestScript) :
    (q.analyzeScript mas script).table.findings = q.unknownFindings mas script := by
  have hnone : ∀ mas, (∀ agent, MasAnalysis.admits mas agent = true) →
      (q.scriptTable none script []).findings = q.unknownFindings mas script := by
    intro mas hadmits
    simp [findings_scriptTable, unknownFindings, hadmits]
  cases mas with
  | none => exact hnone none fun _ ↦ rfl
  | some a =>
    cases hwildcard : a.hasWildcard with
    | true =>
      have hchecked : (some a).filter (fun a ↦ !a.hasWildcard) = none := by simp [hwildcard]
      unfold analyzeScript
      dsimp only
      rw [hchecked]
      exact hnone (some a) fun agent ↦ by
        simp [MasAnalysis.admits, MasAnalysis.canLaunch, hwildcard]
    | false =>
      have hchecked : (some a).filter (fun a ↦ !a.hasWildcard) = some a := by simp [hwildcard]
      have hresolves : ∀ t : Located AgentTest,
          (q.scriptTable (some a) script (script.tests.map (q.testUse script))).resolves
            (q.testUse script t) = MasAnalysis.admits (some a) t.node.agent.node := by
        intro t
        rw [Bool.eq_iff_iff, resolves_scriptTable]
        simp [MasAnalysis.admits, MasAnalysis.canLaunch, hwildcard]
      unfold analyzeScript
      dsimp only
      rw [hchecked]
      change (q.scriptTable (some a) script (script.tests.map (q.testUse script))).findings = _
      rw [findings_scriptTable, List.filter_map, List.filterMap_map]
      simp only [Function.comp_def, hresolves]
      exact congrFun (List.filterMap_eq_map (f := q.map.unknownFinding script)) _

theorem diagnostics_analyzeScript (mas : Option MasAnalysis) (script : TestScript) :
    (q.analyzeScript mas script).diagnostics =
      q.masPathFindings script.mas ++ q.timeoutFindings script.timeout ++
        q.repeatedTests script.tests ++ q.unknownFindings mas script := by
  rw [← findings_analyzeScript, ← q.declarationFindings_agentTable]
  rfl

/-! ### Kinds and errors -/

theorem kind_of_mem_unknownFindings (hd : d ∈ q.unknownFindings mas script) :
    d.kind = .agentUnknown := by
  obtain ⟨t, -, rfl⟩ := List.mem_map.1 hd
  rfl

theorem kind_of_other_finding (hd : d ∈ q.masPathFindings script.mas ++
      q.timeoutFindings script.timeout ++ q.repeatedTests script.tests) :
    d.kind ≠ .agentUnknown := by
  rcases List.mem_append.1 hd with hd | hd
  · rcases List.mem_append.1 hd with hd | hd
    · obtain rfl := mem_masPathFindings hd
      nofun
    · obtain ⟨seconds, -, rfl⟩ := mem_timeoutFindings hd
      nofun
  · rcases SymbolTable.mem_declarationFindings hd with ⟨_, -, hd⟩ | ⟨t, -, kind, hkind, first, rfl⟩
    · exact absurd hd List.not_mem_nil
    · obtain rfl := Option.some.inj hkind
      nofun

theorem filter_analyzeScript (mas : Option MasAnalysis) (script : TestScript) :
    ((q.analyzeScript mas script).diagnostics.filter fun d ↦ d.kind = .agentUnknown) =
      q.unknownFindings mas script := by
  rw [diagnostics_analyzeScript, List.filter_append, List.filter_eq_nil_iff.2, List.nil_append,
    List.filter_eq_self]
  · exact fun d hd ↦ decide_eq_true (q.kind_of_mem_unknownFindings hd)
  · exact fun d hd ↦ by simpa using q.kind_of_other_finding hd

theorem harmless_masPathFindings {path : Located String} : Harmless (q.masPathFindings path) ↔
    (q.options.checkResources = true → q.probe.isPresent path.node = true) := by
  rw [← lacks_eq_false_iff]
  unfold masPathFindings
  cases q.lacks path.node <;> simp +decide

theorem harmless_timeoutFindings {timeout : Option (Located String)} :
    Harmless (q.timeoutFindings timeout) ↔
      ∀ seconds, timeout = some seconds → Text.WritesCount seconds.node := by
  cases timeout with
  | none => simp [timeoutFindings]
  | some seconds =>
    unfold timeoutFindings
    dsimp only
    simp only [Option.some.injEq, forall_eq', ← Text.isPositiveCount_iff]
    cases Text.isPositiveCount seconds.node <;> simp +decide

theorem harmless_unknownFindings : Harmless (q.unknownFindings mas script) ↔
    ∀ t ∈ script.tests, MasAnalysis.admits mas t.node.agent.node = true := by
  unfold unknownFindings
  constructor
  · intro h t ht
    by_contra hadmits
    have hmem : t ∈ script.tests.filter fun t ↦ !MasAnalysis.admits mas t.node.agent.node :=
      List.mem_filter.2 ⟨ht, by simpa using hadmits⟩
    cases h _ (List.mem_map_of_mem hmem)
  · intro h d hd
    obtain ⟨t, ht, rfl⟩ := List.mem_map.1 hd
    obtain ⟨ht, hnot⟩ := List.mem_filter.1 ht
    rw [h t ht] at hnot
    cases hnot

theorem harmless_analyzeScript : Harmless (q.analyzeScript mas script).diagnostics ↔
    (q.options.checkResources = true → q.probe.isPresent script.mas.node = true) ∧
      (∀ seconds, script.timeout = some seconds → Text.WritesCount seconds.node) ∧
        ∀ t ∈ script.tests, MasAnalysis.admits mas t.node.agent.node = true := by
  have hrepeated : Harmless (q.repeatedTests script.tests) :=
    SymbolTable.harmless_declarationFindings.2 fun _ _ ↦ harmless_nil
  rw [diagnostics_analyzeScript, harmless_append, harmless_append, harmless_append,
    harmless_masPathFindings, harmless_timeoutFindings, harmless_unknownFindings,
    and_iff_left hrepeated, and_assoc]

end Inquiry

/-! ## Reports on scripts -/

namespace Report

/-- The findings of a report that are of one kind. -/
def ofKind (r : Report) (kind : Kind) : List Diagnostic :=
  r.diagnostics.filter fun d ↦ d.kind = kind

/-- Reports on a script, one for each analysis that it may be compared with, agree with what the
analysis says about launching agents. -/
structure AgreesOnAgents (script : TestScript) (m : SourceMap) (probe : Probe) (options : Options)
    (report : Option MasAnalysis → Report) : Prop where
  unknown : ∀ a, ((report (some a)).ofKind .agentUnknown).Perm
    ((script.tests.filter fun t ↦ !a.canLaunch t.node.agent.node).map (m.unknownFinding script))
  unchecked : (report none).ofKind .agentUnknown = []
  canLaunch : ∀ a b, (∀ t ∈ script.tests,
    a.canLaunch t.node.agent.node = b.canLaunch t.node.agent.node) →
      report (some a) = report (some b)
  success : ∀ mas, (report mas).isSuccess = true ↔
    (options.checkResources = true → probe.isPresent script.mas.node = true) ∧
      (∀ seconds, script.timeout = some seconds → Text.WritesCount seconds.node) ∧
        ∀ a, mas = some a → ∀ t ∈ script.tests, a.canLaunch t.node.agent.node = true

variable {file source : String} {script : TestScript}

theorem ofScript_eq (mas : Option MasAnalysis) (probe : Probe) (options : Options)
    (hscript : (UnitTree.ofScript file source).usableTree? = some script) :
    ofScript file source mas probe options =
      { file
        diagnostics := Diagnostic.sortByPosition
          (Inquiry.analyzeScript ⟨.ofText file source, probe, options⟩ mas script).diagnostics
        analyzed := true
        analysis := none } := by
  have hnil : (UnitTree.ofScript file source).diagnostics = [] :=
    (UnitTree.usableTree?_read_eq_some_iff.1 hscript).2
  unfold ofScript
  dsimp only
  rw [hscript, hnil]
  rfl

/-- A script is compared with a MAS file just as far as the file can launch the tested agents. -/
theorem agreesOnAgents_ofScript (probe : Probe) (options : Options)
    (hscript : (UnitTree.ofScript file source).usableTree? = some script) :
    AgreesOnAgents script (.ofText file source) probe options fun mas ↦
      ofScript file source mas probe options := by
  have hunknown : ∀ mas, ((ofScript file source mas probe options).ofKind .agentUnknown).Perm
      (Inquiry.unknownFindings ⟨.ofText file source, probe, options⟩ mas script) := by
    intro mas
    rw [ofScript_eq mas probe options hscript, ← Inquiry.filter_analyzeScript]
    exact (List.mergeSort_perm _ _).filter _
  refine ⟨fun a ↦ hunknown (some a), ?_, ?_, ?_⟩
  · refine List.Perm.eq_nil ((hunknown none).trans (.of_eq ?_))
    simp [Inquiry.unknownFindings, MasAnalysis.admits]
  · intro a b hlaunch
    have hsame : ∀ q : Inquiry, q.unknownFindings (some a) script =
        q.unknownFindings (some b) script := by
      intro q
      refine congrArg (List.map _) (List.filter_congr fun t ht ↦ ?_)
      exact congrArg Bool.not (hlaunch t ht)
    rw [ofScript_eq (some a) probe options hscript, ofScript_eq (some b) probe options hscript,
      Inquiry.diagnostics_analyzeScript, Inquiry.diagnostics_analyzeScript, hsame]
  · intro mas
    have hsuccess : (ofScript file source mas probe options).isSuccess = true ↔
        Diagnostic.Harmless (ofScript file source mas probe options).diagnostics := by
      rw [isSuccess, decide_eq_true_eq]
      exact Diagnostic.errorCount_eq_zero_iff
    rw [hsuccess, ofScript_eq mas probe options hscript, Diagnostic.harmless_sortByPosition,
      Inquiry.harmless_analyzeScript]
    cases mas <;> simp [MasAnalysis.admits]

/-! ## A tested agent that is not launched -/

open Strict

def twoTests : String :=
  "masTest" ++ braced (r#"mas="m".a"# ++ braced "" ++ "b" ++ braced "")

def emptyTestAt (agent : String) (a b c : Nat) : Located AgentTest :=
  ⟨{ agent := ⟨agent, ⟨a, b⟩⟩, module := none, conditions := [] }, ⟨a, c⟩⟩

def twoTestsScript : TestScript :=
  { mas := ⟨"m", ⟨12, 15⟩⟩
    timeout := none
    tests := [emptyTestAt "a" 16 17 19, emptyTestAt "b" 19 20 22] }

/-- What is known of a file that launches `a` and nothing else. -/
def launchesA : MasAnalysis :=
  { file := "m", table := .empty "m", diagnostics := [], hasWildcard := false, launched := ["a"] }

theorem derives_emptyTestAt (agent : String) (a b c d : Nat) :
    agentTest [⟨.identifier agent, ⟨a, b⟩⟩, ⟨.sign .leftBrace, ⟨b, c⟩⟩,
      ⟨.sign .rightBrace, ⟨c, d⟩⟩] (emptyTestAt agent a b d) := by
  have hname : identifier.located [⟨.identifier agent, ⟨a, b⟩⟩] ⟨agent, ⟨a, b⟩⟩ :=
    ⟨⟨_, rfl, rfl⟩, rfl⟩
  refine ⟨⟨[_], _, _, rfl, hname, Production.sign_bind_iff.2 ⟨_, _, rfl, ?_⟩⟩, rfl⟩
  exact ⟨[], _, none, rfl, rfl, [], _, [], rfl, .nil,
    Production.sign_bind_iff.2 ⟨_, _, rfl, rfl, rfl⟩⟩

theorem usableTree?_twoTests :
    (UnitTree.ofScript "t" twoTests).usableTree? = some twoTestsScript := by
  have hrepaired : Repaired.ofSource twoTests =
      { tokens := [⟨.keyword .masTest, ⟨0, 7⟩⟩, ⟨.sign .leftBrace, ⟨7, 8⟩⟩,
          ⟨.keyword .mas, ⟨8, 11⟩⟩, ⟨.sign .equals, ⟨11, 12⟩⟩, ⟨.quoted .double "m", ⟨12, 15⟩⟩,
          ⟨.sign .dot, ⟨15, 16⟩⟩, ⟨.identifier "a", ⟨16, 17⟩⟩, ⟨.sign .leftBrace, ⟨17, 18⟩⟩,
          ⟨.sign .rightBrace, ⟨18, 19⟩⟩, ⟨.identifier "b", ⟨19, 20⟩⟩,
          ⟨.sign .leftBrace, ⟨20, 21⟩⟩, ⟨.sign .rightBrace, ⟨21, 22⟩⟩,
          ⟨.sign .rightBrace, ⟨22, 23⟩⟩]
        events := [] } := by
    decide +kernel
  have htests : (Production.many agentTest) _ twoTestsScript.tests :=
    .cons (derives_emptyTestAt "a" 16 17 18 19) (.cons (derives_emptyTestAt "b" 19 20 21 22) .nil)
  refine (UnitTree.usableTree?_read_iff Grammar.realizes_testScript).2
    ⟨congrArg Repaired.events hrepaired, ?_⟩
  rw [hrepaired]
  refine ⟨[_], _, (), rfl, ⟨_, rfl⟩, Production.sign_bind_iff.2 ⟨_, _, rfl, ?_⟩⟩
  refine ⟨[_, _, _, _], _, _, rfl, derives_masRefAt "m" 8 11 12 15 16, [], _, none, rfl, rfl, ?_⟩
  exact ⟨_, [_], _, rfl, htests, Production.sign_bind_iff.2 ⟨_, _, rfl, rfl, rfl⟩⟩

/-- The test of `b` is reported, and only that. -/
theorem agreesOnAgents_twoTests :
    (UnitTree.ofScript "t" twoTests).usableTree? = some twoTestsScript ∧
      (ofScript "t" twoTests (some launchesA) ⟨fun _ ↦ true, fun _ _ ↦ .ok []⟩
        .standard).ofKind .agentUnknown =
          [(SourceMap.ofText "t" twoTests).unknownFinding twoTestsScript
            (emptyTestAt "b" 19 20 22)] := by
  have hagrees := agreesOnAgents_ofScript ⟨fun _ ↦ true, fun _ _ ↦ .ok []⟩ .standard
    usableTree?_twoTests
  exact ⟨usableTree?_twoTests, List.perm_singleton.1 (hagrees.unknown launchesA)⟩

end Report

end MasCheck
