import MasCheck.Proofs.Analysis.Findings
import MasCheck.Proofs.Grammar.Acceptance
import MasCheck.Proofs.Grammar.TargetTokens
import MasCheck.Proofs.Token.Order
import MasCheck.Report

/-!
# Undeclared targets

A launch instruction is reported when its target is not declared. For a target by path this is more
than having no entry with the path: an entry whose name an earlier one has already counts for
nothing, and its path with it.
-/

namespace MasCheck

def SourceMap.undeclaredFinding (m : SourceMap) (c : LaunchComponent) : Diagnostic :=
  m.diagnostic .agentFileUndeclared
    [Inquiry.launchContext c.name.node, c.target.node.text] c.target.span

namespace MasFile

/-- Some entry has the path. -/
def Lists (mas : MasFile) (path : String) : Prop :=
  ∃ f ∈ mas.agentFiles, f.node.path.node = path

/-- Some entry has the path, and each such entry comes after another one with its name. -/
structure LosesPath (mas : MasFile) (path : String) : Prop where
  lists : mas.Lists path
  repeats : ∀ us f vs, mas.agentFiles = us ++ f :: vs → f.node.path.node = path →
    ∃ g ∈ us, g.node.referenceName.node = f.node.referenceName.node

theorem not_declares_path_iff (mas : MasFile) {path : String} :
    ¬ mas.Declares (.path path) ↔ ¬ mas.Lists path ∨ mas.LosesPath path := by
  constructor
  · intro hdeclares
    by_cases hlists : mas.Lists path
    · refine .inr ⟨hlists, ?_⟩
      intro us f vs hfiles hpath
      by_cases hrepeats : ∃ g ∈ us, g.node.referenceName.node = f.node.referenceName.node
      · exact hrepeats
      · have hfirst : ∀ g ∈ us, g.node.referenceName.node ≠ f.node.referenceName.node :=
          fun g hg hname ↦ hrepeats ⟨g, hg, hname⟩
        exact absurd ⟨us, f, vs, hfiles, hpath, hfirst⟩ hdeclares
    · exact .inl hlists
  · rintro h ⟨us, f, vs, hfiles, hpath, hfirst⟩
    rcases h with hlists | hloses
    · have hf : f ∈ mas.agentFiles := by
        rw [hfiles]
        exact List.mem_append_right us List.mem_cons_self
      exact hlists ⟨f, hf, hpath⟩
    · obtain ⟨g, hg, hname⟩ := hloses.repeats us f vs hfiles hpath
      exact hfirst g hg hname

end MasFile

namespace Inquiry

variable (q : Inquiry) {mas : MasFile}

theorem mem_findings_masTable {d : Diagnostic} (hkind : d.kind = .agentFileUndeclared) :
    d ∈ (q.masTable mas).findings ↔
      ∃ c ∈ mas.components, ¬ mas.Declares c.target.node ∧ q.map.undeclaredFinding c = d := by
  have hunused : d ∉ if (q.masTable mas).reportUnused then
      ((q.masTable mas).graph.unused .agentFile).map fun s ↦
        Diagnostic.of .agentFileUnused [s.shown] s.position
      else [] := by
    intro hd
    split at hd
    · obtain ⟨s, -, rfl⟩ := List.mem_map.1 hd
      cases hkind
    · exact absurd hd List.not_mem_nil
  unfold SymbolTable.findings
  rw [List.mem_append, or_iff_left hunused, SymbolTable.undeclared_graph, uses_masTable,
    List.mem_filterMap]
  constructor
  · rintro ⟨u, hu, hd⟩
    obtain ⟨hmap, hresolves⟩ := List.mem_filter.1 hu
    obtain ⟨c, hc, rfl⟩ := List.mem_map.1 hmap
    refine ⟨c, hc, ?_, Option.some.inj hd⟩
    rw [← resolves_launchUse_iff q]
    simpa using hresolves
  · rintro ⟨c, hc, hdeclares, rfl⟩
    refine ⟨q.launchUse c, List.mem_filter.2 ⟨List.mem_map.2 ⟨c, hc, rfl⟩, ?_⟩, rfl⟩
    rw [← resolves_launchUse_iff q] at hdeclares
    simpa using hdeclares

theorem mem_analyzeMas {d : Diagnostic} (hkind : d.kind = .agentFileUndeclared) :
    d ∈ (q.analyzeMas mas).diagnostics ↔
      ∃ c ∈ mas.components, ¬ mas.Declares c.target.node ∧ q.map.undeclaredFinding c = d := by
  rw [← mem_findings_masTable q hkind, mem_analyzeMas_iff_mem_findings (.inl hkind)]

end Inquiry

/-- Two instructions of one file with targets at one place have the same target. -/
theorem target_eq_of_span_eq {file source : String} {mas : MasFile} {c c' : LaunchComponent}
    (hmas : (UnitTree.ofMas file source).usableTree? = some mas) (hc : c ∈ mas.components)
    (hc' : c' ∈ mas.components) (hspan : c.target.span = c'.target.span) :
    c.target = c'.target := by
  obtain ⟨hevents, hderives⟩ := (UnitTree.usableTree?_read_iff Grammar.realizes_masFile).1 hmas
  rw [Repaired.tokens_eq_lex hevents] at hderives
  obtain ⟨l, hl, htarget⟩ := Strict.hasTarget_of_masFile hderives hc
  obtain ⟨l', hl', htarget'⟩ := Strict.hasTarget_of_masFile hderives hc'
  have hstart : l.span.start = l'.span.start :=
    congrArg Span.start (htarget.2.symm.trans (hspan.trans htarget'.2))
  obtain rfl := eq_of_start_eq hl hl' hstart
  have hanywhere : Parser.anywhere [] := trivial
  exact Grammar.realizes_target.value_unique hanywhere htarget htarget'

namespace Report

variable {file source : String} {mas : MasFile} {c : LaunchComponent}

theorem mem_diagnostics_ofMas_iff (probe : Probe) (options : Options)
    (hmas : (UnitTree.ofMas file source).usableTree? = some mas) (hc : c ∈ mas.components) :
    (SourceMap.ofText file source).undeclaredFinding c ∈
        (ofMas file source probe options).diagnostics ↔
      ¬ mas.Declares c.target.node := by
  have hdiagnostics : (UnitTree.ofMas file source).diagnostics = [] :=
    ((UnitTree.usableTree?_eq_some_iff _ fun _ hd ↦ UnitTree.isError_of_mem_read hd).1 hmas).2
  unfold ofMas
  dsimp only
  rw [hmas]
  dsimp only
  rw [hdiagnostics, List.nil_append, Diagnostic.sortByPosition, List.mem_mergeSort,
    Inquiry.mem_analyzeMas _ rfl]
  constructor
  · rintro ⟨c', hc', hdeclares, heq⟩
    have hspan : c'.target.span = c.target.span :=
      Option.some.inj (congrArg (fun d ↦ d.position.span) heq)
    rwa [← target_eq_of_span_eq hmas hc' hc hspan]
  · exact fun hdeclares ↦ ⟨c, hc, hdeclares, rfl⟩

/-- A target by path is reported when no entry has the path, and also when the path is lost. The
second case is exactly where the report says something else than that no entry has the path. -/
theorem undeclaredPath_iff (probe : Probe) (options : Options) {path : String}
    (hmas : (UnitTree.ofMas file source).usableTree? = some mas) (hc : c ∈ mas.components)
    (hpath : c.target.node = .path path) :
    ((SourceMap.ofText file source).undeclaredFinding c ∈
        (ofMas file source probe options).diagnostics ↔
          ¬ mas.Lists path ∨ mas.LosesPath path) ∧
    (((SourceMap.ofText file source).undeclaredFinding c ∈
        (ofMas file source probe options).diagnostics ↔ ¬ mas.Lists path) ↔
      ¬ mas.LosesPath path) := by
  have hreported := mem_diagnostics_ofMas_iff probe options hmas hc
  rw [hpath, mas.not_declares_path_iff] at hreported
  refine ⟨hreported, ?_⟩
  rw [hreported]
  constructor
  · intro h hloses
    have hnot : ¬ mas.Lists path := h.1 (.inr hloses)
    exact hnot hloses.lists
  · intro hkeeps
    exact or_iff_left hkeeps

/-! ## A path lost with a repeated name -/

open Strict

/-- Both entries have the name `b`, and the rule launches the second one by its path. -/
def sharedName : String :=
  "agentfiles" ++ braced r#""a/b.goal"."b/b.goal"."# ++
    "launchpolicy" ++ braced r#"launch x:"b/b.goal"."#

def entryAt (path : String) (a b c : Nat) : Located AgentFile :=
  ⟨{ path := ⟨path, ⟨a, b⟩⟩, parameters := [] }, ⟨a, c⟩⟩

def componentAt (name path : String) (a b c d : Nat) : Located LaunchComponent :=
  ⟨{ name := ⟨.named name, ⟨a, b⟩⟩, number := none, target := ⟨.path path, ⟨c, d⟩⟩ }, ⟨a, d⟩⟩

def sharedNameFile : MasFile :=
  { environment := none
    extraEnvironments := []
    agentFiles := [entryAt "a/b.goal" 11 21 22, entryAt "b/b.goal" 22 32 33]
    launchPolicy := some ⟨⟨[⟨{ condition := none
                               components := [componentAt "x" "b/b.goal" 54 55 56 66] },
      ⟨47, 67⟩⟩]⟩, ⟨34, 68⟩⟩ }

theorem derives_entryAt (path : String) (a b c : Nat) :
    agentFile [⟨.quoted .double path, ⟨a, b⟩⟩, ⟨.sign .dot, ⟨b, c⟩⟩] (entryAt path a b c) := by
  have hpath : quotedText.located [⟨.quoted .double path, ⟨a, b⟩⟩] ⟨path, ⟨a, b⟩⟩ :=
    ⟨⟨_, rfl, rfl⟩, rfl⟩
  refine ⟨⟨[_], _, _, rfl, hpath, [], _, none, rfl, rfl, ?_⟩, rfl⟩
  exact Production.sign_bind_iff.2 ⟨_, _, rfl, rfl, rfl⟩

theorem derives_componentAt (name path : String) (a b c d : Nat) :
    launchComponent [⟨.identifier name, ⟨a, b⟩⟩, ⟨.sign .colon, ⟨b, c⟩⟩,
      ⟨.quoted .double path, ⟨c, d⟩⟩] (componentAt name path a b c d) := by
  have hname : launchName [⟨.identifier name, ⟨a, b⟩⟩] ⟨.named name, ⟨a, b⟩⟩ :=
    ⟨⟨_, rfl, rfl⟩, rfl⟩
  have htarget : target [⟨.quoted .double path, ⟨c, d⟩⟩] ⟨.path path, ⟨c, d⟩⟩ :=
    ⟨⟨_, rfl, rfl⟩, rfl⟩
  refine ⟨⟨[_], _, _, rfl, hname, [], _, none, rfl, rfl, ?_⟩, rfl⟩
  exact Production.sign_bind_iff.2 ⟨_, _, rfl, [_], [], _, rfl, htarget, rfl, rfl⟩

theorem derives_agentFiles {es : List Lexeme} {files : List (Located AgentFile)}
    (hfiles : (Production.many agentFile) es files) (a b c : Span) :
    oneSection (⟨.keyword .agentFiles, a⟩ :: (⟨.sign .leftBrace, b⟩ :: es ++
      [⟨.sign .rightBrace, c⟩])) (.agentFiles files) := by
  have hagentFiles : agentFiles
      (⟨.keyword .agentFiles, a⟩ :: (⟨.sign .leftBrace, b⟩ :: es ++ [⟨.sign .rightBrace, c⟩]))
      files :=
    ⟨[_], _, (), rfl, ⟨_, rfl⟩, Production.between_iff.2 ⟨_, _, _, rfl, hfiles⟩⟩
  exact .inr (.inl ⟨_, hagentFiles, rfl⟩)

/-- A policy with one instruction. -/
theorem derives_launchPolicy {cs : List Lexeme} {c : Located LaunchComponent}
    (hc : launchComponent cs c) (e f g h i : Span) :
    oneSection (⟨.keyword .launchPolicy, e⟩ :: (⟨.sign .leftBrace, f⟩ ::
        (⟨.keyword .launch, g⟩ :: (cs ++ [⟨.sign .dot, h⟩])) ++ [⟨.sign .rightBrace, i⟩]))
      (.launchPolicy ⟨⟨[⟨{ condition := none, components := [c] }, ⟨g.start, h.stop⟩⟩]⟩,
        ⟨e.start, i.stop⟩⟩) := by
  have hlaunch : launch (⟨.keyword .launch, g⟩ :: (cs ++ [⟨.sign .dot, h⟩])) [c] :=
    ⟨[_], _, (), rfl, ⟨_, rfl⟩, cs, [_], _, rfl, .one hc,
      Production.sign_bind_iff.2 ⟨_, _, rfl, rfl, rfl⟩⟩
  have hrule : launchRule (⟨.keyword .launch, g⟩ :: (cs ++ [⟨.sign .dot, h⟩]))
      ⟨{ condition := none, components := [c] }, ⟨g.start, h.stop⟩⟩ :=
    ⟨.inr ⟨_, hlaunch, rfl⟩, (Lexeme.spanOf_concat ⟨_, g⟩ ⟨_, h⟩ cs).symm⟩
  have hrules := Production.Many.cons hrule .nil
  rw [List.append_nil] at hrules
  have hpolicy : launchPolicy _
      ⟨⟨[⟨{ condition := none, components := [c] }, ⟨g.start, h.stop⟩⟩]⟩, ⟨e.start, i.stop⟩⟩ :=
    ⟨⟨[⟨.keyword .launchPolicy, e⟩], _, (), rfl, ⟨_, rfl⟩, _, [], _, (List.append_nil _).symm,
      Production.between_iff.2 ⟨f, _, i, rfl, hrules⟩, rfl, rfl⟩,
      (Lexeme.spanOf_concat ⟨_, e⟩ ⟨_, i⟩ (⟨_, f⟩ :: _)).symm⟩
  exact .inr (.inr ⟨_, hpolicy, rfl⟩)

/-- Agent files, and one instruction that launches one of them. -/
def launchFile (files : List (Located AgentFile)) (c : Located LaunchComponent)
    (rule policy : Span) : MasFile :=
  { environment := none
    extraEnvironments := []
    agentFiles := files
    launchPolicy := some ⟨⟨[⟨{ condition := none, components := [c] }, rule⟩]⟩, policy⟩ }

theorem derives_launchFile {es cs : List Lexeme} {files : List (Located AgentFile)}
    {c : Located LaunchComponent} (hfiles : (Production.many agentFile) es files)
    (hc : launchComponent cs c) (a b d e f g h i : Span) :
    masFile
      ((⟨.keyword .agentFiles, a⟩ :: (⟨.sign .leftBrace, b⟩ :: es ++ [⟨.sign .rightBrace, d⟩])) ++
        (⟨.keyword .launchPolicy, e⟩ :: (⟨.sign .leftBrace, f⟩ ::
          (⟨.keyword .launch, g⟩ :: (cs ++ [⟨.sign .dot, h⟩])) ++ [⟨.sign .rightBrace, i⟩])))
      (launchFile files c ⟨g.start, h.stop⟩ ⟨e.start, i.stop⟩) := by
  have hsections := Production.Many.cons (derives_agentFiles hfiles a b d)
    (.cons (derives_launchPolicy hc e f g h i) .nil)
  rw [List.append_nil] at hsections
  exact ⟨_, hsections, by simp [fileOf, launchFile, environmentsOf, agentFilesOf, policiesOf]⟩

theorem usableTree?_sharedName :
    (UnitTree.ofMas "m" sharedName).usableTree? = some sharedNameFile := by
  have hrepaired : Repaired.ofSource sharedName =
      { tokens := [⟨.keyword .agentFiles, ⟨0, 10⟩⟩, ⟨.sign .leftBrace, ⟨10, 11⟩⟩,
          ⟨.quoted .double "a/b.goal", ⟨11, 21⟩⟩, ⟨.sign .dot, ⟨21, 22⟩⟩,
          ⟨.quoted .double "b/b.goal", ⟨22, 32⟩⟩, ⟨.sign .dot, ⟨32, 33⟩⟩,
          ⟨.sign .rightBrace, ⟨33, 34⟩⟩, ⟨.keyword .launchPolicy, ⟨34, 46⟩⟩,
          ⟨.sign .leftBrace, ⟨46, 47⟩⟩, ⟨.keyword .launch, ⟨47, 53⟩⟩,
          ⟨.identifier "x", ⟨54, 55⟩⟩, ⟨.sign .colon, ⟨55, 56⟩⟩,
          ⟨.quoted .double "b/b.goal", ⟨56, 66⟩⟩, ⟨.sign .dot, ⟨66, 67⟩⟩,
          ⟨.sign .rightBrace, ⟨67, 68⟩⟩]
        events := [] } := by
    decide +kernel
  have hentries : (Production.many agentFile) _ sharedNameFile.agentFiles :=
    .cons (derives_entryAt "a/b.goal" 11 21 22) (.cons (derives_entryAt "b/b.goal" 22 32 33) .nil)
  refine (UnitTree.usableTree?_read_iff Grammar.realizes_masFile).2
    ⟨congrArg Repaired.events hrepaired, ?_⟩
  rw [hrepaired]
  exact derives_launchFile hentries (derives_componentAt "x" "b/b.goal" 54 55 56 66)
    ⟨0, 10⟩ ⟨10, 11⟩ ⟨33, 34⟩ ⟨34, 46⟩ ⟨46, 47⟩ ⟨47, 53⟩ ⟨66, 67⟩ ⟨67, 68⟩

/-- The path of the second entry is reported as undeclared. -/
theorem undeclaredPath_sharedName :
    (UnitTree.ofMas "m" sharedName).usableTree? = some sharedNameFile ∧
      sharedNameFile.LosesPath "b/b.goal" ∧
      (SourceMap.ofText "m" sharedName).undeclaredFinding
          (componentAt "x" "b/b.goal" 54 55 56 66).node ∈
        (ofMas "m" sharedName ⟨fun _ ↦ true, fun _ _ ↦ .ok zipSignature⟩ .offline).diagnostics := by
  have hnames : ∀ f ∈ sharedNameFile.agentFiles, f.node.referenceName.node = "b" := by
    decide
  have hloses : sharedNameFile.LosesPath "b/b.goal" := by
    refine ⟨⟨_, .tail _ (.head _), rfl⟩, ?_⟩
    intro us f vs hfiles hpath
    cases us with
    | nil =>
      obtain ⟨rfl, -⟩ := List.cons.inj hfiles
      exact absurd hpath (by decide)
    | cons g us =>
      have hg := hnames g (hfiles ▸ List.mem_cons_self)
      have hf := hnames f (hfiles ▸ by simp)
      exact ⟨g, List.mem_cons_self, hg.trans hf.symm⟩
  refine ⟨usableTree?_sharedName, hloses, ?_⟩
  exact (undeclaredPath_iff _ _ usableTree?_sharedName (.head _) rfl).1.2 (.inr hloses)

end Report

end MasCheck
