import Mathlib.Data.List.Pairwise
import MasCheck.Proofs.Analysis.UndeclaredTargets
import MasCheck.Proofs.Grammar.Provenance
import MasCheck.Proofs.Report.Gate
import MasCheck.Proofs.Symbol.DirectResolution

/-!
# Unused agent files

An agent file is reported as unused when no launch instruction leads to it. An instruction leads to
one agent file only: where several have a path, a launch by the path leads to the first that
counts, and the others are reported although their path is launched.
-/

namespace MasCheck

open HasSpans (spans)

def SourceMap.unusedFinding (m : SourceMap) (f : Located AgentFile) : Diagnostic :=
  m.diagnostic .agentFileUnused [f.node.path.node] f.node.referenceName.span

namespace MasFile

variable {mas : MasFile} {us : List (Located AgentFile)} {f : Located AgentFile}

def withAgentFiles (mas : MasFile) (files : List (Located AgentFile)) : MasFile :=
  { mas with agentFiles := files }

/-- Some launch instruction has the target. -/
def Targets (mas : MasFile) (target : Target) : Prop :=
  ∃ c ∈ mas.components, c.target.node = target

/-- The entry stands behind these, and none of them has its name. -/
structure CountsBehind (mas : MasFile) (us : List (Located AgentFile)) (f : Located AgentFile) :
    Prop where
  entries : ∃ vs, mas.agentFiles = us ++ f :: vs
  first : ∀ g ∈ us, g.node.referenceName.node ≠ f.node.referenceName.node

theorem CountsBehind.mem (h : mas.CountsBehind us f) : f ∈ mas.agentFiles := by
  obtain ⟨vs, hfiles⟩ := h.entries
  rw [hfiles]
  exact List.mem_append_right us List.mem_cons_self

/-- The entry is launched by its path and not by its name, and one of the entries in front that
count has the path too. -/
structure IsEclipsed (mas : MasFile) (us : List (Located AgentFile)) (f : Located AgentFile) :
    Prop where
  launched : mas.Targets (.path f.node.path.node)
  unnamed : ¬ mas.Targets (.name f.node.referenceName.node)
  earlier : (mas.withAgentFiles us).Declares (.path f.node.path.node)

end MasFile

/-! ## The symbols of agent files -/

namespace Inquiry

variable (q : Inquiry) {mas : MasFile} {us : List (Located AgentFile)} {f : Located AgentFile}

theorem hasDistinctKeys_masTable (mas : MasFile) : (q.masTable mas).HasDistinctKeys := by
  have hempty : SymbolTable.HasDistinctKeys
      { SymbolTable.empty q.map.file with reportUnused := q.options.reportUnused } :=
    List.nodup_nil
  exact (hempty.declareAll q.initSymbol (initEntries mas)).declareAll q.agentFileSymbol
    mas.agentFiles

/-- The symbol of an entry that counts stands right behind those of the entries in front. -/
theorem symbols_masTable_of_counts (h : mas.CountsBehind us f) : ∃ after,
    (q.masTable mas).symbols =
      (q.masTable (mas.withAgentFiles us)).symbols ++ q.agentFileSymbol f :: after := by
  obtain ⟨vs, hfiles⟩ := h.entries
  have hfree : ∀ s ∈ ((q.initTable mas).declareAll q.agentFileSymbol us).symbols,
      s.key ≠ (q.agentFileSymbol f).key := by
    intro s hs hkey
    change s ∈ (q.masTable (mas.withAgentFiles us)).symbols at hs
    obtain ⟨ps, g, ws, hus, rfl, -⟩ := (q.mem_masTable_iff (congrArg Prod.fst hkey)).1 hs
    have hg : g ∈ us := by
      rw [show us = ps ++ g :: ws from hus]
      exact List.mem_append_right ps List.mem_cons_self
    exact h.first g hg (congrArg Prod.snd hkey)
  obtain ⟨after, hafter⟩ := SymbolTable.symbols_prefix_declareAll
    (((q.initTable mas).declareAll q.agentFileSymbol us).declare (q.agentFileSymbol f))
    q.agentFileSymbol vs
  refine ⟨after, ?_⟩
  rw [SymbolTable.symbols_declare_of_free hfree, List.append_assoc] at hafter
  rw [symbols_masTable, hfiles, SymbolTable.declareAll, List.foldl_append, List.foldl_cons]
  exact hafter.symm

/-- An instruction leads to the entry by its name, or by its path unless an entry in front has the
path. -/
theorem named?_launchUse_iff (h : mas.CountsBehind us f) (c : LaunchComponent) :
    (q.masTable mas).named? (q.launchUse c) = some (q.agentFileSymbol f) ↔
      c.target.node = .name f.node.referenceName.node ∨
        (c.target.node = .path f.node.path.node ∧
          ¬ (mas.withAgentFiles us).Declares (.path f.node.path.node)) := by
  obtain ⟨after, hsymbols⟩ := q.symbols_masTable_of_counts h
  have hfront : (∀ s ∈ (q.masTable (mas.withAgentFiles us)).symbols,
      (q.launchUse c).asksFor s = false) ↔
        ¬ (mas.withAgentFiles us).Declares c.target.node := by
    rw [← q.resolves_launchUse_iff, SymbolTable.resolves_iff]
    simp
  rw [(q.hasDistinctKeys_masTable mas).named?_eq_some_iff_of_split hsymbols, hfront]
  cases htarget : c.target.node with
  | name name =>
    have hasks : (q.launchUse c).asksFor (q.agentFileSymbol f) = true ↔
        f.node.referenceName.node = name := by
      rw [Use.asksFor_iff_of_name (u := q.launchUse c) htarget]
      simp [launchUse, agentFileSymbol, Symbol.key]
    rw [hasks]
    constructor
    · rintro ⟨rfl, -⟩
      exact .inl rfl
    · rintro (hname | ⟨hpath, -⟩)
      · obtain rfl := Target.name.inj hname
        refine ⟨rfl, ?_⟩
        rintro ⟨g, hg, hname⟩
        exact h.first g hg hname
      · cases hpath
  | path path =>
    have hasks : (q.launchUse c).asksFor (q.agentFileSymbol f) = true ↔
        f.node.path.node = path := by
      rw [Use.asksFor_iff_of_path (u := q.launchUse c) htarget]
      simp [launchUse, agentFileSymbol]
    rw [hasks]
    constructor
    · rintro ⟨rfl, hnone⟩
      exact .inr ⟨rfl, hnone⟩
    · rintro (hname | ⟨hpath, hnone⟩)
      · cases hname
      · obtain rfl := Target.path.inj hpath
        exact ⟨rfl, hnone⟩

theorem mem_unusedOf_masTable_iff (h : mas.CountsBehind us f) :
    q.agentFileSymbol f ∈ (q.masTable mas).unusedOf .agentFile ↔
      (¬ mas.Targets (.name f.node.referenceName.node) ∧
        ¬ mas.Targets (.path f.node.path.node)) ∨ mas.IsEclipsed us f := by
  have hmem : q.agentFileSymbol f ∈ (q.masTable mas).symbols := by
    obtain ⟨after, hsymbols⟩ := q.symbols_masTable_of_counts h
    simp [hsymbols]
  have hnamed : ((q.masTable mas).uses.any fun u ↦
      (q.masTable mas).named? u = some (q.agentFileSymbol f)) = true ↔
        mas.Targets (.name f.node.referenceName.node) ∨
          (mas.Targets (.path f.node.path.node) ∧
            ¬ (mas.withAgentFiles us).Declares (.path f.node.path.node)) := by
    rw [uses_masTable, List.any_eq_true]
    constructor
    · rintro ⟨u, hu, hnamed⟩
      obtain ⟨c, hc, rfl⟩ := List.mem_map.1 hu
      rcases (q.named?_launchUse_iff h c).1 (of_decide_eq_true hnamed) with hname | ⟨hpath, hnone⟩
      · exact .inl ⟨c, hc, hname⟩
      · exact .inr ⟨⟨c, hc, hpath⟩, hnone⟩
    · rintro (⟨c, hc, hname⟩ | ⟨⟨c, hc, hpath⟩, hnone⟩)
      · exact ⟨_, List.mem_map_of_mem hc,
          decide_eq_true ((q.named?_launchUse_iff h c).2 (.inl hname))⟩
      · exact ⟨_, List.mem_map_of_mem hc,
          decide_eq_true ((q.named?_launchUse_iff h c).2 (.inr ⟨hpath, hnone⟩))⟩
  have hcategory : (q.agentFileSymbol f).category = .agentFile := rfl
  unfold SymbolTable.unusedOf
  rw [List.mem_filter, and_iff_right hmem, Bool.and_eq_true_iff, decide_eq_true_eq,
    and_iff_right hcategory, Bool.not_eq_true', ← Bool.not_eq_true, hnamed]
  constructor
  · intro hunused
    by_cases hpath : mas.Targets (.path f.node.path.node)
    · refine .inr ⟨hpath, fun hname ↦ hunused (.inl hname), ?_⟩
      by_contra hnone
      exact hunused (.inr ⟨hpath, hnone⟩)
    · exact .inl ⟨fun hname ↦ hunused (.inl hname), hpath⟩
  · rintro (⟨hname, hpath⟩ | heclipsed) (hused | ⟨hused, hnone⟩)
    · exact hname hused
    · exact hpath hused
    · exact heclipsed.unnamed hused
    · exact hnone heclipsed.earlier

/-! ## Findings -/

theorem reportUnused_masTable (mas : MasFile) :
    (q.masTable mas).reportUnused = q.options.reportUnused := by
  change ((q.initTable mas).declareAll q.agentFileSymbol mas.agentFiles).reportUnused = _
  rw [reportUnused_declareAll, initTable, reportUnused_declareAll]

theorem mem_findings_unused {d : Diagnostic} (hkind : d.kind = .agentFileUnused)
    (hreport : q.options.reportUnused = true) : d ∈ (q.analyzeMas mas).diagnostics ↔
      ∃ s ∈ (q.masTable mas).unusedOf .agentFile,
        Diagnostic.of .agentFileUnused [s.shown] s.position = d := by
  have hundeclared : d ∉ (q.masTable mas).graph.undeclared.filterMap Use.undeclared? := by
    rw [SymbolTable.undeclared_graph, uses_masTable]
    intro hd
    obtain ⟨u, hu, hd⟩ := List.mem_filterMap.1 hd
    obtain ⟨c, -, rfl⟩ := List.mem_map.1 (List.mem_filter.1 hu).1
    obtain rfl := Option.some.inj hd
    cases hkind
  have hoption : (q.masTable mas).reportUnused = true :=
    (q.reportUnused_masTable mas).trans hreport
  rw [mem_analyzeMas_iff_mem_findings (.inr hkind), SymbolTable.findings, List.mem_append,
    or_iff_right hundeclared, if_pos hoption, (q.hasDistinctKeys_masTable mas).unused_graph,
    List.mem_map]

end Inquiry

/-- Two entries of one file with names at one place are the same. -/
theorem agentFile_eq_of_span_eq {file source : String} {mas : MasFile} {f g : Located AgentFile}
    (hmas : (UnitTree.ofMas file source).tree = some mas) (hf : f ∈ mas.agentFiles)
    (hg : g ∈ mas.agentFiles) (hspan : f.node.referenceName.span = g.node.referenceName.span) :
    f = g := by
  have hordered := Repaired.inOrder_tokens source
  have hfiles := (Loose.isFrom_masFile (Grammar.reads_masFile.of_parse hmas).1 hordered).agentFiles
  have hplace : ∀ x ∈ mas.agentFiles, x.span.start ≤ x.node.referenceName.span.start ∧
      x.node.referenceName.span.start < x.node.referenceName.span.stop ∧
        x.node.referenceName.span.stop ≤ x.span.stop := by
    intro x hx
    have hname : x.node.referenceName.span ∈ spans x :=
      List.mem_cons_of_mem _ x.node.span_referenceName
    have hplaces := Strict.places_agentFile (S := fun _ ↦ False) _ _ (hfiles.derived x hx) _ hname
    exact (hplaces.resolve_left id).inside hordered
  have hsymm : Std.Symm fun x y : Located AgentFile ↦
      x.node.referenceName.span = y.node.referenceName.span → x = y :=
    ⟨fun x y hxy hspan ↦ (hxy hspan.symm).symm⟩
  have hdistinct : mas.agentFiles.Pairwise fun x y ↦
      x.node.referenceName.span = y.node.referenceName.span → x = y := by
    refine hfiles.ordered.imp_of_mem fun {x y} hx hy hbefore hspan ↦ ?_
    have hx := hplace x hx
    have hy := hplace y hy
    rw [hspan] at hx
    omega
  have hall := List.Pairwise.forall_of_forall (fun x _ _ ↦ rfl) hdistinct
  exact hall hf hg hspan

namespace Report

variable {file source : String} {mas : MasFile} {us : List (Located AgentFile)}
  {f : Located AgentFile}

/-- An entry that counts is reported when neither its name nor its path is launched, and also when
it is eclipsed. In the second case its path is launched all the same. -/
theorem unusedFile_iff (probe : Probe) (options : Options)
    (hmas : (UnitTree.ofMas file source).usableTree? = some mas)
    (hreport : options.reportUnused = true) (hf : mas.CountsBehind us f) :
    ((SourceMap.ofText file source).unusedFinding f ∈
        (ofMas file source probe options).diagnostics ↔
      (¬ mas.Targets (.name f.node.referenceName.node) ∧
        ¬ mas.Targets (.path f.node.path.node)) ∨ mas.IsEclipsed us f) ∧
    (((SourceMap.ofText file source).unusedFinding f ∈
        (ofMas file source probe options).diagnostics ↔
      ¬ mas.Targets (.name f.node.referenceName.node) ∧
        ¬ mas.Targets (.path f.node.path.node)) ↔
      ¬ mas.IsEclipsed us f) := by
  have hreported : (SourceMap.ofText file source).unusedFinding f ∈
      (ofMas file source probe options).diagnostics ↔
        (¬ mas.Targets (.name f.node.referenceName.node) ∧
          ¬ mas.Targets (.path f.node.path.node)) ∨ mas.IsEclipsed us f := by
    have htree : (UnitTree.ofMas file source).tree = some mas :=
      (UnitTree.usableTree?_read_eq_some_iff.1 hmas).1
    have hnil : (UnitTree.ofMas file source).diagnostics = [] :=
      (UnitTree.usableTree?_read_eq_some_iff.1 hmas).2
    rw [← Inquiry.mem_unusedOf_masTable_iff ⟨.ofText file source, probe, options⟩ hf,
      (isOn_ofMas file source probe options).diagnostics_eq, Diagnostic.mem_sortByPosition,
      UnitTree.found, hmas, hnil, List.nil_append, Option.elim_some,
      Inquiry.mem_findings_unused _ rfl hreport]
    constructor
    · rintro ⟨s, hs, hsame⟩
      obtain ⟨hmem, hunused⟩ := List.mem_filter.1 hs
      have hcategory := of_decide_eq_true (Bool.and_eq_true_iff.1 hunused).1
      obtain ⟨us', g, vs', hfiles, rfl, -⟩ := (Inquiry.mem_masTable_iff _ hcategory).1 hmem
      have hg : g ∈ mas.agentFiles := by
        rw [hfiles]
        exact List.mem_append_right us' List.mem_cons_self
      have hspan : some g.node.referenceName.span = some f.node.referenceName.span :=
        congrArg (fun d ↦ d.position.span) hsame
      rwa [← agentFile_eq_of_span_eq htree hg hf.mem (Option.some.inj hspan)]
    · exact fun hs ↦ ⟨_, hs, rfl⟩
  refine ⟨hreported, ?_⟩
  rw [hreported]
  constructor
  · intro h heclipsed
    exact (h.1 (.inr heclipsed)).2 heclipsed.launched
  · exact fun heclipsed ↦ or_iff_left heclipsed

/-! ## A path with two names -/

open Strict

/-- Both entries have the path that the rule launches, and the second one has a name of its own. -/
def sharedPath : String :=
  "agentfiles" ++ braced r#""b.goal"."b.goal"[name=c]."# ++
    "launchpolicy" ++ braced r#"launch x:"b.goal"."#

def namedEntryAt (path name : String) (a b c d e f g : Nat) : Located AgentFile :=
  ⟨{ path := ⟨path, ⟨a, b⟩⟩
     parameters := [⟨{ key := ⟨"name", ⟨c, d⟩⟩, value := ⟨name, ⟨e, f⟩⟩ }, ⟨c, f⟩⟩] }, ⟨a, g⟩⟩

def sharedPathFile : MasFile :=
  launchFile [entryAt "b.goal" 11 19 20, namedEntryAt "b.goal" "c" 20 28 29 33 34 35 37]
    (componentAt "x" "b.goal" 58 59 60 68) ⟨51, 69⟩ ⟨38, 70⟩

theorem derives_namedEntryAt (path name : String) (a b c d e f g h : Nat) :
    agentFile [⟨.quoted .double path, ⟨a, b⟩⟩, ⟨.sign .leftBracket, ⟨b, c⟩⟩,
      ⟨.keyword .name, ⟨c, d⟩⟩, ⟨.sign .equals, ⟨d, e⟩⟩, ⟨.identifier name, ⟨e, f⟩⟩,
      ⟨.sign .rightBracket, ⟨f, g⟩⟩, ⟨.sign .dot, ⟨g, h⟩⟩]
      (namedEntryAt path name a b c d e f h) := by
  have hpath : quotedText.located [⟨.quoted .double path, ⟨a, b⟩⟩] ⟨path, ⟨a, b⟩⟩ :=
    ⟨⟨_, rfl, rfl⟩, rfl⟩
  have hkey : key [⟨.keyword .name, ⟨c, d⟩⟩] ⟨"name", ⟨c, d⟩⟩ := ⟨⟨_, rfl, rfl⟩, rfl⟩
  have hname : key [⟨.identifier name, ⟨e, f⟩⟩] ⟨name, ⟨e, f⟩⟩ := ⟨⟨_, rfl, rfl⟩, rfl⟩
  have hparameter : parameter [⟨.keyword .name, ⟨c, d⟩⟩, ⟨.sign .equals, ⟨d, e⟩⟩,
      ⟨.identifier name, ⟨e, f⟩⟩]
      ⟨{ key := ⟨"name", ⟨c, d⟩⟩, value := ⟨name, ⟨e, f⟩⟩ }, ⟨c, f⟩⟩ :=
    ⟨⟨[_], _, _, rfl, hkey, Production.sign_bind_iff.2 ⟨_, _, rfl, [_], [], _, rfl, .inl hname,
      rfl, rfl⟩⟩, rfl⟩
  have hparameters : (Production.separated₁ parameter).between .leftBracket .rightBracket
      (⟨.sign .leftBracket, ⟨b, c⟩⟩ :: [_, _, _] ++ [⟨.sign .rightBracket, ⟨f, g⟩⟩]) _ :=
    Production.between_iff.2 ⟨_, _, _, rfl, .one hparameter⟩
  exact ⟨⟨[_], _, _, rfl, hpath, [_, _, _, _, _], _, some _, rfl, hparameters,
    Production.sign_bind_iff.2 ⟨_, _, rfl, rfl, rfl⟩⟩, rfl⟩

theorem usableTree?_sharedPath :
    (UnitTree.ofMas "m" sharedPath).usableTree? = some sharedPathFile := by
  have hrepaired : Repaired.ofSource sharedPath =
      { tokens := [⟨.keyword .agentFiles, ⟨0, 10⟩⟩, ⟨.sign .leftBrace, ⟨10, 11⟩⟩,
          ⟨.quoted .double "b.goal", ⟨11, 19⟩⟩, ⟨.sign .dot, ⟨19, 20⟩⟩,
          ⟨.quoted .double "b.goal", ⟨20, 28⟩⟩, ⟨.sign .leftBracket, ⟨28, 29⟩⟩,
          ⟨.keyword .name, ⟨29, 33⟩⟩, ⟨.sign .equals, ⟨33, 34⟩⟩, ⟨.identifier "c", ⟨34, 35⟩⟩,
          ⟨.sign .rightBracket, ⟨35, 36⟩⟩, ⟨.sign .dot, ⟨36, 37⟩⟩,
          ⟨.sign .rightBrace, ⟨37, 38⟩⟩, ⟨.keyword .launchPolicy, ⟨38, 50⟩⟩,
          ⟨.sign .leftBrace, ⟨50, 51⟩⟩, ⟨.keyword .launch, ⟨51, 57⟩⟩,
          ⟨.identifier "x", ⟨58, 59⟩⟩, ⟨.sign .colon, ⟨59, 60⟩⟩,
          ⟨.quoted .double "b.goal", ⟨60, 68⟩⟩, ⟨.sign .dot, ⟨68, 69⟩⟩,
          ⟨.sign .rightBrace, ⟨69, 70⟩⟩]
        events := [] } := by
    decide +kernel
  have hentries : (Production.many agentFile) _ sharedPathFile.agentFiles :=
    .cons (derives_entryAt "b.goal" 11 19 20)
      (.cons (derives_namedEntryAt "b.goal" "c" 20 28 29 33 34 35 36 37) .nil)
  refine (UnitTree.usableTree?_read_iff Grammar.realizes_masFile).2
    ⟨congrArg Repaired.events hrepaired, ?_⟩
  rw [hrepaired]
  exact derives_launchFile hentries (derives_componentAt "x" "b.goal" 58 59 60 68)
    ⟨0, 10⟩ ⟨10, 11⟩ ⟨37, 38⟩ ⟨38, 50⟩ ⟨50, 51⟩ ⟨51, 57⟩ ⟨68, 69⟩ ⟨69, 70⟩

/-- The second entry is eclipsed by the first, and is reported. -/
theorem unusedFile_sharedPath :
    (UnitTree.ofMas "m" sharedPath).usableTree? = some sharedPathFile ∧
      sharedPathFile.IsEclipsed [entryAt "b.goal" 11 19 20]
        (namedEntryAt "b.goal" "c" 20 28 29 33 34 35 37) ∧
      (SourceMap.ofText "m" sharedPath).unusedFinding
          (namedEntryAt "b.goal" "c" 20 28 29 33 34 35 37) ∈
        (ofMas "m" sharedPath ⟨fun _ ↦ true, fun _ _ ↦ .ok zipSignature⟩ .offline).diagnostics := by
  have hcounts : sharedPathFile.CountsBehind [entryAt "b.goal" 11 19 20]
      (namedEntryAt "b.goal" "c" 20 28 29 33 34 35 37) :=
    ⟨⟨[], rfl⟩, by decide⟩
  have heclipsed : sharedPathFile.IsEclipsed [entryAt "b.goal" 11 19 20]
      (namedEntryAt "b.goal" "c" 20 28 29 33 34 35 37) := by
    refine ⟨⟨_, .head _, rfl⟩, ?_, ⟨[], _, [], rfl, rfl, nofun⟩⟩
    rintro ⟨c, hc, hname⟩
    obtain rfl := List.mem_singleton.1 hc
    cases hname
  refine ⟨usableTree?_sharedPath, heclipsed, ?_⟩
  exact (unusedFile_iff _ _ usableTree?_sharedPath rfl hcounts).1.2 (.inr heclipsed)

end Report

end MasCheck
