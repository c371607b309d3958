import MasCheck.Proofs.Analysis.FindingKinds
import MasCheck.Proofs.Analysis.UnusedFiles
import MasCheck.Proofs.Tree.Erasure

/-!
# Analysis without places

An analysis never decides by places. It copies them into its findings: as their positions, and into
the arguments that point back to a first declaration. So trees that are the same but for their
places have the same findings but for these, in the same order, and the same agents.
-/

namespace MasCheck

open HasErasure (erased)

/-- The kinds of findings whose last argument is the place of an earlier declaration. -/
def pointingKinds : List Kind :=
  .environmentRepeated :: repeatedKinds

namespace Diagnostic

/-- What a finding says apart from places: its kind, its severity, and its arguments. -/
def placeless (d : Diagnostic) : Kind × Severity × List String :=
  (d.kind, d.severity, if d.kind ∈ pointingKinds then d.args.dropLast else d.args)

end Diagnostic

open Diagnostic (placeless)

/-- The analyses tell scripts the same about the agents of the system. -/
structure MasAnalysis.SameAgents (a a' : MasAnalysis) : Prop where
  agentNames : a.agentNames = a'.agentNames
  launched : a.launched = a'.launched
  canLaunch : a.canLaunch = a'.canLaunch

namespace HasErasure

instance : HasErasure Position := ⟨fun _ ↦ .fileStart ""⟩

instance : HasErasure Symbol := ⟨fun s ↦ { s with position := erased s.position }⟩

instance : HasErasure Use := ⟨fun u ↦ { u with position := erased u.position }⟩

/-- The name of the file is a part of each place. -/
instance : HasErasure SymbolTable :=
  ⟨fun t ↦ ⟨"", erased t.symbols, erased t.uses, t.reportUnused⟩⟩

end HasErasure

/-! ## Tables -/

namespace SymbolTable

variable {t t' : SymbolTable} {s s' : Symbol}

theorem erased_empty (file file' : String) (reportUnused : Bool) :
    erased { empty file with reportUnused } = erased { empty file' with reportUnused } := rfl

theorem find?_erased (t : SymbolTable) (category : Category) (name : String) :
    (erased t).find? category name = (t.find? category name).map erased :=
  List.find?_map

theorem erased_declare (t : SymbolTable) (s : Symbol) :
    erased (t.declare s) = (erased t).declare (erased s) := by
  have hfind : (erased t).find? (erased s).category (erased s).name =
      (t.find? s.category s.name).map erased := find?_erased ..
  unfold declare
  rw [hfind]
  cases t.find? s.category s.name with
  | some first => rfl
  | none =>
    have hsymbols := HasErasure.erased_append t.symbols [s]
    exact congrArg (fun symbols ↦ SymbolTable.mk "" symbols _ _) hsymbols

theorem erased_declare_congr (ht : erased t = erased t') (hs : erased s = erased s') :
    erased (t.declare s) = erased (t'.declare s') := by
  rw [erased_declare, erased_declare, ht, hs]

theorem erased_referAll (t : SymbolTable) (us : List Use) :
    erased (t.referAll us) = (erased t).referAll (erased us) := by
  have huses := HasErasure.erased_append t.uses us
  exact congrArg (fun uses ↦ SymbolTable.mk "" _ uses _) huses

theorem hasDistinctKeys_erased (h : t.HasDistinctKeys) : (erased t).HasDistinctKeys := by
  have hkeys : (erased t).symbols.map Symbol.key = t.symbols.map Symbol.key := List.map_map
  unfold HasDistinctKeys
  rwa [hkeys]

theorem names_declared_erased (t : SymbolTable) (category : Category) :
    ((erased t).declared category).map Symbol.name = (t.declared category).map Symbol.name := by
  unfold declared
  change ((t.symbols.map erased).filter _).map _ = _
  rw [List.filter_map, List.map_map]
  rfl

theorem placeless_repetition? (ht : erased t = erased t') (hs : erased s = erased s') :
    ((t.repetition? s).toList.map Repetition.diagnostic).map placeless =
      ((t'.repetition? s').toList.map Repetition.diagnostic).map placeless := by
  have hcopy : ∀ (t : SymbolTable) (s : Symbol),
      (((erased t).repetition? (erased s)).toList.map Repetition.diagnostic).map placeless =
        ((t.repetition? s).toList.map Repetition.diagnostic).map placeless := by
    intro t s
    have hfind : (erased t).find? (erased s).category (erased s).name =
        (t.find? s.category s.name).map erased := find?_erased ..
    have hkind : (erased s).category = s.category := rfl
    unfold repetition?
    rw [hfind, hkind]
    cases t.find? s.category s.name with
    | none => rfl
    | some first => cases hcategory : s.category <;> rfl
  rw [← hcopy t s, ht, hs, hcopy]

section

variable {α : Type} [HasErasure α] {symbol symbol' : α → Symbol}
  {findings findings' : α → List Diagnostic}

theorem erased_declareAll (hsymbol : ∀ x, erased (symbol x) = erased (symbol' (erased x)))
    (ht : erased t = erased t') (items : List α) :
    erased (t.declareAll symbol items) = erased (t'.declareAll symbol' (erased items)) := by
  induction items generalizing t t' with
  | nil => exact ht
  | cons x items ih =>
    exact @ih (t.declare (symbol x)) (t'.declare (symbol' (erased x)))
      (erased_declare_congr ht (hsymbol x))

theorem placeless_declarationFindings
    (hsymbol : ∀ x, erased (symbol x) = erased (symbol' (erased x)))
    (hfindings : ∀ x, (findings x).map placeless = (findings' (erased x)).map placeless)
    (ht : erased t = erased t') (items : List α) :
    (t.declarationFindings symbol findings items).map placeless =
      (t'.declarationFindings symbol' findings' (erased items)).map placeless := by
  induction items generalizing t t' with
  | nil => rfl
  | cons x items ih =>
    have hdeclare := erased_declare_congr ht (hsymbol x)
    change _ = (t'.declarationFindings symbol' findings' (erased x :: erased items)).map placeless
    rw [declarationFindings, declarationFindings]
    simp only [List.map_append]
    rw [hfindings, placeless_repetition? ht (hsymbol x), ih hdeclare]

end

/-! ## Uses and declarations -/

theorem named?_erased (t : SymbolTable) (u : Use) :
    (erased t).named? (erased u) = (t.named? u).map erased :=
  List.find?_map

theorem unnamed_erased (t : SymbolTable) : (erased t).unnamed = erased t.unnamed := by
  have hnone : ∀ u, ((erased t).named? (erased u) = none) ↔ t.named? u = none := by
    intro u
    rw [named?_erased, Option.map_eq_none_iff]
  change (t.uses.map erased).filter _ = (t.uses.filter _).map erased
  rw [List.filter_map]
  exact congrArg _ (List.filter_congr fun u _ ↦ decide_eq_decide.2 (hnone u))

/-- Symbols of one table are told apart by their keys, which have no places. -/
theorem named?_erased_iff (h : t.HasDistinctKeys) (hs : s ∈ t.symbols) (u : Use) :
    (erased t).named? (erased u) = some (erased s) ↔ t.named? u = some s := by
  rw [named?_erased, Option.map_eq_some_iff]
  constructor
  · rintro ⟨s', hs', hsame⟩
    have hkey : (erased s').key = (erased s).key := congrArg Symbol.key hsame
    rw [hs', h.eq_of_key (mem_of_named? hs') hs hkey]
  · exact fun hnamed ↦ ⟨s, hnamed, rfl⟩

theorem unusedOf_erased (h : t.HasDistinctKeys) (category : Category) :
    (erased t).unusedOf category = erased (t.unusedOf category) := by
  change (t.symbols.map erased).filter _ = (t.symbols.filter _).map erased
  rw [List.filter_map]
  refine congrArg _ (List.filter_congr fun s hs ↦ congrArg₂ _ rfl (congrArg _ ?_))
  change (t.uses.map erased).any _ = t.uses.any _
  rw [List.any_map]
  congr 1
  funext u
  exact decide_eq_decide.2 (named?_erased_iff h hs u)

theorem placeless_findings_erased (h : t.HasDistinctKeys) :
    (erased t).findings.map placeless = t.findings.map placeless := by
  have hundeclared : ((erased t).graph.undeclared.filterMap Use.undeclared?).map placeless =
      (t.graph.undeclared.filterMap Use.undeclared?).map placeless := by
    have huse : ∀ u : Use,
        (erased u).undeclared?.map placeless = u.undeclared?.map placeless := by
      rintro ⟨category, target, position, context⟩
      cases category <;> rfl
    rw [undeclared_graph_eq, undeclared_graph_eq, unnamed_erased, List.map_filterMap,
      List.map_filterMap]
    change (t.unnamed.map erased).filterMap _ = _
    rw [List.filterMap_map]
    exact List.filterMap_congr fun u _ ↦ huse u
  have hunused : ((erased t).graph.unused .agentFile).map
        (fun s ↦ placeless (.of .agentFileUnused [s.shown] s.position)) =
      (t.graph.unused .agentFile).map
        (fun s ↦ placeless (.of .agentFileUnused [s.shown] s.position)) := by
    rw [(hasDistinctKeys_erased h).unused_graph, h.unused_graph, unusedOf_erased h]
    exact List.map_map
  have hoption : (erased t).reportUnused = t.reportUnused := rfl
  unfold findings
  rw [List.map_append, List.map_append, hundeclared, hoption]
  congr 1
  split
  · rw [List.map_map, List.map_map]
    exact hunused
  · rfl

theorem placeless_findings (h : t.HasDistinctKeys) (h' : t'.HasDistinctKeys)
    (ht : erased t = erased t') : t.findings.map placeless = t'.findings.map placeless := by
  rw [← placeless_findings_erased h, ht, placeless_findings_erased h']

end SymbolTable

namespace Inquiry

variable {map map' : SourceMap} {p : Probe} {o : Options}

/-! ## The checks -/

theorem placeless_archiveFindings (path : String) (a b : Span) :
    (archiveFindings ⟨map, p, o⟩ ⟨path, a⟩).map placeless =
      (archiveFindings ⟨map', p, o⟩ ⟨path, b⟩).map placeless := by
  unfold archiveFindings lacks
  dsimp only
  split
  · rfl
  · split
    · rfl
    · split
      · cases p.isArchive path with
        | error e => rfl
        | ok found => cases found <;> rfl
      · rfl

theorem placeless_agentPathFindings (path : String) (a b : Span) :
    (agentPathFindings ⟨map, p, o⟩ ⟨path, a⟩).map placeless =
      (agentPathFindings ⟨map', p, o⟩ ⟨path, b⟩).map placeless := by
  unfold agentPathFindings lacks
  dsimp only
  split
  · rfl
  · split <;> rfl

theorem placeless_parameterFindings (path : String) (seen : List String)
    (ps : List (Located Parameter)) :
    (parameterFindings ⟨map, p, o⟩ path seen ps).map placeless =
      (parameterFindings ⟨map', p, o⟩ path seen (erased ps)).map placeless := by
  induction ps generalizing seen with
  | nil => rfl
  | cons x ps ih =>
    change _ = (parameterFindings ⟨map', p, o⟩ path seen (erased x :: erased ps)).map placeless
    have hkey : (erased x).node.key.node = x.node.key.node := rfl
    unfold parameterFindings
    dsimp only
    rw [hkey]
    split
    · exact congrArg (_ :: ·) (ih seen)
    · split
      · exact congrArg (_ :: ·) (ih seen)
      · exact ih _

theorem placeless_agentFileFindings (f : Located AgentFile) :
    (agentFileFindings ⟨map, p, o⟩ f).map placeless =
      (agentFileFindings ⟨map', p, o⟩ (erased f)).map placeless := by
  unfold agentFileFindings
  rw [List.map_append, List.map_append]
  exact congrArg₂ _ (placeless_agentPathFindings f.node.path.node _ _)
    (placeless_parameterFindings f.node.path.node [] f.node.parameters)

theorem placeless_constraintFindings (seen : List ConstraintWord)
    (cs : List (Located Constraint)) :
    (constraintFindings ⟨map, p, o⟩ seen cs).map placeless =
      (constraintFindings ⟨map', p, o⟩ seen (erased cs)).map placeless := by
  induction cs generalizing seen with
  | nil => rfl
  | cons c cs ih =>
    change _ = (constraintFindings ⟨map', p, o⟩ seen (erased c :: erased cs)).map placeless
    have hword : (erased c).node.word = c.node.word := rfl
    have hvalue : (erased c).node.value.node = c.node.value.node := rfl
    unfold constraintFindings
    dsimp only
    rw [hword, hvalue]
    split
    · exact congrArg (_ :: ·) (ih seen)
    · split
      · exact congrArg (_ :: ·) (ih _)
      · exact ih _

theorem placeless_conditionFindings (hasEnvironment : Bool) (rule : Located LaunchRule) :
    (conditionFindings ⟨map, p, o⟩ hasEnvironment rule).map placeless =
      (conditionFindings ⟨map', p, o⟩ hasEnvironment (erased rule)).map placeless := by
  obtain ⟨⟨condition, components⟩, span⟩ := rule
  cases condition with
  | none => rfl
  | some condition =>
    obtain ⟨entity, place⟩ := condition
    cases entity with
    | constraints items =>
      have hitems : (constraintFindings ⟨map, p, o⟩ [] items).map placeless =
          (constraintFindings ⟨map', p, o⟩ [] (erased items)).map placeless :=
        placeless_constraintFindings [] items
      cases hasEnvironment with
      | true => exact hitems
      | false => exact congrArg (_ :: ·) hitems
    | named name => cases hasEnvironment <;> rfl
    | any => cases hasEnvironment <;> rfl

theorem placeless_componentFindings (conditional : Bool) (c : LaunchComponent) :
    (componentFindings ⟨map, p, o⟩ conditional c).map placeless =
      (componentFindings ⟨map', p, o⟩ conditional (erased c)).map placeless := by
  unfold componentFindings
  rw [List.map_append, List.map_append]
  refine congrArg₂ _ ?_ ?_
  · have hname : (erased c).name.node = c.name.node := rfl
    rw [hname]
    split <;> rfl
  · obtain ⟨name, number, target⟩ := c
    cases number with
    | none => rfl
    | some number =>
      have hnumber : (erased number).node = number.node := rfl
      change List.map _ (if Text.isPositiveCount number.node then _ else _) =
        List.map _ (if Text.isPositiveCount (erased number).node then _ else _)
      rw [hnumber]
      split <;> rfl

theorem placeless_ruleFindings (hasEnvironment : Bool) (rule : Located LaunchRule) :
    (ruleFindings ⟨map, p, o⟩ hasEnvironment rule).map placeless =
      (ruleFindings ⟨map', p, o⟩ hasEnvironment (erased rule)).map placeless := by
  have hconditional : (erased rule).node.isConditional = rule.node.isConditional :=
    Option.isSome_map
  have hcomponents : (erased rule).node.components = rule.node.components.map erased := rfl
  unfold ruleFindings
  rw [List.map_append, List.map_append, hconditional, hcomponents, List.flatMap_map,
    List.map_flatMap, List.map_flatMap]
  exact congrArg₂ _ (placeless_conditionFindings _ rule)
    (List.flatMap_congr fun c _ ↦ placeless_componentFindings _ c.node)

theorem placeless_policyFindings (mas : MasFile) :
    (policyFindings ⟨map, p, o⟩ mas).map placeless =
      (policyFindings ⟨map', p, o⟩ (erased mas)).map placeless := by
  obtain ⟨environment, extra, files, policy⟩ := mas
  cases policy with
  | none => rfl
  | some policy =>
    obtain ⟨⟨rules⟩, span⟩ := policy
    have henvironment : (erased environment).isSome = environment.isSome := Option.isSome_map
    change List.map _ (if rules = [] then _ else rules.flatMap _) =
      List.map _ (if rules.map erased = [] then _ else (rules.map erased).flatMap
        (ruleFindings ⟨map', p, o⟩ (erased environment).isSome))
    simp only [List.map_eq_nil_iff, henvironment]
    split
    · rfl
    · rw [List.flatMap_map, List.map_flatMap, List.map_flatMap]
      exact List.flatMap_congr fun rule _ ↦ placeless_ruleFindings _ rule

variable (map map' p o)

theorem erased_initSymbol (entry : Located InitEntry) : erased (initSymbol ⟨map, p, o⟩ entry) =
    erased (initSymbol ⟨map', p, o⟩ (erased entry)) := rfl

theorem placeless_environmentFindings {t t' : SymbolTable} (ht : erased t = erased t')
    (mas : MasFile) : (environmentFindings ⟨map, p, o⟩ t mas).map placeless =
      (environmentFindings ⟨map', p, o⟩ t' (erased mas)).map placeless := by
  obtain ⟨environment, extra, files, policy⟩ := mas
  cases environment with
  | none => rfl
  | some environment =>
    obtain ⟨⟨archive, init⟩, span⟩ := environment
    have harchive : (archiveFindings ⟨map, p, o⟩ archive).map placeless =
        (archiveFindings ⟨map', p, o⟩ (erased archive)).map placeless :=
      placeless_archiveFindings archive.node _ _
    have hentries :
        (t.declarationFindings (initSymbol ⟨map, p, o⟩) (fun _ ↦ []) init).map placeless =
          (t'.declarationFindings (initSymbol ⟨map', p, o⟩) (fun _ ↦ []) (erased init)).map
            placeless :=
      SymbolTable.placeless_declarationFindings (erased_initSymbol map map' p o)
        (by exact fun _ ↦ rfl) ht init
    have hextra : (extraFindings ⟨map, p, o⟩ span extra).map placeless =
        (extraFindings ⟨map', p, o⟩ (erased span) (erased extra)).map placeless := by
      unfold extraFindings
      change _ = List.map _ (List.map _ (extra.map erased))
      rw [List.map_map, List.map_map, List.map_map]
      rfl
    change List.map _ (_ ++ _ ++ _) = List.map _ (archiveFindings ⟨map', p, o⟩ (erased archive) ++
      t'.declarationFindings (initSymbol ⟨map', p, o⟩) (fun _ ↦ []) (erased init) ++
      extraFindings ⟨map', p, o⟩ (erased span) (erased extra))
    simp only [List.map_append]
    rw [harchive, hentries, hextra]

/-! ## Analyses -/

theorem initEntries_erased (mas : MasFile) :
    initEntries (erased mas) = (initEntries mas).map erased := by
  obtain ⟨environment, extra, files, policy⟩ := mas
  cases environment <;> rfl

theorem components_erased (mas : MasFile) :
    (erased mas).components = mas.components.map erased := by
  obtain ⟨environment, extra, files, policy⟩ := mas
  cases policy with
  | none => rfl
  | some policy =>
    obtain ⟨⟨rules⟩, span⟩ := policy
    change (rules.map erased).flatMap _ = (rules.flatMap _).map erased
    rw [List.flatMap_map, List.map_flatMap]
    refine List.flatMap_congr fun rule _ ↦ ?_
    change (rule.node.components.map erased).map Located.node = _
    rw [List.map_map, List.map_map]
    rfl

theorem referenceName_erased (f : AgentFile) :
    (erased f).referenceName = erased f.referenceName := by
  have hname : (erased f).parameter? "name" = (f.parameter? "name").map erased := by
    unfold AgentFile.parameter?
    change ((f.parameters.map erased).find? _).map _ = _
    rw [List.find?_map, Option.map_map, Option.map_map]
    rfl
  unfold AgentFile.referenceName
  rw [hname]
  cases f.parameter? "name" <;> rfl

theorem erased_agentFileSymbol (f : Located AgentFile) :
    erased (agentFileSymbol ⟨map, p, o⟩ f) = erased (agentFileSymbol ⟨map', p, o⟩ (erased f)) := by
  have hname := congrArg Located.node (referenceName_erased f.node)
  exact congrArg (fun name ↦ Symbol.mk .agentFile name (.fileStart "") (some f.node.path.node))
    hname.symm

theorem erased_initTable (mas : MasFile) :
    erased (initTable ⟨map, p, o⟩ mas) = erased (initTable ⟨map', p, o⟩ (erased mas)) := by
  unfold initTable
  rw [initEntries_erased]
  exact SymbolTable.erased_declareAll (erased_initSymbol map map' p o)
    (SymbolTable.erased_empty map.file map'.file o.reportUnused) (initEntries mas)

theorem erased_masTable (mas : MasFile) :
    erased (masTable ⟨map, p, o⟩ mas) = erased (masTable ⟨map', p, o⟩ (erased mas)) := by
  have huses : erased (mas.components.map (launchUse ⟨map, p, o⟩)) =
      erased ((erased mas).components.map (launchUse ⟨map', p, o⟩)) := by
    rw [components_erased, List.map_map]
    change (mas.components.map _).map erased = (mas.components.map _).map erased
    rw [List.map_map, List.map_map]
    rfl
  have hdeclared := SymbolTable.erased_declareAll (erased_agentFileSymbol map map' p o)
    (erased_initTable map map' p o mas) mas.agentFiles
  change erased (((initTable ⟨map, p, o⟩ mas).declareAll _ mas.agentFiles).referAll _) =
    erased (((initTable ⟨map', p, o⟩ (erased mas)).declareAll _ (erased mas.agentFiles)).referAll _)
  rw [SymbolTable.erased_referAll, SymbolTable.erased_referAll, hdeclared, huses]

theorem placeless_analyzeMas_erased (mas : MasFile) :
    (analyzeMas ⟨map, p, o⟩ mas).diagnostics.map placeless =
      (analyzeMas ⟨map', p, o⟩ (erased mas)).diagnostics.map placeless := by
  have hfiles := SymbolTable.placeless_declarationFindings (erased_agentFileSymbol map map' p o)
    (@placeless_agentFileFindings map map' p o) (erased_initTable map map' p o mas) mas.agentFiles
  have hfindings := SymbolTable.placeless_findings (hasDistinctKeys_masTable ⟨map, p, o⟩ mas)
    (hasDistinctKeys_masTable ⟨map', p, o⟩ (erased mas)) (erased_masTable map map' p o mas)
  have henvironment := placeless_environmentFindings map map' p o
    (SymbolTable.erased_empty map.file map'.file o.reportUnused) mas
  unfold analyzeMas
  simp only [List.map_append]
  exact congrArg₂ _ (congrArg₂ _ (congrArg₂ _ henvironment hfiles) (placeless_policyFindings mas))
    hfindings

theorem launched_erased (mas : MasFile) : (erased mas).launched = mas.launched := by
  unfold MasFile.launched
  rw [components_erased, List.filterMap_map]
  rfl

theorem hasWildcard_erased (mas : MasFile) : (erased mas).hasWildcard = mas.hasWildcard := by
  unfold MasFile.hasWildcard
  rw [components_erased, List.any_map]
  rfl

theorem sameAgents_analyzeMas_erased (mas : MasFile) :
    (analyzeMas ⟨map, p, o⟩ mas).SameAgents (analyzeMas ⟨map', p, o⟩ (erased mas)) := by
  have hnames : (analyzeMas ⟨map, p, o⟩ mas).agentNames =
      (analyzeMas ⟨map', p, o⟩ (erased mas)).agentNames := by
    have hdeclared := congrArg (fun t ↦ (SymbolTable.declared t .agentFile).map Symbol.name)
      (erased_masTable map map' p o mas)
    rw [SymbolTable.names_declared_erased, SymbolTable.names_declared_erased] at hdeclared
    exact congrArg₂ _ hdeclared (launched_erased mas).symm
  refine ⟨hnames, (launched_erased mas).symm, ?_⟩
  funext agent
  unfold MasAnalysis.canLaunch
  rw [hnames]
  exact congrArg (· || _) (hasWildcard_erased mas).symm

/-- Trees that are the same but for places have the same findings but for places, in the same
order, and the same agents. -/
theorem analyzeMas_of_erased_eq {mas mas' : MasFile} (h : erased mas = erased mas') :
    (analyzeMas ⟨map, p, o⟩ mas).diagnostics.map placeless =
        (analyzeMas ⟨map', p, o⟩ mas').diagnostics.map placeless ∧
      (analyzeMas ⟨map, p, o⟩ mas).SameAgents (analyzeMas ⟨map', p, o⟩ mas') := by
  have hagents := sameAgents_analyzeMas_erased map map' p o mas
  have hagents' := sameAgents_analyzeMas_erased map' map' p o mas'
  rw [h] at hagents
  refine ⟨?_, hagents.agentNames.trans hagents'.agentNames.symm,
    hagents.launched.trans hagents'.launched.symm, hagents.canLaunch.trans hagents'.canLaunch.symm⟩
  rw [placeless_analyzeMas_erased map map' p o, h, ← placeless_analyzeMas_erased map' map' p o]

/-- What is left out of the arguments is a place. -/
theorem exists_place_of_mem_pointingKinds {q : Inquiry} {mas : MasFile} {d : Diagnostic}
    (hd : d ∈ (q.analyzeMas mas).diagnostics) (hkind : d.kind ∈ pointingKinds) :
    ∃ first : Position, d.args = d.args.dropLast ++ [first.text] := by
  rcases mem_analyzeMas_cases hd with hfinding | hcompared
  · cases hfinding with
    | initKeyRepeated _ _ first => exact ⟨first, rfl⟩
    | environmentRepeated _ first => exact ⟨first, rfl⟩
    | agentFileNameRepeated _ first => exact ⟨first, rfl⟩
    | policyMissing =>
      have hempty : Kind.launchPolicyEmpty ∉ pointingKinds := by decide
      exact absurd hkind hempty
    | _ => simp [pointingKinds, repeatedKinds] at hkind
  · have hother : ∀ kind ∈ comparisonKinds, kind ∉ pointingKinds := by decide
    exact absurd hkind (hother _ (SymbolTable.areOf_findings d hcompared))

end Inquiry

end MasCheck
