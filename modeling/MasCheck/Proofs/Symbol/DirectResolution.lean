import MasCheck.Proofs.Lists.Basic
import MasCheck.Proofs.Symbol.Filling
import MasCheck.Proofs.Symbol.Resolution

/-!
# Resolution without a graph

A use names the symbol with its name, or else the earliest symbol with its path, in its own
category. The graph of a table that was filled by calls says the same: its edges are the pairs of
uses and the symbols they name, and all that it is asked about them can be said without nodes,
numbers and indexes.
-/

namespace MasCheck

theorem Use.map_undeclared? (u : Use) :
    u.undeclared?.map (fun d ↦ (d.kind, d.position)) =
      u.category.undeclaredKind?.map fun kind ↦ (kind, u.position) := by
  rw [undeclared?, Option.map_map]
  rfl

namespace SymbolTable

variable {t : SymbolTable} {u : Use} {s : Symbol} {number declaration : Nat}

/-- What it means that a use names a symbol. -/
inductive Names (t : SymbolTable) (u : Use) (s : Symbol) : Prop
  | byName {name : String} (htarget : u.target = .name name) (hs : s ∈ t.symbols)
      (hkey : s.key = (u.category, name)) : Names t u s
  | byPath {path : String} {before after : List Symbol} (htarget : u.target = .path path)
      (hsymbols : t.symbols = before ++ s :: after) (hcategory : s.category = u.category)
      (hresource : s.resource = some path)
      (hfirst : ∀ s' ∈ before, s'.category = u.category → s'.resource ≠ some path) : Names t u s

/-- The symbol that a use names. -/
def named? (t : SymbolTable) (u : Use) : Option Symbol :=
  t.symbols.find? u.asksFor

/-- The uses that name nothing. -/
def unnamed (t : SymbolTable) : List Use :=
  t.uses.filter fun u ↦ t.named? u = none

/-- The uses that name the symbol. -/
def usesOf (t : SymbolTable) (s : Symbol) : List Use :=
  t.uses.filter fun u ↦ t.named? u = some s

/-- The symbols of a category that no use names. -/
def unusedOf (t : SymbolTable) (category : Category) : List Symbol :=
  t.symbols.filter fun s ↦ s.category = category && !t.uses.any fun u ↦ t.named? u = some s

theorem named?_isSome (t : SymbolTable) (u : Use) : (t.named? u).isSome = t.resolves u := by
  rw [named?, List.isSome_find?]
  rfl

theorem mem_of_named? (h : t.named? u = some s) : s ∈ t.symbols :=
  List.mem_of_find?_eq_some h

theorem category_of_named? (h : t.named? u = some s) : s.category = u.category := by
  have hasks := List.find?_some h
  exact (of_decide_eq_true (Bool.and_eq_true_iff.1 hasks).1).symm

namespace HasDistinctKeys

theorem named?_eq_some_iff (h : t.HasDistinctKeys) : t.named? u = some s ↔ t.Names u s := by
  unfold named?
  constructor
  · intro hfind
    cases htarget : u.target with
    | name name =>
      have hkey := (Use.asksFor_iff_of_name htarget).1 (List.find?_some hfind)
      exact .byName htarget (List.mem_of_find?_eq_some hfind) hkey
    | path path =>
      obtain ⟨hs, before, after, hsymbols, hfirst⟩ := List.find?_eq_some_iff_append.1 hfind
      obtain ⟨hcategory, hresource⟩ := (Use.asksFor_iff_of_path htarget).1 hs
      refine .byPath htarget hsymbols hcategory hresource fun s' hs' hcategory' hresource' ↦ ?_
      have hnot := hfirst s' hs'
      rw [(Use.asksFor_iff_of_path htarget).2 ⟨hcategory', hresource'⟩] at hnot
      cases hnot
  · rintro (⟨htarget, hs, hkey⟩ | ⟨htarget, hsymbols, hcategory, hresource, hfirst⟩)
    · have hsome : (t.symbols.find? u.asksFor).isSome := by
        rw [List.isSome_find?, List.any_eq_true]
        exact ⟨s, hs, (Use.asksFor_iff_of_name htarget).2 hkey⟩
      obtain ⟨s', hfind⟩ := Option.isSome_iff_exists.1 hsome
      have hkey' := (Use.asksFor_iff_of_name htarget).1 (List.find?_some hfind)
      rw [hfind, h.eq_of_key (List.mem_of_find?_eq_some hfind) hs (hkey'.trans hkey.symm)]
    · refine List.find?_eq_some_iff_append.2
        ⟨(Use.asksFor_iff_of_path htarget).2 ⟨hcategory, hresource⟩, _, _, hsymbols, ?_⟩
      intro s' hs'
      rw [Bool.not_eq_true', ← Bool.not_eq_true, Use.asksFor_iff_of_path htarget]
      exact fun hasks ↦ hfirst s' hs' hasks.1 hasks.2

/-- A use names a symbol that it asks for when it asks for none of the symbols in front. -/
theorem named?_eq_some_iff_of_split (h : t.HasDistinctKeys) {before after : List Symbol}
    (hsymbols : t.symbols = before ++ s :: after) :
    t.named? u = some s ↔ u.asksFor s = true ∧ ∀ s' ∈ before, u.asksFor s' = false := by
  have hnodup := h.nodup
  rw [hsymbols, List.nodup_middle, List.nodup_cons] at hnodup
  unfold named?
  rw [List.find?_eq_some_iff_append, hsymbols]
  constructor
  · rintro ⟨hs, front, back, heq, hfront⟩
    have hnot : s ∉ before ∧ s ∉ after := by simpa using hnodup.1
    obtain ⟨rfl, -, -⟩ := (List.append_cons_inj_of_notMem hnot.1 hnot.2).1 heq
    exact ⟨hs, fun s' hs' ↦ by simpa using hfront s' hs'⟩
  · rintro ⟨hs, hbefore⟩
    exact ⟨hs, before, after, rfl, fun s' hs' ↦ by simp [hbefore s' hs']⟩

theorem exists_named_of_target? (h : t.HasDistinctKeys)
    (htarget : t.indexed.target? u = some declaration) :
    ∃ s, t.symbols[declaration]? = some s ∧ t.named? u = some s := by
  have hdeclares := t.declares_indexed
  cases hu : u.target with
  | name name =>
    obtain ⟨s, hs, hasks⟩ := hdeclares.asksFor_target? htarget
    have hkey := (Use.asksFor_iff_of_name hu).1 hasks
    exact ⟨s, hs, h.named?_eq_some_iff.2 (.byName hu (List.mem_of_getElem? hs) hkey)⟩
  | path path =>
    unfold GraphBuilder.target? at htarget
    rw [hu] at htarget
    dsimp only at htarget
    rw [hdeclares.paths] at htarget
    obtain ⟨hlt, hs, hfirst⟩ := List.findIdx?_eq_some_iff_getElem.1 htarget
    refine ⟨t.symbols[declaration], List.getElem?_eq_getElem hlt, ?_⟩
    refine List.find?_eq_some_iff_getElem.2
      ⟨(Use.asksFor_iff_of_path hu).2 (of_decide_eq_true hs), declaration, hlt, rfl, ?_⟩
    intro j hj
    rw [Bool.not_eq_true', ← Bool.not_eq_true, Use.asksFor_iff_of_path hu]
    exact fun hasks ↦ hfirst j hj (decide_eq_true hasks)

/-- The indexes lead to the symbol that the use names. -/
theorem target?_eq_some_iff (h : t.HasDistinctKeys) :
    t.indexed.target? u = some declaration ↔
      ∃ s, t.symbols[declaration]? = some s ∧ t.named? u = some s := by
  refine ⟨h.exists_named_of_target?, ?_⟩
  rintro ⟨s, hs, hnamed⟩
  have hsome : (t.indexed.target? u).isSome := by
    rw [t.declares_indexed.isSome_target?, ← resolves, ← named?_isSome, hnamed]
    rfl
  obtain ⟨other, htarget⟩ := Option.isSome_iff_exists.1 hsome
  obtain ⟨s', hs', hnamed'⟩ := h.exists_named_of_target? htarget
  obtain rfl := Option.some.inj (hnamed.symm.trans hnamed')
  obtain ⟨hlt, -⟩ := List.getElem?_eq_some_iff.1 hs
  rw [htarget, (List.getElem?_inj hlt h.nodup).1 (hs.trans hs'.symm)]

theorem target?_eq_iff (h : t.HasDistinctKeys) (hs : t.symbols[number]? = some s) :
    t.indexed.target? u = some number ↔ t.named? u = some s := by
  rw [h.target?_eq_some_iff]
  constructor
  · rintro ⟨s', hs', hnamed⟩
    rwa [Option.some.inj (hs.symm.trans hs')]
  · exact fun hnamed ↦ ⟨s, hs, hnamed⟩

theorem mem_edges_iff (h : t.HasDistinctKeys) : (number, declaration) ∈ t.graph.edges ↔
    ∃ u s, (u, number) ∈ t.uses.zipIdx t.symbols.length ∧ t.symbols[declaration]? = some s ∧
      t.named? u = some s := by
  rw [mem_edges]
  constructor
  · rintro ⟨u, hu, htarget⟩
    obtain ⟨s, hs, hnamed⟩ := h.target?_eq_some_iff.1 htarget
    exact ⟨u, s, hu, hs, hnamed⟩
  · rintro ⟨u, s, hu, hs, hnamed⟩
    exact ⟨u, hu, h.target?_eq_some_iff.2 ⟨s, hs, hnamed⟩⟩

/-- An edge goes to the number of a symbol when a use names it. -/
theorem any_edge_to_eq (h : t.HasDistinctKeys) (hs : t.symbols[number]? = some s) :
    (t.graph.edges.any fun e ↦ e.2 = number) = t.uses.any fun u ↦ t.named? u = some s := by
  rw [Bool.eq_iff_iff, List.any_eq_true, List.any_eq_true]
  constructor
  · rintro ⟨e, he, hnumber⟩
    obtain ⟨u, s', hu, hs', hnamed⟩ := h.mem_edges_iff.1 he
    rw [of_decide_eq_true hnumber, hs] at hs'
    obtain rfl := Option.some.inj hs'
    exact ⟨u, List.fst_mem_of_mem_zipIdx hu, decide_eq_true hnamed⟩
  · rintro ⟨u, hu, hnamed⟩
    rw [← List.zipIdx_map_fst t.symbols.length t.uses] at hu
    obtain ⟨⟨u, source⟩, hnode, rfl⟩ := List.mem_map.1 hu
    exact ⟨(source, number), h.mem_edges_iff.2 ⟨u, s, hnode, hs, of_decide_eq_true hnamed⟩,
      decide_eq_true rfl⟩

theorem entries_graph (h : t.HasDistinctKeys) : t.graph.declarations.entries =
    t.symbols.zipIdx.map fun (s, number) ↦ (s.key, number) := by
  rw [graph_eq]
  exact GraphBuilder.declares_empty.entries_foldl t.symbols rfl h

theorem unused_graph (h : t.HasDistinctKeys) (category : Category) :
    t.graph.unused category = t.unusedOf category := by
  unfold ReferenceGraph.unused
  rw [List.filterMap_filter, h.entries_graph, List.filterMap_map]
  refine filterMap_zipIdx fun node hnode ↦ ?_
  have hs := List.mk_mem_zipIdx_iff_getElem?.1 hnode
  simp only [Function.comp_apply]
  rw [h.any_edge_to_eq hs, symbol?_graph hs]
  by_cases hcategory : node.1.category = category
  · cases hused : t.uses.any fun u ↦ t.named? u = some node.1 <;> simp [Symbol.key, hcategory]
  · simp [Symbol.key, hcategory]

theorem find?_declarations (h : t.HasDistinctKeys) (hs : t.symbols[number]? = some s) :
    t.graph.declarations.find? s.key = some number := by
  have hnames : t.graph.declarations.Covers t.symbols := by
    rw [graph_eq]
    exact t.declares_indexed.names
  have hmem := List.mem_of_getElem? hs
  have hsome : (t.graph.declarations.find? s.key).isSome := by
    rw [hnames.find?_isSome, List.any_eq_true]
    exact ⟨s, hmem, decide_eq_true rfl⟩
  obtain ⟨other, hfind⟩ := Option.isSome_iff_exists.1 hsome
  obtain ⟨s', hs', hkey⟩ := hnames.sound _ (NodeIndex.mem_of_find? hfind)
  obtain rfl := h.eq_of_key (List.mem_of_getElem? hs') hmem hkey
  obtain ⟨hlt, -⟩ := List.getElem?_eq_some_iff.1 hs
  rw [hfind, (List.getElem?_inj hlt h.nodup).1 (hs.trans hs'.symm)]

theorem usages_graph (h : t.HasDistinctKeys) (hs : s ∈ t.symbols) :
    t.graph.usages s.category s.name = (t.usesOf s).reverse := by
  obtain ⟨number, hnumber⟩ := List.mem_iff_getElem?.1 hs
  have hfind : t.graph.declarations.find? (s.category, s.name) = some number :=
    h.find?_declarations hnumber
  unfold ReferenceGraph.usages
  rw [hfind]
  dsimp only
  rw [List.filterMap_reverse, List.filterMap_filter, edges_graph, List.filterMap_filterMap]
  congr 1
  refine filterMap_zipIdx fun node hnode ↦ ?_
  have htarget := h.target?_eq_iff (u := node.1) hnumber
  by_cases hnamed : t.named? node.1 = some s
  · simp [htarget.2 hnamed, hnamed, use?_graph hnode]
  · have hnone : ∀ other, t.indexed.target? node.1 = some other → other = number →
        t.graph.use? node.2 = none := by
      rintro other hother rfl
      exact absurd (htarget.1 hother) hnamed
    simpa [hnamed] using hnone

end HasDistinctKeys

theorem usages_graph_of_undeclared {category : Category} {name : String}
    (hnone : ∀ s ∈ t.symbols, s.key ≠ (category, name)) : t.graph.usages category name = [] := by
  have hfind : t.graph.declarations.find? (category, name) = none := by
    rw [← Option.not_isSome_iff_eq_none, graph_eq]
    dsimp only
    rw [t.declares_indexed.names.find?_isSome, List.any_eq_true]
    rintro ⟨s, hs, hkey⟩
    exact hnone s hs (of_decide_eq_true hkey)
  unfold ReferenceGraph.usages
  rw [hfind]

theorem undeclared_graph_eq (t : SymbolTable) : t.graph.undeclared = t.unnamed := by
  rw [undeclared_graph]
  refine List.filter_congr fun u _ ↦ ?_
  rw [← named?_isSome]
  cases t.named? u <;> rfl

/-! ## Each use once -/

theorem HasDistinctKeys.uses_perm (h : t.HasDistinctKeys) :
    t.uses.Perm (t.unnamed ++ t.symbols.flatMap t.usesOf) := by
  refine (List.filter_append_perm (fun u ↦ t.named? u = none) t.uses).symm.trans ?_
  refine List.Perm.append_left _ (.trans (.of_eq (List.filter_congr fun u _ ↦ ?_))
    (filter_perm_flatMap t.named? t.uses h.nodup))
  cases hnamed : t.named? u with
  | none => simp
  | some s => simp [mem_of_named? hnamed]

theorem nodup_sources (t : SymbolTable) : (t.graph.edges.map Prod.fst).Nodup := by
  have hsublist : ∀ l : List (Use × Nat), ((l.filterMap fun node ↦
      (t.indexed.target? node.1).map fun declaration ↦ (node.2, declaration)).map Prod.fst).Sublist
        (l.map Prod.snd) := by
    intro l
    induction l with
    | nil => exact .slnil
    | cons node l ih =>
      cases hnode : t.indexed.target? node.1 with
      | none => simpa [hnode] using ih.cons node.2
      | some declaration => simpa [hnode] using ih.cons_cons node.2
  rw [edges_graph]
  refine (hsublist _).nodup ?_
  rw [List.zipIdx_map_snd]
  exact List.nodup_range'

/-! ## Findings -/

/-- A receiver is handed the findings, and the answer counts them. -/
theorem deliver_eq_findings {σ : Type} (t : SymbolTable) (receive : σ → Diagnostic → σ)
    (receiver : σ) :
    t.deliver receive receiver = (t.findings.foldl receive receiver, t.findings.length) := by
  have herrors : ∀ (us : List Use) (state : σ × Nat),
      us.foldl (fun state u ↦ u.undeclared?.elim state fun d ↦ (receive state.1 d, state.2 + 1))
          state =
        (us.filterMap Use.undeclared?).foldl (fun state d ↦ (receive state.1 d, state.2 + 1))
          state := by
    intro us state
    rw [List.foldl_filterMap]
    congr 1
    funext state u
    cases u.undeclared? <;> rfl
  unfold deliver findings
  dsimp only
  rw [herrors, foldl_counted, Nat.zero_add]
  split
  · rw [← List.foldl_map (f := fun s : Symbol ↦
      Diagnostic.of .agentFileUnused [s.shown] s.position)
      (g := fun (state : σ × Nat) d ↦ (receive state.1 d, state.2 + 1)), foldl_counted,
      List.foldl_append, List.length_append]
  · rw [List.append_nil]

/-! ## Filled tables -/

/-- Resolution of a table, said of its symbols and uses. -/
structure ResolvesDirectly (t : SymbolTable) : Prop where
  named : ∀ u s, t.named? u = some s ↔ t.Names u s
  resolves : ∀ u, (∃ s, t.Names u s) ↔ ∃ s ∈ t.symbols, u.asksFor s = true
  nodes : t.graph.nodes = t.symbols.map .inl ++ t.uses.map .inr
  edges : ∀ number declaration, (number, declaration) ∈ t.graph.edges ↔
    ∃ i u s, t.uses[i]? = some u ∧ number = t.symbols.length + i ∧
      t.symbols[declaration]? = some s ∧ t.Names u s
  sameCategory : ∀ e ∈ t.graph.edges, ∃ u s, t.graph.nodes[e.1]? = some (.inr u) ∧
    t.graph.nodes[e.2]? = some (.inl s) ∧ s.category = u.category
  oneEdge : (t.graph.edges.map Prod.fst).Nodup
  undeclared : t.graph.undeclared = t.unnamed
  unused : ∀ category, t.graph.unused category = t.unusedOf category
  usages : ∀ s ∈ t.symbols, t.graph.usages s.category s.name = (t.usesOf s).reverse
  noUsages : ∀ category name, (∀ s ∈ t.symbols, s.key ≠ (category, name)) →
    t.graph.usages category name = []
  eachUseOnce : t.uses.Perm
    (t.graph.undeclared ++ t.symbols.flatMap fun s ↦ t.graph.usages s.category s.name)
  /-- A use that names nothing gives an error exactly when its category has a kind for it. -/
  errors : ∀ u : Use, u.undeclared?.map (fun d ↦ (d.kind, d.position)) =
    u.category.undeclaredKind?.map fun kind ↦ (kind, u.position)
  findings : t.findings = t.unnamed.filterMap Use.undeclared? ++
    if t.reportUnused then
      (t.unusedOf .agentFile).map fun s ↦ .of .agentFileUnused [s.shown] s.position
    else []
  deliver : ∀ (σ : Type) (receive : σ → Diagnostic → σ) (receiver : σ),
    t.deliver receive receiver = (t.findings.foldl receive receiver, t.findings.length)

theorem resolvesDirectly_filled (file : String) (reportUnused : Bool) (calls : List TableCall) :
    (filled file reportUnused calls).ResolvesDirectly := by
  have h := hasDistinctKeys_filled file reportUnused calls
  generalize filled file reportUnused calls = t at h ⊢
  refine
    { named := fun u s ↦ h.named?_eq_some_iff
      resolves := fun u ↦ ?_
      nodes := by rw [graph_eq]
      edges := fun number declaration ↦ ?_
      sameCategory := fun e he ↦ ?_
      oneEdge := t.nodup_sources
      undeclared := t.undeclared_graph_eq
      unused := h.unused_graph
      usages := fun s hs ↦ h.usages_graph hs
      noUsages := fun category name ↦ usages_graph_of_undeclared
      eachUseOnce := ?_
      errors := Use.map_undeclared?
      findings := ?_
      deliver := fun σ ↦ t.deliver_eq_findings }
  · rw [← resolves_iff, ← named?_isSome, Option.isSome_iff_exists]
    exact exists_congr fun s ↦ h.named?_eq_some_iff.symm
  · rw [h.mem_edges_iff]
    constructor
    · rintro ⟨u, s, hu, hs, hnamed⟩
      obtain ⟨hle, hget⟩ := List.mk_mem_zipIdx_iff_le_and_getElem?_sub.1 hu
      exact ⟨number - t.symbols.length, u, s, hget, by omega, hs, h.named?_eq_some_iff.1 hnamed⟩
    · rintro ⟨i, u, s, hget, rfl, hs, hnames⟩
      refine ⟨u, s, List.mk_mem_zipIdx_iff_le_and_getElem?_sub.2 ⟨Nat.le_add_right _ i, ?_⟩, hs,
        h.named?_eq_some_iff.2 hnames⟩
      rwa [Nat.add_sub_cancel_left]
  · obtain ⟨u, s, hu, hs, hnamed⟩ := h.mem_edges_iff.1 he
    exact ⟨u, s, node_of_use hu, node_of_symbol hs, category_of_named? hnamed⟩
  · rw [undeclared_graph_eq]
    refine h.uses_perm.trans (List.Perm.append_left _ (List.Perm.flatMap_left _ fun s hs ↦ ?_))
    rw [h.usages_graph hs]
    exact (List.reverse_perm _).symm
  · rw [SymbolTable.findings, undeclared_graph_eq, h.unused_graph]

end SymbolTable

end MasCheck
