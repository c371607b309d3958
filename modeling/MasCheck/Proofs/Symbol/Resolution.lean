import MasCheck.Proofs.Lists.Basic
import MasCheck.Proofs.Symbol.Building

/-!
# What a reference graph says

A use is without an edge exactly when it asks for no symbol of the table, so that the findings of a
table can be read off its symbols and uses.
-/

namespace MasCheck.SymbolTable

variable {t : SymbolTable} {s : Symbol} {u : Use} {number : Nat}

/-- The table has a symbol for the use. -/
def resolves (t : SymbolTable) (u : Use) : Bool :=
  t.symbols.any u.asksFor

theorem resolves_iff : t.resolves u = true ↔ ∃ s ∈ t.symbols, u.asksFor s = true :=
  List.any_eq_true

/-! ## Nodes and edges -/

/-- The builder that has made nodes of the symbols. -/
def indexed (t : SymbolTable) : GraphBuilder :=
  t.symbols.foldl GraphBuilder.declare .empty

theorem declares_indexed (t : SymbolTable) : t.indexed.Declares t.symbols :=
  GraphBuilder.declares_empty.foldl t.symbols

theorem graph_eq (t : SymbolTable) : t.graph =
    { nodes := t.symbols.map .inl ++ t.uses.map .inr
      edges := (t.uses.zipIdx t.symbols.length).filterMap fun (u, number) ↦
        (t.indexed.target? u).map fun declaration ↦ (number, declaration)
      declarations := t.indexed.graph.declarations
      uses := List.range' t.symbols.length t.uses.length } := by
  have h := t.declares_indexed
  change (t.uses.foldl GraphBuilder.refer t.indexed).graph = _
  rw [GraphBuilder.graph_foldl_refer, h.nodes_eq, h.edges_eq, h.uses_eq, List.nil_append,
    List.nil_append, List.length_map]

theorem edges_graph (t : SymbolTable) :
    t.graph.edges = (t.uses.zipIdx t.symbols.length).filterMap fun (u, number) ↦
      (t.indexed.target? u).map fun declaration ↦ (number, declaration) := by
  rw [graph_eq]

theorem mem_edges {e : Nat × Nat} : e ∈ t.graph.edges ↔
    ∃ u, (u, e.1) ∈ t.uses.zipIdx t.symbols.length ∧ t.indexed.target? u = some e.2 := by
  rw [edges_graph, List.mem_filterMap]
  constructor
  · rintro ⟨⟨u, number⟩, hu, hedge⟩
    obtain ⟨declaration, htarget, rfl⟩ := Option.map_eq_some_iff.1 hedge
    exact ⟨u, hu, htarget⟩
  · rintro ⟨u, hu, htarget⟩
    exact ⟨(u, e.1), hu, Option.map_eq_some_iff.2 ⟨e.2, htarget, rfl⟩⟩

theorem node_of_symbol (hs : t.symbols[number]? = some s) :
    t.graph.nodes[number]? = some (.inl s) := by
  obtain ⟨hlt, -⟩ := List.getElem?_eq_some_iff.1 hs
  rw [graph_eq]
  dsimp only
  rw [List.getElem?_append_left (by rwa [List.length_map]), List.getElem?_map, hs]
  rfl

theorem node_of_use (hu : (u, number) ∈ t.uses.zipIdx t.symbols.length) :
    t.graph.nodes[number]? = some (.inr u) := by
  obtain ⟨hle, hget⟩ := List.mk_mem_zipIdx_iff_le_and_getElem?_sub.1 hu
  rw [graph_eq]
  dsimp only
  rw [List.getElem?_append_right (by rwa [List.length_map]), List.length_map, List.getElem?_map,
    hget]
  rfl

theorem symbol?_graph (hs : t.symbols[number]? = some s) : t.graph.symbol? number = some s := by
  rw [ReferenceGraph.symbol?, node_of_symbol hs]
  rfl

theorem use?_graph (hu : (u, number) ∈ t.uses.zipIdx t.symbols.length) :
    t.graph.use? number = some u := by
  rw [ReferenceGraph.use?, node_of_use hu]
  rfl

/-- One number has one use. -/
theorem eq_of_mem_zipIdx {v : Use} (hu : (u, number) ∈ t.uses.zipIdx t.symbols.length)
    (hv : (v, number) ∈ t.uses.zipIdx t.symbols.length) : u = v :=
  Option.some.inj ((use?_graph hu).symm.trans (use?_graph hv))

/-! ## Uses without an edge -/

/-- An edge leaves the number of a use when the use resolves. -/
theorem any_edge_eq (hu : (u, number) ∈ t.uses.zipIdx t.symbols.length) :
    (t.graph.edges.any fun e ↦ e.1 = number) = t.resolves u := by
  rw [resolves, ← t.declares_indexed.isSome_target?, Bool.eq_iff_iff, List.any_eq_true]
  constructor
  · rintro ⟨e, he, hnumber⟩
    obtain ⟨v, hv, htarget⟩ := mem_edges.1 he
    rw [of_decide_eq_true hnumber] at hv
    rw [eq_of_mem_zipIdx hu hv, htarget]
    rfl
  · intro hsome
    obtain ⟨declaration, htarget⟩ := Option.isSome_iff_exists.1 hsome
    exact ⟨(number, declaration), mem_edges.2 ⟨u, hu, htarget⟩, decide_eq_true rfl⟩

theorem undeclared_graph (t : SymbolTable) :
    t.graph.undeclared = t.uses.filter fun u ↦ !t.resolves u := by
  have huses : t.graph.uses = (t.uses.zipIdx t.symbols.length).map Prod.snd := by
    rw [List.zipIdx_map_snd, graph_eq]
  unfold ReferenceGraph.undeclared
  rw [List.filterMap_filter, huses, List.filterMap_map]
  refine filterMap_zipIdx fun node hnode ↦ ?_
  simp only [Function.comp_apply]
  rw [any_edge_eq hnode, use?_graph hnode]

end MasCheck.SymbolTable
