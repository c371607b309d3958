import MasCheck.Symbol.Graph

/-!
# How a graph is built

When the declarations of a table have become nodes, its names lead to declarations of these names,
and each path to the first declaration that has it. The nodes of uses change nothing about that, so
that what a use leads to can be said of the declarations alone.
-/

namespace MasCheck

namespace Use

variable {u : Use} {s : Symbol}

theorem asksFor_iff_of_name {name : String} (h : u.target = .name name) :
    u.asksFor s = true ↔ s.key = (u.category, name) := by
  simp only [asksFor, h, Bool.and_eq_true, decide_eq_true_eq, Symbol.key, Prod.mk.injEq]
  exact and_congr_left' eq_comm

theorem asksFor_iff_of_path {path : String} (h : u.target = .path path) :
    u.asksFor s = true ↔ s.category = u.category ∧ s.resource = some path := by
  simp only [asksFor, h, Bool.and_eq_true, decide_eq_true_eq]
  exact and_congr_left' eq_comm

end Use

namespace NodeIndex

variable {index : NodeIndex} {key other : Category × String} {number : Nat}
  {entry : (Category × String) × Nat} {ss : List Symbol}

theorem mem_of_find? (h : index.find? key = some number) : (key, number) ∈ index.entries := by
  obtain ⟨before, after, heq, -⟩ := List.lookup_eq_some_iff.1 h
  simp [heq]

theorem find?_eq_none_iff : index.find? key = none ↔ ∀ entry ∈ index.entries, entry.1 ≠ key := by
  unfold find?
  rw [List.lookup_eq_none_iff]
  simp only [bne_iff_ne, ne_comm]

theorem enter_of_free (h : index.find? key = none) :
    index.enter key number = ⟨index.entries ++ [(key, number)]⟩ := by
  simp [enter, h]

theorem mem_enter (h : entry ∈ (index.enter key number).entries) :
    entry = (key, number) ∨ entry ∈ index.entries := by
  unfold enter at h
  split at h
  · obtain ⟨old, hold, rfl⟩ := List.mem_map.1 h
    split
    · exact .inl rfl
    · exact .inr hold
  · rcases List.mem_append.1 h with h | h
    · exact .inr h
    · exact .inl (List.mem_singleton.1 h)

theorem exists_key_enter_self : ∃ entry ∈ (index.enter key number).entries, entry.1 = key := by
  cases hfind : index.find? key with
  | none =>
    rw [enter_of_free hfind]
    exact ⟨(key, number), by simp, rfl⟩
  | some old =>
    have hmem := List.mem_map_of_mem (mem_of_find? hfind)
      (f := fun entry ↦ if entry.1 = key then (key, number) else entry)
    refine ⟨(key, number), ?_, rfl⟩
    simpa [enter, hfind] using hmem

theorem exists_key_enter (h : ∃ entry ∈ index.entries, entry.1 = other) :
    ∃ entry ∈ (index.enter key number).entries, entry.1 = other := by
  by_cases hother : other = key
  · rw [hother]
    exact exists_key_enter_self
  · obtain ⟨entry, hentry, rfl⟩ := h
    refine ⟨entry, ?_, rfl⟩
    unfold enter
    split
    · exact List.mem_map.2 ⟨entry, hentry, if_neg hother⟩
    · exact List.mem_append_left _ hentry

theorem find?_enterNew : (index.enterNew key number).find? other =
    (index.find? other).or (if other = key then some number else none) := by
  unfold enterNew
  split
  · next htaken =>
    by_cases hother : other = key
    · obtain ⟨old, hold⟩ := Option.isSome_iff_exists.1 htaken
      rw [hother, hold]
      rfl
    · rw [if_neg hother, Option.or_none]
  · change List.lookup other (index.entries ++ [(key, number)]) = _
    rw [List.lookup_append]
    by_cases hother : other = key
    · simp [find?, hother]
    · simp [find?, List.lookup_cons, hother, beq_eq_false_iff_ne.2 hother]

/-- All symbols are entered under their keys, and under a key stands the number of a symbol that
has it. -/
structure Covers (index : NodeIndex) (ss : List Symbol) : Prop where
  sound : ∀ entry ∈ index.entries, ∃ s, ss[entry.2]? = some s ∧ s.key = entry.1
  complete : ∀ s ∈ ss, ∃ entry ∈ index.entries, entry.1 = s.key

theorem Covers.enter (h : index.Covers ss) (s : Symbol) :
    (index.enter s.key ss.length).Covers (ss ++ [s]) where
  sound := by
    intro entry hentry
    rcases mem_enter hentry with rfl | hentry
    · exact ⟨s, List.getElem?_concat_length, rfl⟩
    · obtain ⟨s', hs', hkey⟩ := h.sound entry hentry
      obtain ⟨hlt, -⟩ := List.getElem?_eq_some_iff.1 hs'
      exact ⟨s', (List.getElem?_append_left hlt).trans hs', hkey⟩
  complete := by
    intro s' hs'
    rcases List.mem_append.1 hs' with hs' | hs'
    · exact exists_key_enter (h.complete s' hs')
    · rw [List.mem_singleton.1 hs']
      exact exists_key_enter_self

theorem Covers.find?_isSome (h : index.Covers ss) (key : Category × String) :
    (index.find? key).isSome = ss.any fun s ↦ s.key = key := by
  rw [Bool.eq_iff_iff, List.any_eq_true]
  constructor
  · intro hsome
    obtain ⟨number, hfind⟩ := Option.isSome_iff_exists.1 hsome
    obtain ⟨s, hs, hkey⟩ := h.sound _ (mem_of_find? hfind)
    exact ⟨s, List.mem_of_getElem? hs, decide_eq_true hkey⟩
  · rintro ⟨s, hs, hkey⟩
    obtain ⟨entry, hentry, heq⟩ := h.complete s hs
    rw [Option.isSome_iff_ne_none]
    intro hnone
    exact find?_eq_none_iff.1 hnone entry hentry (heq.trans (of_decide_eq_true hkey))

end NodeIndex

namespace GraphBuilder

variable {b : GraphBuilder} {ss : List Symbol} {u : Use}

/-- The symbols have become nodes and no use has. -/
structure Declares (b : GraphBuilder) (ss : List Symbol) : Prop where
  nodes_eq : b.graph.nodes = ss.map .inl
  edges_eq : b.graph.edges = []
  uses_eq : b.graph.uses = []
  names : b.graph.declarations.Covers ss
  paths : ∀ category path, b.paths.find? (category, path) =
    ss.findIdx? fun s ↦ s.category = category ∧ s.resource = some path

theorem declares_empty : empty.Declares [] where
  nodes_eq := rfl
  edges_eq := rfl
  uses_eq := rfl
  names := ⟨nofun, nofun⟩
  paths _ _ := rfl

theorem Declares.declare (h : b.Declares ss) (s : Symbol) : (b.declare s).Declares (ss ++ [s]) where
  nodes_eq := by simp [GraphBuilder.declare, h.nodes_eq]
  edges_eq := h.edges_eq
  uses_eq := h.uses_eq
  names := by simpa [GraphBuilder.declare, h.nodes_eq] using h.names.enter s
  paths := by
    intro category path
    rw [List.findIdx?_append, ← h.paths]
    cases hresource : s.resource with
    | none => simp [GraphBuilder.declare, hresource]
    | some own =>
      simp only [GraphBuilder.declare, hresource, NodeIndex.find?_enterNew, h.nodes_eq,
        List.length_map, List.findIdx?_cons, List.findIdx?_nil]
      by_cases hkey : s.category = category ∧ own = path
      · obtain ⟨rfl, rfl⟩ := hkey
        simp
      · have hne : (category, path) ≠ (s.category, own) := by
          intro heq
          obtain ⟨rfl, rfl⟩ := Prod.mk.inj heq
          exact hkey ⟨rfl, rfl⟩
        simp [hkey, hne]

theorem Declares.foldl (h : b.Declares ss) (more : List Symbol) :
    (more.foldl GraphBuilder.declare b).Declares (ss ++ more) := by
  induction more generalizing b ss with
  | nil => rwa [List.append_nil]
  | cons s more ih =>
    rw [List.append_cons]
    exact ih (h.declare s)

/-- Symbols with keys of their own are entered in their order. -/
theorem Declares.entries_foldl (h : b.Declares ss) (more : List Symbol)
    (hentries : b.graph.declarations.entries = ss.zipIdx.map fun (s, number) ↦ (s.key, number))
    (hkeys : ((ss ++ more).map Symbol.key).Nodup) :
    (more.foldl GraphBuilder.declare b).graph.declarations.entries =
      (ss ++ more).zipIdx.map fun (s, number) ↦ (s.key, number) := by
  induction more generalizing b ss with
  | nil => rwa [List.append_nil]
  | cons s more ih =>
    rw [List.append_cons] at hkeys ⊢
    refine ih (h.declare s) ?_ hkeys
    have hfree : b.graph.declarations.find? s.key = none := by
      refine NodeIndex.find?_eq_none_iff.2 fun entry hentry hkey ↦ ?_
      obtain ⟨s', hs', hkey'⟩ := h.names.sound entry hentry
      rw [List.map_append, List.map_append, List.append_assoc, List.nodup_append] at hkeys
      exact hkeys.2.2 _ (List.mem_map_of_mem (List.mem_of_getElem? hs')) s.key (by simp)
        (hkey'.trans hkey)
    change (b.graph.declarations.enter s.key b.graph.nodes.length).entries = _
    rw [NodeIndex.enter_of_free hfree, hentries, h.nodes_eq]
    simp [List.zipIdx_append]

/-- A use leads to a symbol that it asks for. -/
theorem Declares.asksFor_target? (h : b.Declares ss) {number : Nat}
    (hu : b.target? u = some number) : ∃ s, ss[number]? = some s ∧ u.asksFor s = true := by
  unfold target? at hu
  cases htarget : u.target with
  | name name =>
    rw [htarget] at hu
    obtain ⟨s, hs, hkey⟩ := h.names.sound _ (NodeIndex.mem_of_find? hu)
    exact ⟨s, hs, (Use.asksFor_iff_of_name htarget).2 hkey⟩
  | path path =>
    rw [htarget] at hu
    dsimp only at hu
    rw [h.paths] at hu
    obtain ⟨hlt, hs, -⟩ := List.findIdx?_eq_some_iff_getElem.1 hu
    exact ⟨ss[number], List.getElem?_eq_getElem hlt,
      (Use.asksFor_iff_of_path htarget).2 (of_decide_eq_true hs)⟩

theorem Declares.isSome_target? (h : b.Declares ss) : (b.target? u).isSome = ss.any u.asksFor := by
  unfold target?
  cases htarget : u.target with
  | name name =>
    dsimp only
    rw [h.names.find?_isSome]
    congr 1
    funext s
    rw [Bool.eq_iff_iff, Use.asksFor_iff_of_name htarget, decide_eq_true_iff]
  | path path =>
    dsimp only
    rw [h.paths, List.findIdx?_isSome]
    congr 1
    funext s
    rw [Bool.eq_iff_iff, Use.asksFor_iff_of_path htarget, decide_eq_true_iff]

/-- Uses become nodes with edges. They enter nothing in the indexes. -/
theorem graph_foldl_refer (b : GraphBuilder) (us : List Use) : (us.foldl refer b).graph =
    { nodes := b.graph.nodes ++ us.map .inr
      edges := b.graph.edges ++ (us.zipIdx b.graph.nodes.length).filterMap fun (u, number) ↦
        (b.target? u).map fun declaration ↦ (number, declaration)
      declarations := b.graph.declarations
      uses := b.graph.uses ++ List.range' b.graph.nodes.length us.length } := by
  induction us generalizing b with
  | nil => simp
  | cons u us ih =>
    have htarget : (b.refer u).target? = b.target? := rfl
    rw [List.foldl_cons, ih, htarget]
    cases hu : b.target? u <;> simp [refer, hu, List.range'_succ]

end GraphBuilder

end MasCheck
