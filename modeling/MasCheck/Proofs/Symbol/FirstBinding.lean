import MasCheck.Symbol.Table

/-!
# The first declaration counts

After any number of declarations a table holds, besides what it held before, the symbols of those
items whose key neither the table nor an earlier item had.
-/

namespace MasCheck.SymbolTable

variable {α : Type} {symbol : α → Symbol} {t : SymbolTable} {s : Symbol} {items : List α}

/-- The symbol of an item whose key is that of no earlier item. -/
def IsFirst (symbol : α → Symbol) (items : List α) (s : Symbol) : Prop :=
  ∃ us x vs, items = us ++ x :: vs ∧ symbol x = s ∧ ∀ y ∈ us, (symbol y).key ≠ s.key

theorem find?_eq_none_iff {category : Category} {name : String} :
    t.find? category name = none ↔ ∀ s ∈ t.symbols, s.key ≠ (category, name) := by
  simp [find?]

theorem symbols_declare_of_taken (h : ∃ s' ∈ t.symbols, s'.key = s.key) :
    (t.declare s).symbols = t.symbols := by
  cases hfind : t.find? s.category s.name with
  | some s' => rw [declare_of_some hfind]
  | none =>
    obtain ⟨s', hs', hkey⟩ := h
    exact absurd hkey (find?_eq_none_iff.1 hfind s' hs')

theorem symbols_declare_of_free (h : ∀ s' ∈ t.symbols, s'.key ≠ s.key) :
    (t.declare s).symbols = t.symbols ++ [s] := by
  rw [declare_of_none (find?_eq_none_iff.2 h)]

theorem exists_key_declare {key : Category × String} :
    (∃ s' ∈ (t.declare s).symbols, s'.key = key) ↔
      (∃ s' ∈ t.symbols, s'.key = key) ∨ s.key = key := by
  by_cases htaken : ∃ s' ∈ t.symbols, s'.key = s.key
  · rw [symbols_declare_of_taken htaken]
    constructor
    · exact .inl
    · rintro (h | rfl)
      · exact h
      · exact htaken
  · have hfree : ∀ s' ∈ t.symbols, s'.key ≠ s.key := fun s' hs' hkey ↦ htaken ⟨s', hs', hkey⟩
    rw [symbols_declare_of_free hfree]
    constructor
    · rintro ⟨s', hs', hkey⟩
      rcases List.mem_append.1 hs' with hs' | hs'
      · exact .inl ⟨s', hs', hkey⟩
      · exact .inr (List.mem_singleton.1 hs' ▸ hkey)
    · rintro (⟨s', hs', hkey⟩ | hkey)
      · exact ⟨s', List.mem_append_left _ hs', hkey⟩
      · exact ⟨s, List.mem_append_right _ (List.mem_singleton.2 rfl), hkey⟩

theorem symbols_prefix_declareAll (t : SymbolTable) (symbol : α → Symbol) (items : List α) :
    t.symbols <+: (t.declareAll symbol items).symbols := by
  induction items generalizing t with
  | nil => exact List.prefix_rfl
  | cons x items ih =>
    refine List.IsPrefix.trans ?_ (ih (t.declare (symbol x)))
    unfold declare
    split
    · exact List.prefix_rfl
    · exact List.prefix_append _ _

theorem find?_declare {category : Category} {name : String} :
    (t.declare s).find? category name =
      (t.find? category name).or (if s.key = (category, name) then some s else none) := by
  unfold declare
  cases hfind : t.find? s.category s.name with
  | some first =>
    by_cases hkey : s.key = (category, name)
    · obtain ⟨rfl, rfl⟩ := Prod.mk.inj hkey
      simp [hfind]
    · simp [hkey]
  | none =>
    simp only [find?, List.find?_append]
    by_cases hkey : s.key = (category, name) <;> simp [hkey]

theorem exists_key_declareAll {key : Category × String} :
    (∃ s ∈ (t.declareAll symbol items).symbols, s.key = key) ↔
      (∃ s ∈ t.symbols, s.key = key) ∨ ∃ x ∈ items, (symbol x).key = key := by
  induction items generalizing t with
  | nil => simp [declareAll]
  | cons x items ih =>
    change (∃ s ∈ ((t.declare (symbol x)).declareAll symbol items).symbols, s.key = key) ↔ _
    rw [ih, exists_key_declare, or_assoc]
    simp

theorem isFirst_cons_iff {x : α} :
    IsFirst symbol (x :: items) s ↔
      symbol x = s ∨ ((symbol x).key ≠ s.key ∧ IsFirst symbol items s) := by
  constructor
  · rintro ⟨us, y, vs, heq, rfl, hfirst⟩
    cases us with
    | nil =>
      obtain ⟨rfl, rfl⟩ := List.cons.inj heq
      exact .inl rfl
    | cons u us =>
      obtain ⟨rfl, rfl⟩ := List.cons.inj heq
      refine .inr ⟨hfirst x List.mem_cons_self, us, y, vs, rfl, rfl, ?_⟩
      exact fun z hz ↦ hfirst z (List.mem_cons_of_mem x hz)
  · rintro (rfl | ⟨hne, us, y, vs, rfl, rfl, hfirst⟩)
    · exact ⟨[], x, items, rfl, rfl, nofun⟩
    · refine ⟨x :: us, y, vs, rfl, rfl, ?_⟩
      intro z hz
      rcases List.mem_cons.1 hz with rfl | hz
      · exact hne
      · exact hfirst z hz

theorem mem_symbols_declareAll_iff :
    s ∈ (t.declareAll symbol items).symbols ↔
      s ∈ t.symbols ∨ (IsFirst symbol items s ∧ ∀ s' ∈ t.symbols, s'.key ≠ s.key) := by
  induction items generalizing t with
  | nil => simp [declareAll, IsFirst]
  | cons x items ih =>
    change s ∈ ((t.declare (symbol x)).declareAll symbol items).symbols ↔ _
    rw [ih, isFirst_cons_iff]
    by_cases htaken : ∃ s' ∈ t.symbols, s'.key = (symbol x).key
    · rw [symbols_declare_of_taken htaken]
      obtain ⟨s', hs', hkey⟩ := htaken
      constructor
      · rintro (hs | ⟨hfirst, hfree⟩)
        · exact .inl hs
        · exact .inr ⟨.inr ⟨fun h ↦ hfree s' hs' (hkey.trans h), hfirst⟩, hfree⟩
      · rintro (hs | ⟨rfl | ⟨-, hfirst⟩, hfree⟩)
        · exact .inl hs
        · exact absurd hkey (hfree s' hs')
        · exact .inr ⟨hfirst, hfree⟩
    · have hnone : ∀ s' ∈ t.symbols, s'.key ≠ (symbol x).key :=
        fun s' hs' hkey ↦ htaken ⟨s', hs', hkey⟩
      rw [symbols_declare_of_free hnone]
      simp only [List.mem_append, List.mem_singleton]
      constructor
      · rintro ((hs | rfl) | ⟨hfirst, hfree⟩)
        · exact .inl hs
        · exact .inr ⟨.inl rfl, hnone⟩
        · refine .inr ⟨.inr ⟨hfree _ (.inr rfl), hfirst⟩, ?_⟩
          exact fun s' hs' ↦ hfree s' (.inl hs')
      · rintro (hs | ⟨rfl | ⟨hne, hfirst⟩, hfree⟩)
        · exact .inl (.inl hs)
        · exact .inl (.inr rfl)
        · refine .inr ⟨hfirst, ?_⟩
          rintro s' (hs' | rfl)
          · exact hfree s' hs'
          · exact hne

end MasCheck.SymbolTable
