import MasCheck.Analysis.Mas
import MasCheck.Proofs.Symbol.FirstBinding
import MasCheck.Proofs.Symbol.Resolution

/-!
# What a launch instruction can name

The table of a MAS file knows of an agent file only if it is the first one with its name. A target
by name is looked for among all names, which loses nothing; a target by path is looked for among
the paths of the agent files that the table knows of.
-/

namespace MasCheck

/-- An entry has the name; or an entry has the path, and none before it has its name. -/
def MasFile.Declares (mas : MasFile) : Target → Prop
  | .name name => ∃ f ∈ mas.agentFiles, f.node.referenceName.node = name
  | .path path => ∃ us f vs, mas.agentFiles = us ++ f :: vs ∧ f.node.path.node = path ∧
      ∀ g ∈ us, g.node.referenceName.node ≠ f.node.referenceName.node

namespace Inquiry

open SymbolTable (IsFirst)

variable (q : Inquiry) {mas : MasFile} {s : Symbol}

def initTable (mas : MasFile) : SymbolTable :=
  { SymbolTable.empty q.map.file with reportUnused := q.options.reportUnused }.declareAll
    q.initSymbol (initEntries mas)

theorem symbols_masTable (mas : MasFile) : (q.masTable mas).symbols =
    ((q.initTable mas).declareAll q.agentFileSymbol mas.agentFiles).symbols := rfl

theorem category_of_mem_initTable (hs : s ∈ (q.initTable mas).symbols) : s.category = .initKey := by
  rcases SymbolTable.mem_symbols_declareAll_iff.1 hs with hs | ⟨hfirst, -⟩
  · exact absurd hs List.not_mem_nil
  · obtain ⟨us, entry, vs, -, rfl, -⟩ := hfirst
    rfl

/-- Keys of the initialization do not get in the way of agent files. -/
theorem mem_masTable_iff (hs : s.category = .agentFile) :
    s ∈ (q.masTable mas).symbols ↔ IsFirst q.agentFileSymbol mas.agentFiles s := by
  rw [symbols_masTable, SymbolTable.mem_symbols_declareAll_iff]
  constructor
  · rintro (hmem | ⟨hfirst, -⟩)
    · cases hs.symm.trans (q.category_of_mem_initTable hmem)
    · exact hfirst
  · intro hfirst
    refine .inr ⟨hfirst, ?_⟩
    intro s' hs' hkey
    have hcategory : s'.category = s.category := congrArg Prod.fst hkey
    cases (hcategory.trans hs).symm.trans (q.category_of_mem_initTable hs')

theorem exists_named_iff {name : String} :
    (∃ s ∈ (q.masTable mas).symbols, s.key = (.agentFile, name)) ↔
      ∃ f ∈ mas.agentFiles, f.node.referenceName.node = name := by
  rw [symbols_masTable, SymbolTable.exists_key_declareAll]
  have hinit : ¬ ∃ s ∈ (q.initTable mas).symbols, s.key = (.agentFile, name) := by
    rintro ⟨s, hs, hkey⟩
    have hcategory : s.category = .agentFile := congrArg Prod.fst hkey
    cases hcategory.symm.trans (q.category_of_mem_initTable hs)
  rw [or_iff_right hinit]
  simp [agentFileSymbol, Symbol.key]

theorem resolves_launchUse_iff (c : LaunchComponent) :
    (q.masTable mas).resolves (q.launchUse c) = true ↔ mas.Declares c.target.node := by
  rw [SymbolTable.resolves_iff]
  cases htarget : c.target.node with
  | name name =>
    rw [MasFile.Declares, ← exists_named_iff q]
    constructor
    · rintro ⟨s, hs, hasks⟩
      simp [Use.asksFor, launchUse, htarget] at hasks
      exact ⟨s, hs, by rw [Symbol.key, ← hasks.1, hasks.2]⟩
    · rintro ⟨s, hs, hkey⟩
      obtain ⟨hcategory, hname⟩ := Prod.mk.inj hkey
      exact ⟨s, hs, by simp [Use.asksFor, launchUse, htarget, hcategory, hname]⟩
  | path path =>
    constructor
    · rintro ⟨s, hs, hasks⟩
      simp [Use.asksFor, launchUse, htarget] at hasks
      obtain ⟨us, f, vs, hfiles, rfl, hfirst⟩ := (q.mem_masTable_iff hasks.1.symm).1 hs
      refine ⟨us, f, vs, hfiles, Option.some.inj hasks.2, ?_⟩
      intro g hg hname
      exact hfirst g hg (by simp [agentFileSymbol, Symbol.key, hname])
    · rintro ⟨us, f, vs, hfiles, rfl, hfirst⟩
      refine ⟨q.agentFileSymbol f, ?_, by simp [Use.asksFor, launchUse, htarget, agentFileSymbol]⟩
      refine (q.mem_masTable_iff rfl).2 ⟨us, f, vs, hfiles, rfl, ?_⟩
      intro g hg hkey
      exact hfirst g hg (congrArg Prod.snd hkey)

theorem uses_declareAll {α : Type} (symbol : α → Symbol) (t : SymbolTable) (items : List α) :
    (t.declareAll symbol items).uses = t.uses := by
  induction items generalizing t with
  | nil => rfl
  | cons x items ih => exact (ih _).trans (SymbolTable.declare_uses t (symbol x))

theorem reportUnused_declareAll {α : Type} (symbol : α → Symbol) (t : SymbolTable)
    (items : List α) : (t.declareAll symbol items).reportUnused = t.reportUnused := by
  induction items generalizing t with
  | nil => rfl
  | cons x items ih => exact (ih _).trans (SymbolTable.declare_reportUnused t (symbol x))

theorem uses_masTable (mas : MasFile) :
    (q.masTable mas).uses = mas.components.map q.launchUse := by
  change ((q.initTable mas).declareAll q.agentFileSymbol mas.agentFiles).uses ++ _ = _
  rw [uses_declareAll, initTable, uses_declareAll]
  rfl

end Inquiry

end MasCheck
