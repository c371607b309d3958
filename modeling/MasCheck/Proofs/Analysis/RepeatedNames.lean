import MasCheck.Proofs.Analysis.FindingKinds
import MasCheck.Proofs.Symbol.Repetitions

/-!
# Repeated names in units

The agent files and init keys of a MAS file and the tests of a script are declared one after
another. Each of them is in the table of the unit, or there is a warning that its name is taken.
-/

namespace MasCheck

open Diagnostic (ofKind)

namespace SymbolTable

variable {α : Type} {symbol : α → Symbol} {findings : α → List Diagnostic} {items : List α}
  {category : Category} {kind : Kind}

@[simp] theorem declared_referAll (t : SymbolTable) (us : List Use) :
    (t.referAll us).declared category = t.declared category := rfl

theorem declared_declare_of_ne (t : SymbolTable) {s : Symbol} (hs : s.category ≠ category) :
    (t.declare s).declared category = t.declared category := by
  cases hfind : t.find? s.category s.name with
  | some first => rw [declare_of_some hfind]
  | none => simp [declare_of_none hfind, declared, hs]

theorem declared_declareAll_of_ne (t : SymbolTable)
    (hsymbol : ∀ x ∈ items, (symbol x).category ≠ category) :
    (t.declareAll symbol items).declared category = t.declared category := by
  induction items generalizing t with
  | nil => rfl
  | cons x items ih =>
    obtain ⟨hx, hitems⟩ := List.forall_mem_cons.1 hsymbol
    exact (ih (t.declare (symbol x)) hitems).trans (t.declared_declare_of_ne hx)

/-- A declaration makes a symbol or a warning. -/
theorem length_declare (t : SymbolTable) {s : Symbol}
    (hkind : s.category.repeatedKind? = some kind) :
    (ofKind kind ((t.repetition? s).toList.map Repetition.diagnostic)).length +
      ((t.declare s).declared s.category).length = (t.declared s.category).length + 1 := by
  cases hfind : t.find? s.category s.name with
  | some first =>
    rw [declare_of_some hfind, repetition?_of_some hfind, hkind, Nat.add_comm]
    simp [Repetition.diagnostic, Diagnostic.of, Diagnostic.ofCatalog]
  | none =>
    rw [declare_of_none hfind, repetition?_of_none hfind]
    simp [declared]

theorem length_declareAll (t : SymbolTable) (hkind : category.repeatedKind? = some kind)
    (hsymbol : ∀ x, (symbol x).category = category)
    (hfindings : ∀ x, ofKind kind (findings x) = []) :
    (ofKind kind (t.declarationFindings symbol findings items)).length +
      ((t.declareAll symbol items).declared category).length =
        (t.declared category).length + items.length := by
  induction items generalizing t with
  | nil => exact Nat.zero_add _
  | cons x items ih =>
    obtain rfl := hsymbol x
    have hfirst := t.length_declare hkind
    have hrest := ih (t.declare (symbol x))
    have hdeclare : t.declareAll symbol (x :: items) =
        (t.declare (symbol x)).declareAll symbol items := rfl
    rw [hdeclare, declarationFindings, Diagnostic.ofKind_append, Diagnostic.ofKind_append,
      hfindings, List.nil_append, List.length_append, List.length_cons]
    omega

/-- Where nothing of the category is declared before, all is told by the items. -/
theorem length_declareAll_of_new (t : SymbolTable) (hkind : category.repeatedKind? = some kind)
    (hsymbol : ∀ x, (symbol x).category = category)
    (hfindings : ∀ x, ofKind kind (findings x) = []) (hnew : t.declared category = []) :
    (ofKind kind (t.declarationFindings symbol findings items)).length +
      ((t.declareAll symbol items).declared category).length = items.length := by
  rw [t.length_declareAll hkind hsymbol hfindings, hnew, List.length_nil, Nat.zero_add]

end SymbolTable

namespace Inquiry

variable (q : Inquiry)

theorem length_agentFiles (mas : MasFile) :
    (ofKind .agentFileNameRepeated (q.analyzeMas mas).diagnostics).length +
      ((q.analyzeMas mas).table.declared .agentFile).length = mas.agentFiles.length := by
  have hfindings : ∀ f, ofKind .agentFileNameRepeated (q.agentFileFindings f) = [] := by
    intro f
    rw [agentFileFindings, Diagnostic.ofKind_append,
      (q.areOf_agentPathFindings _).ofKind_eq_nil (by decide),
      (q.areOf_parameterFindings _ _ _).ofKind_eq_nil (by decide), List.append_nil]
  have hnew : (q.emptyTable.declareAll q.initSymbol (initEntries mas)).declared .agentFile = [] :=
    SymbolTable.declared_declareAll_of_ne _ fun _ _ ↦ nofun
  rw [q.ofKind_analyzeMas_of_declaration mas (by decide)]
  exact SymbolTable.length_declareAll_of_new _ rfl (fun _ ↦ rfl) hfindings hnew

theorem ofKind_initKeyRepeated_environmentFindings (table : SymbolTable) (mas : MasFile) :
    ofKind .initKeyRepeated (q.environmentFindings table mas) =
      ofKind .initKeyRepeated
        (table.declarationFindings q.initSymbol (fun _ ↦ []) (initEntries mas)) := by
  unfold environmentFindings initEntries
  cases mas.environment with
  | none => rfl
  | some environment =>
    dsimp only [Option.elim]
    rw [Diagnostic.ofKind_append, Diagnostic.ofKind_append,
      (q.areOf_archiveFindings _).ofKind_eq_nil (by decide), extraFindings, ofKind_map_finding,
      if_neg nofun, List.nil_append, List.append_nil]

theorem length_initKeys (mas : MasFile) :
    (ofKind .initKeyRepeated (q.analyzeMas mas).diagnostics).length +
      ((q.analyzeMas mas).table.declared .initKey).length = (initEntries mas).length := by
  -- the agent files that are declared afterwards are of another category
  have htable : (q.analyzeMas mas).table.declared .initKey =
      (q.emptyTable.declareAll q.initSymbol (initEntries mas)).declared .initKey :=
    SymbolTable.declared_declareAll_of_ne _ fun _ _ ↦ nofun
  rw [q.ofKind_analyzeMas_of_environment mas (by decide), htable,
    ofKind_initKeyRepeated_environmentFindings]
  exact SymbolTable.length_declareAll_of_new _ rfl (fun _ ↦ rfl) (fun _ ↦ rfl) rfl

theorem length_agentTests (mas : Option MasAnalysis) (script : TestScript) :
    (ofKind .agentRepeated (q.analyzeScript mas script).diagnostics).length +
      ((q.analyzeScript mas script).table.declared .agentTest).length = script.tests.length := by
  have hpath : ofKind .agentRepeated (q.masPathFindings script.mas) = [] := by
    unfold masPathFindings
    split <;> rfl
  have htimeout : ofKind .agentRepeated (q.timeoutFindings script.timeout) = [] := by
    unfold timeoutFindings
    split
    · rfl
    · split <;> rfl
  have hnew : (q.agentTable (mas.filter fun a ↦ !a.hasWildcard)).declared .agentTest = [] := by
    refine SymbolTable.declared_declareAll_of_ne _ fun s hs ↦ ?_
    cases hchecked : mas.filter fun a ↦ !a.hasWildcard with
    | none =>
      rw [hchecked] at hs
      cases hs
    | some a =>
      rw [hchecked] at hs
      obtain ⟨name, -, rfl⟩ := List.mem_map.1 hs
      nofun
  unfold analyzeScript
  dsimp only
  rw [SymbolTable.declared_referAll, Diagnostic.ofKind_append, Diagnostic.ofKind_append,
    Diagnostic.ofKind_append, hpath, htimeout,
    SymbolTable.areOf_findings.ofKind_eq_nil (by decide), List.nil_append, List.nil_append,
    List.append_nil]
  exact SymbolTable.length_declareAll_of_new _ rfl (fun _ ↦ rfl) (fun _ ↦ rfl) hnew

/-- A unit has a symbol or a warning for each of its declarations. -/
structure AccountsForNames : Prop where
  agentFiles : ∀ mas,
    (ofKind .agentFileNameRepeated (q.analyzeMas mas).diagnostics).length +
      ((q.analyzeMas mas).table.declared .agentFile).length = mas.agentFiles.length
  initKeys : ∀ mas,
    (ofKind .initKeyRepeated (q.analyzeMas mas).diagnostics).length +
      ((q.analyzeMas mas).table.declared .initKey).length = (initEntries mas).length
  agentTests : ∀ mas script,
    (ofKind .agentRepeated (q.analyzeScript mas script).diagnostics).length +
      ((q.analyzeScript mas script).table.declared .agentTest).length = script.tests.length

theorem accountsForNames : q.AccountsForNames :=
  ⟨q.length_agentFiles, q.length_initKeys, q.length_agentTests⟩

end Inquiry

/-- However a table is filled, each name stays with its first declaration and the others are
answered, and in every unit the warnings and the symbols account for all declarations. -/
theorem first_declarations_stay :
    (∀ file reportUnused calls, SymbolTable.CountsFirsts file reportUnused calls) ∧
      ∀ q : Inquiry, q.AccountsForNames :=
  ⟨SymbolTable.countsFirsts, Inquiry.accountsForNames⟩

end MasCheck
