import MasCheck.Proofs.Lists.Chosen
import MasCheck.Proofs.Symbol.Filling
import MasCheck.Proofs.Symbol.FirstBinding

/-!
# Repeated declarations

A call that declares a symbol is answered by a repetition if the name is taken and its category
minds that. Whatever the calls are that fill a table, each name stays with its first declaration,
later ones change nothing, and the answers count them.
-/

namespace MasCheck

/-- The symbol that a call declares. -/
def TableCall.symbol? : TableCall → Option Symbol
  | .declare s => some s
  | .refer _ => none

/-- The symbols that calls declare, with all repetitions. -/
def declaredBy (calls : List TableCall) : List Symbol :=
  calls.filterMap TableCall.symbol?

@[simp] theorem declaredBy_declare (calls : List TableCall) (s : Symbol) :
    declaredBy (calls ++ [.declare s]) = declaredBy calls ++ [s] :=
  List.filterMap_append

@[simp] theorem declaredBy_refer (calls : List TableCall) (u : Use) :
    declaredBy (calls ++ [.refer u]) = declaredBy calls :=
  List.filterMap_append.trans (List.append_nil _)

def Repetition.key (r : Repetition) : Category × String :=
  (r.category, r.name)

theorem Category.repeatedKind?_eq_none_iff {c : Category} :
    c.repeatedKind? = none ↔ c = .agent := by
  cases c <;> simp [repeatedKind?]

namespace SymbolTable

variable {t : SymbolTable} {s : Symbol}

/-- How a call is answered. -/
def answer? (t : SymbolTable) : TableCall → Option Repetition
  | .declare s => t.repetition? s
  | .refer _ => none

/-- The repetitions that calls are answered by. -/
def answers (t : SymbolTable) : List TableCall → List Repetition
  | [] => []
  | c :: calls => (t.answer? c).toList ++ (t.call c).answers calls

theorem answers_concat (t : SymbolTable) (calls : List TableCall) (c : TableCall) :
    t.answers (calls ++ [c]) = t.answers calls ++ ((calls.foldl call t).answer? c).toList := by
  induction calls generalizing t with
  | nil => simp [answers]
  | cons c' calls ih =>
    rw [List.cons_append, answers, ih, answers, List.foldl_cons, List.append_assoc]

/-! ## Symbols -/

theorem symbols_declare_of_firsts {ss : List Symbol} (h : t.symbols = firsts Symbol.key ss)
    (s : Symbol) : (t.declare s).symbols = firsts Symbol.key (ss ++ [s]) := by
  have hfind : t.find? s.category s.name = ss.find? fun s' ↦ s'.key = s.key := by
    unfold find?
    rw [h, find?_firsts]
    rfl
  rw [firsts_concat, ← h]
  cases hss : ss.find? fun s' ↦ s'.key = s.key with
  | some first =>
    have hlisted : s.key ∈ ss.map Symbol.key :=
      List.mem_map.2 ⟨first, List.mem_of_find?_eq_some hss, by simpa using List.find?_some hss⟩
    rw [declare_of_some (hfind.trans hss), if_pos hlisted, List.append_nil]
  | none =>
    have hnew : s.key ∉ ss.map Symbol.key := by
      simpa using List.find?_eq_none.1 hss
    rw [declare_of_none (hfind.trans hss), if_neg hnew]

theorem symbols_filled (file : String) (reportUnused : Bool) (calls : List TableCall) :
    (filled file reportUnused calls).symbols = firsts Symbol.key (declaredBy calls) := by
  induction calls using List.reverseRecOn with
  | nil => rfl
  | append_singleton calls c ih =>
    unfold filled at ih ⊢
    rw [List.foldl_append]
    cases c with
    | declare s =>
      rw [declaredBy_declare]
      exact symbols_declare_of_firsts ih s
    | refer u =>
      rw [declaredBy_refer]
      exact ih

theorem find?_filled (file : String) (reportUnused : Bool) (calls : List TableCall)
    (category : Category) (name : String) :
    (filled file reportUnused calls).find? category name =
      (declaredBy calls).find? fun s ↦ s.key = (category, name) := by
  unfold find?
  rw [symbols_filled, find?_firsts]

/-! ## Answers -/

/-- A declaration of a taken name is answered about this name, if the category minds. -/
theorem countP_repetition (t : SymbolTable) (s : Symbol) (key : Category × String) :
    (t.repetition? s).toList.countP (fun r ↦ r.key = key) =
      if s.key = key ∧ key.1.repeatedKind?.isSome ∧ (t.find? key.1 key.2).isSome then 1 else 0 := by
  by_cases hkey : s.key = key
  · subst hkey
    have hfind : t.find? s.key.1 s.key.2 = t.find? s.category s.name := rfl
    have hminds : s.key.1.repeatedKind? = s.category.repeatedKind? := rfl
    rw [hfind, hminds]
    cases hfirst : t.find? s.category s.name with
    | none => simp [repetition?_of_none hfirst]
    | some first =>
      rw [repetition?_of_some hfirst]
      cases s.category.repeatedKind? <;> simp [Repetition.key, Symbol.key]
  · rw [if_neg fun h ↦ hkey h.1, List.countP_eq_zero]
    intro r hr
    obtain ⟨first, -, hr⟩ := Option.bind_eq_some_iff.1 (Option.mem_toList.1 hr)
    obtain ⟨kind, -, hr⟩ := Option.bind_eq_some_iff.1 hr
    obtain rfl := Option.some.inj hr
    exact fun h ↦ hkey (of_decide_eq_true h)

/-- Of the declarations of a name all but the first are answered, if the category minds. -/
theorem countP_answers (file : String) (reportUnused : Bool) (calls : List TableCall)
    (key : Category × String) :
    (answers { empty file with reportUnused } calls).countP (fun r ↦ r.key = key) =
      if key.1.repeatedKind?.isSome then (declaredBy calls).countP (fun s ↦ s.key = key) - 1
      else 0 := by
  induction calls using List.reverseRecOn with
  | nil => simp [answers, declaredBy]
  | append_singleton calls c ih =>
    rw [answers_concat, List.countP_append, ih]
    cases c with
    | refer u => simp [answer?]
    | declare s =>
      have hstep := countP_repetition (filled file reportUnused calls) s key
      have htaken : ((filled file reportUnused calls).find? key.1 key.2).isSome ↔
          0 < (declaredBy calls).countP fun s ↦ s.key = key := by
        rw [find?_filled, List.find?_isSome, List.countP_pos_iff]
      rw [declaredBy_declare, List.countP_append]
      refine (congrArg _ hstep).trans ?_
      by_cases hminds : key.1.repeatedKind?.isSome
      · by_cases hkey : s.key = key
        · simp only [hminds, hkey, htaken, List.countP_singleton, decide_true, true_and, if_true]
          split <;> omega
        · simp [hminds, hkey]
      · simp [hminds]

/-! ## Names -/

theorem find?_calls_of_some {category : Category} {name : String} (calls : List TableCall)
    (h : t.find? category name = some s) :
    (calls.foldl call t).find? category name = some s := by
  induction calls generalizing t with
  | nil => exact h
  | cons c calls ih =>
    refine ih ?_
    cases c with
    | declare s' => exact find?_declare.trans (by rw [h, Option.some_or])
    | refer u => exact h

/-- The names of a table that calls have filled, and what one more call does. -/
structure KeepsFirsts (t : SymbolTable) (calls : List TableCall) : Prop where
  /-- A name has the symbol of its first declaration, with its position and its resource. -/
  bound : ∀ category name, t.find? category name =
    (declaredBy calls).find? fun s ↦ s.key = (category, name)
  kept : ∀ (more : List TableCall) category name s, t.find? category name = some s →
    (more.foldl call t).find? category name = some s
  symbols : t.symbols = firsts Symbol.key (declaredBy calls)
  distinct : t.HasDistinctKeys
  used : ∀ u, (t.call (.refer u)).symbols = t.symbols ∧ t.answer? (.refer u) = none
  new : ∀ s, (∀ s' ∈ declaredBy calls, s'.key ≠ s.key) →
    (t.call (.declare s)).symbols = t.symbols ++ [s] ∧ t.answer? (.declare s) = none
  again : ∀ s first, ((declaredBy calls).find? fun s' ↦ s'.key = s.key) = some first →
    t.call (.declare s) = t ∧
      (s.category = .agent → t.answer? (.declare s) = none) ∧
      (s.category ≠ .agent → ∃ kind, s.category.repeatedKind? = some kind ∧
        t.answer? (.declare s) = some
          { kind, category := s.category, name := s.name, first := first.position,
            second := s.position })

theorem keepsFirsts_filled (file : String) (reportUnused : Bool) (calls : List TableCall) :
    (filled file reportUnused calls).KeepsFirsts calls where
  bound := find?_filled file reportUnused calls
  kept more _ _ _ h := find?_calls_of_some more h
  symbols := symbols_filled file reportUnused calls
  distinct := hasDistinctKeys_filled file reportUnused calls
  used _ := ⟨rfl, rfl⟩
  new s hnew := by
    have hnone : (filled file reportUnused calls).find? s.category s.name = none := by
      rw [find?_filled]
      exact List.find?_eq_none.2 fun s' hs' hkey ↦ hnew s' hs' (of_decide_eq_true hkey)
    rw [call_declare, declare_of_none hnone, answer?, repetition?_of_none hnone]
    exact ⟨rfl, rfl⟩
  again s first hfirst := by
    have hsome : (filled file reportUnused calls).find? s.category s.name = some first :=
      (find?_filled ..).trans hfirst
    rw [call_declare, declare_of_some hsome, answer?, repetition?_of_some hsome]
    refine ⟨rfl, fun hagent ↦ ?_, fun hminds ↦ ?_⟩
    · rw [Category.repeatedKind?_eq_none_iff.2 hagent, Option.map_none]
    · obtain ⟨kind, hkind⟩ :=
        Option.ne_none_iff_exists'.1 (Category.repeatedKind?_eq_none_iff.not.2 hminds)
      exact ⟨kind, hkind, by rw [hkind, Option.map_some]⟩

/-- The first declarations are kept, and the answers number the others, of agents none. -/
structure CountsFirsts (file : String) (reportUnused : Bool) (calls : List TableCall) : Prop extends
    (filled file reportUnused calls).KeepsFirsts calls where
  answered : ∀ category name,
    (answers { empty file with reportUnused } calls).countP (fun r ↦ r.key = (category, name)) =
      if category = .agent then 0
      else (declaredBy calls).countP (fun s ↦ s.key = (category, name)) - 1

theorem countsFirsts (file : String) (reportUnused : Bool) (calls : List TableCall) :
    CountsFirsts file reportUnused calls where
  toKeepsFirsts := keepsFirsts_filled file reportUnused calls
  answered category name := by
    rw [countP_answers]
    by_cases hagent : category = .agent
    · rw [if_pos hagent, hagent]
      rfl
    · have hminds : category.repeatedKind?.isSome :=
        Option.isSome_iff_ne_none.2 (Category.repeatedKind?_eq_none_iff.not.2 hagent)
      rw [if_neg hagent, if_pos hminds]

end SymbolTable

end MasCheck
