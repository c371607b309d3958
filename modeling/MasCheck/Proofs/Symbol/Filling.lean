import Mathlib.Data.List.Nodup
import MasCheck.Symbol.Table

/-!
# Filling a table

A table is filled by calls in any order, each of which declares a symbol or records a use. Whatever
the calls are, no two symbols of the table have the same key.
-/

namespace MasCheck

inductive TableCall
  | declare (s : Symbol)
  | refer (u : Use)
  deriving DecidableEq, Repr

namespace SymbolTable

variable {t : SymbolTable} {c : TableCall}

def call (t : SymbolTable) : TableCall → SymbolTable
  | .declare s => t.declare s
  | .refer u => t.refer u

@[simp] theorem call_declare (t : SymbolTable) (s : Symbol) :
    t.call (.declare s) = t.declare s := rfl

@[simp] theorem call_refer (t : SymbolTable) (u : Use) : t.call (.refer u) = t.refer u := rfl

/-- The table after calls on an empty one. -/
def filled (file : String) (reportUnused : Bool) (calls : List TableCall) : SymbolTable :=
  calls.foldl call { empty file with reportUnused }

/-- Nothing is declared twice. -/
def HasDistinctKeys (t : SymbolTable) : Prop :=
  (t.symbols.map Symbol.key).Nodup

theorem HasDistinctKeys.nodup (h : t.HasDistinctKeys) : t.symbols.Nodup :=
  List.Nodup.of_map Symbol.key h

theorem HasDistinctKeys.eq_of_key (h : t.HasDistinctKeys) {s s' : Symbol} (hs : s ∈ t.symbols)
    (hs' : s' ∈ t.symbols) (hkey : s.key = s'.key) : s = s' :=
  List.inj_on_of_nodup_map h hs hs' hkey

theorem HasDistinctKeys.call (h : t.HasDistinctKeys) : (t.call c).HasDistinctKeys := by
  cases c with
  | refer u => exact h
  | declare s =>
    rw [call_declare]
    cases hfind : t.find? s.category s.name with
    | some first =>
      rw [declare_of_some hfind]
      exact h
    | none =>
      rw [declare_of_none hfind]
      have hfree : s.key ∉ t.symbols.map Symbol.key := by
        intro hmem
        obtain ⟨s', hs', hkey⟩ := List.mem_map.1 hmem
        exact List.find?_eq_none.1 hfind s' hs' (decide_eq_true hkey)
      unfold HasDistinctKeys
      rw [List.map_append, List.nodup_append]
      refine ⟨h, by simp, fun key hkey other hother heq ↦ hfree ?_⟩
      rw [List.mem_singleton.1 hother] at heq
      exact heq ▸ hkey

theorem HasDistinctKeys.calls (h : t.HasDistinctKeys) (calls : List TableCall) :
    (calls.foldl SymbolTable.call t).HasDistinctKeys := by
  induction calls generalizing t with
  | nil => exact h
  | cons c calls ih => exact ih h.call

theorem HasDistinctKeys.declareAll (h : t.HasDistinctKeys) {α : Type} (symbol : α → Symbol)
    (items : List α) : (t.declareAll symbol items).HasDistinctKeys := by
  induction items generalizing t with
  | nil => exact h
  | cons x items ih => exact ih (h.call (c := .declare (symbol x)))

theorem hasDistinctKeys_filled (file : String) (reportUnused : Bool) (calls : List TableCall) :
    (filled file reportUnused calls).HasDistinctKeys := by
  have hempty : HasDistinctKeys { empty file with reportUnused } := List.nodup_nil
  exact hempty.calls calls

end SymbolTable

end MasCheck
