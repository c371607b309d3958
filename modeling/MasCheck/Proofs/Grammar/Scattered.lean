import MasCheck.Proofs.Grammar.Loose
import MasCheck.Proofs.Token.Place

/-!
# Values from scattered tokens

Values are scattered over tokens when each is derived from some tokens next to each other, those of
a later value behind those of an earlier one, with any tokens in between. This is what recovery
leaves of a list of statements.
-/

namespace MasCheck.Production

variable {α β : Type}

inductive Scattered (P : Production α) : List Lexeme → List α → Prop
  | nil (ts : List Lexeme) : Scattered P ts []
  | cons (us : List Lexeme) {vs ws : List Lexeme} {x : α} {xs : List α} (h : P vs x)
      (hxs : Scattered P ws xs) : Scattered P (us ++ vs ++ ws) (x :: xs)

namespace Scattered

variable {P : Production α} {us ts ws : List Lexeme} {x : α} {xs ys : List α}

theorem behind (us : List Lexeme) (h : P.Scattered ts xs) : P.Scattered (us ++ ts) xs := by
  cases h with
  | nil => exact .nil _
  | cons ps h hxs =>
    rw [← List.append_assoc, ← List.append_assoc]
    exact .cons (us ++ ps) h hxs

theorem append (hus : P.Scattered us xs) (hts : P.Scattered ts ys) :
    P.Scattered (us ++ ts) (xs ++ ys) := by
  induction hus with
  | nil us => exact hts.behind us
  | cons ps h _ ih =>
    rw [List.append_assoc]
    exact .cons ps h ih

theorem around (us ws : List Lexeme) (h : P.Scattered ts xs) : P.Scattered (us ++ ts ++ ws) xs := by
  have hall := (h.behind us).append (.nil ws)
  rwa [List.append_nil] at hall

theorem single (h : P ts x) : P.Scattered ts [x] := by
  have hall := Scattered.cons [] h (.nil [])
  rwa [List.nil_append, List.append_nil] at hall

/-- Items that are scattered over parts are scattered over the whole. -/
theorem many {Q : Production β} {items : β → List α}
    (hQ : ∀ ts y, Q ts y → P.Scattered ts (items y)) {ys : List β} (h : Q.many ts ys) :
    P.Scattered ts (ys.flatMap items) := by
  induction h with
  | nil => exact .nil []
  | cons hy _ ih => exact (hQ _ _ hy).append ih

theorem of_statement {v : Option α} (h : P.statement ts v) : P.Scattered ts v.toList := by
  cases h.1 with
  | whole hx => exact .single hx
  | rest hsuffix _ hx _ =>
    obtain ⟨us, rfl⟩ := hsuffix
    exact (single hx).behind us
  | nothing => exact .nil ts

theorem of_statements {vs : List (Option α)} (h : P.statement.many ts vs) :
    P.Scattered ts (vs.filterMap id) := by
  have hall : P.Scattered ts (vs.flatMap Option.toList) := many (fun _ _ hv ↦ of_statement hv) h
  rwa [← List.filterMap_eq_flatMap_toList] at hall

theorem of_many (h : P.many ts xs) : P.Scattered ts xs := by
  have hall : P.Scattered ts (xs.flatMap fun x ↦ [x]) := many (fun _ _ hx ↦ single hx) h
  rwa [List.flatMap_singleton'] at hall

theorem exists_of_mem (h : P.Scattered ts xs) (hx : x ∈ xs) :
    ∃ us vs ws, ts = us ++ vs ++ ws ∧ P vs x := by
  induction h with
  | nil => cases hx
  | @cons us vs ws y ys hy _ ih =>
    rcases List.mem_cons.1 hx with rfl | hx
    · exact ⟨us, vs, ws, rfl, hy⟩
    · obtain ⟨us', vs', ws', rfl, hP⟩ := ih hx
      exact ⟨us ++ vs ++ us', vs', ws', by simp, hP⟩

end Scattered

/-! ## Values with their places -/

variable {P : Production (Located α)} {ts : List Lexeme} {xs : List (Located α)} {x : Located α}

/-- Values keep the place of the tokens that they are derived from. -/
structure KeepsPlace (P : Production (Located α)) : Prop where
  solid : P.Solid
  span_eq : ∀ {ts x}, P ts x → x.span = Lexeme.spanOf ts

theorem Solid.keepsPlace {Q : Production α} (h : Q.located.Solid) : Q.located.KeepsPlace :=
  ⟨h, fun h ↦ h.2⟩

/-- Each value is derived from the tokens in its place, and stands behind the one before. -/
structure DerivedInPlace (P : Production (Located α)) (ts : List Lexeme)
    (xs : List (Located α)) : Prop where
  derived : ∀ x ∈ xs, P (tokensIn x.span ts) x
  ordered : xs.Pairwise fun x y ↦ x.span.stop ≤ y.span.start

theorem KeepsPlace.derives {us vs ws : List Lexeme} (hP : P.KeepsPlace)
    (hordered : InOrder ((us ++ vs ++ ws).map Lexeme.span)) (hx : P vs x) :
    P (tokensIn x.span (us ++ vs ++ ws)) x := by
  rwa [hP.span_eq hx, hordered.tokensIn_spanOf (hP.solid vs x hx)]

theorem Scattered.pairwise (hP : P.KeepsPlace) (h : P.Scattered ts xs)
    (hordered : InOrder (ts.map Lexeme.span)) :
    xs.Pairwise fun x y ↦ x.span.stop ≤ y.span.start := by
  induction h with
  | nil => exact .nil
  | @cons us vs ws x xs hx hxs ih =>
    have hws : InOrder (ws.map Lexeme.span) :=
      hordered.sublist ((List.sublist_append_right _ ws).map _)
    refine .cons (fun y hy ↦ ?_) (ih hws)
    obtain ⟨ps, qs, rs, rfl, hqs⟩ := hxs.exists_of_mem hy
    obtain ⟨l, ls, rfl⟩ := List.exists_cons_of_ne_nil (hP.solid qs y hqs)
    have hbehind := (hordered.spanOf (hP.solid vs x hx)).2.2 l (by simp)
    rw [hP.span_eq hx, hP.span_eq hqs]
    exact hbehind

theorem Scattered.derivedInPlace (hP : P.KeepsPlace) (h : P.Scattered ts xs)
    (hordered : InOrder (ts.map Lexeme.span)) : P.DerivedInPlace ts xs := by
  refine ⟨fun x hx ↦ ?_, h.pairwise hP hordered⟩
  obtain ⟨us, vs, ws, rfl, hvs⟩ := h.exists_of_mem hx
  exact hP.derives hordered hvs

end MasCheck.Production
