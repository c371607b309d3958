import Mathlib.Data.List.Nodup
import Mathlib.Data.List.Perm.Basic

/-!
# Lists that are cut, filtered and counted

These facts are about any list. They are kept apart from the tokens, symbols and findings that they
are used for.
-/

namespace MasCheck

variable {α β γ σ : Type}

/-! ## Cutting and joining -/

/-- A front part of a joined list ends in its first half, or goes on into the second one. -/
theorem prefix_append_iff {ps us vs : List α} :
    ps <+: us ++ vs ↔ ps <+: us ∨ ∃ qs, qs <+: vs ∧ us ++ qs = ps := by
  constructor
  · intro h
    rcases List.prefix_or_prefix_of_prefix h (List.prefix_append us vs) with hps | ⟨qs, rfl⟩
    · exact .inl hps
    · exact .inr ⟨qs, (List.prefix_append_right_inj us).1 h, rfl⟩
  · rintro (hps | ⟨qs, hqs, rfl⟩)
    · exact hps.trans (List.prefix_append us vs)
    · exact (List.prefix_append_right_inj us).2 hqs

theorem intercalate_eq_flatMap (separator : α) (xs : List α) (xss : List (List α)) :
    [separator].intercalate (xs :: xss) = xs ++ xss.flatMap fun ys ↦ separator :: ys := by
  induction xss generalizing xs with
  | nil => simp
  | cons ys xss ih =>
    rw [List.intercalate_cons_cons, ih, List.flatMap_cons]
    simp

/-! ## Filtering -/

theorem findSome?_eq_map {f : α → Option γ} {g : α → Option β} {m : β → γ} {xs : List α}
    (h : ∀ x ∈ xs, f x = (g x).map m) : xs.findSome? f = (xs.findSome? g).map m := by
  induction xs with
  | nil => rfl
  | cons x xs ih =>
    obtain ⟨hx, hxs⟩ := List.forall_mem_cons.1 h
    rw [List.findSome?_cons, List.findSome?_cons, hx]
    cases g x with
    | none => exact ih hxs
    | some y => rfl

theorem flatMap_ite (p : α → Bool) (f : α → List β) (xs : List α) :
    (xs.flatMap fun x ↦ if p x then f x else []) = (xs.filter p).flatMap f := by
  induction xs with
  | nil => rfl
  | cons x xs ih =>
    rw [List.flatMap_cons, ih, List.filter_cons]
    split <;> simp

/-- What is kept of a numbered list may depend on the items alone. -/
theorem filterMap_zipIdx {f : α × Nat → Option α} {keep : α → Bool} {xs : List α} {first : Nat}
    (h : ∀ node ∈ xs.zipIdx first, f node = if keep node.1 then some node.1 else none) :
    (xs.zipIdx first).filterMap f = xs.filter keep := by
  induction xs generalizing first with
  | nil => rfl
  | cons x xs ih =>
    obtain ⟨hx, hxs⟩ := List.forall_mem_cons.1 h
    rw [List.zipIdx_cons, List.filterMap_cons, List.filter_cons, hx, ih hxs]
    cases keep x <;> rfl

/-- Values of one partial function, sorted by a list that has them all. -/
theorem filter_perm_flatMap [DecidableEq β] (f : α → Option β) (xs : List α) {ys : List β}
    (hys : ys.Nodup) :
    (xs.filter fun x ↦ ys.any fun y ↦ f x = some y).Perm
      (ys.flatMap fun y ↦ xs.filter fun x ↦ f x = some y) := by
  induction ys with
  | nil => simp
  | cons y ys ih =>
    obtain ⟨hy, hys⟩ := List.nodup_cons.1 hys
    rw [List.flatMap_cons]
    refine (List.filter_append_perm (fun x ↦ f x = some y) _).symm.trans ?_
    rw [List.filter_filter, List.filter_filter]
    refine List.Perm.append (.of_eq (List.filter_congr fun x _ ↦ ?_))
      ((List.Perm.of_eq (List.filter_congr fun x _ ↦ ?_)).trans (ih hys))
    · by_cases hx : f x = some y <;> simp [hx]
    · by_cases hx : f x = some y
      · simpa [hx] using fun (y' : β) (hy' : y' ∈ ys) (heq : y = y') ↦ hy (heq ▸ hy')
      · simp [hx]

/-! ## Folding -/

/-- A fold may count the items that it takes. -/
theorem foldl_counted (receive : σ → α → σ) (xs : List α) (receiver : σ) (count : Nat) :
    xs.foldl (fun state x ↦ (receive state.1 x, state.2 + 1)) (receiver, count) =
      (xs.foldl receive receiver, count + xs.length) := by
  induction xs generalizing receiver count with
  | nil => rfl
  | cons x xs ih =>
    rw [List.foldl_cons, ih, List.foldl_cons, List.length_cons, Nat.add_right_comm, Nat.add_assoc]

end MasCheck
