import Mathlib.Data.List.Basic
import Mathlib.Data.List.Induction
import Mathlib.Data.List.Nodup

/-!
# Items chosen by what stands before them

Whether an item of a list is chosen may depend on all the items before it. In this way the
repetitions in a list are found, and the items that stand for their key because no item before them
has it.
-/

namespace MasCheck

variable {α κ : Type}

/-! ## Choosing -/

/-- The items that satisfy a condition together with the list of all items before them. -/
def chosen (p : List α → α → Bool) (xs : List α) : List α :=
  (xs.zipIdx.filter fun x ↦ p (xs.take x.2) x.1).map Prod.fst

@[simp] theorem chosen_nil (p : List α → α → Bool) : chosen p [] = [] := rfl

theorem chosen_cons (p : List α → α → Bool) (x : α) (xs : List α) :
    chosen p (x :: xs) =
      (if p [] x then [x] else []) ++ chosen (fun before ↦ p (x :: before)) xs := by
  unfold chosen
  rw [List.zipIdx_cons', List.filter_cons, List.filter_map]
  cases h : p [] x <;> simp [h, Function.comp_def]

theorem chosen_concat (p : List α → α → Bool) (xs : List α) (x : α) :
    chosen p (xs ++ [x]) = chosen p xs ++ if p xs x then [x] else [] := by
  have hbefore : (xs.zipIdx.filter fun y ↦ p ((xs ++ [x]).take y.2) y.1) =
      xs.zipIdx.filter fun y ↦ p (xs.take y.2) y.1 := by
    refine List.filter_congr fun y hy ↦ ?_
    rw [List.take_append_of_le_length (Nat.le_of_lt (List.snd_lt_of_mem_zipIdx hy))]
  unfold chosen
  rw [List.zipIdx_append, List.filter_append, List.map_append, hbefore]
  cases h : p xs x <;> simp [h]

theorem prefix_chosen (p : List α → α → Bool) (xs ys : List α) :
    chosen p xs <+: chosen p (xs ++ ys) := by
  induction ys using List.reverseRecOn with
  | nil => simp
  | append_singleton ys y ih =>
    rw [← List.append_assoc, chosen_concat]
    exact ih.trans (List.prefix_append _ _)

/-! ## Repetitions -/

section

variable [DecidableEq κ] (key : α → κ)

/-- The items whose key is the key of an item before them. -/
def repeats (xs : List α) : List α :=
  chosen (fun before x ↦ key x ∈ before.map key) xs

/-- The items whose key is listed, or is the key of an item before them. -/
def repeatsAfter (seen : List κ) (xs : List α) : List α :=
  chosen (fun before x ↦ key x ∈ seen ∨ key x ∈ before.map key) xs

@[simp] theorem repeatsAfter_nil (seen : List κ) : repeatsAfter key seen [] = [] := rfl

theorem repeatsAfter_cons (seen : List κ) (x : α) (xs : List α) :
    repeatsAfter key seen (x :: xs) =
      (if key x ∈ seen then [x] else []) ++ repeatsAfter key (key x :: seen) xs := by
  have hlisted : ∀ (before : List α) (y : α),
      (key y ∈ seen ∨ key y ∈ (x :: before).map key) ↔
        key y ∈ key x :: seen ∨ key y ∈ before.map key := by
    intro before y
    rw [List.map_cons, List.mem_cons, List.mem_cons]
    tauto
  unfold repeatsAfter
  rw [chosen_cons]
  simp only [hlisted]
  simp

theorem repeatsAfter_congr {seen seen' : List κ} {xs : List α}
    (h : ∀ k, k ∈ seen ↔ k ∈ seen') : repeatsAfter key seen xs = repeatsAfter key seen' xs := by
  simp only [repeatsAfter, h]

theorem repeatsAfter_empty (xs : List α) : repeatsAfter key [] xs = repeats key xs := by
  simp [repeatsAfter, repeats]

end

/-! ## First items -/

/-- Every item once, where it first occurs. -/
def firstOccurrences [DecidableEq α] (xs : List α) : List α :=
  chosen (fun before x ↦ x ∉ before) xs

theorem eraseDups_eq_firstOccurrences [DecidableEq α] (xs : List α) :
    xs.eraseDups = firstOccurrences xs := by
  induction xs using List.reverseRecOn with
  | nil => rfl
  | append_singleton xs x ih =>
    unfold firstOccurrences at ih ⊢
    rw [List.eraseDups_append, ih, chosen_concat]
    by_cases hx : x ∈ xs <;> simp [List.removeAll, hx, List.eraseDups_cons]

theorem nodup_eraseDups [DecidableEq α] : ∀ xs : List α, xs.eraseDups.Nodup
  | [] => List.nodup_nil
  | x :: xs => by
    have hothers : x ∉ (xs.filter fun y ↦ !y == x).eraseDups := by
      rw [List.mem_eraseDups, List.mem_filter]
      rintro ⟨-, hne⟩
      simp at hne
    rw [List.eraseDups_cons]
    exact List.nodup_cons.2 ⟨hothers, nodup_eraseDups _⟩
termination_by xs => xs.length
decreasing_by exact Nat.lt_succ_of_le (List.length_filter_le _ _)

section

variable [DecidableEq κ] (key? : α → Option κ)

/-- The items without a key, and of the items with the same key the first. -/
def leading (xs : List α) : List α :=
  chosen (fun before x ↦ ∀ k ∈ key? x, k ∉ before.filterMap key?) xs

theorem leading_concat (xs : List α) (x : α) :
    leading key? (xs ++ [x]) =
      leading key? xs ++ if ∀ k ∈ key? x, k ∉ xs.filterMap key? then [x] else [] := by
  unfold leading
  rw [chosen_concat]
  simp only [decide_eq_true_eq]

theorem prefix_leading (xs ys : List α) : leading key? xs <+: leading key? (xs ++ ys) :=
  prefix_chosen _ xs ys

variable {key?}

theorem find?_key_eq_none_iff {k : κ} {xs : List α} :
    (xs.find? fun x ↦ key? x = some k) = none ↔ k ∉ xs.filterMap key? := by
  simp [List.find?_eq_none]

theorem filter_leading (k : κ) (xs : List α) :
    ((leading key? xs).filter fun x ↦ key? x = some k) =
      (xs.find? fun x ↦ key? x = some k).toList := by
  induction xs using List.reverseRecOn with
  | nil => rfl
  | append_singleton xs x ih =>
    rw [leading_concat, List.filter_append, ih, List.find?_append]
    by_cases hkey : key? x = some k
    · cases hfind : xs.find? fun x ↦ key? x = some k with
      | none =>
        have hfree : ∀ k' ∈ key? x, k' ∉ xs.filterMap key? := by
          intro k' hk'
          obtain rfl := Option.some.inj (hkey.symm.trans hk')
          exact find?_key_eq_none_iff.1 hfind
        rw [if_pos hfree]
        simp [hkey]
      | some y =>
        have hlisted : k ∈ xs.filterMap key? := by
          by_contra hfree
          cases (find?_key_eq_none_iff.2 hfree).symm.trans hfind
        simp [hkey, List.mem_filterMap.1 hlisted]
    · split <;> simp [hkey]

theorem find?_leading (k : κ) (xs : List α) :
    ((leading key? xs).find? fun x ↦ key? x = some k) = xs.find? fun x ↦ key? x = some k := by
  rw [← List.head?_filter, filter_leading, Option.head?_toList]

theorem filter_leading_of_keyless {p : α → Bool} (hp : ∀ x, p x → key? x = none) (xs : List α) :
    (leading key? xs).filter p = xs.filter p := by
  induction xs using List.reverseRecOn with
  | nil => rfl
  | append_singleton xs x ih =>
    rw [leading_concat, List.filter_append, List.filter_append, ih]
    cases hx : p x with
    | true => simp [hp x hx]
    | false => split <;> simp [hx]

/-- A condition that is about keys may be put to the items first. -/
theorem filter_leading_eq {p : α → Bool} (hp : ∀ x y, key? x = key? y → p x = p y)
    (xs : List α) : (leading key? xs).filter p = leading key? (xs.filter p) := by
  induction xs using List.reverseRecOn with
  | nil => rfl
  | append_singleton xs x ih =>
    rw [leading_concat, List.filter_append, List.filter_append, ih]
    cases hx : p x with
    | false => split <;> simp [hx]
    | true =>
      have hfree : (∀ k ∈ key? x, k ∉ xs.filterMap key?) ↔
          ∀ k ∈ key? x, k ∉ (xs.filter p).filterMap key? := by
        refine forall₂_congr fun k hk ↦ not_congr ?_
        rw [List.mem_filterMap, List.mem_filterMap]
        refine exists_congr fun y ↦ and_congr_left fun hy ↦ ?_
        have hpy : p y := by
          rw [← hp x y (hk.trans hy.symm), hx]
        rw [List.mem_filter, and_iff_left hpy]
      have hkept : [x].filter p = [x] := by simp [hx]
      rw [hkept, leading_concat]
      by_cases h : ∀ k ∈ key? x, k ∉ xs.filterMap key?
      · rw [if_pos h, if_pos (hfree.1 h), hkept]
      · rw [if_neg h, if_neg (hfree.not.1 h), List.filter_nil]

end

section

variable [DecidableEq κ] (key : α → κ)

/-- Of the items with the same key the first. -/
def firsts (xs : List α) : List α :=
  leading (fun x ↦ some (key x)) xs

theorem firsts_concat (xs : List α) (x : α) :
    firsts key (xs ++ [x]) = firsts key xs ++ if key x ∈ xs.map key then [] else [x] := by
  have hnew : (∀ k ∈ some (key x), k ∉ xs.filterMap fun y ↦ some (key y)) ↔
      key x ∉ xs.map key := by
    simp
  unfold firsts
  rw [leading_concat]
  by_cases h : key x ∈ xs.map key
  · rw [if_pos h, if_neg fun hfree ↦ hnew.1 hfree h]
  · rw [if_neg h, if_pos (hnew.2 h)]

theorem find?_firsts (k : κ) (xs : List α) :
    ((firsts key xs).find? fun x ↦ key x = k) = xs.find? fun x ↦ key x = k := by
  have hleading := @find?_leading α κ _ (fun x ↦ some (key x)) k xs
  simpa only [firsts, Option.some_inj] using hleading

end

end MasCheck
