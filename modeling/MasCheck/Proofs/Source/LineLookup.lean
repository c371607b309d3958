import Mathlib.Data.List.DropRight
import MasCheck.Proofs.Text.Slices
import MasCheck.Source.Map

/-!
# Looking up lines

A search among numbers in order ends at the last one that is not above the number sought. Of the
line starts of a source those up to an offset belong to the characters that begin before it, so that
a line is always found, it begins at or before the offset, and its number counts newlines.
-/

namespace MasCheck

namespace Search

variable {below above : List Nat} {x base size : Nat}

theorem any_getElem?_append (hbelow : ∀ y ∈ below, y ≤ x) (habove : ∀ y ∈ above, x < y)
    (i : Nat) : (below ++ above)[i]?.any (· ≤ x) = decide (i < below.length) := by
  by_cases hi : i < below.length
  · have hle : below[i] ≤ x := hbelow _ (List.getElem_mem hi)
    rw [List.getElem?_append_left hi, List.getElem?_eq_getElem hi]
    simp [hi, hle]
  · rw [List.getElem?_append_right (Nat.le_of_not_lt hi), decide_eq_false hi, Option.any_eq_false]
    intro y hy
    have hlt := habove y (List.mem_of_getElem? hy)
    simpa using hlt

theorem narrow_append (hbelow : ∀ y ∈ below, y ≤ x) (habove : ∀ y ∈ above, x < y)
    (hbase : base ≤ below.length - 1) (hsize : below.length ≤ base + size) :
    narrow (below ++ above) x base size = below.length - 1 := by
  fun_induction narrow (below ++ above) x base size with
  | case1 base size hmore half hleft ih =>
    rw [any_getElem?_append hbelow habove, decide_eq_true_eq] at hleft
    exact ih (by omega) (by omega)
  | case2 base size hmore half hright ih =>
    rw [any_getElem?_append hbelow habove, decide_eq_true_eq] at hright
    exact ih hbase (by omega)
  | case3 base size hone => omega

/-- The number sought is the last of those that are not above it, or it belongs behind them. -/
theorem among_append (hbelow : ∀ y ∈ below, y ≤ x) (habove : ∀ y ∈ above, x < y) :
    among (below ++ above) x =
      if below.getLast? = some x then found (below.length - 1) else missing below.length := by
  have hplace : narrow (below ++ above) x 0 (below ++ above).length = below.length - 1 :=
    narrow_append hbelow habove (Nat.zero_le _) (by simp)
  unfold among
  rw [hplace]
  rcases List.eq_nil_or_concat below with rfl | ⟨others, last, rfl⟩
  · cases above with
    | nil => rfl
    | cons y above =>
      have hlt : x < y := habove y List.mem_cons_self
      simp [hlt.ne', hlt.le]
  · have hle : last ≤ x := hbelow last (by simp)
    rcases hle.eq_or_lt with rfl | hlt
    · simp
    · simp [hlt.ne, hlt]

end Search

namespace Text

/-- The characters of a text that begin before a byte offset. -/
def charsBefore : (offset : Nat) → List Char → List Char
  | 0, _ => []
  | _ + 1, [] => []
  | n + 1, c :: cs => c :: charsBefore (n + 1 - c.utf8Size) cs

theorem charsBefore_append (front back : List Char) :
    charsBefore (byteLength front) (front ++ back) = front := by
  induction front with
  | nil => exact charsBefore.eq_1 back
  | cons c front ih =>
    have hsize := Char.utf8Size_pos c
    obtain ⟨n, hn⟩ : ∃ n, byteLength (c :: front) = n + 1 :=
      Nat.exists_eq_add_one.2 (by rw [byteLength_cons]; omega)
    have hrest : n + 1 - c.utf8Size = byteLength front := by
      rw [← hn, byteLength_cons]
      omega
    rw [hn, List.cons_append, charsBefore, hrest, ih]

theorem charsBefore_of_le {offset : Nat} {cs : List Char} (h : byteLength cs ≤ offset) :
    charsBefore offset cs = cs := by
  fun_induction charsBefore offset cs with
  | case1 cs => exact (eq_nil_of_byteLength_eq_zero (Nat.le_zero.1 h)).symm
  | case2 => rfl
  | case3 n c cs ih =>
    rw [byteLength_cons] at h
    rw [ih (by omega)]

theorem exists_eq_charsBefore_append {offset : Nat} {cs : List Char}
    (h : offset ≤ byteLength cs) :
    ∃ back, cs = charsBefore offset cs ++ back ∧ offset ≤ byteLength (charsBefore offset cs) := by
  fun_induction charsBefore offset cs with
  | case1 cs => exact ⟨cs, rfl, Nat.zero_le _⟩
  | case2 n => exact absurd h (Nat.not_succ_le_zero n)
  | case3 n c cs ih =>
    rw [byteLength_cons] at h ⊢
    obtain ⟨back, hcs, hle⟩ := ih (by omega)
    exact ⟨back, congrArg (c :: ·) hcs, by omega⟩

theorem byteLength_lt_of_charsBefore {offset : Nat} {cs us vs : List Char} {c : Char}
    (h : charsBefore offset cs = us ++ c :: vs) : byteLength us < offset := by
  fun_induction charsBefore offset cs generalizing us with
  | case1 => simp at h
  | case2 => simp at h
  | case3 n d cs ih =>
    cases us with
    | nil => exact Nat.succ_pos n
    | cons u us =>
      obtain ⟨rfl, htail⟩ := List.cons.inj h
      have hlt := ih htail
      rw [byteLength_cons]
      omega

end Text

namespace SourceMap

variable {m : SourceMap} {front back cs : List Char} {here offset : Nat}

/-! ## Line starts -/

theorem behindNewlines_append (here : Nat) (front back : List Char) :
    behindNewlines here (front ++ back) =
      behindNewlines here front ++ behindNewlines (here + Text.byteLength front) back := by
  induction front generalizing here with
  | nil => rfl
  | cons c front ih =>
    rw [List.cons_append, behindNewlines, behindNewlines, ih, Text.byteLength_cons, ← Nat.add_assoc]
    split <;> rfl

theorem length_behindNewlines (here : Nat) (cs : List Char) :
    (behindNewlines here cs).length = cs.count '\n' := by
  induction cs generalizing here with
  | nil => rfl
  | cons c cs ih =>
    rw [behindNewlines]
    by_cases hc : c = '\n' <;> simp [hc, ih]

theorem exists_of_mem_behindNewlines {start : Nat} (h : start ∈ behindNewlines here cs) :
    ∃ us vs, cs = us ++ '\n' :: vs ∧ start = here + Text.byteLength us + 1 := by
  induction cs generalizing here with
  | nil => cases h
  | cons c cs ih =>
    have hlater : start ∈ behindNewlines (here + c.utf8Size) cs →
        ∃ us vs, c :: cs = us ++ '\n' :: vs ∧ start = here + Text.byteLength us + 1 := by
      intro h
      obtain ⟨us, vs, rfl, rfl⟩ := ih h
      exact ⟨c :: us, vs, rfl, by rw [Text.byteLength_cons, Nat.add_assoc here]⟩
    rw [behindNewlines] at h
    split at h
    · next hc =>
      subst hc
      rcases List.mem_cons.1 h with rfl | h
      · exact ⟨[], cs, rfl, rfl⟩
      · exact hlater h
    · exact hlater h

/-- The byte at which the last line of a text begins. -/
def lastStart (cs : List Char) : Nat :=
  Text.byteLength (cs.rdropWhile (· ≠ '\n'))

theorem getLast?_lineStarts (cs : List Char) :
    (0 :: behindNewlines 0 cs).getLast? = some (lastStart cs) := by
  induction cs using List.reverseRecOn with
  | nil => rfl
  | append_singleton cs c ih =>
    rw [behindNewlines_append, ← List.cons_append]
    by_cases hc : c = '\n'
    · subst hc
      rw [lastStart, List.rdropWhile_concat_neg _ _ _ (by simp), Text.byteLength_append,
        Nat.zero_add]
      exact List.getLast?_concat
    · have hnone : behindNewlines (0 + Text.byteLength cs) [c] = [] := if_neg hc
      rw [lastStart, List.rdropWhile_concat_pos _ _ _ (by simpa using hc), hnone, List.append_nil]
      exact ih

/-! ## Lookups -/

theorem lineColumn?_min (m : SourceMap) (offset : Nat) :
    m.lineColumn? (min offset (Text.byteLength m.source)) = m.lineColumn? offset := by
  unfold lineColumn?
  rw [Nat.min_assoc, Nat.min_self]

section

variable (htext : m.source = front ++ back) (hoffset : offset ≤ Text.byteLength front)
  (hfront : ∀ us c vs, front = us ++ c :: vs → Text.byteLength us < offset)

include hfront in
theorem le_of_mem_lineStarts : ∀ start ∈ 0 :: behindNewlines 0 front, start ≤ offset := by
  intro start hstart
  rcases List.mem_cons.1 hstart with rfl | hstart
  · exact Nat.zero_le _
  · obtain ⟨us, vs, hcs, rfl⟩ := exists_of_mem_behindNewlines hstart
    have hlt := hfront us '\n' vs hcs
    omega

include htext

theorem lineStarts_eq : m.lineStarts =
    (0 :: behindNewlines 0 front) ++ behindNewlines (Text.byteLength front) back := by
  rw [lineStarts, htext, behindNewlines_append, Nat.zero_add, List.cons_append]

include hoffset hfront

/-- The line of an offset is the last of those that begin with or in front of it. -/
theorem lineOf?_eq : m.lineOf? offset = some (front.count '\n') := by
  have habove : ∀ start ∈ behindNewlines (Text.byteLength front) back, offset < start := by
    intro start hstart
    obtain ⟨us, vs, -, rfl⟩ := exists_of_mem_behindNewlines hstart
    omega
  unfold lineOf?
  rw [lineStarts_eq htext, Search.among_append (le_of_mem_lineStarts hfront) habove,
    List.length_cons, length_behindNewlines]
  split
  · next heq =>
    split at heq
    · exact congrArg some (Search.found.inj heq).symm
    · cases heq
  · next heq => split at heq <;> cases heq
  · next next heq =>
    split at heq
    · cases heq
    · exact congrArg some (Nat.succ.inj (Search.missing.inj heq)).symm

theorem lineColumn?_eq : m.lineColumn? offset = some (front.count '\n' + 1,
    (Text.slice? (lastStart front) offset m.source).elim (offset - lastStart front) List.length +
      1) := by
  have hend : offset ≤ Text.byteLength m.source := by
    rw [htext, Text.byteLength_append]
    omega
  have hlast := getLast?_lineStarts front
  have hstart : m.lineStarts[front.count '\n']? = some (lastStart front) := by
    rw [lineStarts_eq htext, List.getElem?_append_left (by simp [length_behindNewlines]), ← hlast,
      List.getLast?_eq_getElem?, List.length_cons, length_behindNewlines, Nat.add_sub_cancel]
  have hle : lastStart front ≤ offset :=
    le_of_mem_lineStarts hfront _ (List.mem_of_getLast? hlast)
  unfold lineColumn?
  rw [Nat.min_eq_left hend]
  simp [lineOf?_eq htext hoffset hfront, hstart, hle]

end

/-- The place in front of a character, or at the end. -/
theorem lineColumn?_byteLength (htext : m.source = front ++ back) :
    m.lineColumn? (Text.byteLength front) =
      some (front.count '\n' + 1, (front.rtakeWhile (· ≠ '\n')).length + 1) := by
  have hfront : ∀ us c vs, front = us ++ c :: vs → Text.byteLength us < Text.byteLength front := by
    rintro us c vs rfl
    have hsize := Char.utf8Size_pos c
    rw [Text.byteLength_append, Text.byteLength_cons]
    omega
  have hslice : Text.slice? (lastStart front) (Text.byteLength front) m.source =
      some (front.rtakeWhile (· ≠ '\n')) := by
    refine Text.slice?_eq_some_iff.2 ⟨front.rdropWhile (· ≠ '\n'), back, ?_, rfl, ?_⟩
    · rw [List.rdropWhile_append_rtakeWhile, htext]
    · rw [List.rdropWhile_append_rtakeWhile]
  rw [lineColumn?_eq htext (Nat.le_refl _) hfront, hslice]
  rfl

/-- A lookup in front of the end, or at it, has an answer and counts newlines. -/
theorem exists_lineColumn?_of_le (h : offset ≤ Text.byteLength m.source) :
    ∃ column, m.lineColumn? offset =
      some ((Text.charsBefore offset m.source).count '\n' + 1, column) := by
  obtain ⟨back, htext, hle⟩ := Text.exists_eq_charsBefore_append h
  exact ⟨_, lineColumn?_eq htext hle fun _ _ _ ↦ Text.byteLength_lt_of_charsBefore⟩

end SourceMap

end MasCheck
