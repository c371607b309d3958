import Mathlib.Data.Prod.Lex
import Mathlib.Order.Monotone.Basic
import MasCheck.Proofs.Source.LineLookup
import MasCheck.Proofs.Token.Place

/-!
# Lines and columns keep the order of a source

Reading a character leads to the next column, or to the first one of the next line. The line and
the column of an offset are reached so from the front of the source, provided that the offset does
not fall inside a character; further on in the source they are larger. The line of an offset inside
a character is that of the character, and an offset past the end is at the place of the end.
-/

namespace MasCheck

/-- Of two places in front of characters, the nearer one is passed on the way to the other. -/
theorem Text.IsBoundary.exists_between {text : List Char} {a b : Nat} (ha : IsBoundary text a)
    (hb : IsBoundary text b) (h : a < b) : ∃ front c cs back,
      text = front ++ c :: cs ++ back ∧ a = byteLength front ∧
        b = byteLength (front ++ c :: cs) := by
  obtain ⟨front, rest, rfl, rfl⟩ := ha
  obtain ⟨front', back, htext, rfl⟩ := hb
  rcases List.append_eq_append_iff.1 htext with ⟨part, rfl, rfl⟩ | ⟨part, rfl, -⟩
  · cases part with
    | nil =>
      rw [List.append_nil] at h
      exact absurd h (Nat.lt_irrefl _)
    | cons c cs => exact ⟨front, c, cs, back, (List.append_assoc ..).symm, rfl, rfl⟩
  · rw [byteLength_append] at h
    omega

namespace SourceMap

/-- The line and the column behind a character. -/
def advance (place : Nat × Nat) (c : Char) : Nat × Nat :=
  if c = '\n' then (place.1 + 1, 1) else (place.1, place.2 + 1)

theorem lt_advance (place : Nat × Nat) (c : Char) : toLex place < toLex (advance place c) := by
  rw [Prod.Lex.toLex_lt_toLex]
  unfold advance
  split
  · exact .inl (Nat.lt_succ_self _)
  · exact .inr ⟨rfl, Nat.lt_succ_self _⟩

theorem le_foldl_advance (cs : List Char) (place : Nat × Nat) :
    toLex place ≤ toLex (cs.foldl advance place) := by
  induction cs generalizing place with
  | nil => exact le_refl _
  | cons c cs ih => exact (lt_advance place c).le.trans (ih _)

theorem foldl_advance (cs : List Char) :
    cs.foldl advance (1, 1) =
      (cs.count '\n' + 1, (cs.rtakeWhile (· ≠ '\n')).length + 1) := by
  induction cs using List.reverseRecOn with
  | nil => rfl
  | append_singleton cs c ih =>
    rw [List.foldl_append, ih, List.count_append, List.foldl_cons, List.foldl_nil, advance]
    by_cases hc : c = '\n'
    · subst hc
      rw [List.rtakeWhile_concat_neg _ _ _ (by simp)]
      rfl
    · rw [List.rtakeWhile_concat_pos _ _ _ (by simpa using hc), if_neg hc]
      simp [hc]

theorem lineColumn_eq (m : SourceMap) {front back : List Char} (h : m.source = front ++ back) :
    m.lineColumn (Text.byteLength front) = front.foldl advance (1, 1) := by
  rw [foldl_advance, lineColumn, lineColumn?_byteLength h]
  rfl

theorem strictMonoOn_lineColumn (m : SourceMap) :
    StrictMonoOn (fun offset ↦ toLex (m.lineColumn offset))
      {offset | Text.IsBoundary m.source offset} := by
  intro a ha b hb hlt
  obtain ⟨front, c, cs, back, htext, rfl, rfl⟩ := Text.IsBoundary.exists_between ha hb hlt
  have hfront : m.source = front ++ (c :: cs ++ back) := by
    rw [htext, List.append_assoc]
  change toLex (m.lineColumn _) < toLex (m.lineColumn _)
  rw [m.lineColumn_eq hfront, m.lineColumn_eq htext, List.foldl_append, List.foldl_cons]
  exact (lt_advance _ c).trans_le (le_foldl_advance cs _)

theorem lineColumn_zero (m : SourceMap) : m.lineColumn 0 = (1, 1) :=
  m.lineColumn_eq (List.nil_append m.source).symm

/-! ## Every offset -/

/-- Places are found by characters: an offset is on the line behind the newlines in front of it, and
in the column behind the other characters of that line. -/
structure LocatesExactly (m : SourceMap) : Prop where
  /-- A lookup never fails, also inside a character and past the end. -/
  succeeds : ∀ offset, m.lineColumn? offset = some (m.lineColumn offset)
  line : ∀ offset,
    (m.lineColumn offset).1 = 1 + (Text.charsBefore offset m.source).count '\n'
  column : ∀ offset, Text.IsBoundary m.source offset ∨ Text.byteLength m.source ≤ offset →
    (m.lineColumn offset).2 =
      1 + ((Text.charsBefore offset m.source).rtakeWhile (· ≠ '\n')).length
  pastEnd : ∀ offset, Text.byteLength m.source ≤ offset →
    m.lineColumn offset = m.lineColumn (Text.byteLength m.source)
  increasing : ∀ a b, Text.IsBoundary m.source a → Text.IsBoundary m.source b → a < b →
    toLex (m.lineColumn a) < toLex (m.lineColumn b)

theorem lineColumn_of_le (m : SourceMap) {offset : Nat} (h : Text.byteLength m.source ≤ offset) :
    m.lineColumn offset = m.lineColumn (Text.byteLength m.source) := by
  rw [lineColumn, lineColumn, ← lineColumn?_min m offset, Nat.min_eq_right h]

/-- A lookup past the end is one at the end. -/
theorem exists_lineColumn? (m : SourceMap) (offset : Nat) : ∃ column, m.lineColumn? offset =
    some ((Text.charsBefore offset m.source).count '\n' + 1, column) := by
  rcases Nat.le_total offset (Text.byteLength m.source) with hle | hle
  · exact exists_lineColumn?_of_le hle
  · rw [← lineColumn?_min m offset, Nat.min_eq_right hle, Text.charsBefore_of_le hle]
    exact ⟨_, lineColumn?_byteLength (List.append_nil m.source).symm⟩

theorem lineColumn_snd (m : SourceMap) {offset : Nat} (h : Text.IsBoundary m.source offset) :
    (m.lineColumn offset).2 =
      1 + ((Text.charsBefore offset m.source).rtakeWhile (· ≠ '\n')).length := by
  obtain ⟨front, back, htext, rfl⟩ := h
  rw [m.lineColumn_eq htext, foldl_advance, htext, Text.charsBefore_append]
  exact Nat.add_comm _ 1

theorem locatesExactly (m : SourceMap) : m.LocatesExactly where
  succeeds offset := by
    obtain ⟨column, hplace⟩ := m.exists_lineColumn? offset
    rw [lineColumn, hplace]
    rfl
  line offset := by
    obtain ⟨column, hplace⟩ := m.exists_lineColumn? offset
    rw [lineColumn, hplace]
    exact Nat.add_comm _ 1
  column := by
    rintro offset (hboundary | hle)
    · exact m.lineColumn_snd hboundary
    · have hend : Text.IsBoundary m.source (Text.byteLength m.source) :=
        ⟨m.source, [], (List.append_nil _).symm, rfl⟩
      rw [m.lineColumn_of_le hle, m.lineColumn_snd hend, Text.charsBefore_of_le hle,
        Text.charsBefore_of_le (Nat.le_refl _)]
  pastEnd _ hle := m.lineColumn_of_le hle
  increasing _ _ ha hb hlt := m.strictMonoOn_lineColumn ha hb hlt

end SourceMap

end MasCheck
