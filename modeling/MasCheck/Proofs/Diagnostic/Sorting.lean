import Mathlib.Data.String.Basic
import Mathlib.Order.WithBot
import MasCheck.Diagnostic.Basic
import MasCheck.Proofs.Source.Columns

/-!
# Findings by place

Findings are sorted by line, by column and by the offset at which they end. For findings in one
source that comes to sorting them by the offsets of their spans: one without a span stands at the
front, and of two that begin at the same offset the shorter one goes first. Findings with the same
span are left in the order in which they were made.
-/

namespace MasCheck

/-- The offsets of the span, below all of them if there is none. -/
def Position.rank (p : Position) : WithBot (ℕ ×ₗ ℕ) :=
  match p.span with
  | none => ⊥
  | some s => (toLex (s.start, s.stop) : ℕ ×ₗ ℕ)

/-- The findings are about stretches of the source that begin at a character, or about the whole of
it. Beside one about the whole no stretch at the front is empty. -/
structure SourceMap.Covers (m : SourceMap) (ds : List Diagnostic) : Prop where
  sited : ∀ d ∈ ds, d.position = .fileStart m.file ∨
    ∃ s, Text.IsBoundary m.source s.start ∧ d.position = m.position s
  nonempty : ∀ d ∈ ds, d.position = .fileStart m.file →
    ∀ e ∈ ds, ∀ s, e.position = m.position s → 0 < s.stop

theorem SourceMap.Covers.file_eq {m : SourceMap} {ds : List Diagnostic} {d : Diagnostic}
    (h : m.Covers ds) (hd : d ∈ ds) : d.position.file = m.file := by
  rcases h.sited d hd with hd | ⟨s, -, hd⟩
  · rw [hd]
    rfl
  · rw [hd]
    rfl

namespace Diagnostic

variable {m : SourceMap} {ds : List Diagnostic} {d e : Diagnostic}

theorem lexLe_iff {a b x a' b' x' : Nat} : lexLe [a, b, x] [a', b', x'] = true ↔
    toLex (a, b) < toLex (a', b') ∨ toLex (a, b) = toLex (a', b') ∧ x ≤ x' := by
  rw [Prod.Lex.toLex_lt_toLex, toLex_inj, Prod.mk.injEq]
  simp only [lexLe, Bool.or_eq_true, Bool.and_eq_true, decide_eq_true_eq, and_true]
  omega

theorem le_iff_of_file_eq (h : d.position.file = e.position.file) :
    le d e = true ↔ lexLe d.sortKey e.sortKey = true := by
  simp [le, h]

theorem sortKey_of_fileStart (hd : d.position = .fileStart m.file) : d.sortKey = [1, 1, 0] := by
  rw [sortKey, hd]
  rfl

theorem sortKey_of_position {s : Span} (hd : d.position = m.position s) :
    d.sortKey = [(m.lineColumn s.start).1, (m.lineColumn s.start).2, s.stop] := by
  rw [sortKey, hd]
  rfl

theorem rank_of_fileStart (hd : d.position = .fileStart m.file) : d.position.rank = ⊥ := by
  rw [hd]
  rfl

theorem rank_of_position {s : Span} (hd : d.position = m.position s) :
    d.position.rank = (toLex (s.start, s.stop) : ℕ ×ₗ ℕ) := by
  rw [hd]
  rfl

/-- Lines and columns decide the same as offsets. -/
theorem le_iff_rank_le (h : m.Covers ds) (hd : d ∈ ds) (he : e ∈ ds) :
    le d e = true ↔ d.position.rank ≤ e.position.rank := by
  have hmono := m.strictMonoOn_lineColumn
  have hfront : Text.IsBoundary m.source 0 := ⟨[], m.source, rfl, rfl⟩
  have hone : toLex (m.lineColumn 0) = toLex (1, 1) := congrArg toLex m.lineColumn_zero
  rw [le_iff_of_file_eq ((h.file_eq hd).trans (h.file_eq he).symm)]
  rcases h.sited d hd with hdpos | ⟨s, hs, hdpos⟩ <;>
    rcases h.sited e he with hepos | ⟨t, ht, hepos⟩
  · simp [sortKey_of_fileStart hdpos, sortKey_of_fileStart hepos, rank_of_fileStart hdpos,
      lexLe_iff]
  · rw [sortKey_of_fileStart hdpos, sortKey_of_position hepos, rank_of_fileStart hdpos, lexLe_iff,
      ← hone]
    refine iff_of_true ?_ bot_le
    rcases Nat.eq_zero_or_pos t.start with hzero | hpos
    · exact .inr ⟨by rw [hzero], Nat.zero_le _⟩
    · exact .inl (hmono hfront ht hpos)
  · have hpositive := h.nonempty e he hepos d hd s hdpos
    rw [sortKey_of_position hdpos, sortKey_of_fileStart hepos, rank_of_position hdpos,
      rank_of_fileStart hepos, lexLe_iff, ← hone, le_bot_iff]
    refine iff_of_false ?_ WithBot.coe_ne_bot
    rintro (hlt | ⟨-, hle⟩)
    · exact Nat.not_lt_zero _ ((hmono.lt_iff_lt hs hfront).1 hlt)
    · omega
  · rw [sortKey_of_position hdpos, sortKey_of_position hepos, rank_of_position hdpos,
      rank_of_position hepos, lexLe_iff, WithBot.coe_le_coe, Prod.Lex.toLex_le_toLex]
    exact or_congr (hmono.lt_iff_lt hs ht) (and_congr_left' (hmono.eq_iff_eq hs ht))

def rankLe (d e : Diagnostic) : Bool :=
  d.position.rank ≤ e.position.rank

theorem rankLe_trans (a b c : Diagnostic) (hab : rankLe a b = true) (hbc : rankLe b c = true) :
    rankLe a c = true :=
  decide_eq_true ((of_decide_eq_true hab).trans (of_decide_eq_true hbc))

theorem rankLe_total (a b : Diagnostic) : (rankLe a b || rankLe b a) = true := by
  rw [Bool.or_eq_true, rankLe, rankLe, decide_eq_true_eq, decide_eq_true_eq]
  exact le_total _ _

theorem sortByPosition_eq (h : m.Covers ds) : sortByPosition ds = ds.mergeSort rankLe := by
  have hsame : ∀ d ∈ ds, ∀ e ∈ ds, le d e = rankLe (id d) (id e) :=
    fun d hd e he ↦ Bool.eq_iff_iff.2 ((le_iff_rank_le h hd he).trans decide_eq_true_iff.symm)
  have hmap := List.map_mergeSort hsame
  rwa [List.map_id, List.map_id] at hmap

/-- A list of what was found, in order of place. -/
structure Lists (ds found : List Diagnostic) : Prop where
  perm : ds.Perm found
  ordered : ds.Pairwise fun d e ↦ d.position.rank ≤ e.position.rank
  stable : ∀ span, ds.filter (fun d ↦ d.position.span = span) =
    found.filter fun d ↦ d.position.span = span

theorem lists_sortByPosition (h : m.Covers ds) : Lists (sortByPosition ds) ds := by
  have hperm : (sortByPosition ds).Perm ds := List.mergeSort_perm ds _
  refine ⟨hperm, ?_, fun span ↦ ?_⟩
  · rw [sortByPosition_eq h]
    exact (List.pairwise_mergeSort rankLe_trans rankLe_total ds).imp of_decide_eq_true
  · -- Those with one span are sorted already, so that sorting leaves them as they are.
    have hsorted : (ds.filter fun d ↦ d.position.span = span).Pairwise fun a b ↦ rankLe a b := by
      refine List.pairwise_of_forall_mem_list fun a ha b hb ↦ decide_eq_true (le_of_eq ?_)
      have hspans : a.position.span = b.position.span :=
        (of_decide_eq_true (List.mem_filter.1 ha).2).trans
          (of_decide_eq_true (List.mem_filter.1 hb).2).symm
      rw [Position.rank, Position.rank, hspans]
    have hkept := List.sublist_mergeSort rankLe_trans rankLe_total hsorted List.filter_sublist
    have hkept' := hkept.filter fun d ↦ d.position.span = span
    rw [← sortByPosition_eq h, List.filter_filter] at hkept'
    simp only [Bool.and_self] at hkept'
    exact (hkept'.eq_of_length (hperm.filter _).length_eq.symm).symm

/-! ## Sorting a part -/

/-- What decides the order of reports. -/
def orderKey (d : Diagnostic) : String ×ₗ ℕ ×ₗ ℕ ×ₗ ℕ :=
  toLex (d.position.file, toLex (d.position.line, toLex (d.position.column, d.position.spanStop)))

theorem le_iff_orderKey_le (a b : Diagnostic) : le a b = true ↔ a.orderKey ≤ b.orderKey := by
  simp only [le, orderKey, sortKey, lexLe, Prod.Lex.toLex_le_toLex, Bool.or_eq_true,
    Bool.and_eq_true, decide_eq_true_eq, and_true, Nat.le_iff_lt_or_eq]

theorem le_of_le_of_le (a b c : Diagnostic) (hab : le a b = true) (hbc : le b c = true) :
    le a c = true := by
  rw [le_iff_orderKey_le] at hab hbc ⊢
  exact hab.trans hbc

theorem le_or_le (a b : Diagnostic) : (le a b || le b a) = true := by
  rw [Bool.or_eq_true, le_iff_orderKey_le, le_iff_orderKey_le]
  exact le_total _ _

/-- Where an item is put in depends on the sorted list only, not on how it was made. -/
theorem append_inj_of_le {xs ys xs' ys' : List Diagnostic} {a : Diagnostic}
    (h : xs ++ ys = xs' ++ ys') (hxs : ∀ b ∈ xs, (!le a b) = true) (hys : ∀ b ∈ ys, le a b = true)
    (hxs' : ∀ b ∈ xs', (!le a b) = true) (hys' : ∀ b ∈ ys', le a b = true) :
    xs = xs' ∧ ys = ys' := by
  have hfront : ∀ us vs : List Diagnostic, (∀ b ∈ us, (!le a b) = true) →
      (∀ b ∈ vs, le a b = true) → (us ++ vs).filter (fun b ↦ !le a b) = us := by
    intro us vs hus hvs
    rw [List.filter_append, List.filter_eq_self.2 hus, List.filter_eq_nil_iff.2, List.append_nil]
    intro b hb
    simp [hvs b hb]
  have hxx : xs = xs' := by
    rw [← hfront xs ys hxs hys, h, hfront xs' ys' hxs' hys']
  subst hxx
  exact ⟨rfl, List.append_cancel_left h⟩

theorem sortByPosition_cons (a : Diagnostic) (ds : List Diagnostic) :
    ∃ xs ys, sortByPosition (a :: ds) = xs ++ a :: ys ∧ sortByPosition ds = xs ++ ys ∧
      (∀ b ∈ xs, (!le a b) = true) ∧ ∀ b ∈ ys, le a b = true := by
  obtain ⟨xs, ys, hcons, hds, hxs⟩ := List.mergeSort_cons le_of_le_of_le le_or_le a ds
  refine ⟨xs, ys, hcons, hds, hxs, ?_⟩
  have hsorted := List.pairwise_mergeSort le_of_le_of_le le_or_le (a :: ds)
  rw [hcons] at hsorted
  exact (List.pairwise_cons.1 (List.pairwise_append.1 hsorted).2.1).1

/-- Those of some kind are sorted as they are among all. -/
theorem filter_sortByPosition (p : Diagnostic → Bool) (ds : List Diagnostic) :
    (sortByPosition ds).filter p = sortByPosition (ds.filter p) := by
  induction ds with
  | nil => simp [sortByPosition]
  | cons a ds ih =>
    obtain ⟨xs, ys, hcons, hds, hxs, hys⟩ := sortByPosition_cons a ds
    rw [hds, List.filter_append] at ih
    rw [hcons, List.filter_append]
    by_cases ha : p a = true
    · rw [List.filter_cons_of_pos ha, List.filter_cons_of_pos ha]
      obtain ⟨us, vs, hcons', hds', hus, hvs⟩ := sortByPosition_cons a (ds.filter p)
      rw [hds'] at ih
      obtain ⟨hxs', hys'⟩ := append_inj_of_le ih
        (fun b hb ↦ hxs b (List.mem_filter.1 hb).1) (fun b hb ↦ hys b (List.mem_filter.1 hb).1)
        hus hvs
      rw [hcons', hxs', hys']
    · rw [List.filter_cons_of_neg ha, List.filter_cons_of_neg ha, ih]

end Diagnostic

end MasCheck
