import MasCheck.Proofs.Grammar.Acceptance
import MasCheck.Proofs.Token.Order

/-!
# What is collected

The findings of a unit are those of its pieces, one for each piece that is not sound, and after
them the mismatches, of which only the first at each offset is kept.
-/

namespace MasCheck

namespace Kind

def isLexical : Kind → Bool
  | unrecognizedInput | unclosedDouble | unclosedSingle => true
  | _ => false

def isMismatch : Kind → Bool
  | inputMismatch | unexpectedInput | noViableAlternative => true
  | _ => false

theorem isLexical_of_isMismatch {k : Kind} (h : k.isMismatch) :
    k.isLexical = false := by
  cases k <;> first | rfl | cases h

end Kind

/-! ## Pieces -/

/-- What is reported about a piece. -/
def Piece.diagnostic? (map : SourceMap) : Piece → Option Diagnostic
  | sound _ => none
  | closed quote text span => some (map.diagnostic (Collector.unclosedKind quote) [text] span)
  | stray text span => some (map.diagnostic .unrecognizedInput [text] span)

theorem Piece.position_diagnostic? {map : SourceMap} {p : Piece} {d : Diagnostic}
    (h : p.diagnostic? map = some d) : d.position = map.position p.span := by
  cases p with
  | sound l => cases h
  | closed quote text span =>
    obtain rfl := Option.some.inj h
    rfl
  | stray text span =>
    obtain rfl := Option.some.inj h
    rfl

theorem Piece.isLexical_diagnostic? {map : SourceMap} {p : Piece} {d : Diagnostic}
    (h : p.diagnostic? map = some d) : d.kind.isLexical := by
  cases p with
  | sound l => cases h
  | closed quote text span =>
    obtain rfl := Option.some.inj h
    cases quote <;> rfl
  | stray text span =>
    obtain rfl := Option.some.inj h
    rfl

namespace Collector

variable {c : Collector} {p : Piece} {ps : List Piece} {m : Mismatch} {ms : List Mismatch}

/-! ## Lexical findings -/

/-- An open text is told twice and reported once. -/
theorem notices_piece (hfresh : p.span.start ∉ c.literalStarts) :
    ∃ starts, p.events.foldl notice c =
        { c with diagnostics := c.diagnostics ++ (p.diagnostic? c.map).toList
                 literalStarts := starts } ∧
      ∀ start ∈ starts, start = p.span.start ∨ start ∈ c.literalStarts := by
  cases p with
  | sound l =>
    refine ⟨c.literalStarts, ?_, fun start hstart ↦ .inr hstart⟩
    simp [Piece.events, Piece.diagnostic?]
  | closed quote text span =>
    refine ⟨span.start :: c.literalStarts, ?_, fun start hstart ↦ List.mem_cons.1 hstart⟩
    have hspan : span.start ∉ c.literalStarts := hfresh
    simp [Piece.events, Piece.diagnostic?, notice, literal, push, hspan]
  | stray text span =>
    refine ⟨c.literalStarts, ?_, fun start hstart ↦ .inr hstart⟩
    simp [Piece.events, Piece.diagnostic?, notice, push]

theorem notices_pieces (hordered : ps.Pairwise fun p q ↦ p.span.start < q.span.start)
    (hfresh : ∀ p ∈ ps, p.span.start ∉ c.literalStarts) :
    ∃ starts, (ps.flatMap Piece.events).foldl notice c =
      { c with diagnostics := c.diagnostics ++ ps.filterMap (Piece.diagnostic? c.map)
               literalStarts := starts } := by
  induction ps generalizing c with
  | nil => exact ⟨c.literalStarts, by simp⟩
  | cons p ps ih =>
    obtain ⟨hfirst, hothers⟩ := List.pairwise_cons.1 hordered
    obtain ⟨starts, hp, hstarts⟩ := notices_piece (hfresh p List.mem_cons_self)
    have hfresh' : ∀ q ∈ ps, q.span.start ∉ starts := by
      intro q hq hmem
      rcases hstarts _ hmem with hsame | hmem
      · exact absurd (hfirst q hq) (hsame ▸ Nat.lt_irrefl _)
      · exact hfresh q (List.mem_cons_of_mem p hq) hmem
    rw [List.flatMap_cons, List.foldl_append, hp]
    obtain ⟨starts', hps⟩ := ih (c := { c with
      diagnostics := c.diagnostics ++ (p.diagnostic? c.map).toList
      literalStarts := starts }) hothers hfresh'
    refine ⟨starts', ?_⟩
    rw [hps]
    cases hd : p.diagnostic? c.map <;> simp [hd]

/-! ## Mismatches -/

/-- The first mismatch at each offset that is not among the given ones. -/
def firstMismatches : List Nat → List Mismatch → List Mismatch
  | _, [] => []
  | starts, m :: ms =>
    if m.span.start ∈ starts then firstMismatches starts ms
    else m :: firstMismatches (m.span.start :: starts) ms

theorem mem_of_mem_firstMismatches {starts : List Nat} (h : m ∈ firstMismatches starts ms) :
    m ∈ ms := by
  induction ms generalizing starts with
  | nil => cases h
  | cons k ms ih =>
    rw [firstMismatches] at h
    split at h
    · exact List.mem_cons_of_mem k (ih h)
    · rcases List.mem_cons.1 h with rfl | h
      · exact List.mem_cons_self
      · exact List.mem_cons_of_mem k (ih h)

theorem firstMismatches_eq_self {starts : List Nat}
    (hdistinct : ms.Pairwise fun a b ↦ a.span.start ≠ b.span.start)
    (hfresh : ∀ m ∈ ms, m.span.start ∉ starts) : firstMismatches starts ms = ms := by
  induction ms generalizing starts with
  | nil => rfl
  | cons m ms ih =>
    obtain ⟨hfirst, hothers⟩ := List.pairwise_cons.1 hdistinct
    rw [firstMismatches, if_neg (hfresh m List.mem_cons_self), ih hothers]
    intro m' hm' hmem
    rcases List.mem_cons.1 hmem with hsame | hmem
    · exact hfirst m' hm' hsame.symm
    · exact hfresh m' (List.mem_cons_of_mem m hm') hmem

def mismatchDiagnostic (map : SourceMap) (root : Rule) (m : Mismatch) : Diagnostic :=
  map.diagnostic (m.finding root).1 (m.finding root).2 m.span

theorem isMismatch_finding (root : Rule) (m : Mismatch) : (m.finding root).1.isMismatch := by
  unfold Mismatch.finding
  dsimp only
  split <;> rfl

theorem diagnostics_mismatches (ms : List Mismatch) (c : Collector) :
    (ms.foldl mismatch c).diagnostics = c.diagnostics ++
      (firstMismatches c.mismatchStarts ms).map (mismatchDiagnostic c.map c.root) := by
  induction ms generalizing c with
  | nil => exact (List.append_nil _).symm
  | cons m ms ih =>
    rw [List.foldl_cons, ih, firstMismatches]
    by_cases hmem : m.span.start ∈ c.mismatchStarts
    · simp [mismatch, hmem]
    · simp [mismatch, hmem, push, mismatchDiagnostic]

/-- All that is collected: first what is reported about the pieces, then the mismatches. -/
theorem diagnostics_collect (map : SourceMap) (root : Rule) (ms : List Mismatch)
    (hordered : InOrder (ps.map Piece.span)) :
    (collect map root (ps.flatMap Piece.events) ms).diagnostics =
      ps.filterMap (Piece.diagnostic? map) ++
        (firstMismatches [] ms).map (mismatchDiagnostic map root) := by
  have hstarts := hordered.starts
  rw [List.pairwise_map] at hstarts
  obtain ⟨starts, hps⟩ := notices_pieces (c := start map root) hstarts
    fun _ _ ↦ List.not_mem_nil
  unfold collect
  rw [hps, diagnostics_mismatches]
  rfl

end Collector

/-! ## The findings of a unit -/

namespace UnitTree

variable {α : Type} {p : Parser α}

/-- The pieces that are met until the parser stops. -/
def metPieces (p : Parser α) (source : String) : List Piece :=
  firstPieces (repairedCount (parsed p source).reach) (pieces (lex source))

theorem diagnostics_read (p : Parser α) (root : Rule) (file source : String) :
    (read p root file source).diagnostics =
      (metPieces p source).filterMap (Piece.diagnostic? (.ofText file source)) ++
        (Collector.firstMismatches [] ((parsed p source).failures.map Failure.mismatch)).map
          (Collector.mismatchDiagnostic (.ofText file source) root) := by
  have hmet : (metPieces p source).Sublist (pieces (lex source)) :=
    (prefix_firstPieces _ _).sublist
  have hordered := (inOrder_pieces (inOrder_lex source)).sublist (hmet.map Piece.span)
  exact Collector.diagnostics_collect _ root _ hordered

theorem isLexical_of_mem {map : SourceMap} {ps : List Piece} {d : Diagnostic}
    (hd : d ∈ ps.filterMap (Piece.diagnostic? map)) : d.kind.isLexical := by
  obtain ⟨piece, -, hpiece⟩ := List.mem_filterMap.1 hd
  exact Piece.isLexical_diagnostic? hpiece

theorem isMismatch_of_mem {map : SourceMap} {root : Rule} {ms : List Mismatch} :
    ∀ d ∈ ms.map (Collector.mismatchDiagnostic map root), d.kind.isMismatch := by
  intro d hd
  obtain ⟨m, -, rfl⟩ := List.mem_map.1 hd
  exact Collector.isMismatch_finding root m

theorem mismatches_read (p : Parser α) (root : Rule) (file source : String) :
    (read p root file source).diagnostics.filter (fun d ↦ d.kind.isMismatch) =
      (Collector.firstMismatches [] ((parsed p source).failures.map Failure.mismatch)).map
        (Collector.mismatchDiagnostic (.ofText file source) root) := by
  rw [diagnostics_read, List.filter_append, List.filter_eq_nil_iff.2, List.nil_append,
    List.filter_eq_self]
  · exact isMismatch_of_mem
  · intro d hd hmismatch
    cases (isLexical_of_mem hd).symm.trans (Kind.isLexical_of_isMismatch hmismatch)

theorem lexical_read (p : Parser α) (root : Rule) (file source : String) :
    (read p root file source).diagnostics.filter (fun d ↦ d.kind.isLexical) =
      (metPieces p source).filterMap (Piece.diagnostic? (.ofText file source)) := by
  rw [diagnostics_read, List.filter_append, List.filter_eq_self.2, List.filter_eq_nil_iff.2,
    List.append_nil]
  · intro d hd hlexical
    cases hlexical.symm.trans (Kind.isLexical_of_isMismatch (isMismatch_of_mem d hd))
  · exact fun d hd ↦ isLexical_of_mem hd

end UnitTree

end MasCheck
