import MasCheck.Proofs.Diagnostic.Collected
import MasCheck.Proofs.Grammar.EarlyFailure
import MasCheck.Proofs.Grammar.Loose

/-!
# What is scanned

Tokens are repaired only as far as the parser looks, by groups. What a scan of the whole source
reports is reported by a reading up to the last group that was begun: once, in the order of the
source, and before all mismatches. A parser that makes a tree has looked at everything, and so has
one whose source has less than a group of tokens. A parser that fails early may miss what stands
behind its last group.
-/

namespace MasCheck

/-- The first finding is about a place in front of that of the second. -/
def Diagnostic.Precedes (a b : Diagnostic) : Prop :=
  ∃ s t, a.position.span = some s ∧ b.position.span = some t ∧ s.stop ≤ t.start

theorem Piece.span_diagnostic? {map : SourceMap} {p : Piece} {d : Diagnostic}
    (h : p.diagnostic? map = some d) : d.position.span = some p.span := by
  rw [p.position_diagnostic? h]
  rfl

theorem Piece.diagnostic?_eq_none_iff {p : Piece} (map : SourceMap) :
    p.diagnostic? map = none ↔ ∃ l, p = .sound l := by
  cases p <;> simp [diagnostic?]

theorem pairwise_diagnostics (map : SourceMap) {ps : List Piece}
    (h : InOrder (ps.map Piece.span)) :
    (ps.filterMap (Piece.diagnostic? map)).Pairwise Diagnostic.Precedes := by
  refine List.Pairwise.filterMap _ ?_ (List.pairwise_map.1 h.2)
  exact fun p q hpq a ha b hb ↦
    ⟨p.span, q.span, p.span_diagnostic? ha, q.span_diagnostic? hb, hpq⟩

/-! ## Sound tokens in front -/

theorem exists_sound_of_mem_firstPieces {ls : List Lexeme} {ps : List Piece} {piece : Piece}
    {n : Nat} (hn : n ≤ ls.length) (h : piece ∈ firstPieces n (ls.map .sound ++ ps)) :
    ∃ l, piece = .sound l := by
  induction ls generalizing n with
  | nil =>
    obtain rfl := Nat.le_zero.1 hn
    rw [firstPieces] at h
    cases h
  | cons l ls ih =>
    cases n with
    | zero => cases h
    | succ n =>
      rcases List.mem_cons.1 h with rfl | h
      · exact ⟨l, rfl⟩
      · exact ih (Nat.le_of_succ_le_succ hn) h

theorem pieces_append_of_sound {ls ks : List Lexeme}
    (h : ∀ l ∈ ls, ∀ js, pieces (l :: js) = .sound l :: pieces js) :
    pieces (ls ++ ks) = ls.map .sound ++ pieces ks := by
  induction ls with
  | nil => rfl
  | cons l ls ih =>
    obtain ⟨hl, hls⟩ := List.forall_mem_cons.1 h
    rw [List.cons_append, hl, ih hls]
    rfl

/-- So many dots side by side. -/
def dotsFrom : Nat → Nat → List Lexeme
  | _, 0 => []
  | here, n + 1 => ⟨.sign .dot, ⟨here, here + 1⟩⟩ :: dotsFrom (here + 1) n

theorem length_dotsFrom (here n : Nat) : (dotsFrom here n).length = n := by
  induction n generalizing here with
  | zero => rfl
  | succ n ih => exact congrArg (· + 1) (ih (here + 1))

theorem token_of_mem_dotsFrom {l : Lexeme} {here n : Nat} (h : l ∈ dotsFrom here n) :
    l.token = .sign .dot := by
  induction n generalizing here with
  | zero => cases h
  | succ n ih =>
    rcases List.mem_cons.1 h with rfl | h
    · rfl
    · exact ih h

theorem lexFrom_dot (here : Nat) (cs : List Char) :
    lexFrom here ('.' :: cs) = ⟨.sign .dot, ⟨here, here + 1⟩⟩ :: lexFrom (here + 1) cs := by
  have hsplit : Padding.split .blank ('.' :: cs) = ([], '.' :: cs) := rfl
  have hreading : Reading.ofText '.' cs = ⟨.sign .dot, ['.'], cs⟩ := rfl
  exact lexFrom_cons here hsplit hreading

theorem lexFrom_dots (here n : Nat) (cs : List Char) :
    lexFrom here (List.replicate n '.' ++ cs) = dotsFrom here n ++ lexFrom (here + n) cs := by
  induction n generalizing here with
  | zero => rfl
  | succ n ih =>
    have hfirst : lexFrom here ('.' :: (List.replicate n '.' ++ cs)) = _ := lexFrom_dot here _
    rw [List.replicate_succ, List.cons_append, hfirst, ih, Nat.add_assoc, Nat.add_comm 1 n]
    rfl

/-! ## Met and missed pieces -/

namespace UnitTree

variable {α : Type} {p : Parser α} {P : Production α} {source : String}

/-- What a scan of the whole source reports. -/
def scanned (root : Rule) (file source : String) : List Diagnostic :=
  (Collector.collect (.ofText file source) root (Repaired.ofSource source).events []).diagnostics

def missedPieces (p : Parser α) (source : String) : List Piece :=
  (pieces (lex source)).drop (metPieces p source).length

theorem scanned_eq (root : Rule) (file source : String) :
    scanned root file source =
      (pieces (lex source)).filterMap (Piece.diagnostic? (.ofText file source)) := by
  have hall := Collector.diagnostics_collect (.ofText file source) root []
    (inOrder_pieces (inOrder_lex source))
  exact hall.trans (List.append_nil _)

theorem met_append_missed (p : Parser α) (source : String) :
    metPieces p source ++ missedPieces p source = pieces (lex source) :=
  List.prefix_iff_eq_append.1 (prefix_firstPieces _ _)

theorem missedPieces_eq_nil
    (h : (Repaired.ofSource source).tokens.length < repairedCount (parsed p source).reach) :
    missedPieces p source = [] := by
  have hmet : metPieces p source = pieces (lex source) := firstPieces_eq_self h
  rw [missedPieces, hmet, List.drop_length]

/-- Nothing is missed where the parser makes a tree, nor where there is not a whole group. -/
theorem missedPieces_eq_nil_of_tree (h : p.Reads P) (hlooks : p.Looks)
    (hwhole : (parsed p source).tree.isSome ∨
      (Repaired.ofSource source).tokens.length < groupSize) :
    missedPieces p source = [] := by
  apply missedPieces_eq_nil
  have hreach : (parsed p source).reach ≤ repairedCount (parsed p source).reach :=
    le_repairedCount _
  rcases hwhole with htree | hshort
  · obtain ⟨x, hx⟩ := Option.isSome_iff_exists.1 htree
    exact Nat.lt_of_lt_of_le (h.of_parse hx).2 hreach
  · have hpositive : 0 < (parsed p source).reach := hlooks.reach_parse _ _
    have hgroup : groupSize ≤ repairedCount (parsed p source).reach := by
      unfold repairedCount groupSize
      omega
    exact Nat.lt_of_lt_of_le hshort hgroup

/-- A parser that looks at no more than one group meets no finding behind it. -/
theorem lexical_eq_nil {ls : List Lexeme} {ps : List Piece} (root : Rule) (file : String)
    (hpieces : pieces (lex source) = ls.map .sound ++ ps) (hls : groupSize ≤ ls.length)
    (hreach : (parsed p source).reach ≤ groupSize) :
    (read p root file source).diagnostics.filter (fun d ↦ d.kind.isLexical) = [] := by
  have hcount : repairedCount (parsed p source).reach ≤ ls.length := by
    unfold repairedCount groupSize at *
    omega
  rw [lexical_read, List.filterMap_eq_nil_iff]
  intro piece hpiece
  rw [metPieces, hpieces] at hpiece
  obtain ⟨l, rfl⟩ := exists_sound_of_mem_firstPieces hcount hpiece
  rfl

/-! ## Findings about tokens -/

/-- What a unit reports about its tokens is what a scan reports, but for the missed pieces. -/
structure ReportsAsMet (p : Parser α) (root : Rule) (file source : String)
    (unit : UnitTree α) : Prop where
  split : metPieces p source ++ missedPieces p source = pieces (lex source)
  first : ∃ mismatches, (∀ d ∈ mismatches, d.kind.isMismatch) ∧
    unit.diagnostics =
      (metPieces p source).filterMap (Piece.diagnostic? (.ofText file source)) ++ mismatches
  ordered : (unit.diagnostics.filter fun d ↦ d.kind.isLexical).Pairwise Diagnostic.Precedes
  whole_iff : unit.diagnostics.filter (fun d ↦ d.kind.isLexical) = scanned root file source ↔
    ∀ piece ∈ missedPieces p source, ∃ l, piece = .sound l
  noneMissed : unit.tree.isSome ∨ (Repaired.ofSource source).tokens.length < groupSize →
    missedPieces p source = []

theorem reportsAsMet_read (h : p.Reads P) (hlooks : p.Looks) (root : Rule) (file source : String) :
    ReportsAsMet p root file source (read p root file source) where
  split := met_append_missed p source
  first := ⟨_, isMismatch_of_mem, diagnostics_read p root file source⟩
  ordered := by
    rw [lexical_read]
    have hmet : (metPieces p source).Sublist (pieces (lex source)) :=
      (prefix_firstPieces _ _).sublist
    exact pairwise_diagnostics _ ((inOrder_pieces (inOrder_lex source)).sublist (hmet.map _))
  whole_iff := by
    rw [lexical_read, scanned_eq, ← met_append_missed p source, List.filterMap_append,
      List.self_eq_append_right, List.filterMap_eq_nil_iff]
    exact forall₂_congr fun piece _ ↦ Piece.diagnostic?_eq_none_iff _
  noneMissed := missedPieces_eq_nil_of_tree h hlooks

theorem lexical_ofMas (file source : String) :
    ReportsAsMet Grammar.masFile .masFile file source (ofMas file source) :=
  reportsAsMet_read Grammar.reads_masFile Grammar.looks_masFile .masFile file source

/-- An open text alone is less than a group. -/
theorem lexical_ofMas_openText :
    (Repaired.ofSource "\"open").tokens.length < groupSize ∧
      (ofMas "m.mas2g" "\"open").diagnostics.filter (fun d ↦ d.kind.isLexical) =
        scanned .masFile "m.mas2g" "\"open" := by
  have hshort : (Repaired.ofSource "\"open").tokens.length < groupSize := by decide +kernel
  have hmet := lexical_ofMas "m.mas2g" "\"open"
  refine ⟨hshort, hmet.whole_iff.2 ?_⟩
  rw [hmet.noneMissed (.inr hshort)]
  nofun

theorem lexical_ofScript (file source : String) :
    ReportsAsMet Grammar.testScript .testScript file source (ofScript file source) :=
  reportsAsMet_read Grammar.reads_testScript Grammar.looks_testScript .testScript file source

theorem lexical_ofScript_openText :
    (Repaired.ofSource "\"open").tokens.length < groupSize ∧
      (ofScript "t.test2g" "\"open").diagnostics.filter (fun d ↦ d.kind.isLexical) =
        scanned .testScript "t.test2g" "\"open" := by
  have hshort : (Repaired.ofSource "\"open").tokens.length < groupSize := by decide +kernel
  have hmet := lexical_ofScript "t.test2g" "\"open"
  refine ⟨hshort, hmet.whole_iff.2 ?_⟩
  rw [hmet.noneMissed (.inr hshort)]
  nofun

/-! ## An open text behind a group -/

/-- Words that no unit begins with, then dots, and an open text at the end. -/
def lateText (dots : Nat) : String :=
  String.ofList ('x' :: (" agentfiles".toList ++ (" agentfiles".toList ++
    '.' :: (List.replicate dots '.' ++ "\"open".toList))))

def lateTextFront (dots : Nat) : List Lexeme :=
  ⟨.identifier "x", ⟨0, 1⟩⟩ :: ⟨.keyword .agentFiles, ⟨2, 12⟩⟩ ::
    ⟨.keyword .agentFiles, ⟨13, 23⟩⟩ :: ⟨.sign .dot, ⟨23, 24⟩⟩ :: dotsFrom 24 dots

theorem lexFrom_lateText (cs : List Char) :
    lexFrom 0 ('x' :: (" agentfiles".toList ++ (" agentfiles".toList ++ '.' :: cs))) =
      ⟨.identifier "x", ⟨0, 1⟩⟩ :: ⟨.keyword .agentFiles, ⟨2, 12⟩⟩ ::
        ⟨.keyword .agentFiles, ⟨13, 23⟩⟩ :: ⟨.sign .dot, ⟨23, 24⟩⟩ :: lexFrom 24 cs := by
  have hblank : ∀ ds, Padding.split .blank (" agentfiles".toList ++ ds) =
      ([' '], 'a' :: ("gentfiles".toList ++ ds)) := fun _ ↦ rfl
  have hword : ∀ ds, Padding.split .blank ('x' :: ds) = ([], 'x' :: ds) := fun _ ↦ rfl
  have hx : ∀ ds, Reading.ofText 'x' (" agentfiles".toList ++ ds) =
      ⟨.identifier "x", ['x'], " agentfiles".toList ++ ds⟩ := fun _ ↦ rfl
  have hfirst : Reading.ofText 'a' ("gentfiles".toList ++ (" agentfiles".toList ++ '.' :: cs)) =
      ⟨.keyword .agentFiles, "agentfiles".toList, " agentfiles".toList ++ '.' :: cs⟩ := rfl
  have hsecond : Reading.ofText 'a' ("gentfiles".toList ++ '.' :: cs) =
      ⟨.keyword .agentFiles, "agentfiles".toList, '.' :: cs⟩ := rfl
  rw [lexFrom_cons 0 (hword _) (hx _), lexFrom_cons _ (hblank _) hfirst,
    lexFrom_cons _ (hblank _) hsecond, lexFrom_dot]
  rfl

theorem lexFrom_open (here : Nat) :
    lexFrom here "\"open".toList = [⟨.unclosed .double "open", ⟨here, here + 5⟩⟩] := by
  have hsplit : Padding.split .blank "\"open".toList = ([], '"' :: "open".toList) := rfl
  have hreading : Reading.ofText '"' "open".toList =
      ⟨.unclosed .double "open", "\"open".toList, []⟩ := rfl
  rw [lexFrom_cons here hsplit hreading, lexFrom]
  rfl

theorem lex_lateText (dots : Nat) : lex (lateText dots) =
    lateTextFront dots ++ [⟨.unclosed .double "open", ⟨24 + dots, 24 + dots + 5⟩⟩] := by
  have hdots := lexFrom_dots 24 dots "\"open".toList
  rw [lexFrom_open] at hdots
  have hall : lex (lateText dots) = _ :=
    (congrArg (lexFrom 0) String.toList_ofList).trans (lexFrom_lateText _)
  rw [hdots] at hall
  exact hall

theorem pieces_lateText (dots : Nat) : pieces (lex (lateText dots)) =
    (lateTextFront dots).map .sound ++ [.closed .double "open" ⟨24 + dots, 24 + dots + 5⟩] := by
  rw [lex_lateText, pieces_append_of_sound]
  · rfl
  · intro l hl js
    simp only [lateTextFront, List.mem_cons] at hl
    rcases hl with rfl | rfl | rfl | rfl | hl
    · rfl
    · rfl
    · rfl
    · rfl
    · rw [pieces, token_of_mem_dotsFrom hl]

theorem tokens_lateText (dots : Nat) : (Repaired.ofSource (lateText dots)).tokens =
    lateTextFront dots ++ [⟨.quoted .double "open", ⟨24 + dots, 24 + dots + 5⟩⟩] := by
  have hsound : (lateTextFront dots).filterMap (Piece.lexeme? ∘ .sound) = lateTextFront dots :=
    List.filterMap_some
  unfold Repaired.ofSource Repaired.ofPieces
  rw [pieces_lateText, List.filterMap_append, List.filterMap_map, hsound]
  rfl

theorem scanned_lateText (root : Rule) (file : String) (dots : Nat) :
    scanned root file (lateText dots) =
      [(SourceMap.ofText file (lateText dots)).diagnostic .unclosedDouble ["open"]
        ⟨24 + dots, 24 + dots + 5⟩] := by
  have hsound : (lateTextFront dots).filterMap
      (Piece.diagnostic? (.ofText file (lateText dots)) ∘ .sound) = [] :=
    List.filterMap_eq_nil_iff.2 fun _ _ ↦ rfl
  rw [scanned_eq, pieces_lateText, List.filterMap_append, List.filterMap_map, hsound]
  rfl

theorem groupSize_le_lateTextFront {dots : Nat} (h : 508 ≤ dots) :
    groupSize ≤ (lateTextFront dots).length := by
  simp only [lateTextFront, List.length_cons, length_dotsFrom, groupSize]
  omega

theorem reach_masFile_lateText (dots : Nat) :
    (parsed Grammar.masFile (lateText dots)).reach ≤ groupSize := by
  have hfails : Grammar.masFile.FailsWithin (Repaired.ofSource (lateText dots)).tokens 3 :=
    tokens_lateText dots ▸ Grammar.failsWithin_masFile nofun
  exact Nat.le_trans (hfails.reach_parse _) (by decide)

theorem reach_testScript_lateText (dots : Nat) :
    (parsed Grammar.testScript (lateText dots)).reach ≤ groupSize := by
  have hfails : Grammar.testScript.FailsWithin (Repaired.ofSource (lateText dots)).tokens 1 :=
    tokens_lateText dots ▸ Grammar.failsWithin_testScript nofun
  exact Nat.le_trans (hfails.reach_parse _) (by decide)

theorem missed_ofMas_lateText :
    (ofMas "m.mas2g" (lateText 508)).diagnostics.filter (fun d ↦ d.kind.isLexical) = [] ∧
      scanned .masFile "m.mas2g" (lateText 508) =
        [(SourceMap.ofText "m.mas2g" (lateText 508)).diagnostic .unclosedDouble ["open"]
          ⟨532, 537⟩] :=
  ⟨lexical_eq_nil _ _ (pieces_lateText 508) (groupSize_le_lateTextFront (Nat.le_refl _))
    (reach_masFile_lateText 508), scanned_lateText _ _ _⟩

theorem missed_ofScript_lateText :
    (ofScript "t.test2g" (lateText 508)).diagnostics.filter (fun d ↦ d.kind.isLexical) = [] ∧
      scanned .testScript "t.test2g" (lateText 508) =
        [(SourceMap.ofText "t.test2g" (lateText 508)).diagnostic .unclosedDouble ["open"]
          ⟨532, 537⟩] :=
  ⟨lexical_eq_nil _ _ (pieces_lateText 508) (groupSize_le_lateTextFront (Nat.le_refl _))
    (reach_testScript_lateText 508), scanned_lateText _ _ _⟩

end UnitTree

end MasCheck
