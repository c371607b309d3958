import MasCheck.Proofs.Diagnostic.Collected
import MasCheck.Proofs.Grammar.Vocabulary
import MasCheck.Proofs.Lists.Chosen

/-!
# How mismatches are worded

A mismatch points at a token, or at the end, and says what it points at. What could have stood there
is said in the words of the grammar, each of them once.
-/

namespace MasCheck

/-! ## Words -/

theorem labelPhrase_rule (r : Rule) : labelPhrase r.name = r.phrase := by
  cases r <;> decide

theorem labelPhrase_notion (n : Notion) : labelPhrase n.text = n.text := by
  cases n <;> decide

namespace Vocabulary

/-- The phrases for all that is in the vocabulary, and for the end. -/
def phrases (V : Vocabulary) : List String :=
  V.tokens.filterMap (fun t ↦ Expectation.phrase? (.token t)) ++ V.rules.map Rule.phrase ++
    V.notions.map Notion.text ++ [endOfFilePhrase]

/-- Some phrases of the vocabulary, each of them once. -/
structure Lists (V : Vocabulary) (ps : List String) : Prop where
  ne_nil : ps ≠ []
  nodup : ps.Nodup
  mem_phrases : ∀ p ∈ ps, p ∈ V.phrases

variable {V : Vocabulary}

theorem Has.mem_phrases {e : Expectation} {phrase : String} (h : V.Has e)
    (hphrase : e.phrase? = some phrase) : phrase ∈ V.phrases := by
  simp only [phrases, List.mem_append]
  cases e with
  | token t => exact .inl (.inl (.inl (List.mem_filterMap.2 ⟨t, h, hphrase⟩)))
  | label l =>
    obtain rfl := Option.some.inj hphrase
    cases l with
    | rule r =>
      rw [Label.text, labelPhrase_rule]
      exact .inl (.inl (.inr (List.mem_map_of_mem h)))
    | notion n =>
      rw [Label.text, labelPhrase_notion]
      exact .inl (.inr (List.mem_map_of_mem h))
  | endOfInput =>
    obtain rfl := Option.some.inj hphrase
    exact .inr List.mem_cons_self
  | anyToken => cases hphrase
  | other => cases hphrase

theorem lists_eraseDups {es : List Expectation} (h : ∀ e ∈ es, V.Has e)
    (hne : (es.filterMap Expectation.phrase?).eraseDups ≠ []) :
    V.Lists (es.filterMap Expectation.phrase?).eraseDups := by
  refine ⟨hne, nodup_eraseDups _, fun phrase hmem ↦ ?_⟩
  obtain ⟨e, he, hphrase⟩ := List.mem_filterMap.1 (List.mem_eraseDups.1 hmem)
  exact (h e he).mem_phrases hphrase

end Vocabulary

/-! ## Findings -/

/-- The finding is at a token and says in the end which, or at the end and says so. -/
def Diagnostic.PointsInto (map : SourceMap) (s : TokenStream) (d : Diagnostic) : Prop :=
  (∃ l ∈ s.tokens, d.position = map.position l.span ∧ d.args.getLast? = some l.token.phrase) ∨
    d.position = map.position ⟨s.finish, s.finish⟩ ∧ d.args.getLast? = some endOfFilePhrase

/-- What was expected is listed in the vocabulary, and the rule at hand is one of it. -/
structure Diagnostic.SpeaksIn (V : Vocabulary) (d : Diagnostic) : Prop where
  mismatch : d.kind = .inputMismatch → ∃ r ∈ V.rules, ∃ ps found,
    V.Lists ps ∧ d.args = [r.phrase, joinAlternatives ps, found]
  unexpected : d.kind = .unexpectedInput → ∃ ps found,
    V.Lists ps ∧ d.args = [joinAlternatives ps, found]

theorem Mismatch.finding_cases (root : Rule) (m : Mismatch) :
    (m.expected.eraseDups = [] ∧ m.finding root =
        (.noViableAlternative, [(m.context.map labelPhrase).getD root.phrase, m.found])) ∨
      m.expected.eraseDups ≠ [] ∧
        ((∃ label, m.context = some label ∧ m.finding root =
            (.inputMismatch,
              [labelPhrase label, joinAlternatives m.expected.eraseDups, m.found])) ∨
          m.context = none ∧ m.finding root =
            (.unexpectedInput, [joinAlternatives m.expected.eraseDups, m.found])) := by
  unfold finding
  dsimp only
  cases hexpected : m.expected.eraseDups with
  | nil => exact .inl ⟨rfl, rfl⟩
  | cons phrase phrases =>
    refine .inr ⟨List.cons_ne_nil _ _, ?_⟩
    cases hcontext : m.context with
    | none => exact .inr ⟨rfl, rfl⟩
    | some label => exact .inl ⟨label, rfl, rfl⟩

namespace Collector

variable {V : Vocabulary} {map : SourceMap} {root : Rule} {f : Failure}

theorem getLast?_finding (root : Rule) (m : Mismatch) :
    (m.finding root).2.getLast? = some m.found := by
  rcases m.finding_cases root with ⟨-, h⟩ | ⟨-, ⟨label, -, h⟩ | ⟨-, h⟩⟩ <;> rw [h] <;> rfl

theorem pointsInto_mismatchDiagnostic {s : TokenStream} {i : Nat} (h : f.Tells V (s.site i)) :
    (mismatchDiagnostic map root f.mismatch).PointsInto map s := by
  have hposition : (mismatchDiagnostic map root f.mismatch).position =
      map.position (s.site i).span := congrArg map.position h.span
  have hlast : (mismatchDiagnostic map root f.mismatch).args.getLast? =
      some (foundPhrase (s.site i).found) := by
    rw [← h.found]
    exact getLast?_finding root f.mismatch
  rcases s.site_cases i with ⟨l, hl, hsite⟩ | hsite
  · rw [hsite] at hposition hlast
    exact .inl ⟨l, hl, hposition, hlast⟩
  · rw [hsite] at hposition hlast
    exact .inr ⟨hposition, hlast⟩

theorem exists_rule_of_context {site : Site} {label : String} (h : f.Tells V site)
    (hlabel : f.mismatch.context = some label) : ∃ r ∈ V.rules, labelPhrase label = r.phrase := by
  obtain ⟨l, hl, rfl⟩ := Option.map_eq_some_iff.1 hlabel
  obtain ⟨r, hr, rfl⟩ := h.contexts l (List.mem_of_mem_head? hl)
  exact ⟨r, hr, labelPhrase_rule r⟩

theorem speaksIn_mismatchDiagnostic {site : Site} (h : f.Tells V site) :
    (mismatchDiagnostic map root f.mismatch).SpeaksIn V := by
  unfold mismatchDiagnostic
  rcases f.mismatch.finding_cases root with ⟨-, hfinding⟩ | ⟨hne, hfinding⟩
  · rw [hfinding]
    exact ⟨nofun, nofun⟩
  · have hlists := Vocabulary.lists_eraseDups h.expected hne
    rcases hfinding with ⟨label, hlabel, hfinding⟩ | ⟨-, hfinding⟩
    · obtain ⟨r, hr, hphrase⟩ := exists_rule_of_context h hlabel
      rw [hfinding, hphrase]
      exact ⟨fun _ ↦ ⟨r, hr, _, _, hlists, rfl⟩, nofun⟩
    · rw [hfinding]
      exact ⟨nofun, fun _ ↦ ⟨_, _, hlists, rfl⟩⟩

theorem start_not_mem_of_mem_firstMismatches {starts : List Nat} {m : Mismatch}
    {ms : List Mismatch} (h : m ∈ firstMismatches starts ms) : m.span.start ∉ starts := by
  induction ms generalizing starts with
  | nil => cases h
  | cons k ms ih =>
    rw [firstMismatches] at h
    split at h
    · exact ih h
    · next hk =>
      rcases List.mem_cons.1 h with rfl | h
      · exact hk
      · exact fun hmem ↦ ih h (List.mem_cons_of_mem _ hmem)

/-- The mismatches that are kept begin at different offsets. -/
theorem pairwise_firstMismatches (starts : List Nat) (ms : List Mismatch) :
    (firstMismatches starts ms).Pairwise fun a b ↦ a.span.start ≠ b.span.start := by
  induction ms generalizing starts with
  | nil => exact List.Pairwise.nil
  | cons m ms ih =>
    rw [firstMismatches]
    split
    · exact ih starts
    · refine List.pairwise_cons.2 ⟨fun k hk hsame ↦ ?_, ih _⟩
      exact start_not_mem_of_mem_firstMismatches hk (hsame ▸ List.mem_cons_self)

end Collector

/-! ## Units -/

def TokenStream.ofSource (source : String) : TokenStream :=
  ⟨(Repaired.ofSource source).tokens, Text.byteLength source.toList⟩

/-- The mismatches point at what they found, no two of them at the same place. -/
structure Diagnostic.MismatchesPoint (map : SourceMap) (s : TokenStream)
    (ds : List Diagnostic) : Prop where
  pointsInto : ∀ d ∈ ds, d.kind.isMismatch → d.PointsInto map s
  apart : (ds.filter fun d ↦ d.kind.isMismatch).Pairwise fun a b ↦
    a.position.span.map Span.start ≠ b.position.span.map Span.start

namespace UnitTree

variable {α : Type} {V : Vocabulary} {p : Parser α} {root : Rule} {file source : String}

theorem exists_failure_of_mem_read {d : Diagnostic} (h : p.Tells V)
    (hd : d ∈ (read p root file source).diagnostics) (hmismatch : d.kind.isMismatch) :
    ∃ (f : Failure) (i : Nat), f.Tells V ((TokenStream.ofSource source).site i) ∧
      d = Collector.mismatchDiagnostic (.ofText file source) root f.mismatch := by
  have hmem : d ∈ (read p root file source).diagnostics.filter fun d ↦ d.kind.isMismatch :=
    List.mem_filter.2 ⟨hd, hmismatch⟩
  rw [mismatches_read] at hmem
  obtain ⟨m, hm, rfl⟩ := List.mem_map.1 hmem
  obtain ⟨f, hf, rfl⟩ := List.mem_map.1 (Collector.mem_of_mem_firstMismatches hm)
  obtain ⟨i, hi⟩ := h.failures_parse f hf
  exact ⟨f, i, hi, rfl⟩

theorem mismatchesPoint_read (h : p.Tells V) :
    Diagnostic.MismatchesPoint (.ofText file source) (.ofSource source)
      (read p root file source).diagnostics := by
  constructor
  · intro d hd hmismatch
    obtain ⟨f, i, hf, rfl⟩ := exists_failure_of_mem_read h hd hmismatch
    exact Collector.pointsInto_mismatchDiagnostic hf
  · rw [mismatches_read]
    refine List.pairwise_map.2 ((Collector.pairwise_firstMismatches _ _).imp fun hne hsame ↦ ?_)
    exact hne (Option.some.inj hsame)

theorem speaksIn_of_mem_read {d : Diagnostic} (h : p.Tells V)
    (hd : d ∈ (read p root file source).diagnostics) : d.SpeaksIn V := by
  by_cases hmismatch : d.kind.isMismatch
  · obtain ⟨f, i, hf, rfl⟩ := exists_failure_of_mem_read h hd hmismatch
    exact Collector.speaksIn_mismatchDiagnostic hf
  · constructor <;> intro hkind <;> exact absurd (hkind ▸ rfl) hmismatch

end UnitTree

/-- In both grammars a mismatch points at the token it names as found, or at the end. -/
theorem mismatches_point_at_found (file source : String) :
    Diagnostic.MismatchesPoint (.ofText file source) (.ofSource source)
        (UnitTree.ofMas file source).diagnostics ∧
      Diagnostic.MismatchesPoint (.ofText file source) (.ofSource source)
        (UnitTree.ofScript file source).diagnostics :=
  ⟨UnitTree.mismatchesPoint_read Grammar.tells_masFile,
    UnitTree.mismatchesPoint_read Grammar.tells_testScript⟩

/-- How a pattern without a name and the tokens that repair takes away would be called, and an
operator without its spelling. -/
def unspokenPhrases : List String :=
  ["something else", "any", Terminal.operator.phrase, (Terminal.unclosed .double).phrase,
    (Terminal.unclosed .single).phrase, Terminal.stray.phrase]

/-- In both grammars, what was expected is said in the words of the grammar. -/
theorem expectations_in_words (file source : String) :
    (∀ d ∈ (UnitTree.ofMas file source).diagnostics, d.SpeaksIn .mas) ∧
      (∀ d ∈ (UnitTree.ofScript file source).diagnostics, d.SpeaksIn .script) ∧
      ∀ V ∈ [Vocabulary.mas, Vocabulary.script], ∀ phrase ∈ V.phrases,
        phrase ∉ unspokenPhrases :=
  ⟨fun _ hd ↦ UnitTree.speaksIn_of_mem_read Grammar.tells_masFile hd,
    fun _ hd ↦ UnitTree.speaksIn_of_mem_read Grammar.tells_testScript hd, by decide⟩

end MasCheck
