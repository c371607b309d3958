import MasCheck.Proofs.Diagnostic.Collected
import MasCheck.Proofs.Grammar.ParallelRules
import MasCheck.Proofs.Token.Place

/-!
# Sources with the same tokens

What the parser makes of a source depends on its tokens alone. Blanks, comments and line breaks,
closed quotes and left out characters change the places in the tree and those of the findings, and
nothing else: each finding stays with its token, or with the end.
-/

namespace MasCheck

open HasErasure (erased)

/-- The places that a parser can tell of: those of the tokens, and the end behind them. -/
def Repaired.places (source : String) : List Span :=
  (ofSource source).tokens.map Lexeme.span ++
    [⟨Text.byteLength source.toList, Text.byteLength source.toList⟩]

/-- The places of one number in the two sources. -/
def SamePlace (source source' : String) (a b : Span) : Prop :=
  ∃ i : Nat, (Repaired.places source)[i]? = some a ∧ (Repaired.places source')[i]? = some b

/-! ## Places -/

theorem pairwise_places (source : String) :
    (Repaired.places source).Pairwise fun a b ↦ a.start < b.start := by
  have hordered := Repaired.inOrder_tokens source
  refine List.pairwise_append.2 ⟨hordered.starts, List.pairwise_singleton _ _, ?_⟩
  intro a ha b hb
  obtain ⟨l, hl, rfl⟩ := List.mem_map.1 ha
  obtain rfl := List.mem_singleton.1 hb
  exact Nat.lt_of_lt_of_le (hordered.1 _ ha) (boundaries_tokens hl).2.le

section

variable {source source' : String} {a a' b b' : Span}

theorem SamePlace.start_iff (h : SamePlace source source' a a')
    (hb : SamePlace source source' b b') :
    a.start = b.start ↔ a'.start = b'.start := by
  obtain ⟨i, ha, ha'⟩ := h
  obtain ⟨j, hb, hb'⟩ := hb
  rw [start_eq_iff (pairwise_places source) ha hb, start_eq_iff (pairwise_places source') ha' hb']

variable (h : (Repaired.ofSource source).tokens.map Lexeme.token =
  (Repaired.ofSource source').tokens.map Lexeme.token)

include h

theorem samePlace_finish : SamePlace source source'
    ⟨Text.byteLength source.toList, Text.byteLength source.toList⟩
    ⟨Text.byteLength source'.toList, Text.byteLength source'.toList⟩ := by
  have hlength := congrArg List.length h
  rw [List.length_map, List.length_map] at hlength
  refine ⟨(Repaired.ofSource source).tokens.length, ?_, ?_⟩
  · rw [Repaired.places, List.getElem?_append_right (by simp)]
    simp
  · rw [Repaired.places, hlength, List.getElem?_append_right (by simp)]
    simp

theorem forall₂_tokens : List.Forall₂ (Lexeme.Alike (SamePlace source source'))
    (Repaired.ofSource source).tokens (Repaired.ofSource source').tokens := by
  have hlength := congrArg List.length h
  rw [List.length_map, List.length_map] at hlength
  refine List.forall₂_iff_get.2 ⟨hlength, fun i hi hi' ↦ ⟨?_, i, ?_, ?_⟩⟩
  · have hat := congrArg (·[i]?) h
    simpa [hi, hi'] using hat
  · rw [Repaired.places, List.getElem?_append_left (by simpa using hi)]
    simp [hi]
  · rw [Repaired.places, List.getElem?_append_left (by simpa using hi')]
    simp [hi']

end

/-! ## Mismatches -/

structure Mismatch.Alike (S : Span → Span → Prop) (m m' : Mismatch) : Prop where
  span : S m.span m'.span
  finding : ∀ root, m.finding root = m'.finding root

theorem Failure.Alike.mismatch {S : Span → Span → Prop} {f g : Failure} (h : f.Alike S g) :
    f.mismatch.Alike S g.mismatch := by
  refine ⟨h.span, fun root ↦ ?_⟩
  unfold Failure.mismatch Mismatch.finding
  rw [h.expected, h.found, h.contexts]

/-- What is kept of two lists is decided by which places are the same, and so it is the same. -/
theorem forall₂_firstMismatches {S : Span → Span → Prop}
    (hS : ∀ ⦃a a' b b'⦄, S a a' → S b b' → (a.start = b.start ↔ a'.start = b'.start))
    {ms ms' : List Mismatch} (h : List.Forall₂ (Mismatch.Alike S) ms ms') :
    ∀ {seen seen' : List Span}, List.Forall₂ S seen seen' →
      List.Forall₂ (Mismatch.Alike S) (Collector.firstMismatches (seen.map Span.start) ms)
        (Collector.firstMismatches (seen'.map Span.start) ms') := by
  have hmem : ∀ {a a' seen seen'}, S a a' → List.Forall₂ S seen seen' →
      (a.start ∈ seen.map Span.start ↔ a'.start ∈ seen'.map Span.start) := by
    intro a a' seen seen' ha hseen
    induction hseen with
    | nil => exact iff_of_false List.not_mem_nil List.not_mem_nil
    | cons hb _ ih =>
      rw [List.map_cons, List.map_cons, List.mem_cons, List.mem_cons, hS ha hb, ih]
  induction h with
  | nil => exact fun _ ↦ .nil
  | @cons m m' ms ms' hm _ ih =>
    intro seen seen' hseen
    rw [Collector.firstMismatches, Collector.firstMismatches]
    by_cases hold : m.span.start ∈ seen.map Span.start
    · rw [if_pos hold, if_pos ((hmem hm.span hseen).1 hold)]
      exact ih hseen
    · rw [if_neg hold, if_neg (mt (hmem hm.span hseen).2 hold)]
      exact .cons hm (ih (.cons hm.span hseen))

/-! ## Units -/

/-- The same finding, at places of one number in the two sources. -/
structure Diagnostic.Alike (file source file' source' : String) (d d' : Diagnostic) : Prop where
  kind : d.kind = d'.kind
  args : d.args = d'.args
  place : ∃ a a', SamePlace source source' a a' ∧
    d.position = (SourceMap.ofText file source).position a ∧
    d'.position = (SourceMap.ofText file' source').position a'

namespace UnitTree

variable {α : Type} [HasErasure α] {file source file' source' : String} {p : Parser α}

/-- The same tree but for its places, or none, and the same findings of the parser. -/
structure Alike (file source file' source' : String) (u u' : UnitTree α) : Prop where
  tree : erased u.tree = erased u'.tree
  mismatches : List.Forall₂ (Diagnostic.Alike file source file' source')
    (u.diagnostics.filter fun d ↦ d.kind.isMismatch)
    (u'.diagnostics.filter fun d ↦ d.kind.isMismatch)

theorem alike_read (hp : ∀ S, p.Parallel S p)
    (h : (Repaired.ofSource source).tokens.map Lexeme.token =
      (Repaired.ofSource source').tokens.map Lexeme.token) (root : Rule) :
    Alike file source file' source' (read p root file source) (read p root file' source') := by
  obtain ⟨htree, hfailures⟩ := (hp (SamePlace source source')).parse (forall₂_tokens h)
    (samePlace_finish h)
  have hmismatches : List.Forall₂ (Mismatch.Alike (SamePlace source source'))
      ((parsed p source).failures.map Failure.mismatch)
      ((parsed p source').failures.map Failure.mismatch) :=
    List.forall₂_map_left_iff.2 (List.forall₂_map_right_iff.2
      (hfailures.imp fun _ _ hsame ↦ hsame.mismatch))
  have hkept := forall₂_firstMismatches (fun _ _ _ _ ↦ SamePlace.start_iff) hmismatches .nil
  refine ⟨htree, ?_⟩
  rw [mismatches_read, mismatches_read]
  refine List.forall₂_map_left_iff.2 (List.forall₂_map_right_iff.2 (hkept.imp fun m m' hm ↦ ?_))
  have hfinding := hm.finding root
  exact ⟨congrArg Prod.fst hfinding, congrArg Prod.snd hfinding, m.span, m'.span, hm.span, rfl, rfl⟩

/-- What is read from a source depends on its tokens alone, in MAS files and in test scripts. -/
theorem alike_of_tokens
    (h : (Repaired.ofSource source).tokens.map Lexeme.token =
      (Repaired.ofSource source').tokens.map Lexeme.token) :
    Alike file source file' source' (ofMas file source) (ofMas file' source') ∧
      Alike file source file' source' (ofScript file source) (ofScript file' source') :=
  ⟨alike_read (fun _ ↦ Grammar.parallel_masFile) h _,
    alike_read (fun _ ↦ Grammar.parallel_testScript) h _⟩

/-- A broken file in two layouts. The second one has a stray character, a text left open and a
comment. -/
theorem alike_of_tokens_layouts :
    (Repaired.ofSource "agentfiles \"a.goal\" x").tokens.map Lexeme.token =
        (Repaired.ofSource "agentfiles§ \"a.goal\n% c\nx").tokens.map Lexeme.token ∧
      Alike "a" "agentfiles \"a.goal\" x" "b" "agentfiles§ \"a.goal\n% c\nx"
        (ofMas "a" "agentfiles \"a.goal\" x") (ofMas "b" "agentfiles§ \"a.goal\n% c\nx") ∧
      Alike "a" "agentfiles \"a.goal\" x" "b" "agentfiles§ \"a.goal\n% c\nx"
        (ofScript "a" "agentfiles \"a.goal\" x")
        (ofScript "b" "agentfiles§ \"a.goal\n% c\nx") := by
  have htokens : (Repaired.ofSource "agentfiles \"a.goal\" x").tokens.map Lexeme.token =
      (Repaired.ofSource "agentfiles§ \"a.goal\n% c\nx").tokens.map Lexeme.token := by
    decide +kernel
  exact ⟨htokens, alike_of_tokens htokens⟩

end UnitTree

end MasCheck
