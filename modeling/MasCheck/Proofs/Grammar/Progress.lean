import MasCheck.Proofs.Grammar.Loose

/-!
# Progress

What is repeated has to take a token each time it succeeds, or the repetition would never end. This
is told here of statements, sections, tests and the parts of terms, whether they are read as they
should be or recovered from. A statement that fails leaves nothing behind, and a search for a later
place is behind one more token in each of its rounds.
-/

namespace MasCheck

namespace Parser

variable {α β : Type} {p q : Parser α} {c : Cursor} {n : Notes} {x : α}

/-- Where the parser succeeds, its cursor is behind the tokens that it has read. -/
def Moves (p : Parser α) : Prop :=
  Reads p fun _ _ ↦ True

/-- Where the parser succeeds, it has taken a token. -/
def Takes (p : Parser α) : Prop :=
  Reads p fun ts _ ↦ ts ≠ []

theorem Reads.moves {P : Production α} (h : Reads p P) : p.Moves :=
  h.mono fun _ _ _ ↦ trivial

theorem Confined.moves {e : Extent} (h : Confined e p) : p.Moves := by
  intro c n x hx
  obtain ⟨ts, -, hts⟩ := h.takes hx
  exact ⟨ts, hts, trivial⟩

namespace Moves

theorem length_le (h : p.Moves) (hx : (p c n).value = some x) :
    (p c n).cursor.rest.length ≤ c.rest.length := by
  obtain ⟨ts, hts, -⟩ := h hx
  rw [hts.rest_eq, List.length_append]
  exact Nat.le_add_left _ _

protected theorem bind {f : α → Parser β} (hp : p.Moves) (hf : ∀ x, (f x).Moves) :
    (p >>= f).Moves :=
  (Reads.bind hp hf).moves

protected theorem map (hp : p.Moves) (g : α → β) : (do let x ← p; return g x : Parser β).Moves :=
  hp.bind fun x ↦ (Reads.pure (g x)).moves

protected theorem optional (hp : p.Moves) : (optional p).Moves :=
  (Reads.optional hp).moves

protected theorem many (hp : p.Moves) : (many p).Moves :=
  (Reads.many hp).moves

theorem located (hp : p.Moves) : (located p).Moves := by
  intro c n y hy
  obtain ⟨x, hx, rfl⟩ := Option.map_eq_some_iff.1 hy
  exact hp hx

theorem moreAfterCommas (hp : p.Moves) : (moreAfterCommas p).Moves :=
  ((Reads.sign .comma).moves.bind fun _ ↦ hp).many

theorem separated₁ (hp : p.Moves) : (separated₁ p).Moves :=
  hp.bind fun _ ↦ hp.moreAfterCommas.map _

theorem separated (hp : p.Moves) : (separated p).Moves :=
  hp.separated₁.optional.map _

theorem between {opening closing : Sign} (hp : p.Moves) : (between opening closing p).Moves :=
  (Reads.between hp).moves

end Moves

theorem Realizes.takes {P : Production α} {F : List Lexeme → Prop} {e : Extent}
    (h : Realizes p P F) (hconf : Confined e p) (hP : P.Solid) : p.Takes :=
  (Reads.of_realizes h hconf.quiet).mono hP

namespace Takes

theorem moves (h : p.Takes) : p.Moves :=
  Reads.moves h

theorem length_lt (h : p.Takes) (hx : (p c n).value = some x) :
    (p c n).cursor.rest.length < c.rest.length := by
  obtain ⟨ts, hts, hne⟩ := h hx
  have hpos := List.length_pos_iff.2 hne
  rw [hts.rest_eq, List.length_append]
  omega

theorem token (atToken atEnd : Expectation) (f : Token → Option α) :
    (token atToken atEnd f).Takes :=
  (Reads.token atToken atEnd f).mono (Production.Solid.token f)

theorem sign (s : Sign) : (sign s).Takes :=
  token _ _ _

theorem keyword (word : Keyword) : (keyword word).Takes :=
  token _ _ _

/-- Behind a parser that takes a token, it is enough not to go back. -/
protected theorem bind {f : α → Parser β} (hp : p.Takes) (hf : ∀ x, (f x).Moves) :
    (p >>= f).Takes := by
  refine (Reads.bind hp hf).mono fun ts y h ↦ ?_
  obtain ⟨us, vs, x, rfl, hus, -⟩ := h
  exact List.append_ne_nil_of_left_ne_nil hus vs

theorem map (hp : p.Takes) (g : α → β) : (do let x ← p; return g x : Parser β).Takes :=
  hp.bind fun x ↦ (Reads.pure (g x)).moves

protected theorem or (hp : p.Takes) (hq : q.Takes) : (p.or q).Takes :=
  (Reads.or hp hq).mono fun _ _ h ↦ h.elim id id

theorem recoverBy {skip : Parser α} (hp : p.Takes) (hskip : skip.Takes) :
    (recoverBy skip p).Takes :=
  (Reads.recoverBy hp hskip).mono fun _ _ h ↦ h.elim id id

theorem resumeBefore (stop : Parser Unit) (hp : p.Takes) : (resumeBefore stop p).Takes := by
  refine (Reads.resumeBefore stop hp).mono fun ts x h ↦ ?_
  obtain ⟨us, vs, rfl, hvs⟩ := h
  exact List.append_ne_nil_of_right_ne_nil us hvs

theorem tokenBefore (stop : Parser Unit) : (tokenBefore stop).Takes := by
  have htoken : Reads (Parser.tokenBefore stop) _ :=
    .tokenBefore (fun _ ↦ True) fun _ _ h ↦ absurd trivial h
  refine htoken.mono fun ts t h ↦ ?_
  obtain ⟨l, rfl, -⟩ := h
  exact List.cons_ne_nil l []

/-- A statement takes a token even if it is skipped: there must be something to skip. -/
theorem statement (hp : p.Takes) : (Grammar.statement p).Takes := by
  have hskip : Grammar.skipStatement.Takes := reads_skipStatement.mono fun _ _ h ↦ h.1
  exact ((hp.map some).resumeBefore _).recoverBy (hskip.map _)

end Takes

/-! ## Failure and search -/

theorem recoverBy_failed {skip : Parser α} (h : (recoverBy skip p c n).value = none) :
    (recoverBy skip p c n).cursor = c ∧ (recoverBy skip p c n).emitted = [] := by
  unfold recoverBy at h ⊢
  cases hp : (p c n).value with
  | some x =>
    simp only [hp] at h
    cases h
  | none =>
    simp only [hp] at h ⊢
    cases hskip : (skip c (p c n).notes.clear).value with
    | some x =>
      simp only [hskip] at h
      cases h
    | none =>
      simp only [Outcome.failed, and_self]

/-- The parser takes a token where it succeeds. Where it fails it goes back and emits nothing. -/
structure Progresses (p : Parser α) : Prop where
  takes : p.Takes
  restores : ∀ c n, (p c n).value = none → (p c n).cursor = c ∧ (p c n).emitted = []

theorem Takes.progresses_statement (hp : p.Takes) : (Grammar.statement p).Progresses where
  takes := hp.statement
  restores _ _ h := recoverBy_failed h

/-- One round of a search. It gives up where it began, or else it is behind the next token: there it
either succeeds or leaves the rest to the next round. -/
inductive Round (stop : Parser Unit) (p : Parser α) (held : Option Pending) (c : Cursor)
    (n : Notes) : Prop
  | givesUp (n' : Notes) (h : searchBefore stop p held c n = .failed c n')
  | succeeds (l : Lexeme) (ls : List Lexeme) (n' : Notes) (x : α) (hrest : c.rest = l :: ls)
      (hx : (p (c.after l ls) n').value = some x)
      (h : searchBefore stop p held c n =
        { p (c.after l ls) n' with emitted := held.toList.map Pending.failure })
  | goesOn (l : Lexeme) (ls : List Lexeme) (n' : Notes) (hrest : c.rest = l :: ls)
      (h : searchBefore stop p held c n = searchBefore stop p held (c.after l ls) n')

theorem round_searchBefore (stop : Parser Unit) (p : Parser α) (held : Option Pending) (c : Cursor)
    (n : Notes) : Round stop p held c n := by
  cases hstop : (stop c n).value with
  | some u => exact .givesUp _ (searchBefore_of_stop hstop held)
  | none =>
    cases hrest : c.rest with
    | nil => exact .givesUp _ (searchBefore_of_nil hstop held hrest)
    | cons l ls =>
      have hround := searchBefore_of_cons (p := p) hstop held hrest
      dsimp only at hround
      split at hround
      · next hgood =>
        obtain ⟨x, hx⟩ := Option.isSome_iff_exists.1 (Bool.and_eq_true_iff.1 hgood).1
        exact .succeeds l ls _ x hrest hx hround
      · exact .goesOn l ls _ hrest hround

end Parser

namespace Grammar

open MasCheck.Parser

/-! ## What is repeated -/

theorem takes_envRef : envRef.Takes :=
  realizes_envRef.takes confined_envRef solid_envRef

theorem takes_initialization : initialization.Takes :=
  realizes_initialization.takes confined_initialization solid_initialization

theorem takes_agentFile : agentFile.Takes :=
  realizes_agentFile.takes confined_agentFile solid_agentFile

theorem takes_launchRule : launchRule.Takes :=
  realizes_launchRule.takes confined_launchRule solid_launchRule

theorem takes_testCondition : testCondition.Takes :=
  realizes_testCondition.takes confined_testCondition solid_testCondition

theorem takes_termItem : termItem.Takes :=
  realizes_termItem.takes confined_termItem solid_termItem

theorem takes_sectionKeyword : sectionKeyword.Takes :=
  (Takes.keyword _).or ((Takes.keyword _).or (Takes.keyword _))

theorem takes_skipSection : skipSection.Takes :=
  takes_sectionKeyword.bind fun _ ↦
    ((Reads.many (Takes.tokenBefore sectionKeyword)).bind fun _ ↦ .pure _).moves

theorem takes_soundSection : soundSection.Takes := by
  have henvironment : environmentSection.Takes :=
    reads_environmentSection.mono ((Production.Solid.exactly _).bind _).located
  have hfiles : agentFilesSection.Takes :=
    reads_agentFilesSection.mono ((Production.Solid.exactly _).bind _)
  have hpolicy : launchPolicySection.Takes :=
    reads_launchPolicySection.mono ((Production.Solid.exactly _).bind _).located
  exact (henvironment.map _).or ((hfiles.map _).or (hpolicy.map _))

/-- A section takes a token whether it is read, skipped or found later. -/
theorem takes_anySection : anySection.Takes :=
  (takes_soundSection.recoverBy takes_skipSection).resumeBefore _

theorem takes_anyTest : anyTest.Takes := by
  have hsolid : Loose.agentTest.Solid := by
    refine Production.Solid.located (.bind ?_ _)
    exact Production.Solid.located (.token _)
  exact Takes.resumeBefore _ (reads_agentTest.mono hsolid)

end Grammar

end MasCheck
