import MasCheck.Proofs.Diagnostic.Relayed
import MasCheck.Proofs.Token.ClosedQuotes
import MasCheck.Proofs.Token.Scanning

/-!
# A mark is as good as a finding

A scanner tells of an open text twice, by a finding that has the text and by a mark that has only
the place. The text can be read from the source at this place, so that it does no harm if one of
the two does not arrive.
-/

namespace MasCheck

/-! ## Texts read back from the source -/

theorem Reading.exists_of_trimReturns {c : Char} {cs taken : List Char} (hc : c ≠ '\r')
    (h : trimReturns taken = c :: cs) : ∃ body, taken = c :: body ∧ trimReturns body = cs := by
  obtain ⟨returns, htaken, -⟩ := exists_returns taken
  rw [h, List.cons_append] at htaken
  rw [htaken, trimReturns_cons hc] at h
  exact ⟨cs ++ returns, htaken, (List.cons.inj h).2⟩

/-- An open text is what its place in the source says. -/
theorem Lexeme.IsReadIn.sourceText {source : List Char} {l : Lexeme} {quote : Quote}
    {text : String} (h : l.IsReadIn source) (htoken : l.token = .unclosed quote text)
    {c : Collector} (hc : c.map.source = source) : c.sourceText l.span = text := by
  have hmark : quote.char ≠ '\r' ∧ quote.char.utf8Size = 1 := by cases quote <;> decide
  obtain ⟨taken, hslice, -, hwritten⟩ := h.written
  have htrimmed : Reading.trimReturns taken = quote.char :: text.toList := by
    rw [htoken] at hwritten
    simpa [Token.IsWrittenAs, Token.written, Token.isUnclosed] using hwritten.symm
  obtain ⟨body, rfl, hbody⟩ := Reading.exists_of_trimReturns hmark.1 htrimmed
  have hdrop : Text.dropBytes? 1 (quote.char :: body) = some body := by
    have hone : Text.byteLength [quote.char] = 1 := hmark.2
    exact hone ▸ Text.dropBytes?_byteLength_append [quote.char] body
  unfold Collector.sourceText
  rw [hc, hslice, Option.getD_some]
  dsimp only
  rw [hdrop, Option.getD_some, hbody, String.ofList_toList]

/-- Carriage returns in front of the end of the line are not part of the text. -/
example : (Collector.start (.ofText "m.mas2g" "'é\r.\r\r\nx") .masFile).sourceText ⟨0, 7⟩ =
    "é\r." := by
  decide +kernel

theorem exists_unclosed_of_mem_pieces {ls : List Lexeme} {quote : Quote} {text : String}
    {span : Span} (h : .closed quote text span ∈ pieces ls) :
    ∃ l ∈ ls, l.token = .unclosed quote text ∧ l.span = span := by
  induction ls with
  | nil => cases h
  | cons k ls ih =>
    have hbehind : .closed quote text span ∈ pieces ls →
        ∃ l ∈ k :: ls, l.token = .unclosed quote text ∧ l.span = span := by
      intro h
      obtain ⟨l, hl, htoken⟩ := ih h
      exact ⟨l, List.mem_cons_of_mem k hl, htoken⟩
    obtain ⟨t, place⟩ := k
    cases t with
    | stray other => exact hbehind (mem_of_mem_consStray h rfl)
    | unclosed q content =>
      rcases List.mem_cons.1 h with heq | h
      · obtain ⟨rfl, rfl, rfl⟩ := Piece.closed.inj heq
        exact ⟨_, List.mem_cons_self, rfl, rfl⟩
      · exact hbehind h
    | _ =>
      rcases List.mem_cons.1 h with heq | h
      · cases heq
      · exact hbehind h

/-! ## Notices that do not arrive -/

/-- Which of the two notices about an open text arrive. -/
inductive Arrival
  | both
  | finding
  | mark
  deriving DecidableEq, Repr

/-- A notice arrives if it is among those chosen for its place. Open texts have different places,
so that there is a choice for each. -/
def RepairEvent.arrives (choice : Span → Arrival) : RepairEvent → Bool
  | unclosed _ _ span => choice span ≠ .mark
  | closed _ span => choice span ≠ .finding
  | stray _ _ => true

namespace Collector

variable {c : Collector} {source : List Char}

theorem map_notice (c : Collector) (e : RepairEvent) : (c.notice e).map = c.map := by
  have hliteral : ∀ quote text span, (c.literal quote text span).map = c.map := by
    intro quote text span
    by_cases hknown : span.start ∈ c.literalStarts
    · rw [literal_of_known hknown]
    · rw [literal_of_new hknown]
      rfl
  cases e with
  | unclosed quote text span => exact hliteral quote text span
  | closed quote span => exact hliteral quote _ span
  | stray text span => rfl

/-- A second notice about an open text changes nothing. -/
theorem literal_literal (c : Collector) (quote quote' : Quote) (text text' : String)
    (span : Span) :
    (c.literal quote text span).literal quote' text' span = c.literal quote text span := by
  by_cases hknown : span.start ∈ c.literalStarts
  · rw [literal_of_known hknown, literal_of_known hknown]
  · rw [literal_of_new hknown]
    exact literal_of_known List.mem_cons_self

theorem notices_arrived_piece {p : Piece} (choice : Span → Arrival)
    (hread : ∀ quote text span, p = .closed quote text span → c.sourceText span = text) :
    (p.events.filter (RepairEvent.arrives choice)).foldl notice c = p.events.foldl notice c := by
  cases p with
  | sound l => rfl
  | stray text span => rfl
  | closed quote text span =>
    have htext : c.sourceText span = text := hread quote text span rfl
    have hmark : c.notice (.closed quote span) = c.literal quote text span := by
      rw [notice, htext]
    have hboth : (Piece.closed quote text span).events.foldl notice c =
        c.literal quote text span := literal_literal ..
    rw [hboth]
    cases harrival : choice span with
    | both => simpa [Piece.events, RepairEvent.arrives, harrival] using hboth
    | finding => simp [Piece.events, RepairEvent.arrives, harrival, notice]
    | mark => simpa [Piece.events, RepairEvent.arrives, harrival] using hmark

theorem map_notices (c : Collector) (events : List RepairEvent) :
    (events.foldl notice c).map = c.map := by
  induction events generalizing c with
  | nil => rfl
  | cons e events ih => exact (ih (c.notice e)).trans (map_notice c e)

/-- The pieces are those of a source, and the text of each that was open is read back from it. -/
theorem notices_arrived_pieces {map : SourceMap} {ps : List Piece} (choice : Span → Arrival)
    (hread : ∀ quote text span, .closed quote text span ∈ ps →
      ∀ c : Collector, c.map = map → c.sourceText span = text) (hc : c.map = map) :
    ((ps.flatMap Piece.events).filter (RepairEvent.arrives choice)).foldl notice c =
      (ps.flatMap Piece.events).foldl notice c := by
  induction ps generalizing c with
  | nil => rfl
  | cons p ps ih =>
    have hfirst : (p.events.filter (RepairEvent.arrives choice)).foldl notice c =
        p.events.foldl notice c := by
      refine notices_arrived_piece choice fun quote text span hp ↦ ?_
      exact hread quote text span (hp ▸ List.mem_cons_self) c hc
    rw [List.flatMap_cons, List.filter_append, List.foldl_append, List.foldl_append, hfirst]
    refine ih (fun quote text span hp ↦ ?_) ((map_notices c p.events).trans hc)
    exact hread quote text span (List.mem_cons_of_mem p hp)

end Collector

/-! ## What a scanner reports -/

/-- Of the notices that a scanner gives about an open text one is enough, for each text either one:
a collector ends as it does with all notices, and so does a relay with any receiver. -/
theorem Scanner.told_by_half (file source : String) (root : Rule) (n : Nat)
    (choice : Span → Arrival) :
    let events := ((Scanner.start source).pull n).2.events
    let arrived := events.filter (RepairEvent.arrives choice)
    arrived.foldl Collector.notice (.start (.ofText file source) root) =
        events.foldl Collector.notice (.start (.ofText file source) root) ∧
      ∀ {σ : Type} (receive : σ → Diagnostic → σ) (receiver : σ),
        arrived.foldl (Relay.notice receive) (.start (.ofText file source) root receiver) =
          events.foldl (Relay.notice receive) (.start (.ofText file source) root receiver) := by
  intro events arrived
  have hevents : events = (firstPieces n (pieces (lex source))).flatMap Piece.events :=
    (Scanner.pull_start source n).2.1
  have hread : ∀ quote text span, .closed quote text span ∈ firstPieces n (pieces (lex source)) →
      ∀ c : Collector, c.map = .ofText file source → c.sourceText span = text := by
    intro quote text span hp c hc
    obtain ⟨l, hl, htoken, rfl⟩ :=
      exists_unclosed_of_mem_pieces ((prefix_firstPieces _ _).subset hp)
    exact (isReadIn_lex hl).sourceText htoken (congrArg SourceMap.source hc)
  have hcollected : arrived.foldl Collector.notice (.start (.ofText file source) root) =
      events.foldl Collector.notice (.start (.ofText file source) root) := by
    unfold arrived
    rw [hevents]
    exact Collector.notices_arrived_pieces choice hread rfl
  refine ⟨hcollected, fun receive receiver ↦ ?_⟩
  have hrelayed := congrArg (Collector.relayed receive receiver) hcollected
  rw [Collector.relayed_notices, Collector.relayed_notices] at hrelayed
  exact hrelayed

end MasCheck
