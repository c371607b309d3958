import MasCheck.Proofs.Token.Lines

/-!
# A block comment in the place of a blank

Between tokens a block comment separates as a blank does, with one exception: a slash belongs to
the characters of operators, so that an operator goes on with a comment that touches it.
-/

namespace MasCheck

/-- At the offset stands a character of the gap, and no comment of the gap reaches up to there. -/
def Span.SeparatesAt (text : List Char) (gap : Span) (offset : Nat) : Prop :=
  gap.start ≤ offset ∧ offset < gap.stop ∧ ∃ padding,
    Text.slice? gap.start offset text = some padding ∧ IsPadding false padding

/-- The character at the offset stands between tokens and outside of comments. -/
def SeparatesAt (source : String) (offset : Nat) : Prop :=
  ∃ gap ∈ gapsFrom (Text.byteLength source.toList) 0 (lex source),
    gap.SeparatesAt source.toList offset

theorem start_of_mem_gapsFrom {finish here : Nat} {cs : List Char} {gap : Span}
    (hgap : gap ∈ gapsFrom finish here (lexFrom here cs)) : here ≤ gap.start := by
  fun_induction lexFrom here cs with
  | case1 here cs padding hsplit =>
    obtain rfl := List.mem_singleton.1 hgap
    exact Nat.le_refl _
  | case2 here cs padding c rest hsplit reading start stop ih =>
    rcases List.mem_cons.1 hgap with rfl | hgap
    · exact Nat.le_refl _
    · have hbehind := ih hgap
      dsimp only [stop, start] at hbehind
      omega

theorem isPadding_of_separatesAt {text front before back : List Char} {here stop : Nat}
    (htext : text = front ++ (before ++ back)) (hhere : here = Text.byteLength front)
    (h : Span.SeparatesAt text ⟨here, stop⟩ (here + Text.byteLength before)) :
    IsPadding false before := by
  obtain ⟨-, -, padding, hslice, hpadding⟩ := h
  have hbefore := Text.slice?_append front before back
  rw [List.append_assoc, ← htext, ← hhere] at hbefore
  obtain rfl := Option.some.inj (hslice.symm.trans hbefore)
  exact hpadding

theorem map_token_lexFrom (here there : Nat) (cs : List Char) :
    (lexFrom here cs).map Lexeme.token = (lexFrom there cs).map Lexeme.token := by
  have hshift : ∀ k, (lexFrom k cs).map Lexeme.token = (lexFrom 0 cs).map Lexeme.token := by
    intro k
    have hadd := lexFrom_add 0 k cs
    rw [Nat.zero_add] at hadd
    rw [hadd, List.map_map]
    rfl
  rw [hshift here, hshift there]

/-! ## In front of a blank -/

/-- A token that is read in front of a blank is read without the blank. -/
theorem exists_word_of_blank {before behind padding rest : List Char} {c : Char}
    (hsplit : Padding.split .blank (before ++ ' ' :: behind) = (padding, c :: rest))
    (hlength : Text.byteLength (padding ++ (Reading.ofText c rest).taken) ≤
      Text.byteLength before) :
    ∃ word, before = padding ++ c :: word ∧ rest = word ++ ' ' :: behind ∧
      Reading.ofText c rest = (Reading.ofText c word).before (' ' :: behind) ∧
      ((Reading.ofText c word).rest = [] → (Reading.ofText c word).token.endsAt ' ' = true) := by
  have hcs := (Padding.isPadding_of_split hsplit).1
  have hwhole : padding ++ (Reading.ofText c rest).taken ++ (Reading.ofText c rest).rest =
      before ++ ' ' :: behind := by
    rw [hcs, List.append_assoc, Reading.ofText_append]
  obtain ⟨between, rfl, hrest⟩ := Text.exists_append_of_byteLength_le hwhole hlength
  obtain ⟨word, rfl, -, hend⟩ := Reading.ofText_of_rest_eq hrest (by decide) (by decide) (by decide)
  refine ⟨word, ?_, rfl, Reading.ofText_joined_cons (by decide) hend, hend⟩
  exact (List.append_left_inj (' ' :: behind)).1 (hcs.trans (by simp))

section Blank

variable {d : Char} {separator : List Char}

theorem isEndedBy_of_isPadding {before : List Char} (h : IsPadding false before)
    (hpadding : IsPadding false (d :: separator)) : IsEndedBy d separator before := by
  refine .padding ?_ (h.append hpadding)
  have hsplit := Padding.split_append_of_isPadding h []
  rw [List.append_nil] at hsplit
  rw [hsplit]
  rfl

theorem isEndedBy_of_blank {text behind : List Char} (hpadding : IsPadding false (d :: separator))
    (here : Nat) (cs : List Char) :
    ∀ front before, text = front ++ cs → here = Text.byteLength front →
      cs = before ++ ' ' :: behind →
      (∃ gap ∈ gapsFrom (Text.byteLength text) here (lexFrom here cs),
        gap.SeparatesAt text (here + Text.byteLength before)) →
      (∀ l ∈ lexFrom here cs, l.span.stop = here + Text.byteLength before →
        l.token.endsAt ' ' = true → l.token.endsAt d = true) →
      IsEndedBy d separator before := by
  fun_induction lexFrom here cs with
  | case1 here cs padding hsplit =>
    rintro front before htext hhere rfl ⟨gap, hgap, hseparates⟩ -
    obtain rfl := List.mem_singleton.1 hgap
    exact isEndedBy_of_isPadding (isPadding_of_separatesAt htext hhere hseparates) hpadding
  | case2 here cs padding c rest hsplit reading start stop ih =>
    rintro front before htext hhere rfl ⟨gap, hgap, hseparates⟩ hends
    rcases List.mem_cons.1 hgap with rfl | hgap
    · exact isEndedBy_of_isPadding (isPadding_of_separatesAt htext hhere hseparates) hpadding
    -- the blank stands behind the first token, which therefore ends in front of it
    have hstop : stop = here + Text.byteLength (padding ++ reading.taken) := by
      rw [Text.byteLength_append, ← Nat.add_assoc]
    have hlength : Text.byteLength (padding ++ reading.taken) ≤ Text.byteLength before := by
      have hgapStart : stop ≤ gap.start := start_of_mem_gapsFrom hgap
      have hoffset := hseparates.1
      omega
    obtain ⟨word, rfl, rfl, hword, hend⟩ := exists_word_of_blank hsplit hlength
    have hread : reading = (Reading.ofText c word).before (' ' :: behind) := hword
    have hbefore : stop + Text.byteLength (Reading.ofText c word).rest =
        here + Text.byteLength (padding ++ c :: word) := by
      have htaken : reading.taken = (Reading.ofText c word).taken := by rw [hread]; rfl
      rw [hstop, htaken, ← Reading.ofText_append c word, ← List.append_assoc,
        Text.byteLength_append (padding ++ _), Nat.add_assoc]
    refine .token (Padding.isPadding_of_split hsplit).2 ?_ (fun hnil ↦ ?_) (ih
      (front ++ padding ++ reading.taken) _ (eq_of_split htext hsplit) ?_
      (congrArg Reading.rest hread) ?_ ?_)
    · exact (Padding.opens_joined (by decide) c word behind).symm.trans
        (Padding.opens_of_split hsplit)
    · have htoken : (Reading.ofText c word).token = reading.token := by rw [hread]; rfl
      have htouches : stop = here + Text.byteLength (padding ++ c :: word) := by
        rw [← hbefore, hnil]
        rfl
      rw [htoken]
      exact hends _ List.mem_cons_self htouches (htoken ▸ hend hnil)
    · rw [hstop, hhere, List.append_assoc, Text.byteLength_append front]
    · rw [hbefore]
      exact ⟨gap, hgap, hseparates⟩
    · rw [hbefore]
      exact fun l hl ↦ hends l (List.mem_cons_of_mem _ hl)

/-- Where a blank stands between tokens and outside of comments, other padding ends the text in
front of it as well, if it ends the token that may touch it. -/
theorem isEndedBy_of_separatesAt {before behind : String}
    (hpadding : IsPadding false (d :: separator))
    (hblank : SeparatesAt (before ++ " " ++ behind) (Text.byteLength before.toList))
    (hends : ∀ l ∈ lex (before ++ " " ++ behind), l.span.stop = Text.byteLength before.toList →
      l.token.endsAt ' ' = true → l.token.endsAt d = true) :
    IsEndedBy d separator before.toList := by
  have htext : (before ++ " " ++ behind).toList = before.toList ++ ' ' :: behind.toList := by simp
  refine isEndedBy_of_blank hpadding 0 _ [] before.toList rfl rfl htext ?_ ?_
  · rw [Nat.zero_add]
    exact hblank
  · rw [Nat.zero_add]
    exact hends

theorem IsEndedBy.lex_eq {before behind text : String} (h : IsEndedBy d separator before.toList)
    (hseparator : Reading.isSeparator d = true) (hstar : d ≠ '*')
    (htext : text.toList = before.toList ++ d :: separator ++ behind.toList) :
    lex text = lex before ++
      lexFrom (0 + Text.byteLength (before.toList ++ d :: separator)) behind.toList := by
  unfold lex
  rw [htext, h.lexFrom_append hseparator hstar]

end Blank

/-! ## A comment that touches an operator -/

/-- An operator that touches a slash is read together with it. -/
theorem IsEndedBy.map_token_ne {before : List Char} (h : IsEndedBy ' ' [] before)
    (here there : Nat) (behind back : List Char)
    (htouches : ∃ l ∈ lexFrom here before, l.token.isOperator = true ∧
      l.span.stop = here + Text.byteLength before) :
    (lexFrom there (before ++ '/' :: back)).map Lexeme.token ≠
      (lexFrom here (before ++ ' ' :: behind)).map Lexeme.token := by
  induction h generalizing here there with
  | padding hcs =>
    obtain ⟨l, hl, -⟩ := htouches
    rw [lexFrom_eq_nil here hcs] at hl
    cases hl
  | @token padding rest c hpadding hopens hend hrest ih =>
    obtain ⟨l, hl, hoperator, hstop⟩ := htouches
    have hlength : Text.byteLength (c :: rest) =
        Text.byteLength (Reading.ofText c rest).taken +
          Text.byteLength (Reading.ofText c rest).rest := by
      rw [← Text.byteLength_append, Reading.ofText_append]
    rw [lexFrom_cons here (Padding.split_of_isPadding hpadding hopens) rfl] at hl
    rw [lexFrom_cons_joined here hpadding hopens (by decide) (by decide) hend]
    rw [Text.byteLength_append] at hstop
    by_cases hnil : (Reading.ofText c rest).rest = []
    · -- the operator is the last token, and the slash makes it longer
      rw [hnil, lexFrom_eq_nil _ rfl] at hl
      obtain rfl := List.mem_singleton.1 hl
      have hopens' : Padding.opens c (rest ++ '/' :: back) = false :=
        (Padding.opens_joined (by decide) c rest back).trans hopens
      rw [List.append_assoc, List.cons_append,
        lexFrom_cons there (Padding.split_of_isPadding hpadding hopens') rfl]
      exact fun hsame ↦
        Reading.token_ne_of_isOperator hoperator hnil (by decide) (List.cons.inj hsame).1
    · rw [lexFrom_cons_joined there hpadding hopens (by decide) (by decide) (absurd · hnil)]
      rcases List.mem_cons.1 hl with rfl | hl
      · have hpos := mt Text.eq_nil_of_byteLength_eq_zero hnil
        dsimp only at hstop
        omega
      · refine fun hsame ↦ ih _ _ ⟨l, hl, hoperator, ?_⟩ (List.cons.inj hsame).2
        omega

/-- An operator of the text ends at the offset. -/
def OperatorEndsAt (source : String) (offset : Nat) : Prop :=
  ∃ l ∈ lex source, l.token.isOperator = true ∧ l.span.stop = offset

/-- A block comment in the place of a blank leaves the tokens as they are, if and only if it
touches no operator in front of it. -/
theorem tokens_comment_iff {before behind body : String}
    (hblank : SeparatesAt (before ++ " " ++ behind) (Text.byteLength before.toList))
    (hbody : ¬ ['*', '/'] <:+: body.toList) :
    (lex (before ++ "/*" ++ body ++ "*/" ++ behind)).map Lexeme.token =
        (lex (before ++ " " ++ behind)).map Lexeme.token ↔
      ¬ OperatorEndsAt (before ++ " " ++ behind) (Text.byteLength before.toList) := by
  have hspace : IsPadding false [' '] := .blank (by decide) .nil
  have hcomment : IsPadding false ('/' :: '*' :: (body.toList ++ ['*', '/'])) := .block hbody .nil
  have hended := isEndedBy_of_separatesAt hspace hblank fun _ _ _ h ↦ h
  have hlex := @IsEndedBy.lex_eq _ _ before behind (before ++ " " ++ behind) hended (by decide)
    (by decide) (by simp)
  constructor
  · rintro hsame ⟨l, hl, hoperator, hstop⟩
    -- what stands behind the blank ends behind it as well
    have hfront : l ∈ lex before := by
      rw [hlex] at hl
      refine (List.mem_append.1 hl).resolve_right fun hbehind ↦ ?_
      obtain ⟨hstart, hspan⟩ := span_of_mem_lexFrom hbehind
      rw [Text.byteLength_append] at hstart
      omega
    refine hended.map_token_ne 0 0 behind.toList ('*' :: (body ++ "*/" ++ behind).toList)
      ⟨l, hfront, hoperator, by rw [hstop, Nat.zero_add]⟩ ?_
    simpa [lex] using hsame
  · intro hfree
    have hended' := isEndedBy_of_separatesAt hcomment hblank fun l hl hstop hend ↦ by
      cases htoken : l.token with
      | unclosed q text => simp [htoken, Token.endsAt] at hend
      | operator text => exact absurd ⟨l, hl, by rw [htoken]; rfl, hstop⟩ hfree
      | _ => rfl
    rw [hlex, @IsEndedBy.lex_eq _ _ before behind (before ++ "/*" ++ body ++ "*/" ++ behind) hended'
      (by decide) (by decide) (by simp), List.map_append, List.map_append,
      map_token_lexFrom _ _ behind.toList]

/-- The comment touches the operator `<`, which takes its slash. What the comment says becomes
tokens. -/
theorem tokens_comment_iff_touching :
    SeparatesAt ("x <" ++ " " ++ " y") (Text.byteLength "x <".toList) ∧
      ¬ ['*', '/'] <:+: " c ".toList ∧
      (lex ("x <" ++ "/*" ++ " c " ++ "*/" ++ " y")).map Lexeme.token =
        [.identifier "x", .operator "</", .sign .star, .identifier "c", .sign .star,
          .operator "/", .identifier "y"] ∧
      (lex ("x <" ++ "/*" ++ " c " ++ "*/" ++ " y")).map Lexeme.token ≠
        (lex ("x <" ++ " " ++ " y")).map Lexeme.token := by
  have hblank : SeparatesAt ("x <" ++ " " ++ " y") (Text.byteLength "x <".toList) :=
    ⟨⟨3, 5⟩, by decide +kernel, by decide, by decide, [], by decide +kernel, .nil⟩
  have hbody : ¬ ['*', '/'] <:+: " c ".toList := by decide
  refine ⟨hblank, hbody, by decide +kernel, fun hsame ↦ ?_⟩
  exact (tokens_comment_iff hblank hbody).1 hsame
    ⟨⟨.operator "<", ⟨2, 3⟩⟩, by decide +kernel, rfl, by decide⟩

end MasCheck
